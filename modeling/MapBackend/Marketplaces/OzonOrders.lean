import MapBackend.Marketplaces.OzonModels
import MapBackend.Library.Workers

/-!
The synchronisation of FBS orders.
-/

namespace MapBackend.Marketplaces
open MapBackend.Library

/-- A product of a posting; the quantity is absent when it is not an integer. -/
structure RawOrderProduct where
  offerId : String
  sku : String
  name : String
  quantity : Option ℤ
  price : String
  deriving DecidableEq

/-- A posting as the provider sends it, its dates as `_date` reads them. The products are absent when
they are not a list of objects. -/
structure RawPosting where
  postingNumber : String
  status : String
  substatus : String
  inProcessAt : Option Instant
  shipmentDate : Option Instant
  warehouseId : Option String
  deliveryWarehouseId : Option String
  products : Option (List RawOrderProduct)
  updatedAt : Option Instant
  deriving DecidableEq

structure OrderProduct where
  offerId : String
  sku : String
  name : String
  quantity : ℕ
  price : String
  deriving DecidableEq

structure OzonFbsPosting where
  postingNumber : String
  status : String
  substatus : String
  inProcessAt : Option Instant
  shipmentDate : Option Instant
  warehouseId : String
  products : List OrderProduct
  providerUpdatedAt : Option Instant
  lastSyncedAt : Instant
  deriving DecidableEq

inductive OzonOrderSyncError where
  | accountNotReady
  | rangeInvalid
  | credentials (error : OzonErrorEntry)
  | api (error : OzonAPIError)
  | invalidProducts
  | invalidQuantity
  | withoutNumber
  | pageLimitExceeded
  deriving DecidableEq

/-- The postings of one account and the versions of the provider. A commit is noted with the number of
versions that its reading saw; no function reads the notes. -/
structure OzonOrderStore where
  postings : List OzonFbsPosting
  versions : List RawPosting
  commits : List (String × ℕ)

structure OzonOrderInput where
  now : Instant
  account : OzonAccountView
  /-- The postings that the page shows and `has_next`. -/
  page : Except OzonAPIError (List String × Bool)

namespace OzonOrders

def cut (limit : ℕ) (text : String) : String := String.ofList (text.toList.take limit)

def orderProduct (item : RawOrderProduct) : Except OzonOrderSyncError OrderProduct :=
  match item.quantity with
  | some (Int.ofNat quantity) => .ok
    { offerId := cut 100 item.offerId, sku := cut 100 item.sku, name := cut 500 item.name, quantity,
      price := cut 50 item.price }
  | _ => .error .invalidQuantity

def orderProducts (raw : Option (List RawOrderProduct)) : Except OzonOrderSyncError (List OrderProduct) := do
  let items ← orRaise .invalidProducts raw
  raiseIf (100 < items.length) .invalidProducts
  items.mapM orderProduct

def project (raw : RawPosting) (now : Instant) : Except OzonOrderSyncError OzonFbsPosting := do
  raiseIf (raw.postingNumber = "" ∨ 100 < raw.postingNumber.length) .withoutNumber
  let products ← orderProducts raw.products
  pure
    { postingNumber := raw.postingNumber, status := cut 100 raw.status, substatus := cut 100 raw.substatus,
      inProcessAt := raw.inProcessAt, shipmentDate := raw.shipmentDate,
      warehouseId := cut 100 ((raw.warehouseId.orElse fun _ => raw.deliveryWarehouseId).getD ""),
      products, providerUpdatedAt := raw.updatedAt, lastSyncedAt := now }

/-- `update_or_create` by the number of the posting. -/
def upsert (row : OzonFbsPosting) (rows : List OzonFbsPosting) : List OzonFbsPosting :=
  if ∃ old ∈ rows, old.postingNumber = row.postingNumber then put OzonFbsPosting.postingNumber row rows
  else rows ++ [row]

def writePage (now : Instant) : List RawPosting → List OzonFbsPosting →
    Except OzonOrderSyncError (List OzonFbsPosting)
  | [], rows => .ok rows
  | raw :: rest, rows => do
    let row ← project raw now
    writePage now rest (upsert row rows)

end OzonOrders

def latest (versions : List RawPosting) (number : String) : Option RawPosting :=
  (versions.filter fun raw => raw.postingNumber = number).getLast?

/-- `sync_fbs_orders` before a page is read and before it is written. -/
inductive OzonOrderWorker where
  | sync (days : ℤ)
  | readPage (page imported : ℕ)
  | writePage (page imported : ℕ) (postings : List RawPosting) (seen : ℕ) (hasNext : Bool)
  | done (result : Except OzonOrderSyncError ℕ)

namespace OzonOrderWorker
open OzonOrders

def start (days : ℤ) (account : OzonAccountView) : Except OzonOrderSyncError Unit := do
  raiseIf (¬ (account.isOzon = true ∧ account.isActive = true)) .accountNotReady
  raiseIf (days < 1 ∨ 30 < days) .rangeInvalid
  match account.credentials with
  | .ok () => pure ()
  | .error error => .error (.credentials error)

/-- The page that `list_fbs_postings` answers; more than the limit is no valid answer. -/
def listFbsPostings (s : OzonOrderStore) (numbers : List String) : Except OzonOrderSyncError (List RawPosting) := do
  raiseIf (100 < numbers.length) (.api ⟨.invalidResponse, "Ozon вернул некорректный список FBS-заказов.", none⟩)
  pure (numbers.filterMap (latest s.versions))

def advance : OzonOrderWorker → OzonOrderInput → OzonOrderStore → OzonOrderStore × OzonOrderWorker
  | .sync days, input, s =>
    match start days input.account with
    | .error error => (s, .done (.error error))
    | .ok () => (s, .readPage 0 0)
  | .readPage page imported, input, s =>
    if 10 ≤ page then (s, .done (.error .pageLimitExceeded))
    else
      match input.page with
      | .error error => (s, .done (.error (.api error)))
      | .ok (numbers, hasNext) =>
        match listFbsPostings s numbers with
        | .error error => (s, .done (.error error))
        | .ok postings => (s, .writePage page imported postings s.versions.length hasNext)
  | .writePage page imported postings seen hasNext, input, s =>
    match OzonOrders.writePage input.now postings s.postings with
    | .error error => (s, .done (.error error))
    | .ok rows =>
      ({ s with postings := rows, commits := s.commits ++ postings.map fun raw => (raw.postingNumber, seen) },
        if hasNext then .readPage (page + 1) (imported + postings.length)
        else .done (.ok (imported + postings.length)))
  | .done result, _, s => (s, .done result)

end OzonOrderWorker

def RawPosting.Older (old new : RawPosting) : Prop := ∀ t ∈ old.updatedAt, ∀ u ∈ new.updatedAt, t ≤ u

instance (old new : RawPosting) : Decidable (old.Older new) :=
  inferInstanceAs (Decidable (∀ t ∈ old.updatedAt, ∀ u ∈ new.updatedAt, t ≤ u))

def OzonOrderStore.next (s : OzonOrderStore) (raw : RawPosting) : OzonOrderStore :=
  if ∀ old ∈ s.versions, old.postingNumber = raw.postingNumber → old.Older raw then
    { s with versions := s.versions ++ [raw] }
  else s

abbrev OzonOrderCrew := Crew OzonOrderStore OzonOrderWorker

/-- A run for so many days starts, moves or crashes, or the provider updates a posting. -/
abbrev OzonOrderAction := CrewAction ℤ OzonOrderInput RawPosting

def OzonOrderCrew.next (c : OzonOrderCrew) (a : OzonOrderAction) : OzonOrderCrew :=
  c.act OzonOrderStore.next OzonOrderWorker.advance .sync a

end MapBackend.Marketplaces
