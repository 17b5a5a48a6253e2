import MapBackend.Marketplaces.OzonSenders

/-!
What the provider holds of a price and a stock.
-/

namespace MapBackend.Marketplaces
open MapBackend.Library

/-! ## Updates that went out -/

inductive OfferValue where
  | price (hundredths : ℤ)
  | stock (quantity warehouseId : ℕ)
  deriving DecidableEq

namespace OzonRequest

def value? : OzonRequest → Option OfferValue
  | .price item => some (.price item.price)
  | .stock item => some (.stock item.stock item.warehouseId)
  | .product => none

def kind? : OzonRequest → Option OzonOperationKind
  | .price _ => some .priceUpdate
  | .stock _ => some .stockUpdate
  | .product => none

end OzonRequest

def OzonOfferDraft.synced? (draft : OzonOfferDraft) : OzonOperationKind → Option OfferValue
  | .priceUpdate => draft.lastSyncedPrice.map .price
  | .stockUpdate => draft.lastSyncedStock.bind fun quantity => draft.lastStockWarehouseId.map (.stock quantity)
  | _ => none

/-- A call to the provider for a price or a stock; its request may have reached the provider whatever it answered. -/
structure SentUpdate where
  operation : Uuid
  request : OzonRequest
  answer : Except OzonAPIError (List UpdateResult)

def SentUpdate.Confirmed (update : SentUpdate) : Prop :=
  ∃ results, update.answer = .ok results ∧
    ∃ exact ∈ results.find? fun result => OzonCommerce.matchesRequest update.request result, exact.errors = [] ∧ exact.updated = true

def OzonEvent.update? : OzonEvent → Option SentUpdate
  | .pricesUpdated operation item answer => some ⟨operation, .price item, answer⟩
  | .stocksUpdated operation item answer => some ⟨operation, .stock item, answer⟩
  | _ => none

namespace OzonStore

def updates (s : OzonStore) : List SentUpdate := s.history.filterMap OzonEvent.update?

def owns (s : OzonStore) (offer : Uuid) (kind : OzonOperationKind) (pk : Uuid) : Bool :=
  s.operations.any fun row => decide (row.pk = pk ∧ row.offer = offer ∧ row.kind = kind)

def lastUpdate? (s : OzonStore) (offer : Uuid) (kind : OzonOperationKind) : Option SentUpdate :=
  (s.updates.filter fun update => s.owns offer kind update.operation).getLast?

end OzonStore

/-! ## Calls that return -/

namespace OzonCommerce

/-- A call of `sync_offer_commerce` that returns, with what it read and the operations that it returns. -/
structure SyncReturn (offer : Uuid) (key : String) (input : OzonInput) (s : OzonStore) where
  draft : OzonOfferDraft
  productId : ℕ
  selected : ℤ
  desired : ℤ
  between : OzonStore
  next : OzonStore
  price : Option OzonOperation
  stock : Option OzonOperation
  found : s.draft? offer = some draft
  admitted : requireCommerceAdmission input.account draft = .ok (productId, selected)
  wanted : input.finalPrice = some desired
  priced : priceOperation draft (key ++ ":price") productId desired input s = .ok (between, price)
  stocked : stockOperation draft (key ++ ":stock") productId selected.toNat input.stockQty input between = .ok (next, stock)
  returned : syncOfferCommerce offer key input s = .ok (next, .submitCommerce ((price.toList ++ stock.toList).map OzonOperation.pk))

theorem SyncReturn.of_ok {offer : Uuid} {key : String} {input : OzonInput} {s next : OzonStore} {w : OzonWorker}
    (step : syncOfferCommerce offer key input s = .ok (next, w)) : Nonempty (SyncReturn offer key input s) := by
  have made := step
  simp only [syncOfferCommerce, bind_ok, orRaise_ok, Prod.exists] at step
  obtain ⟨_, _, draft, found, productId, selected, granted, desired, wanted, _, _, _, _, between, price, priced, _, stock, stocked, done⟩ := step
  cases done
  exact ⟨⟨draft, productId, selected, desired, between, next, price, stock, found, granted, wanted, priced, stocked, made⟩⟩

namespace SyncReturn

variable {offer : Uuid} {key : String} {input : OzonInput} {s : OzonStore} (call : SyncReturn offer key input s)

def operation? : OzonOperationKind → Option OzonOperation
  | .priceUpdate => call.price
  | .stockUpdate => call.stock
  | _ => none

def value? : OzonOperationKind → Option OfferValue
  | .priceUpdate => some (.price call.desired)
  | .stockUpdate => some (.stock input.stockQty call.selected.toNat)
  | _ => none

/-- No operation of the kind is there under the key or active, and the last synced value is the wanted one. -/
def Trusts : OzonOperationKind → Prop
  | .priceUpdate =>
    existingOrActive s call.draft .priceUpdate (key ++ ":price") input.now = .ok none ∧
      call.draft.synced? .priceUpdate = call.value? .priceUpdate
  | .stockUpdate =>
    existingOrActive s call.draft .stockUpdate (key ++ ":stock") input.now = .ok none ∧
      call.draft.synced? .stockUpdate = call.value? .stockUpdate
  | _ => False

end SyncReturn

end OzonCommerce

/-- A call that sends nothing of a kind knows that the provider holds the wanted value: the last update of the
kind that may have reached it was confirmed and sent this value. -/
def Converges (c : OzonCrew) (w : OzonWorker) (input : OzonInput) : Prop :=
  ∀ offer key, w = .syncOfferCommerce offer key → ∀ call : OzonCommerce.SyncReturn offer key input c.store, ∀ kind value,
    call.value? kind = some value → call.operation? kind = none →
      ∃ update ∈ c.store.lastUpdate? offer kind, update.Confirmed ∧ update.request.value? = some value

/-- Wherever a call trusts the last synced value of a kind, the last update of the kind that went out was confirmed. -/
def TrustsConfirmed (c : OzonCrew) (w : OzonWorker) (input : OzonInput) : Prop :=
  ∀ offer key, w = .syncOfferCommerce offer key → ∀ call : OzonCommerce.SyncReturn offer key input c.store, ∀ kind,
    call.Trusts kind → ∃ update ∈ c.store.lastUpdate? offer kind, update.Confirmed

def OzonAction.Selling : OzonAction → Prop
  | .call (.requestProductArchive _ _) => False
  | _ => True

instance : (a : OzonAction) → Decidable a.Selling
  | .call (.requestProductArchive _ _) => .isFalse id
  | .call (.requestProductImport _ _) | .call (.reconcileProductImport _ _) | .call (.reconcileProductArchive _)
  | .call (.syncOfferCommerce _ _) | .move _ _ | .crash _ => .isTrue trivial

namespace OzonCommerce

section Requests

variable {draft : OzonOfferDraft} {key : String} {productId : ℕ} {input : OzonInput} {s next : OzonStore} {result : Option OzonOperation}

theorem synced_stock {quantity warehouseId : ℕ} : draft.synced? .stockUpdate = some (.stock quantity warehouseId) ↔
    draft.lastSyncedStock = some quantity ∧ draft.lastStockWarehouseId = some warehouseId := by
  simp [OzonOfferDraft.synced?, Option.bind_eq_some_iff]

theorem synced_price {hundredths : ℤ} : draft.synced? .priceUpdate = some (.price hundredths) ↔ draft.lastSyncedPrice = some hundredths := by
  simp [OzonOfferDraft.synced?]

theorem price_none {desired : ℤ} (step : priceOperation draft key productId desired input s = .ok (next, result)) :
    result = none ↔ existingOrActive s draft .priceUpdate key input.now = .ok none ∧ draft.synced? .priceUpdate = some (.price desired) := by
  simp only [priceOperation, bind_ok] at step
  obtain ⟨_, looked, step⟩ := step
  rw [looked, synced_price]
  split at step
  next wanted =>
    simp only [bind_ok, Prod.exists] at step
    obtain ⟨_, _, _, _, _, made⟩ := step
    cases made
    simp [wanted.2]
  next unwanted =>
    cases made : step
    simp only [Except.ok.injEq]
    exact ⟨fun none_found => ⟨none_found, not_not.mp fun other => unwanted ⟨none_found, other⟩⟩, And.left⟩

theorem stock_none {warehouseId desired : ℕ} (step : stockOperation draft key productId warehouseId desired input s = .ok (next, result)) :
    result = none ↔
      existingOrActive s draft .stockUpdate key input.now = .ok none ∧ draft.synced? .stockUpdate = some (.stock desired warehouseId) := by
  simp only [stockOperation, bind_ok] at step
  obtain ⟨_, looked, step⟩ := step
  rw [looked, synced_stock]
  split at step
  next wanted =>
    simp only [bind_ok, Prod.exists] at step
    obtain ⟨_, _, _, _, _, made⟩ := step
    cases made
    simp only [reduceCtorEq, false_iff]
    exact fun trusted => wanted.2 trusted.2
  next unwanted =>
    cases made : step
    simp only [Except.ok.injEq]
    exact ⟨fun none_found => ⟨none_found, not_not.mp fun other => unwanted ⟨none_found, other⟩⟩, And.left⟩

theorem existingOrActive_between (part : CommercePart input draft .priceUpdate (key ++ ":price") s next result) :
    existingOrActive next draft .stockUpdate (key ++ ":stock") input.now = existingOrActive s draft .stockUpdate (key ++ ":stock") input.now := by
  cases part with
  | settled => rfl
  | found => rfl
  | created request =>
    have other : key ++ ":price" ≠ key ++ ":stock" := fun same => absurd ((String.append_right_inj key).mp same) (by decide)
    have same_key : (s.insert (OzonOperation.create s.nextPk draft.pk .priceUpdate (key ++ ":price") "" request input.now)).existing?
        (key ++ ":stock") = s.existing? (key ++ ":stock") := by
      simp [OzonStore.existing?, OzonStore.insert, List.find?_append, OzonOperation.create, other]
    have same_kind : (s.insert (OzonOperation.create s.nextPk draft.pk .priceUpdate (key ++ ":price") "" request input.now)).offerOperations
        draft.pk .stockUpdate = s.offerOperations draft.pk .stockUpdate := by
      simp [OzonStore.offerOperations, OzonStore.insert, OzonOperation.create]
    rw [existingOrActive, same_key, existingOrActive]
    simp only [blocking?, same_kind]

end Requests

theorem SyncReturn.operation_none {offer : Uuid} {key : String} {input : OzonInput} {s : OzonStore} (call : SyncReturn offer key input s)
    {kind : OzonOperationKind} {value : OfferValue} (wanted : call.value? kind = some value) :
    call.operation? kind = none ↔ call.Trusts kind := by
  cases kind with
  | priceUpdate => exact price_none call.priced
  | stockUpdate =>
    show call.stock = none ↔ existingOrActive s call.draft .stockUpdate (key ++ ":stock") input.now = .ok none ∧ _
    rw [stock_none call.stocked, existingOrActive_between (priceOperation_ok call.priced)]
    rfl
  | productImport => cases wanted
  | archive => cases wanted

end OzonCommerce

end MapBackend.Marketplaces
