import MapBackend.Billing.AIWallet
import MapBackend.Core.PublicUrl
import MapBackend.Library.Json
import MapBackend.Library.Tables
import Mathlib.Logic.Function.Basic

/-!
The accounting of calls to a paid AI provider.
-/

namespace MapBackend.AIAgent
open MapBackend.Library MapBackend.Billing MapBackend.Core

/-! ## Rows -/

inductive TaskType where
  | descriptionGeneration
  | classification
  | attributeExtraction
  | fitmentResolution
  | webResearch
  deriving DecidableEq

inductive DomainType where
  | product
  | webResearchRun
  deriving DecidableEq

inductive OperationStatus where
  | reserved
  | pendingReconciliation
  | released
  | settled
  deriving DecidableEq

def OperationStatus.text : OperationStatus → String
  | .reserved => "reserved"
  | .pendingReconciliation => "pending_reconciliation"
  | .released => "released"
  | .settled => "settled"

def OperationStatus.Held (status : OperationStatus) : Prop := status = .reserved ∨ status = .pendingReconciliation

instance (status : OperationStatus) : Decidable status.Held :=
  inferInstanceAs (Decidable (status = .reserved ∨ status = .pendingReconciliation))

inductive ApplyState where
  | notRequired
  | pending
  | applied
  deriving DecidableEq

inductive ResolutionAction where
  | release
  | settle
  | settleReserved
  deriving DecidableEq

structure AIProviderOperation where
  id : ℕ
  tenant : ℕ
  taskType : TaskType
  provider : Text
  modelId : Text
  reservationKey : String
  reservedAmount : Credits
  chargedAmount : Option Credits
  domainType : DomainType
  domainReference : Text
  status : OperationStatus
  providerErrorCode : Text
  terminalReason : Text
  resolutionAction : Option ResolutionAction
  operatorNote : Text
  validatedResult : Option Json
  applyState : ApplyState
  createdAt : Instant
  networkStartedAt : Option Instant
  uncertaintyMarkedAt : Option Instant
  releasedAt : Option Instant
  settledAt : Option Instant
  resolvedAt : Option Instant
  appliedAt : Option Instant

namespace AIProviderOperation

def Unresolved (o : AIProviderOperation) : Prop := o.status.Held ∨ (o.status = .settled ∧ o.applyState = .pending)

instance (o : AIProviderOperation) : Decidable o.Unresolved :=
  inferInstanceAs (Decidable (o.status.Held ∨ (o.status = .settled ∧ o.applyState = .pending)))

def domain (o : AIProviderOperation) : ℕ × TaskType × DomainType × Text :=
  (o.tenant, o.taskType, o.domainType, o.domainReference)

def reservation (o : AIProviderOperation) : AIReservation := { key := o.reservationKey, amount := o.reservedAmount.value }

end AIProviderOperation

structure Product where
  pk : ℕ
  tenant : ℕ
  deletedAt : Option Instant
  titleAi : Text
  descriptionAi : Text
  deriving DecidableEq

inductive ListingStatus where
  | draft | queued | pending | active | rejected | archiving | archived | deleted | requiresReview | limitReached
  deriving DecidableEq

structure Listing where
  pk : ℕ
  product : ℕ
  deletedAt : Option Instant
  status : ListingStatus
  title : Text
  descriptionAi : Text
  aiConfidence : Option ℚ
  deriving DecidableEq

structure WebResearchRun where
  pk : ℕ
  tenant : ℕ
  deriving DecidableEq

/-- The tables. `applications` lists the operations whose result was written to a product, and no
function reads it. -/
structure OperationStore where
  wallets : ℕ → WalletStore
  operations : List AIProviderOperation
  tenants : List ℕ
  products : List Product
  listings : List Listing
  runs : List WebResearchRun
  applications : List ℕ

inductive OperationError where
  | value (message : String)
  /-- A lookup by a primary key that is no number. -/
  | fieldValue
  | state (message : String)
  | reconciliationRequired
  | doesNotExist
  | integrityError
  | dataError
  | wallet (error : WalletError)
  deriving DecidableEq

/-! ## What the functions read in a text or a JSON value -/

def decimalZeros : List ℕ :=
  [0x30, 0x660, 0x6F0, 0x7C0, 0x966, 0x9E6, 0xA66, 0xAE6, 0xB66, 0xBE6, 0xC66, 0xCE6, 0xD66, 0xDE6, 0xE50, 0xED0, 0xF20,
    0x1040, 0x1090, 0x17E0, 0x1810, 0x1946, 0x19D0, 0x1A80, 0x1A90, 0x1B50, 0x1BB0, 0x1C40, 0x1C50, 0xA620, 0xA8D0, 0xA900,
    0xA9D0, 0xA9F0, 0xAA50, 0xABF0, 0xFF10, 0x104A0, 0x10D30, 0x11066, 0x110F0, 0x11136, 0x111D0, 0x112F0, 0x11450, 0x114D0,
    0x11650, 0x116C0, 0x11730, 0x118E0, 0x11950, 0x11C50, 0x11D50, 0x11DA0, 0x11F50, 0x16A60, 0x16AC0, 0x16B50, 0x1D7CE,
    0x1D7D8, 0x1D7E2, 0x1D7EC, 0x1D7F6, 0x1E140, 0x1E2F0, 0x1E4F0, 0x1E950, 0x1FBF0]

def digitValue (c : Char) : Option ℕ :=
  (decimalZeros.find? fun first => decide (first ≤ c.toNat) && decide (c.toNat < first + 10)).map fun first => c.toNat - first

def moreDigits (value : ℕ) : Text → Option ℕ
  | [] => some value
  | '_' :: c :: rest => (digitValue c).bind fun digit => moreDigits (10 * value + digit) rest
  | c :: rest => (digitValue c).bind fun digit => moreDigits (10 * value + digit) rest

def digits : Text → Option ℕ
  | [] => none
  | c :: rest => (digitValue c).bind fun digit => moreDigits digit rest

def intOf (text : Text) : Option ℤ :=
  match Url.strip text with
  | '-' :: rest => (digits rest).map fun n => -(n : ℤ)
  | '+' :: rest => (digits rest).map fun n => (n : ℤ)
  | rest => (digits rest).map fun n => (n : ℤ)

def maxValidatedResultBytes : ℕ := 256 * 1024

def boundedValidatedResult (result : Json) : Except OperationError Json := do
  raiseIf (result.isObject = false) (.value "validated_result must be an object")
  let serialized ← orRaise (.value "validated_result must contain bounded JSON values") result.sorted.dumps
  raiseIf (maxValidatedResultBytes < utf8Length serialized) (.value "validated_result exceeds the 256 KiB limit")
  .ok result.sorted

/-- What the apply step writes of a description that passed its validation. -/
structure DescriptionResult where
  title : Text
  description : Text
  confidence : ℚ
  titled : 1 ≤ title.length ∧ title.length ≤ 200
  described : 1 ≤ description.length ∧ description.length ≤ 7500
  confident : 0 ≤ confidence ∧ confidence ≤ 1

def confidenceOf : Json → Option ℚ
  | .int n => some n
  | .float value _ => some value
  | _ => none

def descriptionResult (value : Option Json) : Except OperationError DescriptionResult := do
  let object ← orRaise (.state "Description result payload is missing.") (value.filter Json.isObject)
  match object.get "title".toList, object.get "description".toList, (object.get "confidence".toList).bind confidenceOf with
  | some (.text title), some (.text description), some confidence =>
    if valid : (1 ≤ title.length ∧ title.length ≤ 200) ∧ (1 ≤ description.length ∧ description.length ≤ 7500) ∧
        0 ≤ confidence ∧ confidence ≤ 1 then
      .ok ⟨title, description, confidence, valid.1, valid.2.1, valid.2.2⟩
    else .error (.state "Stored description result failed domain validation.")
  | _, _, _ => .error (.state "Stored description result failed domain validation.")

namespace OperationStore

/-! ## The transitions of a locked row -/

def get (s : OperationStore) (id : ℕ) : Except OperationError AIProviderOperation :=
  orRaise .doesNotExist (s.operations.find? fun o => decide (o.id = id))

def save (s : OperationStore) (o : AIProviderOperation) : OperationStore :=
  { s with operations := put AIProviderOperation.id o s.operations }

def onWallet {R : Type} (s : OperationStore) (tenant : ℕ) (operation : WalletStore → Except WalletError (WalletStore × R)) :
    Except OperationError (OperationStore × R) :=
  match operation (s.wallets tenant) with
  | .error error => .error (.wallet error)
  | .ok (wallet, result) => .ok ({ s with wallets := Function.update s.wallets tenant wallet }, result)

def releaseLocked (s : OperationStore) (o : AIProviderOperation) (reason operatorNote : Text) (now : Instant) :
    Except OperationError OperationStore := do
  let (s, _) ← s.onWallet o.tenant (AIWalletService.release o.reservation)
  .ok (s.save { o with
    status := .released
    chargedAmount := some 0
    terminalReason := reason.take 120
    resolutionAction := some .release
    operatorNote
    validatedResult := none
    applyState := .notRequired
    releasedAt := some now
    resolvedAt := some now })

structure Settlement where
  actualAmount : ℚ
  reason : Text
  operatorNote : Text
  resolutionAction : ResolutionAction
  validatedResult : Option Json
  applyRequired : Bool

def settleLocked (s : OperationStore) (o : AIProviderOperation) (r : Settlement) (now : Instant) :
    Except OperationError (OperationStore × ℚ) := do
  raiseIf (r.applyRequired = true ∧ r.validatedResult.isNone) (.value "validated_result is required for domain application")
  let validatedResult ← r.validatedResult.mapM boundedValidatedResult
  let (s, charged) ← s.onWallet o.tenant (AIWalletService.settle o.reservation r.actualAmount)
  let stored ← orRaise .dataError (Numeric.store 16 4 charged)
  .ok (s.save { o with
    status := .settled
    chargedAmount := some stored
    terminalReason := r.reason.take 120
    resolutionAction := some r.resolutionAction
    operatorNote := r.operatorNote
    validatedResult
    applyState := if r.applyRequired then .pending else .notRequired
    settledAt := some now
    resolvedAt := some now }, charged)

/-! ## The functions -/

structure Uuid where
  text : String
  shape : text.toList.all (fun c => c.isDigit || ['a', 'b', 'c', 'd', 'e', 'f', '-'].contains c) = true

structure BeginRequest where
  tenant : Tenant
  taskType : TaskType
  provider : Text
  modelId : Text
  reservedAmount : ℚ
  domainType : DomainType
  domainReference : Text
  /-- The primary key of the row and what the wallet reads outside the store. -/
  id : ℕ
  zone : Zone
  now : Instant
  walletPk : ℕ
  uuid : Uuid

def BeginRequest.env (r : BeginRequest) : WalletEnv := { zone := r.zone, now := r.now, walletPk := r.walletPk, uuid := r.uuid.text }

def BeginRequest.row (r : BeginRequest) (reservationKey : String) (reservedAmount : Credits) : AIProviderOperation where
  id := r.id
  tenant := r.tenant.pk
  taskType := r.taskType
  provider := r.provider
  modelId := r.modelId
  reservationKey
  reservedAmount
  chargedAmount := none
  domainType := r.domainType
  domainReference := Url.strip r.domainReference
  status := .reserved
  providerErrorCode := []
  terminalReason := []
  resolutionAction := none
  operatorNote := []
  validatedResult := none
  applyState := .notRequired
  createdAt := r.now
  networkStartedAt := none
  uncertaintyMarkedAt := none
  releasedAt := none
  settledAt := none
  resolvedAt := none
  appliedAt := none

def ownerExists (s : OperationStore) (tenant : ℕ) (pk : ℤ) : DomainType → Bool
  | .product => s.products.any fun row => decide ((row.pk : ℤ) = pk) && decide (row.tenant = tenant)
  | .webResearchRun => s.runs.any fun row => decide ((row.pk : ℤ) = pk) && decide (row.tenant = tenant)

/-- `begin_ai_provider_operation`. A domain type outside the choices raises before anything is read. -/
def beginAiProviderOperation (s : OperationStore) (r : BeginRequest) : Except OperationError (OperationStore × ℕ) := do
  let reference := Url.strip r.domainReference
  raiseIf (reference.isEmpty = true) (.value "domain_reference is required")
  raiseIf (s.tenants.contains r.tenant.pk = false) .doesNotExist
  let pk ← orRaise .fieldValue (intOf reference)
  raiseIf (s.ownerExists r.tenant.pk pk r.domainType = false) (.value "AI provider operation domain owner does not exist")
  raiseIf (∃ o ∈ s.operations, o.domain = (r.tenant.pk, r.taskType, r.domainType, reference) ∧ o.Unresolved) .reconciliationRequired
  let (s, reservation) ← s.onWallet r.tenant.pk (AIWalletService.reserve r.env r.tenant r.reservedAmount none)
  raiseIf (20 < r.provider.length ∨ 120 < r.modelId.length ∨ 160 < reference.length) .dataError
  let reservedAmount ← orRaise .dataError (Numeric.store 16 4 reservation.amount)
  raiseIf (∃ o ∈ s.operations, o.id = r.id ∨ (o.tenant = r.tenant.pk ∧ o.reservationKey = reservation.key)) .integrityError
  .ok ({ s with operations := s.operations ++ [r.row reservation.key reservedAmount] }, r.id)

def markAiProviderNetworkStarted (s : OperationStore) (id : ℕ) (now : Instant) : Except OperationError (OperationStore × Unit) := do
  let o ← s.get id
  raiseIf (o.status ≠ .reserved) (.state s!"Cannot start provider call for operation in status {o.status.text}.")
  if o.networkStartedAt.isNone then .ok (s.save { o with networkStartedAt := some now }, ()) else .ok (s, ())

def markAiProviderOperationUncertain (s : OperationStore) (id : ℕ) (errorCode : Text) (now : Instant) :
    Except OperationError (OperationStore × Unit) := do
  let o ← s.get id
  match o.status with
  | .released | .settled | .pendingReconciliation => .ok (s, ())
  | .reserved =>
    .ok (s.save { o with
      status := .pendingReconciliation
      providerErrorCode := errorCode.take 80
      uncertaintyMarkedAt := some (o.uncertaintyMarkedAt.getD now) }, ())

def releaseAiProviderOperation (s : OperationStore) (id : ℕ) (reason : Text) (now : Instant) :
    Except OperationError (OperationStore × Unit) := do
  let o ← s.get id
  if o.status = .released then .ok (s, ())
  else do
    raiseIf (o.status = .settled) (.state "A settled operation cannot be released.")
    let s ← s.releaseLocked o reason [] now
    .ok (s, ())

structure SettleRequest where
  actualAmount : ℚ
  terminalReason : Text
  validatedResult : Option Json
  applyRequired : Bool

def settleAiProviderOperation (s : OperationStore) (id : ℕ) (r : SettleRequest) (now : Instant) :
    Except OperationError (OperationStore × ℚ) := do
  let o ← s.get id
  if o.status = .settled then .ok (s, (o.chargedAmount.map Numeric.value).getD 0)
  else do
    raiseIf (o.status = .released) (.state "A released operation cannot be settled.")
    s.settleLocked o ⟨r.actualAmount, r.terminalReason, [], .settle, r.validatedResult, r.applyRequired⟩ now

def manualReconciliation : Text := "manual_reconciliation".toList

def targetStatus (action : ResolutionAction) : OperationStatus := if action = .release then .released else .settled

def resolveUncertainAiProviderOperation (s : OperationStore) (id : ℕ) (action : ResolutionAction) (operatorNote : Text)
    (now : Instant) : Except OperationError (OperationStore × Bool) := do
  let note := Url.strip operatorNote
  raiseIf (note.isEmpty = true) (.value "operator_note is required")
  raiseIf (action = .settle) (.value "unsupported reconciliation action")
  let o ← s.get id
  if o.status = targetStatus action then .ok (s, false)
  else do
    raiseIf (o.status = .released ∨ o.status = .settled) (.state s!"Operation is already terminal with status {o.status.text}.")
    raiseIf (o.status ≠ .pendingReconciliation)
      (.state "Only an operation pending reconciliation can be resolved manually.")
    if action = .release then do
      let s ← s.releaseLocked o manualReconciliation note now
      .ok (s, true)
    else do
      let (s, _) ← s.settleLocked o ⟨o.reservedAmount.value, manualReconciliation, note, .settleReserved, none, false⟩ now
      .ok (s, true)

def editable (row : Listing) : Bool :=
  row.deletedAt.isNone && [ListingStatus.draft, .requiresReview, .rejected].contains row.status

def writeDescription (s : OperationStore) (id productPk : ℕ) (result : DescriptionResult) : OperationStore :=
  { s with
    products := s.products.map fun row =>
      if row.pk = productPk then { row with titleAi := result.title, descriptionAi := result.description } else row
    listings := s.listings.map fun row =>
      if row.product = productPk ∧ editable row = true then
        { row with title := result.title, descriptionAi := result.description, aiConfidence := some result.confidence }
      else row
    applications := s.applications ++ [id] }

def applyDescriptionProviderOperation (s : OperationStore) (id : ℕ) (now : Instant) :
    Except OperationError (OperationStore × DescriptionResult) := do
  let o ← s.get id
  raiseIf (o.status ≠ .settled ∨ o.domainType ≠ .product ∨ o.taskType ≠ .descriptionGeneration)
    (.state "Operation is not a settled description result.")
  if o.applyState = .applied then do
    let result ← descriptionResult o.validatedResult
    .ok (s, result)
  else do
    raiseIf (o.applyState ≠ .pending) (.state "Description operation is not pending domain application.")
    let result ← descriptionResult o.validatedResult
    let productId ← orRaise (.state "Description operation has an invalid product reference.") (intOf o.domainReference)
    let product ← orRaise (.state "Description result product no longer exists.")
      (s.products.find? fun row => decide ((row.pk : ℤ) = productId) && decide (row.tenant = o.tenant) && row.deletedAt.isNone)
    let s := s.writeDescription id product.pk result
    .ok (s.save { o with applyState := .applied, appliedAt := some now }, result)

structure StaleRequest where
  checkedAt : Instant
  startedTimeoutSeconds : ℤ
  neverStartedTimeoutSeconds : ℤ
  limit : ℕ
  /-- Rows that other transactions hold, which the scan skips. -/
  locked : List ℕ
  now : Instant

def staleStarted (r : StaleRequest) (o : AIProviderOperation) : Bool :=
  decide (o.status = .reserved) && (o.networkStartedAt.any fun startedAt =>
    decide (startedAt ≤ r.checkedAt - r.startedTimeoutSeconds * 1000000)) && !r.locked.contains o.id

def staleNeverStarted (r : StaleRequest) (o : AIProviderOperation) : Bool :=
  decide (o.status = .reserved) && o.networkStartedAt.isNone &&
    decide (o.createdAt ≤ r.checkedAt - r.neverStartedTimeoutSeconds * 1000000) && !r.locked.contains o.id

/-- `order_by('network_started_at', 'created_at')`. -/
def startedBefore (a b : AIProviderOperation) : Prop :=
  a.networkStartedAt.getD 0 < b.networkStartedAt.getD 0 ∨
    (a.networkStartedAt.getD 0 = b.networkStartedAt.getD 0 ∧ a.createdAt ≤ b.createdAt)

instance (a b : AIProviderOperation) : Decidable (startedBefore a b) :=
  inferInstanceAs (Decidable (a.networkStartedAt.getD 0 < b.networkStartedAt.getD 0 ∨
    (a.networkStartedAt.getD 0 = b.networkStartedAt.getD 0 ∧ a.createdAt ≤ b.createdAt)))

def markStale (checkedAt : Instant) (o : AIProviderOperation) : AIProviderOperation :=
  { o with
    status := .pendingReconciliation
    providerErrorCode := "stale_provider_call".toList
    uncertaintyMarkedAt := some checkedAt }

def providerCallNeverStarted : Text := "provider_call_never_started".toList

def reconcileStaleAiProviderOperations (s : OperationStore) (r : StaleRequest) : Except OperationError (OperationStore × ℕ × ℕ) := do
  raiseIf (¬ (1 ≤ r.limit ∧ r.limit ≤ 1000)) (.value "limit must be between 1 and 1000")
  raiseIf (r.startedTimeoutSeconds < 1 ∨ r.neverStartedTimeoutSeconds < 1) (.value "stale timeouts must be positive")
  let started := ((s.operations.filter (staleStarted r)).insertionSort startedBefore).take r.limit
  let s := started.foldl (fun s o => s.save (markStale r.checkedAt o)) s
  let neverStarted := ((s.operations.filter (staleNeverStarted r)).insertionSort
    fun a b => a.createdAt ≤ b.createdAt).take (r.limit - started.length)
  let s ← neverStarted.foldlM (fun s o => s.releaseLocked o providerCallNeverStarted [] r.now) s
  .ok (s, started.length, neverStarted.length)

/-! ## Steps -/

inductive OperationStep where
  | begin (request : BeginRequest)
  | networkStarted (id : ℕ) (now : Instant)
  | uncertain (id : ℕ) (errorCode : Text) (now : Instant)
  | release (id : ℕ) (reason : Text) (now : Instant)
  | settle (id : ℕ) (request : SettleRequest) (now : Instant)
  | resolve (id : ℕ) (action : ResolutionAction) (operatorNote : Text) (now : Instant)
  | applyDescription (id : ℕ) (now : Instant)
  | reconcileStale (request : StaleRequest)
  /-- Other code edits the tables that own no accounting. -/
  | other (tenants : List ℕ) (products : List Product) (listings : List Listing) (runs : List WebResearchRun)

def perform (s : OperationStore) : OperationStep → OperationStore
  | .begin request => commit s (s.beginAiProviderOperation request)
  | .networkStarted id now => commit s (s.markAiProviderNetworkStarted id now)
  | .uncertain id errorCode now => commit s (s.markAiProviderOperationUncertain id errorCode now)
  | .release id reason now => commit s (s.releaseAiProviderOperation id reason now)
  | .settle id request now => commit s (s.settleAiProviderOperation id request now)
  | .resolve id action operatorNote now => commit s (s.resolveUncertainAiProviderOperation id action operatorNote now)
  | .applyDescription id now => commit s (s.applyDescriptionProviderOperation id now)
  | .reconcileStale request => commit s (s.reconcileStaleAiProviderOperations request)
  | .other tenants products listings runs => { s with tenants, products, listings, runs }

end OperationStore

end MapBackend.AIAgent
