import MapBackend.Marketplaces.Models

/-!
The rows of one Ozon account: its offers and their operations.
-/

namespace MapBackend.Marketplaces
open MapBackend.Library

inductive OzonOperationKind where
  | productImport | priceUpdate | stockUpdate | archive
  deriving DecidableEq, Repr

inductive OzonOperationState where
  | queued | sending | outcomeUnknown | reconciling | succeeded | partly | failed | manualReview
  deriving DecidableEq, Repr

namespace OzonOperationState

def activeStates : List OzonOperationState := [.queued, .sending, .outcomeUnknown, .reconciling]

def active (state : OzonOperationState) : Prop := state ∈ activeStates

instance (state : OzonOperationState) : Decidable state.active := inferInstanceAs (Decidable (_ ∈ _))

end OzonOperationState

inductive PublicationStatus where
  | localDraft | queued | sendFailed | outcomeUnknown | importProcessing | moderationPending | published
  | moderationFailed | importFailed | manualReview | notAccepted | archivePending | archiveProcessing
  | archiveOutcomeUnknown | archiveFailed | archived
  deriving DecidableEq, Repr

inductive OzonErrorCode where
  | doesNotExist | idempotencyKeyInvalid | idempotencyConflict | draftMissing
  | accountInvalid | writeDisabled | accountNotReady | statusReadDisabled | archiveDisabled
  | credentialsUnavailable | credentialsInvalid
  | offerArchived | manualReviewRequired | retryLater | correctionRequired
  | preflightFailed | priceMissing | imageMissing | physicalFactMissing | invalidPhysicalValue | invalidVat
  | operationMissing | archiveOperationMissing
  | providerProductMissing | warehouseMissing | alreadyArchived | offerNotPublished | commerceInProgress
  | priceInvalid | warehouseInvalid | priceHourlyLimit | stockCooldown
  | connectionError | providerUnavailable | invalidCredentials | rateLimited | requestRejected | invalidResponse
  | desiredStateChanged | reconcileLimit | importFailed | moderationRejected | providerNotFound
  | unknownImportStatus | unknownModerationStatus
  | archiveStatusUnavailable | stockZeroNotConfirmed | archiveOutcomeUnknown | archiveRejected
  | archiveNotConfirmed | resultNotMatched | priceRejected | stockRejected | updateNotConfirmed
  deriving DecidableEq, Repr

structure OzonErrorEntry where
  code : OzonErrorCode
  message : String
  deriving DecidableEq

structure OzonAPIError where
  code : OzonErrorCode
  message : String
  retryAfterSeconds : Option ℕ
  deriving DecidableEq

def OzonAPIError.unknown (error : OzonAPIError) : Prop :=
  error.code ∈ [OzonErrorCode.connectionError, .providerUnavailable]

instance (error : OzonAPIError) : Decidable error.unknown := inferInstanceAs (Decidable (_ ∈ _))

structure PriceRequest where
  offerId : String
  productId : ℕ
  price : ℤ
  deriving DecidableEq

structure StockRequest where
  offerId : String
  productId : ℕ
  stock : ℕ
  warehouseId : ℕ
  deriving DecidableEq

/-- `request_summary`, as far as the submission of the operation reads it. -/
inductive OzonRequest where
  | product
  | price (item : PriceRequest)
  | stock (item : StockRequest)
  deriving DecidableEq

structure OzonOperation where
  pk : Uuid
  offer : Uuid
  kind : OzonOperationKind
  state : OzonOperationState
  idempotencyKey : String
  requestSha256 : String
  requestSummary : OzonRequest
  errors : List OzonErrorEntry
  providerTaskId : String
  attemptCount : ℕ
  reconcileCount : ℕ
  lastAttemptAt : Option Instant
  nextReconcileAt : Option Instant
  retryAfterAt : Option Instant
  completedAt : Option Instant
  createdAt : Instant
  deriving DecidableEq

namespace OzonOperation

def active (operation : OzonOperation) : Prop := operation.state.active

instance (operation : OzonOperation) : Decidable operation.active := inferInstanceAs (Decidable (_ ∈ _))

theorem active_of_state {operation : OzonOperation} {state : OzonOperationState} (is : operation.state = state)
    (active : state.active) : operation.active := by
  rw [OzonOperation.active, is]
  exact active

/-- `OzonOperation.objects.create`, with the defaults of the table. -/
def create (pk offer : Uuid) (kind : OzonOperationKind) (idempotencyKey requestSha256 : String)
    (requestSummary : OzonRequest) (now : Instant) : OzonOperation where
  pk := pk
  offer := offer
  kind := kind
  state := .queued
  idempotencyKey := idempotencyKey
  requestSha256 := requestSha256
  requestSummary := requestSummary
  errors := []
  providerTaskId := ""
  attemptCount := 0
  reconcileCount := 0
  lastAttemptAt := none
  nextReconcileAt := none
  retryAfterAt := none
  completedAt := none
  createdAt := now

end OzonOperation

structure OzonOfferDraft where
  pk : Uuid
  offerId : String
  publicationStatus : PublicationStatus
  providerProductId : Option ℕ
  lastSyncedPrice : Option ℤ
  lastSyncedStock : Option ℕ
  lastStockWarehouseId : Option ℕ
  deriving DecidableEq

structure ImportTaskItem where
  offerId : String
  status : String
  errors : List String
  deriving DecidableEq

/-- The card of the offer at the provider; a missing status is the empty text. -/
structure ProductItem where
  id : Option ℕ
  status : String
  moderateStatus : String
  validationStatus : String
  errors : List String
  isArchived : Bool
  deriving DecidableEq

structure UpdateResult where
  offerId : String
  warehouseId : Option ℕ
  updated : Bool
  errors : List String
  deriving DecidableEq

/-- A call that changes something at the provider, with its answer, or a local outcome. -/
inductive OzonEvent where
  | importPosted (operation : Uuid) (item : String) (answer : Except OzonAPIError String)
  | pricesUpdated (operation : Uuid) (item : PriceRequest) (answer : Except OzonAPIError (List UpdateResult))
  | stocksUpdated (operation : Uuid) (item : StockRequest) (answer : Except OzonAPIError (List UpdateResult))
  | productArchived (operation : Uuid) (item : StockRequest) (answer : Except OzonAPIError Bool)
  /-- An import completed by a card that was read when `seen` events had happened. -/
  | importCompleted (operation : Uuid) (seen : ℕ)
  | terminalRefreshed (operation : Uuid)

structure OzonStore where
  drafts : List OzonOfferDraft
  operations : List OzonOperation
  nextPk : Uuid
  history : List OzonEvent

namespace OzonStore

def draft? (s : OzonStore) (pk : Uuid) : Option OzonOfferDraft := s.drafts.find? fun draft => draft.pk = pk

def operation? (s : OzonStore) (pk : Uuid) : Option OzonOperation := s.operations.find? fun row => row.pk = pk

def existing? (s : OzonStore) (key : String) : Option OzonOperation :=
  s.operations.find? fun row => row.idempotencyKey = key

def offerOperations (s : OzonStore) (offer : Uuid) (kind : OzonOperationKind) : List OzonOperation :=
  s.operations.filter fun row => row.offer = offer ∧ row.kind = kind

/-- `order_by('-created_at').first()`; of rows created at one time the last. -/
def latest? : List OzonOperation → Option OzonOperation
  | [] => none
  | row :: rest =>
    match latest? rest with
    | none => some row
    | some top => if top.createdAt < row.createdAt then some row else some top

def insert? (s : OzonStore) (row : OzonOperation) : Option OzonStore :=
  if s.operations.any fun old => old.idempotencyKey = row.idempotencyKey then none
  else some { s with operations := s.operations ++ [row], nextPk := s.nextPk + 1 }

def save (s : OzonStore) (row : OzonOperation) (draft : OzonOfferDraft) : OzonStore :=
  { s with operations := put OzonOperation.pk row s.operations, drafts := put OzonOfferDraft.pk draft s.drafts }

def saveDraft (s : OzonStore) (draft : OzonOfferDraft) : OzonStore :=
  { s with drafts := put OzonOfferDraft.pk draft s.drafts }

def record (s : OzonStore) (events : List OzonEvent) : OzonStore := { s with history := s.history ++ events }

end OzonStore

/-- What an account and its profile allow at one reading. A warehouse id that is no number counts as 0. -/
structure OzonAccountView where
  isOzon : Bool
  isActive : Bool
  /-- `ozon_connection_enabled_for_account`. -/
  connectionEnabled : Bool
  /-- The profile's switch together with the import method. -/
  productWriteEnabled : Bool
  archiveMethod : Bool
  connected : Bool
  selectedWarehouseId : Option ℤ
  /-- `_validated_credentials`. -/
  credentials : Except OzonErrorEntry Unit

/-- What a move reads outside the rows: the clock, the account, the product and the provider. -/
structure OzonInput where
  now : Instant
  account : OzonAccountView
  /-- `build_product_import_item`, known by its digest. -/
  importItem : Except OzonErrorCode String
  /-- `final_price` in hundredths. -/
  finalPrice : Option ℤ
  stockQty : ℕ
  importProducts : Except OzonAPIError String
  importInfo : Except OzonAPIError (List ImportTaskItem)
  productInfo : Except OzonAPIError (Option ProductItem)
  updateResults : Except OzonAPIError (List UpdateResult)
  archiveProducts : Except OzonAPIError Bool

end MapBackend.Marketplaces
