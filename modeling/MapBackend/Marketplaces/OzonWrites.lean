import MapBackend.Marketplaces.OzonModels

/-!
What a worker writes to one operation and its offer in one transaction, and the stages of
the workers between their transactions.
-/

namespace MapBackend.Marketplaces
open MapBackend.Library

namespace Ozon

def second : Instant := 1000000
def reconcileLease : Instant := 15 * second
def reconcileDelay : Instant := 30 * second
def unknownNegativeHorizon : Instant := 2 * 60 * second
def unknownNegativeThreshold : ℕ := 3
def unknownSchemaThreshold : ℕ := 12
def reconcileLimit : ℕ := 100
def maxProviderErrors : ℕ := 20
def archiveReconcileLimit : ℕ := 6
def archiveReconcileDelay : Instant := 30 * second

def importPending : List String := ["pending", "queued", "processing", "in_progress"]
def importSucceeded : List String := ["imported", "success", "succeeded", "completed"]
def importFailed : List String := ["failed", "error", "rejected", "declined"]
def moderationApproved : List String := ["approved", "success", "succeeded"]
def moderationPending : List String := ["pending", "processing", "in_moderation", "moderating", "not_moderated"]
def moderationRejected : List String := ["declined", "rejected", "failed", "error", "disabled"]

/-- `_friendly_provider_errors` on the texts that it chose for the entries. -/
def friendlyProviderErrors (raw : List String) (code : OzonErrorCode) : List OzonErrorEntry :=
  match raw with
  | [] => [⟨code, "Ozon отклонил данные карточки без детализации."⟩]
  | raw => (raw.take maxProviderErrors).map fun message => ⟨code, message⟩

end Ozon

namespace ProductItem

def approved (item : ProductItem) : Prop := item.moderateStatus ∈ Ozon.moderationApproved

instance (item : ProductItem) : Decidable item.approved := inferInstanceAs (Decidable (_ ∈ _))

def rejected (item : ProductItem) : Prop :=
  item.moderateStatus ∈ Ozon.moderationRejected ∨ item.validationStatus ∈ Ozon.moderationRejected ∨
    item.status ∈ Ozon.moderationRejected ∨ (item.errors ≠ [] ∧ ¬ item.approved)

instance (item : ProductItem) : Decidable item.rejected := inferInstanceAs (Decidable (_ ∨ _ ∨ _ ∨ _))

def pending (item : ProductItem) : Prop :=
  item.moderateStatus ∈ Ozon.moderationPending ∨ item.status ∈ Ozon.moderationPending ∨
    item.validationStatus ∈ Ozon.moderationPending

instance (item : ProductItem) : Decidable item.pending := inferInstanceAs (Decidable (_ ∨ _ ∨ _))

end ProductItem

/-- The rows of an operation and of its offer, as one transaction sees or leaves them. -/
structure OfferRows where
  operation : OzonOperation
  draft : OzonOfferDraft
  deriving DecidableEq

namespace OfferRows

def setStatus (rows : OfferRows) (status : PublicationStatus) : OfferRows :=
  { rows with draft := { rows.draft with publicationStatus := status } }

def complete (rows : OfferRows) (state : OzonOperationState) (errors : List OzonErrorEntry) (now : Instant) :
    OfferRows :=
  { rows with operation := { rows.operation with state, errors, completedAt := some now } }

def checkAt (rows : OfferRows) (time : Option Instant) : OfferRows :=
  { rows with operation := { rows.operation with nextReconcileAt := time } }

def markSending (rows : OfferRows) (now : Instant) : OfferRows :=
  { rows with operation :=
      { rows.operation with
        state := .sending
        attemptCount := rows.operation.attemptCount + 1
        lastAttemptAt := some now } }

def callFailed (rows : OfferRows) (error : OzonAPIError) (now : Instant) : OfferRows :=
  { rows with operation :=
      { rows.operation with
        state := if error.unknown then .outcomeUnknown else .failed
        errors := [⟨error.code, error.message⟩]
        retryAfterAt := error.retryAfterSeconds.map fun seconds => now + seconds * Ozon.second
        completedAt := if error.unknown then none else some now } }

def importAnswered (answer : Except OzonAPIError String) (now : Instant) (rows : OfferRows) : OfferRows :=
  match answer with
  | .error error => (rows.callFailed error now).setStatus (if error.unknown then .outcomeUnknown else .sendFailed)
  | .ok taskId =>
    { rows with operation := { rows.operation with state := .reconciling, providerTaskId := taskId, errors := [] } }
      |>.setStatus .importProcessing

def claimReconciliation (terminalRefresh : Bool) (now : Instant) (rows : OfferRows) : OfferRows :=
  { rows with operation :=
      { rows.operation with
        reconcileCount := rows.operation.reconcileCount + 1
        state := if terminalRefresh then .reconciling else rows.operation.state
        completedAt := if terminalRefresh then none else rows.operation.completedAt
        nextReconcileAt := some (now + Ozon.reconcileLease) } }

def persistTransientError (error : OzonAPIError) (now : Instant) (rows : OfferRows) : OfferRows :=
  rows.checkAt (some (now + max (error.retryAfterSeconds.getD 30 : ℕ) 15 * Ozon.second))

def finishFailed (state : OzonOperationState) (status : PublicationStatus) (errors : List OzonErrorEntry)
    (now : Instant) (rows : OfferRows) : OfferRows :=
  ((rows.complete state errors now).checkAt none).setStatus status

/-- `_persist_product_projection` of a card that is not rejected. -/
def persistProductProjection (item : ProductItem) (now : Instant) (rows : OfferRows) : OfferRows :=
  let rows := { rows with draft := { rows.draft with providerProductId := item.id } }
  if item.approved then ((rows.complete .succeeded [] now).checkAt none).setStatus .published
  else if item.pending ∨ rows.operation.reconcileCount < Ozon.unknownSchemaThreshold then
    { rows with operation := { rows.operation with state := .reconciling, errors := [] } }
      |>.checkAt (some (now + Ozon.reconcileDelay)) |>.setStatus .moderationPending
  else
    rows.complete .manualReview
        [⟨.unknownModerationStatus, "Ozon вернул новый или неизвестный статус модерации."⟩] now
      |>.checkAt none |>.setStatus .manualReview

def persistNotFound (now : Instant) (rows : OfferRows) : OfferRows :=
  if rows.operation.state = .outcomeUnknown ∧ Ozon.unknownNegativeThreshold ≤ rows.operation.reconcileCount ∧
      Ozon.unknownNegativeHorizon ≤ now - rows.operation.createdAt then
    rows.complete .failed
        [⟨.providerNotFound, "После нескольких проверок Ozon не нашёл эту версию карточки."⟩] now
      |>.checkAt none |>.setStatus .notAccepted
  else rows.checkAt (some (now + Ozon.reconcileDelay))

def operationError (state : OzonOperationState) (error : OzonErrorEntry) (now : Instant) (rows : OfferRows) :
    OfferRows :=
  { rows with operation :=
      { rows.operation with
        state, errors := [error]
        completedAt := if state.active then none else some now
        nextReconcileAt :=
          if state = OzonOperationState.reconciling ∨ state = OzonOperationState.outcomeUnknown then
            some (now + Ozon.archiveReconcileDelay)
          else none } }
    |>.setStatus (if state.active then .archiveOutcomeUnknown else .archiveFailed)

def stockZeroed (item : StockRequest) (rows : OfferRows) : OfferRows :=
  { rows with draft :=
      { rows.draft with lastSyncedStock := some 0, lastStockWarehouseId := some item.warehouseId } }

/-- The transactions of `_submit_product_archive` after `archive_products`, accepted or unanswered. -/
def archiveSent (state : OzonOperationState) (errors : List OzonErrorEntry) (status : PublicationStatus)
    (now : Instant) (rows : OfferRows) : OfferRows :=
  { rows with operation := { rows.operation with state, errors } } |>.checkAt (some now) |>.setStatus status

def persistArchiveProjection (archived : Bool) (now : Instant) (rows : OfferRows) : OfferRows :=
  if archived then ((rows.complete .succeeded [] now).checkAt none).setStatus .archived
  else if rows.operation.reconcileCount < Ozon.archiveReconcileLimit then
    { rows with operation := { rows.operation with state := .reconciling, errors := [] } }
      |>.checkAt (some (now + Ozon.archiveReconcileDelay)) |>.setStatus .archiveProcessing
  else
    rows.complete .manualReview
        [⟨.archiveNotConfirmed,
          "Ozon не подтвердил архивный статус после нескольких проверок. Товар оставлен с нулевым остатком."⟩] now
      |>.checkAt none |>.setStatus .archiveFailed

def claimArchive (now : Instant) (rows : OfferRows) : OfferRows :=
  { rows with operation := { rows.operation with reconcileCount := rows.operation.reconcileCount + 1 } }
    |>.checkAt (some (now + Ozon.archiveReconcileDelay))

def commerceSucceeded (request : OzonRequest) (now : Instant) (rows : OfferRows) : OfferRows :=
  let rows := rows.complete .succeeded [] now
  match request with
  | .price item => { rows with draft := { rows.draft with lastSyncedPrice := some item.price } }
  | .stock item =>
    { rows with draft :=
        { rows.draft with lastSyncedStock := some item.stock, lastStockWarehouseId := some item.warehouseId } }
  | .product => rows

end OfferRows

inductive OzonFailure where
  | failed | manualReview
  deriving DecidableEq

def OzonFailure.state : OzonFailure → OzonOperationState
  | failed => .failed
  | manualReview => .manualReview

inductive ImportFailure where
  | importFailed | unknownImportStatus | moderationFailed
  deriving DecidableEq

def ImportFailure.state : ImportFailure → OzonFailure
  | importFailed | moderationFailed => .failed
  | unknownImportStatus => .manualReview

def ImportFailure.status : ImportFailure → PublicationStatus
  | importFailed => .importFailed
  | unknownImportStatus => .manualReview
  | moderationFailed => .moderationFailed

inductive OzonWrite where
  | markSending
  | desiredStateChanged
  | importCredentials (error : OzonErrorEntry)
  | importAnswered (answer : Except OzonAPIError String)
  | claimReconciliation (terminalRefresh : Bool)
  | reconcileLimit
  | transientError (error : OzonAPIError)
  | offerNotInTask
  | importPending
  | finishFailed (failure : ImportFailure) (errors : List OzonErrorEntry)
  /-- A card that was read when `seen` events had happened. -/
  | productProjection (item : ProductItem) (seen : ℕ)
  | notFound
  | operationError (failure : OzonFailure) (error : OzonErrorEntry)
  | archiveUnread (error : OzonErrorEntry)
  | stockZeroed (item : StockRequest)
  | archiveOutcomeUnknown
  | archiveAccepted
  | archiveProjection (archived : Bool)
  | claimArchive
  | commerceError (error : OzonAPIError)
  | commerceOutcome (failure : OzonFailure) (errors : List OzonErrorEntry)
  | commerceSucceeded (request : OzonRequest)

namespace OzonWrite

def apply (now : Instant) (rows : OfferRows) : OzonWrite → OfferRows
  | markSending => rows.markSending now
  | desiredStateChanged =>
    rows.complete .manualReview
      [⟨.desiredStateChanged, "Карточка изменилась после постановки в очередь. Запустите отправку снова."⟩] now
  | importCredentials error => ((rows.markSending now).complete .failed [error] now).setStatus .sendFailed
  | importAnswered answer => rows.importAnswered answer now
  | claimReconciliation terminalRefresh => rows.claimReconciliation terminalRefresh now
  | reconcileLimit =>
    rows.finishFailed .manualReview .manualReview
      [⟨.reconcileLimit, "Достигнут безопасный лимит проверок Ozon."⟩] now
  | transientError error => rows.persistTransientError error now
  | offerNotInTask => rows.checkAt (some (now + Ozon.reconcileDelay))
  | importPending => (rows.checkAt (some (now + Ozon.reconcileDelay))).setStatus .importProcessing
  | finishFailed failure errors => rows.finishFailed failure.state.state failure.status errors now
  | productProjection item _ => rows.persistProductProjection item now
  | notFound => rows.persistNotFound now
  | operationError failure error => rows.operationError failure.state error now
  | archiveUnread error => rows.operationError .reconciling error now
  | stockZeroed item => rows.stockZeroed item
  | archiveOutcomeUnknown =>
    rows.archiveSent .outcomeUnknown
      [⟨.archiveOutcomeUnknown, "Ozon мог принять архивирование. MAP сверит статус."⟩] .archiveOutcomeUnknown now
  | archiveAccepted => rows.archiveSent .reconciling [] .archiveProcessing now
  | archiveProjection archived => rows.persistArchiveProjection archived now
  | claimArchive => rows.claimArchive now
  | commerceError error => rows.callFailed error now
  | commerceOutcome failure errors => rows.complete failure.state errors now
  | commerceSucceeded request => rows.commerceSucceeded request now

def events (operation : Uuid) : OzonWrite → List OzonEvent
  | claimReconciliation true => [.terminalRefreshed operation]
  | productProjection item seen => if item.approved then [.importCompleted operation seen] else []
  | _ => []

end OzonWrite

def OzonStore.persist (s : OzonStore) (pk : Uuid) (write : OzonWrite) (now : Instant) :
    Except OzonErrorCode (OzonStore × OfferRows) := do
  let operation ← orRaise .doesNotExist (s.operation? pk)
  let draft ← orRaise .doesNotExist (s.draft? operation.offer)
  let rows := write.apply now ⟨operation, draft⟩
  pure ((s.save rows.operation rows.draft).record (write.events pk), rows)

inductive AfterWrite where
  | finish
  | archiveProducts (item : StockRequest)
  | readArchive
  | submitCommerce (pending : List Uuid)

/-- A worker before its next transaction or call; `rows` are the rows as it left them. -/
inductive OzonWorker where
  | requestProductImport (offer : Uuid) (idempotencyKey : String)
  | submitProductImport (operation : Uuid) (item : Option String)
  | importProducts (rows : OfferRows) (item : String)
  | reconcileProductImport (offer : Uuid) (allowTerminalRefresh : Bool)
  | getProductImportInfo (rows : OfferRows)
  | getProductInfo (rows : OfferRows)
  | requestProductArchive (offer : Uuid) (idempotencyKey : String)
  | submitProductArchive (operation : Uuid)
  | zeroStock (rows : OfferRows) (item : StockRequest)
  | archiveProducts (rows : OfferRows) (item : StockRequest)
  | readArchive (rows : OfferRows)
  | reconcileProductArchive (offer : Uuid)
  | syncOfferCommerce (offer : Uuid) (idempotencyKey : String)
  | submitCommerce (pending : List Uuid)
  | sendCommerce (rows : OfferRows) (request : OzonRequest) (pending : List Uuid)
  | answered (rows : OfferRows) (write : OzonWrite) (after : AfterWrite)
  | done (result : Except OzonErrorCode (List Uuid))

/-- A transaction of a worker: it commits and moves the worker on, or raises and ends it. -/
abbrev OzonTransaction := Except OzonErrorCode (OzonStore × OzonWorker)

end MapBackend.Marketplaces
