import MapBackend.Marketplaces.OzonWrites

/-!
Import of an offer into Ozon: the request with its submission, and the reconciliation that
reads what became of it.
-/

namespace MapBackend.Marketplaces
open MapBackend.Library

namespace OzonAccountView

def writeEnabled (account : OzonAccountView) : Prop :=
  account.connectionEnabled = true ∧ account.productWriteEnabled = true

instance (account : OzonAccountView) : Decidable account.writeEnabled := inferInstanceAs (Decidable (_ ∧ _))

def requireWriteAdmission (account : OzonAccountView) : Except OzonErrorCode Unit := do
  raiseIf (account.isOzon = false) .accountInvalid
  raiseIf (account.isActive = false ∨ ¬ account.writeEnabled) .writeDisabled
  raiseIf (account.connected = false) .accountNotReady

def requireReadAdmission (account : OzonAccountView) : Except OzonErrorCode Unit := do
  raiseIf (account.isOzon = false ∨ account.isActive = false ∨ account.connectionEnabled = false) .statusReadDisabled
  raiseIf (account.connected = false) .accountNotReady

end OzonAccountView

namespace OzonPublication

def requireKey (key : String) (limit : ℕ) : Except OzonErrorCode Unit :=
  raiseIf (key = "" ∨ limit < key.length) .idempotencyKeyInvalid

def replayed (draft : OzonOfferDraft) (existing : OzonOperation) (s : OzonStore) : OzonTransaction := do
  raiseIf (existing.offer ≠ draft.pk) .idempotencyConflict
  pure (s, .done (.ok [existing.pk]))

def rejectedVersion (latest : OzonOperation) (item : String) : Prop :=
  latest.state = .failed ∧ latest.requestSha256 = item ∧
    ∃ error ∈ latest.errors, error.code ∈ [OzonErrorCode.importFailed, .moderationRejected, .requestRejected]

instance (latest : OzonOperation) (item : String) : Decidable (rejectedVersion latest item) :=
  inferInstanceAs (Decidable (_ ∧ _ ∧ _))

/-- `request_product_import` once the key is new and nothing of the offer is active. -/
def createProductImport (draft : OzonOfferDraft) (key : String) (input : OzonInput) (s : OzonStore) :
    OzonTransaction := do
  let latest := OzonStore.latest? (s.offerOperations draft.pk .productImport)
  raiseIf (∃ last ∈ latest, last.state = .partly ∨ last.state = .manualReview) .manualReviewRequired
  raiseIf (∃ last ∈ latest, ∃ retryAfter ∈ last.retryAfterAt, input.now < retryAfter) .retryLater
  let item ← input.importItem
  raiseIf (∃ last ∈ latest, rejectedVersion last item) .correctionRequired
  let operation := OzonOperation.create s.nextPk draft.pk .productImport key item .product input.now
  match s.insert? operation with
  | none =>
    -- the `IntegrityError` branch
    let raced ← orRaise .doesNotExist (s.existing? key)
    replayed draft raced s
  | some s => pure (s.saveDraft { draft with publicationStatus := .queued }, .submitProductImport operation.pk (some item))

/-- `request_product_import` up to the commit of the operation. -/
def requestProductImport (offer : Uuid) (key : String) (input : OzonInput) (s : OzonStore) : OzonTransaction := do
  requireKey key 100
  input.account.requireWriteAdmission
  let draft ← orRaise .draftMissing (s.draft? offer)
  match s.existing? key with
  | some existing => replayed draft existing s
  | none =>
    raiseIf (draft.publicationStatus = .archived ∨
      ∃ last ∈ OzonStore.latest? (s.offerOperations draft.pk .archive), last.active) .offerArchived
    match OzonStore.latest? ((s.offerOperations draft.pk .productImport).filter fun row => row.active) with
    | some active => pure (s, .done (.ok [active.pk]))
    | none => createProductImport draft key input s

/-- The `SENDING` mark of `_submit_product_import`, with the credentials for the call. -/
def sendProductImport (operation : Uuid) (item : String) (input : OzonInput) (s : OzonStore) : OzonTransaction :=
  match input.account.credentials with
  | .error error => do
    let (s, _) ← s.persist operation (.importCredentials error) input.now
    pure (s, .done (.ok [operation]))
  | .ok () => do
    let (s, rows) ← s.persist operation .markSending input.now
    pure (s, .importProducts rows item)

def submitProductImport (operation : Uuid) (item : Option String) (input : OzonInput) (s : OzonStore) :
    OzonTransaction := do
  let row ← orRaise .doesNotExist (s.operation? operation)
  if row.state ≠ .queued then pure (s, .done (.ok [operation]))
  else match item with
  | some item => sendProductImport operation item input s
  | none => do
    let item ← input.importItem
    if item ≠ row.requestSha256 then
      let (s, _) ← s.persist operation .desiredStateChanged input.now
      pure (s, .done (.ok [operation]))
    else sendProductImport operation item input s

end OzonPublication

namespace OzonReconciliation

def claimDue (operation : OzonOperation) (terminalRefresh : Bool) (input : OzonInput) (s : OzonStore) :
    OzonTransaction :=
  if Ozon.reconcileLimit ≤ operation.reconcileCount then do
    let (s, _) ← s.persist operation.pk .reconcileLimit input.now
    pure (s, .done (.ok [operation.pk]))
  else do
    let (s, rows) ← s.persist operation.pk (.claimReconciliation terminalRefresh) input.now
    -- without credentials the transaction rolls back
    match input.account.credentials with
    | .error error => .error error.code
    | .ok () =>
      pure (s, if rows.operation.providerTaskId ≠ "" then .getProductImportInfo rows else .getProductInfo rows)

def claimReconciliation (offer : Uuid) (allowTerminalRefresh : Bool) (input : OzonInput) (s : OzonStore) :
    OzonTransaction := do
  input.account.requireReadAdmission
  let draft ← orRaise .draftMissing (s.draft? offer)
  let operation ← orRaise .operationMissing (OzonStore.latest? (s.offerOperations draft.pk .productImport))
  if operation.active then
    if ∃ due ∈ operation.nextReconcileAt, input.now < due then pure (s, .done (.ok [operation.pk]))
    else claimDue operation false input s
  else if allowTerminalRefresh then claimDue operation true input s
  else pure (s, .done (.ok [operation.pk]))

/-- What the answer of the task means for the operation; nothing when the import has succeeded. -/
def importInfoWrite (offerId : String) : Except OzonAPIError (List ImportTaskItem) → Option OzonWrite
  | .error error => some (.transientError error)
  | .ok items =>
    match items.find? fun item => item.offerId = offerId with
    | none => some .offerNotInTask
    | some item =>
      if item.status ∈ Ozon.importFailed then
        some (.finishFailed .importFailed (Ozon.friendlyProviderErrors item.errors .importFailed))
      else if item.status ∈ Ozon.importPending then some .importPending
      else if item.status ∉ Ozon.importSucceeded then
        some (.finishFailed .unknownImportStatus
          [⟨.unknownImportStatus, "Ozon вернул новый или неизвестный статус импорта."⟩])
      else none

def productInfoWrite (seen : ℕ) : Except OzonAPIError (Option ProductItem) → OzonWrite
  | .error error => .transientError error
  | .ok none => .notFound
  | .ok (some item) =>
    if item.rejected then
      .finishFailed .moderationFailed (Ozon.friendlyProviderErrors item.errors .moderationRejected)
    else .productProjection item seen

/-- `reconcile_product_import` after the answer of the task. -/
def importInfoRead (rows : OfferRows) (input : OzonInput) : OzonWorker :=
  match importInfoWrite rows.draft.offerId input.importInfo with
  | some write => .answered rows write .finish
  | none => .getProductInfo rows

end OzonReconciliation

end MapBackend.Marketplaces
