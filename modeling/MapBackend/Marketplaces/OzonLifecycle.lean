import MapBackend.Marketplaces.OzonPublication

/-!
Archiving of an offer and the synchronisation of its price and its stock.
-/

namespace MapBackend.Marketplaces
open MapBackend.Library

namespace OzonLifecycle

/-- `_require_archive_admission`: the product and the warehouse of the request. -/
def requireArchiveAdmission (account : OzonAccountView) (draft : OzonOfferDraft) :
    Except OzonErrorCode (ℕ × ℕ) := do
  raiseIf (¬ account.writeEnabled ∨ account.archiveMethod = false) .archiveDisabled
  raiseIf (account.connected = false) .accountNotReady
  let productId ← orRaise .providerProductMissing (draft.providerProductId.filter fun id => 0 < id)
  let warehouseId ← orRaise .warehouseMissing (account.selectedWarehouseId.filter fun id => 0 < id)
  raiseIf (draft.publicationStatus = .archived) .alreadyArchived
  raiseIf (draft.publicationStatus ∉ [PublicationStatus.published, .archiveFailed, .archiveOutcomeUnknown])
    .offerNotPublished
  pure (productId, warehouseId.toNat)

def replayed (draft : OzonOfferDraft) (existing : OzonOperation) (s : OzonStore) : OzonTransaction := do
  raiseIf (existing.offer ≠ draft.pk ∨ existing.kind ≠ .archive) .idempotencyConflict
  pure (s, .done (.ok [existing.pk]))

def commerceActive (s : OzonStore) (offer : Uuid) : Prop :=
  ∃ row ∈ s.operations, row.offer = offer ∧ (row.kind = .priceUpdate ∨ row.kind = .stockUpdate) ∧ row.active

instance (s : OzonStore) (offer : Uuid) : Decidable (commerceActive s offer) :=
  inferInstanceAs (Decidable (∃ row ∈ s.operations, _))

/-- `request_product_archive` once the key is new and no archiving of the offer is active. -/
def createProductArchive (draft : OzonOfferDraft) (key : String) (input : OzonInput) (s : OzonStore) :
    OzonTransaction := do
  raiseIf (commerceActive s draft.pk) .commerceInProgress
  let (productId, warehouseId) ← requireArchiveAdmission input.account draft
  let item : StockRequest := { offerId := draft.offerId, productId, stock := 0, warehouseId }
  -- the digest of the request is read for imports only
  let operation := OzonOperation.create s.nextPk draft.pk .archive key "" (.stock item) input.now
  match s.insert? operation with
  | none =>
    let raced ← orRaise .doesNotExist (s.existing? key)
    replayed draft raced s
  | some s =>
    pure (s.saveDraft { draft with publicationStatus := .archivePending }, .submitProductArchive operation.pk)

/-- `request_product_archive` up to the commit of the operation. -/
def requestProductArchive (offer : Uuid) (key : String) (input : OzonInput) (s : OzonStore) : OzonTransaction := do
  OzonPublication.requireKey key 100
  let draft ← orRaise .draftMissing (s.draft? offer)
  match s.existing? key with
  | some existing => replayed draft existing s
  | none =>
    match OzonStore.latest? ((s.offerOperations draft.pk .archive).filter fun row => row.active) with
    | some active => pure (s, .done (.ok [active.pk]))
    | none => createProductArchive draft key input s

/-- `_submit_product_archive` up to the zeroing of the stock. -/
def submitProductArchive (operation : Uuid) (input : OzonInput) (s : OzonStore) : OzonTransaction := do
  let row ← orRaise .doesNotExist (s.operation? operation)
  if row.state ≠ .queued then pure (s, .done (.ok [operation]))
  else match input.account.credentials, row.requestSummary with
  | .error error, _ => do
    let (s, _) ← s.persist operation (.operationError .failed error) input.now
    pure (s, .done (.ok [operation]))
  | .ok (), .stock item => do
    let (s, rows) ← s.persist operation .markSending input.now
    pure (s, .zeroStock rows item)
  -- the summary of an archive operation has no other form
  | .ok (), _ => .error .doesNotExist

def stockZeroConfirmed (result : UpdateResult) (item : StockRequest) : Prop :=
  result.offerId = item.offerId ∧ result.warehouseId = some item.warehouseId ∧ result.errors = [] ∧
    result.updated = true

instance (result : UpdateResult) (item : StockRequest) : Decidable (stockZeroConfirmed result item) :=
  inferInstanceAs (Decidable (_ ∧ _ ∧ _ ∧ _))

/-- `_submit_product_archive` after the answer of `update_stocks`. -/
def stockAnswered (rows : OfferRows) (item : StockRequest) :
    Except OzonAPIError (List UpdateResult) → OzonWorker
  | .error error =>
    .answered rows (.operationError (if error.unknown then .manualReview else .failed)
      ⟨.stockZeroNotConfirmed,
        "Не удалось подтвердить нулевой остаток. Архивирование не запущено; повторите действие."⟩) .finish
  | .ok results =>
    if ∃ result ∈ results, stockZeroConfirmed result item then
      .answered rows (.stockZeroed item) (.archiveProducts item)
    else
      .answered rows (.operationError .manualReview
        ⟨.stockZeroNotConfirmed, "Ozon не подтвердил обнуление остатка. Архивирование не запущено."⟩) .finish

/-- `_submit_product_archive` after the answer of `archive_products`. -/
def archiveAnswered (rows : OfferRows) : Except OzonAPIError Bool → OzonWorker
  | .error error =>
    if error.unknown then .answered rows .archiveOutcomeUnknown .readArchive
    else .answered rows (.operationError .failed ⟨error.code, error.message⟩) .finish
  | .ok false =>
    .answered rows (.operationError .manualReview
      ⟨.archiveRejected, "Ozon не подтвердил перенос товара в архив."⟩) .finish
  | .ok true => .answered rows .archiveAccepted .readArchive

def archiveRead (rows : OfferRows) : Except OzonAPIError (Option ProductItem) → OzonWorker
  | .error error =>
    .answered rows (.archiveUnread ⟨.archiveStatusUnavailable, error.message⟩) .finish
  | .ok item => .answered rows (.archiveProjection (item.any ProductItem.isArchived)) .finish

/-- `reconcile_product_archive` up to the reading. -/
def reconcileProductArchive (offer : Uuid) (input : OzonInput) (s : OzonStore) : OzonTransaction := do
  let draft ← orRaise .draftMissing (s.draft? offer)
  let operation ← orRaise .archiveOperationMissing (OzonStore.latest? (s.offerOperations draft.pk .archive))
  if ¬ operation.active then pure (s, .done (.ok [operation.pk]))
  else if ∃ due ∈ operation.nextReconcileAt, input.now < due then pure (s, .done (.ok [operation.pk]))
  else if Ozon.archiveReconcileLimit ≤ operation.reconcileCount then do
    let (s, _) ← s.persist operation.pk (.archiveProjection false) input.now
    pure (s, .done (.ok [operation.pk]))
  else do
    let (s, rows) ← s.persist operation.pk .claimArchive input.now
    match input.account.credentials with
    | .error error => .error error.code
    | .ok () => pure (s, .readArchive rows)

end OzonLifecycle

namespace OzonCommerce

def priceHourlyLimit : ℕ := 10
def hour : Instant := 3600 * Ozon.second
def stockMinInterval : Instant := 30 * Ozon.second

/-- `_require_commerce_admission` with `_positive_warehouse_id`: the product and the warehouse. -/
def requireCommerceAdmission (account : OzonAccountView) (draft : OzonOfferDraft) :
    Except OzonErrorCode (ℕ × ℤ) := do
  raiseIf (¬ account.writeEnabled) .writeDisabled
  raiseIf (account.connected = false) .accountNotReady
  let warehouseId ← orRaise .warehouseMissing account.selectedWarehouseId
  raiseIf (draft.publicationStatus ≠ .published) .offerNotPublished
  let productId ← orRaise .offerNotPublished (draft.providerProductId.filter fun id => id ≠ 0)
  pure (productId, warehouseId)

/-- The operation that blocks a new one of its kind, `_existing_or_active` without the key. -/
def blocking? (s : OzonStore) (offer : Uuid) (kind : OzonOperationKind) (now : Instant) : Option OzonOperation :=
  let rows := s.offerOperations offer kind
  match OzonStore.latest? (rows.filter fun row => row.active ∧ row.state ≠ .outcomeUnknown) with
  | some row => some row
  | none =>
    OzonStore.latest? (rows.filter fun row =>
      row.state = .outcomeUnknown ∧ ∃ retryAfter ∈ row.retryAfterAt, now < retryAfter)

def existingOrActive (s : OzonStore) (draft : OzonOfferDraft) (kind : OzonOperationKind) (key : String)
    (now : Instant) : Except OzonErrorCode (Option OzonOperation) :=
  match s.existing? key with
  | some existing => do
    raiseIf (existing.offer ≠ draft.pk ∨ existing.kind ≠ kind) .idempotencyConflict
    pure (some existing)
  | none => pure (blocking? s draft.pk kind now)

def attemptsSince (s : OzonStore) (offer : Uuid) (kind : OzonOperationKind) (since : Instant) :
    List OzonOperation :=
  (s.offerOperations offer kind).filter fun row => ∃ attempt ∈ row.lastAttemptAt, since ≤ attempt

def newOperation (s : OzonStore) (draft : OzonOfferDraft) (kind : OzonOperationKind) (key : String)
    (request : OzonRequest) (now : Instant) : Except OzonErrorCode (OzonStore × OzonOperation) := do
  let operation := OzonOperation.create s.nextPk draft.pk kind key "" request now
  let s ← orRaise .idempotencyConflict (s.insert? operation)
  pure (s, operation)

def priceOperation (draft : OzonOfferDraft) (key : String) (productId : ℕ) (desired : ℤ) (input : OzonInput)
    (s : OzonStore) : Except OzonErrorCode (OzonStore × Option OzonOperation) := do
  let found ← existingOrActive s draft .priceUpdate key input.now
  if found = none ∧ draft.lastSyncedPrice ≠ some desired then
    raiseIf (priceHourlyLimit ≤ (attemptsSince s draft.pk .priceUpdate (input.now - hour)).length) .priceHourlyLimit
    let item : PriceRequest := { offerId := draft.offerId, productId, price := desired }
    let (s, operation) ← newOperation s draft .priceUpdate key (.price item) input.now
    pure (s, some operation)
  else pure (s, found)

def stockOperation (draft : OzonOfferDraft) (key : String) (productId warehouseId desired : ℕ) (input : OzonInput)
    (s : OzonStore) : Except OzonErrorCode (OzonStore × Option OzonOperation) := do
  let found ← existingOrActive s draft .stockUpdate key input.now
  if found = none ∧
      ¬ (draft.lastSyncedStock = some desired ∧ draft.lastStockWarehouseId = some warehouseId) then
    raiseIf (attemptsSince s draft.pk .stockUpdate (input.now - stockMinInterval) ≠ []) .stockCooldown
    let item : StockRequest := { offerId := draft.offerId, productId, stock := desired, warehouseId }
    let (s, operation) ← newOperation s draft .stockUpdate key (.stock item) input.now
    pure (s, some operation)
  else pure (s, found)

def syncOfferCommerce (offer : Uuid) (key : String) (input : OzonInput) (s : OzonStore) : OzonTransaction := do
  OzonPublication.requireKey key 90
  let draft ← orRaise .draftMissing (s.draft? offer)
  let (productId, selected) ← requireCommerceAdmission input.account draft
  let desired ← orRaise .priceMissing input.finalPrice
  raiseIf (desired ≤ 0) .priceInvalid
  raiseIf (selected ≤ 0) .warehouseInvalid
  let (s, price) ← priceOperation draft (key ++ ":price") productId desired input s
  let (s, stock) ← stockOperation draft (key ++ ":stock") productId selected.toNat input.stockQty input s
  pure (s, .submitCommerce ((price.toList ++ stock.toList).map OzonOperation.pk))

def submitCommerceOperation (operation : Uuid) (pending : List Uuid) (input : OzonInput) (s : OzonStore) :
    OzonTransaction := do
  let row ← orRaise .doesNotExist (s.operation? operation)
  if row.state ≠ .queued then pure (s, .submitCommerce pending)
  else match input.account.credentials with
  | .error error => do
    let (s, _) ← s.persist operation (.commerceOutcome .failed [error]) input.now
    pure (s, .submitCommerce pending)
  | .ok () => do
    let (s, rows) ← s.persist operation .markSending input.now
    pure (s, .sendCommerce rows rows.operation.requestSummary pending)

def providerErrors (raw : List String) (code : OzonErrorCode) (fallback : String) : List OzonErrorEntry :=
  match raw.take 20 with
  | [] => [⟨code, fallback⟩]
  | messages => messages.map fun message => ⟨code, if message = "" then fallback else message⟩

def matchesRequest (request : OzonRequest) (result : UpdateResult) : Prop :=
  match request with
  | .price item => result.offerId = item.offerId
  | .stock item => result.offerId = item.offerId ∧ result.warehouseId = some item.warehouseId
  | .product => False

instance (request : OzonRequest) (result : UpdateResult) : Decidable (matchesRequest request result) := by
  cases request <;> unfold matchesRequest <;> infer_instance

def rejection : OzonRequest → List String → List OzonErrorEntry
  | .price _, raw => providerErrors raw .priceRejected "Ozon отклонил обновление цены."
  | _, raw => providerErrors raw .stockRejected "Ozon отклонил обновление остатка."

def updateWrite (request : OzonRequest) : Except OzonAPIError (List UpdateResult) → OzonWrite
  | .error error => .commerceError error
  | .ok results =>
    match results.find? fun result => matchesRequest request result with
    | none =>
      .commerceOutcome .manualReview
        [⟨.resultNotMatched, "Ozon не вернул точный результат для отправленного товара."⟩]
    | some exact =>
      if exact.errors ≠ [] then .commerceOutcome .failed (rejection request exact.errors)
      else if exact.updated = false then
        .commerceOutcome .manualReview
          [⟨.updateNotConfirmed, "Ozon не подтвердил применение нового значения."⟩]
      else .commerceSucceeded request

def updateEvents (operation : Uuid) (answer : Except OzonAPIError (List UpdateResult)) :
    OzonRequest → List OzonEvent
  | .price item => [.pricesUpdated operation item answer]
  | .stock item => [.stocksUpdated operation item answer]
  | .product => []

end OzonCommerce

end MapBackend.Marketplaces
