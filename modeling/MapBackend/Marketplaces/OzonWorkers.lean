import MapBackend.Marketplaces.OzonLifecycle
import MapBackend.Library.Workers

/-!
The workers of one account: each move is one transaction or one call to the provider, so
other workers may move in between, and a crash at any point forgets the worker.
-/

namespace MapBackend.Marketplaces
open MapBackend.Library

def AfterWrite.worker (rows : OfferRows) : AfterWrite → OzonWorker
  | finish => .done (.ok [rows.operation.pk])
  | archiveProducts item => .archiveProducts rows item
  | readArchive => .readArchive rows
  | submitCommerce pending => .submitCommerce pending

namespace OzonWorker

def settle (s : OzonStore) : OzonTransaction → OzonStore × OzonWorker
  | .ok committed => committed
  | .error error => (s, .done (.error error))

def writeAnswer (rows : OfferRows) (write : OzonWrite) (after : AfterWrite) (now : Instant) (s : OzonStore) :
    OzonTransaction := do
  let (s, rows) ← s.persist rows.operation.pk write now
  pure (s, after.worker rows)

def advance : OzonWorker → OzonInput → OzonStore → OzonStore × OzonWorker
  | .requestProductImport offer key, input, s =>
    settle s (OzonPublication.requestProductImport offer key input s)
  | .submitProductImport operation item, input, s =>
    settle s (OzonPublication.submitProductImport operation item input s)
  | .importProducts rows item, input, s =>
    (s.record [.importPosted rows.operation.pk item input.importProducts],
      .answered rows (.importAnswered input.importProducts) .finish)
  | .reconcileProductImport offer allowTerminalRefresh, input, s =>
    settle s (OzonReconciliation.claimReconciliation offer allowTerminalRefresh input s)
  | .getProductImportInfo rows, input, s => (s, OzonReconciliation.importInfoRead rows input)
  | .getProductInfo rows, input, s =>
    (s, .answered rows (OzonReconciliation.productInfoWrite s.history.length input.productInfo) .finish)
  | .requestProductArchive offer key, input, s =>
    settle s (OzonLifecycle.requestProductArchive offer key input s)
  | .submitProductArchive operation, input, s =>
    settle s (OzonLifecycle.submitProductArchive operation input s)
  | .zeroStock rows item, input, s =>
    (s.record [.stocksUpdated rows.operation.pk item input.updateResults],
      OzonLifecycle.stockAnswered rows item input.updateResults)
  | .archiveProducts rows item, input, s =>
    (s.record [.productArchived rows.operation.pk item input.archiveProducts],
      OzonLifecycle.archiveAnswered rows input.archiveProducts)
  | .readArchive rows, input, s => (s, OzonLifecycle.archiveRead rows input.productInfo)
  | .reconcileProductArchive offer, input, s => settle s (OzonLifecycle.reconcileProductArchive offer input s)
  | .syncOfferCommerce offer key, input, s => settle s (OzonCommerce.syncOfferCommerce offer key input s)
  | .submitCommerce [], _, s => (s, .done (.ok []))
  | .submitCommerce (operation :: pending), input, s =>
    settle s (OzonCommerce.submitCommerceOperation operation pending input s)
  | .sendCommerce rows request pending, input, s =>
    (s.record (OzonCommerce.updateEvents rows.operation.pk input.updateResults request),
      .answered rows (OzonCommerce.updateWrite request input.updateResults) (.submitCommerce pending))
  | .answered rows write after, input, s => settle s (writeAnswer rows write after input.now s)
  | .done result, _, s => (s, .done result)

end OzonWorker

inductive OzonCall where
  | requestProductImport (offer : Uuid) (idempotencyKey : String)
  | reconcileProductImport (offer : Uuid) (allowTerminalRefresh : Bool)
  | requestProductArchive (offer : Uuid) (idempotencyKey : String)
  | reconcileProductArchive (offer : Uuid)
  | syncOfferCommerce (offer : Uuid) (idempotencyKey : String)

def OzonCall.worker : OzonCall → OzonWorker
  | requestProductImport offer key => .requestProductImport offer key
  | reconcileProductImport offer allowTerminalRefresh => .reconcileProductImport offer allowTerminalRefresh
  | requestProductArchive offer key => .requestProductArchive offer key
  | reconcileProductArchive offer => .reconcileProductArchive offer
  | syncOfferCommerce offer key => .syncOfferCommerce offer key

inductive OzonAction where
  | call (request : OzonCall)
  | move (k : ℕ) (input : OzonInput)
  | crash (k : ℕ)

def OzonAction.crewAction : OzonAction → CrewAction OzonWorker OzonInput Empty
  | call request => .start request.worker
  | move k input => .move k input
  | crash k => .crash k

abbrev OzonCrew := Crew OzonStore OzonWorker

namespace OzonCrew

def next (c : OzonCrew) (a : OzonAction) : OzonCrew := Crew.step nofun OzonWorker.advance c a.crewAction

def Allowed (guard : OzonCrew → OzonWorker → OzonInput → Prop) (c : OzonCrew) : OzonAction → Prop
  | .move k input => ∀ w ∈ c.workers[k]?, guard c w input
  | _ => True

instance (guard : OzonCrew → OzonWorker → OzonInput → Prop) [∀ c w input, Decidable (guard c w input)]
    (c : OzonCrew) : (a : OzonAction) → Decidable (Allowed guard c a)
  | .move k input => inferInstanceAs (Decidable (∀ w ∈ c.workers[k]?, guard c w input))
  | .call _ => .isTrue trivial
  | .crash _ => .isTrue trivial

end OzonCrew

structure OzonStore.Fresh (s : OzonStore) : Prop where
  offers : (s.drafts.map OzonOfferDraft.pk).Nodup
  unpublished : ∀ draft ∈ s.drafts, draft.publicationStatus = .localDraft
  operations : s.operations = []
  history : s.history = []

instance (s : OzonStore) : Decidable s.Fresh :=
  decidable_of_iff
    ((s.drafts.map OzonOfferDraft.pk).Nodup ∧ (∀ draft ∈ s.drafts, draft.publicationStatus = .localDraft) ∧
      s.operations = [] ∧ s.history.length = 0)
    ⟨fun ⟨offers, drafts, operations, history⟩ => ⟨offers, drafts, operations, List.length_eq_zero_iff.mp history⟩,
      fun ⟨offers, drafts, operations, history⟩ => ⟨offers, drafts, operations, by simp [history]⟩⟩

def OzonStore.idle (s : OzonStore) : OzonCrew := { store := s, workers := [] }

def OzonAccountView.ready : OzonAccountView where
  isOzon := true
  isActive := true
  connectionEnabled := true
  productWriteEnabled := true
  archiveMethod := true
  connected := true
  selectedWarehouseId := some 42
  credentials := .ok ()

def OzonAPIError.lost : OzonAPIError :=
  { code := .connectionError, message := "Не удалось связаться с Ozon Seller API.", retryAfterSeconds := none }

def OzonInput.silent (now : Instant) : OzonInput where
  now := now
  account := .ready
  importItem := .ok "card"
  finalPrice := some 9900
  stockQty := 5
  importProducts := .error .lost
  importInfo := .error .lost
  productInfo := .error .lost
  updateResults := .error .lost
  archiveProducts := .error .lost

def ProductItem.moderated (moderateStatus : String) : ProductItem where
  id := some 77
  status := ""
  moderateStatus := moderateStatus
  validationStatus := ""
  errors := []
  isArchived := false

def OzonStore.offering (pks : List Uuid) : OzonStore where
  drafts := pks.map fun pk =>
    { pk, offerId := "offer", publicationStatus := .localDraft, providerProductId := none, lastSyncedPrice := none
      lastSyncedStock := none, lastStockWarehouseId := none }
  operations := []
  nextPk := 1
  history := []

end MapBackend.Marketplaces
