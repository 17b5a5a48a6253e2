import MapBackend.Marketplaces.OzonWorkers

/-!
What one move of a worker can do to the account, said once for every stage: it only reads,
it calls the provider, it writes to one operation and its offer, or it creates operations.
-/

namespace MapBackend.Marketplaces
open MapBackend.Library

variable {row : OzonOperation} {s : OzonStore}

theorem OzonStore.operation?_some {pk : Uuid}
    (found : s.operation? pk = some row) : row ∈ s.operations ∧ row.pk = pk :=
  ⟨List.mem_of_find?_eq_some found, by simpa using List.find?_some found⟩

theorem OzonStore.operation?_of_mem (keys : (s.operations.map OzonOperation.pk).Nodup) (mem : row ∈ s.operations) : s.operation? row.pk = some row := by
  cases found : s.operation? row.pk with
  | none => exact absurd (List.find?_eq_none.mp found row mem) (by simp)
  | some =>
    obtain ⟨other_mem, same⟩ := OzonStore.operation?_some found
    rw [row_unique keys other_mem mem same]

theorem OzonStore.draft?_some {pk : Uuid} {draft : OzonOfferDraft}
    (found : s.draft? pk = some draft) : draft ∈ s.drafts ∧ draft.pk = pk :=
  ⟨List.mem_of_find?_eq_some found, by simpa using List.find?_some found⟩

theorem OzonStore.existing?_some {key : String}
    (found : s.existing? key = some row) : row ∈ s.operations ∧ row.idempotencyKey = key :=
  ⟨List.mem_of_find?_eq_some found, by simpa using List.find?_some found⟩

theorem OzonStore.latest?_mem {rows : List OzonOperation}
    (found : OzonStore.latest? rows = some row) : row ∈ rows := by
  induction rows with
  | nil => cases found
  | cons first _ ih =>
    simp only [OzonStore.latest?] at found
    split at found
    next =>
      obtain rfl : first = row := Option.some.inj found
      exact List.mem_cons_self
    next top later =>
      split at found
      · obtain rfl : first = row := Option.some.inj found
        exact List.mem_cons_self
      · exact List.mem_cons_of_mem _ (ih (later.trans found))

theorem OzonStore.latest?_none {rows : List OzonOperation} : OzonStore.latest? rows = none ↔ rows = [] := by
  cases rows with
  | nil => simp [OzonStore.latest?]
  | cons =>
    simp only [OzonStore.latest?, reduceCtorEq, iff_false]
    split
    · simp
    · split <;> simp

theorem OzonStore.mem_offerOperations {offer : Uuid} {kind : OzonOperationKind} :
    row ∈ s.offerOperations offer kind ↔ row ∈ s.operations ∧ row.offer = offer ∧ row.kind = kind := by
  simp [OzonStore.offerOperations]

def OzonStore.insert (s : OzonStore) (row : OzonOperation) : OzonStore :=
  { s with operations := s.operations ++ [row], nextPk := s.nextPk + 1 }

def OzonStore.FreeKey (s : OzonStore) (key : String) : Prop := ∀ row ∈ s.operations, row.idempotencyKey ≠ key

theorem OzonStore.insert?_some {s next : OzonStore} (made : s.insert? row = some next) :
    s.FreeKey row.idempotencyKey ∧ next = s.insert row := by
  simp only [OzonStore.insert?] at made
  split at made
  next => cases made
  next free =>
    have unused : s.FreeKey row.idempotencyKey := by
      intro old mem same
      exact free (List.any_eq_true.mpr ⟨old, mem, by simp [same]⟩)
    exact ⟨unused, (Option.some.inj made).symm⟩

structure OzonStore.Holds (s : OzonStore) (rows : OfferRows) : Prop where
  operation : rows.operation ∈ s.operations
  draft : rows.draft ∈ s.drafts
  offer : rows.draft.pk = rows.operation.offer

def OzonStore.written (s : OzonStore) (rows : OfferRows) (write : OzonWrite) (now : Instant) : OzonStore :=
  (s.save (write.apply now rows).operation (write.apply now rows).draft).record (write.events rows.operation.pk)

theorem OzonStore.persist_ok {s next : OzonStore} {pk : Uuid} {write : OzonWrite} {now : Instant} {left : OfferRows}
    (performed : s.persist pk write now = .ok (next, left)) :
    ∃ rows, s.Holds rows ∧ s.operation? pk = some rows.operation ∧ next = s.written rows write now ∧
      left = write.apply now rows := by
  simp only [OzonStore.persist, bind_ok, orRaise_ok, pure_ok] at performed
  obtain ⟨operation, found, draft, offered, made⟩ := performed
  cases made
  obtain ⟨mem, same⟩ := OzonStore.operation?_some found
  obtain ⟨draft_mem, offer⟩ := OzonStore.draft?_some offered
  refine ⟨⟨operation, draft⟩, ⟨mem, draft_mem, offer⟩, found, ?_, rfl⟩
  rw [OzonStore.written, same]

/-- The claim that `_claim_reconciliation` makes on the operation it found, if any. -/
def OzonReconciliation.Due (row : OzonOperation) (allowTerminalRefresh : Bool) (now : Instant) : Prop :=
  (row.active ∧ ¬ ∃ due ∈ row.nextReconcileAt, now < due) ∨ (¬ row.active ∧ allowTerminalRefresh = true)

instance (row : OzonOperation) (allowTerminalRefresh : Bool) (now : Instant) :
    Decidable (OzonReconciliation.Due row allowTerminalRefresh now) :=
  inferInstanceAs (Decidable (_ ∨ _))

namespace OzonWorker
open OzonStore

/-- What a worker may write to the operation it finds, and how it goes on from the rows it leaves. -/
inductive Writes (input : OzonInput) (s : OzonStore) :
    OzonWorker → OzonOperation → OzonWrite → (OfferRows → OzonWorker) → Prop
  | sendImport (row : OzonOperation) (item : Option String) (digest : String) (queued : row.state = .queued) :
    Writes input s (.submitProductImport row.pk item) row .markSending fun rows => .importProducts rows digest
  | refuseImport (row : OzonOperation) (item : Option String) (write : OzonWrite) (queued : row.state = .queued)
      (refused : write = .desiredStateChanged ∨ ∃ error, write = .importCredentials error) :
    Writes input s (.submitProductImport row.pk item) row write fun _ => .done (.ok [row.pk])
  | claimImport (offer : Uuid) (allowTerminalRefresh : Bool) (row : OzonOperation)
      (latest : latest? (s.offerOperations offer .productImport) = some row)
      (due : OzonReconciliation.Due row allowTerminalRefresh input.now) :
    Writes input s (.reconcileProductImport offer allowTerminalRefresh) row
      (.claimReconciliation (decide ¬ row.active)) fun rows =>
        if rows.operation.providerTaskId ≠ "" then .getProductImportInfo rows else .getProductInfo rows
  | limitImport (offer : Uuid) (allowTerminalRefresh : Bool) (row : OzonOperation)
      (latest : latest? (s.offerOperations offer .productImport) = some row)
      (due : OzonReconciliation.Due row allowTerminalRefresh input.now) :
    Writes input s (.reconcileProductImport offer allowTerminalRefresh) row .reconcileLimit
      fun _ => .done (.ok [row.pk])
  | sendArchive (row : OzonOperation) (item : StockRequest) (queued : row.state = .queued)
      (summary : row.requestSummary = .stock item) :
    Writes input s (.submitProductArchive row.pk) row .markSending fun rows => .zeroStock rows item
  | refuseArchive (row : OzonOperation) (error : OzonErrorEntry) (queued : row.state = .queued) :
    Writes input s (.submitProductArchive row.pk) row (.operationError .failed error) fun _ => .done (.ok [row.pk])
  | claimArchive (offer : Uuid) (row : OzonOperation)
      (latest : latest? (s.offerOperations offer .archive) = some row) (active : row.active) :
    Writes input s (.reconcileProductArchive offer) row .claimArchive .readArchive
  | limitArchive (offer : Uuid) (row : OzonOperation)
      (latest : latest? (s.offerOperations offer .archive) = some row) (active : row.active) :
    Writes input s (.reconcileProductArchive offer) row (.archiveProjection false) fun _ => .done (.ok [row.pk])
  | sendCommerce (row : OzonOperation) (pending : List Uuid) (queued : row.state = .queued) :
    Writes input s (.submitCommerce (row.pk :: pending)) row .markSending
      fun rows => .sendCommerce rows rows.operation.requestSummary pending
  | refuseCommerce (row : OzonOperation) (pending : List Uuid) (error : OzonErrorEntry)
      (queued : row.state = .queued) :
    Writes input s (.submitCommerce (row.pk :: pending)) row (.commerceOutcome .failed [error])
      fun _ => .submitCommerce pending
  | answered (rows : OfferRows) (write : OzonWrite) (after : AfterWrite) (row : OzonOperation)
      (same : row.pk = rows.operation.pk) :
    Writes input s (.answered rows write after) row write after.worker

inductive Calls (input : OzonInput) : OzonWorker → List OzonEvent → OzonWorker → Prop
  | importProducts (rows : OfferRows) (item : String) :
    Calls input (.importProducts rows item) [.importPosted rows.operation.pk item input.importProducts]
      (.answered rows (.importAnswered input.importProducts) .finish)
  | zeroStock (rows : OfferRows) (item : StockRequest) :
    Calls input (.zeroStock rows item) [.stocksUpdated rows.operation.pk item input.updateResults]
      (OzonLifecycle.stockAnswered rows item input.updateResults)
  | archiveProducts (rows : OfferRows) (item : StockRequest) :
    Calls input (.archiveProducts rows item) [.productArchived rows.operation.pk item input.archiveProducts]
      (OzonLifecycle.archiveAnswered rows input.archiveProducts)
  | sendCommerce (rows : OfferRows) (request : OzonRequest) (pending : List Uuid) :
    Calls input (.sendCommerce rows request pending)
      (OzonCommerce.updateEvents rows.operation.pk input.updateResults request)
      (.answered rows (OzonCommerce.updateWrite request input.updateResults) (.submitCommerce pending))

inductive Reads (input : OzonInput) (s : OzonStore) : OzonWorker → OzonWorker → Prop
  | importInfo (rows : OfferRows) :
    Reads input s (.getProductImportInfo rows) (OzonReconciliation.importInfoRead rows input)
  | productInfo (rows : OfferRows) :
    Reads input s (.getProductInfo rows)
      (.answered rows (OzonReconciliation.productInfoWrite s.history.length input.productInfo) .finish)
  | archive (rows : OfferRows) : Reads input s (.readArchive rows) (OzonLifecycle.archiveRead rows input.productInfo)
  | skipCommerce (operation : Uuid) (pending : List Uuid) :
    Reads input s (.submitCommerce (operation :: pending)) (.submitCommerce pending)
  | ended (w : OzonWorker) (result : Except OzonErrorCode (List Uuid)) : Reads input s w (.done result)

end OzonWorker

/-- One part of `sync_offer_commerce`: nothing to send, an operation that is there, or a new one. -/
inductive CommercePart (input : OzonInput) (draft : OzonOfferDraft) (kind : OzonOperationKind) (key : String)
    (s : OzonStore) : OzonStore → Option OzonOperation → Prop
  | settled : CommercePart input draft kind key s s none
  | found (row : OzonOperation) (mem : row ∈ s.operations) (offer : row.offer = draft.pk) (same : row.kind = kind) :
    CommercePart input draft kind key s s (some row)
  | created (request : OzonRequest) (free : s.FreeKey key)
      (unblocked : ∀ row ∈ s.operations, row.offer = draft.pk → row.kind = kind → row.active →
        row.state = .outcomeUnknown) :
    CommercePart input draft kind key s
      (s.insert (OzonOperation.create s.nextPk draft.pk kind key "" request input.now))
      (some (OzonOperation.create s.nextPk draft.pk kind key "" request input.now))

def OzonStore.opened (s : OzonStore) (row : OzonOperation) (draft : OzonOfferDraft) (status : PublicationStatus) :
    OzonStore :=
  (s.insert row).saveDraft { draft with publicationStatus := status }

def OzonLifecycle.archivable (draft : OzonOfferDraft) : Prop :=
  draft.publicationStatus ∈ [PublicationStatus.published, .archiveFailed, .archiveOutcomeUnknown]

instance (draft : OzonOfferDraft) : Decidable (OzonLifecycle.archivable draft) := inferInstanceAs (Decidable (_ ∈ _))

inductive OzonMove (input : OzonInput) (s : OzonStore) : OzonWorker → OzonStore → OzonWorker → Prop
  | reads {w next : OzonWorker} (reads : OzonWorker.Reads input s w next) : OzonMove input s w s next
  | calls {w next : OzonWorker} {events : List OzonEvent} (calls : OzonWorker.Calls input w events next) :
    OzonMove input s w (s.record events) next
  | writes {w : OzonWorker} {rows : OfferRows} {write : OzonWrite} {next : OfferRows → OzonWorker}
      (held : s.Holds rows) (writes : OzonWorker.Writes input s w rows.operation write next) :
    OzonMove input s w (s.written rows write input.now) (next (write.apply input.now rows))
  | createImport (draft : OzonOfferDraft) (key item : String) (valid : key ≠ "" ∧ key.length ≤ 100)
      (mem : draft ∈ s.drafts) (free : s.FreeKey key)
      (open_ : draft.publicationStatus ≠ .archived ∧
        ¬ ∃ last ∈ OzonStore.latest? (s.offerOperations draft.pk .archive), last.active)
      (inactive : ∀ row ∈ s.operations, row.offer = draft.pk → row.kind = .productImport → ¬ row.active) :
    OzonMove input s (.requestProductImport draft.pk key)
      (s.opened (OzonOperation.create s.nextPk draft.pk .productImport key item .product input.now) draft .queued)
      (.submitProductImport s.nextPk (some item))
  | createArchive (draft : OzonOfferDraft) (key : String) (productId warehouseId : ℕ)
      (valid : key ≠ "" ∧ key.length ≤ 100) (mem : draft ∈ s.drafts) (free : s.FreeKey key)
      (inactive : ∀ row ∈ s.operations, row.offer = draft.pk → row.kind = .archive → ¬ row.active)
      (settled : ¬ OzonLifecycle.commerceActive s draft.pk) (admitted : OzonLifecycle.archivable draft) :
    OzonMove input s (.requestProductArchive draft.pk key)
      (s.opened
        (OzonOperation.create s.nextPk draft.pk .archive key ""
          (.stock { offerId := draft.offerId, productId, stock := 0, warehouseId }) input.now)
        draft .archivePending)
      (.submitProductArchive s.nextPk)
  | syncCommerce (draft : OzonOfferDraft) (key : String) {between next : OzonStore} {price stock : Option OzonOperation}
      (valid : key ≠ "" ∧ key.length ≤ 90) (mem : draft ∈ s.drafts) (published : draft.publicationStatus = .published)
      (priced : CommercePart input draft .priceUpdate (key ++ ":price") s between price)
      (stocked : CommercePart input draft .stockUpdate (key ++ ":stock") between next stock) :
    OzonMove input s (.syncOfferCommerce draft.pk key) next
      (.submitCommerce ((price.toList ++ stock.toList).map OzonOperation.pk))

namespace OzonPublication
open OzonStore

variable {key : String}

theorem requireKey_ok {limit : ℕ} {u : Unit} (step : requireKey key limit = .ok u) :
    key ≠ "" ∧ key.length ≤ limit := by
  simpa only [requireKey, raiseIf_ok, not_or, not_lt] using step

variable {s next : OzonStore} {w : OzonWorker}

theorem replayed_ok {draft : OzonOfferDraft} {existing : OzonOperation}
    (step : replayed draft existing s = .ok (next, w)) : next = s ∧ w = .done (.ok [existing.pk]) := by
  simp only [replayed, bind_ok, raiseIf_ok, pure_ok] at step
  obtain ⟨_, _, made⟩ := step
  cases made
  exact ⟨rfl, rfl⟩

variable {input : OzonInput}

theorem createProductImport_ok {draft : OzonOfferDraft} (step : createProductImport draft key input s = .ok (next, w)) :
    (∃ result, next = s ∧ w = .done result) ∨
      ∃ item, s.FreeKey key ∧ w = .submitProductImport s.nextPk (some item) ∧
        next = s.opened (OzonOperation.create s.nextPk draft.pk .productImport key item .product input.now)
          draft .queued := by
  simp only [createProductImport, bind_ok, raiseIf_ok] at step
  obtain ⟨_, _, _, _, item, _, _, _, step⟩ := step
  split at step
  next =>
    simp only [bind_ok] at step
    obtain ⟨_, _, step⟩ := step
    obtain ⟨rfl, rfl⟩ := replayed_ok step
    exact .inl ⟨_, rfl, rfl⟩
  next inserted made =>
    obtain ⟨free, rfl⟩ := insert?_some made
    cases step
    exact .inr ⟨item, free, rfl, rfl⟩

theorem requestProductImport_move {offer : Uuid} (step : requestProductImport offer key input s = .ok (next, w)) :
    OzonMove input s (.requestProductImport offer key) next w := by
  simp only [requestProductImport, bind_ok, orRaise_ok] at step
  obtain ⟨_, keyed, _, _, draft, found, step⟩ := step
  have valid := requireKey_ok keyed
  obtain ⟨mem, rfl⟩ := draft?_some found
  split at step
  next =>
    obtain ⟨rfl, rfl⟩ := replayed_ok step
    exact .reads (.ended _ _)
  next =>
    simp only [bind_ok, raiseIf_ok, not_or] at step
    obtain ⟨_, unarchived, step⟩ := step
    split at step
    next =>
      cases step
      exact .reads (.ended _ _)
    next none_active =>
      rcases createProductImport_ok step with ⟨_, rfl, rfl⟩ | ⟨item, free, rfl, rfl⟩
      · exact .reads (.ended _ _)
      · refine .createImport draft key item valid mem free unarchived ?_
        intro row row_mem offer kind active
        have listed : row ∈ (s.offerOperations draft.pk .productImport).filter fun row => row.active :=
          List.mem_filter.mpr ⟨mem_offerOperations.mpr ⟨row_mem, offer, kind⟩, decide_eq_true active⟩
        rw [latest?_none.mp none_active] at listed
        exact List.not_mem_nil listed

theorem sendProductImport_move {row : OzonOperation} {item : Option String} {digest : String} (found : s.operation? row.pk = some row) (queued : row.state = .queued)
    (step : sendProductImport row.pk digest input s = .ok (next, w)) :
    OzonMove input s (.submitProductImport row.pk item) next w := by
  simp only [sendProductImport] at step
  split at step <;> simp only [bind_ok, Prod.exists, pure_ok] at step
  next error _ =>
    obtain ⟨_, left, performed, made⟩ := step
    cases made
    obtain ⟨rows, held, here, rfl, rfl⟩ := persist_ok performed
    obtain rfl : row = rows.operation := Option.some.inj (found.symm.trans here)
    exact .writes held (.refuseImport _ item _ queued (.inr ⟨error, rfl⟩))
  next =>
    obtain ⟨_, left, performed, made⟩ := step
    cases made
    obtain ⟨rows, held, here, rfl, rfl⟩ := persist_ok performed
    obtain rfl : row = rows.operation := Option.some.inj (found.symm.trans here)
    exact .writes held (.sendImport _ item digest queued)

theorem submitProductImport_move {operation : Uuid} {item : Option String} (step : submitProductImport operation item input s = .ok (next, w)) :
    OzonMove input s (.submitProductImport operation item) next w := by
  simp only [submitProductImport, bind_ok, orRaise_ok] at step
  obtain ⟨row, found, step⟩ := step
  obtain ⟨_, rfl⟩ := operation?_some found
  split at step
  next =>
    cases step
    exact .reads (.ended _ _)
  next queued =>
    have queued : row.state = .queued := not_not.mp queued
    split at step
    next item => exact sendProductImport_move found queued step
    next =>
      simp only [bind_ok] at step
      obtain ⟨item, _, step⟩ := step
      split at step
      next =>
        simp only [bind_ok, Prod.exists, pure_ok] at step
        obtain ⟨_, _, performed, made⟩ := step
        cases made
        obtain ⟨rows, held, here, rfl, rfl⟩ := persist_ok performed
        obtain rfl : row = rows.operation := Option.some.inj (found.symm.trans here)
        exact .writes held (.refuseImport _ none _ queued (.inl rfl))
      next => exact sendProductImport_move found queued step

end OzonPublication

namespace OzonReconciliation
open OzonStore

theorem claimDue_move {offer : Uuid} {allowTerminalRefresh : Bool} {row : OzonOperation} {input : OzonInput}
    {s next : OzonStore} {w : OzonWorker} (found : s.operation? row.pk = some row)
    (latest : latest? (s.offerOperations offer .productImport) = some row)
    (due : Due row allowTerminalRefresh input.now)
    (step : claimDue row (decide ¬ row.active) input s = .ok (next, w)) :
    OzonMove input s (.reconcileProductImport offer allowTerminalRefresh) next w := by
  simp only [claimDue] at step
  split at step <;> simp only [bind_ok, Prod.exists] at step
  next =>
    obtain ⟨_, left, performed, made⟩ := step
    cases made
    obtain ⟨rows, held, here, rfl, rfl⟩ := persist_ok performed
    obtain rfl : row = rows.operation := Option.some.inj (found.symm.trans here)
    exact .writes held (.limitImport offer allowTerminalRefresh _ latest due)
  next =>
    obtain ⟨_, left, performed, step⟩ := step
    split at step
    next => cases step
    next =>
      cases step
      obtain ⟨rows, held, here, rfl, rfl⟩ := persist_ok performed
      obtain rfl : row = rows.operation := Option.some.inj (found.symm.trans here)
      exact .writes held (.claimImport offer allowTerminalRefresh _ latest due)

end OzonReconciliation

namespace OzonReconciliation
open OzonStore

theorem claimReconciliation_move {offer : Uuid} {allowTerminalRefresh : Bool} {input : OzonInput}
    {s next : OzonStore} {w : OzonWorker} (keys : (s.operations.map OzonOperation.pk).Nodup)
    (step : claimReconciliation offer allowTerminalRefresh input s = .ok (next, w)) :
    OzonMove input s (.reconcileProductImport offer allowTerminalRefresh) next w := by
  simp only [claimReconciliation, bind_ok, orRaise_ok] at step
  obtain ⟨_, _, draft, offered, row, latest, step⟩ := step
  obtain ⟨_, rfl⟩ := draft?_some offered
  have found := operation?_of_mem keys (mem_offerOperations.mp (latest?_mem latest)).1
  split at step
  next active =>
    split at step
    next =>
      cases step
      exact .reads (.ended _ _)
    next free =>
      have claimed : claimDue row (decide ¬ row.active) input s = .ok (next, w) := by simpa [active] using step
      exact claimDue_move found latest (.inl ⟨active, free⟩) claimed
  next inactive =>
    split at step
    next refresh =>
      have claimed : claimDue row (decide ¬ row.active) input s = .ok (next, w) := by simpa [inactive] using step
      exact claimDue_move found latest (.inr ⟨inactive, refresh⟩) claimed
    next =>
      cases step
      exact .reads (.ended _ _)

end OzonReconciliation

namespace OzonLifecycle
open OzonStore

variable {s next : OzonStore} {w : OzonWorker}

theorem replayed_ok {draft : OzonOfferDraft} {existing : OzonOperation}
    (step : replayed draft existing s = .ok (next, w)) : next = s ∧ w = .done (.ok [existing.pk]) := by
  simp only [replayed, bind_ok, raiseIf_ok, pure_ok] at step
  obtain ⟨_, _, made⟩ := step
  cases made
  exact ⟨rfl, rfl⟩

variable {input : OzonInput}

theorem requestProductArchive_move {offer : Uuid} {key : String} (step : requestProductArchive offer key input s = .ok (next, w)) :
    OzonMove input s (.requestProductArchive offer key) next w := by
  simp only [requestProductArchive, bind_ok, orRaise_ok] at step
  obtain ⟨_, keyed, draft, found, step⟩ := step
  have valid := OzonPublication.requireKey_ok keyed
  obtain ⟨mem, rfl⟩ := draft?_some found
  split at step
  next =>
    obtain ⟨rfl, rfl⟩ := replayed_ok step
    exact .reads (.ended _ _)
  next =>
    split at step
    next =>
      cases step
      exact .reads (.ended _ _)
    next none_active =>
      simp only [createProductArchive, bind_ok, raiseIf_ok, Prod.exists] at step
      obtain ⟨_, settled, productId, warehouseId, granted, step⟩ := step
      simp only [requireArchiveAdmission, bind_ok, raiseIf_ok, not_not] at granted
      obtain ⟨_, _, _, _, _, _, _, _, _, _, _, admitted, _⟩ := granted
      split at step
      next =>
        simp only [bind_ok] at step
        obtain ⟨_, _, step⟩ := step
        obtain ⟨rfl, rfl⟩ := replayed_ok step
        exact .reads (.ended _ _)
      next inserted made =>
        obtain ⟨free, rfl⟩ := insert?_some made
        cases step
        refine .createArchive draft key productId warehouseId valid mem free ?_ settled admitted
        intro row row_mem offer kind active
        have listed : row ∈ (s.offerOperations draft.pk .archive).filter fun row => row.active :=
          List.mem_filter.mpr ⟨mem_offerOperations.mpr ⟨row_mem, offer, kind⟩, decide_eq_true active⟩
        rw [latest?_none.mp none_active] at listed
        exact List.not_mem_nil listed

theorem submitProductArchive_move {operation : Uuid}
    (step : submitProductArchive operation input s = .ok (next, w)) :
    OzonMove input s (.submitProductArchive operation) next w := by
  simp only [submitProductArchive, bind_ok, orRaise_ok] at step
  obtain ⟨row, found, step⟩ := step
  obtain ⟨_, rfl⟩ := operation?_some found
  split at step
  next =>
    cases step
    exact .reads (.ended _ _)
  next queued =>
    have queued : row.state = .queued := not_not.mp queued
    split at step
    next error _ =>
      simp only [bind_ok, Prod.exists, pure_ok] at step
      obtain ⟨_, left, performed, made⟩ := step
      cases made
      obtain ⟨rows, held, here, rfl, rfl⟩ := persist_ok performed
      obtain rfl : row = rows.operation := Option.some.inj (found.symm.trans here)
      exact .writes held (.refuseArchive _ error queued)
    next item _ summary =>
      simp only [bind_ok, Prod.exists, pure_ok] at step
      obtain ⟨_, left, performed, made⟩ := step
      cases made
      obtain ⟨rows, held, here, rfl, rfl⟩ := persist_ok performed
      obtain rfl : row = rows.operation := Option.some.inj (found.symm.trans here)
      exact .writes held (.sendArchive _ item queued summary)
    next => cases step

theorem reconcileProductArchive_move {offer : Uuid}
    (keys : (s.operations.map OzonOperation.pk).Nodup)
    (step : reconcileProductArchive offer input s = .ok (next, w)) :
    OzonMove input s (.reconcileProductArchive offer) next w := by
  simp only [reconcileProductArchive, bind_ok, orRaise_ok] at step
  obtain ⟨draft, offered, row, latest, step⟩ := step
  obtain ⟨_, rfl⟩ := draft?_some offered
  have found := operation?_of_mem keys (mem_offerOperations.mp (latest?_mem latest)).1
  split at step
  next =>
    cases step
    exact .reads (.ended _ _)
  next active =>
    have active : row.active := not_not.mp active
    split at step
    next =>
      cases step
      exact .reads (.ended _ _)
    next =>
      split at step <;> simp only [bind_ok, Prod.exists, pure_ok] at step
      next =>
        obtain ⟨_, left, performed, made⟩ := step
        cases made
        obtain ⟨rows, held, here, rfl, rfl⟩ := persist_ok performed
        obtain rfl : row = rows.operation := Option.some.inj (found.symm.trans here)
        exact .writes held (.limitArchive _ _ latest active)
      next =>
        obtain ⟨_, left, performed, step⟩ := step
        split at step
        next => cases step
        next =>
          cases step
          obtain ⟨rows, held, here, rfl, rfl⟩ := persist_ok performed
          obtain rfl : row = rows.operation := Option.some.inj (found.symm.trans here)
          exact .writes held (.claimArchive _ _ latest active)

end OzonLifecycle

namespace OzonCommerce
open OzonStore

variable {kind : OzonOperationKind} {row : OzonOperation} {now : Instant} {offer : Uuid}

theorem blocking?_none {s : OzonStore}
    (free : blocking? s offer kind now = none) (mem : row ∈ s.operations)
    (same : row.offer = offer) (kept : row.kind = kind) (active : row.active) : row.state = .outcomeUnknown := by
  by_contra known
  have listed : row ∈ (s.offerOperations offer kind).filter fun row => row.active ∧ row.state ≠ .outcomeUnknown :=
    List.mem_filter.mpr ⟨mem_offerOperations.mpr ⟨mem, same, kept⟩, decide_eq_true ⟨active, known⟩⟩
  simp only [blocking?] at free
  split at free
  next => cases free
  next empty =>
    rw [latest?_none.mp empty] at listed
    exact List.not_mem_nil listed

theorem blocking?_some {s : OzonStore} (found : blocking? s offer kind now = some row) :
    row ∈ s.operations ∧ row.offer = offer ∧ row.kind = kind := by
  simp only [blocking?] at found
  split at found
  next latest =>
    cases found
    exact mem_offerOperations.mp (List.mem_filter.mp (latest?_mem latest)).1
  next => exact mem_offerOperations.mp (List.mem_filter.mp (latest?_mem found)).1

variable {draft : OzonOfferDraft} {key : String}

theorem existingOrActive_some {s : OzonStore} (found : existingOrActive s draft kind key now = .ok (some row)) :
    row ∈ s.operations ∧ row.offer = draft.pk ∧ row.kind = kind := by
  simp only [existingOrActive] at found
  split at found
  next existing same =>
    simp only [bind_ok, raiseIf_ok, not_or, not_not, pure_ok] at found
    obtain ⟨_, ⟨offer, kept⟩, made⟩ := found
    cases made
    exact ⟨(existing?_some same).1, offer, kept⟩
  next => exact blocking?_some (Except.ok.inj found)

theorem existingOrActive_none {s : OzonStore} (found : existingOrActive s draft kind key now = .ok none)
    (mem : row ∈ s.operations) (same : row.offer = draft.pk) (kept : row.kind = kind) (active : row.active) :
    row.state = .outcomeUnknown := by
  simp only [existingOrActive] at found
  split at found
  next =>
    simp only [bind_ok, pure_ok] at found
    obtain ⟨_, _, made⟩ := found
    cases made
  next => exact blocking?_none (Except.ok.inj found) mem same kept active

variable {s next : OzonStore}

theorem newOperation_ok
    {request : OzonRequest}
    (step : newOperation s draft kind key request now = .ok (next, row)) :
    s.FreeKey key ∧ row = OzonOperation.create s.nextPk draft.pk kind key "" request now ∧ next = s.insert row := by
  simp only [newOperation, bind_ok, orRaise_ok] at step
  obtain ⟨_, made, step⟩ := step
  obtain ⟨free, rfl⟩ := insert?_some made
  cases step
  exact ⟨free, rfl, rfl⟩

variable {input : OzonInput}

theorem commercePart_of
    {request : OzonRequest} {limited : Except OzonErrorCode Unit} {wanted : Prop} [Decidable wanted]
    {found result : Option OzonOperation} (looked : existingOrActive s draft kind key input.now = .ok found)
    (step : (if found = none ∧ wanted then do
        let _ ← limited
        let (s, operation) ← newOperation s draft kind key request input.now
        pure (s, some operation)
      else pure (s, found) : Except OzonErrorCode (OzonStore × Option OzonOperation)) = .ok (next, result)) :
    CommercePart input draft kind key s next result := by
  split at step
  next wanted =>
    simp only [bind_ok, Prod.exists] at step
    obtain ⟨_, _, _, row, made, step⟩ := step
    cases step
    obtain ⟨free, rfl, rfl⟩ := newOperation_ok made
    refine .created request free ?_
    intro row mem same kept active
    exact existingOrActive_none (wanted.1 ▸ looked) mem same kept active
  next =>
    cases step
    match found, looked with
    | none, _ => exact .settled
    | some row, looked =>
      obtain ⟨mem, same, kept⟩ := existingOrActive_some looked
      exact .found row mem same kept

theorem priceOperation_ok {productId : ℕ} {desired : ℤ} {result : Option OzonOperation}
    (step : priceOperation draft key productId desired input s = .ok (next, result)) :
    CommercePart input draft .priceUpdate key s next result := by
  simp only [priceOperation, bind_ok] at step
  obtain ⟨_, looked, step⟩ := step
  exact commercePart_of looked step

theorem stockOperation_ok {productId warehouseId desired : ℕ} {result : Option OzonOperation}
    (step : stockOperation draft key productId warehouseId desired input s = .ok (next, result)) :
    CommercePart input draft .stockUpdate key s next result := by
  simp only [stockOperation, bind_ok] at step
  obtain ⟨_, looked, step⟩ := step
  exact commercePart_of looked step

theorem syncOfferCommerce_move
    {w : OzonWorker} (step : syncOfferCommerce offer key input s = .ok (next, w)) :
    OzonMove input s (.syncOfferCommerce offer key) next w := by
  simp only [syncOfferCommerce, bind_ok, orRaise_ok, Prod.exists] at step
  obtain ⟨_, keyed, draft, found, productId, selected, granted, desired, _, _, _, _, _, between, price, priced,
    _, stock, stocked, made⟩ := step
  cases made
  obtain ⟨mem, rfl⟩ := draft?_some found
  simp only [requireCommerceAdmission, bind_ok, raiseIf_ok, not_not] at granted
  obtain ⟨_, _, _, _, _, _, _, published, _⟩ := granted
  exact .syncCommerce draft key (OzonPublication.requireKey_ok keyed) mem published (priceOperation_ok priced)
    (stockOperation_ok stocked)

theorem submitCommerceOperation_move {operation : Uuid} {pending : List Uuid} {w : OzonWorker}
    (step : submitCommerceOperation operation pending input s = .ok (next, w)) :
    OzonMove input s (.submitCommerce (operation :: pending)) next w := by
  simp only [submitCommerceOperation, bind_ok, orRaise_ok] at step
  obtain ⟨row, found, step⟩ := step
  obtain ⟨_, rfl⟩ := operation?_some found
  split at step
  next =>
    cases step
    exact .reads (.skipCommerce _ _)
  next queued =>
    have queued : row.state = .queued := not_not.mp queued
    split at step <;> simp only [bind_ok, Prod.exists, pure_ok] at step
    next error _ =>
      obtain ⟨_, left, performed, made⟩ := step
      cases made
      obtain ⟨rows, held, here, rfl, rfl⟩ := persist_ok performed
      obtain rfl : row = rows.operation := Option.some.inj (found.symm.trans here)
      exact .writes held (.refuseCommerce _ pending error queued)
    next =>
      obtain ⟨_, left, performed, made⟩ := step
      cases made
      obtain ⟨rows, held, here, rfl, rfl⟩ := persist_ok performed
      obtain rfl : row = rows.operation := Option.some.inj (found.symm.trans here)
      exact .writes held (.sendCommerce _ pending queued)

end OzonCommerce

namespace OzonWorker
open OzonStore

theorem settle_move {input : OzonInput} {s : OzonStore} {w : OzonWorker} {outcome : OzonTransaction}
    (committed : ∀ next moved, outcome = .ok (next, moved) → OzonMove input s w next moved) :
    OzonMove input s w (settle s outcome).1 (settle s outcome).2 := by
  cases outcome with
  | error => exact .reads (.ended _ _)
  | ok pair => exact committed pair.1 pair.2 rfl

theorem writeAnswer_move {rows : OfferRows} {write : OzonWrite} {after : AfterWrite} {input : OzonInput}
    {s next : OzonStore} {w : OzonWorker} (step : writeAnswer rows write after input.now s = .ok (next, w)) :
    OzonMove input s (.answered rows write after) next w := by
  simp only [writeAnswer, bind_ok, Prod.exists, pure_ok] at step
  obtain ⟨_, _, performed, made⟩ := step
  cases made
  obtain ⟨_, held, here, rfl, rfl⟩ := persist_ok performed
  exact .writes held (.answered rows write after _ (operation?_some here).2)

theorem advance_move (w : OzonWorker) (input : OzonInput) {s : OzonStore}
    (keys : (s.operations.map OzonOperation.pk).Nodup) :
    OzonMove input s w (w.advance input s).1 (w.advance input s).2 := by
  cases w with
  | requestProductImport =>
    exact settle_move fun _ _ step => OzonPublication.requestProductImport_move step
  | submitProductImport =>
    exact settle_move fun _ _ step => OzonPublication.submitProductImport_move step
  | importProducts rows item => exact .calls (.importProducts rows item)
  | reconcileProductImport =>
    exact settle_move fun _ _ step => OzonReconciliation.claimReconciliation_move keys step
  | getProductImportInfo rows => exact .reads (.importInfo rows)
  | getProductInfo rows => exact .reads (.productInfo rows)
  | requestProductArchive =>
    exact settle_move fun _ _ step => OzonLifecycle.requestProductArchive_move step
  | submitProductArchive =>
    exact settle_move fun _ _ step => OzonLifecycle.submitProductArchive_move step
  | zeroStock rows item => exact .calls (.zeroStock rows item)
  | archiveProducts rows item => exact .calls (.archiveProducts rows item)
  | readArchive rows => exact .reads (.archive rows)
  | reconcileProductArchive =>
    exact settle_move fun _ _ step => OzonLifecycle.reconcileProductArchive_move keys step
  | syncOfferCommerce =>
    exact settle_move fun _ _ step => OzonCommerce.syncOfferCommerce_move step
  | submitCommerce pending =>
    cases pending with
    | nil => exact .reads (.ended _ _)
    | cons =>
      exact settle_move fun _ _ step => OzonCommerce.submitCommerceOperation_move step
  | sendCommerce rows request pending => exact .calls (.sendCommerce rows request pending)
  | answered => exact settle_move fun _ _ step => writeAnswer_move step
  | done => exact .reads (.ended _ _)

end OzonWorker

end MapBackend.Marketplaces
