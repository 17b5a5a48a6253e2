import MapBackend.Marketplaces.OzonAttestation
import MapBackend.Marketplaces.OzonSenders

/-!
Archiving excludes imports and stocks.
-/

namespace MapBackend.Marketplaces
open MapBackend.Library

namespace OzonStore

def ArchiveActive (s : OzonStore) (offer : Uuid) : Prop :=
  ∃ row ∈ s.operations, row.offer = offer ∧ row.kind = .archive ∧ row.active

instance (s : OzonStore) (offer : Uuid) : Decidable (s.ArchiveActive offer) :=
  inferInstanceAs (Decidable (∃ row ∈ s.operations, _))

def Archived (s : OzonStore) (offer : Uuid) : Prop :=
  ∃ draft ∈ s.drafts, draft.pk = offer ∧ draft.publicationStatus = .archived

instance (s : OzonStore) (offer : Uuid) : Decidable (s.Archived offer) :=
  inferInstanceAs (Decidable (∃ draft ∈ s.drafts, _))

def Closed (s : OzonStore) (offer : Uuid) : Prop := s.ArchiveActive offer ∨ s.Archived offer

instance (s : OzonStore) (offer : Uuid) : Decidable (s.Closed offer) := inferInstanceAs (Decidable (_ ∨ _))

end OzonStore

def OzonEvent.opens : OzonEvent → Option Uuid
  | importPosted operation _ _ => some operation
  | stocksUpdated operation item _ => if item.stock = 0 then none else some operation
  | _ => none

def OzonEvent.archives : OzonEvent → Option (Uuid × StockRequest)
  | productArchived operation item _ => some (operation, item)
  | _ => none

/-- The last stock of the offer is the zero that the provider confirmed for the request of this archiving. -/
structure OzonStore.Zeroed (s : OzonStore) (row : OzonOperation) (item : StockRequest) : Prop where
  request : row.requestSummary = .stock item
  offer : ∀ draft ∈ s.drafts, draft.pk = row.offer → draft.offerId = item.offerId
  zero : item.stock = 0
  confirmed : ∃ earlier later results, s.history = earlier ++ .stocksUpdated row.pk item (.ok results) :: later ∧
    (∃ result ∈ results, OzonLifecycle.stockZeroConfirmed result item) ∧
    ∀ event ∈ later, ∀ pk, event.opens = some pk → ∃ other ∈ s.operations, other.pk = pk ∧ other.offer ≠ row.offer

/-- No action sends an import or a stock of a closed offer, and what it archives has no stock. -/
def OzonCrew.Excludes (c : OzonCrew) (a : OzonAction) : Prop :=
  ∀ events, (c.next a).store.history = c.store.history ++ events → ∀ event ∈ events,
    ∀ row ∈ c.store.operations,
      (event.opens = some row.pk → ¬ c.store.Closed row.offer) ∧
        ∀ item, event.archives = some (row.pk, item) → c.store.Zeroed row item

namespace OzonWrite

def publishes : OzonWrite → Prop
  | productProjection item _ => item.approved
  | _ => False

instance : (write : OzonWrite) → Decidable write.publishes
  | productProjection item _ => inferInstanceAs (Decidable item.approved)
  | markSending | desiredStateChanged | importCredentials _ | importAnswered _ | claimReconciliation _ | reconcileLimit
  | transientError _ | offerNotInTask | importPending | finishFailed _ _ | notFound | operationError _ _
  | archiveUnread _ | stockZeroed _ | archiveOutcomeUnknown | archiveAccepted | archiveProjection _ | claimArchive
  | commerceError _ | commerceOutcome _ _ | commerceSucceeded _ => .isFalse id

def leavesClosed (row : OzonOperation) : OzonWrite → Prop
  | archiveUnread _ | archiveOutcomeUnknown | archiveAccepted => True
  | archiveProjection archived => archived = true ∨ row.reconcileCount < Ozon.archiveReconcileLimit
  | _ => False

instance (row : OzonOperation) : (write : OzonWrite) → Decidable (write.leavesClosed row)
  | archiveUnread _ | archiveOutcomeUnknown | archiveAccepted => .isTrue trivial
  | archiveProjection _ => inferInstanceAs (Decidable (_ ∨ _))
  | markSending | desiredStateChanged | importCredentials _ | importAnswered _ | claimReconciliation _ | reconcileLimit
  | transientError _ | offerNotInTask | importPending | finishFailed _ _ | productProjection _ _ | notFound
  | operationError _ _ | stockZeroed _ | claimArchive | commerceError _ | commerceOutcome _ _ | commerceSucceeded _ =>
    .isFalse id

theorem apply_archiving {write : OzonWrite} {now : Instant} {rows : OfferRows}
    (archiving : write.task = some .archiving) (active : (write.apply now rows).operation.active) :
    rows.operation.active ∨ write.leavesClosed rows.operation := by
  cases write with
  | operationError failure =>
    cases failure with
    | failed => exact absurd active (show ¬ OzonOperationState.active .failed by decide)
    | manualReview => exact absurd active (show ¬ OzonOperationState.active .manualReview by decide)
  | archiveUnread => exact .inr trivial
  | stockZeroed => exact .inl active
  | archiveOutcomeUnknown => exact .inr trivial
  | archiveAccepted => exact .inr trivial
  | claimArchive => exact .inl active
  | archiveProjection =>
    simp only [apply, OfferRows.persistArchiveProjection] at active
    split at active
    next observed => exact .inr (.inl observed)
    next =>
      split at active
      next early => exact .inr (.inr early)
      next => exact absurd active (show ¬ OzonOperationState.active .manualReview by decide)
  | _ => cases archiving

theorem apply_archived {write : OzonWrite} {now : Instant} {rows : OfferRows}
    (archived : (write.apply now rows).draft.publicationStatus = .archived) :
    rows.draft.publicationStatus = .archived ∨ write = .archiveProjection true := by
  cases write with
  | importAnswered answer =>
    cases answer with
    | ok => cases archived
    | error =>
      simp only [apply, OfferRows.importAnswered, OfferRows.callFailed, OfferRows.setStatus] at archived
      split at archived <;> cases archived
  | productProjection =>
    simp only [apply, OfferRows.persistProductProjection] at archived
    split at archived
    · cases archived
    · split at archived <;> cases archived
  | notFound =>
    simp only [apply, OfferRows.persistNotFound] at archived
    split at archived
    · cases archived
    · exact .inl archived
  | archiveProjection observed =>
    cases observed with
    | true => exact .inr rfl
    | false =>
      simp only [apply, OfferRows.persistArchiveProjection, Bool.false_eq_true, if_false] at archived
      split at archived <;> cases archived
  | operationError failure => cases failure <;> cases archived
  | finishFailed failure => cases failure <;> cases archived
  | commerceSucceeded request => cases request <;> exact .inl archived
  | markSending => exact .inl archived
  | desiredStateChanged => exact .inl archived
  | claimReconciliation => exact .inl archived
  | transientError => exact .inl archived
  | offerNotInTask => exact .inl archived
  | stockZeroed => exact .inl archived
  | claimArchive => exact .inl archived
  | commerceError => exact .inl archived
  | commerceOutcome => exact .inl archived
  | _ => cases archived

end OzonWrite

/-- An archiving that the offer admits finds no import on its way and no later archiving; no answer publishes an
offer under an active archiving, closes one whose archiving is at its end, or goes on to archive it. -/
def OzonCrew.Exclusive (c : OzonCrew) (w : OzonWorker) (input : OzonInput) : Prop :=
  match w with
  | .requestProductArchive offer _ =>
    ∀ draft ∈ c.store.draft? offer, OzonLifecycle.archivable draft →
      (∀ v ∈ c.workers, ∀ row ∈ c.store.operations, row.offer = offer → v.submits row.pk = 0) ∧
        ∀ row ∈ c.store.offerOperations offer .archive, row.createdAt ≤ input.now
  | .answered rows write _ =>
    ∀ row ∈ c.store.operations, row.pk = rows.operation.pk →
      (write.publishes → ¬ c.store.ArchiveActive row.offer) ∧ (write.leavesClosed row → row.active)
  | .archiveProducts rows _ => ∀ row ∈ c.store.operations, row.pk = rows.operation.pk → row.active
  | _ => True

instance (c : OzonCrew) (w : OzonWorker) (input : OzonInput) : Decidable (c.Exclusive w input) :=
  match w with
  | .requestProductArchive offer _ => inferInstanceAs (Decidable (∀ draft ∈ c.store.draft? offer, _ → _ ∧ _))
  | .answered _ _ _ => inferInstanceAs (Decidable (∀ row ∈ c.store.operations, _ → _ ∧ _))
  | .archiveProducts _ _ => inferInstanceAs (Decidable (∀ row ∈ c.store.operations, _ → _))
  | .requestProductImport .. | .submitProductImport .. | .importProducts .. | .reconcileProductImport ..
  | .getProductImportInfo _ | .getProductInfo _ | .submitProductArchive _ | .zeroStock .. | .readArchive _
  | .reconcileProductArchive _ | .syncOfferCommerce .. | .submitCommerce _ | .sendCommerce .. | .done _ => isTrue trivial

namespace OzonStore

structure Exclusion (s : OzonStore) : Prop where
  latest : ∀ row ∈ s.operations, row.kind = .archive → row.active →
    latest? (s.offerOperations row.offer .archive) = some row
  commerce : ∀ offer, s.Closed offer → ¬ OzonLifecycle.commerceActive s offer
  unpublished : ∀ draft ∈ s.drafts, s.ArchiveActive draft.pk → draft.publicationStatus ≠ .published
  emptying : ∀ row ∈ s.operations, row.kind = .archive → ∃ item, row.requestSummary = .stock item ∧ item.stock = 0 ∧
    ∀ draft ∈ s.drafts, draft.pk = row.offer → draft.offerId = item.offerId

def Open (s : OzonStore) (pk : Uuid) : Prop := ∃ row ∈ s.operations, row.pk = pk ∧ ¬ s.Closed row.offer

def Asks (s : OzonStore) (pk : Uuid) (item : StockRequest) : Prop :=
  ∃ row ∈ s.operations, row.pk = pk ∧ row.requestSummary = .stock item

def Emptied (s : OzonStore) (pk : Uuid) (item : StockRequest) : Prop :=
  ∃ row ∈ s.operations, row.pk = pk ∧ (row.active → s.Zeroed row item)

end OzonStore

def OzonWorker.Excluding (s : OzonStore) : OzonWorker → Prop
  | submitProductImport operation _ => s.Open operation
  | importProducts rows _ => s.Open rows.operation.pk
  | zeroStock rows item => s.Asks rows.operation.pk item
  | archiveProducts rows item => s.Emptied rows.operation.pk item
  | answered rows _ (.archiveProducts item) => s.Emptied rows.operation.pk item
  | _ => True

structure ArchiveMade (s : OzonStore) (w : OzonWorker) (next : OzonStore) (now : Instant) (draft : OzonOfferDraft) :
    Prop where
  request : ∃ key, w = .requestProductArchive draft.pk key
  offered : draft ∈ s.drafts
  inactive : ¬ s.ArchiveActive draft.pk
  settled : ¬ OzonLifecycle.commerceActive s draft.pk
  admitted : OzonLifecycle.archivable draft
  opened : ∃ key item, item.stock = 0 ∧ item.offerId = draft.offerId ∧
    next = s.opened (OzonOperation.create s.nextPk draft.pk .archive key "" (.stock item) now) draft .archivePending

namespace OzonMove
open OzonStore

variable {input : OzonInput} {c : OzonCrew}

theorem writes_archiving {w : OzonWorker} {rows : OfferRows} {write : OzonWrite}
    {next : OfferRows → OzonWorker} (sound : c.Sound) (placed : w.Placed c.store) (held : c.store.Holds rows)
    (writes : OzonWorker.Writes input c.store w rows.operation write next) (exclusive : c.Exclusive w input)
    (kind : rows.operation.kind = .archive) (active : (write.apply input.now rows).operation.active) :
    rows.operation.active := by
  rcases writes_active writes with before | ⟨_, -, -, importing, -⟩ | ⟨_, _, rfl, here⟩
  · exact before
  · cases kind.symm.trans importing
  · rcases writes_task sound.store placed held writes with rfl | task
    · obtain ⟨_, impossible, -⟩ := placed
      cases impossible
    · rw [kind] at task
      rcases OzonWrite.apply_archiving task active with before | closes
      · exact before
      · exact (exclusive _ held.operation here).2 closes

variable {w moved : OzonWorker} {offer : Uuid}

theorem archiveActive_before {next : OzonStore} (sound : c.Sound)
    (placed : w.Placed c.store) (move : OzonMove input c.store w next moved) (exclusive : c.Exclusive w input) (active : next.ArchiveActive offer) :
    c.store.ArchiveActive offer ∨ ∃ draft, draft.pk = offer ∧ ArchiveMade c.store w next input.now draft := by
  obtain ⟨row, mem, rfl, kind, active⟩ := active
  cases move with
  | reads => exact .inl ⟨row, mem, rfl, kind, active⟩
  | calls => exact .inl ⟨row, mem, rfl, kind, active⟩
  | @writes _ rows write _ held writes =>
    rcases (mem_written held).mp mem with rfl | ⟨old, -⟩
    · have same := write.apply_same input.now rows
      rw [same.kind] at kind
      have before := writes_archiving sound placed held writes exclusive kind active
      exact .inl ⟨rows.operation, held.operation, same.offer.symm, kind, before⟩
    · exact .inl ⟨row, old, rfl, kind, active⟩
  | createImport =>
    rcases List.mem_append.mp mem with old | new
    · exact .inl ⟨row, old, rfl, kind, active⟩
    · rw [List.mem_singleton.mp new] at kind
      cases kind
  | createArchive draft key _ _ _ draft_mem _ inactive settled admitted =>
    rcases List.mem_append.mp mem with old | new
    · exact .inl ⟨row, old, rfl, kind, active⟩
    · obtain rfl := List.mem_singleton.mp new
      have idle : ¬ c.store.ArchiveActive draft.pk := by
        rintro ⟨other, other_mem, same, archive, running⟩
        exact inactive other other_mem same archive running
      exact .inr ⟨draft, rfl, ⟨key, rfl⟩, draft_mem, idle, settled, admitted, key, _, rfl, rfl, rfl⟩
  | syncCommerce draft key _ _ _ priced stocked =>
    have part {kind' : OzonOperationKind} {key : String} {before after : OzonStore} {result : Option OzonOperation}
        (part : CommercePart input draft kind' key before after result) (commerce : kind' ≠ .archive)
        (mem : row ∈ after.operations) : row ∈ before.operations := by
      cases part with
      | settled => exact mem
      | found => exact mem
      | created =>
        rcases List.mem_append.mp mem with old | new
        · exact old
        · rw [List.mem_singleton.mp new] at kind
          exact absurd kind commerce
    exact .inl ⟨row, part priced nofun (part stocked nofun mem), rfl, kind, active⟩

theorem archived_before {next : OzonStore} (sound : c.Sound)
    (placed : w.Placed c.store) (move : OzonMove input c.store w next moved) (exclusive : c.Exclusive w input) (archived : next.Archived offer) : c.store.Closed offer := by
  obtain ⟨draft, mem, rfl, archived⟩ := archived
  cases move with
  | reads => exact .inr ⟨draft, mem, rfl, archived⟩
  | calls => exact .inr ⟨draft, mem, rfl, archived⟩
  | @writes _ rows write _ held writes =>
    rcases (mem_written_drafts held).mp mem with rfl | ⟨old, -⟩
    · rw [(write.apply_offer input.now rows).pk]
      rcases OzonWrite.apply_archived archived with before | rfl
      · exact .inr ⟨rows.draft, held.draft, rfl, before⟩
      · have fits := writes_task sound.store placed held writes
        cases writes with
        | refuseImport _ _ _ _ refused => rcases refused with impossible | ⟨error, impossible⟩ <;> cases impossible
        | answered _ _ _ _ here =>
          have active := (exclusive _ held.operation here).2 (.inl rfl)
          refine .inl ⟨rows.operation, held.operation, held.offer.symm, ?_, active⟩
          cases kind : rows.operation.kind <;> simp [kind, OzonWrite.task, OzonOperationKind.task] at fits ⊢
    · exact .inr ⟨draft, old, rfl, archived⟩
  | createImport =>
    rcases mem_put.mp mem with ⟨rfl, -⟩ | ⟨old, -⟩
    · cases archived
    · exact .inr ⟨draft, old, rfl, archived⟩
  | createArchive =>
    rcases mem_put.mp mem with ⟨rfl, -⟩ | ⟨old, -⟩
    · cases archived
    · exact .inr ⟨draft, old, rfl, archived⟩
  | syncCommerce _ _ _ _ _ priced stocked =>
    rw [stocked.drafts, priced.drafts] at mem
    exact .inr ⟨draft, mem, rfl, archived⟩

theorem closed_before {next : OzonStore} (sound : c.Sound)
    (placed : w.Placed c.store) (move : OzonMove input c.store w next moved) (exclusive : c.Exclusive w input) (closed : next.Closed offer) :
    c.store.Closed offer ∨ ∃ draft, draft.pk = offer ∧ ArchiveMade c.store w next input.now draft := by
  rcases closed with active | archived
  · exact (archiveActive_before sound placed move exclusive active).imp_left .inl
  · exact .inl (archived_before sound placed move exclusive archived)

theorem commerceActive_before {next : OzonStore} (sound : c.Sound)
    (placed : w.Placed c.store) (marked : w.Marked c.store) (move : OzonMove input c.store w next moved)
    (active : OzonLifecycle.commerceActive next offer) :
    OzonLifecycle.commerceActive c.store offer ∨ ∃ draft ∈ c.store.drafts, draft.pk = offer ∧
      draft.publicationStatus = .published ∧ ∃ key, w = .syncOfferCommerce offer key := by
  obtain ⟨row, mem, rfl, kind, active⟩ := active
  cases move with
  | reads => exact .inl ⟨row, mem, rfl, kind, active⟩
  | calls => exact .inl ⟨row, mem, rfl, kind, active⟩
  | @writes _ rows write _ held writes =>
    rcases (mem_written held).mp mem with rfl | ⟨old, -⟩
    · have same := write.apply_same input.now rows
      rw [same.kind] at kind
      refine .inl ⟨rows.operation, held.operation, same.offer.symm, kind, ?_⟩
      have task : rows.operation.kind.task = .commerce := by rcases kind with kind | kind <;> rw [kind] <;> rfl
      show OzonOperationState.active _
      rcases writes_commerce sound.store placed marked held writes task with queued | ⟨sending, -⟩
      · rw [queued]
        decide
      · rw [sending]
        decide
    · exact .inl ⟨row, old, rfl, kind, active⟩
  | createImport =>
    rcases List.mem_append.mp mem with old | new
    · exact .inl ⟨row, old, rfl, kind, active⟩
    · rw [List.mem_singleton.mp new] at kind
      rcases kind with impossible | impossible <;> cases impossible
  | createArchive =>
    rcases List.mem_append.mp mem with old | new
    · exact .inl ⟨row, old, rfl, kind, active⟩
    · rw [List.mem_singleton.mp new] at kind
      rcases kind with impossible | impossible <;> cases impossible
  | syncCommerce draft key _ draft_mem published priced stocked =>
    have part {kind' : OzonOperationKind} {key : String} {before after : OzonStore} {result : Option OzonOperation}
        (part : CommercePart input draft kind' key before after result) (mem : row ∈ after.operations) :
        row ∈ before.operations ∨ row.offer = draft.pk := by
      cases part with
      | settled => exact .inl mem
      | found => exact .inl mem
      | created =>
        rcases List.mem_append.mp mem with old | new
        · exact .inl old
        · rw [List.mem_singleton.mp new]
          exact .inr rfl
    have made (here : row.offer = draft.pk) : ∃ offered ∈ c.store.drafts, offered.pk = row.offer ∧
        offered.publicationStatus = .published ∧
          ∃ key', OzonWorker.syncOfferCommerce draft.pk key = .syncOfferCommerce row.offer key' :=
      ⟨draft, draft_mem, here.symm, published, key, by rw [here]⟩
    rcases part stocked mem with mem | here
    · rcases part priced mem with old | here
      · exact .inl ⟨row, old, rfl, kind, active⟩
      · exact .inr (made here)
    · exact .inr (made here)

end OzonMove

namespace OzonStore

theorem latest?_map {rows : List OzonOperation} {f : OzonOperation → OzonOperation}
    (kept : ∀ row ∈ rows, (f row).createdAt = row.createdAt) : latest? (rows.map f) = (latest? rows).map f := by
  induction rows with
  | nil => rfl
  | cons row rest ih =>
    simp only [List.map_cons, latest?, ih fun row mem => kept row (List.mem_cons_of_mem _ mem)]
    cases found : latest? rest with
    | none => rfl
    | some top =>
      have first := kept row List.mem_cons_self
      have last := kept top (List.mem_cons_of_mem _ (latest?_mem found))
      simp only [Option.map_some, first, last]
      split <;> rfl

theorem latest?_append {rows : List OzonOperation} {row : OzonOperation}
    (later : ∀ old ∈ rows, old.createdAt ≤ row.createdAt) : latest? (rows ++ [row]) = some row := by
  induction rows with
  | nil => rfl
  | cons first _ ih =>
    have earlier := later first List.mem_cons_self
    simp only [List.cons_append, latest?, ih fun old mem => later old (List.mem_cons_of_mem _ mem)]
    rw [if_neg (Int.not_lt.mpr earlier)]

theorem offerOperations_insert (s : OzonStore) (row : OzonOperation) (offer : Uuid) (kind : OzonOperationKind) :
    (s.insert row).offerOperations offer kind =
      s.offerOperations offer kind ++ if row.offer = offer ∧ row.kind = kind then [row] else [] := by
  simp [offerOperations, List.filter_append, List.filter_cons]

theorem offerOperations_written {s : OzonStore} (sound : s.Sound) {rows : OfferRows} (held : s.Holds rows)
    (write : OzonWrite) (now : Instant) (offer : Uuid) (kind : OzonOperationKind) :
    (s.written rows write now).offerOperations offer kind =
      (s.offerOperations offer kind).map fun row =>
        if row.pk = rows.operation.pk then (write.apply now rows).operation else row := by
  have same := write.apply_same now rows
  have table : (s.written rows write now).operations =
      s.operations.map fun row => if row.pk = rows.operation.pk then (write.apply now rows).operation else row := by
    simp [written, save, put, same.pk]
  rw [offerOperations, table, List.filter_map, offerOperations]
  congr 1
  apply List.filter_congr
  intro row mem
  by_cases hit : row.pk = rows.operation.pk
  · obtain rfl : row = rows.operation := row_unique sound.pks mem held.operation hit
    simp [same.offer, same.kind]
  · simp [hit]

theorem latest?_written {s : OzonStore} (sound : s.Sound) {rows : OfferRows} (held : s.Holds rows) (write : OzonWrite)
    (now : Instant) (offer : Uuid) (kind : OzonOperationKind) :
    latest? ((s.written rows write now).offerOperations offer kind) =
      (latest? (s.offerOperations offer kind)).map fun row =>
        if row.pk = rows.operation.pk then (write.apply now rows).operation else row := by
  rw [offerOperations_written sound held]
  apply latest?_map
  intro row mem
  by_cases hit : row.pk = rows.operation.pk
  · obtain rfl : row = rows.operation :=
      row_unique sound.pks (mem_offerOperations.mp mem).1 held.operation hit
    rw [if_pos rfl, (write.apply_same now rows).createdAt]
  · rw [if_neg hit]

end OzonStore

theorem CommercePart.archivings {input : OzonInput} {draft : OzonOfferDraft} {kind : OzonOperationKind} {key : String}
    {s next : OzonStore} {result : Option OzonOperation} (part : CommercePart input draft kind key s next result)
    (commerce : kind ≠ .archive) (offer : Uuid) :
    next.offerOperations offer .archive = s.offerOperations offer .archive := by
  cases part with
  | settled => rfl
  | found => rfl
  | created request =>
    have other : ¬ ((OzonOperation.create s.nextPk draft.pk kind key "" request input.now).offer = offer ∧
        (OzonOperation.create s.nextPk draft.pk kind key "" request input.now).kind = .archive) :=
      fun both => commerce both.2
    rw [OzonStore.offerOperations_insert, if_neg other, List.append_nil]

namespace OzonMove
open OzonStore

variable {input : OzonInput} {w moved : OzonWorker} {c : OzonCrew} {row : OzonOperation}

theorem latest_next {next : OzonStore} (sound : c.Sound)
    (placed : w.Placed c.store) (move : OzonMove input c.store w next moved) (exclusive : c.Exclusive w input)
    (kept : c.store.Exclusion) (mem : row ∈ next.operations) (kind : row.kind = .archive)
    (active : row.active) : latest? (next.offerOperations row.offer .archive) = some row := by
  cases move with
  | reads => exact kept.latest row mem kind active
  | calls => exact kept.latest row mem kind active
  | @writes _ rows write _ held writes =>
    rw [latest?_written sound.store held]
    rcases (mem_written held).mp mem with rfl | ⟨old, other⟩
    · have same := write.apply_same input.now rows
      rw [same.kind] at kind
      have before := writes_archiving sound placed held writes exclusive kind active
      rw [same.offer, kept.latest _ held.operation kind before, Option.map_some, if_pos rfl]
    · rw [kept.latest row old kind active, Option.map_some, if_neg other]
  | createImport draft key item =>
    rcases List.mem_append.mp mem with old | new
    · have unchanged := offerOperations_insert c.store
        (OzonOperation.create c.store.nextPk draft.pk .productImport key item .product input.now) row.offer .archive
      rw [if_neg (fun both => nomatch both.2), List.append_nil] at unchanged
      exact (congrArg latest? unchanged).trans (kept.latest row old kind active)
    · rw [List.mem_singleton.mp new] at kind
      cases kind
  | createArchive draft key productId warehouseId _ draft_mem _ inactive _ admitted =>
    have made := offerOperations_insert c.store
      (OzonOperation.create c.store.nextPk draft.pk .archive key ""
        (.stock { offerId := draft.offerId, productId, stock := 0, warehouseId }) input.now) row.offer .archive
    refine (congrArg latest? made).trans ?_
    rcases List.mem_append.mp mem with old | new
    · have elsewhere : draft.pk ≠ row.offer := fun same => inactive row old same.symm kind active
      rw [if_neg (fun both => elsewhere both.1), List.append_nil]
      exact kept.latest row old kind active
    · obtain rfl := List.mem_singleton.mp new
      rw [if_pos ⟨rfl, rfl⟩]
      exact latest?_append (exclusive draft (draft?_of_mem sound.store.offers draft_mem) admitted).2
  | syncCommerce draft key _ _ _ priced stocked =>
    have part {kind' : OzonOperationKind} {key : String} {before after : OzonStore} {result : Option OzonOperation}
        (part : CommercePart input draft kind' key before after result) (commerce : kind' ≠ .archive)
        (mem : row ∈ after.operations) : row ∈ before.operations := by
      have listed : row ∈ after.offerOperations row.offer .archive := mem_offerOperations.mpr ⟨mem, rfl, kind⟩
      rw [part.archivings commerce] at listed
      exact (mem_offerOperations.mp listed).1
    rw [stocked.archivings nofun, priced.archivings nofun]
    exact kept.latest row (part priced nofun (part stocked nofun mem)) kind active

theorem published_before {next : OzonStore}
    (move : OzonMove input c.store w next moved) (exclusive : c.Exclusive w input) {draft : OzonOfferDraft}
    (mem : draft ∈ next.drafts) (published : draft.publicationStatus = .published) :
    (∃ old ∈ c.store.drafts, old.pk = draft.pk ∧ old.publicationStatus = .published) ∨
      (¬ c.store.ArchiveActive draft.pk ∧ ∃ rows write after, w = .answered rows write after) := by
  cases move with
  | reads => exact .inl ⟨draft, mem, rfl, published⟩
  | calls => exact .inl ⟨draft, mem, rfl, published⟩
  | @writes _ rows write _ held writes =>
    rcases (mem_written_drafts held).mp mem with rfl | ⟨old, -⟩
    · rw [(write.apply_offer input.now rows).pk]
      rcases OzonWrite.apply_published published with before | ⟨_, _, rfl, approved⟩
      · exact .inl ⟨rows.draft, held.draft, rfl, before⟩
      · cases writes with
        | refuseImport _ _ _ _ refused => rcases refused with impossible | ⟨error, impossible⟩ <;> cases impossible
        | answered _ _ _ _ here =>
          rw [held.offer]
          exact .inr ⟨(exclusive _ held.operation here).1 approved, _, _, _, rfl⟩
    · exact .inl ⟨draft, old, rfl, published⟩
  | createImport =>
    rcases mem_put.mp mem with ⟨rfl, -⟩ | ⟨old, -⟩
    · cases published
    · exact .inl ⟨draft, old, rfl, published⟩
  | createArchive =>
    rcases mem_put.mp mem with ⟨rfl, -⟩ | ⟨old, -⟩
    · cases published
    · exact .inl ⟨draft, old, rfl, published⟩
  | syncCommerce _ _ _ _ _ priced stocked =>
    rw [stocked.drafts, priced.drafts] at mem
    exact .inl ⟨draft, mem, rfl, published⟩

theorem emptying_next {next : OzonStore} (sound : c.Sound)
    (move : OzonMove input c.store w next moved) (kept : c.store.Exclusion)
    (mem : row ∈ next.operations) (kind : row.kind = .archive) :
    ∃ item, row.requestSummary = .stock item ∧ item.stock = 0 ∧
      ∀ draft ∈ next.drafts, draft.pk = row.offer → draft.offerId = item.offerId := by
  have carried {old : OzonOperation} (old_mem : old ∈ c.store.operations) (same : SameOperation old row) :
      ∃ item, row.requestSummary = .stock item ∧ item.stock = 0 ∧
        ∀ draft ∈ next.drafts, draft.pk = row.offer → draft.offerId = item.offerId := by
    obtain ⟨item, request, zero, offered⟩ := kept.emptying old old_mem (same.kind ▸ kind)
    refine ⟨item, same.requestSummary.trans request, zero, fun draft draft_mem here => ?_⟩
    obtain ⟨before, before_mem, alike⟩ := move.drafts draft_mem
    rw [alike.offerId]
    exact offered before before_mem (alike.pk.symm.trans (here.trans same.offer))
  have itself {old : OzonOperation} : SameOperation old old := ⟨rfl, rfl, rfl, rfl, rfl, rfl⟩
  cases move with
  | reads => exact carried mem itself
  | calls => exact carried mem itself
  | @writes _ rows write _ held writes =>
    rcases (mem_written held).mp mem with rfl | ⟨old, -⟩
    · exact carried held.operation (write.apply_same input.now rows)
    · exact carried old itself
  | createImport =>
    rcases List.mem_append.mp mem with old | new
    · exact carried old itself
    · rw [List.mem_singleton.mp new] at kind
      cases kind
  | createArchive _ _ _ _ _ draft_mem =>
    rcases List.mem_append.mp mem with old | new
    · exact carried old itself
    · obtain rfl := List.mem_singleton.mp new
      refine ⟨_, rfl, rfl, fun other other_mem here => ?_⟩
      rcases mem_put.mp other_mem with ⟨rfl, -⟩ | ⟨old, -⟩
      · rfl
      · rw [row_unique sound.store.offers old draft_mem here]
  | syncCommerce _ _ _ _ _ priced stocked =>
    have listed : row ∈ next.offerOperations row.offer .archive := mem_offerOperations.mpr ⟨mem, rfl, kind⟩
    rw [stocked.archivings nofun, priced.archivings nofun] at listed
    exact carried (mem_offerOperations.mp listed).1 itself

theorem exclusion {next : OzonStore} (sound : c.Sound)
    (placed : w.Placed c.store) (marked : w.Marked c.store) (move : OzonMove input c.store w next moved)
    (exclusive : c.Exclusive w input) (kept : c.store.Exclusion) : next.Exclusion where
  latest row mem kind active := latest_next sound placed move exclusive kept mem kind active
  commerce offer closed active := by
    rcases commerceActive_before sound placed marked move active with before | ⟨draft, mem, rfl, published, _, rfl⟩
    · rcases closed_before sound placed move exclusive closed with shut | ⟨draft, rfl, made⟩
      · exact kept.commerce offer shut before
      · exact made.settled before
    · rcases closed_before sound placed move exclusive closed with (archiving | archived) | ⟨other, -, made⟩
      · exact kept.unpublished draft mem archiving published
      · obtain ⟨other, other_mem, same, archived⟩ := archived
        rw [row_unique sound.store.offers other_mem mem same, published] at archived
        cases archived
      · obtain ⟨_, impossible⟩ := made.request
        cases impossible
  unpublished draft mem active published := by
    rcases archiveActive_before sound placed move exclusive active with before | ⟨_, same, made⟩
    · rcases published_before move exclusive mem published with ⟨old, old_mem, same, was⟩ | ⟨free, -⟩
      · exact kept.unpublished old old_mem (same ▸ before) was
      · exact free before
    · obtain ⟨_, _, _, _, rfl⟩ := made.opened
      rcases mem_put.mp mem with ⟨rfl, -⟩ | ⟨-, other⟩
      · cases published
      · exact other same.symm
  emptying row mem kind := emptying_next sound move kept mem kind

variable {events : List OzonEvent} {event : OzonEvent}

theorem calls_or_quiet {s next : OzonStore}
    (move : OzonMove input s w next moved) (grown : next.history = s.history ++ events) (mem : event ∈ events) :
    OzonWorker.Calls input w events moved ∨ (event.opens = none ∧ event.archives = none) := by
  have quiet (same : next.history = s.history) : event ∈ [] :=
    List.append_right_eq_self.mp (grown.symm.trans same) ▸ mem
  cases move with
  | reads => exact absurd (quiet rfl) List.not_mem_nil
  | calls calls =>
    obtain rfl := List.append_cancel_left grown
    exact .inl calls
  | @writes _ rows write _ held writes =>
    obtain rfl := List.append_cancel_left grown
    cases write with
    | claimReconciliation terminalRefresh =>
      cases terminalRefresh with
      | false => cases mem
      | true =>
        obtain rfl := List.mem_singleton.mp mem
        exact .inr ⟨rfl, rfl⟩
    | productProjection =>
      simp only [OzonWrite.events] at mem
      split at mem
      · obtain rfl := List.mem_singleton.mp mem
        exact .inr ⟨rfl, rfl⟩
      · cases mem
    | _ => cases mem
  | createImport => exact absurd (quiet rfl) List.not_mem_nil
  | createArchive =>
    exact absurd (quiet rfl) List.not_mem_nil
  | syncCommerce _ _ _ _ _ priced stocked =>
    exact absurd (quiet (stocked.history.trans priced.history)) List.not_mem_nil

variable {pk : Uuid}

theorem opens_open {next : OzonStore} (sound : c.Sound)
    (placed : w.Placed c.store) (marked : w.Marked c.store) (excluding : w.Excluding c.store)
    (move : OzonMove input c.store w next moved) (kept : c.store.Exclusion)
    (grown : next.history = c.store.history ++ events) (mem : event ∈ events)
    (opens : event.opens = some pk) : c.store.Open pk := by
  rcases calls_or_quiet move grown mem with calls | ⟨quiet, -⟩
  · cases calls with
    | importProducts =>
      obtain rfl := List.mem_singleton.mp mem
      cases opens
      exact excluding
    | zeroStock =>
      obtain rfl := List.mem_singleton.mp mem
      obtain ⟨row, row_mem, same, request⟩ := excluding
      have task : row.kind.task = .archiving := Has.row sound.store row_mem (same ▸ placed)
      have kind : row.kind = .archive := archiving_kind.mp task
      obtain ⟨_, summary, zero, -⟩ := kept.emptying row row_mem kind
      rw [request] at summary
      cases summary
      simp [OzonEvent.opens, zero] at opens
    | archiveProducts =>
      obtain rfl := List.mem_singleton.mp mem
      cases opens
    | sendCommerce rows request =>
      have here : pk = rows.operation.pk := by
        cases request with
        | product => cases mem
        | price =>
          obtain rfl := List.mem_singleton.mp mem
          cases opens
        | stock =>
          obtain rfl := List.mem_singleton.mp mem
          simp only [OzonEvent.opens] at opens
          split at opens <;> cases opens
          rfl
      obtain ⟨row, row_mem, same, state⟩ := marked
      refine ⟨row, row_mem, same.trans here.symm, fun closed => kept.commerce _ closed ⟨row, row_mem, rfl, ?_, ?_⟩⟩
      · have task : row.kind.task = .commerce := Has.row sound.store row_mem (same ▸ placed.1)
        rw [commerce_kind] at task
        simpa using task
      · exact OzonOperation.active_of_state state (by decide)
  · rw [quiet] at opens
    cases opens

variable {item : StockRequest}

theorem archives_zeroed {next : OzonStore} (sound : c.Sound)
    (excluding : w.Excluding c.store) (move : OzonMove input c.store w next moved) (exclusive : c.Exclusive w input) (grown : next.history = c.store.history ++ events)
    (mem : event ∈ events) (row_mem : row ∈ c.store.operations)
    (archives : event.archives = some (row.pk, item)) : c.store.Zeroed row item := by
  rcases calls_or_quiet move grown mem with calls | ⟨-, quiet⟩
  · cases calls with
    | archiveProducts =>
      obtain rfl := List.mem_singleton.mp mem
      simp only [OzonEvent.archives, Option.some.injEq, Prod.mk.injEq] at archives
      obtain ⟨here, rfl⟩ := archives
      obtain ⟨other, other_mem, same, emptied⟩ := excluding
      obtain rfl : row = other := row_unique sound.store.pks row_mem other_mem (here.symm.trans same.symm)
      exact emptied (exclusive row row_mem here.symm)
    | sendCommerce _ request =>
      cases request with
      | product => cases mem
      | _ =>
        obtain rfl := List.mem_singleton.mp mem
        cases archives
    | _ =>
      obtain rfl := List.mem_singleton.mp mem
      cases archives
  · rw [quiet] at archives
    cases archives

theorem open_next {next : OzonStore} (sound : c.Sound)
    (placed : w.Placed c.store) (move : OzonMove input c.store w next moved) (exclusive : c.Exclusive w input)
    (free : c.store.Open pk)
    (unmade : ∀ row ∈ c.store.operations, row.pk = pk → ∀ draft, draft.pk = row.offer →
      ¬ ArchiveMade c.store w next input.now draft) : next.Open pk := by
  obtain ⟨row, mem, rfl, isOpen⟩ := free
  obtain ⟨new, new_mem, same⟩ := move.kept sound.store mem
  refine ⟨new, new_mem, same.pk, fun closed => ?_⟩
  rw [same.offer] at closed
  rcases closed_before sound placed move exclusive closed with before | ⟨draft, here, made⟩
  · exact isOpen before
  · exact unmade row mem rfl draft here made

theorem asks_next {s next : OzonStore} (sound : s.Sound)
    (move : OzonMove input s w next moved) (asks : s.Asks pk item) :
    next.Asks pk item := by
  obtain ⟨_, mem, rfl, request⟩ := asks
  obtain ⟨new, new_mem, same⟩ := move.kept sound mem
  exact ⟨new, new_mem, same.pk, same.requestSummary.trans request⟩

theorem emptied_next {next : OzonStore} (sound : c.Sound)
    (placed : w.Placed c.store) (marked : w.Marked c.store) (excluding : w.Excluding c.store)
    (move : OzonMove input c.store w next moved) (exclusive : c.Exclusive w input) (kept : c.store.Exclusion) (archiving : c.store.Has .archiving pk) (emptied : c.store.Emptied pk item) :
    next.Emptied pk item := by
  obtain ⟨row, mem, rfl, emptied⟩ := emptied
  obtain ⟨new, new_mem, same⟩ := move.kept sound.store mem
  have task := Has.row sound.store mem archiving
  have kind : row.kind = .archive := archiving_kind.mp task
  refine ⟨new, new_mem, same.pk, fun active => ?_⟩
  have before : row.active := by
    rcases move.row sound.store mem new_mem same.pk with rfl | ⟨_, _, _, held, rfl, writes, rfl, -⟩
    · exact active
    · exact writes_archiving sound placed held writes exclusive kind active
  obtain ⟨request, offer, zero, earlier, later, results, history, confirmed, elsewhere⟩ := emptied before
  obtain ⟨events, grown⟩ := move.history
  have closed : c.store.Closed row.offer := .inl ⟨row, mem, rfl, kind, before⟩
  -- a stock or an import that went out since then was of another offer
  have others {sent : Uuid} (other : ∃ old ∈ c.store.operations, old.pk = sent ∧ old.offer ≠ row.offer) :
      ∃ old ∈ next.operations, old.pk = sent ∧ old.offer ≠ new.offer := by
    obtain ⟨old, old_mem, here, apart⟩ := other
    obtain ⟨left, left_mem, alike⟩ := move.kept sound.store old_mem
    exact ⟨left, left_mem, alike.pk.trans here, by rw [alike.offer, same.offer]; exact apart⟩
  refine ⟨same.requestSummary.trans request, ?_, zero, earlier, later ++ events, results, ?_, confirmed, ?_⟩
  · intro draft draft_mem here
    obtain ⟨old, old_mem, alike⟩ := move.drafts draft_mem
    rw [alike.offerId]
    exact offer old old_mem (alike.pk.symm.trans (here.trans same.offer))
  · rw [grown, history, same.pk, List.append_assoc, List.cons_append]
  · intro event event_mem sent opens
    rcases List.mem_append.mp event_mem with old | new_event
    · exact others (elsewhere event old sent opens)
    · obtain ⟨other, other_mem, here, isOpen⟩ :=
        opens_open sound placed marked excluding move kept grown new_event opens
      exact others ⟨other, other_mem, here, fun at_row => isOpen (at_row ▸ closed)⟩

theorem stockAnswered_emptied {s : OzonStore} (sound : s.Sound) (kept : s.Exclusion) {rows : OfferRows}
    {answer : Except OzonAPIError (List UpdateResult)} (archiving : s.Has .archiving rows.operation.pk)
    (asks : s.Asks rows.operation.pk item) :
    (OzonLifecycle.stockAnswered rows item answer).Excluding
      (s.record [.stocksUpdated rows.operation.pk item answer]) := by
  obtain ⟨row, mem, here, request⟩ := asks
  have task : row.kind.task = .archiving := Has.row sound mem (here ▸ archiving)
  have kind : row.kind = .archive := archiving_kind.mp task
  obtain ⟨_, summary, zero, offered⟩ := kept.emptying row mem kind
  rw [request] at summary
  cases summary
  rcases stockAnswered_cases rows item answer with ⟨_, answered, -⟩ | ⟨results, ok, confirmed, answered⟩
  · rw [answered]
    trivial
  · rw [answered]
    cases ok
    refine ⟨row, mem, here, fun _ => ⟨request, offered, zero, s.history, [], results, ?_, confirmed, fun _ later => ?_⟩⟩
    · rw [here]
      rfl
    · exact absurd later List.not_mem_nil

theorem not_archiveMade {v w : OzonWorker} {next : OzonStore} (sound : c.Sound)
    (exclusive : c.Exclusive w input) (waiting : v ∈ c.workers) (mem : row ∈ c.store.operations)
    (submits : v.submits row.pk = 1) {draft : OzonOfferDraft} (here : draft.pk = row.offer) :
    ¬ ArchiveMade c.store w next input.now draft := by
  intro made
  obtain ⟨_, rfl⟩ := made.request
  have offered := draft?_of_mem sound.store.offers made.offered
  have free := (exclusive draft offered made.admitted).1 v waiting row mem here.symm
  omega

theorem excluding_own {next : OzonStore} (sound : c.Sound)
    (placed : w.Placed c.store) (marked : w.Marked c.store) (excluding : w.Excluding c.store)
    (move : OzonMove input c.store w next moved) (exclusive : c.Exclusive w input) (kept : c.store.Exclusion) :
    moved.Excluding next := by
  have whole := move
  have stays {pk : Uuid} {item : StockRequest} (has : c.store.Has .archiving pk) (emptied : c.store.Emptied pk item) :
      next.Emptied pk item := emptied_next sound placed marked excluding whole exclusive kept has emptied
  cases move with
  | reads reads =>
    cases reads with
    | importInfo rows =>
      rcases importInfoRead_cases rows input with ⟨write, read, -⟩ | read
      · rw [read]
        trivial
      · rw [read]
        trivial
    | archive rows =>
      obtain ⟨write, read, -⟩ := archiveRead_cases rows input.productInfo
      rw [read]
      trivial
    | _ => trivial
  | calls calls =>
    cases calls with
    | zeroStock => exact stockAnswered_emptied sound.store kept placed excluding
    | archiveProducts rows =>
      rcases archiveAnswered_cases rows input.archiveProducts with ⟨write, answered, -⟩ | ⟨write, answered, -⟩
      · rw [answered]
        trivial
      · rw [answered]
        trivial
    | _ => trivial
  | @writes _ rows write _ held writes =>
    have same := write.apply_same input.now rows
    cases writes with
    | sendImport =>
      refine open_next sound placed whole exclusive excluding fun row mem here draft at_row made => ?_
      obtain ⟨_, impossible⟩ := made.request
      cases impossible
    | sendArchive _ _ _ summary => exact asks_next sound.store whole ⟨_, held.operation, rfl, summary⟩
    | claimImport =>
      dsimp only
      split <;> trivial
    | answered _ _ after _ here =>
      obtain ⟨task, _, has, later⟩ := placed
      cases after with
      | archiveProducts item =>
        obtain rfl : task = .archiving := later
        show Emptied _ (write.apply input.now rows).operation.pk item
        rw [same.pk, here]
        exact stays has excluding
      | _ => trivial
    | _ => trivial
  | createImport _ _ _ _ mem _ open_ =>
    refine ⟨_, List.mem_append_right _ (List.mem_singleton_self _), rfl, fun closed => ?_⟩
    rcases closed_before sound placed whole exclusive closed with (archiving | archived) | ⟨other, -, made⟩
    · obtain ⟨row, row_mem, here, kind, active⟩ := archiving
      have found := kept.latest row row_mem kind active
      rw [here] at found
      exact open_.2 ⟨row, found, active⟩
    · obtain ⟨other, other_mem, here, archived⟩ := archived
      rw [row_unique sound.store.offers other_mem mem here] at archived
      exact open_.1 archived
    · obtain ⟨_, impossible⟩ := made.request
      cases impossible
  | createArchive => trivial
  | syncCommerce => trivial

theorem excluding_others {v w moved : OzonWorker} {next : OzonStore} (sound : c.Sound)
    (placed : w.Placed c.store) (marked : w.Marked c.store) (excluding : w.Excluding c.store)
    (move : OzonMove input c.store w next moved) (exclusive : c.Exclusive w input) (kept : c.store.Exclusion)
    (waiting : v ∈ c.workers) (relies : v.Excluding c.store) : v.Excluding next := by
  have has := sound.workers v waiting
  cases v with
  | submitProductImport =>
    exact open_next sound placed move exclusive relies fun row mem here draft at_row =>
      not_archiveMade sound exclusive waiting mem (if_pos here.symm) at_row
  | importProducts =>
    exact open_next sound placed move exclusive relies fun row mem here draft at_row =>
      not_archiveMade sound exclusive waiting mem (if_pos here.symm) at_row
  | zeroStock => exact asks_next sound.store move relies
  | archiveProducts => exact emptied_next sound placed marked excluding move exclusive kept has relies
  | answered _ _ after =>
    cases after with
    | archiveProducts =>
      obtain ⟨task, _, of_task, later⟩ := has
      obtain rfl : task = .archiving := later
      exact emptied_next sound placed marked excluding move exclusive kept of_task relies
    | _ => trivial
  | _ => trivial

end OzonMove

namespace OzonCrew
open OzonStore

structure Archiving (c : OzonCrew) : Prop where
  sound : c.Sound
  sender : c.OneSender
  kept : c.Keeps OzonStore.Exclusion fun s w => w.Excluding s

theorem Archiving.idle {s : OzonStore} (fresh : s.Fresh) : Archiving s.idle where
  sound := .idle fresh
  sender := .idle
  kept := by
    have nobody {row : OzonOperation} (mem : row ∈ s.operations) : False :=
      absurd (fresh.operations ▸ mem : row ∈ []) List.not_mem_nil
    refine ⟨⟨fun row mem => (nobody mem).elim, ?_, ?_, fun row mem => (nobody mem).elim⟩,
      fun _ mem => absurd mem List.not_mem_nil⟩
    · rintro offer - ⟨row, mem, -⟩
      exact nobody mem
    · rintro draft - ⟨row, mem, -⟩
      exact (nobody mem).elim

theorem Archiving.next {c : OzonCrew} (archiving : c.Archiving) {a : OzonAction} (allowed : Allowed Exclusive c a) :
    (c.next a).Archiving := by
  refine ⟨archiving.sound.next a, archiving.sender.next archiving.sound a, ?_⟩
  apply next_keeps archiving.sound archiving.kept a
  · intro request
    cases request <;> trivial
  · rintro k input w _ _ rfl found move
    have mem := List.mem_of_getElem? found
    have placed := archiving.sound.workers w mem
    have marked := archiving.sender.kept.workers w mem
    have excluding := archiving.kept.workers w mem
    have exclusive : c.Exclusive w input := allowed w found
    refine ⟨move.exclusion archiving.sound placed marked exclusive archiving.kept.store,
      move.excluding_own archiving.sound placed marked excluding exclusive archiving.kept.store, ?_⟩
    intro j v _ waiting relies
    exact move.excluding_others archiving.sound placed marked excluding exclusive archiving.kept.store
      (List.mem_of_getElem? waiting) relies

theorem Archiving.excludes {c : OzonCrew} (archiving : c.Archiving) {a : OzonAction} (allowed : Allowed Exclusive c a) :
    c.Excludes a := by
  intro events grown event mem row row_mem
  have quiet (same : (c.next a).store.history = c.store.history) : event ∈ [] :=
    List.append_right_eq_self.mp (grown.symm.trans same) ▸ mem
  cases a with
  | call => exact absurd (quiet rfl) List.not_mem_nil
  | crash => exact absurd (quiet rfl) List.not_mem_nil
  | move k input =>
    cases found : c.workers[k]? with
    | none =>
      have unmoved : c.next (.move k input) = c := by simp [OzonCrew.next, Crew.step, OzonAction.crewAction, found]
      exact absurd (quiet (by rw [unmoved])) List.not_mem_nil
    | some w =>
      obtain ⟨_, move⟩ := next_move archiving.sound found
      have worker := List.mem_of_getElem? found
      have placed := archiving.sound.workers w worker
      have marked := archiving.sender.kept.workers w worker
      have excluding := archiving.kept.workers w worker
      have exclusive : c.Exclusive w input := allowed w found
      refine ⟨fun opens => ?_, fun item archives => ?_⟩
      · obtain ⟨other, other_mem, same, isOpen⟩ :=
          move.opens_open archiving.sound placed marked excluding archiving.kept.store grown mem opens
        rwa [row_unique archiving.sound.store.pks other_mem row_mem same] at isOpen
      · exact move.archives_zeroed archiving.sound excluding exclusive grown mem row_mem archives

/-- In every guarded run an archiving excludes the imports and the stocks of its offer, from its creation to its
end and while the offer is archived, and it archives only what has no stock. -/
theorem archiving_excludes {s : OzonStore} (fresh : s.Fresh) {actions : List OzonAction}
    (allowed : Meets OzonCrew.next (Allowed Exclusive) s.idle actions) {a : OzonAction}
    (last : Allowed Exclusive (run OzonCrew.next s.idle actions) a) :
    Excludes (run OzonCrew.next s.idle actions) a := by
  have step : ∀ (c : OzonCrew) (a : OzonAction), c.Archiving → Allowed Exclusive c a → (c.next a).Archiving :=
    fun _ _ archiving allowed => archiving.next allowed
  exact (run_invariant OzonCrew.next step (Archiving.idle fresh) allowed).excludes last

end OzonCrew

def zeroedOffer : List OzonAction :=
  attestedImport ++
    [.call (.requestProductArchive 7 "archive"), .move 2 (.silent 8), .move 2 (.silent 9),
      .move 2 { OzonInput.silent 10 with updateResults := .ok [⟨"offer", some 42, true, []⟩] }, .move 2 (.silent 11)]

theorem zeroed_offer_excludes :
    OzonCrew.Excludes (run OzonCrew.next (OzonStore.offering [7]).idle zeroedOffer)
      (.move 2 { OzonInput.silent 12 with archiveProducts := .ok true }) := by
  have fresh : (OzonStore.offering [7]).Fresh := by decide
  have allowed : Meets OzonCrew.next (OzonCrew.Allowed OzonCrew.Exclusive) (OzonStore.offering [7]).idle zeroedOffer := by
    decide +kernel
  have last : OzonCrew.Allowed OzonCrew.Exclusive (run OzonCrew.next (OzonStore.offering [7]).idle zeroedOffer)
      (.move 2 { OzonInput.silent 12 with archiveProducts := .ok true }) := by decide +kernel
  exact OzonCrew.archiving_excludes fresh allowed last

/-- An import is on its way when a check publishes its offer, and the offer is archived before the call. -/
def overtakenArchive : List OzonAction :=
  [.call (.requestProductImport 7 "first"), .move 0 (.silent 1), .move 0 (.silent 2),
    .call (.reconcileProductImport 7 false), .move 1 (.silent 3),
    .move 1 { OzonInput.silent 4 with productInfo := .ok (some (.moderated "approved")) }, .move 1 (.silent 5),
    .call (.requestProductArchive 7 "archive"), .move 2 (.silent 6)]

/-- A refresh of the finished import publishes an offer again while it is archived, and its stock is sent. -/
def republishedArchive : List OzonAction :=
  attestedImport ++
    [.call (.requestProductArchive 7 "archive"), .move 2 (.silent 8), .move 2 (.silent 9),
      .call (.reconcileProductImport 7 true), .move 3 (.silent 10),
      .move 3 { OzonInput.silent 11 with productInfo := .ok (some (.moderated "approved")) }, .move 3 (.silent 12),
      .call (.syncOfferCommerce 7 "sync"), .move 4 (.silent 13), .move 4 (.silent 14), .move 4 (.silent 15),
      .move 4 (.silent 16), .move 4 (.silent 17)]

/-- An import goes out under an active archiving, and so does a stock of five. -/
theorem late_calls_reach_closed_offer :
    (OzonStore.offering [7]).Fresh ∧
      ¬ OzonCrew.Excludes (run OzonCrew.next (OzonStore.offering [7]).idle overtakenArchive) (.move 0 (.silent 7)) ∧
      ¬ OzonCrew.Excludes (run OzonCrew.next (OzonStore.offering [7]).idle republishedArchive) (.move 4 (.silent 18)) := by
  refine ⟨by decide, fun excludes => ?_, fun excludes => ?_⟩
  · obtain ⟨row, mem, pk, closed⟩ :
        ∃ row ∈ (run OzonCrew.next (OzonStore.offering [7]).idle overtakenArchive).store.operations, row.pk = 1 ∧
          (run OzonCrew.next (OzonStore.offering [7]).idle overtakenArchive).store.Closed row.offer := by
      decide +kernel
    have sent := excludes [.importPosted 1 "card" (.error .lost)] rfl _ List.mem_cons_self row mem
    exact sent.1 (by rw [pk]; rfl) closed
  · obtain ⟨row, mem, pk, closed⟩ :
        ∃ row ∈ (run OzonCrew.next (OzonStore.offering [7]).idle republishedArchive).store.operations, row.pk = 4 ∧
          (run OzonCrew.next (OzonStore.offering [7]).idle republishedArchive).store.Closed row.offer := by
      decide +kernel
    have sent := excludes [.stocksUpdated 4 ⟨"offer", 77, 5, 42⟩ (.error .lost)] rfl _ List.mem_cons_self row mem
    exact sent.1 (by rw [pk]; rfl) closed

end MapBackend.Marketplaces
