import MapBackend.Marketplaces.OzonInvariants

/-!
The outcome of an import or an archiving and who may change it.
-/

namespace MapBackend.Marketplaces
open MapBackend.Library

def OfferRows.outcome (rows : OfferRows) : OzonOperationState × List OzonErrorEntry × PublicationStatus :=
  (rows.operation.state, rows.operation.errors, rows.draft.publicationStatus)

def OzonOperation.lasting (row : OzonOperation) : Prop := row.kind.task ≠ .commerce

instance (row : OzonOperation) : Decidable row.lasting := inferInstanceAs (Decidable (_ ≠ _))

def OzonOperation.Timed (row : OzonOperation) : Prop := row.completedAt.isSome = true ↔ ¬ row.active

instance (row : OzonOperation) : Decidable row.Timed := inferInstanceAs (Decidable (_ ↔ _))

def OzonWrite.delays : OzonWrite → Prop
  | transientError _ | offerNotInTask => True
  | _ => False

instance (write : OzonWrite) : Decidable write.delays := by
  cases write <;> unfold OzonWrite.delays <;> infer_instance

namespace OzonOperationState

theorem not_active_succeeded : ¬ active .succeeded := by decide

theorem not_active_failed : ¬ active .failed := by decide

theorem not_active_manualReview : ¬ active .manualReview := by decide

theorem not_active_failure (failure : OzonFailure) : ¬ failure.state.active := by
  cases failure <;> decide

end OzonOperationState

namespace OfferRows
open OzonOperationState

theorem timed_of_finished {row : OzonOperation} (finished : ¬ row.active) (set : row.completedAt.isSome = true) :
    row.Timed := ⟨fun _ => finished, fun _ => set⟩

theorem timed_of_active {old new : OzonOperation} (timed : old.Timed) (before : old.active) (after : new.active)
    (kept : new.completedAt = old.completedAt) : new.Timed := by
  have unset : ¬ old.completedAt.isSome = true := fun set => timed.mp set before
  exact ⟨fun set => absurd (kept ▸ set) unset, fun finished => absurd after finished⟩

theorem callFailed_timed (rows : OfferRows) (error : OzonAPIError) (now : Instant) :
    (rows.callFailed error now).operation.Timed := by
  by_cases lost : error.unknown
  · simp [callFailed, lost, OzonOperation.Timed, OzonOperation.active, active, activeStates]
  · simp [callFailed, lost, OzonOperation.Timed, OzonOperation.active, active, activeStates]

theorem operationError_timed (rows : OfferRows) (state : OzonOperationState) (error : OzonErrorEntry)
    (now : Instant) : (rows.operationError state error now).operation.Timed := by
  by_cases still : state.active
  · simp [operationError, setStatus, OzonOperation.Timed, OzonOperation.active, still]
  · simp [operationError, setStatus, OzonOperation.Timed, OzonOperation.active, still]

end OfferRows

namespace OzonWrite
open OzonOperationState

theorem apply_timed {write : OzonWrite} {now : Instant} {rows : OfferRows} (timed : rows.operation.Timed)
    (found : rows.operation.active) : (write.apply now rows).operation.Timed := by
  cases write with
  | markSending => exact OfferRows.timed_of_active timed found (show active .sending by decide) rfl
  | importAnswered answer =>
    cases answer with
    | error error => exact rows.callFailed_timed error now
    | ok => exact OfferRows.timed_of_active timed found (show active .reconciling by decide) rfl
  | claimReconciliation terminalRefresh =>
    cases terminalRefresh with
    | false => exact timed
    | true =>
      exact ⟨fun set => absurd set (by simp [apply, OfferRows.claimReconciliation]),
        fun finished => absurd (show active .reconciling by decide) finished⟩
  | productProjection =>
    simp only [apply, OfferRows.persistProductProjection]
    split
    · exact OfferRows.timed_of_finished not_active_succeeded rfl
    · split
      · exact OfferRows.timed_of_active timed found (show active .reconciling by decide) rfl
      · exact OfferRows.timed_of_finished not_active_manualReview rfl
  | notFound =>
    simp only [apply, OfferRows.persistNotFound]
    split
    · exact OfferRows.timed_of_finished not_active_failed rfl
    · exact timed
  | archiveProjection =>
    simp only [apply, OfferRows.persistArchiveProjection]
    split
    · exact OfferRows.timed_of_finished not_active_succeeded rfl
    · split
      · exact OfferRows.timed_of_active timed found (show active .reconciling by decide) rfl
      · exact OfferRows.timed_of_finished not_active_manualReview rfl
  | commerceSucceeded request => cases request <;> exact OfferRows.timed_of_finished not_active_succeeded rfl
  | operationError _ error => exact rows.operationError_timed _ error now
  | archiveUnread error => exact rows.operationError_timed _ error now
  | archiveOutcomeUnknown => exact OfferRows.timed_of_active timed found (show active .outcomeUnknown by decide) rfl
  | archiveAccepted => exact OfferRows.timed_of_active timed found (show active .reconciling by decide) rfl
  | commerceError error => exact rows.callFailed_timed error now
  | commerceOutcome failure => exact OfferRows.timed_of_finished (not_active_failure failure) rfl
  | finishFailed failure => exact OfferRows.timed_of_finished (not_active_failure failure.state) rfl
  | desiredStateChanged => exact OfferRows.timed_of_finished not_active_manualReview rfl
  | importCredentials => exact OfferRows.timed_of_finished not_active_failed rfl
  | reconcileLimit => exact OfferRows.timed_of_finished not_active_manualReview rfl
  | transientError => exact timed
  | offerNotInTask => exact timed
  | importPending => exact timed
  | stockZeroed => exact timed
  | claimArchive => exact timed

theorem apply_delays {write : OzonWrite} (delays : write.delays) (now : Instant) (rows : OfferRows) :
    (write.apply now rows).outcome = rows.outcome ∧
      (write.apply now rows).operation.completedAt = rows.operation.completedAt := by
  cases write with
  | transientError => exact ⟨rfl, rfl⟩
  | offerNotInTask => exact ⟨rfl, rfl⟩
  | _ => cases delays

theorem claim_active (now : Instant) (rows : OfferRows) :
    ((claimReconciliation (decide ¬ rows.operation.active)).apply now rows).operation.active := by
  by_cases before : rows.operation.active
  · rw [decide_eq_false (not_not.mpr before)]
    exact before
  · rw [decide_eq_true before]
    exact (show active .reconciling by decide)

theorem refresh_timed (now : Instant) (rows : OfferRows) :
    ((claimReconciliation true).apply now rows).operation.Timed :=
  ⟨fun set => absurd set (by simp [apply, OfferRows.claimReconciliation]),
    fun finished => absurd (show active .reconciling by decide) finished⟩

end OzonWrite

def OzonCrew.Undisturbed (c : OzonCrew) (w : OzonWorker) (_ : OzonInput) : Prop :=
  match w with
  | .answered rows write _ =>
    write.task = some .commerce ∨ write.delays ∨
      ∀ row ∈ c.store.operations, row.pk = rows.operation.pk →
        ∀ draft ∈ c.store.drafts, draft.pk = row.offer → (OfferRows.mk row draft).outcome = rows.outcome
  | _ => True

instance (c : OzonCrew) (w : OzonWorker) (input : OzonInput) : Decidable (c.Undisturbed w input) :=
  match w with
  | .answered _ _ _ => inferInstanceAs (Decidable (_ ∨ _ ∨ ∀ row ∈ c.store.operations, _ → _))
  | .requestProductImport .. | .submitProductImport .. | .importProducts .. | .reconcileProductImport ..
  | .getProductImportInfo _ | .getProductInfo _ | .requestProductArchive .. | .submitProductArchive _
  | .zeroStock .. | .archiveProducts .. | .readArchive _ | .reconcileProductArchive _ | .syncOfferCommerce ..
  | .submitCommerce _ | .sendCommerce .. | .done _ => isTrue trivial

def OzonWrite.goesOn : OzonWrite → Prop
  | stockZeroed _ | archiveOutcomeUnknown | archiveAccepted => True
  | _ => False

theorem OzonWrite.goesOn_active {write : OzonWrite} (goes : write.goesOn) {now : Instant} {rows : OfferRows}
    (found : rows.operation.active) : (write.apply now rows).operation.active := by
  cases write with
  | stockZeroed => exact found
  | archiveOutcomeUnknown => exact (show OzonOperationState.active .outcomeUnknown by decide)
  | archiveAccepted => exact (show OzonOperationState.active .reconciling by decide)
  | _ => cases goes

def OzonWorker.Awaits : OzonWorker → Prop
  | importProducts rows _ | getProductImportInfo rows | getProductInfo rows | zeroStock rows _
  | archiveProducts rows _ | readArchive rows => rows.operation.active
  | answered rows write after =>
    write.task = some .commerce ∨ (rows.operation.active ∧ (after = .finish ∨ write.goesOn))
  | _ => True

namespace OzonMove
open OzonStore OzonOperationState

variable {input : OzonInput}

theorem reads_awaits {s : OzonStore} {w next : OzonWorker}
    (reads : OzonWorker.Reads input s w next) (awaits : w.Awaits) : next.Awaits := by
  cases reads with
  | importInfo rows =>
    rcases importInfoRead_cases rows input with ⟨write, read, -⟩ | read
    · rw [read]
      exact .inr ⟨awaits, .inl rfl⟩
    · rw [read]
      exact awaits
  | productInfo => exact .inr ⟨awaits, .inl rfl⟩
  | archive rows =>
    obtain ⟨write, read, -⟩ := archiveRead_cases rows input.productInfo
    rw [read]
    exact .inr ⟨awaits, .inl rfl⟩
  | skipCommerce => trivial
  | ended => trivial

theorem calls_awaits {w next : OzonWorker} {events : List OzonEvent}
    (calls : OzonWorker.Calls input w events next) (awaits : w.Awaits) : next.Awaits := by
  cases calls with
  | importProducts => exact .inr ⟨awaits, .inl rfl⟩
  | zeroStock rows item =>
    rcases stockAnswered_cases rows item input.updateResults with ⟨write, answered, -⟩ | ⟨_, -, -, answered⟩
    · rw [answered]
      exact .inr ⟨awaits, .inl rfl⟩
    · rw [answered]
      exact .inr ⟨awaits, .inr trivial⟩
  | archiveProducts rows =>
    rcases archiveAnswered_cases rows input.archiveProducts with ⟨write, answered, -⟩ | ⟨write, answered, rfl | rfl⟩
    · rw [answered]
      exact .inr ⟨awaits, .inl rfl⟩
    · rw [answered]
      exact .inr ⟨awaits, .inr trivial⟩
    · rw [answered]
      exact .inr ⟨awaits, .inr trivial⟩
  | sendCommerce => exact .inl (updateWrite_task _ _)

theorem writes_found {c : OzonCrew} {w : OzonWorker} {rows : OfferRows} {write : OzonWrite}
    {next : OfferRows → OzonWorker} (sound : c.store.Sound) (placed : w.Placed c.store) (awaits : w.Awaits)
    (held : c.store.Holds rows) (writes : OzonWorker.Writes input c.store w rows.operation write next)
    (undisturbed : c.Undisturbed w input) (lasting : rows.operation.lasting) :
    rows.operation.active ∨
      (∃ offer, w = .reconcileProductImport offer true ∧
        (write = .claimReconciliation true ∨ write = .reconcileLimit)) ∨ write.delays := by
  rcases writes_active writes with found | ⟨offer, refreshes, -, -, again⟩ | ⟨left, _, rfl, here⟩
  · exact .inl found
  · exact .inr (.inl ⟨offer, refreshes, again⟩)
  · obtain ⟨task, known, has, -⟩ := placed
    have kind : rows.operation.kind.task = task := Has.row sound held.operation (here ▸ has)
    rcases undisturbed with commerce | delays | same
    · exact absurd (kind.trans (Option.some.inj (known.symm.trans commerce))) lasting
    · exact .inr (.inr delays)
    · rcases awaits with commerce | ⟨before, -⟩
      · exact absurd (kind.trans (Option.some.inj (known.symm.trans commerce))) lasting
      · have outcome := same rows.operation held.operation here rows.draft held.draft held.offer
        have state : rows.operation.state = left.operation.state := congrArg Prod.fst outcome
        exact .inl (OzonOperation.active_of_state state before)

theorem awaits {c : OzonCrew} {w moved : OzonWorker} {next : OzonStore} (sound : c.store.Sound)
    (placed : w.Placed c.store) (awaits : w.Awaits) (move : OzonMove input c.store w next moved)
    (undisturbed : c.Undisturbed w input) : moved.Awaits := by
  cases move with
  | reads reads => exact reads_awaits reads awaits
  | calls calls => exact calls_awaits calls awaits
  | @writes _ rows write _ held writes =>
    have found := writes_found sound placed awaits held writes undisturbed
    cases writes with
    | sendImport => exact (show active .sending by decide)
    | refuseImport => trivial
    | claimImport =>
      dsimp only
      split <;> exact OzonWrite.claim_active input.now rows
    | limitImport => trivial
    | sendArchive => exact (show active .sending by decide)
    | refuseArchive => trivial
    | claimArchive _ _ _ before => exact before
    | limitArchive => trivial
    | sendCommerce => trivial
    | refuseCommerce => trivial
    | answered _ _ after _ here =>
      obtain ⟨task, known, has, later⟩ := placed
      have kind : rows.operation.kind.task = task := Has.row sound held.operation (here ▸ has)
      -- only an archiving goes on to wait
      have archiving (goes : task = .archiving) (more : after ≠ .finish) :
          (write.apply input.now rows).operation.active := by
        rcases awaits with commerce | ⟨before, rfl | goesOn⟩
        · rw [known, goes] at commerce
          cases commerce
        · exact absurd rfl more
        · rcases found (show _ ≠ _ by rw [kind, goes]; decide) with found | ⟨_, impossible, -⟩ | delays
          · exact OzonWrite.goesOn_active goesOn found
          · cases impossible
          · cases write <;> cases goesOn <;> cases delays
      cases after with
      | finish => trivial
      | archiveProducts => exact archiving later nofun
      | readArchive => exact archiving later nofun
      | submitCommerce => trivial
  | createImport => trivial
  | createArchive => trivial
  | syncCommerce => trivial

end OzonMove

namespace OzonStore

/-- The time of completion of every import and archiving tells whether it is finished. -/
def Completed (s : OzonStore) : Prop := ∀ row ∈ s.operations, row.lasting → row.Timed

instance (s : OzonStore) : Decidable s.Completed := inferInstanceAs (Decidable (∀ row ∈ s.operations, _))

theorem Completed.insert {s : OzonStore} (completed : s.Completed) {row : OzonOperation} (timed : row.Timed) :
    (s.insert row).Completed := by
  intro old mem lasting
  rcases List.mem_append.mp mem with mem | last
  · exact completed old mem lasting
  · exact List.mem_singleton.mp last ▸ timed

end OzonStore

namespace OzonMove
open OzonStore OzonOperationState

theorem create_timed (pk offer : Uuid) (kind : OzonOperationKind) (key sha : String) (request : OzonRequest)
    (now : Instant) : (OzonOperation.create pk offer kind key sha request now).Timed :=
  ⟨nofun, fun finished => absurd (show active .queued by decide) finished⟩

theorem part_completed {input : OzonInput} {draft : OzonOfferDraft} {kind : OzonOperationKind} {key : String}
    {s next : OzonStore} {result : Option OzonOperation} (part : CommercePart input draft kind key s next result)
    (completed : s.Completed) : next.Completed := by
  cases part with
  | settled => exact completed
  | found => exact completed
  | created => exact completed.insert (create_timed _ _ _ _ _ _ _)

theorem completed {input : OzonInput} {c : OzonCrew} {w moved : OzonWorker} {next : OzonStore} (sound : c.store.Sound)
    (placed : w.Placed c.store) (awaits : w.Awaits) (move : OzonMove input c.store w next moved)
    (undisturbed : c.Undisturbed w input) (completed : c.store.Completed) : next.Completed := by
  cases move with
  | reads => exact completed
  | calls => exact completed
  | @writes _ rows write _ held writes =>
    intro row mem lasting
    rcases (mem_written held).mp mem with rfl | ⟨old, -⟩
    · have before : rows.operation.lasting := by
        unfold OzonOperation.lasting at lasting ⊢
        rwa [(write.apply_same input.now rows).kind] at lasting
      have timed := completed _ held.operation before
      rcases writes_found sound placed awaits held writes undisturbed before with found | ⟨_, -, rfl | rfl⟩ | delays
      · exact OzonWrite.apply_timed timed found
      · exact OzonWrite.refresh_timed input.now rows
      · exact OfferRows.timed_of_finished not_active_manualReview rfl
      · obtain ⟨outcome, kept⟩ := OzonWrite.apply_delays delays input.now rows
        have state : (write.apply input.now rows).operation.state = rows.operation.state := congrArg Prod.fst outcome
        unfold OzonOperation.Timed OzonOperation.active at timed ⊢
        rw [kept, state]
        exact timed
    · exact completed row old lasting
  | createImport =>
    exact completed.insert (create_timed _ _ _ _ _ _ _)
  | createArchive =>
    exact completed.insert (create_timed _ _ _ _ _ _ _)
  | syncCommerce _ _ _ _ _ priced stocked =>
    exact part_completed stocked (part_completed priced completed)

end OzonMove

namespace OzonCrew
open OzonStore

def Absorbs (c : OzonCrew) (a : OzonAction) : Prop :=
  ∀ row ∈ c.store.operations, ∀ new ∈ (c.next a).store.operations, row.lasting → new.pk = row.pk → ¬ row.active →
    new.active → ∃ k input offer, a = .move k input ∧ c.workers[k]? = some (.reconcileProductImport offer true)

/-- An answer leaves what was decided about an import or an archiving since its worker went to wait. -/
def KeepsDecided (c : OzonCrew) (a : OzonAction) : Prop :=
  ∀ k input rows write after, a = .move k input → c.workers[k]? = some (.answered rows write after) →
    ∀ found left, c.store.Holds found → (c.next a).store.Holds left → found.operation.pk = rows.operation.pk →
      left.operation.pk = found.operation.pk → found.operation.lasting → found.outcome ≠ rows.outcome →
      left.outcome = found.outcome

structure Settled (c : OzonCrew) : Prop where
  sound : c.Sound
  kept : c.Keeps OzonStore.Completed fun _ w => w.Awaits

theorem Settled.idle {s : OzonStore} (fresh : s.Fresh) : Settled s.idle where
  sound := .idle fresh
  kept := by
    refine ⟨fun row mem => ?_, fun _ mem => absurd mem List.not_mem_nil⟩
    exact absurd (fresh.operations ▸ mem : row ∈ []) List.not_mem_nil

variable {a : OzonAction} {c : OzonCrew}

theorem Settled.next (settled : c.Settled) (allowed : Allowed Undisturbed c a) :
    (c.next a).Settled := by
  refine ⟨settled.sound.next a, ?_⟩
  apply next_keeps settled.sound settled.kept a
  · intro request
    cases request <;> trivial
  · rintro k input w _ _ rfl found move
    have placed := settled.sound.workers w (List.mem_of_getElem? found)
    have awaits := settled.kept.workers w (List.mem_of_getElem? found)
    have undisturbed : c.Undisturbed w input := allowed w found
    exact ⟨move.completed settled.sound.store placed awaits undisturbed settled.kept.store,
      move.awaits settled.sound.store placed awaits undisturbed, fun _ _ _ _ held => held⟩

theorem next_absorbs (settled : c.Settled) (allowed : Allowed Undisturbed c a) :
    c.Absorbs a := by
  intro row mem new new_mem lasting same finished active
  rcases next_row settled.sound mem new_mem same with rfl | ⟨k, input, w, rows, write, _, rfl, found, change⟩
  · exact absurd active finished
  · obtain ⟨held, rfl, writes, rfl, -⟩ := change
    have placed := settled.sound.workers w (List.mem_of_getElem? found)
    have awaits := settled.kept.workers w (List.mem_of_getElem? found)
    rcases OzonMove.writes_found settled.sound.store placed awaits held writes (allowed w found) lasting with
      before | ⟨offer, rfl, -⟩ | delays
    · exact absurd before finished
    · exact ⟨k, input, offer, rfl, found⟩
    · have outcome := (OzonWrite.apply_delays delays input.now rows).1
      have state : (write.apply input.now rows).operation.state = rows.operation.state := congrArg Prod.fst outcome
      exact absurd (show OzonOperationState.active _ from state ▸ active) finished

theorem next_keepsDecided (settled : c.Settled)
    (allowed : Allowed Undisturbed c a) : c.KeepsDecided a := by
  rintro k input _ write _ rfl worker found left held later here same lasting decided
  obtain ⟨_, move⟩ := next_move settled.sound worker
  generalize (c.next (.move k input)).store = after_store at move later
  cases move with
  | reads => rw [holds_unique settled.sound.store later held same]
  | calls calls => cases calls
  | @writes _ current _ _ current_held writes =>
    cases writes with
    | answered _ _ _ _ at_answer =>
      obtain rfl : current = found :=
        holds_unique settled.sound.store current_held held (at_answer.trans here.symm)
      have left_rows : left = write.apply input.now current :=
        holds_unique (settled.sound.store.written held write input.now) later (holds_written held write input.now)
          (same.trans (write.apply_same input.now current).pk.symm)
      obtain ⟨task, known, has, -⟩ := settled.sound.workers _ (List.mem_of_getElem? worker)
      have kind : current.operation.kind.task = task := Has.row settled.sound.store held.operation (here ▸ has)
      rcases allowed _ worker with commerce | delays | undecided
      · exact absurd (kind.trans (Option.some.inj (known.symm.trans commerce))) lasting
      · rw [left_rows, (OzonWrite.apply_delays delays input.now current).1]
      · exact absurd (undecided current.operation held.operation here current.draft held.draft held.offer) decided

/-- In a run in which every answer that decides finds the outcome that its worker left, the outcomes absorb. -/
theorem outcomes_absorb {s : OzonStore} (fresh : s.Fresh) {actions : List OzonAction}
    (allowed : Meets next (Allowed Undisturbed) s.idle actions) :
    (run next s.idle actions).store.Completed ∧
      ∀ a, Allowed Undisturbed (run next s.idle actions) a →
        Absorbs (run next s.idle actions) a ∧ KeepsDecided (run next s.idle actions) a := by
  have step : ∀ (c : OzonCrew) (a : OzonAction), c.Settled → Allowed Undisturbed c a → (c.next a).Settled :=
    fun _ _ settled allowed => settled.next allowed
  have settled := run_invariant next step (Settled.idle fresh) allowed
  exact ⟨settled.kept.store, fun a allowed => ⟨next_absorbs settled allowed, next_keepsDecided settled allowed⟩⟩

end OzonCrew

def publishedImport : List OzonAction :=
  [.call (.requestProductImport 7 "first"), .move 0 (.silent 1), .move 0 (.silent 2),
    .move 0 { OzonInput.silent 3 with importProducts := .ok "task" }, .move 0 (.silent 4),
    .call (.reconcileProductImport 7 false), .move 1 (.silent 5),
    .move 1 { OzonInput.silent 6 with importInfo := .ok [⟨"offer", "imported", []⟩] },
    .move 1 { OzonInput.silent 7 with productInfo := .ok (some (.moderated "approved")) }, .move 1 (.silent 8)]

theorem published_import_settles :
    (run OzonCrew.next (OzonStore.offering [7]).idle publishedImport).store.Completed := by
  have fresh : (OzonStore.offering [7]).Fresh := by decide
  have allowed : Meets OzonCrew.next (OzonCrew.Allowed OzonCrew.Undisturbed) (OzonStore.offering [7]).idle
      publishedImport := by decide +kernel
  exact (OzonCrew.outcomes_absorb fresh allowed).1

/-- A check finds the approved card and completes the import before the answer to its request is written. -/
def overtakenSubmitter : List OzonAction :=
  [.call (.requestProductImport 7 "first"), .move 0 (.silent 1), .move 0 (.silent 2),
    .move 0 { OzonInput.silent 3 with importProducts := .ok "task" },
    .call (.reconcileProductImport 7 false), .move 1 (.silent 4),
    .move 1 { OzonInput.silent 5 with productInfo := .ok (some (.moderated "approved")) }, .move 1 (.silent 6)]

/-- The late answer makes the succeeded import active again and leaves its time of completion. -/
theorem late_answer_revives :
    let decided := run OzonCrew.next (OzonStore.offering [7]).idle overtakenSubmitter
    let revived := decided.next (.move 0 (.silent 7))
    (OzonStore.offering [7]).Fresh ∧ decided.store.operations.map OzonOperation.state = [.succeeded] ∧
      decided.store.drafts.map OzonOfferDraft.publicationStatus = [.published] ∧
      revived.store.operations.map OzonOperation.state = [.reconciling] ∧
      revived.store.drafts.map OzonOfferDraft.publicationStatus = [.importProcessing] ∧
      ¬ revived.store.Completed := by
  decide +kernel

end MapBackend.Marketplaces
