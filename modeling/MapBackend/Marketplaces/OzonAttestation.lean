import MapBackend.Marketplaces.OzonSubmission

/-!
Which requests a published card attests.
-/

namespace MapBackend.Marketplaces
open MapBackend.Library

def OzonAPIError.refusal (error : OzonAPIError) : Prop :=
  error.code ∈ [OzonErrorCode.invalidCredentials, .rateLimited, .requestRejected]

instance (error : OzonAPIError) : Decidable error.refusal := inferInstanceAs (Decidable (_ ∈ _))

def OzonEvent.attests (pk : Uuid) : OzonEvent → Bool
  | importPosted operation _ (.ok _) => operation = pk
  | importPosted operation _ (.error error) => operation = pk ∧ ¬ error.refusal
  | _ => false

def Posted (history : List OzonEvent) (pk : Uuid) : Prop := ∃ event ∈ history, event.posts pk = true

def Attested (history : List OzonEvent) (pk : Uuid) : Prop := ∃ event ∈ history, event.attests pk = true

instance (history : List OzonEvent) (pk : Uuid) : Decidable (Attested history pk) :=
  inferInstanceAs (Decidable (∃ event ∈ history, _))

variable {history : List OzonEvent} {pk : Uuid}

theorem Attested.posted (attested : Attested history pk) :
    Posted history pk := by
  obtain ⟨event, mem, attests⟩ := attested
  cases event with
  | importPosted operation _ result =>
    cases result with
    | ok => exact ⟨_, mem, attests⟩
    | error error =>
      have both : operation = pk ∧ ¬ error.refusal := of_decide_eq_true attests
      exact ⟨_, mem, decide_eq_true both.1⟩
  | _ => cases attests

theorem Posted.append (posted : Posted history pk) (events : List OzonEvent) :
    Posted (history ++ events) pk :=
  let ⟨event, mem, posts⟩ := posted
  ⟨event, List.mem_append_left _ mem, posts⟩

theorem Attested.append (attested : Attested history pk)
    (events : List OzonEvent) : Attested (history ++ events) pk :=
  let ⟨event, mem, attests⟩ := attested
  ⟨event, List.mem_append_left _ mem, attests⟩

theorem Attested.take_append {seen : ℕ}
    (attested : Attested (history.take seen) pk) (events : List OzonEvent) :
    Attested ((history ++ events).take seen) pk := by
  rw [List.take_append]
  exact attested.append _

def OzonCrew.ClaimsSent (c : OzonCrew) (w : OzonWorker) (input : OzonInput) : Prop :=
  match w with
  | .reconcileProductImport offer allowTerminalRefresh =>
    ∀ row ∈ OzonStore.latest? (c.store.offerOperations offer .productImport),
      OzonReconciliation.Due row allowTerminalRefresh input.now → Attested c.store.history row.pk
  | _ => True

instance (c : OzonCrew) (w : OzonWorker) (input : OzonInput) : Decidable (c.ClaimsSent w input) :=
  match w with
  | .reconcileProductImport offer _ =>
    inferInstanceAs (Decidable (∀ row ∈ OzonStore.latest? (c.store.offerOperations offer .productImport), _ → _))
  | .requestProductImport .. | .submitProductImport .. | .importProducts .. | .getProductImportInfo _
  | .getProductInfo _ | .requestProductArchive .. | .submitProductArchive _ | .zeroStock ..
  | .archiveProducts .. | .readArchive _ | .reconcileProductArchive _ | .syncOfferCommerce ..
  | .submitCommerce _ | .sendCommerce .. | .answered .. | .done _ => isTrue trivial

namespace OzonStore

def Queued (s : OzonStore) (pk : Uuid) : Prop := ∃ row ∈ s.operations, row.pk = pk ∧ row.state = .queued

/-- A card was read after the import of the operation went out, and completed the operation. -/
def CompletedBy (s : OzonStore) (pk : Uuid) : Prop :=
  ∃ seen, .importCompleted pk seen ∈ s.history ∧ Attested (s.history.take seen) pk

/-- Every completed import, and every offer that is published by one, attests its own request. -/
structure AttestsOwn (s : OzonStore) : Prop where
  completions : ∀ pk seen, .importCompleted pk seen ∈ s.history → Attested (s.history.take seen) pk
  succeeded : ∀ row ∈ s.operations, row.kind = .productImport → row.state = .succeeded → s.CompletedBy row.pk
  published : ∀ draft ∈ s.drafts, draft.publicationStatus = .published →
    ∃ row ∈ s.operations, row.kind = .productImport ∧ row.offer = draft.pk ∧ s.CompletedBy row.pk

theorem CompletedBy.append {s next : OzonStore} {pk : Uuid} {events : List OzonEvent}
    (completed : s.CompletedBy pk) (history : next.history = s.history ++ events) : next.CompletedBy pk := by
  obtain ⟨seen, mem, attested⟩ := completed
  refine ⟨seen, ?_, ?_⟩
  · rw [history]
    exact List.mem_append_left _ mem
  · rw [history]
    exact attested.take_append events

end OzonStore

def OzonWorker.Informed (s : OzonStore) : OzonWorker → Prop
  | submitProductImport operation item => s.Queued operation ∧ item.isSome = true
  | getProductImportInfo rows | getProductInfo rows => Attested s.history rows.operation.pk
  | answered rows write _ =>
    (write.task = some .importing → Posted s.history rows.operation.pk) ∧
      ∀ item seen, write = .productProjection item seen → Attested (s.history.take seen) rows.operation.pk
  | _ => True

namespace OzonWrite

theorem apply_succeeded {write : OzonWrite} {now : Instant} {rows : OfferRows}
    (importing : write.task = some .importing) (done : (write.apply now rows).operation.state = .succeeded) :
    rows.operation.state = .succeeded ∨ ∃ item seen, write = .productProjection item seen ∧ item.approved := by
  cases write with
  | importAnswered answer =>
    cases answer with
    | ok => cases done
    | error =>
      simp only [apply, OfferRows.importAnswered, OfferRows.callFailed, OfferRows.setStatus] at done
      split at done <;> cases done
  | claimReconciliation terminalRefresh =>
    cases terminalRefresh with
    | false => exact .inl done
    | true => cases done
  | productProjection item seen =>
    by_cases approved : item.approved
    · exact .inr ⟨item, seen, rfl, approved⟩
    · simp only [apply, OfferRows.persistProductProjection, approved, if_false] at done
      split at done <;> cases done
  | notFound =>
    simp only [apply, OfferRows.persistNotFound] at done
    split at done
    · cases done
    · exact .inl done
  | finishFailed failure => cases failure <;> cases done
  | transientError => exact .inl done
  | offerNotInTask => exact .inl done
  | importPending => exact .inl done
  | desiredStateChanged => cases done
  | importCredentials => cases done
  | reconcileLimit => cases done
  | _ => cases importing

theorem apply_published {write : OzonWrite} {now : Instant} {rows : OfferRows}
    (published : (write.apply now rows).draft.publicationStatus = .published) :
    rows.draft.publicationStatus = .published ∨ ∃ item seen, write = .productProjection item seen ∧ item.approved := by
  cases write with
  | importAnswered answer =>
    cases answer with
    | ok => cases published
    | error =>
      simp only [apply, OfferRows.importAnswered, OfferRows.callFailed, OfferRows.setStatus] at published
      split at published <;> cases published
  | productProjection item seen =>
    by_cases approved : item.approved
    · exact .inr ⟨item, seen, rfl, approved⟩
    · simp only [apply, OfferRows.persistProductProjection, approved, if_false] at published
      split at published <;> cases published
  | notFound =>
    simp only [apply, OfferRows.persistNotFound] at published
    split at published
    · cases published
    · exact .inl published
  | archiveProjection =>
    simp only [apply, OfferRows.persistArchiveProjection] at published
    split at published
    · cases published
    · split at published <;> cases published
  | operationError failure => cases failure <;> cases published
  | finishFailed failure => cases failure <;> cases published
  | commerceSucceeded request => cases request <;> exact .inl published
  | markSending => exact .inl published
  | desiredStateChanged => exact .inl published
  | claimReconciliation => exact .inl published
  | transientError => exact .inl published
  | offerNotInTask => exact .inl published
  | stockZeroed => exact .inl published
  | claimArchive => exact .inl published
  | commerceError => exact .inl published
  | commerceOutcome => exact .inl published
  | _ => cases published

end OzonWrite

namespace OzonStore

variable {s : OzonStore}

theorem AttestsOwn.record (own : s.AttestsOwn) {events : List OzonEvent}
    (quiet : ∀ pk seen, .importCompleted pk seen ∉ events) : (s.record events).AttestsOwn where
  completions pk seen mem := by
    rcases List.mem_append.mp mem with old | new
    · exact (own.completions pk seen old).take_append events
    · exact absurd new (quiet pk seen)
  succeeded row mem kind done := (own.succeeded row mem kind done).append rfl
  published draft mem published :=
    let ⟨row, row_mem, kind, offer, completed⟩ := own.published draft mem published
    ⟨row, row_mem, kind, offer, completed.append rfl⟩

theorem AttestsOwn.insert (own : s.AttestsOwn) {row : OzonOperation} (queued : row.state = .queued) :
    (s.insert row).AttestsOwn where
  completions := own.completions
  succeeded old mem kind done := by
    rcases List.mem_append.mp mem with mem | last
    · exact own.succeeded old mem kind done
    · rw [List.mem_singleton.mp last, queued] at done
      cases done
  published draft mem published :=
    let ⟨old, old_mem, kind, offer, completed⟩ := own.published draft mem published
    ⟨old, List.mem_append_left _ old_mem, kind, offer, completed⟩

theorem AttestsOwn.saveDraft (own : s.AttestsOwn) {draft : OzonOfferDraft}
    (unpublished : draft.publicationStatus ≠ .published) : (s.saveDraft draft).AttestsOwn where
  completions := own.completions
  succeeded := own.succeeded
  published new mem published := by
    rcases mem_put.mp mem with ⟨rfl, -⟩ | ⟨old, -⟩
    · exact absurd published unpublished
    · exact own.published new old published

theorem AttestsOwn.written (sound : s.Sound) (own : s.AttestsOwn) {rows : OfferRows}
    (held : s.Holds rows) {write : OzonWrite} {now : Instant}
    (fits : write = .markSending ∨ write.task = some rows.operation.kind.task)
    (attested : ∀ item seen, write = .productProjection item seen →
      Attested (s.history.take seen) rows.operation.pk) : (s.written rows write now).AttestsOwn := by
  have same := write.apply_same now rows
  have completed {item : ProductItem} {seen : ℕ} (read : write = .productProjection item seen)
      (approved : item.approved) : (s.written rows write now).CompletedBy rows.operation.pk := by
    refine ⟨seen, ?_, (attested item seen read).take_append _⟩
    simp [read, OzonWrite.events, approved]
  constructor
  · intro pk seen mem
    rcases List.mem_append.mp mem with old | new
    · exact (own.completions pk seen old).take_append _
    · cases write with
      | claimReconciliation terminalRefresh => cases terminalRefresh <;> simp [OzonWrite.events] at new
      | productProjection item =>
        simp only [OzonWrite.events] at new
        split at new
        · simp only [List.mem_singleton, OzonEvent.importCompleted.injEq] at new
          obtain ⟨rfl, rfl⟩ := new
          exact (attested item seen rfl).take_append _
        · cases new
      | _ => cases new
  · intro row mem kind done
    rcases (mem_written held).mp mem with rfl | ⟨old, -⟩
    · rw [same.kind] at kind
      rw [same.pk]
      rcases fits with rfl | fits
      · cases done
      · rw [kind] at fits
        rcases OzonWrite.apply_succeeded fits done with before | ⟨item, seen, read, approved⟩
        · exact (own.succeeded _ held.operation kind before).append rfl
        · exact completed read approved
    · exact (own.succeeded row old kind done).append rfl
  · intro draft mem published
    have earlier {old : OzonOfferDraft} (old_mem : old ∈ s.drafts) (before : old.publicationStatus = .published) :
        ∃ row ∈ (s.written rows write now).operations, row.kind = .productImport ∧ row.offer = old.pk ∧
          (s.written rows write now).CompletedBy row.pk := by
      obtain ⟨row, row_mem, kind, offer, done⟩ := own.published old old_mem before
      obtain ⟨new, new_mem, kept⟩ := row_written sound held row_mem
      exact ⟨new, new_mem, kept.kind.trans kind, kept.offer.trans offer, kept.pk ▸ done.append rfl⟩
    rcases (mem_written_drafts held).mp mem with rfl | ⟨old, -⟩
    · rw [(write.apply_offer now rows).pk]
      rcases OzonWrite.apply_published published with before | ⟨item, seen, rfl, approved⟩
      · exact earlier held.draft before
      · refine ⟨_, (mem_written held).mpr (.inl rfl), ?_, ?_, same.pk ▸ completed rfl approved⟩
        · rw [same.kind]
          rcases fits with impossible | fits
          · cases impossible
          · cases kind : rows.operation.kind <;> simp [kind, OzonWrite.task, OzonOperationKind.task] at fits ⊢
        · rw [same.offer, held.offer]
    · exact earlier old published

theorem Queued.insert {pk : Uuid} (queued : s.Queued pk) (row : OzonOperation) :
    (s.insert row).Queued pk :=
  let ⟨old, mem, same, state⟩ := queued
  ⟨old, List.mem_append_left _ mem, same, state⟩

theorem not_posted {pk : Uuid} (unspent : s.meter pk = 0) : ¬ Posted s.history pk := by
  rintro ⟨event, mem, posts⟩
  have some_post : 0 < s.posts pk := List.countP_pos_iff.mpr ⟨event, mem, posts⟩
  unfold meter at unspent
  omega

end OzonStore

namespace OzonReconciliation

theorem importInfoWrite_ne_projection {offerId : String} {answer : Except OzonAPIError (List ImportTaskItem)}
    {item : ProductItem} {seen : ℕ} : importInfoWrite offerId answer ≠ some (.productProjection item seen) := by
  intro decided
  cases answer with
  | error => cases decided
  | ok =>
    simp only [importInfoWrite] at decided
    split at decided
    · cases decided
    · split at decided
      · cases decided
      · split at decided
        · cases decided
        · split at decided <;> cases decided

theorem productInfoWrite_seen {seen read : ℕ} {answer : Except OzonAPIError (Option ProductItem)} {item : ProductItem}
    (decided : productInfoWrite seen answer = .productProjection item read) : read = seen := by
  match answer with
  | .error _ => cases decided
  | .ok none => cases decided
  | .ok (some card) =>
    simp only [productInfoWrite] at decided
    split at decided <;> cases decided
    rfl

end OzonReconciliation

namespace OzonMove
open OzonStore

variable {write : OzonWrite} {rows : OfferRows} {s : OzonStore}

theorem informed_of_task {after : AfterWrite} {task : OzonTask}
    (known : write.task = some task) (other : task ≠ .importing) :
    (OzonWorker.answered rows write after).Informed s := by
  have never : ¬ write.task = some .importing := by
    intro importing
    rw [known] at importing
    exact other (Option.some.inj importing)
  refine ⟨fun importing => absurd importing never, ?_⟩
  rintro item _ rfl
  exact absurd rfl never

variable {input : OzonInput}

theorem reads_informed {w next : OzonWorker}
    (reads : OzonWorker.Reads input s w next) (informed : w.Informed s) : next.Informed s := by
  cases reads with
  | importInfo rows =>
    rcases importInfoRead_cases rows input with ⟨write, read, decided⟩ | read
    · rw [read]
      refine ⟨fun _ => informed.posted, ?_⟩
      rintro item seen rfl
      exact absurd decided OzonReconciliation.importInfoWrite_ne_projection
    · rw [read]
      exact informed
  | productInfo =>
    refine ⟨fun _ => informed.posted, fun item seen decided => ?_⟩
    rw [OzonReconciliation.productInfoWrite_seen decided, List.take_length]
    exact informed
  | archive rows =>
    obtain ⟨write, read, task⟩ := archiveRead_cases rows input.productInfo
    rw [read]
    exact informed_of_task task (by decide)
  | skipCommerce => trivial
  | ended => trivial

theorem calls_informed {w next : OzonWorker} {events : List OzonEvent}
    (calls : OzonWorker.Calls input w events next) : next.Informed (s.record events) := by
  cases calls with
  | importProducts _ item =>
    refine ⟨fun _ => ⟨_, List.mem_append_right _ List.mem_cons_self, ?_⟩, fun item seen read => ?_⟩
    · simp [OzonEvent.posts]
    · cases read
  | zeroStock rows item =>
    rcases stockAnswered_cases rows item input.updateResults with ⟨write, answered, task⟩ | ⟨_, -, -, answered⟩
    · rw [answered]
      exact informed_of_task task (by decide)
    · rw [answered]
      exact informed_of_task rfl (show OzonTask.archiving ≠ .importing by decide)
  | archiveProducts rows =>
    rcases archiveAnswered_cases rows input.archiveProducts with ⟨write, answered, task⟩ | ⟨write, answered, rfl | rfl⟩
    · rw [answered]
      exact informed_of_task task (by decide)
    · rw [answered]
      exact informed_of_task rfl (show OzonTask.archiving ≠ .importing by decide)
    · rw [answered]
      exact informed_of_task rfl (show OzonTask.archiving ≠ .importing by decide)
  | sendCommerce _ request => exact informed_of_task (updateWrite_task request input.updateResults) (by decide)

variable {c : OzonCrew}

theorem writes_informed {w : OzonWorker}
    {next : OfferRows → OzonWorker} (writes : OzonWorker.Writes input c.store w rows.operation write next)
    (claims : c.ClaimsSent w input) :
    (next (write.apply input.now rows)).Informed (c.store.written rows write input.now) := by
  cases writes with
  | claimImport _ _ _ latest due =>
    have sent : Attested c.store.history rows.operation.pk := claims _ latest due
    have left := (OzonWrite.claimReconciliation (decide ¬ rows.operation.active)).apply_same input.now rows
    dsimp only
    split
    all_goals
      show Attested _ _
      rw [left.pk]
      exact sent.append _
  | answered _ _ after => cases after <;> trivial
  | _ => trivial

theorem writes_elsewhere {k j : ℕ} {w : OzonWorker} {pk : Uuid}
    {item : Option String} {next : OfferRows → OzonWorker} (sound : c.Sound)
    (metered : c.Metered) (informed : w.Informed c.store) (other : j ≠ k) (found : c.workers[k]? = some w)
    (waiting : c.workers[j]? = some (.submitProductImport pk item))
    (held : c.store.Holds rows) (writes : OzonWorker.Writes input c.store w rows.operation write next)
    (claims : c.ClaimsSent w input) : rows.operation.pk ≠ pk := by
  rintro rfl
  have few := metered rows.operation.pk
  have both := Crew.load_pair (OzonWorker.submits rows.operation.pk) other waiting found
  have right : (OzonWorker.submitProductImport rows.operation.pk item).submits rows.operation.pk = 1 := if_pos rfl
  have unsent : ¬ Posted c.store.history rows.operation.pk := not_posted (by omega)
  have importing : c.store.Has .importing rows.operation.pk := sound.workers _ (List.mem_of_getElem? waiting)
  have placed := sound.workers w (List.mem_of_getElem? found)
  have foreign {task : OzonTask} (has : c.store.Has task rows.operation.pk) : task = .importing :=
    has.unique sound.store importing
  cases writes with
  | sendImport _ digest =>
    have twice : (OzonWorker.submitProductImport rows.operation.pk digest).submits rows.operation.pk = 1 := if_pos rfl
    omega
  | refuseImport _ digest =>
    have twice : (OzonWorker.submitProductImport rows.operation.pk digest).submits rows.operation.pk = 1 := if_pos rfl
    omega
  | claimImport _ _ _ latest due => exact unsent (claims _ latest due).posted
  | limitImport _ _ _ latest due => exact unsent (claims _ latest due).posted
  | sendArchive => cases foreign placed
  | refuseArchive => cases foreign placed
  | claimArchive _ _ latest =>
    have archiving := foreign (Has.of_mem held.operation)
    rw [(latest_kind latest).2.2] at archiving
    cases archiving
  | limitArchive _ _ latest =>
    have archiving := foreign (Has.of_mem held.operation)
    rw [(latest_kind latest).2.2] at archiving
    cases archiving
  | sendCommerce => cases foreign (placed _ List.mem_cons_self)
  | refuseCommerce => cases foreign (placed _ List.mem_cons_self)
  | answered _ _ _ _ here =>
    obtain ⟨task, known, has, -⟩ := placed
    obtain rfl := foreign (here ▸ has)
    exact unsent (here ▸ informed.1 known)

theorem part_queued {draft : OzonOfferDraft} {kind : OzonOperationKind} {key : String}
    {s next : OzonStore} {result : Option OzonOperation} {pk : Uuid}
    (part : CommercePart input draft kind key s next result) (queued : s.Queued pk) : next.Queued pk := by
  cases part with
  | settled => exact queued
  | found => exact queued
  | created => exact queued.insert _

theorem part_attests {draft : OzonOfferDraft} {kind : OzonOperationKind} {key : String}
    {s next : OzonStore} {result : Option OzonOperation} (part : CommercePart input draft kind key s next result)
    (own : s.AttestsOwn) : next.AttestsOwn := by
  cases part with
  | settled => exact own
  | found => exact own
  | created => exact own.insert rfl

variable {w moved : OzonWorker}

theorem queued {s next : OzonStore} {pk : Uuid}
    (move : OzonMove input s w next moved) (queued : s.Queued pk)
    (elsewhere : ∀ rows write next, s.Holds rows → OzonWorker.Writes input s w rows.operation write next →
      rows.operation.pk ≠ pk) : next.Queued pk := by
  cases move with
  | reads => exact queued
  | calls => exact queued
  | writes held writes =>
    obtain ⟨row, mem, rfl, state⟩ := queued
    exact ⟨row, (mem_written held).mpr (.inr ⟨mem, (elsewhere _ _ _ held writes).symm⟩), rfl, state⟩
  | createImport => exact queued.insert _
  | createArchive => exact queued.insert _
  | syncCommerce _ _ _ _ _ priced stocked => exact part_queued stocked (part_queued priced queued)

theorem attests {s next : OzonStore} (sound : s.Sound)
    (placed : w.Placed s) (informed : w.Informed s) (move : OzonMove input s w next moved) (own : s.AttestsOwn) :
    next.AttestsOwn := by
  cases move with
  | reads => exact own
  | calls calls =>
    refine own.record fun pk seen mem => ?_
    cases calls with
    | sendCommerce _ request => cases request <;> simp [OzonCommerce.updateEvents] at mem
    | _ => simp at mem
  | writes held writes =>
    refine own.written sound held (writes_task sound placed held writes) ?_
    rintro item seen rfl
    cases writes with
    | refuseImport _ _ _ _ refused => rcases refused with impossible | ⟨error, impossible⟩ <;> cases impossible
    | answered _ _ _ _ here => exact here ▸ informed.2 item seen rfl
  | createImport => exact (own.insert rfl).saveDraft nofun
  | createArchive =>
    exact (own.insert rfl).saveDraft nofun
  | syncCommerce _ _ _ _ _ priced stocked => exact part_attests stocked (part_attests priced own)

theorem informed {next : OzonStore}
    (move : OzonMove input c.store w next moved) (informed : w.Informed c.store) (claims : c.ClaimsSent w input) :
    moved.Informed next := by
  cases move with
  | reads reads => exact reads_informed reads informed
  | calls calls => exact calls_informed calls
  | writes _ writes => exact writes_informed writes claims
  | createImport =>
    exact ⟨⟨_, List.mem_append_right _ (List.mem_singleton_self _), rfl, rfl⟩, rfl⟩
  | createArchive => trivial
  | syncCommerce => trivial

end OzonMove

theorem OzonWorker.Informed.grow {s next : OzonStore} {events : List OzonEvent} {w : OzonWorker}
    (grown : next.history = s.history ++ events) (informed : w.Informed s)
    (waits : ∀ pk item, w = .submitProductImport pk item → next.Queued pk) : w.Informed next := by
  cases w with
  | submitProductImport => exact ⟨waits _ _ rfl, informed.2⟩
  | getProductImportInfo rows =>
    have attested : Attested s.history rows.operation.pk := informed
    simpa only [Informed, grown] using attested.append events
  | getProductInfo rows =>
    have attested : Attested s.history rows.operation.pk := informed
    simpa only [Informed, grown] using attested.append events
  | answered =>
    obtain ⟨posted, attested⟩ := informed
    refine ⟨fun importing => ?_, fun item seen read => ?_⟩
    · rw [grown]
      exact (posted importing).append events
    · rw [grown]
      exact (attested item seen read).take_append events
  | _ => trivial

namespace OzonCrew
open OzonStore

structure Attesting (c : OzonCrew) : Prop where
  sound : c.Sound
  metered : c.Metered
  kept : c.Keeps OzonStore.AttestsOwn fun s w => w.Informed s

theorem Attesting.idle {s : OzonStore} (fresh : s.Fresh) : Attesting s.idle where
  sound := .idle fresh
  metered := fresh.meter_le
  kept := by
    refine ⟨⟨fun pk seen mem => ?_, fun row mem => ?_, fun draft mem published => ?_⟩,
      fun _ mem => absurd mem List.not_mem_nil⟩
    · exact absurd (fresh.history ▸ mem : _ ∈ []) List.not_mem_nil
    · exact absurd (fresh.operations ▸ mem : row ∈ []) List.not_mem_nil
    · rw [fresh.unpublished draft mem] at published
      cases published

theorem Attesting.next {c : OzonCrew} (attesting : c.Attesting) {a : OzonAction} (allowed : Allowed ClaimsSent c a) :
    (c.next a).Attesting := by
  refine ⟨attesting.sound.next a, attesting.metered.next attesting.sound a, ?_⟩
  apply next_keeps attesting.sound attesting.kept a
  · intro request
    cases request <;> trivial
  · rintro k input w _ _ rfl found move
    have placed := attesting.sound.workers w (List.mem_of_getElem? found)
    have informed := attesting.kept.workers w (List.mem_of_getElem? found)
    have claims : c.ClaimsSent w input := allowed w found
    refine ⟨move.attests attesting.sound.store placed informed attesting.kept.store, move.informed informed claims, ?_⟩
    intro j v other waiting known
    obtain ⟨_, grown⟩ := move.history
    refine known.grow grown ?_
    rintro pk _ rfl
    refine move.queued known.1 fun rows write after held writes => ?_
    exact OzonMove.writes_elsewhere attesting.sound attesting.metered informed other found waiting held writes claims

/-- Every submitter finds its operation waiting, and sends it or ends it for want of credentials. -/
def Submits (c : OzonCrew) : Prop :=
  ∀ k pk item input, c.workers[k]? = some (.submitProductImport pk item) →
    ∃ row ∈ c.store.operations, row.pk = pk ∧ row.state = .queued ∧
      ∃ new ∈ (c.next (.move k input)).store.operations, new.pk = pk ∧ (new.state = .sending ∨ new.state = .failed)

theorem submit_queued {s : OzonStore} (sound : s.Sound) {pk : Uuid} (queued : s.Queued pk) (digest : String)
    (input : OzonInput) :
    ∃ new ∈ ((OzonWorker.submitProductImport pk (some digest)).advance input s).1.operations,
      new.pk = pk ∧ (new.state = .sending ∨ new.state = .failed) := by
  obtain ⟨row, mem, rfl, state⟩ := queued
  obtain ⟨_, held⟩ := sound.holds mem
  have found := operation?_of_mem sound.pks mem
  have submitted : OzonPublication.submitProductImport row.pk (some digest) input s =
      OzonPublication.sendProductImport row.pk digest input s := by
    simp only [OzonPublication.submitProductImport, found]
    exact if_neg (not_not.mpr state)
  rw [OzonWorker.advance, submitted, OzonPublication.sendProductImport]
  cases input.account.credentials with
  | error error =>
    have performed := persist_holds sound held (.importCredentials error) input.now
    dsimp only at performed ⊢
    rw [performed]
    exact ⟨_, (mem_written held).mpr (.inl rfl), rfl, .inr rfl⟩
  | ok =>
    have performed := persist_holds sound held .markSending input.now
    dsimp only at performed ⊢
    rw [performed]
    exact ⟨_, (mem_written held).mpr (.inl rfl), rfl, .inl rfl⟩

theorem Attesting.submits {c : OzonCrew} (attesting : c.Attesting) : c.Submits := by
  intro k pk item input found
  obtain ⟨queued, given⟩ := attesting.kept.workers _ (List.mem_of_getElem? found)
  obtain ⟨digest, rfl⟩ := Option.isSome_iff_exists.mp given
  obtain ⟨row, mem, same, state⟩ := queued
  refine ⟨row, mem, same, state, ?_⟩
  have store : (c.next (.move k input)).store =
      ((OzonWorker.submitProductImport pk (some digest)).advance input c.store).1 := by
    simp [OzonCrew.next, Crew.step, OzonAction.crewAction, found]
  rw [store]
  exact submit_queued attesting.sound.store ⟨row, mem, same, state⟩ digest input

end OzonCrew

/-- One offer that is sent, checked after the answer and published by its own card. -/
def attestedImport : List OzonAction :=
  [.call (.requestProductImport 7 "first"), .move 0 (.silent 1), .move 0 (.silent 2),
    .move 0 { OzonInput.silent 3 with importProducts := .ok "" }, .move 0 (.silent 4),
    .call (.reconcileProductImport 7 false), .move 1 (.silent 5),
    .move 1 { OzonInput.silent 6 with productInfo := .ok (some (.moderated "approved")) }, .move 1 (.silent 7)]

/-- A check claims the import that still waits for its submitter and reads the approved card of before. -/
def overtakenImport : List OzonAction :=
  [.call (.requestProductImport 7 "first"), .move 0 (.silent 1), .call (.reconcileProductImport 7 false),
    .move 1 (.silent 2), .move 1 { OzonInput.silent 3 with productInfo := .ok (some (.moderated "approved")) },
    .move 1 (.silent 4)]

end MapBackend.Marketplaces
