import MapBackend.Marketplaces.OzonInvariants

/-!
An import goes out at most once.
-/

namespace MapBackend.Marketplaces
open MapBackend.Library

def OzonEvent.posts (pk : Uuid) : OzonEvent → Bool
  | importPosted operation _ _ => operation = pk
  | _ => false

def OzonEvent.refreshes (pk : Uuid) : OzonEvent → Bool
  | terminalRefreshed operation => operation = pk
  | _ => false

namespace OzonWrite

def leavesOpen (row : OzonOperation) : OzonWrite → Prop
  | importAnswered (.ok _) => True
  | importAnswered (.error error) => error.unknown
  | productProjection item _ =>
    ¬ item.approved ∧ (item.pending ∨ row.reconcileCount < Ozon.unknownSchemaThreshold)
  | _ => False

instance (row : OzonOperation) : (write : OzonWrite) → Decidable (write.leavesOpen row)
  | importAnswered (.ok _) => .isTrue trivial
  | importAnswered (.error _) => inferInstanceAs (Decidable (OzonAPIError.unknown _))
  | productProjection _ _ => inferInstanceAs (Decidable (_ ∧ (_ ∨ _)))
  | markSending | desiredStateChanged | importCredentials _ | claimReconciliation _ | reconcileLimit
  | transientError _ | offerNotInTask | importPending | finishFailed _ _ | notFound | operationError _ _
  | archiveUnread _ | stockZeroed _ | archiveOutcomeUnknown | archiveAccepted | archiveProjection _ | claimArchive
  | commerceError _ | commerceOutcome _ _ | commerceSucceeded _ => .isFalse id

theorem apply_active {write : OzonWrite} {now : Instant} {rows : OfferRows}
    (importing : write.task = some .importing) (active : (write.apply now rows).operation.active) :
    rows.operation.active ∨ write.leavesOpen rows.operation ∨ write = .claimReconciliation true := by
  cases write with
  | importAnswered answer =>
    cases answer with
    | ok => exact .inr (.inl trivial)
    | error =>
      refine .inr (.inl ?_)
      by_contra known
      simp only [leavesOpen] at known
      simp [apply, OfferRows.importAnswered, OfferRows.callFailed, OfferRows.setStatus, known, OzonOperation.active,
        OzonOperationState.active, OzonOperationState.activeStates] at active
  | claimReconciliation terminalRefresh =>
    cases terminalRefresh with
    | false => exact .inl active
    | true => exact .inr (.inr rfl)
  | productProjection =>
    simp only [apply, OfferRows.persistProductProjection] at active
    split at active
    · exact absurd active (show ¬ OzonOperationState.active .succeeded by decide)
    next unapproved =>
      split at active
      next still => exact .inr (.inl ⟨unapproved, still⟩)
      next => exact absurd active (show ¬ OzonOperationState.active .manualReview by decide)
  | notFound =>
    simp only [apply, OfferRows.persistNotFound] at active
    split at active
    · exact absurd active (show ¬ OzonOperationState.active .failed by decide)
    · exact .inl active
  | finishFailed failure =>
    cases failure with
    | unknownImportStatus => exact absurd active (show ¬ OzonOperationState.active .manualReview by decide)
    | _ => exact absurd active (show ¬ OzonOperationState.active .failed by decide)
  | transientError => exact .inl active
  | offerNotInTask => exact .inl active
  | importPending => exact .inl active
  | desiredStateChanged => exact absurd active (show ¬ OzonOperationState.active .manualReview by decide)
  | importCredentials => exact absurd active (show ¬ OzonOperationState.active .failed by decide)
  | reconcileLimit => exact absurd active (show ¬ OzonOperationState.active .manualReview by decide)
  | _ => cases importing

end OzonWrite

namespace OzonStore

def posts (s : OzonStore) (pk : Uuid) : ℕ := s.history.countP (OzonEvent.posts pk)

/-- The right to the call of an import before the operation is made, and the calls it was spent on. -/
def meter (s : OzonStore) (pk : Uuid) : ℕ := (if s.nextPk ≤ pk then 1 else 0) + s.posts pk

theorem meter_insert_le (s : OzonStore) (row : OzonOperation) (pk : Uuid) : (s.insert row).meter pk ≤ s.meter pk := by
  unfold meter
  apply Nat.add_le_add_right
  by_cases later : s.nextPk + 1 ≤ pk
  · simp [later, Nat.le_of_succ_le later]
  · simp [later]

theorem opened_meter (s : OzonStore) (row : OzonOperation) (draft : OzonOfferDraft) (status : PublicationStatus)
    (pk : Uuid) : (s.opened row draft status).meter pk = (s.insert row).meter pk := rfl

theorem meter_insert (s : OzonStore) (row : OzonOperation) : (s.insert row).meter s.nextPk + 1 = s.meter s.nextPk := by
  simp [meter, posts, Nat.add_comm]

theorem record_meter (s : OzonStore) (events : List OzonEvent) (pk : Uuid) :
    (s.record events).meter pk = s.meter pk + events.countP (OzonEvent.posts pk) := by
  have same : (s.record events).posts pk = s.posts pk + events.countP (OzonEvent.posts pk) := List.countP_append
  calc
    (s.record events).meter pk = (if s.nextPk ≤ pk then 1 else 0) + (s.record events).posts pk := rfl
    _ = s.meter pk + events.countP (OzonEvent.posts pk) := by rw [same, meter, Nat.add_assoc]

end OzonStore

def OzonWorker.submits (pk : Uuid) : OzonWorker → ℕ
  | submitProductImport operation _ => if operation = pk then 1 else 0
  | importProducts rows _ => if rows.operation.pk = pk then 1 else 0
  | _ => 0

theorem OzonWrite.events_posts (write : OzonWrite) (operation pk : Uuid) :
    (write.events operation).countP (OzonEvent.posts pk) = 0 := by
  cases write with
  | claimReconciliation terminalRefresh => cases terminalRefresh <;> rfl
  | productProjection =>
    simp only [events]
    split <;> rfl
  | _ => rfl

namespace OzonMove
open OzonStore

variable {input : OzonInput} {s : OzonStore}

theorem reads_submits {w next : OzonWorker} (pk : Uuid)
    (reads : OzonWorker.Reads input s w next) : next.submits pk = 0 := by
  cases reads with
  | importInfo rows =>
    rcases importInfoRead_cases rows input with ⟨write, read, -⟩ | read
    · rw [read]
      rfl
    · rw [read]
      rfl
  | archive rows =>
    obtain ⟨write, read, -⟩ := archiveRead_cases rows input.productInfo
    rw [read]
    rfl
  | _ => rfl

theorem calls_meter {w next : OzonWorker} {events : List OzonEvent} (pk : Uuid)
    (calls : OzonWorker.Calls input w events next) :
    (s.record events).meter pk + next.submits pk = s.meter pk + w.submits pk := by
  rw [record_meter]
  cases calls with
  | importProducts rows =>
    by_cases same : rows.operation.pk = pk <;> simp [OzonWorker.submits, OzonEvent.posts, same]
  | zeroStock rows item =>
    rcases stockAnswered_cases rows item input.updateResults with ⟨write, answered, -⟩ | ⟨_, -, -, answered⟩
    · rw [answered]
      rfl
    · rw [answered]
      rfl
  | archiveProducts rows =>
    rcases archiveAnswered_cases rows input.archiveProducts with ⟨write, answered, -⟩ | ⟨write, answered, -⟩
    · rw [answered]
      rfl
    · rw [answered]
      rfl
  | sendCommerce _ request => cases request <;> rfl

theorem written_meter (s : OzonStore) (pk : Uuid) (rows : OfferRows) (write : OzonWrite) (now : Instant) :
    (s.written rows write now).meter pk = s.meter pk := by
  have same : (s.written rows write now).posts pk = s.posts pk := by simp [posts, OzonWrite.events_posts]
  calc
    (s.written rows write now).meter pk = (if s.nextPk ≤ pk then 1 else 0) + (s.written rows write now).posts pk := rfl
    _ = s.meter pk := by rw [same, OzonStore.meter]

theorem writes_meter {w : OzonWorker} {rows : OfferRows} {write : OzonWrite}
    {next : OfferRows → OzonWorker} (pk : Uuid)
    (writes : OzonWorker.Writes input s w rows.operation write next) :
    (s.written rows write input.now).meter pk + (next (write.apply input.now rows)).submits pk ≤
      s.meter pk + w.submits pk := by
  rw [written_meter]
  apply Nat.add_le_add_left
  cases writes with
  | claimImport =>
    dsimp only
    split <;> exact Nat.zero_le _
  | answered _ _ after => cases after <;> exact Nat.zero_le _
  | sendImport => exact le_refl _
  | _ => exact Nat.zero_le _

theorem part_meter {draft : OzonOfferDraft} {kind : OzonOperationKind} {key : String}
    {s next : OzonStore} {result : Option OzonOperation} (pk : Uuid)
    (part : CommercePart input draft kind key s next result) : next.meter pk ≤ s.meter pk := by
  cases part with
  | settled => exact le_refl _
  | found => exact le_refl _
  | created => exact meter_insert_le _ _ pk

theorem meter {s next : OzonStore} {w moved : OzonWorker} (pk : Uuid)
    (move : OzonMove input s w next moved) : next.meter pk + moved.submits pk ≤ s.meter pk + w.submits pk := by
  cases move with
  | reads reads =>
    rw [reads_submits pk reads]
    exact Nat.le_add_right _ _
  | calls calls => exact Nat.le_of_eq (calls_meter pk calls)
  | writes _ writes => exact writes_meter pk writes
  | createImport =>
    rw [opened_meter]
    by_cases own : s.nextPk = pk
    · subst own
      rw [OzonWorker.submits, if_pos rfl]
      exact Nat.le_of_eq (meter_insert s _)
    · rw [OzonWorker.submits, if_neg own]
      exact meter_insert_le s _ pk
  | createArchive =>
    rw [opened_meter]
    exact meter_insert_le s _ pk
  | syncCommerce _ _ _ _ _ priced stocked =>
    exact (part_meter pk stocked).trans (part_meter pk priced)

end OzonMove

theorem OzonStore.Fresh.meter_le {s : OzonStore} (fresh : s.Fresh) (pk : Uuid) : s.meter pk ≤ 1 := by
  have none_sent : s.posts pk = 0 := by simp [posts, fresh.history]
  rw [OzonStore.meter, none_sent]
  split <;> simp

def OzonCrew.Metered (c : OzonCrew) : Prop := ∀ pk, c.store.meter pk + c.load (OzonWorker.submits pk) ≤ 1

theorem OzonCrew.Metered.next {c : OzonCrew} (sound : c.Sound) (metered : c.Metered) (a : OzonAction) :
    (c.next a).Metered := by
  intro pk
  refine le_trans ?_ (metered pk)
  apply next_load (fun s => s.meter pk) (OzonWorker.submits pk) sound
  · intro request
    cases request <;> rfl
  · intro input s w next moved _ move
    exact move.meter pk

theorem OzonCrew.run_metered {s : OzonStore} (fresh : s.Fresh) (actions : List OzonAction) :
    Metered (run next s.idle actions) := by
  let inv (c : OzonCrew) : Prop := c.Sound ∧ c.Metered
  have start : inv s.idle := ⟨.idle fresh, fresh.meter_le⟩
  have step : ∀ (c : OzonCrew) (a : OzonAction), inv c → inv (c.next a) :=
    fun c a ⟨sound, metered⟩ => ⟨sound.next a, metered.next sound a⟩
  exact (run_always next step start actions).2

namespace OzonStore

def Refreshed (s : OzonStore) (offer : Uuid) : Prop :=
  ∃ row ∈ s.operations, row.offer = offer ∧ ∃ event ∈ s.history, event.refreshes row.pk = true

instance (s : OzonStore) (offer : Uuid) : Decidable (s.Refreshed offer) :=
  inferInstanceAs (Decidable (∃ row ∈ s.operations, _))

def OneActiveImport (s : OzonStore) : Prop :=
  ∀ a ∈ s.operations, ∀ b ∈ s.operations, a.kind = .productImport → b.kind = .productImport → a.offer = b.offer →
    a.active → b.active → a = b ∨ s.Refreshed a.offer

instance (s : OzonStore) : Decidable s.OneActiveImport :=
  inferInstanceAs (Decidable (∀ a ∈ s.operations, ∀ b ∈ s.operations, _))

variable {s : OzonStore} {offer : Uuid}

theorem Refreshed.written (sound : s.Sound) {rows : OfferRows} (held : s.Holds rows)
    {write : OzonWrite} {now : Instant} (refreshed : s.Refreshed offer) :
    (s.written rows write now).Refreshed offer := by
  obtain ⟨_, mem, rfl, event, happened, known⟩ := refreshed
  obtain ⟨new, new_mem, same⟩ := row_written sound held mem
  exact ⟨new, new_mem, same.offer, event, List.mem_append_left _ happened, same.pk ▸ known⟩

theorem Refreshed.insert (refreshed : s.Refreshed offer) (row : OzonOperation) :
    (s.insert row).Refreshed offer :=
  let ⟨old, mem, same, happened⟩ := refreshed
  ⟨old, List.mem_append_left _ mem, same, happened⟩

theorem Refreshed.record (refreshed : s.Refreshed offer) (events : List OzonEvent) :
    (s.record events).Refreshed offer :=
  let ⟨row, mem, same, event, happened, known⟩ := refreshed
  ⟨row, mem, same, event, List.mem_append_left _ happened, known⟩

theorem OneActiveImport.record (one : s.OneActiveImport) (events : List OzonEvent) :
    (s.record events).OneActiveImport := by
  intro a a_mem b b_mem a_kind b_kind offer a_active b_active
  exact (one a a_mem b b_mem a_kind b_kind offer a_active b_active).imp_right fun refreshed => refreshed.record events

theorem OneActiveImport.insert (one : s.OneActiveImport) {row : OzonOperation}
    (first : row.kind = .productImport → ∀ old ∈ s.operations, old.offer = row.offer → old.kind = .productImport →
      ¬ old.active) : (s.insert row).OneActiveImport := by
  intro a a_mem b b_mem a_kind b_kind offer a_active b_active
  rcases List.mem_append.mp a_mem with a_old | a_last
  · rcases List.mem_append.mp b_mem with b_old | b_last
    · exact (one a a_old b b_old a_kind b_kind offer a_active b_active).imp_right fun refreshed => refreshed.insert row
    · obtain rfl := List.mem_singleton.mp b_last
      exact absurd a_active (first b_kind a a_old offer a_kind)
  · obtain rfl := List.mem_singleton.mp a_last
    rcases List.mem_append.mp b_mem with b_old | b_last
    · exact absurd b_active (first a_kind b b_old offer.symm b_kind)
    · exact .inl (List.mem_singleton.mp b_last).symm

theorem OneActiveImport.written (sound : s.Sound) (one : s.OneActiveImport) {rows : OfferRows}
    (held : s.Holds rows) {write : OzonWrite} {now : Instant}
    (found : rows.operation.kind = .productImport → (write.apply now rows).operation.active →
      rows.operation.active ∨ write = .claimReconciliation true) :
    (s.written rows write now).OneActiveImport := by
  have same := write.apply_same now rows
  have refreshed (again : write = .claimReconciliation true) :
      (s.written rows write now).Refreshed rows.operation.offer := by
    refine ⟨(write.apply now rows).operation, (mem_written held).mpr (.inl rfl), same.offer,
      .terminalRefreshed rows.operation.pk, ?_, ?_⟩
    · simp [again, OzonWrite.events]
    · simp [same.pk, OzonEvent.refreshes]
  -- the written row next to another one of its offer
  have beside {b : OzonOperation} (b_mem : b ∈ s.operations) (other : b.pk ≠ rows.operation.pk)
      (kind : rows.operation.kind = .productImport) (b_kind : b.kind = .productImport)
      (offer : rows.operation.offer = b.offer) (active : (write.apply now rows).operation.active)
      (b_active : b.active) : (s.written rows write now).Refreshed rows.operation.offer := by
    rcases found kind active with before | again
    · rcases one _ held.operation b b_mem kind b_kind offer before b_active with rfl | already
      · exact absurd rfl other
      · exact already.written sound held
    · exact refreshed again
  intro a a_mem b b_mem a_kind b_kind offer a_active b_active
  rcases (mem_written held).mp a_mem with rfl | ⟨a_mem, a_other⟩
  · rcases (mem_written held).mp b_mem with rfl | ⟨b_mem, b_other⟩
    · exact .inl rfl
    · rw [same.offer] at offer ⊢
      exact .inr (beside b_mem b_other (same.kind ▸ a_kind) b_kind offer a_active b_active)
  · rcases (mem_written held).mp b_mem with rfl | ⟨b_mem, b_other⟩
    · rw [same.offer] at offer
      rw [offer]
      exact .inr (beside a_mem a_other (same.kind ▸ b_kind) a_kind offer.symm b_active a_active)
    · exact (one a a_mem b b_mem a_kind b_kind offer a_active b_active).imp_right
        fun already => already.written sound held

end OzonStore

def OzonCrew.InTime (c : OzonCrew) (w : OzonWorker) (_ : OzonInput) : Prop :=
  match w with
  | .answered rows write _ =>
    ∀ row ∈ c.store.operations, row.pk = rows.operation.pk → write.leavesOpen row → row.active
  | _ => True

instance (c : OzonCrew) (w : OzonWorker) (input : OzonInput) : Decidable (c.InTime w input) :=
  match w with
  | .answered _ _ _ => inferInstanceAs (Decidable (∀ row ∈ c.store.operations, _ → _ → _))
  | .requestProductImport .. | .submitProductImport .. | .importProducts .. | .reconcileProductImport ..
  | .getProductImportInfo _ | .getProductInfo _ | .requestProductArchive .. | .submitProductArchive _
  | .zeroStock .. | .archiveProducts .. | .readArchive _ | .reconcileProductArchive _ | .syncOfferCommerce ..
  | .submitCommerce _ | .sendCommerce .. | .done _ => isTrue trivial

namespace OzonMove
open OzonStore

variable {input : OzonInput}

theorem writes_inTime {c : OzonCrew} {w : OzonWorker} {rows : OfferRows} {write : OzonWrite}
    {next : OfferRows → OzonWorker} (sound : c.store.Sound) (placed : w.Placed c.store) (held : c.store.Holds rows)
    (writes : OzonWorker.Writes input c.store w rows.operation write next) (inTime : c.InTime w input)
    (kind : rows.operation.kind = .productImport) (active : (write.apply input.now rows).operation.active) :
    rows.operation.active ∨ write = .claimReconciliation true := by
  rcases writes_active writes with before | ⟨_, -, -, -, again | limit⟩ | ⟨_, _, rfl, here⟩
  · exact .inl before
  · exact .inr again
  · subst limit
    exact absurd active (show ¬ OzonOperationState.active .manualReview by decide)
  · obtain ⟨_, known, has, -⟩ := placed
    have importing := Has.row sound held.operation (here ▸ has)
    rw [kind] at importing
    subst importing
    rcases OzonWrite.apply_active known active with before | opens | again
    · exact .inl before
    · exact .inl (inTime _ held.operation here opens)
    · exact .inr again

theorem part_oneActive {draft : OzonOfferDraft} {kind : OzonOperationKind} {key : String}
    {s next : OzonStore} {result : Option OzonOperation} (part : CommercePart input draft kind key s next result)
    (commerce : kind ≠ .productImport) (one : s.OneActiveImport) : next.OneActiveImport := by
  cases part with
  | settled => exact one
  | found => exact one
  | created => exact one.insert fun importing => absurd importing commerce

theorem oneActive {c : OzonCrew} {w moved : OzonWorker} {next : OzonStore} (sound : c.store.Sound)
    (placed : w.Placed c.store) (move : OzonMove input c.store w next moved) (inTime : c.InTime w input)
    (one : c.store.OneActiveImport) : next.OneActiveImport := by
  cases move with
  | reads => exact one
  | calls => exact one.record _
  | writes held writes => exact one.written sound held (writes_inTime sound placed held writes inTime)
  | createImport _ _ _ _ _ _ _ inactive =>
    exact one.insert fun _ old old_mem offer kind => inactive old old_mem offer kind
  | createArchive => exact one.insert nofun
  | syncCommerce _ _ _ _ _ priced stocked =>
    exact part_oneActive stocked nofun (part_oneActive priced nofun one)

end OzonMove

namespace OzonCrew

theorem next_oneActive {c : OzonCrew} (sound : c.Sound) {a : OzonAction} (allowed : Allowed InTime c a)
    (one : c.store.OneActiveImport) : (c.next a).store.OneActiveImport := by
  have kept : c.Keeps OzonStore.OneActiveImport fun _ _ => True := ⟨one, fun _ _ => trivial⟩
  refine (next_keeps sound kept a (fun _ => trivial) ?_).store
  rintro k _ w _ _ rfl found move
  have placed := sound.workers w (List.mem_of_getElem? found)
  exact ⟨move.oneActive sound.store placed (allowed w found) one, trivial, fun _ _ _ _ _ => trivial⟩

theorem run_oneActive {s : OzonStore} (fresh : s.Fresh) {actions : List OzonAction}
    (allowed : Meets next (Allowed InTime) s.idle actions) : (run next s.idle actions).store.OneActiveImport := by
  let inv (c : OzonCrew) : Prop := c.Sound ∧ c.store.OneActiveImport
  have start : inv s.idle := by
    refine ⟨.idle fresh, fun a mem => ?_⟩
    exact absurd (fresh.operations ▸ mem : a ∈ []) List.not_mem_nil
  have step : ∀ (c : OzonCrew) (a : OzonAction), inv c → Allowed InTime c a → inv (c.next a) :=
    fun c a ⟨sound, one⟩ allowed => ⟨sound.next a, next_oneActive sound allowed one⟩
  exact (run_invariant next step start allowed).2

end OzonCrew

namespace OzonPublication
open OzonStore

variable {row : OzonOperation} {s : OzonStore}

theorem existing?_of_mem (sound : s.Sound) (mem : row ∈ s.operations) :
    s.existing? row.idempotencyKey = some row := by
  cases found : s.existing? row.idempotencyKey with
  | none => exact absurd (List.find?_eq_none.mp found row mem) (by simp)
  | some =>
    obtain ⟨other_mem, same⟩ := existing?_some found
    rw [row_unique sound.keys other_mem mem same]

theorem replay (sound : s.Sound) (mem : row ∈ s.operations) {input : OzonInput}
    (granted : input.account.requireWriteAdmission = .ok ()) :
    (OzonWorker.requestProductImport row.offer row.idempotencyKey).advance input s =
      (s, .done (.ok [row.pk])) := by
  have valid : requireKey row.idempotencyKey 100 = .ok () := by
    obtain ⟨filled, short⟩ := sound.keyed row mem
    simpa [requireKey, raiseIf_ok] using ⟨filled, short⟩
  obtain ⟨draft, offered⟩ : ∃ draft, s.draft? row.offer = some draft := by
    obtain ⟨draft, draft_mem, same⟩ := sound.offered row mem
    exact Option.isSome_iff_exists.mp (List.find?_isSome.mpr ⟨draft, draft_mem, by simp [same]⟩)
  have known := existing?_of_mem sound mem
  have same : row.offer = draft.pk := (draft?_some offered).2.symm
  have made : requestProductImport row.offer row.idempotencyKey input s = .ok (s, .done (.ok [row.pk])) := by
    simp only [requestProductImport, bind_ok, orRaise_ok]
    refine ⟨(), valid, (), granted, draft, offered, ?_⟩
    simp only [known, replayed, bind_ok, raiseIf_ok, pure_ok]
    exact ⟨(), not_not.mpr same, trivial⟩
  rw [OzonWorker.advance, made, OzonWorker.settle]

theorem conflict (sound : s.Sound) (mem : row ∈ s.operations) {offer : Uuid}
    (other : row.offer ≠ offer) (input : OzonInput) :
    ∃ error, (OzonWorker.requestProductImport offer row.idempotencyKey).advance input s =
      (s, .done (.error error)) := by
  have known := existing?_of_mem sound mem
  cases made : requestProductImport offer row.idempotencyKey input s with
  | error error => exact ⟨error, by rw [OzonWorker.advance, made, OzonWorker.settle]⟩
  | ok =>
    exfalso
    simp only [requestProductImport, bind_ok, orRaise_ok] at made
    obtain ⟨_, _, _, _, draft, offered, made⟩ := made
    simp only [known, replayed, bind_ok, raiseIf_ok, not_not] at made
    obtain ⟨_, same, _⟩ := made
    exact other (same.trans (draft?_some offered).2)

end OzonPublication

/-- In every run an import goes out at most once, a key names one operation, a replay returns it and another
offer cannot use it; and when no answer that leaves an import open comes after its end, an offer never has
two active imports. -/
theorem import_submitted_at_most_once {s : OzonStore} (fresh : s.Fresh) (actions : List OzonAction) :
    let c := run OzonCrew.next s.idle actions
    (∀ pk, c.store.posts pk ≤ 1) ∧
      (c.store.operations.map OzonOperation.idempotencyKey).Nodup ∧
      (∀ row ∈ c.store.operations, ∀ input : OzonInput, input.account.requireWriteAdmission = .ok () →
        (OzonWorker.requestProductImport row.offer row.idempotencyKey).advance input c.store =
          (c.store, .done (.ok [row.pk]))) ∧
      (∀ row ∈ c.store.operations, ∀ offer ≠ row.offer, ∀ input : OzonInput, ∃ error,
        (OzonWorker.requestProductImport offer row.idempotencyKey).advance input c.store =
          (c.store, .done (.error error))) ∧
      (Meets OzonCrew.next (OzonCrew.Allowed OzonCrew.InTime) s.idle actions → c.store.OneActiveImport) := by
  intro c
  have sound : c.store.Sound := (OzonCrew.run_sound fresh actions).store
  refine ⟨?_, sound.keys, ?_, ?_, OzonCrew.run_oneActive fresh⟩
  · intro pk
    have few := OzonCrew.run_metered fresh actions pk
    exact ((Nat.le_add_left _ _).trans (Nat.le_add_right _ _)).trans few
  · intro row mem input granted
    exact OzonPublication.replay sound mem granted
  · intro row mem offer other input
    exact OzonPublication.conflict sound mem other.symm input

def lostImport : List OzonAction :=
  [.call (.requestProductImport 7 "first"), .move 0 (.silent 1), .move 0 (.silent 2), .move 0 (.silent 3),
    .move 0 (.silent 4), .call (.reconcileProductImport 7 false), .move 1 (.silent 5)]

theorem lost_import_submitted_once :
    ((run OzonCrew.next (OzonStore.offering [7]).idle lostImport).store.posts 1 ≤ 1) ∧
      (run OzonCrew.next (OzonStore.offering [7]).idle lostImport).store.OneActiveImport := by
  have fresh : (OzonStore.offering [7]).Fresh := by decide
  have timely : Meets OzonCrew.next (OzonCrew.Allowed OzonCrew.InTime) (OzonStore.offering [7]).idle lostImport := by
    decide +kernel
  have once := import_submitted_at_most_once fresh lostImport
  exact ⟨once.1 1, once.2.2.2.2 timely⟩

/-- The first import is still on its way when a check reads the refused card of the offer and finishes it. The
corrected card is sent by a second import, and then the first one gets its answer. -/
def lateAnswer : List OzonAction :=
  [.call (.requestProductImport 7 "first"), .move 0 (.silent 1), .move 0 (.silent 2),
    .call (.reconcileProductImport 7 false), .move 1 (.silent 3),
    .move 1 { OzonInput.silent 4 with productInfo := .ok (some (.moderated "declined")) }, .move 1 (.silent 5),
    .call (.requestProductImport 7 "second"), .move 2 { OzonInput.silent 6 with importItem := .ok "corrected card" },
    .move 0 { OzonInput.silent 7 with importProducts := .ok "task" }, .move 0 (.silent 8)]

theorem late_answer_reopens :
    (OzonStore.offering [7]).Fresh ∧
      ¬ (run OzonCrew.next (OzonStore.offering [7]).idle lateAnswer).store.OneActiveImport := by
  decide +kernel

end MapBackend.Marketplaces
