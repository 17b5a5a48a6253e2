import MapBackend.Library.Runs
import MapBackend.WebResearch.Accounting

/-!
The statuses of a workflow and of its attempts agree after every order of calls.
-/

namespace MapBackend.WebResearch
open MapBackend.Library MapBackend.Core

/-! ## The invariant -/

structure WebSearchAttempt.Formed (a : WebSearchAttempt) : Prop where
  started : a.status = .started → a.reconciliationState ≠ .notRequired
  resolved : a.reconciliationState = .resolved → a.applyState = .applied

structure WebSearchAttempt.Fits (a : WebSearchAttempt) (status : WorkflowStatus) : Prop where
  closed : status.active = false → a.reconciliationState ≠ .pending ∧ a.applyState = .applied
  uncertain : a.status = .outcomeUncertain → a.reconciliationState = .pending → status = .uncertain

def WebSearchWorkflow.domain (w : WebSearchWorkflow) : ℕ × Text × Text := (w.tenant, w.operation, w.domainReference)

structure Sound (s : WebSearchStore) : Prop where
  workflowKeys : (s.workflows.map WebSearchWorkflow.pk).Nodup
  attemptKeys : (s.attempts.map WebSearchAttempt.pk).Nodup
  workflowFresh : ∀ w ∈ s.workflows, w.pk < s.nextWorkflow
  attemptFresh : ∀ a ∈ s.attempts, a.pk < s.nextAttempt ∧ a.workflow < s.nextWorkflow
  formed : ∀ a ∈ s.attempts, a.Formed
  fits : ∀ w ∈ s.workflows, ∀ a ∈ s.attempts, a.workflow = w.pk → a.Fits w.status
  single : ∀ v ∈ s.workflows, ∀ w ∈ s.workflows, v.status.active = true → w.status.active = true → v.domain = w.domain → v.pk = w.pk

structure SameRow (a b : WebSearchAttempt) : Prop where
  pk : b.pk = a.pk
  workflow : b.workflow = a.workflow

theorem SameRow.refl (a : WebSearchAttempt) : SameRow a a := ⟨rfl, rfl⟩

theorem SameRow.trans {a b c : WebSearchAttempt} (first : SameRow a b) (second : SameRow b c) : SameRow a c :=
  ⟨second.pk.trans first.pk, second.workflow.trans first.workflow⟩

def StaysClosed (s next : WebSearchStore) : Prop :=
  ∀ w ∈ s.workflows, w.status.active = false → ∃ later ∈ next.workflows, later.pk = w.pk ∧ later.status.active = false

structure Kept (s next : WebSearchStore) : Prop where
  sound : Sound next
  closed : StaysClosed s next

theorem StaysClosed.refl (s : WebSearchStore) : StaysClosed s s := fun w mem closed => ⟨w, mem, rfl, closed⟩

theorem StaysClosed.trans {s mid next : WebSearchStore} (first : StaysClosed s mid) (second : StaysClosed mid next) :
    StaysClosed s next := by
  intro w mem closed
  obtain ⟨v, there, pk, still⟩ := first w mem closed
  obtain ⟨later, found, same, ends⟩ := second v there still
  exact ⟨later, found, same.trans pk, ends⟩

variable {s : WebSearchStore}

theorem Kept.refl (sound : Sound s) : Kept s s := ⟨sound, .refl s⟩

theorem Kept.trans {s mid next : WebSearchStore} (first : Kept s mid) (second : Kept mid next) : Kept s next :=
  ⟨second.sound, first.closed.trans second.closed⟩

/-! ## Rewriting a workflow with its attempts -/

/-- The rows of one workflow are rewritten; an inactive workflow is not made active. -/
structure Rewritten (s next : WebSearchStore) (w later : WebSearchWorkflow) (f : WebSearchAttempt → WebSearchAttempt) : Prop where
  mem : w ∈ s.workflows
  pk : later.pk = w.pk
  domain : later.domain = w.domain
  active : later.status.active = true → w.status.active = true
  workflows : next.workflows = put WebSearchWorkflow.pk later s.workflows
  attempts : next.attempts = s.attempts.map f
  counters : next.nextWorkflow = s.nextWorkflow ∧ next.nextAttempt = s.nextAttempt
  same : ∀ a ∈ s.attempts, SameRow a (f a)
  own : ∀ a ∈ s.attempts, a.workflow = w.pk → (f a).Formed ∧ (f a).Fits later.status
  other : ∀ a ∈ s.attempts, a.workflow ≠ w.pk → f a = a

theorem Rewritten.kept {s next : WebSearchStore} {w later : WebSearchWorkflow} {f : WebSearchAttempt → WebSearchAttempt}
    (rewritten : Rewritten s next w later f) (sound : Sound s) : Kept s next := by
  have rows : Rewrites SameRow s.attempts next.attempts := ⟨f, rewritten.attempts, rewritten.same⟩
  have row_of (v : WebSearchWorkflow) (there : v ∈ next.workflows) : v = later ∨ v ∈ s.workflows ∧ v.pk ≠ w.pk := by
    rw [rewritten.workflows] at there
    rcases mem_put.mp there with ⟨same, -⟩ | ⟨old, apart⟩
    · exact .inl same
    · exact .inr ⟨old, rewritten.pk ▸ apart⟩
  have attempt_of (a : WebSearchAttempt) (there : a ∈ next.attempts) : ∃ old ∈ s.attempts, f old = a := by
    rw [rewritten.attempts] at there
    exact List.mem_map.mp there
  refine ⟨⟨?_, ?_, fun v there => ?_, fun a there => ?_, fun a there => ?_, fun v there a row own => ?_, ?_⟩, ?_⟩
  · rw [rewritten.workflows, map_key_put]
    exact sound.workflowKeys
  · rw [rows.keys fun _ _ same => same.pk]
    exact sound.attemptKeys
  · rw [rewritten.counters.1]
    rcases row_of v there with rfl | ⟨old, -⟩
    · rw [rewritten.pk]
      exact sound.workflowFresh w rewritten.mem
    · exact sound.workflowFresh v old
  · obtain ⟨old, before, rfl⟩ := attempt_of a there
    have same := rewritten.same old before
    rw [rewritten.counters.1, rewritten.counters.2, same.pk, same.workflow]
    exact sound.attemptFresh old before
  · obtain ⟨old, before, rfl⟩ := attempt_of a there
    by_cases own : old.workflow = w.pk
    · exact (rewritten.own old before own).1
    · rw [rewritten.other old before own]
      exact sound.formed old before
  · obtain ⟨old, before, rfl⟩ := attempt_of a row
    rw [(rewritten.same old before).workflow] at own
    rcases row_of v there with rfl | ⟨known, apart⟩
    · exact (rewritten.own old before (own.trans rewritten.pk)).2
    · rw [rewritten.other old before (own ▸ apart)]
      exact sound.fits v known old before own
  · have was (v : WebSearchWorkflow) (there : v ∈ next.workflows) (active : v.status.active = true) :
        ∃ old ∈ s.workflows, old.status.active = true ∧ old.pk = v.pk ∧ old.domain = v.domain := by
      rcases row_of v there with rfl | ⟨known, -⟩
      · exact ⟨w, rewritten.mem, rewritten.active active, rewritten.pk.symm, rewritten.domain.symm⟩
      · exact ⟨v, known, active, rfl, rfl⟩
    intro u first v second uActive vActive same
    obtain ⟨oldU, memU, activeU, pkU, domainU⟩ := was u first uActive
    obtain ⟨oldV, memV, activeV, pkV, domainV⟩ := was v second vActive
    rw [← pkU, ← pkV]
    exact sound.single oldU memU oldV memV activeU activeV (domainU.trans (same.trans domainV.symm))
  · intro v there closed
    rw [rewritten.workflows]
    by_cases hit : v.pk = later.pk
    · have one : v = w := row_unique sound.workflowKeys there rewritten.mem (hit.trans rewritten.pk)
      refine ⟨later, mem_put.mpr (.inl ⟨rfl, v, there, hit⟩), hit.symm, ?_⟩
      cases active : later.status.active with
      | false => rfl
      | true =>
        rw [one] at closed
        exact (rewritten.active active).symm.trans closed
    · exact ⟨v, mem_put.mpr (.inr ⟨there, hit⟩), rfl, closed⟩

/-! ## Reading rows -/

theorem workflow_some {pk : ℕ} {w : WebSearchWorkflow} (found : s.workflow pk = some w) :
    w ∈ s.workflows ∧ w.pk = pk := ⟨List.mem_of_find?_eq_some found, by simpa using List.find?_some found⟩

theorem attempt_some {pk : ℕ} {a : WebSearchAttempt} (found : s.attempt pk = some a) :
    a ∈ s.attempts ∧ a.pk = pk := ⟨List.mem_of_find?_eq_some found, by simpa using List.find?_some found⟩

theorem mem_attemptsOf {pk : ℕ} {a : WebSearchAttempt} :
    a ∈ s.attemptsOf pk ↔ a ∈ s.attempts ∧ a.workflow = pk := by simp [WebSearchStore.attemptsOf]

namespace WebSearchAttempt

theorem fits_uncertain (a : WebSearchAttempt) : a.Fits .uncertain where
  closed closed := by cases closed
  uncertain _ _ := rfl

variable {a : WebSearchAttempt}

theorem Fits.of_active {status : WorkflowStatus} (active : status.active = true)
    (notPending : a.reconciliationState ≠ .pending) : a.Fits status where
  closed closed := by
    rw [active] at closed
    cases closed
  uncertain _ pending := absurd pending notPending

theorem Formed.of_states (notStarted : a.status ≠ .started)
    (notResolved : a.reconciliationState ≠ .resolved) : a.Formed where
  started started := absurd started notStarted
  resolved resolved := absurd resolved notResolved

theorem Fits.reopen {status later : WorkflowStatus} (fits : a.Fits status)
    (certain : status ≠ .uncertain) (active : later.active = true) : a.Fits later where
  closed closed := by
    rw [active] at closed
    cases closed
  uncertain lost pending := absurd (fits.uncertain lost pending) certain

theorem Fits.active_of_pending {status : WorkflowStatus} (fits : a.Fits status)
    (pending : a.reconciliationState = .pending) : status.active = true := by
  cases active : status.active with
  | true => rfl
  | false => exact absurd pending (fits.closed active).1

end WebSearchAttempt

section Writes

variable {s : WebSearchStore}

theorem Sound.saveWorkflow (sound : Sound s) {w later : WebSearchWorkflow} (mem : w ∈ s.workflows) (pk : later.pk = w.pk)
    (domain : later.domain = w.domain) (active : later.status.active = true → w.status.active = true)
    (fits : ∀ a ∈ s.attempts, a.workflow = w.pk → a.Fits later.status) : Kept s (s.saveWorkflow later) :=
  have rewritten : Rewritten s (s.saveWorkflow later) w later id :=
    { mem, pk, domain, active, workflows := rfl, attempts := (List.map_id _).symm, counters := ⟨rfl, rfl⟩
      same := fun a _ => .refl a
      own := fun a there own => ⟨sound.formed a there, fits a there own⟩
      other := fun _ _ _ => rfl }
  rewritten.kept sound

theorem Sound.saveBoth (sound : Sound s) {w later : WebSearchWorkflow} {a new : WebSearchAttempt} (mem : w ∈ s.workflows)
    (there : a ∈ s.attempts) (own : a.workflow = w.pk) (pk : later.pk = w.pk) (domain : later.domain = w.domain)
    (active : later.status.active = true → w.status.active = true) (same : SameRow a new) (formed : new.Formed)
    (fits : new.Fits later.status) (rest : ∀ row ∈ s.attempts, row.workflow = w.pk → row.Fits later.status) :
    Kept s ((s.saveAttempt new).saveWorkflow later) := by
  have is_a (row : WebSearchAttempt) (known : row ∈ s.attempts) (hit : row.pk = new.pk) : row = a :=
    row_unique sound.attemptKeys known there (hit.trans same.pk)
  have rewritten : Rewritten s ((s.saveAttempt new).saveWorkflow later) w later
      (fun row => if row.pk = new.pk then new else row) :=
    { mem, pk, domain, active, workflows := rfl, attempts := rfl, counters := ⟨rfl, rfl⟩
      same := fun row known => by
        by_cases hit : row.pk = new.pk
        · rw [if_pos hit, is_a row known hit]
          exact same
        · rw [if_neg hit]
          exact .refl row
      own := fun row known mine => by
        by_cases hit : row.pk = new.pk
        · rw [if_pos hit]
          exact ⟨formed, fits⟩
        · rw [if_neg hit]
          exact ⟨sound.formed row known, rest row known mine⟩
      other := fun row known foreign => by
        by_cases hit : row.pk = new.pk
        · rw [is_a row known hit] at foreign
          exact absurd own foreign
        · rw [if_neg hit] }
  exact rewritten.kept sound

variable {w : WebSearchWorkflow} {a : WebSearchAttempt}

theorem Sound.observing (sound : Sound s) (mem : w ∈ s.workflows)
    (there : a ∈ s.attempts) (own : a.workflow = w.pk) : Kept s (s.saveWorkflow (w.observing a)) := by
  unfold WebSearchWorkflow.observing
  split
  next poisoned =>
    have active := (sound.fits w mem a there own).active_of_pending poisoned.2.1
    exact sound.saveWorkflow mem rfl rfl (fun _ => active) fun row _ _ => row.fits_uncertain
  next => exact sound.saveWorkflow mem rfl rfl id fun row known mine => sound.fits w mem row known mine

/-! ## The calls -/

variable {env : AccountingEnv}

theorem Sound.acquire (sound : Sound s) {request : AcquireRequest} {next : WebSearchStore} (step : acquireWebSearchWorkflow env request s = .ok (next, w)) : Kept s next := by
  unfold acquireWebSearchWorkflow at step
  simp only [bind_ok, raiseIf_ok, orRaise_ok] at step
  obtain ⟨_, -, _, -, _, -, _, -, _, -, step⟩ := step
  split at step
  next canonical found =>
    simp only [bind_ok, raiseIf_ok] at step
    obtain ⟨_, -, made⟩ := step
    cases made
    have mem := List.mem_of_find?_eq_some found
    exact sound.saveWorkflow mem rfl rfl id fun a there own => sound.fits canonical mem a there own
  next =>
    simp only [bind_ok, raiseIf_ok] at step
    obtain ⟨_, vacant, made⟩ := step
    cases made
    have none_active (v : WebSearchWorkflow) (there : v ∈ s.workflows) (active : v.status.active = true)
        (same : v.domain = (request.tenant, (env.lower (Url.strip request.operation)).take 50,
          (Url.strip request.domainReference).take 160)) : False := by
      apply vacant
      obtain ⟨tenant, operation, reference⟩ := Prod.mk.inj same |>.imp_right Prod.mk.inj
      exact List.any_eq_true.mpr ⟨v, there, by simp [tenant, operation, reference, active]⟩
    refine ⟨⟨?_, sound.attemptKeys, fun v there => ?_, fun a there => ?_, sound.formed, fun v there a row own => ?_, ?_⟩,
      fun v there closed => ⟨v, List.mem_append_left _ there, rfl, closed⟩⟩
    · rw [List.map_append, List.nodup_append]
      refine ⟨sound.workflowKeys, List.nodup_singleton _, fun k old l new same => ?_⟩
      obtain ⟨v, there, rfl⟩ := List.mem_map.mp old
      have below := sound.workflowFresh v there
      rw [same, List.mem_singleton.mp new] at below
      exact absurd below (lt_irrefl _)
    · rcases List.mem_append.mp there with old | new
      · exact (sound.workflowFresh v old).trans (Nat.lt_succ_self _)
      · rw [List.mem_singleton.mp new]
        exact Nat.lt_succ_self _
    · exact ⟨(sound.attemptFresh a there).1, (sound.attemptFresh a there).2.trans (Nat.lt_succ_self _)⟩
    · rcases List.mem_append.mp there with old | new
      · exact sound.fits v old a row own
      · have below := (sound.attemptFresh a row).2
        rw [own, List.mem_singleton.mp new] at below
        exact absurd below (lt_irrefl _)
    · intro u first v second uActive vActive same
      rcases List.mem_append.mp first with oldU | newU
      · rcases List.mem_append.mp second with oldV | newV
        · exact sound.single u oldU v oldV uActive vActive same
        · rw [List.mem_singleton.mp newV] at same
          exact (none_active u oldU uActive same).elim
      · rcases List.mem_append.mp second with oldV | newV
        · rw [List.mem_singleton.mp newU] at same
          exact (none_active v oldV vActive same.symm).elim
        · rw [List.mem_singleton.mp newU, List.mem_singleton.mp newV]

variable {result : WebSearchAttempt} {attemptId : ℕ}

theorem Sound.markUncertain (sound : Sound s) {errorCode : Text} {next : WebSearchStore} (step : markCheckpointReplayUncertain env attemptId errorCode s = .ok (next, result)) :
    Kept s next := by
  unfold markCheckpointReplayUncertain at step
  simp only [bind_ok, orRaise_ok] at step
  obtain ⟨a, found, w, parent, step⟩ := step
  obtain ⟨there, -⟩ := attempt_some found
  obtain ⟨mem, own⟩ := workflow_some parent
  split at step
  next marks =>
    cases step
    refine sound.saveBoth mem there own.symm rfl rfl (fun _ => marks.2.2.2) ⟨rfl, rfl⟩
      ⟨fun started => ?_, fun resolved => ?_⟩ (WebSearchAttempt.fits_uncertain _) fun row _ _ => row.fits_uncertain
    · cases started
    · cases resolved
  next =>
    cases step
    exact .refl sound

variable {workflowId : ℕ}

theorem Sound.replay (sound : Sound s) {restore : Text → Except Text Text}
    {callKey requestFingerprint : Text} {next : WebSearchStore} {result : Option (Except AccountingError WebSearchExecution)}
    (step : replayRecordedWebSearch env restore workflowId callKey requestFingerprint s = .ok (next, result)) : Kept s next := by
  unfold replayRecordedWebSearch at step
  simp only [bind_ok, orRaise_ok] at step
  obtain ⟨w, found, step⟩ := step
  obtain ⟨mem, -⟩ := workflow_some found
  split at step
  next =>
    cases step
    exact .refl sound
  next a recorded =>
    simp only [bind_ok] at step
    obtain ⟨⟨_, _⟩, restored, made⟩ := step
    cases made
    obtain ⟨there, own⟩ := mem_attemptsOf.mp (List.mem_of_find?_eq_some recorded)
    have observed := sound.observing mem there own
    refine observed.trans ?_
    unfold restoreExecution at restored
    split at restored
    · cases restored
      exact .refl observed.sound
    split at restored
    · split at restored
      · cases restored
        exact .refl observed.sound
      next code =>
        simp only [bind_ok] at restored
        obtain ⟨⟨_, _⟩, done, made⟩ := restored
        cases made
        exact observed.sound.markUncertain done
    · cases restored
      exact .refl observed.sound

theorem finalized_ok (env : AccountingEnv) (f : Finalization) (others : List WebSearchAttempt)
    (pending : a.reconciliationState = .pending) :
    SameRow a (finalized env f others a).1 ∧ (finalized env f others a).1.Formed ∧
      (finalized env f others a).1.Fits (finalized env f others a).2 ∧ (finalized env f others a).2.active = true := by
  cases outcome : f.outcome with
  | success | empty =>
    cases kept : checkpointOf env f.payload with
    | some =>
      simp only [finalized, outcome, kept]
      refine ⟨⟨rfl, rfl⟩, .of_states ?_ ?_, .of_active rfl ?_, rfl⟩
      · simp [WebSearchAttempt.reported, outcome, ProviderOutcome.status]
      · simp
      · simp
    | none =>
      simp only [finalized, outcome, kept]
      refine ⟨⟨rfl, rfl⟩, .of_states ?_ ?_, WebSearchAttempt.fits_uncertain _, rfl⟩
      · simp [WebSearchAttempt.checkpointFailed]
      · simp [WebSearchAttempt.checkpointFailed]
  | outcomeUncertain =>
    simp only [finalized, outcome]
    refine ⟨⟨rfl, rfl⟩, .of_states ?_ ?_, WebSearchAttempt.fits_uncertain _, rfl⟩
    · simp [WebSearchAttempt.reported, outcome, ProviderOutcome.status]
    · simp [WebSearchAttempt.reported, pending]
  | failed =>
    have active : (if waitsForApply others then WorkflowStatus.applyPending else .inProgress).active = true := by
      split <;> rfl
    simp only [finalized, outcome]
    refine ⟨⟨rfl, rfl⟩, .of_states ?_ ?_, .of_active active ?_, active⟩
    · simp [WebSearchAttempt.reported, outcome, ProviderOutcome.status]
    · simp
    · simp

theorem Sound.finalize (sound : Sound s) {f : Finalization} {next : WebSearchStore} (step : finalizeWebSearchAttempt env attemptId f s = .ok (next, result)) : Kept s next := by
  unfold finalizeWebSearchAttempt at step
  simp only [bind_ok, orRaise_ok] at step
  obtain ⟨a, found, w, parent, step⟩ := step
  obtain ⟨there, -⟩ := attempt_some found
  obtain ⟨mem, own⟩ := workflow_some parent
  split at step
  · cases step
    exact .refl sound
  next inFlight =>
    rw [not_or, not_not] at inFlight
    obtain ⟨started, unresolved⟩ := inFlight
    have pending : a.reconciliationState = .pending := by
      have required := (sound.formed a there).started started
      cases state : a.reconciliationState with
      | pending => rfl
      | notRequired => exact absurd state required
      | resolved => exact absurd state unresolved
    have fits := sound.fits w mem a there own.symm
    split at step
    next uncertain =>
      cases step
      have lost : Kept s ((s.saveAttempt (a.ownershipLost env.now)).saveWorkflow w) := by
        refine sound.saveBoth mem there own.symm rfl rfl id ⟨rfl, rfl⟩
          (.of_states ?_ ?_) (uncertain ▸ WebSearchAttempt.fits_uncertain _) fun row known mine => sound.fits w mem row known mine
        · simp [WebSearchAttempt.ownershipLost]
        · simp [WebSearchAttempt.ownershipLost]
      have same : put WebSearchWorkflow.pk w s.workflows = s.workflows := put_self sound.workflowKeys mem
      unfold WebSearchStore.saveWorkflow at lost
      rw [show (s.saveAttempt (a.ownershipLost env.now)).workflows = s.workflows from rfl, same] at lost
      exact lost
    next certain =>
      cases step
      obtain ⟨same, formed, fitted, active⟩ := finalized_ok env f
        ((s.attemptsOf w.pk).filter fun row => !decide (row.pk = a.pk)) pending
      refine sound.saveBoth mem there own.symm rfl rfl (fun _ => fits.active_of_pending pending) same formed fitted ?_
      exact fun row known mine => (sound.fits w mem row known mine).reopen certain active

theorem Sound.acknowledge (sound : Sound s) {consumed : List ℕ} {next : WebSearchStore}
    {result : WebSearchWorkflow} (step : acknowledgeWebSearchWorkflow env workflowId consumed s = .ok (next, result)) :
    Kept s next := by
  unfold acknowledgeWebSearchWorkflow at step
  simp only [bind_ok, orRaise_ok, raiseIf_ok] at step
  obtain ⟨w, found, _, -, _, -, step⟩ := step
  obtain ⟨mem, -⟩ := workflow_some found
  split at step
  · cases step
    exact .refl sound
  next =>
    simp only [bind_ok, raiseIf_ok] at step
    obtain ⟨_, -, _, settled, made⟩ := step
    cases made
    have is_own (row : WebSearchAttempt) (known : row ∈ s.attempts) :
        ((s.attemptsOf w.pk).map WebSearchAttempt.pk).contains row.pk = true ↔ row.workflow = w.pk := by
      rw [List.contains_iff_mem, List.mem_map]
      constructor
      · rintro ⟨other, there, same⟩
        obtain ⟨listed, own⟩ := mem_attemptsOf.mp there
        rw [← row_unique sound.attemptKeys listed known same]
        exact own
      · exact fun own => ⟨row, mem_attemptsOf.mpr ⟨known, own⟩, rfl⟩
    have rewritten : Rewritten s ((s.updateAttempts (fun row => ((s.attemptsOf w.pk).map WebSearchAttempt.pk).contains row.pk)
          fun row => row.applied env.now).saveWorkflow w.closed) w w.closed fun row =>
        if ((s.attemptsOf w.pk).map WebSearchAttempt.pk).contains row.pk then row.applied env.now else row :=
      { mem, pk := rfl, domain := rfl, active := fun closed => by cases closed
        workflows := rfl, attempts := rfl, counters := ⟨rfl, rfl⟩
        same := fun row _ => by
          split
          · exact ⟨rfl, rfl⟩
          · exact .refl row
        own := fun row known own => by
          rw [if_pos ((is_own row known).mpr own)]
          have certain : row.reconciliationState ≠ .pending := by
            intro pending
            exact settled (List.any_eq_true.mpr ⟨row, mem_attemptsOf.mpr ⟨known, own⟩, by simp [pending]⟩)
          have formed := sound.formed row known
          exact ⟨⟨formed.started, fun _ => rfl⟩, ⟨fun _ => ⟨certain, rfl⟩, fun _ pending => absurd pending certain⟩⟩
        other := fun row known foreign => if_neg fun own => foreign ((is_own row known).mp own) }
    exact rewritten.kept sound

theorem Sound.release (sound : Sound s) {next : WebSearchStore} {result : WebSearchWorkflow}
    (step : releaseEmptyWebSearchWorkflow workflowId s = .ok (next, result)) : Kept s next := by
  unfold releaseEmptyWebSearchWorkflow at step
  simp only [bind_ok, orRaise_ok, raiseIf_ok] at step
  obtain ⟨w, found, _, unused, step⟩ := step
  obtain ⟨mem, -⟩ := workflow_some found
  split at step
  · cases step
    exact .refl sound
  next =>
    simp only [bind_ok, raiseIf_ok] at step
    obtain ⟨_, -, made⟩ := step
    cases made
    refine sound.saveWorkflow mem rfl rfl (fun closed => by cases closed) fun row known own => ?_
    have none : s.attemptsOf w.pk = [] := by simpa using unused
    have there := mem_attemptsOf.mpr ⟨known, own⟩
    rw [none] at there
    cases there

theorem resettled_fits {action : ReconciliationAction} {attempts : List WebSearchAttempt} (mem : a ∈ attempts) (formed : a.Formed) : a.Fits (w.resettled action attempts).status := by
  unfold WebSearchWorkflow.resettled
  split
  next done =>
    have resolved : a.unresolved = false := by
      by_contra open_
      rw [Bool.not_eq_false] at open_
      exact Bool.false_ne_true (done.symm.trans (List.any_eq_true.mpr ⟨a, mem, open_⟩))
    by_cases state : a.reconciliationState = .resolved
    · refine ⟨fun _ => ⟨?_, formed.resolved state⟩, fun _ pending => ?_⟩
      · rw [state]
        decide
      · cases state.symm.trans pending
    · have parts : (a.status ≠ .started ∧ a.status ≠ .outcomeUncertain) ∧
          a.reconciliationState ≠ .pending ∧ a.applyState ≠ .pending := by
        simpa [WebSearchAttempt.unresolved, state, and_assoc] using resolved
      refine ⟨fun _ => ⟨parts.2.1, ?_⟩, fun _ pending => absurd pending parts.2.1⟩
      cases apply_ : a.applyState with
      | applied => rfl
      | pending => exact absurd apply_ parts.2.2
  next =>
    dsimp only
    split
    next => exact a.fits_uncertain
    next settled =>
      refine .of_active ?_ fun pending => settled (List.any_eq_true.mpr ⟨a, mem, by simp [pending]⟩)
      split <;> rfl

theorem resettled_same (w : WebSearchWorkflow) (action : ReconciliationAction) (attempts : List WebSearchAttempt) :
    (w.resettled action attempts).pk = w.pk ∧ (w.resettled action attempts).domain = w.domain := by
  unfold WebSearchWorkflow.resettled
  split <;> exact ⟨rfl, rfl⟩

theorem Sound.resolve (sound : Sound s) {action : ReconciliationAction} {note : Text}
    {next : WebSearchStore}
    (step : resolveWebSearchAttempt env attemptId action note s = .ok (next, result)) : Kept s next := by
  unfold resolveWebSearchAttempt at step
  simp only [bind_ok, orRaise_ok, raiseIf_ok] at step
  obtain ⟨_, -, a, found, w, parent, step⟩ := step
  obtain ⟨there, -⟩ := attempt_some found
  obtain ⟨mem, own⟩ := workflow_some parent
  split at step
  · simp only [bind_ok, raiseIf_ok] at step
    obtain ⟨_, -, made⟩ := step
    cases made
    exact .refl sound
  next =>
    simp only [bind_ok, raiseIf_ok] at step
    obtain ⟨_, pending, _, -, _, -, made⟩ := step
    rw [not_not] at pending
    cases made
    -- The decision is written first, then the rejected attempts of the workflow are applied with it.
    let decide_ : WebSearchAttempt → WebSearchAttempt := fun row =>
      if row.pk = (a.decided action env.now).pk then a.decided action env.now else row
    let apply_ : WebSearchAttempt → WebSearchAttempt := fun row =>
      if decide (row.workflow = w.pk) && row.rejected then row.applied env.now else row
    have decided (row : WebSearchAttempt) (known : row ∈ s.attempts) : SameRow row (decide_ row) ∧ (decide_ row).Formed := by
      by_cases hit : row.pk = a.pk
      · have is_a : row = a := row_unique sound.attemptKeys known there hit
        have made : decide_ row = a.decided action env.now := if_pos hit
        rw [made, is_a]
        exact ⟨⟨rfl, rfl⟩, ⟨fun _ => by simp [WebSearchAttempt.decided], fun _ => rfl⟩⟩
      · have made : decide_ row = row := if_neg hit
        rw [made]
        exact ⟨.refl row, sound.formed row known⟩
    have applied (row : WebSearchAttempt) (formed : row.Formed) : SameRow row (apply_ row) ∧ (apply_ row).Formed := by
      dsimp only [apply_]
      split
      · exact ⟨⟨rfl, rfl⟩, ⟨formed.started, fun _ => rfl⟩⟩
      · exact ⟨.refl row, formed⟩
    let decidedStore := (s.saveAttempt (a.decided action env.now)).updateAttempts
      (fun row => decide (row.workflow = w.pk) && row.rejected) fun row => row.applied env.now
    let later := w.resettled action (decidedStore.attemptsOf w.pk)
    have rewritten : Rewritten s (decidedStore.saveWorkflow later) w later (apply_ ∘ decide_) :=
      { mem, pk := (resettled_same w action _).1, domain := (resettled_same w action _).2
        active := fun _ => (sound.fits w mem a there own.symm).active_of_pending pending
        workflows := rfl, attempts := List.map_map, counters := ⟨rfl, rfl⟩
        same := fun row known =>
          (decided row known).1.trans (applied _ (decided row known).2).1
        own := fun row known mine => by
          have last := applied _ (decided row known).2
          have still : (apply_ (decide_ row)).workflow = w.pk :=
            ((decided row known).1.trans last.1).workflow.trans mine
          refine ⟨last.2, resettled_fits ?_ last.2⟩
          exact mem_attemptsOf.mpr ⟨List.mem_map_of_mem (List.mem_map_of_mem known), still⟩
        other := fun row known foreign => by
          have miss : row.pk ≠ a.pk := by
            intro hit
            rw [row_unique sound.attemptKeys known there hit] at foreign
            exact foreign own.symm
          have same : decide_ row = row := if_neg miss
          rw [Function.comp_apply, same]
          exact if_neg (by simp [foreign]) }
    exact rewritten.kept sound

theorem Sound.operate (sound : Sound s) (env : AccountingEnv) (operation : WorkflowOperation) : Kept s (s.operate env operation) := by
  cases operation with
  | acquire => exact commit_relates Kept _ _ (.refl sound) fun _ _ step => sound.acquire step
  | replay => exact commit_relates Kept _ _ (.refl sound) fun _ _ step => sound.replay step
  | markUncertain => exact commit_relates Kept _ _ (.refl sound) fun _ _ step => sound.markUncertain step
  | finalize => exact commit_relates Kept _ _ (.refl sound) fun _ _ step => sound.finalize step
  | acknowledge => exact commit_relates Kept _ _ (.refl sound) fun _ _ step => sound.acknowledge step
  | releaseEmpty => exact commit_relates Kept _ _ (.refl sound) fun _ _ step => sound.release step
  | resolve => exact commit_relates Kept _ _ (.refl sound) fun _ _ step => sound.resolve step

/-! ## Reservations -/

variable {call : SearchCall}

theorem Sound.admit (sound : Sound s) {next : WebSearchStore} {admission : Admission}
    (step : admitCall env call s = .ok (next, admission)) :
    Kept s next ∧ ∀ w, admission = .fresh w → next = s ∧ w ∈ s.workflows ∧ w.status.isOpen = true := by
  unfold admitCall at step
  simp only [bind_ok, orRaise_ok, raiseIf_ok] at step
  obtain ⟨_, -, _, -, _, found, step⟩ := step
  obtain ⟨mem, -⟩ := workflow_some found
  split at step
  next existing recorded =>
    simp only [bind_ok, raiseIf_ok] at step
    obtain ⟨_, -, made⟩ := step
    cases made
    obtain ⟨there, own⟩ := mem_attemptsOf.mp (List.mem_of_find?_eq_some recorded)
    exact ⟨sound.observing mem there own, fun w fresh => by cases fresh⟩
  next =>
    simp only [bind_ok, raiseIf_ok] at step
    obtain ⟨_, opened, _, -, made⟩ := step
    cases made
    refine ⟨.refl sound, fun w fresh => ?_⟩
    cases fresh
    exact ⟨rfl, mem, by simpa using opened⟩

theorem Sound.create (sound : Sound s) {createdAt : Instant}
    (mem : w ∈ s.workflows) (opened : w.status.isOpen = true) :
    Sound (s.create (call.newAttempt env w s.nextAttempt createdAt)) := by
  have active : w.status.active = true := by
    cases status : w.status <;> rw [status] at opened <;> first | rfl | cases opened
  have member {a : WebSearchAttempt} (there : a ∈ (s.create (call.newAttempt env w s.nextAttempt createdAt)).attempts) :
      a ∈ s.attempts ∨ a = call.newAttempt env w s.nextAttempt createdAt :=
    (List.mem_append.mp there).imp_right List.mem_singleton.mp
  refine ⟨sound.workflowKeys, ?_, sound.workflowFresh, fun a there => ?_, fun a there => ?_, fun v known a there own => ?_, sound.single⟩
  · rw [WebSearchStore.create, List.map_append, List.nodup_append]
    refine ⟨sound.attemptKeys, List.nodup_singleton _, fun k old l new same => ?_⟩
    obtain ⟨a, there, rfl⟩ := List.mem_map.mp old
    have below := (sound.attemptFresh a there).1
    rw [same, List.mem_singleton.mp new] at below
    exact absurd below (lt_irrefl _)
  · rcases member there with old | rfl
    · exact ⟨(sound.attemptFresh a old).1.trans (Nat.lt_succ_self _), (sound.attemptFresh a old).2⟩
    · exact ⟨Nat.lt_succ_self _, sound.workflowFresh w mem⟩
  · rcases member there with old | rfl
    · exact sound.formed a old
    · exact ⟨fun _ => by simp [SearchCall.newAttempt], fun resolved => by cases resolved⟩
  · rcases member there with old | rfl
    · exact sound.fits v known a old own
    · have is_w : w = v := row_unique sound.workflowKeys mem known own
      rw [← is_w]
      refine ⟨fun closed => ?_, fun lost => by cases lost⟩
      rw [active] at closed
      cases closed

theorem Sound.reserve (sound : Sound s) {settings : SearchSettings} {createdAt : Instant}
    {isActive : Bool} {next : WebSearchStore} {result : WebSearchAttempt × Bool}
    (step : reserveWebSearchAttempt env settings call createdAt isActive s = .ok (next, result)) :
    Sound next ∧ StaysClosed s next := by
  unfold reserveWebSearchAttempt at step
  simp only [bind_ok] at step
  obtain ⟨⟨_, admission⟩, admitted, step⟩ := step
  obtain ⟨kept, fresh⟩ := sound.admit admitted
  cases admission with
  | existing =>
    cases step
    exact ⟨kept.sound, kept.closed⟩
  | fresh w =>
    obtain ⟨rfl, mem, opened⟩ := fresh w rfl
    simp only [bind_ok, raiseIf_ok] at step
    obtain ⟨_, -, _, -, _, -, made⟩ := step
    cases made
    exact ⟨sound.create mem opened, .refl _⟩

theorem Sound.next (sound : Sound s) (settings : SearchSettings) (action : AccountingAction) :
    Sound (s.next settings action) ∧ StaysClosed s (s.next settings action) := by
  cases action with
  | operation env operation =>
    have kept := sound.operate env operation
    exact ⟨kept.sound, kept.closed⟩
  | reserve =>
    exact commit_relates (fun s next => Sound next ∧ StaysClosed s next) _ _ ⟨sound, .refl s⟩ fun _ _ step => sound.reserve step

end Writes

/-! ## Runs -/

structure WebSearchStore.Consistent (s : WebSearchStore) : Prop where
  closed : ∀ w ∈ s.workflows, w.status = .applied ∨ w.status = .reconciled →
    ∀ a ∈ s.attemptsOf w.pk, a.reconciliationState ≠ .pending ∧ a.applyState = .applied
  uncertain : ∀ w ∈ s.workflows, ∀ a ∈ s.attemptsOf w.pk,
    a.status = .outcomeUncertain → a.reconciliationState = .pending → w.status = .uncertain
  single : ∀ v ∈ s.workflows, ∀ w ∈ s.workflows, v.status.active = true → w.status.active = true →
    v.tenant = w.tenant → v.operation = w.operation → v.domainReference = w.domainReference → v = w

theorem Sound.consistent (sound : Sound s) : s.Consistent where
  closed w mem closed a there := by
    obtain ⟨known, own⟩ := mem_attemptsOf.mp there
    have inactive : w.status.active = false := by rcases closed with status | status <;> rw [status] <;> rfl
    exact (sound.fits w mem a known own).closed inactive
  uncertain w mem a there := by
    obtain ⟨known, own⟩ := mem_attemptsOf.mp there
    exact (sound.fits w mem a known own).uncertain
  single v memV w memW activeV activeW tenant operation reference := by
    have domain : v.domain = w.domain := by rw [WebSearchWorkflow.domain, tenant, operation, reference, WebSearchWorkflow.domain]
    exact row_unique sound.workflowKeys memV memW (sound.single v memV w memW activeV activeW domain)

theorem start_sound : Sound .start where
  workflowKeys := List.nodup_nil
  attemptKeys := List.nodup_nil
  workflowFresh _ mem := by cases mem
  attemptFresh _ mem := by cases mem
  formed _ mem := by cases mem
  fits _ mem := by cases mem
  single _ mem := by cases mem

theorem run_sound (settings : SearchSettings) (actions : List AccountingAction) (sound : Sound s) :
    Sound (run (WebSearchStore.next settings) s actions) :=
  run_always (WebSearchStore.next settings) (fun _ action sound => (sound.next settings action).1) sound actions

theorem run_closed (settings : SearchSettings) (actions : List AccountingAction) (sound : Sound s) :
    StaysClosed s (run (WebSearchStore.next settings) s actions) :=
  @run_relates _ _ (WebSearchStore.next settings) StaysClosed .refl (fun _ _ _ => StaysClosed.trans) Sound
    (fun _ action sound => (sound.next settings action).1) (fun _ action sound => (sound.next settings action).2) _ sound actions

/-- After every order of calls the statuses agree, and a workflow that is closed is not active in any later state. -/
theorem workflows_consistent (settings : SearchSettings) (actions later : List AccountingAction) :
    let s := run (WebSearchStore.next settings) .start actions
    s.Consistent ∧ ∀ w ∈ s.workflows, w.status.active = false →
      ∀ v ∈ (run (WebSearchStore.next settings) s later).workflows, v.pk = w.pk → v.status.active = false := by
  have sound := run_sound settings actions start_sound
  refine ⟨sound.consistent, fun w mem closed v there same => ?_⟩
  obtain ⟨u, known, pk, ends⟩ := run_closed settings later sound w mem closed
  have is_u : v = u := row_unique (run_sound settings later sound).workflowKeys there known (same.trans pk.symm)
  exact is_u ▸ ends

end MapBackend.WebResearch
