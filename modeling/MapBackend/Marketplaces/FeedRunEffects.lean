import MapBackend.Marketplaces.FeedRunEvents

/-!
What one operation of the feed workflow can do to the runs of the account, said once for
every operation: a run keeps its row or moves on by one revision, and who may move it how.
-/

namespace MapBackend.Marketplaces
open MapBackend.Library FeedWorkflow

def MarketplaceFeedRun.crossed (run : MarketplaceFeedRun) : Prop :=
  run.submittedAt ≠ none ∨ run.providerRunId ≠ none

def MarketplaceFeedRun.unresolved (run : MarketplaceFeedRun) : Prop := run.crossed ∧ run.owns

structure MarketplaceFeedRun.Pristine (run : MarketplaceFeedRun) : Prop where
  submittedAt : run.submittedAt = none
  providerRunId : run.providerRunId = none

structure FeedStore.Ordered (s : FeedStore) : Prop where
  rows : FeedRunConstraints s.runs
  named : ∀ run ∈ s.runs, run.providerRunId ≠ some ""

/-- One committed transition of a run: was it made under the claim of the run, was it the verdict
of an operator that the provider did not accept the submission. -/
structure RunStep (held reviewed : Prop) (old new : MarketplaceFeedRun) : Prop where
  pk : new.pk = old.pk
  revision : new.revision = old.revision + 1
  named : new.providerRunId ≠ some ""
  withdrawn : ¬ held → new.state ∈ FeedRunState.withdrawnStates → ¬ old.crossed
  unresolved : ¬ held → ¬ reviewed → old.unresolved → new.unresolved

theorem RunStep.weaken {held wider reviewed wider' : Prop} (imp : held → wider) (imp' : reviewed → wider')
    {old new : MarketplaceFeedRun} (step : RunStep held reviewed old new) : RunStep wider wider' old new where
  pk := step.pk
  revision := step.revision
  named := step.named
  withdrawn unheld := step.withdrawn (unheld ∘ imp)
  unresolved unheld unreviewed := step.unresolved (unheld ∘ imp) (unreviewed ∘ imp')

theorem RunStep.underClaim {old new : MarketplaceFeedRun} (pk : new.pk = old.pk)
    (revision : new.revision = old.revision + 1) (named : new.providerRunId ≠ some "") :
    RunStep True False old new :=
  ⟨pk, revision, named, fun unheld => absurd trivial unheld, fun unheld => absurd trivial unheld⟩

/-- A move of an owner of the account that neither counts outcomes nor ends it as succeeded. -/
structure KeepsOutcome (old new : MarketplaceFeedRun) : Prop where
  pk : new.pk = old.pk
  tenant : new.tenant = old.tenant
  total : new.totalCount = old.totalCount
  published : new.publishedCount = old.publishedCount
  rejected : new.rejectedCount = old.rejectedCount
  pending : new.pendingCount = old.pendingCount
  unfinished : new.state ≠ .succeeded
  owner : old.owns
  report : new.reportPage = old.reportPage ∨ new.reportPage = 1

structure Quiet (s t : FeedStore) : Prop where
  listings : t.listings = s.listings
  syncLog : t.syncLog = s.syncLog
  otherRuns : t.otherRuns = s.otherRuns
  runs : Evolves MarketplaceFeedRun.pk KeepsOutcome (fun _ => False) s.runs t.runs

theorem Quiet.refl (s : FeedStore) : Quiet s s := ⟨rfl, rfl, rfl, Evolves.refl s.runs⟩

structure Moved (held reviewed : Prop) (run : MarketplaceFeedRun) (s t : FeedStore) : Prop where
  mem : run ∈ s.runs
  step : ∃ new, RunStep held reviewed run new ∧ t.runs = put MarketplaceFeedRun.pk new s.runs
  rows : FeedRunConstraints t.runs

/-- A write of one run that counts no outcomes. -/
structure Wrote (held reviewed : Prop) (run : MarketplaceFeedRun) (s t : FeedStore) : Prop where
  mem : run ∈ s.runs
  step : ∃ new, RunStep held reviewed run new ∧ KeepsOutcome run new ∧ updateRun s new = .ok t

/-- A transaction without a claim or a verdict: nothing happened, or it wrote one run. -/
def Unheld (s t : FeedStore) : Prop := t = s ∨ ∃ run, Wrote False False run s t

def Transition (claim : FeedRunClaim) (now : Instant) (s t : FeedStore) : Prop :=
  ∃ run, claim.Fences run now ∧ Moved True False run s t

/-- A transition of the claimed run that counts no outcomes. -/
def Committed (claim : FeedRunClaim) (now : Instant) (s t : FeedStore) : Prop :=
  ∃ run, claim.Fences run now ∧ Wrote True False run s t

def Issued (claim : FeedRunClaim) (t : FeedStore) : Prop :=
  ∃ run ∈ t.runs, run.pk = claim.runId ∧ run.revision = claim.revision ∧ run.claimToken = some claim.claimToken

/-- What a transaction did to the runs, given which of them it held the claim of or judged. -/
structure Moves (holds reviews : MarketplaceFeedRun → Prop) (s t : FeedStore) : Prop where
  rows : FeedRunConstraints t.runs
  evolves : Evolves MarketplaceFeedRun.pk (fun old new => RunStep (holds old) (reviews old) old new)
    MarketplaceFeedRun.Pristine s.runs t.runs

section Moves

variable {holds reviews : MarketplaceFeedRun → Prop} {held reviewed : Prop} {run : MarketplaceFeedRun}
  {s t : FeedStore}

theorem Moves.same (ordered : s.Ordered) (same : t.runs = s.runs) : Moves holds reviews s t :=
  ⟨same ▸ ordered.rows, by rw [same]; exact Evolves.refl s.runs⟩

theorem Moved.moves (ordered : s.Ordered) (imp : held → holds run) (imp' : reviewed → reviews run)
    (moved : Moved held reviewed run s t) : Moves holds reviews s t := by
  obtain ⟨_, step, runs⟩ := moved.step
  exact ⟨moved.rows, runs ▸ Evolves.put ordered.rows.keys moved.mem step.pk (step.weaken imp imp')⟩

theorem Moved.congr {s' t' : FeedStore} (moved : Moved held reviewed run s t) (before : s'.runs = s.runs)
    (after : t'.runs = t.runs) : Moved held reviewed run s' t' := by
  refine ⟨before ▸ moved.mem, ?_, after ▸ moved.rows⟩
  rw [before, after]
  exact moved.step

theorem Moves.ordered (ordered : s.Ordered) (moves : Moves holds reviews s t) : t.Ordered where
  rows := moves.rows
  named new mem := by
    rcases moves.evolves.source new mem with ⟨pristine, -⟩ | ⟨_, old_mem, rfl | step⟩
    · simp [pristine.providerRunId]
    · exact ordered.named new old_mem
    · exact step.named

end Moves

theorem not_withdrawn_of_active {state : FeedRunState} :
    state ∈ FeedRunState.activeStates → state ∉ FeedRunState.withdrawnStates := by
  cases state <;> decide

section Writes

variable {s t : FeedStore} {run new : MarketplaceFeedRun} {now : Instant} {state safeState : FeedRunState}

theorem writeRuns_ok {runs : List MarketplaceFeedRun} :
    writeRuns s runs = .ok t ↔ FeedRunConstraints runs ∧ t = { s with runs } := by
  unfold writeRuns
  split
  next accepted => simp [accepted, eq_comm]
  next rejected => simp [rejected]

theorem updateRun_ok :
    updateRun s run = .ok t ↔ FeedRunConstraints (put MarketplaceFeedRun.pk run s.runs) ∧
      t = { s with runs := put MarketplaceFeedRun.pk run s.runs } := writeRuns_ok

theorem updateRun_moved {held reviewed : Prop} (written : updateRun s new = .ok t) (mem : run ∈ s.runs)
    (step : RunStep held reviewed run new) : Moved held reviewed run s t := by
  obtain ⟨rows, rfl⟩ := updateRun_ok.mp written
  exact ⟨mem, ⟨new, step, rfl⟩, rows⟩

theorem updateRun_quiet (written : updateRun s new = .ok t) (ordered : s.Ordered) (mem : run ∈ s.runs)
    (keeps : KeepsOutcome run new) : Quiet s t := by
  obtain ⟨-, rfl⟩ := updateRun_ok.mp written
  exact ⟨rfl, rfl, rfl, Evolves.put ordered.rows.keys mem keeps.pk keeps⟩

section Wrote

variable {held reviewed : Prop}

theorem updateRun_wrote (written : updateRun s new = .ok t) (mem : run ∈ s.runs) (step : RunStep held reviewed run new)
    (keeps : KeepsOutcome run new) : Wrote held reviewed run s t := ⟨mem, new, step, keeps, written⟩

theorem Wrote.moved (wrote : Wrote held reviewed run s t) : Moved held reviewed run s t :=
  let ⟨_, step, _, written⟩ := wrote.step
  updateRun_moved written wrote.mem step

theorem Wrote.quiet (ordered : s.Ordered) (wrote : Wrote held reviewed run s t) : Quiet s t :=
  let ⟨_, _, keeps, written⟩ := wrote.step
  updateRun_quiet written ordered wrote.mem keeps

theorem Wrote.weaken {wider : Prop} (imp : held → wider) (wrote : Wrote held reviewed run s t) :
    Wrote wider reviewed run s t :=
  ⟨wrote.mem, wrote.step.imp fun _ ⟨step, kept⟩ => ⟨step.weaken imp id, kept⟩⟩

theorem Unheld.moves {holds reviews : MarketplaceFeedRun → Prop} (ordered : s.Ordered) (unheld : Unheld s t) :
    Moves holds reviews s t := by
  rcases unheld with rfl | ⟨_, wrote⟩
  · exact .same ordered rfl
  · exact wrote.moved.moves ordered False.elim False.elim

theorem Unheld.quiet (ordered : s.Ordered) (unheld : Unheld s t) : Quiet s t := by
  rcases unheld with rfl | ⟨_, wrote⟩
  · exact .refl _
  · exact wrote.quiet ordered

variable {claim : FeedRunClaim}

theorem Committed.transition (committed : Committed claim now s t) : Transition claim now s t :=
  committed.imp fun _ ⟨fences, wrote⟩ => ⟨fences, wrote.moved⟩

theorem Committed.quiet (ordered : s.Ordered) (committed : Committed claim now s t) : Quiet s t :=
  let ⟨_, _, wrote⟩ := committed
  wrote.quiet ordered

end Wrote

theorem owns_of_active (active : run.state ∈ FeedRunState.activeStates) : run.owns :=
  List.mem_append_left _ active

theorem not_succeeded_of_active (active : run.state ∈ FeedRunState.activeStates) : run.state ≠ .succeeded := by
  rintro succeeded
  exact absurd (succeeded ▸ active) (by decide)

theorem owns_of_not_terminal (open' : ¬ run.terminal) : run.owns := by
  revert open'
  unfold MarketplaceFeedRun.terminal MarketplaceFeedRun.owns
  cases run.state <;> decide

theorem findRun_mem {runId : Uuid} (found : findRun s runId = some run) : run ∈ s.runs :=
  List.mem_of_find?_eq_some found

theorem not_crossed_of_proven (named : run.providerRunId ≠ some "") (proven : hasProvenNoSubmission run) :
    ¬ run.crossed := by
  obtain ⟨-, unsubmitted, blank⟩ := proven
  intro crossed
  cases identity : run.providerRunId with
  | none => exact crossed.elim (fun h => h unsubmitted) (fun h => h identity)
  | some text =>
    have empty : text = "" := by simpa [identity] using blank
    exact named (empty ▸ identity)

theorem fenceInvalidOwnerLocked_wrote (ordered : s.Ordered) (mem : run ∈ s.runs)
    (unfinished : safeState ≠ .succeeded) (fenced : fenceInvalidOwnerLocked s run safeState now = .ok t) :
    t = s ∨ Wrote False False run s t := by
  unfold fenceInvalidOwnerLocked terminalizeLocked at fenced
  have named := ordered.named run mem
  split at fenced
  next proven =>
    have uncrossed := not_crossed_of_proven named proven
    split at fenced
    · exact .inl (by simpa [eq_comm] using fenced)
    next open' =>
      refine .inr (updateRun_wrote fenced mem ⟨rfl, rfl, named, fun _ _ => uncrossed, fun _ _ unresolved => ?_⟩ ?_)
      · exact absurd unresolved.1 uncrossed
      · exact ⟨rfl, rfl, rfl, rfl, rfl, rfl, unfinished, owns_of_not_terminal open', .inl rfl⟩
  next =>
    split at fenced
    · exact .inl (by simpa [eq_comm] using fenced)
    next open' =>
      refine .inr (updateRun_wrote fenced mem ⟨rfl, rfl, named, fun _ withdrawn => ?_, fun _ _ unresolved => ?_⟩ ?_)
      · simp [FeedRunState.withdrawnStates] at withdrawn
      · exact ⟨unresolved.1, by simp [MarketplaceFeedRun.owns, FeedRunState.ownershipStates]⟩
      · exact ⟨rfl, rfl, rfl, rfl, rfl, rfl, by simp, owns_of_not_terminal open', .inl rfl⟩

theorem fenceInvalidOwnerLocked_unheld (ordered : s.Ordered) (mem : run ∈ s.runs)
    (unfinished : safeState ≠ .succeeded) (fenced : fenceInvalidOwnerLocked s run safeState now = .ok t) :
    Unheld s t :=
  (fenceInvalidOwnerLocked_wrote ordered mem unfinished fenced).imp_right fun wrote => ⟨run, wrote⟩

theorem terminalizeLocked_unheld (ordered : s.Ordered) (mem : run ∈ s.runs) (unfinished : state ≠ .succeeded)
    (proven : hasProvenNoSubmission run) (closed : terminalizeLocked s run state now = .ok t) : Unheld s t := by
  have fenced : fenceInvalidOwnerLocked s run state now = .ok t := by
    rw [fenceInvalidOwnerLocked, if_pos proven, closed]
  exact fenceInvalidOwnerLocked_unheld ordered mem unfinished fenced

theorem ownerFence_unfinished {account : MarketplaceAccount}
    (fence : ownerFence account run = some safeState) : safeState ≠ .succeeded := by
  unfold ownerFence at fence
  split at fence
  · cases fence
    decide
  · split at fence <;> cases fence
    decide

end Writes

section Unclaimed

variable {s t : FeedStore} {now : Instant}

variable {accountId : ℕ}

theorem fenceAccountFeedRuns_unheld {safeState : FeedRunState} {policy : SubmittedPolicy}
    {fenced : Option Uuid} (ordered : s.Ordered)
    (step : fenceAccountFeedRunsForOwnerChange accountId safeState policy now s = .ok (t, fenced)) :
    Unheld s t := by
  simp only [fenceAccountFeedRunsForOwnerChange, bind_ok, raiseIf_ok, orRaise_ok, not_not] at step
  obtain ⟨_, withdrawn, _, -, step⟩ := step
  have unfinished : safeState ≠ .succeeded := by
    rintro rfl
    exact absurd withdrawn (by decide)
  split at step
  next =>
    cases step
    exact .inl rfl
  next run found =>
    have mem := List.mem_of_find?_eq_some found
    split at step
    next proven =>
      obtain ⟨next, closed, step⟩ := bind_ok.mp step
      cases step
      exact terminalizeLocked_unheld ordered mem unfinished proven closed
    next =>
      obtain ⟨_, -, step⟩ := bind_ok.mp step
      split at step
      next =>
        cases step
        exact .inl rfl
      next =>
        obtain ⟨next, closed, step⟩ := bind_ok.mp step
        cases step
        exact fenceInvalidOwnerLocked_unheld ordered mem unfinished closed

theorem resumeFailed_moved {generationId : Uuid} {expectedRevision : ℕ}
    {payloadSha256 : String} {hasUploadAttempts : Bool} (ordered : s.Ordered)
    (step : resumeFailedPreSubmissionFeedRun accountId generationId expectedRevision payloadSha256
      hasUploadAttempts now s = .ok t) : ∃ run, Moved False False run s t := by
  simp only [resumeFailedPreSubmissionFeedRun, bind_ok, raiseIf_ok, orRaise_ok, not_not] at step
  obtain ⟨_, -, _, -, run, found, _, safe, _, -, _, -, written⟩ := step
  have mem := findRun_mem found
  obtain ⟨_, -, -, -, -, -, -, unsubmitted, unnamed, -⟩ := safe
  have uncrossed : ¬ run.crossed := by simp [MarketplaceFeedRun.crossed, unsubmitted, unnamed]
  refine ⟨run, updateRun_moved written mem ?_⟩
  exact ⟨rfl, rfl, ordered.named run mem, fun _ _ => uncrossed,
    fun _ _ unresolved => absurd unresolved.1 uncrossed⟩

variable {expectedRevision : Option ℕ} {claim : Option FeedRunClaim} {given : Lease}

theorem claimLockedAccount_unheld {account : MarketplaceAccount}
    {expectedGenerationId : Option Uuid}
    (ordered : s.Ordered)
    (step : claimLockedAccount account given expectedGenerationId expectedRevision s = .ok (t, claim)) :
    Unheld s t ∧ ∀ issued, claim = some issued → Issued issued t := by
  unfold claimLockedAccount at step
  split at step
  next =>
    cases step
    exact ⟨.inl rfl, by simp⟩
  next run found =>
    have mem := List.mem_of_find?_eq_some found
    have active : run.active := by
      have chosen := List.find?_some found
      simp only [decide_eq_true_eq] at chosen
      exact chosen.1
    split at step
    next fence =>
      obtain ⟨next, closed, step⟩ := bind_ok.mp step
      cases step
      exact ⟨fenceInvalidOwnerLocked_unheld ordered mem (ownerFence_unfinished fence) closed, by simp⟩
    next =>
      split at step
      next =>
        obtain ⟨next, written, step⟩ := bind_ok.mp step
        cases step
        refine ⟨.inr ⟨run, updateRun_wrote written mem
          ⟨rfl, rfl, ordered.named run mem, fun _ withdrawn => ?_, fun _ _ => id⟩ ?_⟩, fun issued same => ?_⟩
        · exact absurd withdrawn (not_withdrawn_of_active active)
        · exact ⟨rfl, rfl, rfl, rfl, rfl, rfl, not_succeeded_of_active active, owns_of_active active, .inl rfl⟩
        · cases same
          obtain ⟨-, rfl⟩ := updateRun_ok.mp written
          exact ⟨_, mem_put.mpr (.inl ⟨rfl, run, mem, rfl⟩), rfl, rfl, rfl⟩
      next =>
        cases step
        exact ⟨.inl rfl, by simp⟩

theorem claimDueRunForAccount_unheld {expectedGenerationId : Option Uuid} (ordered : s.Ordered)
    (step : claimDueRunForAccount accountId expectedGenerationId expectedRevision given s = .ok (t, claim)) :
    Unheld s t ∧ ∀ issued, claim = some issued → Issued issued t := by
  obtain ⟨_, -, step⟩ := bind_ok.mp step
  split at step
  next =>
    cases step
    exact ⟨.inl rfl, by simp⟩
  next => exact claimLockedAccount_unheld ordered step

theorem claimDueRuns_unheld {marketplace : Option String}
    (ordered : s.Ordered) (step : claimDueRuns marketplace given s = .ok (t, claim)) :
    Unheld s t ∧ ∀ issued, claim = some issued → Issued issued t := by
  obtain ⟨_, -, step⟩ := bind_ok.mp step
  split at step
  next =>
    cases step
    exact ⟨.inl rfl, by simp⟩
  next =>
    split at step
    next => exact claimLockedAccount_unheld ordered step
    next =>
      cases step
      exact ⟨.inl rfl, by simp⟩

variable {runId : Uuid}

theorem cancelInactiveFeedRun_unheld (ordered : s.Ordered)
    (step : cancelInactiveFeedRun runId accountId now s = .ok t) : Unheld s t := by
  unfold cancelInactiveFeedRun at step
  split at step
  next =>
    cases step
    exact .inl rfl
  next =>
    split at step
    next =>
      cases step
      exact .inl rfl
    next run found =>
      split at step
      next =>
        cases step
        exact .inl rfl
      next =>
        have mem := List.mem_of_find?_eq_some found
        exact fenceInvalidOwnerLocked_unheld ordered mem (by decide) step

theorem supersedeFeedRun_unheld (ordered : s.Ordered)
    (step : supersedeFeedRun runId expectedRevision now s = .ok t) : Unheld s t := by
  simp only [supersedeFeedRun, bind_ok, raiseIf_ok, orRaise_ok] at step
  obtain ⟨run, found, _, -, _, -, step⟩ := step
  split at step
  next =>
    cases step
    exact .inl rfl
  next =>
    exact fenceInvalidOwnerLocked_unheld ordered (findRun_mem found) (by decide) step

theorem providerRunIdOf_ok {value : Option String} {text : String} (read : providerRunIdOf value = .ok text) :
    text ≠ "" := by
  simp only [providerRunIdOf, bind_ok, raiseIf_ok, orRaise_ok, Except.ok.injEq] at read
  obtain ⟨_, -, _, valid, rfl⟩ := read
  exact fun blank => valid (.inl blank)

theorem reconcileUncertainFeedRun_wrote {expectedRevision : ℕ} {resolution : Resolution}
    {providerRunId : Option String} {allowTombstone : Bool} (ordered : s.Ordered)
    (step : reconcileUncertainFeedRun runId expectedRevision resolution providerRunId allowTombstone now s =
      .ok t) :
    ∃ run, run.pk = runId ∧ run.revision = expectedRevision ∧
      Wrote False (resolution = .providerNotAccepted) run s t := by
  simp only [reconcileUncertainFeedRun, bind_ok, raiseIf_ok, orRaise_ok, not_not] at step
  obtain ⟨_, -, _, read, run, found, _, -, _, -, _, -, _, uncertain, _, revision, _, -, _, -, step⟩ := step
  have mem := findRun_mem found
  have owner : run.owns := by simp [MarketplaceFeedRun.owns, uncertain, FeedRunState.ownershipStates]
  have pk : run.pk = runId := of_decide_eq_true (List.find?_some found :)
  refine ⟨run, pk, revision, ?_⟩
  cases resolution with
  | providerAccepted =>
    obtain ⟨identity, valid, same⟩ := bind_ok.mp read
    cases same
    obtain ⟨_, -, written⟩ := bind_ok.mp step
    have named : identity ≠ "" := providerRunIdOf_ok valid
    refine updateRun_wrote written mem
      ⟨rfl, rfl, by simpa using named, fun _ withdrawn => ?_, fun _ _ _ => ⟨.inr (by simp), ?_⟩⟩ ?_
    · simp [FeedRunState.withdrawnStates] at withdrawn
    · simp [MarketplaceFeedRun.owns, FeedRunState.ownershipStates, FeedRunState.activeStates]
    · exact ⟨rfl, rfl, rfl, rfl, rfl, rfl, by simp, owner, .inl rfl⟩
  | providerNotAccepted =>
    obtain ⟨_, -, same⟩ := bind_ok.mp read
    cases same
    refine updateRun_wrote step mem
      ⟨rfl, rfl, ordered.named run mem, fun _ withdrawn => ?_, fun _ unreviewed => absurd rfl unreviewed⟩ ?_
    · simp [FeedRunState.withdrawnStates] at withdrawn
    · exact ⟨rfl, rfl, rfl, rfl, rfl, rfl, by simp, owner, .inl rfl⟩

theorem active_length_le_one (ordered : s.Ordered) : (s.runs.filter fun run => decide run.active).length ≤ 1 := by
  have sub : (s.runs.filter fun run => decide run.active).Sublist (s.runs.filter fun run => decide run.owns) := by
    apply List.monotone_filter_right
    intro run active
    simp only [decide_eq_true_eq] at active ⊢
    exact List.mem_append_left _ active
  exact sub.length_le.trans ordered.rows.owner

theorem supersedeActive_unheld (ordered : s.Ordered)
    (step : supersedeActive now (s.runs.filter fun run => decide run.active) s = .ok t) : Unheld s t := by
  have few := active_length_le_one ordered
  match owners : s.runs.filter fun run => decide run.active with
  | [] =>
    rw [owners] at step
    cases step
    exact .inl rfl
  | [run] =>
    rw [owners] at step
    have mem : run ∈ s.runs := List.mem_of_mem_filter (owners ▸ List.mem_singleton_self run)
    simp only [supersedeActive, bind_ok, raiseIf_ok, not_not] at step
    obtain ⟨_, replaceable, _, closed, same⟩ := step
    cases same
    have proven : hasProvenNoSubmission run :=
      ⟨replaceable.1, replaceable.2.2.2.1, by simp [replaceable.2.2.2.2]⟩
    exact terminalizeLocked_unheld ordered mem (by decide) proven closed
  | first :: second :: rest => simp [owners] at few

theorem insertGeneration_moves {mid : FeedStore} {holds reviews : MarketplaceFeedRun → Prop}
    {account : MarketplaceAccount} {new : NewGeneration} {generation : Uuid}
    (moves : Moves holds reviews s mid) (unused : findRun s new.generationId = none)
    (step : insertGeneration mid account new now = .ok (t, generation)) : Moves holds reviews s t := by
  obtain ⟨_, written, step⟩ := bind_ok.mp step
  cases step
  obtain ⟨rows, rfl⟩ := writeRuns_ok.mp written
  refine ⟨rows, moves.evolves.append ⟨rfl, rfl⟩ fun old mem same => ?_⟩
  have missing := List.find?_eq_none.mp unused old mem
  exact missing (decide_eq_true same)

theorem createOrSupersede_moves {holds reviews : MarketplaceFeedRun → Prop}
    {new : NewGeneration} {generation : Uuid} (ordered : s.Ordered)
    (step : createOrSupersedeFeedRun accountId new now s = .ok (t, generation)) : Moves holds reviews s t := by
  simp only [createOrSupersedeFeedRun, bind_ok, raiseIf_ok, orRaise_ok] at step
  obtain ⟨_, -, _, -, _, -, _, -, step⟩ := step
  split at step
  next =>
    simp only [bind_ok] at step
    obtain ⟨_, -, _, -, same⟩ := step
    cases same
    exact .same ordered rfl
  next unused =>
    simp only [bind_ok] at step
    obtain ⟨_, -, _, -, _, superseded, inserted⟩ := step
    exact insertGeneration_moves ((supersedeActive_unheld ordered superseded).moves ordered) unused inserted

end Unclaimed

section Claimed

variable {s t : FeedStore} {claim : FeedRunClaim} {now nextAttemptAt : Instant} {run : MarketplaceFeedRun}

theorem lockClaimedRun_ok {allowedStates : List FeedRunState}
    (locked : lockClaimedRun claim allowedStates now s = .ok run) :
    run ∈ s.runs ∧ claim.Fences run now := by
  simp only [lockClaimedRun, bind_ok, raiseIf_ok, orRaise_ok] at locked
  obtain ⟨_, -, _, -, found⟩ := locked
  have fenced := List.find?_some found
  simp only [decide_eq_true_eq] at fenced
  exact ⟨List.mem_of_find?_eq_some found, fenced.1⟩

variable {allowedStates : List FeedRunState}

theorem lockClaimedRun_state
    (locked : lockClaimedRun claim allowedStates now s = .ok run) : run.state ∈ allowedStates := by
  simp only [lockClaimedRun, bind_ok, raiseIf_ok, orRaise_ok] at locked
  obtain ⟨_, -, _, -, found⟩ := locked
  have fenced := List.find?_some found
  simp only [decide_eq_true_eq] at fenced
  exact fenced.2.2

theorem lockClaimedRun_owns
    (locked : lockClaimedRun claim allowedStates now s = .ok run)
    (active : allowedStates ⊆ FeedRunState.activeStates) : run.owns :=
  owns_of_active (active (lockClaimedRun_state locked))

theorem transitionClaimed_committed {updated : MarketplaceFeedRun}
    (step : transitionClaimed updated s = .ok t) (locked : lockClaimedRun claim allowedStates now s = .ok run)
    (revision : updated.revision = run.revision) (named : updated.providerRunId ≠ some "")
    (keeps : KeepsOutcome run updated) : Committed claim now s t := by
  obtain ⟨mem, fences⟩ := lockClaimedRun_ok locked
  exact ⟨run, fences, updateRun_wrote step mem (.underClaim keeps.pk (congrArg (· + 1) revision) named)
    ⟨keeps.pk, keeps.tenant, keeps.total, keeps.published, keeps.rejected, keeps.pending, keeps.unfinished,
      keeps.owner, keeps.report⟩⟩

theorem transitionClaimed_transition {written : FeedStore}
    {updated : MarketplaceFeedRun} (step : transitionClaimed updated written = .ok t)
    (locked : lockClaimedRun claim allowedStates now s = .ok run) (rows : written.runs = s.runs)
    (pk : updated.pk = run.pk) (revision : updated.revision = run.revision)
    (named : updated.providerRunId ≠ some "") : Transition claim now s t := by
  obtain ⟨mem, fences⟩ := lockClaimedRun_ok locked
  refine ⟨run, fences, (updateRun_moved step (rows ▸ mem) ?_).congr rows.symm rfl⟩
  exact .underClaim pk (congrArg (· + 1) revision) named

variable {delta : CounterDeltas}

theorem counterValues_ok {counted : MarketplaceFeedRun}
    (step : counterValues run delta = .ok counted) : ∃ published rejected pending, counted =
      { run with publishedCount := published, rejectedCount := rejected, pendingCount := pending } := by
  simp only [counterValues, bind_ok, raiseIf_ok] at step
  obtain ⟨_, -, _, -, same⟩ := step
  cases same
  exact ⟨_, _, _, rfl⟩

theorem recomputedCounters_ok {listings : List Listing} {counted : MarketplaceFeedRun}
    (step : recomputedCounters run listings = .ok counted) : ∃ published rejected pending, counted =
      { run with publishedCount := published, rejectedCount := rejected, pendingCount := pending } := by
  simp only [recomputedCounters, bind_ok, raiseIf_ok] at step
  obtain ⟨_, -, same⟩ := step
  cases same
  exact ⟨_, _, _, rfl⟩

theorem updateListings_runs {changed : List Listing} (step : updateListings s changed = .ok t) :
    t.runs = s.runs := by
  simp only [updateListings, writeListings] at step
  split at step
  next =>
    cases step
    rfl
  next => cases step

@[simp] theorem afterPublishing_runs (published : List Listing) :
    (afterPublishing published now s).runs = s.runs := by
  unfold afterPublishing
  split <;> rfl

theorem Transition.congr {t' : FeedStore} (transition : Transition claim now s t) (same : t'.runs = t.runs) :
    Transition claim now s t' := by
  obtain ⟨run, fences, moved⟩ := transition
  exact ⟨run, fences, moved.congr rfl same⟩

theorem submissionOwner_ok {owner : Option MarketplaceFeedRun} (ordered : s.Ordered)
    (step : submissionOwner claim now s = .ok (t, owner)) :
    (∃ run, owner = some run ∧ t = s ∧ run ∈ s.runs ∧ unsubmittedUnder claim now run) ∨
      owner = none ∧ (t = s ∨ Committed claim now s t) := by
  unfold submissionOwner at step
  split at step
  next =>
    cases step
    exact .inr ⟨rfl, .inl rfl⟩
  next =>
    split at step
    next =>
      cases step
      exact .inr ⟨rfl, .inl rfl⟩
    next run found =>
      have mem := List.mem_of_find?_eq_some found
      have unsubmitted := List.find?_some found
      simp only [decide_eq_true_eq] at unsubmitted
      split at step
      next fence =>
        obtain ⟨next, closed, step⟩ := bind_ok.mp step
        cases step
        have wrote := fenceInvalidOwnerLocked_wrote ordered mem (ownerFence_unfinished fence) closed
        exact .inr ⟨rfl, wrote.imp_right fun wrote => ⟨run, unsubmitted.1, wrote.weaken False.elim⟩⟩
      next =>
        cases step
        exact .inl ⟨run, rfl, rfl, mem, unsubmitted⟩

theorem validateFeedSubmissionOwner_claimed {valid : Bool} (ordered : s.Ordered)
    (step : validateFeedSubmissionOwner claim now s = .ok (t, valid)) :
    t = s ∧ (valid = true → ∃ run ∈ s.runs, claim.Fences run now) ∨ Committed claim now s t := by
  obtain ⟨⟨_, _⟩, locked, step⟩ := bind_ok.mp step
  cases step
  rcases submissionOwner_ok ordered locked with ⟨run, rfl, rfl, mem, unsubmitted⟩ | ⟨rfl, rfl | committed⟩
  · exact .inl ⟨rfl, fun _ => ⟨run, mem, unsubmitted.1⟩⟩
  · exact .inl ⟨rfl, by simp⟩
  · exact .inr committed

variable {submittedAt : Instant}

theorem persistFeedSubmissionBoundary_claimed {predecessor : String}
    {boundary : Option FeedRunClaim} (ordered : s.Ordered)
    (step : persistFeedSubmissionBoundary claim predecessor submittedAt now s = .ok (t, boundary)) :
    (∃ run, run ∈ s.runs ∧ unsubmittedUnder claim now run ∧ Committed claim now s t ∧
        ∃ issued, boundary = some issued ∧ Issued issued t) ∨
      boundary = none ∧ (t = s ∨ Committed claim now s t) := by
  simp only [persistFeedSubmissionBoundary, bind_ok, raiseIf_ok, Prod.exists] at step
  obtain ⟨_, -, _, _, locked, step⟩ := step
  rcases submissionOwner_ok ordered locked with ⟨run, rfl, rfl, mem, unsubmitted⟩ | ⟨rfl, moved⟩
  · simp only [bind_ok] at step
    obtain ⟨_, written, step⟩ := step
    cases step
    have owner : run.owns := owns_of_active (by rw [unsubmitted.2.1]; decide)
    refine .inl ⟨run, mem, unsubmitted, ⟨run, unsubmitted.1, updateRun_wrote written mem
      (.underClaim rfl rfl (ordered.named run mem)) ?_⟩, _, rfl, ?_⟩
    · exact ⟨rfl, rfl, rfl, rfl, rfl, rfl, by simp, owner, .inl rfl⟩
    · obtain ⟨-, rfl⟩ := updateRun_ok.mp written
      exact ⟨_, mem_put.mpr (.inl ⟨rfl, run, mem, rfl⟩), rfl, rfl, unsubmitted.1.token⟩
  · cases step
    exact .inr ⟨rfl, moved⟩

theorem clearRejectedFeedSubmissionBoundary_claimed {cleared : FeedRunClaim} (ordered : s.Ordered)
    (step : clearRejectedFeedSubmissionBoundary claim now s = .ok (t, cleared)) :
    Committed claim now s t ∧ Issued cleared t := by
  simp only [clearRejectedFeedSubmissionBoundary, bind_ok, orRaise_ok] at step
  obtain ⟨run, found, _, written, same⟩ := step
  cases same
  have mem := List.mem_of_find?_eq_some found
  have fenced := List.find?_some found
  simp only [decide_eq_true_eq] at fenced
  obtain ⟨-, fences, state, -⟩ := fenced
  have owner : run.owns := owns_of_active (by rw [state]; decide)
  refine ⟨⟨run, fences, updateRun_wrote written mem (.underClaim rfl rfl (ordered.named run mem)) ?_⟩, ?_⟩
  · exact ⟨rfl, rfl, rfl, rfl, rfl, rfl, by simp, owner, .inl rfl⟩
  obtain ⟨-, rfl⟩ := updateRun_ok.mp written
  exact ⟨_, mem_put.mpr (.inl ⟨rfl, run, mem, rfl⟩), fences.pk, congrArg (· + 1) fences.revision, fences.token⟩

theorem markFeedSubmitted_claimed {payloadSha256 : String} {providerRunId : Option String}
    (step : markFeedSubmitted claim payloadSha256 providerRunId submittedAt nextAttemptAt now s = .ok t) :
    Committed claim now s t := by
  simp only [markFeedSubmitted, bind_ok, raiseIf_ok, not_or] at step
  obtain ⟨_, ⟨named, -⟩, _, locked, step⟩ := step
  have owner := lockClaimedRun_owns locked (by decide)
  exact transitionClaimed_committed step locked rfl named ⟨rfl, rfl, rfl, rfl, rfl, rfl, by simp, owner, .inl rfl⟩

theorem markFeedSubmissionUnknown_claimed (ordered : s.Ordered)
    (step : markFeedSubmissionUnknown claim submittedAt nextAttemptAt now s = .ok t) :
    Committed claim now s t := by
  simp only [markFeedSubmissionUnknown, bind_ok, raiseIf_ok] at step
  obtain ⟨_, -, run, locked, _, -, step⟩ := step
  have named := ordered.named run (lockClaimedRun_ok locked).1
  have owner := lockClaimedRun_owns locked (by decide)
  exact transitionClaimed_committed step locked rfl named ⟨rfl, rfl, rfl, rfl, rfl, rfl, by simp, owner, .inl rfl⟩

theorem recordProviderRunObservation_claimed {providerRunId : String}
    (step : recordProviderRunObservation claim providerRunId nextAttemptAt now s = .ok t) :
    Committed claim now s t := by
  simp only [recordProviderRunObservation, bind_ok, raiseIf_ok] at step
  obtain ⟨observed, read, _, locked, _, -, _, -, _, -, step⟩ := step
  have named : some observed ≠ some "" := by simpa using providerRunIdOf_ok read
  have owner := lockClaimedRun_owns locked (by decide)
  exact transitionClaimed_committed step locked rfl named ⟨rfl, rfl, rfl, rfl, rfl, rfl, by simp, owner, .inl rfl⟩

theorem completePollStep_claimed {lastListingId : ℕ} (ordered : s.Ordered)
    (step : completePollStep claim lastListingId delta nextAttemptAt now s = .ok t) :
    Transition claim now s t := by
  simp only [completePollStep, bind_ok, raiseIf_ok] at step
  obtain ⟨run, locked, _, -, _, counters, step⟩ := step
  obtain ⟨_, _, _, rfl⟩ := counterValues_ok counters
  have named := ordered.named run (lockClaimedRun_ok locked).1
  exact transitionClaimed_transition step locked rfl rfl rfl named

theorem loadPollBatch_claimed {limit : ℕ} {page : List Listing}
    (step : loadPollBatch claim limit now s = .ok page) : ∃ run ∈ s.runs, claim.Fences run now := by
  simp only [loadPollBatch, bind_ok, raiseIf_ok, orRaise_ok] at step
  obtain ⟨_, -, _, -, run, found, -⟩ := step
  have fenced := List.find?_some found
  simp only [decide_eq_true_eq] at fenced
  exact ⟨run, List.mem_of_find?_eq_some found, fenced.1⟩

theorem applyPollPage_claimed {batchListingIds : List ℕ} {resolvedExternalIds : List (ℕ × String)}
    {lastListingId : ℕ} (ordered : s.Ordered)
    (step : applyPollPage claim batchListingIds resolvedExternalIds lastListingId nextAttemptAt now s = .ok t) :
    Transition claim now s t := by
  simp only [applyPollPage, bind_ok, raiseIf_ok] at step
  obtain ⟨_, -, _, -, _, -, _, -, _, -, _, -, _, -, run, locked, _, -, _, -, written, listings, counted,
    counters, after, step, same⟩ := step
  cases same
  obtain ⟨_, _, _, rfl⟩ := counterValues_ok counters
  have named := ordered.named run (lockClaimedRun_ok locked).1
  have rows : written.runs = s.runs := updateListings_runs listings
  exact (transitionClaimed_transition step locked rows rfl rfl named).congr (afterPublishing_runs _)

theorem retryStep_claimed {report submission : Bool} (ordered : s.Ordered)
    (step : retryStep claim nextAttemptAt report submission now s = .ok t) : Committed claim now s t := by
  simp only [retryStep, bind_ok, raiseIf_ok] at step
  obtain ⟨_, -, run, locked, _, -, _, -, step⟩ := step
  have named := ordered.named run (lockClaimedRun_ok locked).1
  have active := lockClaimedRun_state locked
  exact transitionClaimed_committed step locked rfl named
    ⟨rfl, rfl, rfl, rfl, rfl, rfl, not_succeeded_of_active active, owns_of_active active, .inl rfl⟩

theorem resetPollRound_claimed (ordered : s.Ordered)
    (step : resetPollRound claim nextAttemptAt now s = .ok t) : Transition claim now s t := by
  simp only [resetPollRound, bind_ok, raiseIf_ok] at step
  obtain ⟨_, -, run, locked, _, -, step⟩ := step
  have named := ordered.named run (lockClaimedRun_ok locked).1
  exact transitionClaimed_transition step locked rfl rfl rfl named

theorem startReporting_claimed {providerRunId : Option String} (ordered : s.Ordered)
    (step : startReporting claim nextAttemptAt providerRunId now s = .ok t) : Committed claim now s t := by
  simp only [startReporting, bind_ok, raiseIf_ok, orRaise_ok] at step
  obtain ⟨run, locked, _, given, _, -, _, -, _, -, identity, chosen, step⟩ := step
  have named : some identity ≠ some "" := by
    unfold providerIdentity at chosen
    split at chosen
    · exact chosen ▸ given
    · exact chosen ▸ ordered.named run (lockClaimedRun_ok locked).1
  have owner := lockClaimedRun_owns locked (by decide)
  exact transitionClaimed_committed step locked rfl named ⟨rfl, rfl, rfl, rfl, rfl, rfl, by simp, owner, .inr rfl⟩

theorem advanceReportPage_claimed {currentPage : ℕ} (ordered : s.Ordered)
    (step : advanceReportPage claim currentPage delta nextAttemptAt now s = .ok t) :
    Transition claim now s t := by
  simp only [advanceReportPage, bind_ok, raiseIf_ok] at step
  obtain ⟨_, -, run, locked, _, -, _, counters, step⟩ := step
  obtain ⟨_, _, _, rfl⟩ := counterValues_ok counters
  have named := ordered.named run (lockClaimedRun_ok locked).1
  exact transitionClaimed_transition step locked rfl rfl rfl named

theorem turnReportPage_identity {page : ReportPage} {listings : List Listing}
    {updated : MarketplaceFeedRun} (turned : turnReportPage page run delta listings now = .ok updated) :
    updated.pk = run.pk ∧ updated.revision = run.revision ∧ updated.providerRunId = run.providerRunId := by
  unfold turnReportPage at turned
  split at turned
  next =>
    obtain ⟨counted, counters, same⟩ := bind_ok.mp turned
    cases same
    obtain ⟨_, _, _, rfl⟩ := recomputedCounters_ok counters
    unfold afterLastPage
    split
    · split <;> exact ⟨rfl, rfl, rfl⟩
    · exact ⟨rfl, rfl, rfl⟩
  next =>
    obtain ⟨counted, counters, same⟩ := bind_ok.mp turned
    cases same
    obtain ⟨_, _, _, rfl⟩ := counterValues_ok counters
    exact ⟨rfl, rfl, rfl⟩

theorem applyReportPage_claimed {page : ReportPage} (ordered : s.Ordered)
    (step : applyReportPage claim page now s = .ok t) : Transition claim now s t := by
  simp only [applyReportPage, bind_ok, raiseIf_ok] at step
  obtain ⟨_, -, run, locked, _, -, written, listings, updated, turned, _, step, same⟩ := step
  cases same
  obtain ⟨pk, revision, identity⟩ := turnReportPage_identity turned
  have named : updated.providerRunId ≠ some "" := identity ▸ ordered.named run (lockClaimedRun_ok locked).1
  have rows : written.runs = s.runs := updateListings_runs listings
  exact (transitionClaimed_transition step locked rows pk revision named).congr (afterPublishing_runs _)

theorem finishFeedRun_claimed {state : FeedRunState} {submission : Bool} (ordered : s.Ordered)
    (step : finishFeedRun claim state submission now s = .ok t) : Transition claim now s t := by
  simp only [finishFeedRun, bind_ok, raiseIf_ok] at step
  obtain ⟨_, -, run, locked, _, -, _, counters, _, -, _, -, step⟩ := step
  obtain ⟨_, _, _, rfl⟩ := recomputedCounters_ok counters
  have named := ordered.named run (lockClaimedRun_ok locked).1
  exact transitionClaimed_transition step locked rfl rfl rfl named

end Claimed

section Perform

variable {s t : FeedStore} {action : FeedAction} {outcome : FeedOutcome} {claim : FeedRunClaim} {now : Instant}

theorem done_ok {x : Except FeedError FeedStore} :
    FeedWorkflow.done x = .ok (t, outcome) ↔ x = .ok t ∧ .done = outcome := by
  simp [FeedWorkflow.done, bind_ok]

theorem claiming_ok {x : Except FeedError (FeedStore × Option FeedRunClaim)} :
    claiming x = .ok (t, outcome) ↔ ∃ claim, x = .ok (t, claim) ∧ .ofClaim claim = outcome := by
  simp [claiming, bind_ok]

@[simp] theorem ofClaim_eq_claimed {given : Option FeedRunClaim} :
    FeedOutcome.ofClaim given = .claimed claim ↔ given = some claim := by
  cases given <;> simp [FeedOutcome.ofClaim]

theorem perform_claimed (ordered : s.Ordered) (presented : action.claim? = some (claim, now))
    (step : perform s action = .ok (t, outcome)) :
    t = s ∧ (outcome = .refused ∨ ∃ run ∈ s.runs, claim.Fences run now) ∨ Transition claim now s t := by
  cases action <;> simp only [FeedAction.claim?, Option.some.injEq, Prod.mk.injEq, reduceCtorEq] at presented <;>
    obtain ⟨rfl, rfl⟩ := presented
  case validateFeedSubmissionOwner =>
    simp only [perform, bind_ok, Prod.exists] at step
    obtain ⟨next, valid, validated, same⟩ := step
    cases same
    refine (validateFeedSubmissionOwner_claimed ordered validated).imp (fun ⟨same, fenced⟩ => ⟨same, ?_⟩)
      Committed.transition
    cases valid with
    | false => exact .inl rfl
    | true => exact .inr (fenced rfl)
  case persistFeedSubmissionBoundary =>
    obtain ⟨_, persisted, rfl⟩ := claiming_ok.mp step
    rcases persistFeedSubmissionBoundary_claimed ordered persisted with ⟨run, -, -, committed, -⟩ | ⟨rfl, rfl | committed⟩
    · exact .inr committed.transition
    · exact .inl ⟨rfl, .inl rfl⟩
    · exact .inr committed.transition
  case clearRejectedFeedSubmissionBoundary =>
    simp only [perform, bind_ok, Prod.exists] at step
    obtain ⟨next, _, made, same⟩ := step
    cases same
    exact .inr (clearRejectedFeedSubmissionBoundary_claimed ordered made).1.transition
  case loadPollBatch =>
    simp only [perform, bind_ok] at step
    obtain ⟨_, loaded, same⟩ := step
    cases same
    exact .inl ⟨rfl, .inr (loadPollBatch_claimed loaded)⟩
  case markFeedSubmitted => exact .inr (markFeedSubmitted_claimed (done_ok.mp step).1).transition
  case markFeedSubmissionUnknown => exact .inr (markFeedSubmissionUnknown_claimed ordered (done_ok.mp step).1).transition
  case recordProviderRunObservation => exact .inr (recordProviderRunObservation_claimed (done_ok.mp step).1).transition
  case completePollStep => exact .inr (completePollStep_claimed ordered (done_ok.mp step).1)
  case applyPollPage => exact .inr (applyPollPage_claimed ordered (done_ok.mp step).1)
  case retryStep => exact .inr (retryStep_claimed ordered (done_ok.mp step).1).transition
  case resetPollRound => exact .inr (resetPollRound_claimed ordered (done_ok.mp step).1)
  case startReporting => exact .inr (startReporting_claimed ordered (done_ok.mp step).1).transition
  case advanceReportPage => exact .inr (advanceReportPage_claimed ordered (done_ok.mp step).1)
  case applyReportPage => exact .inr (applyReportPage_claimed ordered (done_ok.mp step).1)
  case finishFeedRun => exact .inr (finishFeedRun_claimed ordered (done_ok.mp step).1)

theorem perform_unclaimed (ordered : s.Ordered) (presented : action.claim? = none)
    (step : perform s action = .ok (t, outcome)) : Moves (fun _ => False) action.Reviews s t := by
  cases action <;> simp only [FeedAction.claim?, reduceCtorEq] at presented
  case fenceAccountFeedRunsForOwnerChange =>
    simp only [perform, bind_ok, Prod.exists] at step
    obtain ⟨next, _, made, same⟩ := step
    cases same
    exact (fenceAccountFeedRuns_unheld ordered made).moves ordered
  case createOrSupersedeFeedRun =>
    simp only [perform, bind_ok, Prod.exists] at step
    obtain ⟨next, _, made, same⟩ := step
    cases same
    exact createOrSupersede_moves ordered made
  case resumeFailedPreSubmissionFeedRun =>
    obtain ⟨_, moved⟩ := resumeFailed_moved ordered (done_ok.mp step).1
    exact moved.moves ordered False.elim False.elim
  case claimDueRunForAccount =>
    obtain ⟨claimed, made, -⟩ := claiming_ok.mp step
    exact (claimDueRunForAccount_unheld ordered made).1.moves ordered
  case claimDueRuns =>
    obtain ⟨claimed, made, -⟩ := claiming_ok.mp step
    exact (claimDueRuns_unheld ordered made).1.moves ordered
  case cancelInactiveFeedRun => exact (cancelInactiveFeedRun_unheld ordered (done_ok.mp step).1).moves ordered
  case reconcileUncertainFeedRun =>
    obtain ⟨_, pk, revision, wrote⟩ := reconcileUncertainFeedRun_wrote ordered (done_ok.mp step).1
    exact wrote.moved.moves ordered False.elim fun verdict => ⟨_, _, _, by rw [pk, revision, verdict]⟩
  case supersedeFeedRun => exact (supersedeFeedRun_unheld ordered (done_ok.mp step).1).moves ordered

theorem perform_moves (ordered : s.Ordered) (step : perform s action = .ok (t, outcome)) :
    Moves action.Holds action.Reviews s t := by
  cases presented : action.claim? with
  | none =>
    have moves := perform_unclaimed ordered presented step
    exact ⟨moves.rows, moves.evolves.mono fun _ _ moved => moved.weaken False.elim id⟩
  | some pair =>
    obtain ⟨claim, now⟩ := pair
    rcases perform_claimed ordered presented step with ⟨rfl, -⟩ | ⟨_, fences, moved⟩
    · exact .same ordered rfl
    · exact moved.moves ordered (fun _ => ⟨claim, now, presented, fences⟩) False.elim

theorem perform_issued (ordered : s.Ordered) (step : perform s action = .ok (t, .claimed claim)) :
    Issued claim t := by
  cases action
  case claimDueRunForAccount =>
    obtain ⟨claimed, made, given⟩ := claiming_ok.mp step
    exact (claimDueRunForAccount_unheld ordered made).2 claim (ofClaim_eq_claimed.mp given)
  case claimDueRuns =>
    obtain ⟨claimed, made, given⟩ := claiming_ok.mp step
    exact (claimDueRuns_unheld ordered made).2 claim (ofClaim_eq_claimed.mp given)
  case persistFeedSubmissionBoundary =>
    obtain ⟨_, made, given⟩ := claiming_ok.mp step
    rcases persistFeedSubmissionBoundary_claimed ordered made with ⟨-, -, -, -, _, rfl, current⟩ | ⟨rfl, -⟩
    · cases given
      exact current
    · cases given
  case clearRejectedFeedSubmissionBoundary =>
    simp only [perform, bind_ok, Prod.exists] at step
    obtain ⟨next, _, made, same⟩ := step
    cases same
    exact (clearRejectedFeedSubmissionBoundary_claimed ordered made).2
  case validateFeedSubmissionOwner =>
    simp only [perform, bind_ok, Prod.exists] at step
    obtain ⟨next, valid, -, same⟩ := step
    cases valid <;> cases same
  all_goals simp [perform, FeedWorkflow.done, bind_ok] at step

end Perform

end MapBackend.Marketplaces
