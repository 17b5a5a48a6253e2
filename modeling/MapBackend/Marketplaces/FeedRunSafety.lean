import MapBackend.Marketplaces.FeedRunEffects

/-!
Whole runs of the feed workflow on one account, from no generations: the runs that own the
account, what ends a submission that may have reached the provider, and the fence that a
claim carries.
-/

namespace MapBackend.Marketplaces
open MapBackend.Library FeedWorkflow

section Steps

variable {s t : FeedStore} {claim : FeedRunClaim} {now : Instant}

theorem attachArtifact_ok {runId artifact : Uuid} {uploadAttempt : ℕ} {result : Unit}
    (step : attachArtifact s runId artifact uploadAttempt = .ok (t, result)) :
    ∃ run ∈ s.runs, FeedRunConstraints t.runs ∧ t.runs = put MarketplaceFeedRun.pk
      { run with feedArtifact := some artifact, artifactUploadAttempt := uploadAttempt } s.runs := by
  simp only [attachArtifact, bind_ok, orRaise_ok] at step
  obtain ⟨run, found, _, written, same⟩ := step
  cases same
  obtain ⟨rows, rfl⟩ := updateRun_ok.mp written
  exact ⟨run, findRun_mem found, rows, rfl⟩

theorem FeedStore.Ordered.congr (ordered : s.Ordered) (same : t.runs = s.runs) : t.Ordered :=
  ⟨same ▸ ordered.rows, same ▸ ordered.named⟩

theorem FeedStore.next_ordered (s : FeedStore) (event : FeedEvent) (ordered : s.Ordered) :
    (s.next event).Ordered := by
  cases event with
  | workflow =>
    apply commit_preserves FeedStore.Ordered s _ ordered
    intro t outcome step
    exact (perform_moves ordered step).ordered ordered
  | artifactAttached =>
    apply commit_preserves FeedStore.Ordered s _ ordered
    intro t result step
    obtain ⟨run, mem, rows, runs⟩ := attachArtifact_ok step
    refine ⟨rows, fun new new_mem => ?_⟩
    rw [runs] at new_mem
    rcases mem_put.mp new_mem with ⟨rfl, -⟩ | ⟨kept, -⟩
    · exact ordered.named run mem
    · exact ordered.named new kept
  | accountSaved => exact ⟨ordered.rows, ordered.named⟩
  | listingsSaved => exact ordered.congr (FeedStore.saved_runs rfl)
  | elsewhere => exact ordered.congr (FeedStore.saved_runs rfl)

def FeedStore.empty (start : FeedStore) : FeedStore := { start with runs := [] }

theorem FeedStore.empty_ordered (start : FeedStore) : start.empty.Ordered where
  rows := ⟨List.nodup_nil, by simp [FeedStore.empty], List.nodup_nil, List.nodup_nil, by simp [FeedStore.empty]⟩
  named := by simp [FeedStore.empty]

theorem FeedStore.reached_ordered (start : FeedStore) (events : List FeedEvent) :
    (run FeedStore.next start.empty events).Ordered :=
  run_always FeedStore.next FeedStore.next_ordered start.empty_ordered events

def Advances (s t : FeedStore) : Prop :=
  ∀ old ∈ s.runs, ∃ new ∈ t.runs, new.pk = old.pk ∧ old.revision ≤ new.revision

theorem Moves.advances {holds reviews : MarketplaceFeedRun → Prop} (moves : Moves holds reviews s t) :
    Advances s t := by
  intro old mem
  obtain ⟨new, new_mem, rfl | step⟩ := moves.evolves.kept old mem
  · exact ⟨new, new_mem, rfl, le_rfl⟩
  · exact ⟨new, new_mem, step.pk, by rw [step.revision]; omega⟩

theorem Advances.refl (s : FeedStore) : Advances s s := fun old mem => ⟨old, mem, rfl, le_rfl⟩

theorem Advances.of_same (same : t.runs = s.runs) : Advances s t := by
  intro old mem
  exact ⟨old, same ▸ mem, rfl, le_rfl⟩

theorem Advances.trans (s t u : FeedStore) (first : Advances s t) (second : Advances t u) : Advances s u := by
  intro old mem
  obtain ⟨mid, mid_mem, mid_pk, mid_revision⟩ := first old mem
  obtain ⟨new, new_mem, new_pk, new_revision⟩ := second mid mid_mem
  exact ⟨new, new_mem, new_pk.trans mid_pk, mid_revision.trans new_revision⟩

theorem FeedStore.next_advances (s : FeedStore) (event : FeedEvent) (ordered : s.Ordered) :
    Advances s (s.next event) := by
  cases event with
  | workflow =>
    apply commit_relates Advances s _ (Advances.refl s)
    intro t outcome step
    exact (perform_moves ordered step).advances
  | artifactAttached =>
    apply commit_relates Advances s _ (Advances.refl s)
    intro t result step
    obtain ⟨run, mem, -, runs⟩ := attachArtifact_ok step
    intro old old_mem
    rw [runs]
    by_cases hit : old.pk = run.pk
    · have same : old = run := row_unique ordered.rows.keys old_mem mem hit
      exact ⟨_, mem_put.mpr (.inl ⟨rfl, old, old_mem, hit⟩), hit.symm, by rw [same]⟩
    · exact ⟨old, mem_put.mpr (.inr ⟨old_mem, hit⟩), rfl, le_rfl⟩
  | accountSaved => exact Advances.refl s
  | listingsSaved => exact Advances.of_same (FeedStore.saved_runs rfl)
  | elsewhere => exact Advances.of_same (FeedStore.saved_runs rfl)

theorem FeedStore.run_advances (ordered : s.Ordered) (events : List FeedEvent) :
    Advances s (run FeedStore.next s events) :=
  run_relates FeedStore.next Advances.refl Advances.trans FeedStore.next_ordered FeedStore.next_advances
    ordered events

variable {action : FeedAction}

theorem stale_claim_fails (ordered : s.Ordered) {run : MarketplaceFeedRun}
    (presented : action.claim? = some (claim, now)) (mem : run ∈ s.runs) (pk : run.pk = claim.runId)
    (stale : claim.revision < run.revision) : Fails s action ∧ s.next (.workflow action) = s := by
  have unfenced : ∀ row ∈ s.runs, ¬ claim.Fences row now := by
    intro row row_mem fences
    have same : row = run := row_unique ordered.rows.keys row_mem mem (fences.pk.trans pk.symm)
    have revision := fences.revision
    rw [same] at revision
    omega
  have refused : ∀ next outcome, perform s action = .ok (next, outcome) → next = s ∧ outcome = .refused := by
    intro next outcome step
    rcases perform_claimed ordered presented step with ⟨rfl, rfl | ⟨row, row_mem, fences⟩⟩ | ⟨row, fences, moved⟩
    · exact ⟨rfl, rfl⟩
    · exact absurd fences (unfenced row row_mem)
    · exact absurd fences (unfenced row moved.mem)
  refine ⟨fun next outcome step => (refused next outcome step).2, ?_⟩
  show commit s (perform s action) = s
  cases step : perform s action with
  | error => rfl
  | ok pair => exact (refused pair.1 pair.2 step).1

theorem next_workflow {outcome : FeedOutcome} (step : perform s action = .ok (t, outcome)) :
    s.next (.workflow action) = t := by
  simp [FeedStore.next, step]

theorem claimed_change (ordered : s.Ordered)
    (presented : action.claim? = some (claim, now)) (changed : s.next (.workflow action) ≠ s) :
    ∃ old ∈ s.runs, claim.Fences old now ∧
      ∃ new ∈ (s.next (.workflow action)).runs, new.pk = old.pk ∧ new.revision = old.revision + 1 := by
  cases step : perform s action with
  | error => exact absurd (by simp [FeedStore.next, step]) changed
  | ok pair =>
    obtain ⟨t, _⟩ := pair
    rw [next_workflow step] at changed ⊢
    rcases perform_claimed ordered presented step with ⟨same, -⟩ | ⟨old, fences, moved⟩
    · exact absurd same changed
    · obtain ⟨new, made, runs⟩ := moved.step
      have new_mem : new ∈ t.runs := runs ▸ mem_put.mpr (.inl ⟨rfl, old, moved.mem, made.pk.symm⟩)
      exact ⟨old, moved.mem, fences, new, new_mem, made.pk, made.revision⟩

theorem workflow_evolves (ordered : s.Ordered) (action : FeedAction) :
    Evolves MarketplaceFeedRun.pk (fun old new => RunStep (action.Holds old) (action.Reviews old) old new)
      MarketplaceFeedRun.Pristine s.runs (s.next (.workflow action)).runs := by
  cases step : perform s action with
  | error =>
    have same : s.next (.workflow action) = s := by simp [FeedStore.next, step]
    rw [same]
    exact Evolves.refl s.runs
  | ok =>
    rw [next_workflow step]
    exact (perform_moves ordered step).evolves

end Steps

/-- For every order of the workflow's operations and of what else writes the account's rows,
from no generations: at most one run owns the account; only the holder of its claim moves a
run with evidence of a submission to superseded or cancelled; such an owner stops being one
only under its claim or by the operator's verdict; and no boundary is committed beside it. -/
theorem provider_boundary_safe (start : FeedStore) (events : List FeedEvent) (action : FeedAction) :
    let s := run FeedStore.next start.empty events
    let t := s.next (.workflow action)
    (s.runs.filter fun run => run.owns).length ≤ 1 ∧
      (∀ old ∈ s.runs, ∀ new ∈ t.runs, new.pk = old.pk → old.crossed →
        new.state ∈ FeedRunState.withdrawnStates → new = old ∨ action.Holds old) ∧
      (∀ old ∈ s.runs, old.unresolved → ∃ new ∈ t.runs, new.pk = old.pk ∧
        (new.unresolved ∨ action.Holds old ∨ action.Reviews old)) ∧
      ∀ claim predecessor submittedAt now next boundary,
        perform s (.persistFeedSubmissionBoundary claim predecessor submittedAt now) =
          .ok (next, .claimed boundary) →
        ∀ other ∈ s.runs, other.pk ≠ claim.runId → ¬ other.unresolved := by
  intro s t
  have ordered : s.Ordered := FeedStore.reached_ordered start events
  have evolves := workflow_evolves ordered action
  refine ⟨ordered.rows.owner, ?_, ?_, ?_⟩
  · intro old old_mem new new_mem same crossed withdrawn
    rcases evolves.row ordered.rows.keys (fun _ _ step => step.pk) old_mem new_mem same with rfl | step
    · exact .inl rfl
    · apply Or.inr
      by_contra unheld
      exact step.withdrawn unheld withdrawn crossed
  · intro old old_mem unresolved
    obtain ⟨new, new_mem, rfl | step⟩ := evolves.kept old old_mem
    · exact ⟨new, new_mem, rfl, .inl unresolved⟩
    · refine ⟨new, new_mem, step.pk, ?_⟩
      by_contra open'
      simp only [not_or] at open'
      exact open'.1 (step.unresolved open'.2.1 open'.2.2 unresolved)
  · intro claim predecessor submittedAt now next boundary committed other other_mem different unresolved
    obtain ⟨_, made, given⟩ := claiming_ok.mp committed
    rcases persistFeedSubmissionBoundary_claimed ordered made with ⟨run, mem, unsubmitted, -⟩ | ⟨rfl, -⟩
    · have owns : run.owns := by
        simp [MarketplaceFeedRun.owns, unsubmitted.2.1, FeedRunState.ownershipStates, FeedRunState.activeStates]
      have one : other = run := only_row ordered.rows.owner other_mem mem unresolved.2 owns
      exact different (one ▸ unsubmitted.1.pk)
    · cases given

/-- For every order of operations and every claim: a run changes only to its next revision; an
operation presented with a claim commits only a transition of the claimed run, and then every
later operation with that claim fails and writes nothing; so does every operation with a claim
of this or an earlier revision of a run once anything has moved the run; and a claim that is
handed out never names a later revision than its run has. -/
theorem claim_fencing (start : FeedStore) (events : List FeedEvent) (action : FeedAction)
    (rest : List FeedEvent) :
    let s := run FeedStore.next start.empty events
    let t := s.next (.workflow action)
    let u := run FeedStore.next t rest
    (∀ old ∈ s.runs, ∃ new ∈ t.runs, new.pk = old.pk ∧ (new = old ∨ new.revision = old.revision + 1)) ∧
      (∀ claim now, action.claim? = some (claim, now) → t ≠ s →
        (∃ old ∈ s.runs, claim.Fences old now ∧
          ∃ new ∈ t.runs, new.pk = old.pk ∧ new.revision = old.revision + 1) ∧
        ∀ again later, again.claim? = some (claim, later) →
          Fails u again ∧ u.next (.workflow again) = u) ∧
      (∀ old ∈ s.runs, old ∉ t.runs → ∀ stale claim later, stale.claim? = some (claim, later) →
        claim.runId = old.pk → claim.revision ≤ old.revision →
        Fails u stale ∧ u.next (.workflow stale) = u) ∧
      ∀ claim, perform s action = .ok (t, .claimed claim) →
        ∃ run ∈ u.runs, run.pk = claim.runId ∧ claim.revision ≤ run.revision := by
  intro s t u
  have ordered : s.Ordered := FeedStore.reached_ordered start events
  have evolves := workflow_evolves ordered action
  have ordered_t : t.Ordered := FeedStore.next_ordered s _ ordered
  have ordered_u : u.Ordered := run_always FeedStore.next FeedStore.next_ordered ordered_t rest
  have advances : Advances t u := FeedStore.run_advances ordered_t rest
  -- a claim that a later revision has overtaken in `t` fails in `u`
  have overtaken : ∀ new ∈ t.runs, ∀ stale claim later, stale.claim? = some (claim, later) →
      new.pk = claim.runId → claim.revision < new.revision →
      Fails u stale ∧ u.next (.workflow stale) = u := by
    intro new new_mem stale claim later presented pk older
    obtain ⟨last, last_mem, last_pk, last_revision⟩ := advances new new_mem
    exact stale_claim_fails ordered_u presented last_mem (last_pk.trans pk) (by omega)
  refine ⟨?_, ?_, ?_, ?_⟩
  · intro old old_mem
    obtain ⟨new, new_mem, same | step⟩ := evolves.kept old old_mem
    · exact ⟨new, new_mem, congrArg _ same, .inl same⟩
    · exact ⟨new, new_mem, step.pk, .inr step.revision⟩
  · intro claim now presented changed
    have moved := claimed_change ordered presented changed
    obtain ⟨old, old_mem, fences, new, new_mem, pk, revision⟩ := moved
    refine ⟨⟨old, old_mem, fences, new, new_mem, pk, revision⟩, fun again later given => ?_⟩
    have current := fences.revision
    exact overtaken new new_mem again claim later given (pk.trans fences.pk) (by omega)
  · intro old old_mem gone stale claim later presented pk older
    obtain ⟨new, new_mem, rfl | step⟩ := evolves.kept old old_mem
    · exact absurd new_mem gone
    · have revision := step.revision
      exact overtaken new new_mem stale claim later presented (step.pk.trans pk.symm) (by omega)
  · intro claim given
    obtain ⟨row, row_mem, pk, revision, -⟩ := perform_issued ordered given
    obtain ⟨last, last_mem, last_pk, last_revision⟩ := advances row row_mem
    exact ⟨last, last_mem, last_pk.trans pk, by omega⟩

def feedAccount : MarketplaceAccount :=
  { tenant := 1, marketplace := "avito", identityDigest := "owner", deletedAt := none, isActive := true,
    tenantIsActive := true, statusBatchDueAt := none }

def feedStore : FeedStore :=
  { accountId := 1, account := some feedAccount, runs := [], listings := [], syncLog := [], otherRuns := [],
    otherExternalIds := [] }

def feedGeneration : NewGeneration :=
  { generationId := 7, payloadSha256 := "", sourceIntentRevision := none, endpointRevision := none,
    predecessorArtifactId := none }

def claimedGeneration : List FeedEvent :=
  [.workflow (.createOrSupersedeFeedRun 1 feedGeneration 0),
   .workflow (.claimDueRunForAccount 1 none none { now := 0, lease := 10, token := 100 })]

def claimedStore : FeedStore := run FeedStore.next feedStore.empty claimedGeneration

def claimedRun : MarketplaceFeedRun :=
  { freshRun feedAccount feedGeneration 0 0 with revision := 1, claimToken := some 100, claimedUntil := some 10 }

def firstClaim : FeedRunClaim := claimSnapshot 1 claimedRun 100 10

def takeover : FeedAction := .claimDueRunForAccount 1 none none { now := 10, lease := 10, token := 200 }

/-- After the takeover of an expired lease the first worker can no longer record its submission. -/
theorem claim_fencing_takeover :
    claimedStore.next (.workflow takeover) ≠ claimedStore ∧
      Fails (claimedStore.next (.workflow takeover)) (.markFeedSubmitted firstClaim "digest" none 5 6 5) :=
  ⟨by decide +kernel,
    ((claim_fencing feedStore claimedGeneration takeover []).2.2.1 claimedRun (by decide +kernel)
      (by decide +kernel) (.markFeedSubmitted firstClaim "digest" none 5 6 5) firstClaim 5 rfl rfl (by decide)).1⟩

end MapBackend.Marketplaces
