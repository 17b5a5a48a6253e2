import MapBackend.Marketplaces.FeedCounters
import MapBackend.Marketplaces.FeedProviderSteps

/-!
The end of a submitted run at its deadline.
-/

namespace MapBackend.Marketplaces
open MapBackend.Library FeedWorkflow FeedProvider

def taggedCount (pk : Uuid) (listings : List Listing) : ℕ :=
  listings.countP fun listing => decide (listing.feedRun = some pk)

def FeedStore.Fits (s : FeedStore) : Prop := ∀ run ∈ s.runs, taggedCount run.pk s.listings ≤ run.totalCount

def FeedStore.Untags (s : FeedStore) : FeedEvent → Prop
  | .listingsSaved listings => ∀ listing ∈ listings, ∀ tag ∈ listing.feedRun,
      ∃ old ∈ s.listings, old.pk = listing.pk ∧ old.feedRun = some tag
  | _ => True

instance (s : FeedStore) (event : FeedEvent) : Decidable (s.Untags event) :=
  match event with
  | .listingsSaved listings => inferInstanceAs (Decidable (∀ listing ∈ listings, _))
  | .workflow _ | .accountSaved _ | .artifactAttached .. | .elsewhere .. => isTrue trivial

section Fits

variable {s t : FeedStore} {run : MarketplaceFeedRun} {listings : List Listing} {action : FeedAction}

theorem tallies_le_tagged (run : MarketplaceFeedRun) (listings : List Listing) :
    tally run .active listings + tally run .rejected listings + tally run .pending listings ≤
      taggedCount run.pk listings := by
  simp only [tally_countP, taggedCount]
  induction listings with
  | nil => simp
  | cons listing _ ih =>
    by_cases hit : listing.feedRun = some run.pk
    · by_cases tenant : listing.tenant = run.tenant
      · cases status : listing.status <;> simp [countsAs, hit, tenant, status] at ih ⊢ <;> omega
      · simp [countsAs, hit, tenant] at ih ⊢
        omega
    · simp [countsAs, hit] at ih ⊢
      omega

theorem taggedCount_map_le {pk : Uuid} {f : Listing → Listing}
    (source : ∀ listing ∈ listings, (f listing).feedRun = some pk → listing.feedRun = some pk) :
    taggedCount pk (listings.map f) ≤ taggedCount pk listings := by
  rw [taggedCount, List.countP_map]
  apply List.countP_mono_left
  intro listing mem tagged
  exact decide_eq_true (source listing mem (of_decide_eq_true tagged))

theorem FeedEffect.taggedCount_le (effect : FeedEffect s t action) (mem : run ∈ s.runs) :
    taggedCount run.pk t.listings ≤ taggedCount run.pk s.listings := by
  obtain ⟨f, listings, change⟩ := effect.listings
  rw [listings]
  apply taggedCount_map_le
  intro listing listing_mem named
  rcases change listing listing_mem with same | step
  · exact same ▸ named
  · cases step with
    | resolved _ _ _ _ _ outcome => exact outcome.generation ▸ named
    | tagged _ _ _ _ fresh same =>
      rw [same] at named
      exact absurd (Option.some.inj named).symm (fresh run mem)

theorem FeedEffect.fits (effect : FeedEffect s t action) (ordered : s.Ordered) (keyed : s.Keyed) (fits : s.Fits) :
    t.Fits := by
  intro new mem
  rcases (effect.frame ordered).source new mem with ⟨⟨⟨_, _, _, rfl, listings⟩, elsewhere⟩, unused⟩ |
      ⟨old, old_mem, rfl | step⟩
  · rw [listings, taggedCount, List.countP_map]
    refine le_trans ?_ (List.countP_eq_length_filter).le
    apply List.countP_mono_left
    intro listing listing_mem named
    simp only [Function.comp_apply, tagged, decide_eq_true_eq] at named ⊢
    split at named
    next pending => exact pending
    next =>
      rcases List.mem_append.mp (keyed.named listing listing_mem _ (of_decide_eq_true named)) with known | known
      · obtain ⟨old, old_mem, same⟩ := List.mem_map.mp known
        exact absurd same (unused old old_mem)
      · exact absurd known elsewhere
  · exact (effect.taggedCount_le old_mem).trans (fits new old_mem)
  · rw [step.pk, step.total]
    exact (effect.taggedCount_le old_mem).trans (fits old old_mem)

theorem taggedCount_saved (pk : Uuid) (saved : (listings.map Listing.pk).Nodup)
    (untags : s.Untags (.listingsSaved listings)) : taggedCount pk listings ≤ taggedCount pk s.listings := by
  have counted : ∀ rows : List Listing, taggedCount pk rows =
      ((rows.filter fun listing => listing.feedRun = some pk).map Listing.pk).length := by
    intro rows
    rw [List.length_map, taggedCount, List.countP_eq_length_filter]
  rw [counted, counted]
  apply List.Subperm.length_le
  apply List.subperm_of_subset (saved.sublist (List.filter_sublist.map _))
  intro key mem
  obtain ⟨listing, listing_mem, rfl⟩ := List.mem_map.mp mem
  obtain ⟨listing_mem, named⟩ := List.mem_filter.mp listing_mem
  obtain ⟨old, old_mem, same, tagged⟩ := untags listing listing_mem pk (of_decide_eq_true named)
  exact List.mem_map.mpr ⟨old, List.mem_filter.mpr ⟨old_mem, decide_eq_true tagged⟩, same⟩

structure FeedStore.Sized (s : FeedStore) : Prop where
  ordered : s.Ordered
  keyed : s.Keyed
  fits : s.Fits

theorem FeedStore.next_sized (s : FeedStore) (event : FeedEvent) (sized : s.Sized) (untags : s.Untags event) :
    (s.next event).Sized := by
  obtain ⟨ordered, keyed, fits⟩ := sized
  refine ⟨FeedStore.next_ordered s event ordered, FeedStore.next_keyed event ordered keyed, ?_⟩
  cases event with
  | workflow =>
    apply commit_preserves FeedStore.Fits s _ fits
    intro t outcome step
    exact (perform_effect ordered keyed step).fits ordered keyed fits
  | accountSaved => exact fits
  | listingsSaved listings =>
    show (s.saved { s with listings }).Fits
    unfold FeedStore.saved
    split
    next accepted =>
      intro run mem
      exact (taggedCount_saved run.pk accepted.keys untags).trans (fits run mem)
    next => exact fits
  | artifactAttached =>
    apply commit_preserves FeedStore.Fits s _ fits
    intro t result step
    simp only [attachArtifact, bind_ok, orRaise_ok] at step
    obtain ⟨run, found, next, written, same⟩ := step
    cases same
    obtain ⟨-, rfl⟩ := updateRun_ok.mp written
    intro row mem
    rcases mem_put.mp mem with ⟨rfl, -⟩ | ⟨kept, -⟩
    · exact fits run (findRun_mem found)
    · exact fits row kept
  | elsewhere otherRuns otherExternalIds =>
    show (s.saved { s with otherRuns, otherExternalIds }).Fits
    unfold FeedStore.saved
    split
    next => exact fits
    next => exact fits

end Fits

/-- The run moved on, or it is still the row that it was, apart from its artifact. -/
def StillOrMoved (old new : MarketplaceFeedRun) : Prop :=
  old.revision < new.revision ∨
    ∃ feedArtifact artifactUploadAttempt, new = { old with feedArtifact, artifactUploadAttempt }

def Persists (s t : FeedStore) : Prop := ∀ old ∈ s.runs, ∃ new ∈ t.runs, new.pk = old.pk ∧ StillOrMoved old new

section Snapshots

variable {s t : FeedStore}

theorem StillOrMoved.refl (run : MarketplaceFeedRun) : StillOrMoved run run :=
  .inr ⟨run.feedArtifact, run.artifactUploadAttempt, rfl⟩

theorem StillOrMoved.revision_le {old new : MarketplaceFeedRun} (moved : StillOrMoved old new) :
    old.revision ≤ new.revision := by
  rcases moved with later | ⟨_, _, rfl⟩
  · exact later.le
  · exact le_rfl

theorem StillOrMoved.trans {old mid new : MarketplaceFeedRun} (first : StillOrMoved old mid)
    (second : StillOrMoved mid new) : StillOrMoved old new := by
  rcases first with later | ⟨_, _, rfl⟩
  · exact .inl (later.trans_le second.revision_le)
  · rcases second with later | ⟨artifact, attempt, rfl⟩
    · exact .inl later
    · exact .inr ⟨artifact, attempt, rfl⟩

theorem Persists.refl (s : FeedStore) : Persists s s := fun old mem => ⟨old, mem, rfl, .refl old⟩

theorem Persists.of_same (same : t.runs = s.runs) : Persists s t := by
  intro old mem
  exact ⟨old, same ▸ mem, rfl, .refl old⟩

theorem Persists.trans (s t u : FeedStore) (first : Persists s t) (second : Persists t u) : Persists s u := by
  intro old mem
  obtain ⟨mid, mid_mem, mid_pk, mid_moved⟩ := first old mem
  obtain ⟨new, new_mem, new_pk, new_moved⟩ := second mid mid_mem
  exact ⟨new, new_mem, new_pk.trans mid_pk, mid_moved.trans new_moved⟩

theorem FeedStore.next_persists (s : FeedStore) (event : FeedEvent) (ordered : s.Ordered) :
    Persists s (s.next event) := by
  cases event with
  | workflow action =>
    intro old mem
    obtain ⟨new, new_mem, same | step⟩ := (workflow_evolves ordered action).kept old mem
    · exact ⟨new, new_mem, congrArg _ same, same ▸ .refl new⟩
    · exact ⟨new, new_mem, step.pk, .inl (by rw [step.revision]; omega)⟩
  | artifactAttached =>
    apply commit_relates Persists s _ (Persists.refl s)
    intro t result step
    obtain ⟨run, mem, -, runs⟩ := attachArtifact_ok step
    intro old old_mem
    rw [runs]
    by_cases hit : old.pk = run.pk
    · have same : old = run := row_unique ordered.rows.keys old_mem mem hit
      exact ⟨_, mem_put.mpr (.inl ⟨rfl, old, old_mem, hit⟩), hit.symm, same ▸ .inr ⟨_, _, rfl⟩⟩
    · exact ⟨old, mem_put.mpr (.inr ⟨old_mem, hit⟩), rfl, .refl old⟩
  | accountSaved => exact Persists.refl s
  | listingsSaved => exact Persists.of_same (FeedStore.saved_runs rfl)
  | elsewhere => exact Persists.of_same (FeedStore.saved_runs rfl)

theorem fenced_same {claim : FeedRunClaim} {now : Instant} {row current : MarketplaceFeedRun}
    (ordered : s.Ordered) (events : List FeedEvent) (mem : row ∈ s.runs) (pk : row.pk = claim.runId)
    (revision : row.revision = claim.revision) (current_mem : current ∈ (run FeedStore.next s events).runs)
    (fences : claim.Fences current now) :
    ∃ feedArtifact artifactUploadAttempt, current = { row with feedArtifact, artifactUploadAttempt } := by
  have persists := run_relates FeedStore.next Persists.refl Persists.trans FeedStore.next_ordered
    FeedStore.next_persists ordered events
  have keys := (run_always FeedStore.next FeedStore.next_ordered ordered events).rows.keys
  obtain ⟨new, new_mem, new_pk, moved⟩ := persists row mem
  have one : new = current := row_unique keys new_mem current_mem (new_pk.trans (pk.trans fences.pk.symm))
  rcases moved with later | same
  · have current_revision := fences.revision
    rw [one] at later
    omega
  · exact one ▸ same

end Snapshots

/-- What ends a step that looks for an unknown submission: the provider shows an upload but the
submission has no baseline, or this is one negative answer too many. -/
def EndsUnknown (externalId : String) (run : MarketplaceFeedRun) (answers : ProviderAnswers) (clock : StepClock) :
    Prop :=
  match answers.before with
  | .failed _ => False
  | .answered upload =>
    match latestUploadObservation externalId run upload with
    | none => negativesSuffice run clock
    | some (providerRunId, _) => run.providerPredecessorRunId = none ∨
        run.providerPredecessorRunId = some providerRunId ∧ negativesSuffice run clock

section Steps

variable {s t : FeedStore} {externalId : String} {claim : FeedRunClaim} {run : MarketplaceFeedRun} {maxPages : ℕ}
  {batch : Option (List Listing)} {answers : ProviderAnswers} {clock : StepClock}

def Finishes (claim : FeedRunClaim) (clock : StepClock) (action : FeedAction) : Prop :=
  ∃ state submission, action = .finishFeedRun claim state submission clock.commit ∧
    state ∈ [FeedRunState.failed, .outcomeUncertain] ∧ (submission = true → claim.state = .submitUnknown)

def Continues (claim : FeedRunClaim) (action : FeedAction) : Prop :=
  (∃ nextAttemptAt submission now, action = .retryStep claim nextAttemptAt false submission now) ∨
    ∃ providerRunId nextAttemptAt now, action = .recordProviderRunObservation claim providerRunId nextAttemptAt now

theorem recordSubmissionNegativeOrFail_step (run : MarketplaceFeedRun) (clock : StepClock)
    (unknown : claim.state = .submitUnknown) :
    (negativesSuffice run clock → Finishes claim clock (recordSubmissionNegativeOrFail claim run clock)) ∧
      (¬ negativesSuffice run clock → Continues claim (recordSubmissionNegativeOrFail claim run clock)) := by
  constructor
  · intro suffice'
    rw [recordSubmissionNegativeOrFail, if_pos suffice']
    exact ⟨.outcomeUncertain, true, rfl, by decide, fun _ => unknown⟩
  · intro few
    rw [recordSubmissionNegativeOrFail, if_neg few]
    exact .inl ⟨_, true, _, rfl⟩

theorem processSubmissionUnknown_step (externalId : String) (run : MarketplaceFeedRun) (answers : ProviderAnswers)
    (clock : StepClock) (unknown : claim.state = .submitUnknown) :
    (EndsUnknown externalId run answers clock →
        Finishes claim clock (processSubmissionUnknown externalId claim run answers clock)) ∧
      (¬ EndsUnknown externalId run answers clock →
        Continues claim (processSubmissionUnknown externalId claim run answers clock)) := by
  have negative := recordSubmissionNegativeOrFail_step run clock unknown
  unfold EndsUnknown processSubmissionUnknown
  cases answers.before with
  | failed => exact ⟨False.elim, fun _ => .inl ⟨_, false, _, rfl⟩⟩
  | answered upload =>
    dsimp only
    cases latestUploadObservation externalId run upload with
    | none => exact negative
    | some observed =>
      obtain ⟨providerRunId, _⟩ := observed
      by_cases baseless : run.providerPredecessorRunId = none
      · simp only [baseless, if_true]
        exact ⟨fun _ => ⟨.outcomeUncertain, false, rfl, by decide, by simp⟩, fun open' => absurd (.inl trivial) open'⟩
      · by_cases old : run.providerPredecessorRunId = some providerRunId
        · simp only [old, if_true, if_false, true_and, false_or, reduceCtorEq]
          exact negative
        · simp only [baseless, old, if_false, false_and, or_self, not_false_eq_true, true_imp_iff]
          refine ⟨False.elim, ?_⟩
          split
          · exact .inl ⟨_, false, _, rfl⟩
          · exact .inr ⟨_, _, _, rfl⟩

theorem processMarketplaceFeedRunStep_deadline (externalId : String) (maxPages : ℕ) (batch : Option (List Listing))
    (answers : ProviderAnswers) (reached : providerResultDeadlineReached run clock.entered)
    (known : claim.state ≠ .submitUnknown) :
    ∃ action, processMarketplaceFeedRunStep externalId claim run maxPages batch answers clock = some action ∧
      Finishes claim clock action := by
  unfold processMarketplaceFeedRunStep
  cases state : claim.state with
  | submitUnknown => exact absurd state known
  | polling =>
    rw [show processPollingFeedRun externalId claim run batch answers clock =
      some (finishProviderResultUncertain claim clock) from if_pos reached]
    exact ⟨_, rfl, .outcomeUncertain, false, rfl, by decide, by simp⟩
  | reporting =>
    rw [show processReportingFeedRun externalId claim run maxPages answers clock =
      finishProviderResultUncertain claim clock from if_pos reached]
    exact ⟨_, rfl, .outcomeUncertain, false, rfl, by decide, by simp⟩
  | _ => exact ⟨_, rfl, .failed, false, rfl, by decide, by simp⟩

theorem processMarketplaceFeedRunStep_ends (externalId : String) (maxPages : ℕ) (batch : Option (List Listing))
    (answers : ProviderAnswers) (reached : providerResultDeadlineReached run clock.entered) :
    ∃ action, processMarketplaceFeedRunStep externalId claim run maxPages batch answers clock = some action ∧
      (claim.state ≠ .submitUnknown ∨ EndsUnknown externalId run answers clock → Finishes claim clock action) ∧
      (¬ (claim.state ≠ .submitUnknown ∨ EndsUnknown externalId run answers clock) → Continues claim action) := by
  by_cases unknown : claim.state = .submitUnknown
  · have step := processSubmissionUnknown_step externalId run answers clock unknown
    refine ⟨processSubmissionUnknown externalId claim run answers clock, ?_, ?_, ?_⟩
    · rw [processMarketplaceFeedRunStep, unknown]
    · intro ends
      exact step.1 (ends.resolve_left (not_not.mpr unknown))
    · intro open'
      exact step.2 fun ends => open' (.inr ends)
  · obtain ⟨action, made, finishes⟩ := processMarketplaceFeedRunStep_deadline externalId maxPages batch answers
      reached unknown
    exact ⟨action, made, fun _ => finishes, fun open' => absurd (.inl unknown) open'⟩

theorem row_of_put {runs : List MarketplaceFeedRun} {new row : MarketplaceFeedRun}
    (mem : row ∈ put MarketplaceFeedRun.pk new runs) (pk : row.pk = new.pk) : row = new := by
  rcases mem_put.mp mem with ⟨same, -⟩ | ⟨-, other⟩
  · exact same
  · exact absurd pk other

variable {now : Instant}

theorem finishFeedRun_commits {state : FeedRunState} {submission : Bool} (sized : s.Sized)
    (locked : lockClaimedRun claim FeedRunState.activeStates now s = .ok run)
    (ends : state ∈ [FeedRunState.failed, .outcomeUncertain])
    (unknown : submission = true → run.state = .submitUnknown) :
    ∃ t new, finishFeedRun claim state submission now s = .ok t ∧ new ∈ t.runs ∧ new.pk = run.pk ∧ new.state = state := by
  have mem := (lockClaimedRun_ok locked).1
  have owner := lockClaimedRun_owns locked fun _ => id
  have fits := (tallies_le_tagged run s.listings).trans (sized.fits run mem)
  have finished : state ∈ [FeedRunState.succeeded, .failed, .outcomeUncertain, .cancelled] ∧
      state ≠ .succeeded := by
    simp only [List.mem_cons, List.not_mem_nil, or_false] at ends
    rcases ends with rfl | rfl <;> decide
  have rows : FeedRunConstraints (put MarketplaceFeedRun.pk { run with
      publishedCount := tally run .active s.listings
      rejectedCount := tally run .rejected s.listings
      pendingCount := tally run .pending s.listings
      state
      submissionReconcileAttempt :=
        if submission then run.submissionReconcileAttempt + 1 else run.submissionReconcileAttempt
      nextAttemptAt := none
      finishedAt := some now
      revision := run.revision + 1
      claimToken := none
      claimedUntil := none } s.runs) :=
    sized.ordered.rows.move mem rfl (fun _ => owner) rfl rfl (sized.ordered.rows.checked run mem)
  simp only [finishFeedRun, bind_ok, raiseIf_ok]
  refine ⟨_, _, ⟨(), not_not.mpr finished.1, run, locked, (), ?_, _,
    recomputedCounters_counts.mpr ⟨fits, rfl⟩, (), ?_, (), ?_, updateRun_ok.mpr ⟨rows, rfl⟩⟩,
    mem_put.mpr (.inl ⟨rfl, run, mem, rfl⟩), rfl, rfl⟩
  · rintro ⟨counted, other⟩
    exact other (unknown counted)
  · exact fun succeeded => finished.2 succeeded.1
  · exact fun succeeded => finished.2 succeeded.1

theorem lockClaimedRun_claimed {allowedStates : List FeedRunState}
    (locked : lockClaimedRun claim allowedStates now s = .ok run) : run.state = claim.state := by
  simp only [lockClaimedRun, bind_ok, raiseIf_ok, orRaise_ok] at locked
  obtain ⟨_, -, _, -, found⟩ := locked
  have fenced := List.find?_some found
  simp only [decide_eq_true_eq] at fenced
  exact fenced.2.1

theorem Continues.active {action : FeedAction} {row : MarketplaceFeedRun} (ordered : s.Ordered)
    (continues : Continues claim action)
    (locked : lockClaimedRun claim FeedRunState.activeStates now s = .ok run)
    (mem : row ∈ (s.next (.workflow action)).runs) (pk : row.pk = run.pk) : row.active := by
  obtain ⟨run_mem, fences⟩ := lockClaimedRun_ok locked
  have before := lockClaimedRun_state locked
  cases step : perform s action with
  | error =>
    have same : s.next (.workflow action) = s := by simp [FeedStore.next, step]
    rw [same] at mem
    have one : row = run := row_unique ordered.rows.keys mem run_mem pk
    exact one ▸ before
  | ok pair =>
    obtain ⟨t, _⟩ := pair
    rw [next_workflow step] at mem
    rcases continues with ⟨nextAttemptAt, _, later, rfl⟩ | ⟨_, nextAttemptAt, later, rfl⟩
    · have written := (done_ok.mp step).1
      simp only [retryStep, bind_ok, raiseIf_ok] at written
      obtain ⟨_, -, again, relocked, _, -, _, -, written⟩ := written
      obtain ⟨-, rfl⟩ := updateRun_ok.mp written
      have same := (lockClaimedRun_ok relocked).2.pk.trans fences.pk.symm
      have active := lockClaimedRun_state relocked
      rw [row_of_put mem (pk.trans same.symm)]
      exact active
    · have written := (done_ok.mp step).1
      simp only [recordProviderRunObservation, bind_ok, raiseIf_ok] at written
      obtain ⟨_, -, again, relocked, _, -, _, -, _, -, written⟩ := written
      obtain ⟨-, rfl⟩ := updateRun_ok.mp written
      have same := (lockClaimedRun_ok relocked).2.pk.trans fences.pk.symm
      rw [row_of_put mem (pk.trans same.symm)]
      exact (by decide : FeedRunState.polling ∈ FeedRunState.activeStates)

end Steps

theorem FeedStore.blank_sized (start : FeedStore) : start.blank.Sized :=
  ⟨start.blank_ordered, start.blank_keyed, fun _ mem => absurd mem List.not_mem_nil⟩

/-- For every order of operations in which no code outside the workflow tags listings: a step that
claimed a run, read the provider at or after the deadline of the run (answers, failures and
what happened meanwhile are arbitrary) and still holds its claim at its commit moves the run
out of the active states if and only if the run is not an unknown submission, or the
provider's answer ends one. -/
theorem deadline_ends_run_iff (start : FeedStore) (before between : List FeedEvent) (accountId : ℕ)
    (generation : Option Uuid) (revision : Option ℕ) (given : Lease) (s₁ : FeedStore) (claim : FeedRunClaim)
    (row current : MarketplaceFeedRun) (externalId : String) (maxPages : ℕ) (batch : Option (List Listing))
    (answers : ProviderAnswers) (clock : StepClock)
    (untags : Meets FeedStore.next FeedStore.Untags start.blank before ∧
      Meets FeedStore.next FeedStore.Untags s₁ between)
    (claimed : perform (run FeedStore.next start.blank before)
      (.claimDueRunForAccount accountId generation revision given) = .ok (s₁, .claimed claim))
    (mem : row ∈ s₁.runs) (pk : row.pk = claim.runId)
    (deadline : ∀ deadline, row.providerResultDeadlineAt = some deadline → deadline ≤ clock.entered)
    (locked : lockClaimedRun claim FeedRunState.activeStates clock.commit (run FeedStore.next s₁ between) =
      .ok current) :
    (∃ action, processMarketplaceFeedRunStep externalId claim row maxPages batch answers clock = some action ∧
      ∃ new ∈ ((run FeedStore.next s₁ between).next (.workflow action)).runs, new.pk = row.pk ∧ ¬ new.active) ↔
    row.state ≠ .submitUnknown ∨ EndsUnknown externalId row answers clock := by
  have sized₀ : (run FeedStore.next start.blank before).Sized :=
    run_invariant FeedStore.next FeedStore.next_sized start.blank_sized untags.1
  have sized₁ : s₁.Sized := by
    have step := FeedStore.next_sized _ (.workflow (.claimDueRunForAccount accountId generation revision given))
      sized₀ trivial
    rwa [next_workflow claimed] at step
  have sized : (run FeedStore.next s₁ between).Sized :=
    run_invariant FeedStore.next FeedStore.next_sized sized₁ untags.2
  obtain ⟨issued, issued_mem, issued_pk, issued_revision, -⟩ := perform_issued sized₀.ordered claimed
  have same_row : issued = row := row_unique sized₁.ordered.rows.keys issued_mem mem (issued_pk.trans pk.symm)
  obtain ⟨current_mem, fences⟩ := lockClaimedRun_ok locked
  -- the fence of the claim makes the row at the commit the one that the step read
  obtain ⟨_, _, same⟩ := fenced_same sized₁.ordered between mem pk (same_row ▸ issued_revision)
    current_mem fences
  have current_pk : current.pk = row.pk := by rw [same]
  have current_state : current.state = row.state := by rw [same]
  have state : row.state = claim.state := current_state.symm.trans (lockClaimedRun_claimed locked)
  have reached : providerResultDeadlineReached row clock.entered := by
    cases given : row.providerResultDeadlineAt with
    | none => simp [providerResultDeadlineReached, given]
    | some due => simpa [providerResultDeadlineReached, given] using deadline due given
  obtain ⟨action, made, finishes, continues⟩ :=
    processMarketplaceFeedRunStep_ends externalId maxPages batch answers reached
  rw [state]
  constructor
  · rintro ⟨again, same_action, new, new_mem, new_pk, inactive⟩
    have one : again = action := Option.some.inj (same_action.symm.trans made)
    by_contra open'
    exact inactive ((continues open').active sized.ordered locked (one ▸ new_mem) (new_pk.trans current_pk.symm))
  · intro ends
    obtain ⟨final, submission, rfl, terminal, unknown⟩ := finishes ends
    have unknown' : submission = true → current.state = .submitUnknown :=
      fun counted => (current_state.trans state).trans (unknown counted)
    obtain ⟨t, new, finished, new_mem, new_pk, new_state⟩ := finishFeedRun_commits sized locked terminal unknown'
    refine ⟨_, made, new, ?_, new_pk.trans current_pk, ?_⟩
    · have step : perform (run FeedStore.next s₁ between)
          (.finishFeedRun claim final submission clock.commit) = .ok (t, .done) := done_ok.mpr ⟨finished, rfl⟩
      rw [next_workflow step]
      exact new_mem
    · rw [MarketplaceFeedRun.active, new_state]
      simp only [List.mem_cons, List.not_mem_nil, or_false] at terminal
      rcases terminal with rfl | rfl <;> decide

def submittedDeadline : Instant := 1 + providerResultHorizon

def deadlineClaim : FeedAction := .claimDueRunForAccount 1 none none { now := submittedDeadline, lease := 100, token := 200 }

def deadlineClock : StepClock :=
  { entered := submittedDeadline + 1, checked := submittedDeadline + 2, transition := submittedDeadline + 3,
    commit := submittedDeadline + 4 }

def noAnswers : ProviderAnswers :=
  { before := .failed none, results := .failed none, page := .failed none, after := .failed none }

def unknownSubmission : List FeedEvent :=
  claimedGeneration ++ [.workflow (.persistFeedSubmissionBoundary firstClaim "previous" 1 1)]

def unknownStore : FeedStore := (run FeedStore.next feedStore.blank unknownSubmission).next (.workflow deadlineClaim)

def unknownClaim : FeedRunClaim := generationClaim .submitUnknown 3 (some 1) 200 (submittedDeadline + 100)

def unknownRow : MarketplaceFeedRun :=
  { claimedRun with
    state := .submitUnknown
    revision := 3
    submittedAt := some 1
    providerPredecessorRunId := some "previous"
    providerResultDeadlineAt := some submittedDeadline
    claimToken := some 200
    claimedUntil := some (submittedDeadline + 100) }

def unknownRetry : FeedAction :=
  .retryStep unknownClaim (submittedDeadline + 3 + pollRetryDelay) false false (submittedDeadline + 4)

/-- At its deadline an unknown submission whose upload cannot be read is scheduled once more. -/
theorem unknown_submission_outlives_deadline :
    unknownRow ∈ unknownStore.runs ∧ unknownRow.providerResultDeadlineAt = some submittedDeadline ∧
      processMarketplaceFeedRunStep "seller" unknownClaim unknownRow 100 none noAnswers deadlineClock =
        some unknownRetry ∧
      ∃ new ∈ (unknownStore.next (.workflow unknownRetry)).runs, new.pk = unknownRow.pk ∧ new.active ∧
        new.nextAttemptAt = some (submittedDeadline + 3 + pollRetryDelay) :=
  ⟨by decide +kernel, rfl, rfl, by decide +kernel⟩

def deadlineGeneration : List FeedEvent := polledGeneration.dropLast

def deadlineStore : FeedStore :=
  (run FeedStore.next feedStore.blank deadlineGeneration).next (.workflow deadlineClaim)

def pollingClaim : FeedRunClaim := generationClaim .polling 3 (some 1) 200 (submittedDeadline + 100)

def pollingRow : MarketplaceFeedRun :=
  { claimedRun with
    state := .polling
    revision := 3
    payloadSha256 := "digest"
    providerRunId := some "upload"
    submittedAt := some 1
    providerResultDeadlineAt := some submittedDeadline
    nextAttemptAt := some 2
    totalCount := 1
    pendingCount := 1
    claimToken := some 200
    claimedUntil := some (submittedDeadline + 100) }

/-- At its deadline a polled run ends although no read of the provider succeeds. -/
theorem polled_run_ends_at_deadline :
    ∃ action, processMarketplaceFeedRunStep "seller" pollingClaim pollingRow 100 none noAnswers deadlineClock =
      some action ∧
        ∃ new ∈ (deadlineStore.next (.workflow action)).runs, new.pk = pollingRow.pk ∧ ¬ new.active :=
  (deadline_ends_run_iff feedStore deadlineGeneration [] 1 none none
    { now := submittedDeadline, lease := 100, token := 200 } deadlineStore pollingClaim pollingRow pollingRow "seller"
    100 none noAnswers deadlineClock (by decide +kernel) (by decide +kernel) (by decide +kernel) rfl
    (fun _ due => Option.some.inj due ▸ by decide) (by decide +kernel)).mpr (.inl (by decide))

end MapBackend.Marketplaces
