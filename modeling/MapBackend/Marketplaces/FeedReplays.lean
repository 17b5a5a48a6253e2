import MapBackend.Marketplaces.FeedCounters
import Mathlib.Data.List.Pairwise

/-!
Replays of a generation: creating it again finds the run that is there, and a failed run is opened again only when
nothing of it reached the storage or the provider.
-/

namespace MapBackend.Marketplaces
open MapBackend.Library

structure MarketplaceFeedRun.NoTrace (run : MarketplaceFeedRun) : Prop where
  unsubmitted : run.submittedAt = none
  unnamed : run.providerRunId = none
  first : run.providerPredecessorRunId = none
  unstored : run.feedArtifact = none
  unattempted : run.artifactUploadAttempt = 0

def MarketplaceFeedRun.reopened (run : MarketplaceFeedRun) (now : Instant) : MarketplaceFeedRun :=
  { run with
    state := .preparing
    revision := run.revision + 1
    nextAttemptAt := some now
    finishedAt := none }

namespace FeedWorkflow

structure FrozenEndpoint where
  artifactRevision : ℕ
  currentArtifactId : Option Uuid

def frozenGeneration (existing : Option MarketplaceFeedRun) (fresh : Uuid) (payloadSha256 : String) (sourceIntentRevision : ℕ)
    (endpoint : FrozenEndpoint) : NewGeneration where
  generationId := existing.elim fresh MarketplaceFeedRun.pk
  payloadSha256
  sourceIntentRevision := some sourceIntentRevision
  endpointRevision := existing.elim (some endpoint.artifactRevision) MarketplaceFeedRun.endpointRevision
  predecessorArtifactId := existing.elim endpoint.currentArtifactId MarketplaceFeedRun.predecessorArtifactId

/-- `_prepare_private_feed_run` behind the checks of the endpoint: create the generation, or find it and open it again
when it failed. -/
def preparePrivateFeedRun (accountId sourceIntentRevision : ℕ) (payloadSha256 : String) (endpoint : FrozenEndpoint) (fresh : Uuid)
    (hasUploadAttempts : Bool) (now : Instant) (s : FeedStore) : Except FeedError (FeedStore × Uuid) := do
  let existing := s.runs.find? fun run => decide (run.sourceIntentRevision = some sourceIntentRevision)
  let (s, pk) ← createOrSupersedeFeedRun accountId (frozenGeneration existing fresh payloadSha256 sourceIntentRevision endpoint) now s
  match existing with
  | some run =>
    if run.state = .failed then do
      let s ← resumeFailedPreSubmissionFeedRun accountId pk run.revision payloadSha256 hasUploadAttempts now s
      .ok (s, pk)
    else .ok (s, pk)
  | none => .ok (s, pk)

end FeedWorkflow

open FeedWorkflow

section Replays

variable {s t : FeedStore} {accountId sourceIntentRevision expectedRevision : ℕ} {generationId pk : Uuid} {payloadSha256 : String}
  {hasUploadAttempts : Bool} {now : Instant} {run existing : MarketplaceFeedRun} {new : NewGeneration}

theorem resumeFailed_ok (step : resumeFailedPreSubmissionFeedRun accountId generationId expectedRevision payloadSha256
    hasUploadAttempts now s = .ok t) : ∃ run ∈ s.runs, run.pk = generationId ∧ run.state = .failed ∧ run.NoTrace ∧
      hasUploadAttempts = false ∧ run.revision = expectedRevision ∧ run.payloadSha256 = payloadSha256 ∧
      FeedRunConstraints t.runs ∧ t = { s with runs := put MarketplaceFeedRun.pk (run.reopened now) s.runs } := by
  simp only [resumeFailedPreSubmissionFeedRun, bind_ok, raiseIf_ok, orRaise_ok, not_not] at step
  obtain ⟨_, -, _, -, run, found, _, safe, _, attempts, _, -, written⟩ := step
  obtain ⟨failed, revision, -, payload, -, -, -, unsubmitted, unnamed, first, -, -, unstored, unattempted, -⟩ := safe
  have named := List.find?_some found
  obtain ⟨rows, rfl⟩ := updateRun_ok.mp written
  exact ⟨run, findRun_mem found, of_decide_eq_true named, failed, ⟨unsubmitted, unnamed, first, unstored, unattempted⟩,
    Bool.not_eq_true _ ▸ attempts, revision, payload, rows, rfl⟩

structure Replays (s : FeedStore) (accountId : ℕ) (new : NewGeneration) (existing : MarketplaceFeedRun) : Prop where
  wellFormed : new.wellFormed
  live : ∃ account, lockAccount s accountId = some account ∧ account.live
  elsewhere : new.generationId ∉ s.otherRuns
  digest : new.payloadSha256 = "" ∨ existing.payloadSha256 = "" ∨ existing.payloadSha256 = new.payloadSha256
  snapshot : existing.sourceIntentRevision = new.sourceIntentRevision ∧ existing.endpointRevision = new.endpointRevision ∧
    existing.predecessorArtifactId = new.predecessorArtifactId

theorem createOrSupersede_known (found : findRun s new.generationId = some existing) :
    createOrSupersedeFeedRun accountId new now s = .ok (t, pk) ↔ Replays s accountId new existing ∧ t = s ∧ pk = existing.pk := by
  simp only [createOrSupersedeFeedRun, bind_ok, raiseIf_ok, orRaise_ok, found, not_not]
  constructor
  · rintro ⟨_, formed, account, locked, _, live, _, elsewhere, _, digest, _, snapshot, same⟩
    cases same
    simp only [not_and_or, not_not] at digest
    simp only [not_or, not_not] at snapshot
    exact ⟨⟨formed, ⟨account, locked, live⟩, elsewhere, digest, snapshot⟩, rfl, rfl⟩
  · rintro ⟨⟨formed, ⟨account, locked, live⟩, elsewhere, digest, snapshot⟩, rfl, rfl⟩
    refine ⟨(), formed, account, locked, (), live, (), elsewhere, (), ?_, (), ?_, rfl⟩
    · simpa only [not_and_or, not_not] using digest
    · simpa only [not_or, not_not] using snapshot

theorem findRun_of_mem (keys : (s.runs.map MarketplaceFeedRun.pk).Nodup) (mem : run ∈ s.runs) : findRun s run.pk = some run := by
  cases found : findRun s run.pk with
  | none => exact absurd (decide_eq_true rfl) (List.find?_eq_none.mp found run mem)
  | some =>
    have named := List.find?_some found
    exact congrArg some (row_unique keys (findRun_mem found) mem (of_decide_eq_true named))

theorem source_unique {runs : List MarketplaceFeedRun} (rows : FeedRunConstraints runs) {other : MarketplaceFeedRun} (left : run ∈ runs)
    (right : other ∈ runs) (source : run.sourceIntentRevision = some sourceIntentRevision)
    (same : other.sourceIntentRevision = some sourceIntentRevision) : run = other := by
  have apart := List.pairwise_filterMap.mp rows.source
  have symm : Std.Symm fun a b : MarketplaceFeedRun => ∀ x, a.sourceIntentRevision = some x → ∀ y, b.sourceIntentRevision = some y → x ≠ y :=
    ⟨fun a b h x left y right => (h y right x left).symm⟩
  by_contra different
  exact apart.forall left right different _ source _ same rfl

theorem find_source (rows : FeedRunConstraints s.runs) (mem : run ∈ s.runs)
    (source : run.sourceIntentRevision = some sourceIntentRevision) :
    (s.runs.find? fun run => decide (run.sourceIntentRevision = some sourceIntentRevision)) = some run := by
  cases found : s.runs.find? fun run => decide (run.sourceIntentRevision = some sourceIntentRevision) with
  | none => exact absurd (decide_eq_true source) (List.find?_eq_none.mp found run mem)
  | some other =>
    have named := List.find?_some found
    have same : other.sourceIntentRevision = some sourceIntentRevision := of_decide_eq_true named
    exact congrArg some (source_unique rows (List.mem_of_find?_eq_some found) mem same source)

theorem supersedeActive_runs {active : List MarketplaceFeedRun} (step : supersedeActive now active s = .ok t) :
    ∃ runs, t = { s with runs } := by
  induction active generalizing s with
  | nil =>
    cases step
    exact ⟨_, rfl⟩
  | cons _ _ ih =>
    simp only [supersedeActive, bind_ok] at step
    obtain ⟨_, -, _, closed, later⟩ := step
    obtain ⟨runs, rfl⟩ := ih later
    unfold terminalizeLocked at closed
    split at closed
    · cases closed
      exact ⟨runs, rfl⟩
    · obtain ⟨-, rfl⟩ := updateRun_ok.mp closed
      exact ⟨runs, rfl⟩

theorem createOrSupersede_fresh (unused : findRun s new.generationId = none)
    (step : createOrSupersedeFeedRun accountId new now s = .ok (t, pk)) : FeedRunConstraints t.runs ∧ pk = new.generationId ∧
      ∃ account total, freshRun account new total now ∈ t.runs ∧ Replays t accountId new (freshRun account new total now) := by
  simp only [createOrSupersedeFeedRun, bind_ok, raiseIf_ok, orRaise_ok, unused, not_not] at step
  obtain ⟨_, formed, account, locked, _, live, _, elsewhere, _, -, _, -, _, superseded, inserted⟩ := step
  obtain ⟨_, rfl⟩ := supersedeActive_runs superseded
  obtain ⟨_, written, same⟩ := bind_ok.mp inserted
  obtain ⟨rows, rfl⟩ := writeRuns_ok.mp written
  cases same
  exact ⟨rows, rfl, account, _, List.mem_append_right _ (List.mem_singleton_self _), formed, ⟨account, locked, live⟩, elsewhere,
    .inr (.inr rfl), rfl, rfl, rfl⟩

theorem preparePrivateFeedRun_replays {endpoint : FrozenEndpoint} {fresh : Uuid} (rows : FeedRunConstraints s.runs)
    (step : preparePrivateFeedRun accountId sourceIntentRevision payloadSha256 endpoint fresh hasUploadAttempts now s = .ok (t, pk)) :
    ∃ row ∈ t.runs, row.pk = pk ∧ row.state ≠ .failed ∧ row.sourceIntentRevision = some sourceIntentRevision ∧
      FeedRunConstraints t.runs ∧ ∀ endpoint fresh, Replays t accountId
        (frozenGeneration (some row) fresh payloadSha256 sourceIntentRevision endpoint) row := by
  unfold preparePrivateFeedRun at step
  obtain ⟨⟨_, _⟩, created, step⟩ := bind_ok.mp step
  dsimp only at step
  split at step
  · next run found =>
    have mem := List.mem_of_find?_eq_some found
    have named := List.find?_some found
    have source : run.sourceIntentRevision = some sourceIntentRevision := of_decide_eq_true named
    rw [found] at created
    obtain ⟨replays, rfl, rfl⟩ := (createOrSupersede_known (findRun_of_mem rows.keys mem)).mp created
    split at step
    · obtain ⟨next, resumed, same⟩ := bind_ok.mp step
      cases same
      obtain ⟨row, row_mem, row_pk, -, -, -, -, _, rows', rfl⟩ := resumeFailed_ok resumed
      obtain rfl : row = run := row_unique rows.keys row_mem mem row_pk
      refine ⟨row.reopened now, mem_put.mpr (.inl ⟨rfl, row, mem, rfl⟩), rfl,
        (by decide : FeedRunState.preparing ≠ .failed), source, rows', fun _ _ => ?_⟩
      exact ⟨replays.wellFormed, replays.live, replays.elsewhere, replays.digest, replays.snapshot⟩
    · next open' =>
      cases step
      exact ⟨run, mem, rfl, open', source, rows, fun _ _ =>
        ⟨replays.wellFormed, replays.live, replays.elsewhere, replays.digest, replays.snapshot⟩⟩
  · next none =>
    cases step
    rw [none] at created
    cases known : findRun s fresh with
    | some other =>
      -- a run of this id has another source, so that creating it is refused
      have known' : findRun s (frozenGeneration Option.none fresh payloadSha256 sourceIntentRevision endpoint).generationId =
          some other := known
      obtain ⟨replays, -, -⟩ := (createOrSupersede_known known').mp created
      exact absurd (decide_eq_true replays.snapshot.1) (List.find?_eq_none.mp none other (findRun_mem known))
    | none =>
      obtain ⟨rows', rfl, _, _, mem, replays⟩ := createOrSupersede_fresh known created
      exact ⟨_, mem, rfl, (by decide : FeedRunState.preparing ≠ .failed), rfl, rows', fun _ _ =>
        ⟨replays.wellFormed, replays.live, replays.elsewhere, replays.digest, rfl, rfl, rfl⟩⟩

theorem preparePrivateFeedRun_again {endpoint other : FrozenEndpoint} {fresh unused : Uuid} {attempts : Bool} {later : Instant}
    (rows : FeedRunConstraints s.runs)
    (step : preparePrivateFeedRun accountId sourceIntentRevision payloadSha256 endpoint fresh hasUploadAttempts now s = .ok (t, pk)) :
    preparePrivateFeedRun accountId sourceIntentRevision payloadSha256 other unused attempts later t = .ok (t, pk) := by
  obtain ⟨row, mem, rfl, open', source, rows', replays⟩ := preparePrivateFeedRun_replays rows step
  have found := find_source rows' mem source
  have created : createOrSupersedeFeedRun accountId _ later t = .ok (t, row.pk) :=
    (createOrSupersede_known (findRun_of_mem rows'.keys mem)).mpr ⟨replays other unused, rfl, rfl⟩
  unfold preparePrivateFeedRun
  dsimp only
  rw [found]
  refine bind_ok.mpr ⟨_, created, ?_⟩
  exact if_neg open'

theorem resumeFailed_stale {later : List FeedEvent} {attempts : Bool} {again : Instant}
    (step : resumeFailedPreSubmissionFeedRun accountId generationId expectedRevision payloadSha256 hasUploadAttempts now s = .ok t)
    (ordered' : t.Ordered) : ¬ ∃ u, resumeFailedPreSubmissionFeedRun accountId generationId expectedRevision payloadSha256
      attempts again (Library.run FeedStore.next t later) = .ok u := by
  obtain ⟨run, mem, rfl, -, -, -, _, -, -, rfl⟩ := resumeFailed_ok step
  rintro ⟨u, second⟩
  obtain ⟨row, row_mem, row_pk, -, -, -, _, -⟩ := resumeFailed_ok second
  obtain ⟨new, new_mem, new_pk, grown⟩ := FeedStore.run_advances ordered' later (run.reopened now)
    (mem_put.mpr (.inl ⟨rfl, run, mem, rfl⟩))
  have keys := (run_always FeedStore.next FeedStore.next_ordered ordered' later).rows.keys
  obtain rfl : row = new := row_unique keys row_mem new_mem (row_pk.trans new_pk.symm)
  have more : run.revision + 1 ≤ row.revision := grown
  omega

end Replays

/-- For every order of operations and of outside writes, from empty tables: a run is opened again only when it failed
without a trace of storage or provider work, this moves that run alone, keeps its payload and its private snapshot,
and cannot be repeated for the same revision in any later state; creating a generation that is there writes nothing
and returns it, exactly when its payload and its snapshot are the given ones; and preparing a generation a second time
returns the same run and writes nothing. -/
theorem replays_safe (start : FeedStore) (events : List FeedEvent) :
    let s := run FeedStore.next start.blank events
    (s.runs.map MarketplaceFeedRun.pk).Nodup ∧
    (∀ accountId generationId expectedRevision payloadSha256 hasUploadAttempts now t,
      resumeFailedPreSubmissionFeedRun accountId generationId expectedRevision payloadSha256 hasUploadAttempts now s = .ok t →
      (∃ run ∈ s.runs, run.pk = generationId ∧ run.state = .failed ∧ run.NoTrace ∧ hasUploadAttempts = false ∧
        t = { s with runs := put MarketplaceFeedRun.pk (run.reopened now) s.runs }) ∧
      (∀ other ∈ s.runs, other.pk ≠ generationId ∨ ¬ other.NoTrace → other ∈ t.runs) ∧
      ∀ later attempts again, ¬ ∃ u, resumeFailedPreSubmissionFeedRun accountId generationId expectedRevision payloadSha256 attempts
        again (run FeedStore.next t later) = .ok u) ∧
    (∀ accountId new now existing, findRun s new.generationId = some existing → ∀ t pk,
      createOrSupersedeFeedRun accountId new now s = .ok (t, pk) ↔ Replays s accountId new existing ∧ t = s ∧ pk = existing.pk) ∧
    ∀ accountId sourceIntentRevision payloadSha256 endpoint fresh hasUploadAttempts now t pk,
      preparePrivateFeedRun accountId sourceIntentRevision payloadSha256 endpoint fresh hasUploadAttempts now s = .ok (t, pk) →
      ∀ other unused attempts later,
        preparePrivateFeedRun accountId sourceIntentRevision payloadSha256 other unused attempts later t = .ok (t, pk) := by
  intro s
  obtain ⟨ordered, -⟩ := FeedStore.reached_keyed start events
  refine ⟨ordered.rows.keys, ?_, fun accountId new now existing found t pk => createOrSupersede_known found, ?_⟩
  · intro accountId generationId expectedRevision payloadSha256 hasUploadAttempts now t step
    have moved : s.next (.workflow (.resumeFailedPreSubmissionFeedRun accountId generationId expectedRevision payloadSha256
        hasUploadAttempts now)) = t := next_workflow (done_ok.mpr ⟨step, rfl⟩)
    have ordered' : t.Ordered := moved ▸ FeedStore.next_ordered s _ ordered
    obtain ⟨row, mem, rfl, failed, free, attempts, -, -, -, same⟩ := resumeFailed_ok step
    refine ⟨⟨row, mem, rfl, failed, free, attempts, same⟩, fun other inside apart => ?_, fun later attempts again =>
      resumeFailed_stale step ordered'⟩
    rw [same]
    refine mem_put.mpr (.inr ⟨inside, fun equal => ?_⟩)
    have one : other = row := row_unique ordered.rows.keys inside mem equal
    rcases apart with elsewhere | traced
    · exact elsewhere equal
    · exact traced (one ▸ free)
  · intro accountId sourceIntentRevision payloadSha256 endpoint fresh hasUploadAttempts now t pk step other unused attempts later
    exact preparePrivateFeedRun_again ordered.rows step

def failedGeneration : List FeedEvent :=
  [.workflow (.createOrSupersedeFeedRun 1
    { feedGeneration with payloadSha256 := "digest", sourceIntentRevision := some 1, endpointRevision := some 0 } 0),
   claimAt 0 100, .workflow (.finishFeedRun (generationClaim .preparing 1 none 100 10) .failed false 1)]

def failedStore : FeedStore := run FeedStore.next feedStore.blank failedGeneration

def reopenedStore : FeedStore := failedStore.next (.workflow (.resumeFailedPreSubmissionFeedRun 1 7 2 "digest" false 2))

/-- Opening the failed run a second time is refused: it does not return the run again. -/
theorem second_resume_conflicts :
    resumeFailedPreSubmissionFeedRun 1 7 2 "digest" false 2 failedStore = .ok reopenedStore ∧
    resumeFailedPreSubmissionFeedRun 1 7 2 "digest" false 3 reopenedStore = .error (.conflict
      "Failed feed generation has storage, provider, ownership, or result evidence and cannot be replayed automatically.") := by
  decide +kernel

end MapBackend.Marketplaces
