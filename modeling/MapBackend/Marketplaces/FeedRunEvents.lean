import MapBackend.Marketplaces.FeedSteps
import MapBackend.Library.Runs

/-!
What one operation of the feed workflow can do to the runs of the account, said once for
every operation: a run keeps its row or moves on by one revision, and who may move it how.
-/

namespace MapBackend.Marketplaces
open MapBackend.Library

/-- The operations of the workflow, each with everything its caller and the clock give it. -/
inductive FeedAction where
  | fenceAccountFeedRunsForOwnerChange (accountId : ℕ) (safeState : FeedRunState)
      (submittedPolicy : FeedWorkflow.SubmittedPolicy) (now : Instant)
  | createOrSupersedeFeedRun (accountId : ℕ) (new : FeedWorkflow.NewGeneration) (now : Instant)
  | resumeFailedPreSubmissionFeedRun (accountId : ℕ) (generationId : Uuid) (expectedRevision : ℕ)
      (payloadSha256 : String) (hasUploadAttempts : Bool) (now : Instant)
  | claimDueRunForAccount (accountId : ℕ) (expectedGenerationId : Option Uuid) (expectedRevision : Option ℕ)
      (given : FeedWorkflow.Lease)
  | claimDueRuns (marketplace : Option String) (given : FeedWorkflow.Lease)
  | cancelInactiveFeedRun (runId : Uuid) (accountId : ℕ) (now : Instant)
  | reconcileUncertainFeedRun (runId : Uuid) (expectedRevision : ℕ) (resolution : FeedWorkflow.Resolution)
      (providerRunId : Option String) (allowTombstone : Bool) (now : Instant)
  | supersedeFeedRun (runId : Uuid) (expectedRevision : Option ℕ) (now : Instant)
  | validateFeedSubmissionOwner (claim : FeedRunClaim) (now : Instant)
  | persistFeedSubmissionBoundary (claim : FeedRunClaim) (providerPredecessorRunId : String)
      (submittedAt now : Instant)
  | clearRejectedFeedSubmissionBoundary (claim : FeedRunClaim) (now : Instant)
  | markFeedSubmitted (claim : FeedRunClaim) (payloadSha256 : String) (providerRunId : Option String)
      (submittedAt nextAttemptAt now : Instant)
  | markFeedSubmissionUnknown (claim : FeedRunClaim) (submittedAt nextAttemptAt now : Instant)
  | recordProviderRunObservation (claim : FeedRunClaim) (providerRunId : String)
      (nextAttemptAt now : Instant)
  | completePollStep (claim : FeedRunClaim) (lastListingId : ℕ) (delta : FeedWorkflow.CounterDeltas)
      (nextAttemptAt now : Instant)
  | loadPollBatch (claim : FeedRunClaim) (limit : ℕ) (now : Instant)
  | applyPollPage (claim : FeedRunClaim) (batchListingIds : List ℕ) (resolvedExternalIds : List (ℕ × String))
      (lastListingId : ℕ) (nextAttemptAt now : Instant)
  | retryStep (claim : FeedRunClaim) (nextAttemptAt : Instant)
      (incrementReportAttempt incrementSubmissionAttempt : Bool) (now : Instant)
  | resetPollRound (claim : FeedRunClaim) (nextAttemptAt now : Instant)
  | startReporting (claim : FeedRunClaim) (nextAttemptAt : Instant) (providerRunId : Option String)
      (now : Instant)
  | advanceReportPage (claim : FeedRunClaim) (currentPage : ℕ) (delta : FeedWorkflow.CounterDeltas)
      (nextAttemptAt now : Instant)
  | applyReportPage (claim : FeedRunClaim) (page : FeedWorkflow.ReportPage) (now : Instant)
  | finishFeedRun (claim : FeedRunClaim) (state : FeedRunState) (incrementSubmissionAttempt : Bool)
      (now : Instant)

inductive FeedOutcome where
  | done
  | refused
  | claimed (claim : FeedRunClaim)
  deriving DecidableEq

def FeedOutcome.ofClaim : Option FeedRunClaim → FeedOutcome
  | none => .refused
  | some claim => .claimed claim

def FeedAction.claim? : FeedAction → Option (FeedRunClaim × Instant)
  | .validateFeedSubmissionOwner claim now | .persistFeedSubmissionBoundary claim _ _ now
  | .clearRejectedFeedSubmissionBoundary claim now | .markFeedSubmitted claim _ _ _ _ now
  | .markFeedSubmissionUnknown claim _ _ now | .recordProviderRunObservation claim _ _ now
  | .completePollStep claim _ _ _ now | .loadPollBatch claim _ now | .applyPollPage claim _ _ _ _ now
  | .retryStep claim _ _ _ now | .resetPollRound claim _ now | .startReporting claim _ _ now
  | .advanceReportPage claim _ _ _ now | .applyReportPage claim _ now | .finishFeedRun claim _ _ now =>
    some (claim, now)
  | _ => none

def FeedAction.Holds (action : FeedAction) (run : MarketplaceFeedRun) : Prop :=
  ∃ claim now, action.claim? = some (claim, now) ∧ claim.Fences run now

/-- The operation is an operator's verdict that the provider did not accept this run. -/
def FeedAction.Reviews (action : FeedAction) (run : MarketplaceFeedRun) : Prop :=
  ∃ providerRunId allowTombstone now, action =
    .reconcileUncertainFeedRun run.pk run.revision .providerNotAccepted providerRunId allowTombstone now

namespace FeedWorkflow

def done (outcome : Except FeedError FeedStore) : Except FeedError (FeedStore × FeedOutcome) := do
  let s ← outcome
  .ok (s, .done)

def claiming (outcome : Except FeedError (FeedStore × Option FeedRunClaim)) :
    Except FeedError (FeedStore × FeedOutcome) := do
  let (s, claim) ← outcome
  .ok (s, .ofClaim claim)

def perform (s : FeedStore) : FeedAction → Except FeedError (FeedStore × FeedOutcome)
  | .fenceAccountFeedRunsForOwnerChange accountId safeState submittedPolicy now => do
    let (s, _) ← fenceAccountFeedRunsForOwnerChange accountId safeState submittedPolicy now s
    .ok (s, .done)
  | .createOrSupersedeFeedRun accountId new now => do
    let (s, _) ← createOrSupersedeFeedRun accountId new now s
    .ok (s, .done)
  | .resumeFailedPreSubmissionFeedRun accountId generationId expectedRevision payloadSha256
      hasUploadAttempts now =>
    done (resumeFailedPreSubmissionFeedRun accountId generationId expectedRevision payloadSha256
      hasUploadAttempts now s)
  | .claimDueRunForAccount accountId expectedGenerationId expectedRevision given =>
    claiming (claimDueRunForAccount accountId expectedGenerationId expectedRevision given s)
  | .claimDueRuns marketplace given => claiming (claimDueRuns marketplace given s)
  | .cancelInactiveFeedRun runId accountId now => done (cancelInactiveFeedRun runId accountId now s)
  | .reconcileUncertainFeedRun runId expectedRevision resolution providerRunId allowTombstone now =>
    done (reconcileUncertainFeedRun runId expectedRevision resolution providerRunId allowTombstone now s)
  | .supersedeFeedRun runId expectedRevision now => done (supersedeFeedRun runId expectedRevision now s)
  | .validateFeedSubmissionOwner claim now => do
    let (s, valid) ← validateFeedSubmissionOwner claim now s
    .ok (s, if valid then .done else .refused)
  | .persistFeedSubmissionBoundary claim providerPredecessorRunId submittedAt now =>
    claiming (persistFeedSubmissionBoundary claim providerPredecessorRunId submittedAt now s)
  | .clearRejectedFeedSubmissionBoundary claim now => do
    let (s, cleared) ← clearRejectedFeedSubmissionBoundary claim now s
    .ok (s, .claimed cleared)
  | .markFeedSubmitted claim payloadSha256 providerRunId submittedAt nextAttemptAt now =>
    done (markFeedSubmitted claim payloadSha256 providerRunId submittedAt nextAttemptAt now s)
  | .markFeedSubmissionUnknown claim submittedAt nextAttemptAt now =>
    done (markFeedSubmissionUnknown claim submittedAt nextAttemptAt now s)
  | .recordProviderRunObservation claim providerRunId nextAttemptAt now =>
    done (recordProviderRunObservation claim providerRunId nextAttemptAt now s)
  | .completePollStep claim lastListingId delta nextAttemptAt now =>
    done (completePollStep claim lastListingId delta nextAttemptAt now s)
  | .loadPollBatch claim limit now => do
    let _ ← loadPollBatch claim limit now s
    .ok (s, .done)
  | .applyPollPage claim batchListingIds resolvedExternalIds lastListingId nextAttemptAt now =>
    done (applyPollPage claim batchListingIds resolvedExternalIds lastListingId nextAttemptAt now s)
  | .retryStep claim nextAttemptAt incrementReportAttempt incrementSubmissionAttempt now =>
    done (retryStep claim nextAttemptAt incrementReportAttempt incrementSubmissionAttempt now s)
  | .resetPollRound claim nextAttemptAt now => done (resetPollRound claim nextAttemptAt now s)
  | .startReporting claim nextAttemptAt providerRunId now =>
    done (startReporting claim nextAttemptAt providerRunId now s)
  | .advanceReportPage claim currentPage delta nextAttemptAt now =>
    done (advanceReportPage claim currentPage delta nextAttemptAt now s)
  | .applyReportPage claim page now => done (applyReportPage claim page now s)
  | .finishFeedRun claim state incrementSubmissionAttempt now =>
    done (finishFeedRun claim state incrementSubmissionAttempt now s)

def Fails (s : FeedStore) (action : FeedAction) : Prop :=
  ∀ next outcome, perform s action = .ok (next, outcome) → outcome = .refused

end FeedWorkflow

/-- An operation of the workflow, or what the rest of the system does to the rows it reads. -/
inductive FeedEvent where
  | workflow (action : FeedAction)
  | accountSaved (account : MarketplaceAccount)
  | listingsSaved (listings : List Listing)
  | artifactAttached (runId artifact : Uuid) (uploadAttempt : ℕ)
  | elsewhere (otherRuns : List Uuid) (otherExternalIds : List String)

/-- `_attach_verified_attempt` writes these two fields and no revision. -/
def attachArtifact (s : FeedStore) (runId artifact : Uuid) (uploadAttempt : ℕ) :
    Except FeedError (FeedStore × Unit) := do
  let run ← orRaise (.conflict "The feed run does not exist.") (FeedWorkflow.findRun s runId)
  let s ← FeedWorkflow.updateRun s
    { run with feedArtifact := some artifact, artifactUploadAttempt := uploadAttempt }
  .ok (s, ())

/-- The listings have their primary key, and a generation they name exists. -/
structure FeedStore.Keyed (s : FeedStore) : Prop where
  keys : (s.listings.map Listing.pk).Nodup
  named : ∀ listing ∈ s.listings, ∀ tag ∈ listing.feedRun, tag ∈ s.runs.map MarketplaceFeedRun.pk ++ s.otherRuns

instance (s : FeedStore) : Decidable s.Keyed :=
  decidable_of_iff ((s.listings.map Listing.pk).Nodup ∧ ∀ listing ∈ s.listings, ∀ tag ∈ listing.feedRun,
      tag ∈ s.runs.map MarketplaceFeedRun.pk ++ s.otherRuns)
    ⟨fun ⟨keys, named⟩ => ⟨keys, named⟩, fun ⟨keys, named⟩ => ⟨keys, named⟩⟩

def FeedStore.saved (s t : FeedStore) : FeedStore := if t.Keyed then t else s

def FeedStore.next (s : FeedStore) : FeedEvent → FeedStore
  | .workflow action => commit s (FeedWorkflow.perform s action)
  | .accountSaved account => { s with account := s.account.map fun _ => account }
  | .listingsSaved listings => s.saved { s with listings }
  | .artifactAttached runId artifact uploadAttempt => commit s (attachArtifact s runId artifact uploadAttempt)
  | .elsewhere otherRuns otherExternalIds => s.saved { s with otherRuns, otherExternalIds }

theorem FeedStore.saved_runs {s t : FeedStore} (same : t.runs = s.runs) : (s.saved t).runs = s.runs := by
  unfold FeedStore.saved
  split
  · exact same
  · rfl

end MapBackend.Marketplaces
