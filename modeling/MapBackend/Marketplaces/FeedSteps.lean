import MapBackend.Marketplaces.FeedWorkflow
import Mathlib.Data.List.Sort

/-!
The steps of the feed workflow that a worker takes with a claim: the boundary before the
provider submission, its outcome, the poll and report pages, and the end of the run.
-/

namespace MapBackend.Marketplaces
open MapBackend.Library

namespace FeedWorkflow

def staleClaim : FeedError := .staleClaim "Feed run claim is stale or its lease expired."

def unsubmittedUnder (claim : FeedRunClaim) (now : Instant) (run : MarketplaceFeedRun) : Prop :=
  claim.Fences run now ∧ run.state = .preparing ∧ run.submittedAt = none ∧ run.providerRunId = none ∧
    run.providerPredecessorRunId = none

instance (claim : FeedRunClaim) (now : Instant) (run : MarketplaceFeedRun) :
    Decidable (unsubmittedUnder claim now run) := inferInstanceAs (Decidable (_ ∧ _ ∧ _ ∧ _ ∧ _))

/-- Lock the owner before its submission; one whose account changed is fenced instead. -/
def submissionOwner (claim : FeedRunClaim) (now : Instant) (s : FeedStore) :
    Except FeedError (FeedStore × Option MarketplaceFeedRun) :=
  match lockAccount s claim.accountId with
  | none => .ok (s, none)
  | some account =>
    match s.runs.find? fun run => decide (unsubmittedUnder claim now run) with
    | none => .ok (s, none)
    | some run =>
      match ownerFence account run with
      | some safeState => do
        let s ← fenceInvalidOwnerLocked s run safeState now
        .ok (s, none)
      | none => .ok (s, some run)

def validateFeedSubmissionOwner (claim : FeedRunClaim) (now : Instant) (s : FeedStore) :
    Except FeedError (FeedStore × Bool) := do
  let (s, owner) ← submissionOwner claim now s
  .ok (s, owner.isSome)

def persistFeedSubmissionBoundary (claim : FeedRunClaim) (providerPredecessorRunId : String)
    (submittedAt : Instant) (now : Instant) (s : FeedStore) :
    Except FeedError (FeedStore × Option FeedRunClaim) := do
  raiseIf (200 < providerPredecessorRunId.length)
    (.valueError "provider_predecessor_run_id must be at most 200 characters.")
  let (s, owner) ← submissionOwner claim now s
  match owner with
  | none => .ok (s, none)
  | some run => do
    let boundary := { run with
      state := .submitUnknown
      submittedAt := some submittedAt
      providerPredecessorRunId := some providerPredecessorRunId
      providerResultDeadlineAt := some (submittedAt + providerResultHorizon)
      submissionReconcileAttempt := 0
      revision := run.revision + 1 }
    let s ← updateRun s boundary
    .ok (s, some (claimSnapshot s.accountId boundary claim.claimToken claim.claimedUntil))

/-- `_clear_rejected_feed_submission_boundary`: the provider refused the submission. -/
def clearRejectedFeedSubmissionBoundary (claim : FeedRunClaim) (now : Instant) (s : FeedStore) :
    Except FeedError (FeedStore × FeedRunClaim) := do
  let run ← orRaise (.staleClaim "Rejected feed submission claim is stale.")
    (s.runs.find? fun run => decide (claim.accountId = s.accountId ∧ claim.Fences run now ∧
      run.state = .submitUnknown ∧ run.submittedAt = claim.submittedAt))
  let s ← updateRun s { run with
    state := .preparing
    submittedAt := none
    providerPredecessorRunId := none
    providerResultDeadlineAt := none
    submissionReconcileAttempt := 0
    revision := run.revision + 1 }
  .ok (s, { claim with state := .preparing, revision := claim.revision + 1, submittedAt := none })

def lockClaimedRun (claim : FeedRunClaim) (allowedStates : List FeedRunState) (now : Instant)
    (s : FeedStore) : Except FeedError MarketplaceFeedRun := do
  let account ← orRaise (.staleClaim "Feed account no longer exists.") (lockAccount s claim.accountId)
  raiseIf (¬ account.live ∨ account.identityDigest ≠ claim.accountIdentityDigest)
    (.staleClaim "Feed account identity is no longer live.")
  orRaise staleClaim (s.runs.find? fun run =>
    decide (claim.Fences run now ∧ run.state = claim.state ∧ run.state ∈ allowedStates))

/-- `_transition_claimed`: the next revision, without the lease. -/
def transitionClaimed (updated : MarketplaceFeedRun) (s : FeedStore) : Except FeedError FeedStore :=
  updateRun s { updated with revision := updated.revision + 1, claimToken := none, claimedUntil := none }

def future (nextAttemptAt now : Instant) : Except FeedError Unit :=
  raiseIf (nextAttemptAt ≤ now) (.valueError "next_attempt_at must be later than now.")

def markFeedSubmitted (claim : FeedRunClaim) (payloadSha256 : String) (providerRunId : Option String)
    (submittedAt nextAttemptAt now : Instant) (s : FeedStore) : Except FeedError FeedStore := do
  raiseIf (providerRunId = some "" ∨ (providerRunId.any fun text => 200 < text.length) = true)
    (.valueError "provider_run_id must be null or a non-empty string of at most 200 characters.")
  let run ← lockClaimedRun claim [.preparing, .submitUnknown, .retryWait] now s
  transitionClaimed { run with
    state := .polling
    payloadSha256
    providerRunId
    submittedAt := some submittedAt
    providerResultDeadlineAt := run.providerResultDeadlineAt <|> some (submittedAt + providerResultHorizon)
    submissionReconcileAttempt := 0
    nextAttemptAt := some nextAttemptAt } s

def markFeedSubmissionUnknown (claim : FeedRunClaim) (submittedAt nextAttemptAt now : Instant)
    (s : FeedStore) : Except FeedError FeedStore := do
  future nextAttemptAt now
  let run ← lockClaimedRun claim [.preparing, .submitUnknown] now s
  raiseIf (run.submittedAt ≠ none ∧ run.submittedAt ≠ some submittedAt)
    (.conflict "Ambiguous submission timestamp does not match the feed generation.")
  transitionClaimed { run with
    state := .submitUnknown
    submittedAt := some submittedAt
    providerResultDeadlineAt := run.providerResultDeadlineAt <|> some (submittedAt + providerResultHorizon)
    submissionReconcileAttempt := if run.state = .preparing then 0 else run.submissionReconcileAttempt
    nextAttemptAt := some nextAttemptAt } s

def recordProviderRunObservation (claim : FeedRunClaim) (providerRunId : String)
    (nextAttemptAt now : Instant) (s : FeedStore) : Except FeedError FeedStore := do
  let observed ← providerRunIdOf (some providerRunId)
  let run ← lockClaimedRun claim [.polling, .submitUnknown] now s
  raiseIf (run.submittedAt = none)
    (.conflict "A provider run cannot be bound without an ambiguous submission timestamp.")
  raiseIf (run.providerRunId.getD "" ≠ "" ∧ run.providerRunId ≠ some observed)
    (.conflict "Provider run identity does not match the feed generation.")
  raiseIf (run.providerRunId.getD "" = "" ∧ run.providerPredecessorRunId = some observed)
    (.conflict "Provider observation is still the pre-POST predecessor.")
  transitionClaimed { run with
    state := .polling
    providerRunId := some observed
    submissionReconcileAttempt := 0
    nextAttemptAt := some nextAttemptAt } s

structure CounterDeltas where
  published : ℕ
  rejected : ℕ
  otherResolved : ℕ
  deriving DecidableEq

def counterValues (run : MarketplaceFeedRun) (delta : CounterDeltas) : Except FeedError MarketplaceFeedRun := do
  let resolved := delta.published + delta.rejected + delta.otherResolved
  raiseIf (run.pendingCount < resolved) (.conflict "Resolved counter delta exceeds the pending count.")
  let published := run.publishedCount + delta.published
  let rejected := run.rejectedCount + delta.rejected
  let pending := run.pendingCount - resolved
  raiseIf (run.totalCount < published + rejected + pending)
    (.conflict "Feed counters exceed the generation total.")
  .ok { run with publishedCount := published, rejectedCount := rejected, pendingCount := pending }

/-- `_recomputed_counters`: deleted listings count as well. -/
def recomputedCounters (run : MarketplaceFeedRun) (listings : List Listing) :
    Except FeedError MarketplaceFeedRun := do
  let count := fun status => (listings.filter fun listing =>
    listing.feedRun = some run.pk ∧ listing.tenant = run.tenant ∧ listing.status = status).length
  raiseIf (run.totalCount < count .active + count .rejected + count .pending)
    (.conflict "Canonical listing counters exceed the immutable generation total.")
  .ok { run with publishedCount := count .active, rejectedCount := count .rejected, pendingCount := count .pending }

def completePollStep (claim : FeedRunClaim) (lastListingId : ℕ) (delta : CounterDeltas)
    (nextAttemptAt now : Instant) (s : FeedStore) : Except FeedError FeedStore := do
  let run ← lockClaimedRun claim [.polling] now s
  raiseIf (lastListingId ≤ run.pollCursorListingId) (.conflict "Poll cursor must advance monotonically.")
  let counted ← counterValues run delta
  transitionClaimed { counted with
    pollCursorListingId := lastListingId
    nextAttemptAt := some nextAttemptAt } s

/-- Pending listings of the run after the cursor; `Listing.objects` leaves deleted rows out. -/
def afterCursor (run : MarketplaceFeedRun) (listing : Listing) : Prop :=
  listing.deletedAt = none ∧ listing.feedRun = some run.pk ∧ listing.status = .pending ∧
    listing.externalId = none ∧ run.pollCursorListingId < listing.pk

instance (run : MarketplaceFeedRun) (listing : Listing) : Decidable (afterCursor run listing) :=
  inferInstanceAs (Decidable (_ ∧ _ ∧ _ ∧ _ ∧ _))

def pageOf (limit : ℕ) (listings : List Listing) : List Listing :=
  (listings.insertionSort fun a b => a.pk ≤ b.pk).take limit

/-- `_validate_claim_for_read` and the page under the cursor. -/
def loadPollBatch (claim : FeedRunClaim) (limit : ℕ) (now : Instant) (s : FeedStore) :
    Except FeedError (List Listing) := do
  raiseIf (limit < 1 ∨ maxPollBatchSize < limit) (.valueError "limit must be between 1 and 100.")
  let stale := FeedError.staleClaim "Feed run claim is stale."
  let account ← orRaise stale (lockAccount s claim.accountId)
  let run ← orRaise stale (s.runs.find? fun run =>
    decide (claim.Fences run now ∧ run.state = claim.state ∧ run.state = .polling))
  raiseIf (¬ account.live ∨ account.identityDigest ≠ claim.accountIdentityDigest) stale
  raiseIf (run.pollCursorListingId ≠ claim.pollCursorListingId)
    (.staleClaim "Poll cursor changed after claim.")
  .ok (pageOf limit (s.listings.filter fun listing => afterCursor run listing))

def writeListings (s : FeedStore) (listings : List Listing) : Except FeedError FeedStore :=
  let externalIds := listings.filterMap Listing.externalId
  if externalIds.Nodup ∧ ∀ externalId ∈ externalIds, externalId ∉ s.otherExternalIds then
    .ok { s with listings }
  else .error .integrityError

def updateListings (s : FeedStore) (changed : List Listing) : Except FeedError FeedStore :=
  writeListings s (s.listings.map fun listing =>
    (changed.find? fun row => row.pk = listing.pk).getD listing)

def observedListing (listing : Listing) (now : Instant) : Listing :=
  { listing with lastSyncAt := some now, remoteStatus := none, remoteStatusCheckedAt := none,
                 statusCheckClaimToken := none, statusCheckClaimedUntil := none }

def publishedListing (listing : Listing) (externalId : String) (now : Instant) : Listing :=
  observedListing { listing with
    externalId := some externalId
    status := .active
    rejectionReason := ""
    publishedAt := listing.publishedAt <|> some now
    nextStatusCheckAt := some (now + publishedStatusRecheckDelay) } now

def rejectedListing (listing : Listing) (reason : String) (now : Instant) : Listing :=
  observedListing { listing with status := .rejected, rejectionReason := reason, nextStatusCheckAt := none } now

def publishLog (run : MarketplaceFeedRun) (listing : Listing) : SyncLog :=
  { tenant := listing.tenant, product := listing.product, listing := listing.pk, eventType := .listingPublish,
    message := "Listing published by marketplace feed.", feedGenerationId := run.pk,
    providerListingId := listing.externalId }

def errorLog (run : MarketplaceFeedRun) (listing : Listing) : SyncLog :=
  { tenant := listing.tenant, product := listing.product, listing := listing.pk, eventType := .listingError,
    message := listing.rejectionReason, feedGenerationId := run.pk, providerListingId := none }

def statusBatchDue (account : MarketplaceAccount) (dueAt : Instant) : MarketplaceAccount :=
  if (account.statusBatchDueAt.all fun due => dueAt < due) = true then
    { account with statusBatchDueAt := some dueAt }
  else account

def afterPublishing (published : List Listing) (now : Instant) (s : FeedStore) : FeedStore :=
  if published = [] then s
  else { s with account := s.account.map fun account => statusBatchDue account (now + publishedStatusRecheckDelay) }

def validExternalId (text : String) : Prop := text ≠ "" ∧ text.length ≤ 100

instance (text : String) : Decidable (validExternalId text) := inferInstanceAs (Decidable (_ ∧ _))

def applyPollPage (claim : FeedRunClaim) (batchListingIds : List ℕ) (resolvedExternalIds : List (ℕ × String))
    (lastListingId : ℕ) (nextAttemptAt now : Instant) (s : FeedStore) : Except FeedError FeedStore := do
  raiseIf (batchListingIds = [] ∨ maxPollBatchSize < batchListingIds.length)
    (.valueError "batch_listing_ids must contain between 1 and 100 ids.")
  raiseIf (0 ∈ batchListingIds) (.valueError "batch_listing_ids must contain positive integer ids.")
  raiseIf (¬ batchListingIds.Pairwise (· < ·))
    (.valueError "batch_listing_ids must be unique and strictly increasing.")
  raiseIf (batchListingIds.getLast? ≠ some lastListingId)
    (.valueError "last_listing_id must be the final id in the exact poll batch.")
  raiseIf (maxPollBatchSize < resolvedExternalIds.length)
    (.valueError "resolved_external_ids must be a mapping of at most 100 rows.")
  raiseIf (∃ row ∈ resolvedExternalIds, row.1 ∉ batchListingIds)
    (.valueError "resolved_external_ids contains a listing outside the exact poll batch.")
  raiseIf (∃ row ∈ resolvedExternalIds, ¬ validExternalId row.2)
    (.valueError "A resolved provider listing id must contain 1 to 100 characters.")
  let run ← lockClaimedRun claim [.polling] now s
  raiseIf (run.pollCursorListingId ≠ claim.pollCursorListingId)
    (.staleClaim "Poll cursor changed after claim.")
  let page := pageOf maxPollBatchSize
    (s.listings.filter fun listing => afterCursor run listing ∧ listing.tenant = run.tenant)
  raiseIf (page.map Listing.pk ≠ batchListingIds)
    (.conflict "batch_listing_ids no longer matches the exact poll batch.")
  let changed := page.filterMap fun listing =>
    (resolvedExternalIds.lookup listing.pk).map fun externalId => publishedListing listing externalId now
  let s ← updateListings s changed
  let s := { s with syncLog := s.syncLog ++ changed.map (publishLog run) }
  let counted ← counterValues run { published := changed.length, rejected := 0, otherResolved := 0 }
  let s ← transitionClaimed { counted with
    pollCursorListingId := lastListingId
    nextAttemptAt := some nextAttemptAt } s
  .ok (afterPublishing changed now s)

def retryStep (claim : FeedRunClaim) (nextAttemptAt : Instant)
    (incrementReportAttempt incrementSubmissionAttempt : Bool) (now : Instant) (s : FeedStore) :
    Except FeedError FeedStore := do
  future nextAttemptAt now
  let run ← lockClaimedRun claim FeedRunState.activeStates now s
  raiseIf (incrementReportAttempt = true ∧ run.state ≠ .reporting)
    (.conflict "Only a reporting step has a report attempt counter.")
  raiseIf (incrementSubmissionAttempt = true ∧ run.state ≠ .submitUnknown)
    (.conflict "Only an ambiguous submission has a reconciliation attempt counter.")
  transitionClaimed { run with
    nextAttemptAt := some nextAttemptAt
    reportAttempt := if incrementReportAttempt then run.reportAttempt + 1 else run.reportAttempt
    submissionReconcileAttempt :=
      if incrementSubmissionAttempt then run.submissionReconcileAttempt + 1
      else run.submissionReconcileAttempt } s

def resetPollRound (claim : FeedRunClaim) (nextAttemptAt now : Instant) (s : FeedStore) :
    Except FeedError FeedStore := do
  future nextAttemptAt now
  let run ← lockClaimedRun claim [.polling] now s
  raiseIf (∃ listing ∈ s.listings, afterCursor run listing)
    (.conflict "Poll round still has rows after its cursor.")
  let pending := s.listings.filter fun listing => listing.deletedAt = none ∧
    listing.feedRun = some run.pk ∧ listing.status = .pending ∧ listing.externalId = none
  transitionClaimed { run with
    pollCursorListingId := 0
    pollRound := run.pollRound + 1
    pendingCount := pending.length
    nextAttemptAt := some nextAttemptAt } s

/-- `run.provider_run_id or normalized_provider_id`: a blank identity counts as missing. -/
def providerIdentity (run : MarketplaceFeedRun) (given : Option String) : Option String :=
  if run.providerRunId.getD "" = "" then given else run.providerRunId

def startReporting (claim : FeedRunClaim) (nextAttemptAt : Instant) (providerRunId : Option String)
    (now : Instant) (s : FeedStore) : Except FeedError FeedStore := do
  let run ← lockClaimedRun claim [.polling] now s
  raiseIf (providerRunId = some "") (.valueError "provider_run_id must not be blank.")
  raiseIf ((providerRunId.any fun text => 200 < text.length) = true)
    (.valueError "provider_run_id must be at most 200 characters.")
  raiseIf (run.providerRunId.getD "" ≠ "" ∧ providerRunId ≠ none ∧ run.providerRunId ≠ providerRunId)
    (.conflict "Provider run identity does not match the submitted generation.")
  raiseIf (run.reportCompletedAt ≠ none) (.conflict "The exact provider report was already completed.")
  let identity ← orRaise (.conflict "Reporting requires an exact provider run identity.")
    (providerIdentity run providerRunId)
  transitionClaimed { run with
    state := .reporting
    providerRunId := some identity
    reportPage := 1
    reportAttempt := 0
    nextAttemptAt := some nextAttemptAt } s

def advanceReportPage (claim : FeedRunClaim) (currentPage : ℕ) (delta : CounterDeltas)
    (nextAttemptAt now : Instant) (s : FeedStore) : Except FeedError FeedStore := do
  raiseIf (currentPage < 1 ∨ maxReportPages ≤ currentPage)
    (.valueError "current_page must be between 1 and 99 when advancing.")
  let run ← lockClaimedRun claim [.reporting] now s
  raiseIf (currentPage ≠ run.reportPage ∨ currentPage ≠ claim.reportPage)
    (.staleClaim "Report page changed after claim.")
  let counted ← counterValues run delta
  transitionClaimed { counted with
    reportPage := currentPage + 1
    reportAttempt := 0
    nextAttemptAt := some nextAttemptAt } s

/-- One page of the provider's report; keys are the idempotency keys of listings. -/
structure ReportPage where
  currentPage : ℕ
  errors : List (Uuid × String)
  externalIds : List (Uuid × String)
  nextPage : Option ℕ
  nextAttemptAt : Option Instant
  providerComplete : Bool
  deriving DecidableEq

def checkReportPage (page : ReportPage) : Except FeedError Unit := do
  raiseIf (page.currentPage < 1 ∨ maxReportPages < page.currentPage)
    (.valueError "current_page must be between 1 and 100.")
  raiseIf (page.nextPage ≠ none ∧ page.nextPage ≠ some (page.currentPage + 1))
    (.valueError "next_page must advance exactly one report page.")
  raiseIf ((page.nextPage.any fun next => maxReportPages < next) = true)
    (.valueError "next_page must not exceed 100.")
  raiseIf (page.nextPage ≠ none ∧ page.nextAttemptAt = none)
    (.valueError "next_attempt_at is required when another report page exists.")
  raiseIf (page.providerComplete = false ∧ page.nextPage = none ∧ page.nextAttemptAt = none)
    (.valueError "next_attempt_at is required while the provider upload is incomplete.")
  raiseIf (maxPollBatchSize < page.errors.length)
    (.valueError "errors_by_ad_id must be a mapping of at most 100 rows.")
  raiseIf (¬ (page.errors.map Prod.fst).Nodup)
    (.valueError "errors_by_ad_id contains the same UUID more than once.")
  raiseIf (maxPollBatchSize < page.externalIds.length)
    (.valueError "external_ids_by_ad_id must be a mapping of at most 100 rows.")
  raiseIf (¬ (page.externalIds.map Prod.fst).Nodup)
    (.valueError "external_ids_by_ad_id contains the same UUID more than once.")
  raiseIf (∃ row ∈ page.externalIds, ¬ validExternalId row.2)
    (.valueError "A resolved provider listing id must contain 1 to 100 characters.")
  raiseIf (∃ row ∈ page.errors, row.1 ∈ page.externalIds.map Prod.fst)
    (.valueError "One report item cannot be both rejected and published.")
  raiseIf (maxPollBatchSize < page.errors.length + page.externalIds.length)
    (.valueError "One report page must contain at most 100 outcomes.")

/-- The run after the last page: unresolved listings go back to the poll, or the page is read again. -/
def afterLastPage (page : ReportPage) (counted : MarketplaceFeedRun) (now : Instant) : MarketplaceFeedRun :=
  if counted.pendingCount ≠ 0 then
    if page.providerComplete then
      { counted with
        state := .polling
        pollCursorListingId := 0
        pollRound := counted.pollRound + 1
        reportPage := 1
        reportAttempt := 0
        reportCompletedAt := some now
        nextAttemptAt := some (now + unresolvedPollRetryDelay)
        finishedAt := none }
    else
      { counted with
        state := .reporting
        reportPage := 1
        reportAttempt := 0
        reportCompletedAt := none
        nextAttemptAt := page.nextAttemptAt
        finishedAt := none }
  else
    { counted with
      state := .succeeded
      nextAttemptAt := none
      reportAttempt := 0
      reportCompletedAt := some now
      finishedAt := some now }

def turnReportPage (page : ReportPage) (run : MarketplaceFeedRun) (delta : CounterDeltas)
    (listings : List Listing) (now : Instant) : Except FeedError MarketplaceFeedRun :=
  match page.nextPage with
  | none => do
    let counted ← recomputedCounters run listings
    .ok (afterLastPage page counted now)
  | some nextPage => do
    let counted ← counterValues run delta
    .ok { counted with reportPage := nextPage, reportAttempt := 0, nextAttemptAt := page.nextAttemptAt }

def applyReportPage (claim : FeedRunClaim) (page : ReportPage) (now : Instant) (s : FeedStore) :
    Except FeedError FeedStore := do
  checkReportPage page
  let run ← lockClaimedRun claim [.reporting] now s
  raiseIf (page.currentPage ≠ run.reportPage ∨ page.currentPage ≠ claim.reportPage)
    (.staleClaim "Report page changed after claim.")
  let rows := pageOf maxPollBatchSize (s.listings.filter fun listing =>
    listing.deletedAt = none ∧ listing.feedRun = some run.pk ∧ listing.tenant = run.tenant ∧
      listing.status = .pending ∧ listing.externalId = none ∧
      listing.publishIdempotencyKey ∈ page.errors.map Prod.fst ++ page.externalIds.map Prod.fst)
  let rejected := rows.filterMap fun listing =>
    (page.errors.lookup listing.publishIdempotencyKey).map fun reason => rejectedListing listing reason now
  let published := rows.filterMap fun listing =>
    (page.externalIds.lookup listing.publishIdempotencyKey).map fun externalId =>
      publishedListing listing externalId now
  let s ← updateListings s (rejected ++ published)
  let s := { s with syncLog := s.syncLog ++ rejected.map (errorLog run) ++ published.map (publishLog run) }
  let updated ← turnReportPage page run
    { published := published.length, rejected := rejected.length, otherResolved := 0 } s.listings now
  let s ← transitionClaimed updated s
  .ok (afterPublishing published now s)

def finishFeedRun (claim : FeedRunClaim) (state : FeedRunState) (incrementSubmissionAttempt : Bool)
    (now : Instant) (s : FeedStore) : Except FeedError FeedStore := do
  raiseIf (state ∉ [FeedRunState.succeeded, .failed, .outcomeUncertain, .cancelled])
    (.valueError "finish state must be succeeded, failed, outcome_uncertain, or cancelled.")
  let run ← lockClaimedRun claim FeedRunState.activeStates now s
  raiseIf (incrementSubmissionAttempt = true ∧ run.state ≠ .submitUnknown)
    (.conflict "Only an ambiguous submission has a reconciliation attempt counter.")
  let counted ← recomputedCounters run s.listings
  raiseIf (state = .succeeded ∧ counted.pendingCount ≠ 0)
    (.conflict "A feed run with pending listings cannot succeed.")
  raiseIf (state = .succeeded ∧ run.submittedAt ≠ none ∧ run.reportCompletedAt = none)
    (.conflict "A submitted feed run cannot succeed before its exact report completes.")
  transitionClaimed { counted with
    state
    submissionReconcileAttempt :=
      if incrementSubmissionAttempt then run.submissionReconcileAttempt + 1
      else run.submissionReconcileAttempt
    nextAttemptAt := none
    finishedAt := some now } s

end FeedWorkflow

end MapBackend.Marketplaces
