import MapBackend.Marketplaces.FeedRunEvents

/-!
One processing step of a claimed feed run against the provider: what the step reads and the
operation of the workflow that it ends in.
-/

namespace MapBackend.Marketplaces
open MapBackend.Library FeedWorkflow

structure Upload where
  uploadId : String
  /-- `parse_datetime`; a time without an offset counts as none. -/
  startedAt : Option Instant
  accountId : Option String
  userId : Option String
  ownerId : Option String
  status : String
  deriving DecidableEq

inductive ProviderRead (α : Type*) where
  | failed (retryAfter : Option ℕ)
  | answered (answer : α)

/-- What the clock shows: on entry, at the check before a page is committed, when the transition is
planned, and when it is committed. -/
structure StepClock where
  entered : Instant
  checked : Instant
  transition : Instant
  commit : Instant

/-- What the provider answers in one step. An upload that is not a record is none. -/
structure ProviderAnswers where
  before : ProviderRead (Option Upload)
  /-- `get_feed_results`: pairs of the id in the feed and the provider's id. -/
  results : ProviderRead (List (String × String))
  page : ProviderRead (List (Uuid × String) × List (Uuid × String) × Option ℕ)
  after : ProviderRead (Option Upload)

namespace FeedProvider

def minute : Instant := 60 * second
def pollRetryDelay : Instant := 30 * minute
def feedPollBatchDelay : Instant := 30 * second
def durableFeedSubmissionReconcileHorizon : Instant := 2 * 60 * minute
def durableFeedSubmissionNegativeThreshold : ℕ := 4
def durableFeedReportDelay : Instant := 30 * second
def durableFeedUploadClockSkew : Instant := 5 * minute
def feedPollBatchSize : ℕ := 100
def reportRetryBudget : ℕ := 24

def providerSuccessStatuses : List String := ["success", "success_warning"]
def providerCurrentItemStatuses : List String := "processing" :: providerSuccessStatuses

/-- `_latest_upload_observation`: an upload of this account that started after the boundary. -/
def latestUploadObservation (externalId : String) (run : MarketplaceFeedRun) (upload : Option Upload) :
    Option (String × String) :=
  upload.bind fun upload =>
    if upload.uploadId ≠ "" ∧ upload.uploadId.length ≤ 200 ∧
        (upload.startedAt.any fun startedAt => run.submittedAt.any fun submittedAt =>
          submittedAt - durableFeedUploadClockSkew ≤ startedAt) = true ∧
        (∀ owner ∈ [upload.accountId, upload.userId, upload.ownerId],
          owner = none ∨ owner = some "" ∨ owner = some externalId) ∧
        upload.status ≠ "" then
      some (upload.uploadId, upload.status)
    else none

def providerRetryDelay (retryAfter : Option ℕ) : Instant :=
  match retryAfter with
  | some seconds => max 1 seconds * second
  | none => pollRetryDelay

def retryDurableFeedStep (claim : FeedRunClaim) (clock : StepClock) (delay : Instant)
    (incrementReportAttempt incrementSubmissionAttempt : Bool) : FeedAction :=
  .retryStep claim (clock.transition + max delay second) incrementReportAttempt incrementSubmissionAttempt
    clock.commit

def finishDurableFeedRun (claim : FeedRunClaim) (clock : StepClock) (state : FeedRunState)
    (incrementSubmissionAttempt : Bool) : FeedAction :=
  .finishFeedRun claim state incrementSubmissionAttempt clock.commit

/-- The negative reads are enough: the horizon passed and this is at least the fourth. -/
def negativesSuffice (run : MarketplaceFeedRun) (clock : StepClock) : Prop :=
  (run.submittedAt.any fun submittedAt =>
    submittedAt + durableFeedSubmissionReconcileHorizon ≤ clock.transition) = true ∧
    durableFeedSubmissionNegativeThreshold ≤ run.submissionReconcileAttempt + 1

instance (run : MarketplaceFeedRun) (clock : StepClock) : Decidable (negativesSuffice run clock) :=
  inferInstanceAs (Decidable (_ ∧ _))

def recordSubmissionNegativeOrFail (claim : FeedRunClaim) (run : MarketplaceFeedRun) (clock : StepClock) :
    FeedAction :=
  if negativesSuffice run clock then finishDurableFeedRun claim clock .outcomeUncertain true
  else retryDurableFeedStep claim clock pollRetryDelay false true

/-- `_process_submission_unknown`, with `_read_latest_upload_or_retry`. -/
def processSubmissionUnknown (externalId : String) (claim : FeedRunClaim) (run : MarketplaceFeedRun)
    (answers : ProviderAnswers) (clock : StepClock) : FeedAction :=
  match answers.before with
  | .failed retryAfter => retryDurableFeedStep claim clock (providerRetryDelay retryAfter) false false
  | .answered upload =>
    match latestUploadObservation externalId run upload with
    | none => recordSubmissionNegativeOrFail claim run clock
    | some (providerRunId, providerStatus) =>
      if run.providerPredecessorRunId = none then finishDurableFeedRun claim clock .outcomeUncertain false
      else if run.providerPredecessorRunId = some providerRunId then
        recordSubmissionNegativeOrFail claim run clock
      else if providerStatus ∉ providerCurrentItemStatuses then
        retryDurableFeedStep claim clock pollRetryDelay false false
      else .recordProviderRunObservation claim providerRunId (clock.transition + feedPollBatchDelay)
        clock.transition

def providerResultDeadlineReached (run : MarketplaceFeedRun) (now : Instant) : Prop :=
  (run.providerResultDeadlineAt.all fun deadline => deadline ≤ now) = true

instance (run : MarketplaceFeedRun) (now : Instant) : Decidable (providerResultDeadlineReached run now) :=
  inferInstanceAs (Decidable (_ = _))

def finishProviderResultUncertain (claim : FeedRunClaim) (clock : StepClock) : FeedAction :=
  finishDurableFeedRun claim clock .outcomeUncertain false

def retryProviderResultRead (claim : FeedRunClaim) (clock : StepClock) (retryAfter : Option ℕ) : FeedAction :=
  retryDurableFeedStep claim clock (providerRetryDelay retryAfter) false false

/-- `_strict_latest_upload_observation`, unless its read fails. -/
def strictObservation (externalId : String) (run : MarketplaceFeedRun) :
    ProviderRead (Option Upload) → Except (Option ℕ) (Option (String × String))
  | .failed retryAfter => .error retryAfter
  | .answered upload => .ok (latestUploadObservation externalId run upload)

/-- The ids of the results by the listings of the batch; a later item of a listing wins. -/
def resolvedIds (batch : List Listing) (results : List (String × String)) : List (ℕ × String) :=
  batch.filterMap fun listing =>
    ((results.take feedPollBatchSize).reverse.find? fun item =>
      decide (item.1 = toString listing.publishIdempotencyKey ∧ item.2 ≠ "")).map fun item => (listing.pk, item.2)

/-- The page of listing ids, once the report is complete: read the ids, and check that the upload
did not change meanwhile. -/
def processPollBatch (externalId : String) (claim : FeedRunClaim) (run : MarketplaceFeedRun)
    (observed : String × String) (batch : List Listing) (answers : ProviderAnswers) (clock : StepClock) :
    FeedAction :=
  match batch.getLast? with
  | none =>
    if run.pendingCount ≠ 0 then
      .resetPollRound claim (clock.transition + pollRetryDelay) clock.transition
    else finishDurableFeedRun claim clock .succeeded false
  | some last =>
    match answers.results, strictObservation externalId run answers.after with
    | .failed retryAfter, _ => retryProviderResultRead claim clock retryAfter
    | .answered _, .error retryAfter => retryProviderResultRead claim clock retryAfter
    | .answered results, .ok after =>
      if after ≠ some observed then finishProviderResultUncertain claim clock
      else if providerResultDeadlineReached run clock.checked then finishProviderResultUncertain claim clock
      else .applyPollPage claim (batch.map Listing.pk) (resolvedIds batch results) last.pk
        (clock.transition + feedPollBatchDelay) clock.transition

/-- `_process_polling_feed_run`; `batch` is the page that it loads, none when the claim is stale. -/
def processPollingFeedRun (externalId : String) (claim : FeedRunClaim) (run : MarketplaceFeedRun)
    (batch : Option (List Listing)) (answers : ProviderAnswers) (clock : StepClock) : Option FeedAction :=
  if providerResultDeadlineReached run clock.entered then some (finishProviderResultUncertain claim clock)
  else
    match strictObservation externalId run answers.before with
    | .error retryAfter => some (retryProviderResultRead claim clock retryAfter)
    | .ok none => some (retryProviderResultRead claim clock none)
    | .ok (some (providerRunId, providerStatus)) =>
      if run.providerRunId.getD "" = "" then
        if run.providerPredecessorRunId = none then some (finishProviderResultUncertain claim clock)
        else if run.providerPredecessorRunId = some providerRunId then
          some (retryProviderResultRead claim clock none)
        else some (.recordProviderRunObservation claim providerRunId (clock.transition + feedPollBatchDelay)
          clock.transition)
      else if run.providerRunId ≠ some providerRunId then some (finishProviderResultUncertain claim clock)
      else if providerStatus ∉ providerCurrentItemStatuses then some (retryProviderResultRead claim clock none)
      else if run.reportCompletedAt = none then
        some (.startReporting claim (clock.transition + durableFeedReportDelay) (some providerRunId)
          clock.transition)
      else if providerStatus = "processing" then some (retryProviderResultRead claim clock none)
      else batch.map fun batch =>
        processPollBatch externalId claim run (providerRunId, providerStatus) batch answers clock

def retryReportingOrFail (claim : FeedRunClaim) (run : MarketplaceFeedRun) (clock : StepClock) : FeedAction :=
  if reportRetryBudget ≤ run.reportAttempt then finishProviderResultUncertain claim clock
  else retryDurableFeedStep claim clock pollRetryDelay true false

def providerPageObservationIsConsistent (before after : String × String) : Prop :=
  before.1 = after.1 ∧ before.2 ∈ providerCurrentItemStatuses ∧ after.2 ∈ providerCurrentItemStatuses ∧
    ¬ (before.2 ∈ providerSuccessStatuses ∧ after.2 = "processing")

instance (before after : String × String) : Decidable (providerPageObservationIsConsistent before after) :=
  inferInstanceAs (Decidable (_ ∧ _ ∧ _ ∧ _))

def processReportPage (externalId : String) (claim : FeedRunClaim) (run : MarketplaceFeedRun) (maxPages : ℕ)
    (before : String × String) (answers : ProviderAnswers) (clock : StepClock) : FeedAction :=
  match answers.page with
  | .failed _ => retryReportingOrFail claim run clock
  | .answered (errors, externalIds, nextPage) =>
    if (nextPage.any fun next => maxPages < next) = true then finishProviderResultUncertain claim clock
    else
      match strictObservation externalId run answers.after with
      | .error _ => retryReportingOrFail claim run clock
      | .ok none => finishProviderResultUncertain claim clock
      | .ok (some after) =>
        if ¬ providerPageObservationIsConsistent before after then finishProviderResultUncertain claim clock
        else if providerResultDeadlineReached run clock.checked then finishProviderResultUncertain claim clock
        else .applyReportPage claim
          { currentPage := run.reportPage, errors, externalIds, nextPage,
            nextAttemptAt :=
              if nextPage ≠ none then some (clock.transition + durableFeedReportDelay)
              else if after.2 = "processing" then some (clock.transition + pollRetryDelay) else none,
            providerComplete := decide (after.2 ∈ providerSuccessStatuses) } clock.transition

/-- `_process_reporting_feed_run`; `maxPages` is the setting, clamped to 1 to 100. -/
def processReportingFeedRun (externalId : String) (claim : FeedRunClaim) (run : MarketplaceFeedRun) (maxPages : ℕ)
    (answers : ProviderAnswers) (clock : StepClock) : FeedAction :=
  if providerResultDeadlineReached run clock.entered then finishProviderResultUncertain claim clock
  else if maxPages < run.reportPage then finishProviderResultUncertain claim clock
  else
    match strictObservation externalId run answers.before with
    | .error _ => retryReportingOrFail claim run clock
    | .ok none => retryReportingOrFail claim run clock
    | .ok (some (providerRunId, providerStatus)) =>
      if run.providerRunId ≠ some providerRunId then finishProviderResultUncertain claim clock
      else if providerStatus ∉ providerCurrentItemStatuses then retryReportingOrFail claim run clock
      else processReportPage externalId claim run maxPages (providerRunId, providerStatus) answers clock

/-- The dispatch of `process_marketplace_feed_run_step` after its claim: the operation it ends in, none
when the claim went stale while the step was reading. -/
def processMarketplaceFeedRunStep (externalId : String) (claim : FeedRunClaim) (run : MarketplaceFeedRun)
    (maxPages : ℕ) (batch : Option (List Listing)) (answers : ProviderAnswers) (clock : StepClock) :
    Option FeedAction :=
  match claim.state with
  | .preparing => some (finishDurableFeedRun claim clock .failed false)
  | .submitUnknown => some (processSubmissionUnknown externalId claim run answers clock)
  | .polling => processPollingFeedRun externalId claim run batch answers clock
  | .reporting => some (processReportingFeedRun externalId claim run maxPages answers clock)
  | _ => some (finishDurableFeedRun claim clock .failed false)

end FeedProvider

end MapBackend.Marketplaces
