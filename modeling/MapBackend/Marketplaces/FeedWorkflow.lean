import MapBackend.Marketplaces.Models

/-!
The feed workflow on the rows of one account.
-/

namespace MapBackend.Marketplaces
open MapBackend.Library

structure FeedRunClaim where
  runId : Uuid
  accountId : ℕ
  tenantId : ℕ
  marketplace : String
  state : FeedRunState
  revision : ℕ
  accountIdentityDigest : String
  submittedAt : Option Instant
  pollCursorListingId : ℕ
  reportPage : ℕ
  claimToken : Uuid
  claimedUntil : Instant
  deriving DecidableEq

/-- The run is still exactly as the claim says, state apart, and the lease is live. -/
structure FeedRunClaim.Fences (claim : FeedRunClaim) (run : MarketplaceFeedRun) (now : Instant) : Prop where
  pk : run.pk = claim.runId
  tenant : run.tenant = claim.tenantId
  marketplace : run.marketplace = claim.marketplace
  digest : run.accountIdentityDigest = claim.accountIdentityDigest
  revision : run.revision = claim.revision
  token : run.claimToken = some claim.claimToken
  until' : run.claimedUntil = some claim.claimedUntil
  live : now < claim.claimedUntil

instance (claim : FeedRunClaim) (run : MarketplaceFeedRun) (now : Instant) :
    Decidable (claim.Fences run now) :=
  decidable_of_iff
    (run.pk = claim.runId ∧ run.tenant = claim.tenantId ∧ run.marketplace = claim.marketplace ∧
      run.accountIdentityDigest = claim.accountIdentityDigest ∧ run.revision = claim.revision ∧
      run.claimToken = some claim.claimToken ∧ run.claimedUntil = some claim.claimedUntil ∧
      now < claim.claimedUntil)
    ⟨fun ⟨a, b, c, d, e, f, g, h⟩ => ⟨a, b, c, d, e, f, g, h⟩,
      fun ⟨a, b, c, d, e, f, g, h⟩ => ⟨a, b, c, d, e, f, g, h⟩⟩

namespace FeedWorkflow

def maxPollBatchSize : ℕ := 100
def maxGenerationListings : ℕ := 10000
def maxReportPages : ℕ := 100
def second : Instant := 1000000
def publishedStatusRecheckDelay : Instant := 10 * 60 * second
def unresolvedPollRetryDelay : Instant := 30 * 60 * second
def providerResultHorizon : Instant := 48 * 3600 * second

def claimSnapshot (accountId : ℕ) (run : MarketplaceFeedRun) (claimToken : Uuid) (claimedUntil : Instant) :
    FeedRunClaim :=
  { runId := run.pk, accountId, tenantId := run.tenant, marketplace := run.marketplace, state := run.state,
    revision := run.revision, accountIdentityDigest := run.accountIdentityDigest,
    submittedAt := run.submittedAt, pollCursorListingId := run.pollCursorListingId,
    reportPage := run.reportPage, claimToken, claimedUntil }

def lockAccount (s : FeedStore) (accountId : ℕ) : Option MarketplaceAccount :=
  if accountId = s.accountId then s.account else none

def accountUnavailable (accountId : ℕ) : FeedError :=
  .accountUnavailable ("Marketplace account " ++ toString accountId ++ " does not exist.")

def accountInactive (accountId : ℕ) : FeedError :=
  .accountUnavailable ("Marketplace account " ++ toString accountId ++ " is inactive or deleted.")

def findRun (s : FeedStore) (runId : Uuid) : Option MarketplaceFeedRun :=
  s.runs.find? fun run => decide (run.pk = runId)

def writeRuns (s : FeedStore) (runs : List MarketplaceFeedRun) : Except FeedError FeedStore :=
  if FeedRunConstraints runs then .ok { s with runs } else .error .integrityError

def updateRun (s : FeedStore) (run : MarketplaceFeedRun) : Except FeedError FeedStore :=
  writeRuns s (put MarketplaceFeedRun.pk run s.runs)

def terminalizeLocked (s : FeedStore) (run : MarketplaceFeedRun) (state : FeedRunState) (now : Instant) :
    Except FeedError FeedStore :=
  if run.terminal then .ok s
  else updateRun s { run with
    state
    revision := run.revision + 1
    nextAttemptAt := none
    claimToken := none
    claimedUntil := none
    finishedAt := some now }

def hasProvenNoSubmission (run : MarketplaceFeedRun) : Prop :=
  run.state = .preparing ∧ run.submittedAt = none ∧ run.providerRunId.getD "" = ""

instance (run : MarketplaceFeedRun) : Decidable (hasProvenNoSubmission run) :=
  inferInstanceAs (Decidable (_ ∧ _ ∧ _))

/-- `_fence_invalid_owner_locked`: a possibly submitted owner keeps the account. -/
def fenceInvalidOwnerLocked (s : FeedStore) (run : MarketplaceFeedRun) (safeState : FeedRunState)
    (now : Instant) : Except FeedError FeedStore :=
  if hasProvenNoSubmission run then terminalizeLocked s run safeState now
  else terminalizeLocked s run .outcomeUncertain now

inductive SubmittedPolicy where
  | block | outcomeUncertain
  deriving DecidableEq, Repr

def fenceAccountFeedRunsForOwnerChange (accountId : ℕ) (safeState : FeedRunState)
    (submittedPolicy : SubmittedPolicy) (now : Instant) (s : FeedStore) :
    Except FeedError (FeedStore × Option Uuid) := do
  raiseIf (safeState ∉ FeedRunState.withdrawnStates)
    (.valueError "safe_state must be superseded or cancelled.")
  let _ ← orRaise (accountUnavailable accountId) (lockAccount s accountId)
  match s.runs.find? fun run => decide run.owns with
  | none => .ok (s, none)
  | some run =>
    if hasProvenNoSubmission run then do
      let s ← terminalizeLocked s run safeState now
      .ok (s, some run.pk)
    else do
      raiseIf (submittedPolicy = .block) (.submissionOutcomeUncertain
        "A provider submission already owns this account; reconcile it before changing marketplace account identity.")
      if run.state = .outcomeUncertain then .ok (s, some run.pk)
      else do
        let s ← fenceInvalidOwnerLocked s run safeState now
        .ok (s, some run.pk)

structure NewGeneration where
  generationId : Uuid
  payloadSha256 : String
  sourceIntentRevision : Option ℕ
  endpointRevision : Option ℕ
  predecessorArtifactId : Option Uuid
  deriving DecidableEq

def NewGeneration.wellFormed (new : NewGeneration) : Prop :=
  new.sourceIntentRevision = none ∧ new.endpointRevision = none ∧ new.predecessorArtifactId = none ∨
    (new.sourceIntentRevision.any fun revision => 1 ≤ revision) = true ∧ new.endpointRevision.isSome = true

instance (new : NewGeneration) : Decidable new.wellFormed :=
  inferInstanceAs (Decidable (_ ∧ _ ∧ _ ∨ _ ∧ _))

def isPendingRow (account : MarketplaceAccount) (listing : Listing) : Prop :=
  listing.deletedAt = none ∧ listing.tenant = account.tenant ∧ listing.status = .pending ∧
    listing.externalId = none

instance (account : MarketplaceAccount) (listing : Listing) : Decidable (isPendingRow account listing) :=
  inferInstanceAs (Decidable (_ ∧ _ ∧ _ ∧ _))

def freshRun (account : MarketplaceAccount) (new : NewGeneration) (total : ℕ) (now : Instant) :
    MarketplaceFeedRun :=
  { pk := new.generationId, tenant := account.tenant, marketplace := account.marketplace,
    state := .preparing, revision := 0, accountIdentityDigest := account.identityDigest,
    payloadSha256 := new.payloadSha256, providerRunId := none, providerPredecessorRunId := none,
    submittedAt := none, providerResultDeadlineAt := none, submissionReconcileAttempt := 0,
    pollCursorListingId := 0, pollRound := 0, reportPage := 1, reportAttempt := 0,
    reportCompletedAt := none, nextAttemptAt := some now, claimToken := none, claimedUntil := none,
    totalCount := total, publishedCount := 0, rejectedCount := 0, pendingCount := total,
    finishedAt := none, feedArtifact := none, artifactUploadAttempt := 0,
    sourceIntentRevision := new.sourceIntentRevision, endpointRevision := new.endpointRevision,
    predecessorArtifactId := new.predecessorArtifactId }

def safelyReplaceable (run : MarketplaceFeedRun) : Prop :=
  run.state = .preparing ∧ run.claimToken = none ∧ run.claimedUntil = none ∧ run.submittedAt = none ∧
    run.providerRunId = none

instance (run : MarketplaceFeedRun) : Decidable (safelyReplaceable run) :=
  inferInstanceAs (Decidable (_ ∧ _ ∧ _ ∧ _ ∧ _))

def supersedeActive (now : Instant) : List MarketplaceFeedRun → FeedStore → Except FeedError FeedStore
  | [], s => .ok s
  | run :: rest, s => do
    raiseIf (¬ safelyReplaceable run)
      (.conflict "An active feed generation may already have crossed the provider boundary.")
    let s ← terminalizeLocked s run .superseded now
    supersedeActive now rest s

def insertGeneration (s : FeedStore) (account : MarketplaceAccount) (new : NewGeneration) (now : Instant) :
    Except FeedError (FeedStore × Uuid) := do
  let total := (s.listings.filter fun listing => isPendingRow account listing).length
  let s ← writeRuns s (s.runs ++ [freshRun account new total now])
  let listings := s.listings.map fun listing =>
    if isPendingRow account listing then { listing with feedRun := some new.generationId } else listing
  .ok ({ s with listings }, new.generationId)

def createOrSupersedeFeedRun (accountId : ℕ) (new : NewGeneration) (now : Instant) (s : FeedStore) :
    Except FeedError (FeedStore × Uuid) := do
  raiseIf (¬ new.wellFormed) (.valueError "Private generation fields must be supplied as one bundle.")
  let account ← orRaise (accountUnavailable accountId) (lockAccount s accountId)
  raiseIf (¬ account.live) (accountInactive accountId)
  raiseIf (new.generationId ∈ s.otherRuns) (.conflict "Generation id already belongs to another account.")
  match findRun s new.generationId with
  | some existing => do
    raiseIf (new.payloadSha256 ≠ "" ∧ existing.payloadSha256 ≠ "" ∧
      existing.payloadSha256 ≠ new.payloadSha256)
      (.conflict "Generation replay has a different payload digest.")
    raiseIf (existing.sourceIntentRevision ≠ new.sourceIntentRevision ∨
      existing.endpointRevision ≠ new.endpointRevision ∨
      existing.predecessorArtifactId ≠ new.predecessorArtifactId)
      (.conflict "Generation replay has a different private endpoint snapshot.")
    .ok (s, existing.pk)
  | none => do
    raiseIf (maxGenerationListings < (s.listings.filter fun listing => isPendingRow account listing).length)
      (.conflict "A feed generation cannot contain more than 10000 listings.")
    raiseIf (∃ run ∈ s.runs, run.state = .outcomeUncertain)
      (.submissionOutcomeUncertain "A previous provider submission has an uncertain outcome and still owns this account; manual reconciliation is required before another feed POST.")
    let s ← supersedeActive now (s.runs.filter fun run => run.active) s
    insertGeneration s account new now

def safePreSubmissionFailure (account : MarketplaceAccount) (run : MarketplaceFeedRun)
    (expectedRevision : ℕ) (payloadSha256 : String) : Prop :=
  run.state = .failed ∧ run.revision = expectedRevision ∧ run.sourceIntentRevision ≠ none ∧
    run.payloadSha256 = payloadSha256 ∧ run.accountIdentityDigest = account.identityDigest ∧
    run.claimToken = none ∧ run.claimedUntil = none ∧ run.submittedAt = none ∧ run.providerRunId = none ∧
    run.providerPredecessorRunId = none ∧ run.providerResultDeadlineAt = none ∧
    run.submissionReconcileAttempt = 0 ∧ run.feedArtifact = none ∧ run.artifactUploadAttempt = 0 ∧
    run.publishedCount = 0 ∧ run.rejectedCount = 0 ∧ run.pendingCount = run.totalCount ∧
    run.pollCursorListingId = 0 ∧ run.pollRound = 0 ∧ run.reportPage = 1 ∧ run.reportAttempt = 0 ∧
    run.reportCompletedAt = none ∧ run.finishedAt ≠ none

instance (account : MarketplaceAccount) (run : MarketplaceFeedRun) (expectedRevision : ℕ)
    (payloadSha256 : String) : Decidable (safePreSubmissionFailure account run expectedRevision payloadSha256) :=
  inferInstanceAs (Decidable (_ ∧ _ ∧ _ ∧ _ ∧ _ ∧ _ ∧ _ ∧ _ ∧ _ ∧ _ ∧ _ ∧ _ ∧ _ ∧ _ ∧ _ ∧ _ ∧ _ ∧ _ ∧ _ ∧
    _ ∧ _ ∧ _ ∧ _))

/-- `hasUploadAttempts`: the run has a row in the ledger of object uploads. -/
def resumeFailedPreSubmissionFeedRun (accountId : ℕ) (generationId : Uuid) (expectedRevision : ℕ)
    (payloadSha256 : String) (hasUploadAttempts : Bool) (now : Instant) (s : FeedStore) :
    Except FeedError FeedStore := do
  let account ← orRaise (accountUnavailable accountId) (lockAccount s accountId)
  raiseIf (¬ account.live) (accountInactive accountId)
  let run ← orRaise (.conflict "Failed feed generation no longer exists.") (findRun s generationId)
  raiseIf (¬ safePreSubmissionFailure account run expectedRevision payloadSha256)
    (.conflict "Failed feed generation has storage, provider, ownership, or result evidence and cannot be replayed automatically.")
  raiseIf (hasUploadAttempts = true) (.conflict "Failed feed generation has a durable object upload attempt.")
  raiseIf ((s.listings.filter fun listing => isPendingRow account listing ∧ listing.feedRun = some run.pk).length ≠
    run.pendingCount) (.conflict "Failed feed generation membership changed before safe replay.")
  updateRun s { run with
    state := .preparing
    revision := run.revision + 1
    nextAttemptAt := some now
    finishedAt := none }

/-- The state that fences the run when its account went away or changed owner or identity. -/
def ownerFence (account : MarketplaceAccount) (run : MarketplaceFeedRun) : Option FeedRunState :=
  if ¬ account.live then some .cancelled
  else if run.tenant ≠ account.tenant ∨ run.marketplace ≠ account.marketplace ∨
      run.accountIdentityDigest ≠ account.identityDigest then some .superseded
  else none

def claimable (run : MarketplaceFeedRun) (now : Instant) : Prop :=
  (run.nextAttemptAt.any fun due => due ≤ now) = true ∧
    (run.claimToken = none ∨ (run.claimedUntil.all fun until' => until' ≤ now) = true)

instance (run : MarketplaceFeedRun) (now : Instant) : Decidable (claimable run now) :=
  inferInstanceAs (Decidable (_ ∧ (_ ∨ _)))

structure Lease where
  now : Instant
  lease : Instant
  token : Uuid
  deriving DecidableEq

def claimLockedAccount (account : MarketplaceAccount) (given : Lease) (expectedGenerationId : Option Uuid)
    (expectedRevision : Option ℕ) (s : FeedStore) : Except FeedError (FeedStore × Option FeedRunClaim) :=
  match s.runs.find? fun run => decide (run.active ∧ (expectedGenerationId.all fun pk => pk = run.pk) = true) with
  | none => .ok (s, none)
  | some run =>
    match ownerFence account run with
    | some safeState => do
      let s ← fenceInvalidOwnerLocked s run safeState given.now
      .ok (s, none)
    | none =>
      if (expectedRevision.all fun revision => revision = run.revision) = true ∧ claimable run given.now then do
        let claimed := { run with
          revision := run.revision + 1
          claimToken := some given.token
          claimedUntil := some (given.now + given.lease) }
        let s ← updateRun s claimed
        .ok (s, some (claimSnapshot s.accountId claimed given.token (given.now + given.lease)))
      else .ok (s, none)

def claimDueRunForAccount (accountId : ℕ) (expectedGenerationId : Option Uuid) (expectedRevision : Option ℕ)
    (given : Lease) (s : FeedStore) : Except FeedError (FeedStore × Option FeedRunClaim) := do
  raiseIf (given.lease ≤ 0) (.valueError "lease must be a positive timedelta.")
  match lockAccount s accountId with
  | none => .ok (s, none)
  | some account => claimLockedAccount account given expectedGenerationId expectedRevision s

def claimDueRuns (marketplace : Option String) (given : Lease) (s : FeedStore) :
    Except FeedError (FeedStore × Option FeedRunClaim) := do
  raiseIf (given.lease ≤ 0) (.valueError "lease must be a positive timedelta.")
  match s.account with
  | none => .ok (s, none)
  | some account =>
    if account.live ∧ (marketplace.all fun name => name = account.marketplace) = true ∧
        ∃ run ∈ s.runs, run.active ∧ claimable run given.now ∧
          (marketplace.all fun name => name = run.marketplace) = true then
      claimLockedAccount account given none none s
    else .ok (s, none)

def cancelInactiveFeedRun (runId : Uuid) (accountId : ℕ) (now : Instant) (s : FeedStore) :
    Except FeedError FeedStore :=
  match lockAccount s accountId with
  | none => .ok s
  | some account =>
    match s.runs.find? fun run => decide (run.pk = runId ∧ run.active) with
    | none => .ok s
    | some run => if account.live then .ok s else fenceInvalidOwnerLocked s run .cancelled now

inductive Resolution where
  | providerAccepted | providerNotAccepted
  deriving DecidableEq, Repr

/-- `_provider_run_id`: a stripped text of 1 to 200 characters. -/
def providerRunIdOf (value : Option String) : Except FeedError String := do
  let text ← orRaise (.valueError "provider_run_id must be a string.") value
  raiseIf (text = "" ∨ 200 < text.length) (.valueError "provider_run_id must contain 1 to 200 characters.")
  .ok text

def providerIdentityFree (s : FeedStore) (run : MarketplaceFeedRun) (providerRunId : String) :
    Except FeedError Unit := do
  raiseIf (run.providerRunId.getD "" ≠ "" ∧ run.providerRunId ≠ some providerRunId)
    (.conflict "Provider run identity does not match the feed generation.")
  raiseIf (∃ other ∈ s.runs, other.pk ≠ run.pk ∧ other.providerRunId = some providerRunId)
    (.conflict "Provider run identity already belongs to another feed generation.")
  raiseIf (∃ other ∈ s.runs, other.pk ≠ run.pk ∧ other.active)
    (.conflict "Another active feed generation already owns this account.")

def reconcileUncertainFeedRun (runId : Uuid) (expectedRevision : ℕ) (resolution : Resolution)
    (providerRunId : Option String) (allowTombstone : Bool) (now : Instant) (s : FeedStore) :
    Except FeedError FeedStore := do
  raiseIf (allowTombstone = true ∧ resolution ≠ .providerNotAccepted)
    (.valueError "allow_tombstone is allowed only for provider_not_accepted.")
  let accepted ← (match resolution with
    | .providerAccepted => do
      let text ← providerRunIdOf providerRunId
      .ok (some text)
    | .providerNotAccepted => do
      raiseIf (providerRunId ≠ none) (.valueError "provider_run_id is allowed only for provider_accepted.")
      .ok none : Except FeedError (Option String))
  let run ← orRaise (.conflict "Feed run does not exist.") (findRun s runId)
  let account ← orRaise (accountUnavailable s.accountId) s.account
  raiseIf (account.tenantIsActive = false) (.accountUnavailable
    ("Marketplace account " ++ toString s.accountId ++ " belongs to an inactive tenant."))
  raiseIf (¬ account.live ∧ ¬ (account.isActive = false ∧ allowTombstone = true)) (accountInactive s.accountId)
  raiseIf (run.state ≠ .outcomeUncertain) (.conflict "Feed run is not awaiting operator reconciliation.")
  raiseIf (run.revision ≠ expectedRevision) (.conflict "Feed run revision changed.")
  raiseIf (run.tenant ≠ account.tenant ∨ run.marketplace ≠ account.marketplace ∨
    run.accountIdentityDigest ≠ account.identityDigest) (.conflict "Marketplace account identity changed.")
  raiseIf (run.submittedAt = none)
    (.conflict "An uncertain feed run without a submission timestamp cannot be reconciled.")
  let reconciled := { run with
    revision := run.revision + 1
    submissionReconcileAttempt := 0
    reportAttempt := 0
    claimToken := none
    claimedUntil := none }
  match accepted with
  | some providerRunId => do
    providerIdentityFree s run providerRunId
    updateRun s { reconciled with
      state := .polling
      providerRunId := some providerRunId
      providerResultDeadlineAt := some (now + providerResultHorizon)
      reportCompletedAt := none
      nextAttemptAt := some now
      finishedAt := none }
  | none => updateRun s { reconciled with
      state := .failed
      nextAttemptAt := none
      finishedAt := some now }

def supersedeFeedRun (runId : Uuid) (expectedRevision : Option ℕ) (now : Instant) (s : FeedStore) :
    Except FeedError FeedStore := do
  let run ← orRaise (.conflict "Feed run does not exist.") (findRun s runId)
  let _ ← orRaise (accountUnavailable s.accountId) s.account
  raiseIf ((expectedRevision.all fun revision => revision = run.revision) = false)
    (.conflict "Feed run revision changed.")
  if run.terminal then .ok s else fenceInvalidOwnerLocked s run .superseded now

end FeedWorkflow

end MapBackend.Marketplaces
