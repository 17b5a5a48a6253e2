import MapBackend.Library.Transactions
import MapBackend.Library.Tables
import Mathlib.Data.Int.Notation

/-!
The rows of one marketplace account that the feed workflow touches: the account, its feed
runs with the constraints of their table, its listings and the sync log.
-/

namespace MapBackend.Marketplaces
open MapBackend.Library

abbrev Instant := ℤ

abbrev Uuid := ℕ

inductive FeedRunState where
  | preparing | submitUnknown | polling | reporting | retryWait
  | succeeded | failed | outcomeUncertain | superseded | cancelled
  deriving DecidableEq, Repr

namespace FeedRunState

def activeStates : List FeedRunState := [.preparing, .submitUnknown, .polling, .reporting, .retryWait]

def ownershipStates : List FeedRunState := activeStates ++ [.outcomeUncertain]

def terminalStates : List FeedRunState := [.succeeded, .failed, .outcomeUncertain, .superseded, .cancelled]

def withdrawnStates : List FeedRunState := [.superseded, .cancelled]

end FeedRunState

structure MarketplaceFeedRun where
  pk : Uuid
  tenant : ℕ
  marketplace : String
  state : FeedRunState
  revision : ℕ
  accountIdentityDigest : String
  payloadSha256 : String
  providerRunId : Option String
  providerPredecessorRunId : Option String
  submittedAt : Option Instant
  providerResultDeadlineAt : Option Instant
  submissionReconcileAttempt : ℕ
  pollCursorListingId : ℕ
  pollRound : ℕ
  reportPage : ℕ
  reportAttempt : ℕ
  reportCompletedAt : Option Instant
  nextAttemptAt : Option Instant
  claimToken : Option Uuid
  claimedUntil : Option Instant
  totalCount : ℕ
  publishedCount : ℕ
  rejectedCount : ℕ
  pendingCount : ℕ
  finishedAt : Option Instant
  feedArtifact : Option Uuid
  artifactUploadAttempt : ℕ
  sourceIntentRevision : Option ℕ
  endpointRevision : Option ℕ
  predecessorArtifactId : Option Uuid
  deriving DecidableEq

namespace MarketplaceFeedRun

def active (run : MarketplaceFeedRun) : Prop := run.state ∈ FeedRunState.activeStates

def owns (run : MarketplaceFeedRun) : Prop := run.state ∈ FeedRunState.ownershipStates

def terminal (run : MarketplaceFeedRun) : Prop := run.state ∈ FeedRunState.terminalStates

instance (run : MarketplaceFeedRun) : Decidable run.active := inferInstanceAs (Decidable (_ ∈ _))

instance (run : MarketplaceFeedRun) : Decidable run.owns := inferInstanceAs (Decidable (_ ∈ _))

instance (run : MarketplaceFeedRun) : Decidable run.terminal := inferInstanceAs (Decidable (_ ∈ _))

def Checked (run : MarketplaceFeedRun) : Prop :=
  (run.sourceIntentRevision = none ∧ run.endpointRevision = none ∧ run.predecessorArtifactId = none ∧
      run.feedArtifact = none ∧ run.artifactUploadAttempt = 0 ∨
    (run.sourceIntentRevision.any fun revision => 1 ≤ revision) = true ∧ run.endpointRevision.isSome = true) ∧
  (run.feedArtifact = none ∨ 1 ≤ run.artifactUploadAttempt) ∧
  (run.feedArtifact = none ∨ run.predecessorArtifactId = none ∨ run.feedArtifact ≠ run.predecessorArtifactId)

instance (run : MarketplaceFeedRun) : Decidable run.Checked :=
  inferInstanceAs (Decidable ((_ ∨ _) ∧ (_ ∨ _) ∧ (_ ∨ _ ∨ _)))

end MarketplaceFeedRun

/-- The table accepts these rows: primary key, one owner, provider reference, source revision. -/
structure FeedRunConstraints (runs : List MarketplaceFeedRun) : Prop where
  keys : (runs.map MarketplaceFeedRun.pk).Nodup
  owner : (runs.filter fun run => run.owns).length ≤ 1
  provider : ((runs.filterMap MarketplaceFeedRun.providerRunId).filter (· ≠ "")).Nodup
  source : (runs.filterMap MarketplaceFeedRun.sourceIntentRevision).Nodup
  checked : ∀ run ∈ runs, run.Checked

instance (runs : List MarketplaceFeedRun) : Decidable (FeedRunConstraints runs) :=
  decidable_of_iff
    ((runs.map MarketplaceFeedRun.pk).Nodup ∧ (runs.filter fun run => run.owns).length ≤ 1 ∧
      ((runs.filterMap MarketplaceFeedRun.providerRunId).filter (· ≠ "")).Nodup ∧
      (runs.filterMap MarketplaceFeedRun.sourceIntentRevision).Nodup ∧ ∀ run ∈ runs, run.Checked)
    ⟨fun ⟨keys, owner, provider, source, checked⟩ => ⟨keys, owner, provider, source, checked⟩,
      fun ⟨keys, owner, provider, source, checked⟩ => ⟨keys, owner, provider, source, checked⟩⟩

inductive ListingStatus where
  | draft | queued | pending | active | rejected | archiving | archived | deleted | requiresReview
  | limitReached
  deriving DecidableEq, Repr

structure Listing where
  pk : ℕ
  tenant : ℕ
  product : ℕ
  feedRun : Option Uuid
  status : ListingStatus
  externalId : Option String
  publishIdempotencyKey : Uuid
  deletedAt : Option Instant
  rejectionReason : String
  publishedAt : Option Instant
  lastSyncAt : Option Instant
  remoteStatus : Option String
  remoteStatusCheckedAt : Option Instant
  nextStatusCheckAt : Option Instant
  statusCheckClaimToken : Option Uuid
  statusCheckClaimedUntil : Option Instant
  deriving DecidableEq

inductive SyncEvent where
  | listingPublish | listingError
  deriving DecidableEq, Repr

structure SyncLog where
  tenant : ℕ
  product : ℕ
  listing : ℕ
  eventType : SyncEvent
  message : String
  feedGenerationId : Uuid
  providerListingId : Option String
  deriving DecidableEq

structure MarketplaceAccount where
  tenant : ℕ
  marketplace : String
  /-- `account_identity_digest` of the row. -/
  identityDigest : String
  deletedAt : Option Instant
  isActive : Bool
  tenantIsActive : Bool
  statusBatchDueAt : Option Instant
  deriving DecidableEq

def MarketplaceAccount.live (account : MarketplaceAccount) : Prop :=
  account.deletedAt = none ∧ account.isActive = true ∧ account.tenantIsActive = true

instance (account : MarketplaceAccount) : Decidable account.live := inferInstanceAs (Decidable (_ ∧ _ ∧ _))

/-- The rows of one account; `account` is absent when its row was removed. The primary keys of
feed runs and the provider ids of listings are unique across accounts. -/
structure FeedStore where
  accountId : ℕ
  account : Option MarketplaceAccount
  runs : List MarketplaceFeedRun
  listings : List Listing
  syncLog : List SyncLog
  otherRuns : List Uuid
  otherExternalIds : List String
  deriving DecidableEq

inductive FeedError where
  | accountUnavailable (message : String)
  | conflict (message : String)
  | submissionOutcomeUncertain (message : String)
  | staleClaim (message : String)
  | valueError (message : String)
  | integrityError
  deriving DecidableEq

end MapBackend.Marketplaces
