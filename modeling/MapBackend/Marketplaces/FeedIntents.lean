import MapBackend.Core.PublicUrl
import MapBackend.Library.Workers
import MapBackend.Marketplaces.Models
import Mathlib.Data.List.Sort
import Mathlib.Data.Rat.Defs

/-!
Feed intents: the cursor of an account over the revisions of its feed, the durable dispatches of these revisions and
the recovery pass over the dispatches that ended without delivering.
-/

namespace MapBackend.Marketplaces.FeedIntent
open MapBackend.Library MapBackend.Core

def minute : Instant := 60 * 1000000

def hour : Instant := 60 * minute

/-- `MAX_FEED_INTENT_REVISION`, the largest value of the column. -/
def maxFeedIntentRevision : ℕ := 2 ^ 63 - 1

/-- The desired and the dispatched revision, with the constraint of the table. -/
structure FeedCursor where
  revision : ℕ
  dispatchedRevision : ℕ
  dispatched_le : dispatchedRevision ≤ revision
  revision_le : revision ≤ maxFeedIntentRevision
  deriving DecidableEq

namespace FeedCursor

def next (cursor : FeedCursor) : FeedCursor :=
  if room : cursor.revision < maxFeedIntentRevision then
    { cursor with
      revision := cursor.revision + 1
      dispatched_le := Nat.le_succ_of_le cursor.dispatched_le
      revision_le := room }
  else cursor

def reach (cursor : FeedCursor) (captured : ℕ) : FeedCursor :=
  { cursor with
    dispatchedRevision := min cursor.revision (max cursor.dispatchedRevision captured)
    dispatched_le := Nat.min_le_left _ _ }

end FeedCursor

/-- An account with the source revision of its stable endpoint, if it has one. -/
structure FeedAccount where
  pk : ℕ
  deleted : Bool
  isActive : Bool
  tenantActive : Bool
  isAvito : Bool
  lastFeedFlushAt : Option Instant
  cursor : FeedCursor
  feedIntentDueAt : Option Instant
  sourceIntentRevision : Option ℕ
  deriving DecidableEq

namespace FeedAccount

def inactive (account : FeedAccount) : Bool := account.deleted || !account.isActive || !account.tenantActive

def drifted (account : FeedAccount) : Bool :=
  account.sourceIntentRevision.any fun revision => decide (revision ≠ account.cursor.revision)

def exhausted (account : FeedAccount) : Bool := decide (maxFeedIntentRevision ≤ account.cursor.revision)

/-- A revision without a due time that no dispatch carries: the outcome of its provider is uncertain. -/
def held (account : FeedAccount) : Bool :=
  decide (account.cursor.dispatchedRevision < account.cursor.revision) && account.feedIntentDueAt.isNone

def advance (account : FeedAccount) (dueAt : Option Instant) : FeedAccount :=
  { account with
    cursor := account.cursor.next
    feedIntentDueAt := dueAt
    sourceIntentRevision := account.sourceIntentRevision.map fun _ => account.cursor.next.revision }

/-- One account of `bump_feed_intents`: an hour after the last feed at the earliest, never later than it was due. -/
def bump (account : FeedAccount) (observedAt : Instant) : FeedAccount :=
  let candidate := match account.lastFeedFlushAt with
    | none => observedAt
    | some flushedAt => max observedAt (flushedAt + hour)
  account.advance <|
    if account.held then none
    else match account.feedIntentDueAt with
      | none => some candidate
      | some dueAt => some (min dueAt candidate)

def nudge (account : FeedAccount) (dueAt : Instant) : FeedAccount :=
  if account.cursor.revision ≤ account.cursor.dispatchedRevision then account
  else if account.feedIntentDueAt.any (fun due => decide (due ≤ dueAt)) then account
  else { account with feedIntentDueAt := some dueAt }

end FeedAccount

/-! ## Dispatches -/

inductive DispatchStatus where
  | pending | publishing | published | running | succeeded | failed | cancelled
  deriving DecidableEq, Repr

def DispatchStatus.terminal : DispatchStatus → Bool
  | .succeeded | .failed | .cancelled => true
  | .pending | .publishing | .published | .running => false

inductive DispatchTask where
  | processMarketplaceFeedIntent
  | other (name : String)
  deriving DecidableEq

inductive DispatchArg where
  | int (n : ℤ)
  | bool (b : Bool)
  | float (value : ℚ)
  | text (s : Text)
  | other
  deriving DecidableEq

namespace DispatchArg

/-- `_canonical_positive_dispatch_arg` of a value: a positive integer or the text of one. -/
def canonicalPositive : DispatchArg → Option ℕ
  | .int n => if 0 < n then some n.toNat else none
  | .text s =>
    let normalized := s.foldl (fun value c => 10 * value + (c.toNat - 48)) 0
    if 0 < normalized ∧ (toString normalized).toList = s then some normalized else none
  | .bool _ | .float _ | .other => none

def equals (n : ℕ) : DispatchArg → Bool
  | .int m => decide (m = n)
  | .bool b => decide (b.toNat = n)
  | .float value => decide (value = n)
  | .text _ | .other => false

end DispatchArg

/-- The statuses that `process_marketplace_feed_intent` returns, and those of older releases. -/
inductive FeedIntentStatus where
  | disabled | inactive | missing | notActivated | invalid | stateConflict | stale | futureRevision | other
  deriving DecidableEq, Repr

def FeedIntentStatus.dark : FeedIntentStatus → Bool
  | .disabled | .inactive | .missing | .notActivated => true
  | .invalid | .stateConflict | .stale | .futureRevision | .other => false

inductive ReasonCode where
  | feedIntentRecovered | feedIntentSuperseded | feedIntentOwnerMissing | feedIntentRecoveryInvalid | outcomeUncertain | other
  deriving DecidableEq, Repr

def ReasonCode.final : ReasonCode → Bool
  | .feedIntentRecovered | .feedIntentSuperseded | .feedIntentOwnerMissing | .feedIntentRecoveryInvalid => true
  | .outcomeUncertain | .other => false

structure DispatchResult where
  status : Option FeedIntentStatus
  reasonCode : Option ReasonCode
  sourceRevision : Option ℕ
  desiredRevision : Option ℕ
  deriving DecidableEq

/-- A dispatch; the deduplication key of a feed intent names the account and the revision. -/
structure BackgroundJobDispatch where
  pk : ℕ
  taskName : DispatchTask
  args : List DispatchArg
  deduplicationKey : Option (ℕ × ℕ)
  status : DispatchStatus
  availableAt : Instant
  createdAt : Instant
  result : Option DispatchResult
  deriving DecidableEq

namespace BackgroundJobDispatch

def reasonCode (row : BackgroundJobDispatch) : Option ReasonCode := row.result.bind DispatchResult.reasonCode

def resultStatus (row : BackgroundJobDispatch) : Option FeedIntentStatus := row.result.bind DispatchResult.status

def needsRecovery (row : BackgroundJobDispatch) : Bool :=
  if row.taskName ≠ .processMarketplaceFeedIntent then false
  else if row.reasonCode.any ReasonCode.final then false
  else match row.status with
    | .failed | .cancelled => true
    | .succeeded => row.resultStatus.any FeedIntentStatus.dark
    | .pending | .publishing | .published | .running => false

def arg (row : BackgroundJobDispatch) (position : ℕ) : Option ℕ := row.args[position]? >>= DispatchArg.canonicalPositive

def finish (row : BackgroundJobDispatch) (reason : ReasonCode) (source desired : Option ℕ) : BackgroundJobDispatch :=
  { row with
    result := some { status := none, reasonCode := some reason, sourceRevision := source, desiredRevision := desired } }

def postpone (row : BackgroundJobDispatch) (availableAt : Instant) : BackgroundJobDispatch := { row with availableAt }

def before (a b : BackgroundJobDispatch) : Bool :=
  decide (a.availableAt < b.availableAt) || (decide (a.availableAt = b.availableAt) &&
    (decide (a.createdAt < b.createdAt) || (decide (a.createdAt = b.createdAt) && decide (a.pk ≤ b.pk))))

end BackgroundJobDispatch

/-- What the delivery of a dispatch writes; a terminal row is never written again. -/
inductive DispatchWrite where
  | pending (availableAt : Instant)
  | publishing | published | running
  | succeeded (status : FeedIntentStatus)
  | failed (uncertain : Bool)
  | cancelled

def finishedResult (status : FeedIntentStatus) : DispatchResult :=
  { status := some status, reasonCode := none, sourceRevision := none, desiredRevision := none }

def outcomeUncertainResult : DispatchResult :=
  { status := none, reasonCode := some .outcomeUncertain, sourceRevision := none, desiredRevision := none }

def DispatchWrite.apply (row : BackgroundJobDispatch) : DispatchWrite → BackgroundJobDispatch
  | .pending availableAt => { row with status := .pending, availableAt }
  | .publishing => { row with status := .publishing }
  | .published => { row with status := .published }
  | .running => { row with status := .running }
  | .succeeded status => { row with status := .succeeded, result := some (finishedResult status) }
  | .failed uncertain => { row with status := .failed, result := if uncertain then some outcomeUncertainResult else row.result }
  | .cancelled => { row with status := .cancelled }

def BackgroundJobDispatch.carries (row : BackgroundJobDispatch) (account : FeedAccount) : Bool :=
  decide (row.taskName = .processMarketplaceFeedIntent) &&
    match row.args with
    | [first, second] => first.equals account.pk && second.equals account.cursor.revision
    | _ => false

/-! ## The store -/

/-- A dispatch is followed up by a new desired revision, or by waking the one that is not dispatched yet. -/
inductive Followup where
  | successor | nudge
  deriving DecidableEq, Repr

structure Recovery where
  dispatch : ℕ
  account : ℕ
  source : ℕ
  desired : ℕ
  followup : Followup
  deriving DecidableEq

structure FeedStore where
  accounts : List FeedAccount
  dispatches : List BackgroundJobDispatch
  nextAccount : ℕ
  nextDispatch : ℕ
  recoveries : List Recovery

inductive FeedIntentError where
  | doesNotExist | revisionDrift | overflow | conflictingDispatch
  deriving DecidableEq, Repr

inductive AccountWrite where
  | holdPrivate (source : ℕ)
  | completeFlush (captured : Option ℕ) (completedAt : Instant) (submittedAt : Option Instant)
  | holdUnknown (captured : Option ℕ) (uncertainAt : Instant)
  | releaseSafe (captured : ℕ) (retryAt : Instant)
  | claimBoundary (captured : ℕ) (profileReady : Bool)
  | repairDeadline (captured : Option ℕ) (deadline : Instant) (releaseProviderHold : Bool)
  | nudge (dueAt : Instant)
  | owner (deleted isActive tenantActive : Bool)
  | createEndpoint

namespace FeedAccount

def completeFlush (account : FeedAccount) (captured : Option ℕ) (completedAt : Instant) (submittedAt : Option Instant) :
    FeedAccount :=
  let submitted := { account with lastFeedFlushAt := submittedAt.or account.lastFeedFlushAt }
  match captured with
  | none => submitted
  | some captured =>
    if account.cursor.revision < captured then account
    else { submitted with
      cursor := account.cursor.reach captured
      feedIntentDueAt := if account.cursor.revision = captured then none else some completedAt }

def outstanding (account : FeedAccount) (captured : ℕ) : Bool :=
  decide (account.cursor.dispatchedRevision < captured) && decide (captured ≤ account.cursor.revision)

def write (account : FeedAccount) : AccountWrite → FeedAccount
  | .holdPrivate source =>
    if account.cursor.revision = source ∧ account.cursor.dispatchedRevision < source then { account with feedIntentDueAt := none }
    else account
  | .completeFlush captured completedAt submittedAt => account.completeFlush captured completedAt submittedAt
  | .holdUnknown captured uncertainAt =>
    { account with
      lastFeedFlushAt := some uncertainAt
      feedIntentDueAt := if captured.any account.outstanding then none else account.feedIntentDueAt }
  | .releaseSafe captured retryAt =>
    if account.outstanding captured then { account with feedIntentDueAt := some retryAt } else account
  | .claimBoundary captured profileReady =>
    if account.inactive || account.drifted || !profileReady then account
    else if account.cursor.dispatchedRevision < captured ∧ captured = account.cursor.revision then
      { account with feedIntentDueAt := none }
    else account
  | .repairDeadline none _ _ => account
  | .repairDeadline (some captured) deadline releaseProviderHold =>
    if releaseProviderHold then
      if account.cursor.revision < captured ∨ account.cursor.revision ≤ account.cursor.dispatchedRevision then account
      else { account with feedIntentDueAt := some deadline }
    else if account.cursor.revision ≠ captured ∨ captured ≤ account.cursor.dispatchedRevision then account
    else if account.feedIntentDueAt = none then account
    else { account with feedIntentDueAt := some deadline }
  | .nudge dueAt => account.nudge dueAt
  | .owner deleted isActive tenantActive => { account with deleted, isActive, tenantActive }
  | .createEndpoint =>
    if account.sourceIntentRevision = none then { account with sourceIntentRevision := some 0 } else account

end FeedAccount

namespace FeedStore

def account? (s : FeedStore) (pk : ℕ) : Option FeedAccount := s.accounts.find? fun account => decide (account.pk = pk)

def dispatch? (s : FeedStore) (pk : ℕ) : Option BackgroundJobDispatch := s.dispatches.find? fun row => decide (row.pk = pk)

def saveAccount (s : FeedStore) (account : FeedAccount) : FeedStore :=
  { s with accounts := put FeedAccount.pk account s.accounts }

def saveDispatch (s : FeedStore) (row : BackgroundJobDispatch) : FeedStore :=
  { s with dispatches := put BackgroundJobDispatch.pk row s.dispatches }

/-- `bump_feed_intents` of the accounts with these keys, all of them or none. -/
def bumpFeedIntents (ids : List ℕ) (observedAt : Instant) (s : FeedStore) : Except FeedIntentError (FeedStore × Unit) := do
  raiseIf (ids.all (fun pk => (s.account? pk).isSome) = false) .doesNotExist
  let locked := s.accounts.filter fun account => ids.contains account.pk
  raiseIf (locked.any FeedAccount.drifted = true) .revisionDrift
  raiseIf (locked.any FeedAccount.exhausted = true) .overflow
  .ok ({ s with
    accounts := s.accounts.map fun account => if ids.contains account.pk then account.bump observedAt else account }, ())

/-- `rearm_feed_intent`; `none` is a revision that is not the expected one any more. -/
def rearmFeedIntent (pk expected : ℕ) (dueAt : Option Instant) (s : FeedStore) :
    Except FeedIntentError (FeedStore × Option ℕ) := do
  let account ← orRaise .doesNotExist (s.account? pk)
  raiseIf (account.drifted = true) .revisionDrift
  if account.cursor.revision ≠ expected ∨ account.cursor.dispatchedRevision ≠ expected then .ok (s, none)
  else do
    raiseIf (account.exhausted = true) .overflow
    let armed := account.advance dueAt
    .ok (s.saveAccount armed, some armed.cursor.revision)

def nudgeUndispatched (pk : ℕ) (dueAt : Instant) (s : FeedStore) : Except FeedIntentError (FeedStore × Unit) := do
  let account ← orRaise .doesNotExist (s.account? pk)
  .ok (s.saveAccount (account.nudge dueAt), ())

/-! The scanner. -/

def due (account : FeedAccount) (now : Instant) : Bool :=
  account.isAvito && !account.inactive && account.feedIntentDueAt.any (fun dueAt => decide (dueAt ≤ now)) &&
    decide (account.cursor.dispatchedRevision < account.cursor.revision)

def earlier (a b : FeedAccount) : Bool :=
  let first := a.feedIntentDueAt.getD 0
  let second := b.feedIntentDueAt.getD 0
  decide (first < second) || (decide (first = second) && decide (a.pk ≤ b.pk))

def intentDispatch (account : FeedAccount) (now : Instant) (pk : ℕ) : BackgroundJobDispatch where
  pk
  taskName := .processMarketplaceFeedIntent
  args := [.int account.pk, .int account.cursor.revision]
  deduplicationKey := some (account.pk, account.cursor.revision)
  status := .pending
  availableAt := now
  createdAt := now
  result := none

def dispatchIntent (now : Instant) (s : FeedStore) (account : FeedAccount) : Except FeedIntentError FeedStore :=
  let sent := { account with cursor := account.cursor.reach account.cursor.revision, feedIntentDueAt := none }
  match s.dispatches.find? fun row => decide (row.deduplicationKey = some (account.pk, account.cursor.revision)) with
  | some row => if row.carries account then .ok (s.saveAccount sent) else .error .conflictingDispatch
  | none =>
    .ok { s.saveAccount sent with
      dispatches := s.dispatches ++ [intentDispatch account now s.nextDispatch]
      nextDispatch := s.nextDispatch + 1 }

/-- `dispatch_due_marketplace_feed_intents`; accounts whose rows are locked are skipped. -/
def dispatchDue (now : Instant) (limit : ℕ) (locked : List ℕ) (s : FeedStore) : Except FeedIntentError (FeedStore × Unit) := do
  let found := s.accounts.filter fun account => due account now && !locked.contains account.pk
  let selected := (found.insertionSort fun a b => earlier a b = true).take limit
  let next ← selected.foldlM (dispatchIntent now) s
  .ok (next, ())

end FeedStore

end MapBackend.Marketplaces.FeedIntent
