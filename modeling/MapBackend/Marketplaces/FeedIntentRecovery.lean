import MapBackend.Marketplaces.FeedIntents

/-!
`recover_terminal_feed_intent_dispatches`.
-/

namespace MapBackend.Marketplaces.FeedIntent
open MapBackend.Library

namespace FeedStore

/-- `recovery_time` and the batch of a pass: at least one dispatch, at most 100, 100 when the limit is no number. -/
def batchLimit : Option ℤ → ℕ
  | none => 100
  | some limit => (max 1 (min limit 100)).toNat

def candidates (s : FeedStore) (limit : Option ℤ) (recoveryTime : Instant) : List ℕ :=
  let found := s.dispatches.filter fun row => row.needsRecovery && decide (row.availableAt ≤ recoveryTime)
  ((found.insertionSort fun a b => a.before b = true).take (batchLimit limit)).map BackgroundJobDispatch.pk

def followUp (recoveryTime : Instant) (account : FeedAccount) (source : ℕ) (s : FeedStore) :
    Except FeedIntentError (FeedStore × Followup × ℕ) := do
  let current := account.cursor.revision
  let dispatched := account.cursor.dispatchedRevision
  if current = dispatched ∧ dispatched = source then
    let (armed, desired) ← rearmFeedIntent account.pk source (some recoveryTime) s
    let desired ← orRaise .revisionDrift desired
    .ok (armed, .successor, desired)
  else if dispatched < current ∧ dispatched = source then
    let (nudged, _) ← nudgeUndispatched account.pk recoveryTime s
    .ok (nudged, .nudge, current)
  else .error .revisionDrift

def recoverLocked (recoveryTime : Instant) (account : FeedAccount) (source : ℕ) (row : BackgroundJobDispatch) (s : FeedStore) :
    FeedStore :=
  let soon := recoveryTime + 5 * minute
  if account.inactive || account.drifted then s.saveDispatch (row.postpone soon)
  else if source < account.cursor.dispatchedRevision then
    s.saveDispatch (row.finish .feedIntentSuperseded (some source) (some account.cursor.revision))
  else if account.cursor.dispatchedRevision < source ∨ account.cursor.revision < account.cursor.dispatchedRevision then
    s.saveDispatch (row.postpone soon)
  else if row.resultStatus = some .notActivated then s.saveDispatch (row.postpone (recoveryTime + hour))
  else match followUp recoveryTime account source s with
    | .ok (next, followup, desired) =>
      { next.saveDispatch (row.finish .feedIntentRecovered (some source) (some desired)) with
        recoveries := { dispatch := row.pk, account := account.pk, source, desired, followup } :: s.recoveries }
    | .error .doesNotExist => s
    | .error _ => s.saveDispatch (row.postpone soon)

def recover (recoveryTime : Instant) (dispatch account source : ℕ) (s : FeedStore) : FeedStore :=
  match s.account? account, s.dispatch? dispatch with
  | none, some row =>
    if row.needsRecovery then s.saveDispatch (row.finish .feedIntentOwnerMissing (some source) none) else s
  | some owner, some row =>
    if row.needsRecovery ∧ row.arg 0 = some account ∧ row.arg 1 = some source then
      recoverLocked recoveryTime owner source row s
    else s
  | _, none => s

def closeInvalid (dispatch : ℕ) (s : FeedStore) : FeedStore :=
  match s.dispatch? dispatch with
  | none => s
  | some row => if row.needsRecovery then s.saveDispatch (row.finish .feedIntentRecoveryInvalid none none) else s

end FeedStore

inductive RecoveryPass where
  | select (limit : Option ℤ)
  | scan (recoveryTime : Instant) (candidates : List ℕ)
  | close (recoveryTime : Instant) (dispatch : ℕ) (rest : List ℕ)
  | recover (recoveryTime : Instant) (dispatch account source : ℕ) (rest : List ℕ)

namespace RecoveryPass

def ofSnapshot (recoveryTime : Instant) (rest : List ℕ) (row : BackgroundJobDispatch) : RecoveryPass :=
  if row.needsRecovery then
    match row.arg 0, row.arg 1 with
    | some account, some source => .recover recoveryTime row.pk account source rest
    | _, _ => .close recoveryTime row.pk rest
  else .scan recoveryTime rest

def advance : RecoveryPass → Instant → FeedStore → FeedStore × RecoveryPass
  | .select limit, now, s => (s, .scan now (s.candidates limit now))
  | .scan recoveryTime [], _, s => (s, .scan recoveryTime [])
  | .scan recoveryTime (dispatch :: rest), _, s =>
    match s.dispatch? dispatch with
    | none => (s, .scan recoveryTime rest)
    | some row => (s, ofSnapshot recoveryTime rest row)
  | .close recoveryTime dispatch rest, _, s => (s.closeInvalid dispatch, .scan recoveryTime rest)
  | .recover recoveryTime dispatch account source rest, _, s =>
    (s.recover recoveryTime dispatch account source, .scan recoveryTime rest)

end RecoveryPass

inductive FeedEvent where
  | bump (ids : List ℕ) (observedAt : Instant)
  | account (pk : ℕ) (write : AccountWrite)
  | dispatchDue (now : Instant) (limit : ℕ) (locked : List ℕ)
  | deliver (pk : ℕ) (write : DispatchWrite)
  | purgeDispatch (pk : ℕ)
  | createAccount (isActive tenantActive isAvito : Bool)
  | purgeAccount (pk : ℕ)

def FeedCursor.start : FeedCursor where
  revision := 0
  dispatchedRevision := 0
  dispatched_le := Nat.le_refl 0
  revision_le := Nat.zero_le _

def newAccount (pk : ℕ) (isActive tenantActive isAvito : Bool) : FeedAccount where
  pk
  deleted := false
  isActive
  tenantActive
  isAvito
  lastFeedFlushAt := none
  cursor := .start
  feedIntentDueAt := none
  sourceIntentRevision := none

namespace FeedStore

def next (s : FeedStore) : FeedEvent → FeedStore
  | .bump ids observedAt => commit s (s.bumpFeedIntents ids observedAt)
  | .account pk write =>
    match s.account? pk with
    | none => s
    | some account => s.saveAccount (account.write write)
  | .dispatchDue now limit locked => commit s (s.dispatchDue now limit locked)
  | .deliver pk write =>
    match s.dispatch? pk with
    | none => s
    | some row => if row.status.terminal then s else s.saveDispatch (write.apply row)
  | .purgeDispatch pk => { s with dispatches := s.dispatches.filter fun row => !(row.status.terminal && decide (row.pk = pk)) }
  | .createAccount isActive tenantActive isAvito =>
    { s with
      accounts := s.accounts ++ [newAccount s.nextAccount isActive tenantActive isAvito]
      nextAccount := s.nextAccount + 1 }
  | .purgeAccount pk => { s with accounts := s.accounts.filter fun account => !decide (account.pk = pk) }

end FeedStore

abbrev FeedCrew := Crew FeedStore RecoveryPass

abbrev FeedAction := CrewAction (Option ℤ) Instant FeedEvent

def FeedCrew.next (c : FeedCrew) (a : FeedAction) : FeedCrew :=
  Crew.act FeedStore.next RecoveryPass.advance RecoveryPass.select c a

structure FeedTables where
  accounts : List FeedAccount
  dispatches : List BackgroundJobDispatch
  account_keys : (accounts.map FeedAccount.pk).Nodup
  dispatch_keys : (dispatches.map BackgroundJobDispatch.pk).Nodup

def above (keys : List ℕ) : ℕ := keys.foldr (fun key bound => max (key + 1) bound) 0

def FeedTables.crew (tables : FeedTables) : FeedCrew where
  store :=
    { accounts := tables.accounts
      dispatches := tables.dispatches
      nextAccount := above (tables.accounts.map FeedAccount.pk)
      nextDispatch := above (tables.dispatches.map BackgroundJobDispatch.pk)
      recoveries := [] }
  workers := []

end MapBackend.Marketplaces.FeedIntent
