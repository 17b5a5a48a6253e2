import MapBackend.Library.Runs
import MapBackend.WebResearch.Accounting

/-!
Reservations between their statements.
-/

namespace MapBackend.WebResearch
open MapBackend.Library MapBackend.Core

/-- A call with the connection of its provider, as every caller looks it up. -/
structure PaidCall (settings : SearchSettings) extends SearchCall where
  own : ∀ pk ∈ connection, ∀ row ∈ settings.connection pk, row.providerId = providerId

inductive Reservation (settings : SearchSettings) where
  | arriving (call : PaidCall settings)
  | atGlobalGate (call : PaidCall settings) (workflow : WebSearchWorkflow)
  | atProviderGate (call : PaidCall settings) (workflow : WebSearchWorkflow)
  | atClock (call : PaidCall settings) (workflow : WebSearchWorkflow)
  | countingPlatform (call : PaidCall settings) (workflow : WebSearchWorkflow) (current : Instant) (remaining : List Quota)
  | countingOwn (call : PaidCall settings) (workflow : WebSearchWorkflow) (current : Instant) (remaining : List Quota)
  | created (call : PaidCall settings) (workflow : WebSearchWorkflow) (current createdAt : Instant)
  | ended

namespace Reservation

variable {settings : SearchSettings}

def holdsGlobalGate : Reservation settings → Bool
  | .atProviderGate .. | .atClock .. | .countingPlatform .. | .countingOwn .. | .created .. => true
  | .arriving .. | .atGlobalGate .. | .ended => false

def holdsProviderGate (env : AccountingEnv) (gate : Text) : Reservation settings → Bool
  | .atClock call _ | .countingPlatform call _ _ _ | .countingOwn call _ _ _ | .created call _ _ _ =>
    decide (call.normalizedProvider env = gate)
  | .arriving .. | .atGlobalGate .. | .atProviderGate .. | .ended => false

end Reservation

structure QuotaCrew (settings : SearchSettings) where
  store : WebSearchStore
  clock : Instant
  workers : List (Reservation settings)

inductive QuotaAction (settings : SearchSettings) where
  | start (call : PaidCall settings)
  | move (k : ℕ) (isActive : Bool)
  | abort (k : ℕ)
  | tick (passed : ℕ)
  | operation (env : AccountingEnv) (operation : WorkflowOperation)

namespace QuotaCrew

variable {settings : SearchSettings} (env : AccountingEnv)

def become (c : QuotaCrew settings) (k : ℕ) (worker : Reservation settings) : QuotaCrew settings :=
  { c with workers := c.workers.set k worker }

/-- The gate of a provider can be locked. The provider whose identifier is `global` shares the row of the global gate, which
its own transaction has locked already. -/
def providerGateFree (c : QuotaCrew settings) (gate : Text) : Bool :=
  !c.workers.any fun worker => worker.holdsProviderGate env gate

def advance (c : QuotaCrew settings) (k : ℕ) (isActive : Bool) : Reservation settings → QuotaCrew settings
  | .arriving call =>
    match admitCall env call.toSearchCall c.store with
    | .error _ => c.become k .ended
    | .ok (store, .existing _) => { c.become k .ended with store }
    | .ok (_, .fresh workflow) => c.become k (.atGlobalGate call workflow)
  | .atGlobalGate call workflow =>
    if c.workers.any Reservation.holdsGlobalGate then c else c.become k (.atProviderGate call workflow)
  | .atProviderGate call workflow =>
    if c.providerGateFree env (call.normalizedProvider env) then c.become k (.atClock call workflow) else c
  | .atClock call workflow =>
    c.become k (.countingPlatform call workflow c.clock (settings.platformQuotas (call.normalizedProvider env) c.clock))
  | .countingPlatform call workflow current (quota :: rest) =>
    if quota.Exhausted c.store.attempts then c.become k .ended else c.become k (.countingPlatform call workflow current rest)
  | .countingPlatform call workflow current [] =>
    match lockedConnection settings call.toSearchCall isActive with
    | .error _ => c.become k .ended
    | .ok () =>
      c.become k (.countingOwn call workflow current (settings.ownQuotas (call.normalizedProvider env) call.connection current))
  | .countingOwn call workflow current (quota :: rest) =>
    if quota.Exhausted c.store.attempts then c.become k .ended else c.become k (.countingOwn call workflow current rest)
  | .countingOwn call workflow current [] => c.become k (.created call workflow current c.clock)
  | .created call workflow _ createdAt =>
    { c.become k .ended with store := c.store.create (call.newAttempt env workflow c.store.nextAttempt createdAt) }
  | .ended => c

/-- A step of the database. An abort, by an exception or a lost connection, rolls the transaction back. -/
def next (c : QuotaCrew settings) : QuotaAction settings → QuotaCrew settings
  | .start call => { c with workers := c.workers ++ [.arriving call] }
  | .move k isActive =>
    match c.workers[k]? with
    | none => c
    | some worker => c.advance env k isActive worker
  | .abort k => c.become k .ended
  | .tick passed => { c with clock := c.clock + passed }
  | .operation own operation => { c with store := c.store.operate { own with now := c.clock } operation }

def start (settings : SearchSettings) (clock : Instant) : QuotaCrew settings := { store := .start, clock, workers := [] }

end QuotaCrew

/-! ## Limits -/

inductive QuotaScope where
  | platform
  | provider (id : Text)
  | connection (pk : ℕ)

def QuotaScope.has (row : WebSearchAttempt) : QuotaScope → Bool
  | .platform => true
  | .provider id => decide (row.providerId = id)
  | .connection pk => decide (row.connection = some pk)

inductive QuotaWindow where
  | minute (last : Instant)
  | month (index : ℕ)

def QuotaWindow.has (calendar : Calendar) (createdAt : Instant) : QuotaWindow → Bool
  | .minute last => decide (last - 60 * second ≤ createdAt) && decide (createdAt ≤ last)
  | .month index => decide (calendar.month createdAt = index)

def SearchSettings.limit (settings : SearchSettings) : QuotaScope → QuotaWindow → ℕ
  | .platform, .minute _ => settings.globalRequestsPerMinute
  | .platform, .month _ => settings.globalMonthlyRequestLimit
  | .provider _, .minute _ => 0
  | .provider id, .month _ => settings.providerMonthlyLimit id
  | .connection pk, .minute _ => ((settings.connection pk).map WebSearchConnection.requestsPerMinute).getD 0
  | .connection pk, .month _ => ((settings.connection pk).bind WebSearchConnection.monthlyRequestLimit).getD 0

def usage (calendar : Calendar) (attempts : List WebSearchAttempt) (scope : QuotaScope) (window : QuotaWindow) : ℕ :=
  attempts.countP fun row => row.counted && scope.has row && window.has calendar row.createdAt

end MapBackend.WebResearch
