import MapBackend.Core.PublicUrl
import MapBackend.Library.Caches
import MapBackend.Library.Ceilings
import MapBackend.Library.CivilDate
import MapBackend.Library.Workers

/-!
The daily budgets of paid starts.
-/

namespace MapBackend.Core
open MapBackend.Library

structure BudgetCall where
  tenant : ℕ
  scope : Text
  cost : ℤ
  limit : ℤ
  deriving DecidableEq

structure BudgetCharge extends BudgetCall where
  date : CivilDate
  deriving DecidableEq

def BudgetCall.consumes (call : BudgetCall) : Bool := decide (0 < call.cost) && decide (0 < call.limit)

def BudgetCall.on (call : BudgetCall) (date : CivilDate) : BudgetCharge := { call with date }

/-! ## The coordination cache -/

namespace BudgetCharge

def price (charge : BudgetCharge) : ℤ := charge.cost

def ceiling (charge : BudgetCharge) : ℤ := charge.limit

def budget (charge : BudgetCharge) : ℕ × Text × CivilDate := (charge.tenant, charge.scope, charge.date)

def cacheKey (charge : BudgetCharge) : Text :=
  "expensive-budget:".toList ++ charge.scope ++ ":tenant:".toList ++ (toString charge.tenant).toList ++ ':' :: charge.date.textChars

end BudgetCharge

structure Admission extends BudgetCharge where
  pk : ℕ
  returned : Bool
  deriving DecidableEq

structure BudgetCache where
  counters : Dict Text ℤ
  admitted : List Admission

/-- What a call sees of a step of the cache: its answer, or an exception with the step done or not. -/
inductive CacheAnswer where
  | done | lost | failed
  deriving DecidableEq, Repr

structure BudgetInput where
  today : CivilDate
  answer : CacheAnswer

inductive BudgetWorker where
  | arriving (call : BudgetCall)
  | atAdd (charge : BudgetCharge)
  | atIncr (charge : BudgetCharge)
  | returning (pk : ℕ)
  | atDecr (charge : BudgetCharge)
  | ended

namespace BudgetCache

def incr (s : BudgetCache) (key : Text) (delta : ℤ) : BudgetCache :=
  match s.counters key with
  | none => s
  | some n => { s with counters := s.counters.set key (n + delta) }

def add (s : BudgetCache) (key : Text) : BudgetCache := { s with counters := s.counters.setdefault key 0 }

def accept (s : BudgetCache) (charge : BudgetCharge) : BudgetCache :=
  { s with admitted := { charge with pk := s.admitted.length, returned := false } :: s.admitted }

def finish (s : BudgetCache) (pk : ℕ) : BudgetCache :=
  { s with admitted := s.admitted.map fun admission => if admission.pk = pk then { admission with returned := true } else admission }

end BudgetCache

namespace BudgetWorker

def advance : BudgetWorker → BudgetInput → BudgetCache → BudgetCache × BudgetWorker
  | .arriving call, input, s => if call.consumes then (s, .atAdd (call.on input.today)) else (s, .ended)
  | .atAdd charge, input, s =>
    match input.answer with
    | .done => (s.add charge.cacheKey, .atIncr charge)
    | .lost => (s.add charge.cacheKey, .ended)
    | .failed => (s, .ended)
  | .atIncr charge, input, s =>
    match input.answer, s.counters charge.cacheKey with
    | .failed, _ => (s, .ended)
    | .lost, _ => (s.incr charge.cacheKey charge.cost, .ended)
    | .done, none => (s, .ended)
    | .done, some n =>
      let total := n + charge.cost
      let charged := s.incr charge.cacheKey charge.cost
      if charge.limit < total then (charged, .atDecr charge)
      else (charged.accept charge, .returning s.admitted.length)
  | .returning pk, _, s => (s.finish pk, .ended)
  | .atDecr charge, input, s =>
    match input.answer with
    | .done | .lost => (s.incr charge.cacheKey (-charge.cost), .ended)
    | .failed => (s, .ended)
  | .ended, _, s => (s, .ended)

end BudgetWorker

abbrev BudgetCrew := Crew BudgetCache BudgetWorker

abbrev BudgetAction := CrewAction BudgetCall BudgetInput Empty

def BudgetCrew.next (c : BudgetCrew) (a : BudgetAction) : BudgetCrew :=
  Crew.act (fun _ e => nomatch e) BudgetWorker.advance BudgetWorker.arriving c a

def BudgetCrew.start : BudgetCrew := { store := { counters := Dict.empty, admitted := [] }, workers := [] }

def BudgetCache.granted (s : BudgetCache) (budget : ℕ × Text × CivilDate) : List BudgetCharge :=
  (s.admitted.filter fun admission => decide (admission.budget = budget) && admission.returned).map Admission.toBudgetCharge

/-! ## The database -/

def BudgetCharge.usage (charge : BudgetCharge) : ℕ × Text × CivilDate := (charge.tenant, charge.scope.take 80, charge.date)

structure UsageDb where
  units : Dict (ℕ × Text × CivilDate) ℤ
  committed : List BudgetCharge

structure UsageWrite where
  usage : ℕ × Text × CivilDate
  units : ℤ
  charge : Option BudgetCharge

/-- The transaction of a caller before its next statement, with its writes, the last one first. -/
inductive BudgetTransaction where
  | idle (writes : List UsageWrite)
  | locked (writes : List UsageWrite) (call : BudgetCall)
  | created (writes : List UsageWrite) (charge : BudgetCharge)
  | counted (writes : List UsageWrite) (charge : BudgetCharge) (units : ℤ)
  | ended

namespace BudgetTransaction

def writes : BudgetTransaction → List UsageWrite
  | .idle writes | .locked writes _ | .created writes _ | .counted writes _ _ => writes
  | .ended => []

def calling : BudgetTransaction → Option ℕ
  | .locked _ call => some call.tenant
  | .created _ charge | .counted _ charge _ => some charge.tenant
  | .idle _ | .ended => none

def holds (transaction : BudgetTransaction) (tenant : ℕ) : Bool :=
  decide (transaction.calling = some tenant) || transaction.writes.any fun write => decide (write.usage.1 = tenant)

end BudgetTransaction

def UsageDb.view (db : UsageDb) (writes : List UsageWrite) (usage : ℕ × Text × CivilDate) : Option ℤ :=
  match writes.find? fun write => decide (write.usage = usage) with
  | some write => some write.units
  | none => db.units usage

def UsageDb.commit (db : UsageDb) (writes : List UsageWrite) : UsageDb where
  units := writes.foldr (fun write units => units.set write.usage write.units) db.units
  committed := writes.filterMap UsageWrite.charge ++ db.committed

structure UsageCrew where
  db : UsageDb
  transactions : List BudgetTransaction

/-- A step: a transaction begins, calls the budget, performs the next statement of its call, takes back its last writes to
a savepoint, commits, or is rolled back. -/
inductive UsageAction where
  | begin
  | consume (k : ℕ) (call : BudgetCall)
  | proceed (k : ℕ) (today : CivilDate)
  | rollbackTo (k : ℕ) (undone : ℕ)
  | commit (k : ℕ)
  | abort (k : ℕ)

namespace UsageCrew

def become (c : UsageCrew) (k : ℕ) (transaction : BudgetTransaction) : UsageCrew :=
  { c with transactions := c.transactions.set k transaction }

def proceed (db : UsageDb) (today : CivilDate) : BudgetTransaction → BudgetTransaction
  | .locked writes call =>
    let charge := call.on today
    match db.view writes charge.usage with
    | some _ => .created writes charge
    | none => .created ({ usage := charge.usage, units := 0, charge := none } :: writes) charge
  | .created writes charge =>
    match db.view writes charge.usage with
    | some units => .counted writes charge units
    | none => .ended
  | .counted writes charge units =>
    let newTotal := units + charge.cost
    if charge.limit < newTotal then .idle writes
    else .idle ({ usage := charge.usage, units := newTotal, charge := some charge } :: writes)
  | .idle writes => .idle writes
  | .ended => .ended

def next (c : UsageCrew) : UsageAction → UsageCrew
  | .begin => { c with transactions := c.transactions ++ [.idle []] }
  | .consume k call =>
    match c.transactions[k]? with
    | some (.idle writes) =>
      if call.consumes && !(c.transactions.set k .ended).any (fun other => other.holds call.tenant) then
        c.become k (.locked writes call)
      else c
    | _ => c
  | .proceed k today =>
    match c.transactions[k]? with
    | some transaction => c.become k (proceed c.db today transaction)
    | none => c
  | .rollbackTo k undone =>
    match c.transactions[k]? with
    | some transaction => c.become k (.idle (transaction.writes.drop undone))
    | none => c
  | .commit k =>
    match c.transactions[k]? with
    | some (.idle writes) => { c.become k .ended with db := c.db.commit writes }
    | _ => c
  | .abort k => c.become k .ended

def start : UsageCrew := { db := { units := Dict.empty, committed := [] }, transactions := [] }

end UsageCrew

end MapBackend.Core
