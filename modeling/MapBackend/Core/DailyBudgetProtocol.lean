import MapBackend.Core.DailyBudget

/-!
The daily budgets are ceilings in every interleaving.
-/

namespace MapBackend.Core
open MapBackend.Library

/-! ## The cache -/

namespace BudgetCache

def counter (s : BudgetCache) (key : Text) : ℤ := (s.counters key).getD 0

def charges (s : BudgetCache) : List BudgetCharge := s.admitted.map Admission.toBudgetCharge

def spentOn (s : BudgetCache) (key : Text) : ℤ := spent BudgetCharge.price (charged BudgetCharge.cacheKey key s.charges)

variable (s : BudgetCache) (key : Text)

theorem counter_add (other : Text) : (s.add other).counter key = s.counter key := by
  unfold add counter Dict.setdefault
  split
  · rfl
  next absent =>
    by_cases same : key = other
    · subst same
      have missing : s.counters key = none := by simpa using absent
      simp [missing]
    · simp [Dict.set_other _ _ same]

theorem counter_incr {n : ℤ} {other : Text} (found : s.counters other = some n) (delta : ℤ) :
    (s.incr other delta).counter key = s.counter key + if key = other then delta else 0 := by
  unfold incr counter
  rw [found]
  by_cases same : key = other
  · subst same
    simp [found]
  · simp [Dict.set_other _ _ same, same]

theorem incr_missing {other : Text} (absent : s.counters other = none) (delta : ℤ) : s.incr other delta = s := by
  unfold incr
  rw [absent]

@[simp] theorem charges_incr (other : Text) (delta : ℤ) : (s.incr other delta).charges = s.charges := by
  unfold incr
  split <;> rfl

@[simp] theorem charges_add (other : Text) : (s.add other).charges = s.charges := rfl

@[simp] theorem charges_accept (charge : BudgetCharge) : (s.accept charge).charges = charge :: s.charges := rfl

@[simp] theorem charges_finish (pk : ℕ) : (s.finish pk).charges = s.charges := by
  unfold finish charges
  rw [List.map_map]
  refine List.map_congr_left fun admission _ => ?_
  by_cases own : admission.pk = pk <;> simp [own]

theorem spentOn_accept (charge : BudgetCharge) :
    (s.accept charge).spentOn key = s.spentOn key + if key = charge.cacheKey then charge.cost else 0 := by
  unfold spentOn
  rw [charges_accept]
  by_cases same : key = charge.cacheKey
  · rw [charged_cons_same same.symm, spent_cons, if_pos same]
    exact Int.add_comm _ _
  · rw [charged_cons_other (Ne.symm same), if_neg same, Int.add_zero]

end BudgetCache

def BudgetWorker.owed (key : Text) : BudgetWorker → ℕ
  | .atDecr charge => if key = charge.cacheKey then charge.cost.toNat else 0
  | .arriving _ | .atAdd _ | .atIncr _ | .returning _ | .ended => 0

def BudgetWorker.Positive : BudgetWorker → Prop
  | .atAdd charge | .atIncr charge | .atDecr charge => 0 < charge.cost
  | .arriving _ | .returning _ | .ended => True

inductive BudgetMove (s : BudgetCache) : BudgetWorker → BudgetCache → BudgetWorker → Prop where
  | quiet {w w' : BudgetWorker} (owed : ∀ key, w'.owed key = 0) (positive : w.Positive → w'.Positive) : BudgetMove s w s w'
  | added {charge : BudgetCharge} {w' : BudgetWorker} (owed : ∀ key, w'.owed key = 0)
      (positive : 0 < charge.cost → w'.Positive) : BudgetMove s (.atAdd charge) (s.add charge.cacheKey) w'
  | lost {charge : BudgetCharge} : BudgetMove s (.atIncr charge) (s.incr charge.cacheKey charge.cost) .ended
  | rejected {charge : BudgetCharge} (found : (s.counters charge.cacheKey).isSome) :
      BudgetMove s (.atIncr charge) (s.incr charge.cacheKey charge.cost) (.atDecr charge)
  | admitted {charge : BudgetCharge} {pk : ℕ} (found : (s.counters charge.cacheKey).isSome)
      (fits : s.counter charge.cacheKey + charge.cost ≤ charge.limit) :
      BudgetMove s (.atIncr charge) ((s.incr charge.cacheKey charge.cost).accept charge) (.returning pk)
  | returned {pk : ℕ} : BudgetMove s (.returning pk) (s.finish pk) .ended
  | undone {charge : BudgetCharge} : BudgetMove s (.atDecr charge) (s.incr charge.cacheKey (-charge.cost)) .ended

namespace BudgetMove

variable {s later : BudgetCache} {w w' : BudgetWorker}

theorem of_advance (w : BudgetWorker) (input : BudgetInput) (s : BudgetCache) :
    BudgetMove s w (w.advance input s).1 (w.advance input s).2 := by
  cases w with
  | arriving =>
    simp only [BudgetWorker.advance]
    split
    next consumes =>
      refine .quiet (fun _ => rfl) fun _ => ?_
      simp only [BudgetCall.consumes, Bool.and_eq_true, decide_eq_true_eq] at consumes
      exact consumes.1
    next => exact .quiet (fun _ => rfl) fun _ => trivial
  | atAdd =>
    simp only [BudgetWorker.advance]
    cases input.answer with
    | done => exact .added (fun _ => rfl) id
    | lost => exact .added (fun _ => rfl) fun _ => trivial
    | failed => exact .quiet (fun _ => rfl) fun _ => trivial
  | atIncr charge =>
    simp only [BudgetWorker.advance]
    cases input.answer with
    | failed => exact .quiet (fun _ => rfl) fun _ => trivial
    | lost => exact .lost
    | done =>
      cases found : s.counters charge.cacheKey with
      | none => exact .quiet (fun _ => rfl) fun _ => trivial
      | some =>
        dsimp only
        split
        next => exact .rejected (by simp [found])
        next fits =>
          refine .admitted (by simp [found]) ?_
          simp only [BudgetCache.counter, found, Option.getD_some]
          omega
  | returning => exact .returned
  | atDecr =>
    simp only [BudgetWorker.advance]
    cases input.answer with
    | done => exact .undone
    | lost => exact .undone
    | failed => exact .quiet (fun _ => rfl) fun _ => trivial
  | ended => exact .quiet (fun _ => rfl) fun _ => trivial

theorem positive (move : BudgetMove s w later w') (before : w.Positive) : w'.Positive := by
  cases move with
  | quiet _ positive => exact positive before
  | added _ positive => exact positive before
  | lost => trivial
  | rejected => exact before
  | admitted => trivial
  | returned => trivial
  | undone => trivial

theorem reserve_incr (s : BudgetCache) (key other : Text) (delta : ℤ) (found : (s.counters other).isSome) :
    (s.incr other delta).counter key - (s.incr other delta).spentOn key =
      s.counter key - s.spentOn key + if key = other then delta else 0 := by
  obtain ⟨n, there⟩ := Option.isSome_iff_exists.mp found
  have spends : (s.incr other delta).spentOn key = s.spentOn key := by simp [BudgetCache.spentOn]
  rw [s.counter_incr key there, spends]
  omega

theorem reserve_step (s : BudgetCache) (key other : Text) (delta : ℤ) :
    (s.incr other delta).counter key - (s.incr other delta).spentOn key = s.counter key - s.spentOn key ∨
      (s.incr other delta).counter key - (s.incr other delta).spentOn key =
        s.counter key - s.spentOn key + if key = other then delta else 0 := by
  cases found : (s.counters other).isSome with
  | true => exact .inr (reserve_incr s key other delta found)
  | false =>
    rw [s.incr_missing (by simpa using found)]
    exact .inl rfl

theorem owed (move : BudgetMove s w later w') (positive : w.Positive) (key : Text) :
    (w'.owed key : ℤ) + (s.counter key - s.spentOn key) ≤ w.owed key + (later.counter key - later.spentOn key) := by
  cases move with
  | quiet owed =>
    rw [owed key]
    omega
  | @added charge _ owed =>
    have spends : (s.add charge.cacheKey).spentOn key = s.spentOn key := by simp [BudgetCache.spentOn]
    rw [owed key, s.counter_add, spends]
    omega
  | @lost charge =>
    have costs : 0 < charge.cost := positive
    have step := reserve_step s key charge.cacheKey charge.cost
    by_cases own : key = charge.cacheKey <;> simp only [BudgetWorker.owed, own, if_true, if_false] at step ⊢ <;> omega
  | @rejected charge found =>
    have costs : 0 < charge.cost := positive
    have step := reserve_incr s key charge.cacheKey charge.cost found
    by_cases own : key = charge.cacheKey <;> simp only [BudgetWorker.owed, own, if_true, if_false] at step ⊢ <;> omega
  | @admitted charge pk found =>
    have step := reserve_incr s key charge.cacheKey charge.cost found
    have spends := (s.incr charge.cacheKey charge.cost).spentOn_accept key charge
    have counts : ((s.incr charge.cacheKey charge.cost).accept charge).counter key =
      (s.incr charge.cacheKey charge.cost).counter key := rfl
    rw [counts, spends]
    by_cases own : key = charge.cacheKey <;> simp only [BudgetWorker.owed, own, if_true, if_false] at step ⊢ <;> omega
  | @returned pk =>
    have spends : (s.finish pk).spentOn key = s.spentOn key := by simp [BudgetCache.spentOn]
    have counts : (s.finish pk).counter key = s.counter key := rfl
    simp only [BudgetWorker.owed]
    omega
  | @undone charge =>
    have costs : 0 < charge.cost := positive
    have step := reserve_step s key charge.cacheKey (-charge.cost)
    by_cases own : key = charge.cacheKey <;> simp only [BudgetWorker.owed, own, if_true, if_false] at step ⊢ <;> omega

theorem covered (move : BudgetMove s w later w') (positive : w.Positive)
    (reserve : ∀ key, 0 ≤ s.counter key - s.spentOn key)
    (covered : Covered BudgetCharge.price BudgetCharge.ceiling BudgetCharge.cacheKey s.charges) :
    Covered BudgetCharge.price BudgetCharge.ceiling BudgetCharge.cacheKey later.charges := by
  cases move with
  | quiet => exact covered
  | added => exact covered
  | lost => simpa using covered
  | rejected => simpa using covered
  | @admitted charge pk found fits =>
    have costs : 0 < charge.cost := positive
    have spends := reserve charge.cacheKey
    rw [BudgetCache.charges_accept, BudgetCache.charges_incr]
    refine ⟨Int.le_of_lt costs, ?_, covered⟩
    unfold BudgetCache.spentOn at spends
    change charge.cost + _ ≤ charge.limit
    omega
  | returned => simpa using covered
  | undone => simpa using covered

end BudgetMove

namespace BudgetCrew

/-- The counter of each key covers its admitted charges and what is owed, and every admitted charge was covered. -/
structure Sound (c : BudgetCrew) : Prop where
  owed : ∀ key, (c.load (BudgetWorker.owed key) : ℤ) ≤ c.store.counter key - c.store.spentOn key
  kept : c.Keeps (fun s => Covered BudgetCharge.price BudgetCharge.ceiling BudgetCharge.cacheKey s.charges)
    fun _ w => w.Positive

variable {c : BudgetCrew}

theorem Sound.next (sound : c.Sound) (a : BudgetAction) : (c.next a).Sound where
  owed key := by
    refine @Crew.act_reserve _ _ _ _ _ BudgetWorker.advance _ BudgetWorker.arriving (fun s => s.counter key - s.spentOn key)
      (BudgetWorker.owed key) c a (sound.owed key) (fun _ => rfl) (fun e => nomatch e) fun k input w found => ?_
    exact (BudgetMove.of_advance w input c.store).owed (sound.kept.workers w (List.mem_of_getElem? found)) key
  kept := by
    refine sound.kept.act a (c.allowed_always a) (fun _ => trivial) (fun e => nomatch e) fun k input w found positive _ => ?_
    have move := BudgetMove.of_advance w input c.store
    refine ⟨move.covered positive (fun key => ?_) sound.kept.store, move.positive positive, fun _ _ _ _ => id⟩
    exact (Int.natCast_nonneg _).trans (sound.owed key)

theorem sound_start : start.Sound where
  owed _ := by
    change (0 : ℤ) ≤ 0
    omega
  kept := ⟨trivial, fun w mem => absurd mem List.not_mem_nil⟩

theorem run_sound (actions : List BudgetAction) : (run BudgetCrew.next start actions).Sound :=
  @run_always _ _ BudgetCrew.next Sound (fun _ a sound => sound.next a) _ sound_start actions

end BudgetCrew

theorem cacheKey_of_budget {a b : BudgetCharge} (same : a.budget = b.budget) : a.cacheKey = b.cacheKey := by
  have key (charge : BudgetCharge) : charge.cacheKey =
      (fun budget : ℕ × Text × CivilDate => "expensive-budget:".toList ++ budget.2.1 ++ ":tenant:".toList ++
        (toString budget.1).toList ++ ':' :: budget.2.2.textChars) charge.budget := rfl
  rw [key a, key b, same]

theorem BudgetCrew.Sound.granted {c : BudgetCrew} (sound : c.Sound) (budget : ℕ × Text × CivilDate) :
    spent BudgetCharge.price (c.store.granted budget) ≤ highest BudgetCharge.ceiling (c.store.granted budget) := by
  have sub : (c.store.granted budget).Sublist c.store.charges := List.filter_sublist.map _
  have own : ∀ charge ∈ c.store.granted budget, charge.budget = budget := by
    intro charge mem
    obtain ⟨_, held, rfl⟩ := List.mem_map.mp mem
    have chosen := (List.mem_filter.mp held).2
    simp only [Bool.and_eq_true, decide_eq_true_eq] at chosen
    exact chosen.1
  cases granted : c.store.granted budget with
  | nil => exact Int.le_refl _
  | cons first rest =>
    rw [granted] at sub own
    have same (charge : BudgetCharge) (mem : charge ∈ first :: rest) : charge.cacheKey = first.cacheKey :=
      cacheKey_of_budget ((own charge mem).trans (own first List.mem_cons_self).symm)
    exact sound.kept.store.spent_le sub same

/-! ## The database -/

abbrev UsageKey := ℕ × Text × CivilDate

def UsageDb.base (db : UsageDb) (usage : UsageKey) : ℤ := (db.units usage).getD 0

def spentIn (usage : UsageKey) (charges : List BudgetCharge) : ℤ := spent BudgetCharge.price (charged BudgetCharge.usage usage charges)

def chargesOf (writes : List UsageWrite) : List BudgetCharge := writes.filterMap UsageWrite.charge

theorem spentIn_append (usage : UsageKey) (first second : List BudgetCharge) :
    spentIn usage (first ++ second) = spentIn usage first + spentIn usage second := by
  simp only [spentIn, charged_append, spent_append]

theorem spentIn_same {charge : BudgetCharge} {usage : UsageKey} (own : charge.usage = usage) (rest : List BudgetCharge) :
    spentIn usage (charge :: rest) = charge.cost + spentIn usage rest := by
  unfold spentIn
  rw [charged_cons_same own, spent_cons]
  rfl

theorem spentIn_other {charge : BudgetCharge} {usage : UsageKey} (other : charge.usage ≠ usage) (rest : List BudgetCharge) :
    spentIn usage (charge :: rest) = spentIn usage rest := by
  unfold spentIn
  rw [charged_cons_other other]

/-- The writes of a transaction over the rows that it found: each has what the row had and what the transaction has charged
on it since, within the limit of its charge. -/
def Kept (base : UsageKey → ℤ) : List UsageWrite → Prop
  | [] => True
  | write :: rest =>
    write.units = base write.usage + spentIn write.usage (chargesOf (write :: rest)) ∧
      (∀ charge ∈ write.charge, charge.usage = write.usage ∧ 0 < charge.cost ∧ write.units ≤ charge.limit) ∧ Kept base rest

section Writes

variable {base later : UsageKey → ℤ} {db : UsageDb} {writes : List UsageWrite}

theorem chargesOf_cons (write : UsageWrite) (rest : List UsageWrite) :
    chargesOf (write :: rest) = write.charge.toList ++ chargesOf rest := by
  unfold chargesOf
  cases charge : write.charge <;> simp [charge]

theorem Kept.spent_other {write : UsageWrite} {rest : List UsageWrite} (kept : Kept base (write :: rest)) {usage : UsageKey}
    (other : write.usage ≠ usage) : spentIn usage (chargesOf (write :: rest)) = spentIn usage (chargesOf rest) := by
  rw [chargesOf_cons]
  cases charge : write.charge with
  | none => rfl
  | some made =>
    obtain ⟨own, -⟩ := kept.2.1 made charge
    exact spentIn_other (own ▸ other) _

theorem Kept.spent_none (kept : Kept base writes) {usage : UsageKey} (others : ∀ write ∈ writes, write.usage ≠ usage) :
    spentIn usage (chargesOf writes) = 0 := by
  induction writes with
  | nil => rfl
  | cons write _ ih =>
    rw [kept.spent_other (others write List.mem_cons_self)]
    exact ih kept.2.2 fun other mem => others other (List.mem_cons_of_mem _ mem)

theorem Kept.drop (kept : Kept base writes) (undone : ℕ) : Kept base (writes.drop undone) := by
  induction writes generalizing undone with
  | nil => simpa using kept
  | cons _ _ ih =>
    cases undone with
    | zero => exact kept
    | succ undone => exact ih kept.2.2 undone

theorem Kept.congr (kept : Kept base writes) (same : ∀ write ∈ writes, later write.usage = base write.usage) : Kept later writes := by
  induction writes with
  | nil => trivial
  | cons write _ ih =>
    obtain ⟨units, charges, earlier⟩ := kept
    refine ⟨?_, charges, ih earlier fun other mem => same other (List.mem_cons_of_mem _ mem)⟩
    rw [same write List.mem_cons_self]
    exact units

theorem view_cons (write : UsageWrite) (rest : List UsageWrite) (usage : UsageKey) :
    db.view (write :: rest) usage = if write.usage = usage then some write.units else db.view rest usage := by
  unfold UsageDb.view
  by_cases own : write.usage = usage <;> simp [own]

theorem Kept.view (kept : Kept db.base writes) (usage : UsageKey) :
    (db.view writes usage).getD 0 = db.base usage + spentIn usage (chargesOf writes) := by
  induction writes with
  | nil =>
    change (db.units usage).getD 0 = _ + 0
    rw [Int.add_zero]
    rfl
  | cons write _ ih =>
    rw [view_cons]
    by_cases own : write.usage = usage
    · rw [if_pos own, Option.getD_some, kept.1, own]
    · rw [if_neg own, ih kept.2.2, kept.spent_other own]

theorem commit_units (usage : UsageKey) : (db.commit writes).units usage = db.view writes usage := by
  induction writes with
  | nil => rfl
  | cons write _ ih =>
    rw [view_cons, ← ih]
    change Dict.set _ write.usage write.units usage = _
    by_cases own : write.usage = usage
    · subst own
      simp
    · rw [if_neg own, Dict.set_other _ _ (Ne.symm own)]
      rfl

theorem Kept.covered (kept : Kept db.base writes) (stored : ∀ usage, db.base usage = spentIn usage db.committed)
    (covered : Covered BudgetCharge.price BudgetCharge.ceiling BudgetCharge.usage db.committed) :
    Covered BudgetCharge.price BudgetCharge.ceiling BudgetCharge.usage (chargesOf writes ++ db.committed) := by
  induction writes with
  | nil => exact covered
  | cons write rest ih =>
    obtain ⟨units, charges, earlier⟩ := kept
    rw [chargesOf_cons] at units ⊢
    cases made : write.charge with
    | none => exact ih earlier
    | some charge =>
      obtain ⟨own, costs, _⟩ := charges charge made
      refine ⟨Int.le_of_lt costs, ?_, ih earlier⟩
      change charge.cost + spentIn charge.usage (chargesOf rest ++ db.committed) ≤ charge.limit
      rw [spentIn_append, own, ← stored write.usage]
      have sum : write.units = db.base write.usage + (charge.cost + spentIn write.usage (chargesOf rest)) := by
        rw [units, made]
        exact congrArg _ (spentIn_same own _)
      omega

end Writes

namespace BudgetTransaction

def Fine (db : UsageDb) : BudgetTransaction → Prop
  | .idle writes => Kept db.base writes
  | .locked writes call => Kept db.base writes ∧ 0 < call.cost
  | .created writes charge => Kept db.base writes ∧ 0 < charge.cost
  | .counted writes charge units => Kept db.base writes ∧ 0 < charge.cost ∧
      units = db.base charge.usage + spentIn charge.usage (chargesOf writes)
  | .ended => True

variable {db later : UsageDb} {transaction : BudgetTransaction}

theorem holds_iff {tenant : ℕ} : transaction.holds tenant = true ↔
    transaction.calling = some tenant ∨ ∃ write ∈ transaction.writes, write.usage.1 = tenant := by
  simp [holds]

theorem Fine.kept (fine : transaction.Fine db) : Kept db.base transaction.writes := by
  cases transaction with
  | idle => exact fine
  | locked => exact fine.1
  | created => exact fine.1
  | counted => exact fine.1
  | ended => trivial

theorem Fine.congr (fine : transaction.Fine db)
    (same : ∀ usage : UsageKey, transaction.holds usage.1 = true → later.base usage = db.base usage) : transaction.Fine later := by
  have kept : Kept later.base transaction.writes :=
    fine.kept.congr fun write mem => same write.usage (holds_iff.mpr (.inr ⟨write, mem, rfl⟩))
  cases transaction with
  | idle => exact kept
  | locked => exact ⟨kept, fine.2⟩
  | created => exact ⟨kept, fine.2⟩
  | counted _ charge =>
    refine ⟨kept, fine.2.1, ?_⟩
    rw [same charge.usage (holds_iff.mpr (.inl rfl))]
    exact fine.2.2
  | ended => trivial

theorem Fine.created {writes : List UsageWrite} {charge : BudgetCharge} (kept : Kept db.base writes) (costs : 0 < charge.cost)
    (absent : db.view writes charge.usage = none) :
    (BudgetTransaction.created ({ usage := charge.usage, units := 0, charge := none } :: writes) charge).Fine db := by
  have seen := kept.view charge.usage
  rw [absent, Option.getD_none] at seen
  exact ⟨⟨seen, by simp, kept⟩, costs⟩

theorem Fine.charged {writes : List UsageWrite} {charge : BudgetCharge} {units : ℤ}
    (fine : (BudgetTransaction.counted writes charge units).Fine db) (fits : units + charge.cost ≤ charge.limit) :
    (BudgetTransaction.idle ({ usage := charge.usage, units := units + charge.cost, charge := some charge } :: writes)).Fine db := by
  obtain ⟨kept, costs, _⟩ := fine
  refine ⟨?_, fun made found => ?_, kept⟩
  · have charges : spentIn charge.usage (charge :: chargesOf writes) = charge.cost + spentIn charge.usage (chargesOf writes) :=
      spentIn_same rfl (chargesOf writes)
    change units + charge.cost = db.base charge.usage + spentIn charge.usage (charge :: chargesOf writes)
    omega
  · cases found
    exact ⟨rfl, costs, fits⟩

theorem proceed_fine (today : CivilDate) (fine : transaction.Fine db) : (UsageCrew.proceed db today transaction).Fine db := by
  cases transaction with
  | idle => exact fine
  | locked =>
    simp only [UsageCrew.proceed]
    split
    next => exact fine
    next absent => exact .created fine.1 fine.2 absent
  | created _ charge =>
    simp only [UsageCrew.proceed]
    split
    next units found =>
      have seen := fine.1.view charge.usage
      rw [found] at seen
      exact ⟨fine.1, fine.2, seen⟩
    next => trivial
  | counted =>
    simp only [UsageCrew.proceed]
    split
    next => exact fine.1
    next fits => exact fine.charged (Int.not_lt.mp fits)
  | ended => trivial

theorem holds_proceed {today : CivilDate} {tenant : ℕ} (holds : (UsageCrew.proceed db today transaction).holds tenant = true) :
    transaction.holds tenant = true := by
  cases transaction with
  | idle => exact holds
  | locked =>
    simp only [UsageCrew.proceed] at holds
    split at holds
    next => exact holds
    next =>
      rcases holds_iff.mp holds with own | ⟨write, mem, own⟩
      · exact holds_iff.mpr (.inl own)
      · rcases List.mem_cons.mp mem with rfl | before
        · exact holds_iff.mpr (.inl (congrArg some own))
        · exact holds_iff.mpr (.inr ⟨write, before, own⟩)
  | created =>
    simp only [UsageCrew.proceed] at holds
    split at holds
    next => exact holds
    next => exact absurd holds (by simp [holds_iff, calling, BudgetTransaction.writes])
  | counted =>
    simp only [UsageCrew.proceed] at holds
    split at holds
    next =>
      rcases holds_iff.mp holds with none | before
      · cases none
      · exact holds_iff.mpr (.inr before)
    next =>
      rcases holds_iff.mp holds with none | ⟨write, mem, own⟩
      · cases none
      · rcases List.mem_cons.mp mem with rfl | before
        · exact holds_iff.mpr (.inl (congrArg some own))
        · exact holds_iff.mpr (.inr ⟨write, before, own⟩)
  | ended => exact holds

theorem holds_drop {undone tenant : ℕ} (holds : (BudgetTransaction.idle (transaction.writes.drop undone)).holds tenant = true) :
    transaction.holds tenant = true := by
  rcases holds_iff.mp holds with none | ⟨write, mem, own⟩
  · cases none
  · exact holds_iff.mpr (.inr ⟨write, List.mem_of_mem_drop mem, own⟩)

end BudgetTransaction

namespace UsageCrew

structure Sound (c : UsageCrew) : Prop where
  exclusive : ∀ (j k : ℕ) (v w : BudgetTransaction) (tenant : ℕ), j ≠ k → c.transactions[j]? = some v →
    c.transactions[k]? = some w → v.holds tenant = true → w.holds tenant = true → False
  fine : ∀ transaction ∈ c.transactions, transaction.Fine c.db
  stored : ∀ usage, c.db.base usage = spentIn usage c.db.committed
  covered : Covered BudgetCharge.price BudgetCharge.ceiling BudgetCharge.usage c.db.committed

variable {c : UsageCrew}

theorem Sound.become (sound : c.Sound) {k : ℕ} {old new : BudgetTransaction} (found : c.transactions[k]? = some old)
    (fine : new.Fine c.db) (locks : ∀ tenant, new.holds tenant = true → old.holds tenant = true ∨
      ∀ (j : ℕ) (v : BudgetTransaction), j ≠ k → c.transactions[j]? = some v → v.holds tenant = false) :
    (c.become k new).Sound where
  exclusive i j v w tenant other at_i at_j holds_v holds_w := by
    -- the transaction at `k` may stand on either side
    have apart (i : ℕ) (v : BudgetTransaction) (away : i ≠ k) (at_i : c.transactions[i]? = some v)
        (holds_v : v.holds tenant = true) (holds_new : new.holds tenant = true) : False := by
      rcases locks tenant holds_new with before | free
      · exact sound.exclusive i k v old tenant away at_i found holds_v before
      · exact absurd (free i v away at_i) (by simp [holds_v])
    simp only [UsageCrew.become, List.getElem?_set] at at_i at_j
    by_cases first : k = i
    · subst first
      rw [if_neg other] at at_j
      rw [if_pos rfl] at at_i
      split at at_i
      · cases at_i
        exact apart j w (Ne.symm other) at_j holds_w holds_v
      · cases at_i
    · rw [if_neg first] at at_i
      by_cases second : k = j
      · subst second
        rw [if_pos rfl] at at_j
        split at at_j
        · cases at_j
          exact apart i v other at_i holds_v holds_w
        · cases at_j
      · rw [if_neg second] at at_j
        exact sound.exclusive i j v w tenant other at_i at_j holds_v holds_w
  fine transaction mem := by
    rcases List.mem_or_eq_of_mem_set mem with before | rfl
    · exact sound.fine transaction before
    · exact fine
  stored := sound.stored
  covered := sound.covered

theorem Sound.abort (sound : c.Sound) (k : ℕ) : (c.become k .ended).Sound := by
  cases found : c.transactions[k]? with
  | none =>
    have same : c.transactions.set k .ended = c.transactions := List.set_eq_of_length_le (List.getElem?_eq_none_iff.mp found)
    rw [UsageCrew.become, same]
    exact sound
  | some => exact sound.become found trivial fun tenant holds => (by cases holds)

theorem Sound.commit (sound : c.Sound) {k : ℕ} {writes : List UsageWrite} (found : c.transactions[k]? = some (.idle writes)) :
    ({ c.become k .ended with db := c.db.commit writes } : UsageCrew).Sound := by
  have kept : Kept c.db.base writes := sound.fine _ (List.mem_of_getElem? found)
  have ended := sound.abort k
  have base (usage : UsageKey) : (c.db.commit writes).base usage = c.db.base usage + spentIn usage (chargesOf writes) := by
    unfold UsageDb.base
    rw [commit_units]
    exact kept.view usage
  refine ⟨ended.exclusive, fun transaction mem => ?_, fun usage => ?_, kept.covered sound.stored sound.covered⟩
  · refine (ended.fine transaction mem).congr fun usage holds => ?_
    have untouched : spentIn usage (chargesOf writes) = 0 := by
      refine kept.spent_none fun write written same => ?_
      obtain ⟨j, at_j⟩ := List.mem_iff_getElem?.mp mem
      simp only [UsageCrew.become, List.getElem?_set] at at_j
      by_cases own : k = j
      · subst own
        rw [if_pos rfl] at at_j
        split at at_j
        · cases at_j
          cases holds
        · cases at_j
      · rw [if_neg own] at at_j
        refine sound.exclusive k j _ transaction usage.1 own found at_j ?_ holds
        exact BudgetTransaction.holds_iff.mpr (.inr ⟨write, written, congrArg Prod.fst same⟩)
    change (c.db.commit writes).base usage = c.db.base usage
    rw [base, untouched, Int.add_zero]
  · rw [base, sound.stored]
    change _ = spentIn usage (chargesOf writes ++ c.db.committed)
    rw [spentIn_append]
    omega

theorem Sound.next (sound : c.Sound) (a : UsageAction) : (c.next a).Sound := by
  cases a with
  | begin =>
    refine ⟨fun i j v w tenant other at_i at_j holds_v holds_w => ?_, fun transaction mem => ?_, sound.stored, sound.covered⟩
    · have known {k : ℕ} {v : BudgetTransaction} (at_k : (c.transactions ++ [.idle []])[k]? = some v)
          (holds : v.holds tenant = true) : c.transactions[k]? = some v := by
        by_cases old : k < c.transactions.length
        · rwa [List.getElem?_append_left old] at at_k
        · rw [List.getElem?_append_right (Nat.le_of_not_lt old)] at at_k
          rw [List.mem_singleton.mp (List.mem_of_getElem? at_k)] at holds
          cases holds
      exact sound.exclusive i j v w tenant other (known at_i holds_v) (known at_j holds_w) holds_v holds_w
    · rcases List.mem_append.mp mem with old | fresh
      · exact sound.fine transaction old
      · rw [List.mem_singleton.mp fresh]
        trivial
  | consume k =>
    simp only [UsageCrew.next]
    split
    next writes found =>
      split
      next free =>
        simp only [Bool.and_eq_true, Bool.not_eq_true', BudgetCall.consumes, decide_eq_true_eq] at free
        obtain ⟨⟨costs, -⟩, free⟩ := free
        have kept : Kept c.db.base writes := sound.fine _ (List.mem_of_getElem? found)
        refine sound.become found ⟨kept, costs⟩ fun tenant holds => ?_
        rcases BudgetTransaction.holds_iff.mp holds with own | before
        · refine .inr fun j v other at_j => ?_
          cases own
          refine Bool.eq_false_of_not_eq_true fun holds_v => ?_
          have there : v ∈ c.transactions.set k .ended := by
            refine List.mem_of_getElem? (i := j) ?_
            rw [List.getElem?_set_ne (Ne.symm other)]
            exact at_j
          rw [List.any_eq_false] at free
          exact free v there holds_v
        · exact .inl (BudgetTransaction.holds_iff.mpr (.inr before))
      next => exact sound
    next => exact sound
  | proceed _ today =>
    simp only [UsageCrew.next]
    split
    next transaction found =>
      have fine := sound.fine _ (List.mem_of_getElem? found)
      exact sound.become found (BudgetTransaction.proceed_fine today fine) fun tenant holds =>
        .inl (BudgetTransaction.holds_proceed holds)
    next => exact sound
  | rollbackTo _ undone =>
    simp only [UsageCrew.next]
    split
    next transaction found =>
      have fine := sound.fine _ (List.mem_of_getElem? found)
      exact sound.become found (fine.kept.drop undone) fun tenant holds => .inl (BudgetTransaction.holds_drop holds)
    next => exact sound
  | commit =>
    simp only [UsageCrew.next]
    split
    next writes found => exact sound.commit found
    next => exact sound
  | abort k => exact sound.abort k

theorem sound_start : start.Sound where
  exclusive _ _ _ _ _ _ at_j := absurd (List.mem_of_getElem? at_j) List.not_mem_nil
  fine _ mem := absurd mem List.not_mem_nil
  stored _ := rfl
  covered := trivial

theorem run_sound (actions : List UsageAction) : (run UsageCrew.next start actions).Sound :=
  @run_always _ _ UsageCrew.next Sound (fun _ a sound => sound.next a) _ sound_start actions

theorem next_db (a : UsageAction) : (c.next a).db = c.db ∨
    ∃ k writes, a = .commit k ∧ c.transactions[k]? = some (.idle writes) ∧ (c.next a).db = c.db.commit writes := by
  cases a with
  | begin => exact .inl rfl
  | consume =>
    simp only [UsageCrew.next]
    split
    · split <;> exact .inl rfl
    · exact .inl rfl
  | proceed =>
    simp only [UsageCrew.next]
    split <;> exact .inl rfl
  | rollbackTo =>
    simp only [UsageCrew.next]
    split <;> exact .inl rfl
  | commit k =>
    simp only [UsageCrew.next]
    split
    next writes found => exact .inr ⟨k, writes, rfl, found, rfl⟩
    next => exact .inl rfl
  | abort => exact .inl rfl

theorem Sound.within (sound : c.Sound) (usage : UsageKey) :
    c.db.base usage ≤ highest BudgetCharge.ceiling (charged BudgetCharge.usage usage c.db.committed) := by
  rw [sound.stored]
  exact sound.covered.spent_le List.filter_sublist fun charge mem => of_decide_eq_true (List.mem_filter.mp mem).2

end UsageCrew

end MapBackend.Core
