import Mathlib.Data.Int.Order.Basic
import Mathlib.Tactic.Common

/-!
Charges against limits.
-/

namespace MapBackend.Library

section Ceilings

variable {C K : Type*} [DecidableEq K] (cost limit : C → ℤ) (account : C → K)

def spent (charges : List C) : ℤ := charges.foldr (fun charge total => cost charge + total) 0

def charged (k : K) (charges : List C) : List C := charges.filter fun charge => decide (account charge = k)

def highest (charges : List C) : ℤ := charges.foldr (fun charge top => max (limit charge) top) 0

def Covered : List C → Prop
  | [] => True
  | charge :: earlier =>
    0 ≤ cost charge ∧ cost charge + spent cost (charged account (account charge) earlier) ≤ limit charge ∧ Covered earlier

variable {cost limit account}

@[simp] theorem spent_nil : spent cost [] = 0 := rfl

@[simp] theorem spent_cons (charge : C) (rest : List C) : spent cost (charge :: rest) = cost charge + spent cost rest := rfl

theorem spent_append (first second : List C) : spent cost (first ++ second) = spent cost first + spent cost second := by
  induction first with
  | nil => simp
  | cons _ _ ih =>
    rw [List.cons_append, spent_cons, spent_cons, ih]
    omega

theorem charged_append (k : K) (first second : List C) :
    charged account k (first ++ second) = charged account k first ++ charged account k second := List.filter_append ..

theorem charged_cons_same {k : K} {charge : C} (same : account charge = k) (rest : List C) :
    charged account k (charge :: rest) = charge :: charged account k rest :=
  List.filter_cons_of_pos (by simpa using same)

theorem charged_cons_other {k : K} {charge : C} (other : account charge ≠ k) (rest : List C) :
    charged account k (charge :: rest) = charged account k rest :=
  List.filter_cons_of_neg (by simpa using other)

theorem Covered.nonneg {charges : List C} (covered : Covered cost limit account charges) : ∀ charge ∈ charges, 0 ≤ cost charge := by
  induction charges with
  | nil => exact fun _ mem => absurd mem List.not_mem_nil
  | cons _ _ ih =>
    intro charge mem
    rcases List.mem_cons.mp mem with rfl | later
    · exact covered.1
    · exact ih covered.2.2 charge later

theorem spent_sublist {fewer charges : List C} (sub : fewer.Sublist charges) (nonneg : ∀ charge ∈ charges, 0 ≤ cost charge) :
    spent cost fewer ≤ spent cost charges := by
  induction sub with
  | slnil => exact le_refl _
  | @cons fewer charges charge _ ih =>
    have rest := ih fun other mem => nonneg other (List.mem_cons_of_mem _ mem)
    have here := nonneg charge List.mem_cons_self
    rw [spent_cons]
    omega
  | @cons_cons fewer charges charge _ ih =>
    have rest := ih fun other mem => nonneg other (List.mem_cons_of_mem _ mem)
    rw [spent_cons, spent_cons]
    omega

theorem limit_le_highest {charge : C} {charges : List C} (mem : charge ∈ charges) : limit charge ≤ highest limit charges := by
  induction charges with
  | nil => exact absurd mem List.not_mem_nil
  | cons first rest ih =>
    have top : highest limit (first :: rest) = max (limit first) (highest limit rest) := rfl
    rcases List.mem_cons.mp mem with rfl | later
    · omega
    · have below := ih later
      omega

theorem Covered.spent_le {charges fewer : List C} (covered : Covered cost limit account charges) (sub : fewer.Sublist charges)
    {k : K} (same : ∀ charge ∈ fewer, account charge = k) : spent cost fewer ≤ highest limit fewer := by
  induction sub with
  | slnil => exact le_refl _
  | cons _ _ ih => exact ih covered.2.2 same
  | @cons_cons fewer charges charge sub ih =>
    obtain ⟨-, _, earlier⟩ := covered
    have mine := same charge List.mem_cons_self
    have within : spent cost fewer ≤ spent cost (charged account (account charge) charges) := by
      have kept : fewer.filter (fun other => decide (account other = account charge)) = fewer := by
        refine List.filter_eq_self.mpr fun other mem => ?_
        have theirs := same other (List.mem_cons_of_mem _ mem)
        simp [theirs, mine]
      have fewer_charged : fewer.Sublist (charged account (account charge) charges) := by
        rw [← kept]
        exact sub.filter _
      refine spent_sublist fewer_charged fun other mem => ?_
      exact earlier.nonneg other (List.mem_filter.mp mem).1
    have top : limit charge ≤ highest limit (charge :: fewer) := limit_le_highest List.mem_cons_self
    rw [spent_cons]
    omega

end Ceilings

end MapBackend.Library
