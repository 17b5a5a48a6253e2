import Mathlib.Algebra.Order.Round
import Mathlib.Data.Rat.Floor
import Mathlib.Tactic.Linarith
import Mathlib.Tactic.FieldSimp
import Mathlib.Tactic.Ring
import Mathlib.Tactic.NormNum

/-!
Fixed-point database columns `numeric(digits, places)`.
-/

namespace MapBackend.Library

def roundHalfAway (x : ℚ) : ℤ := if 0 ≤ x then round x else -round (-x)

def IsTie (x : ℚ) : Prop := Int.fract x = 1 / 2

instance (x : ℚ) : Decidable (IsTie x) := inferInstanceAs (Decidable (_ = _))

theorem roundHalfAway_of_nonneg {x : ℚ} (nonneg : 0 ≤ x) : roundHalfAway x = round x := by
  simp [roundHalfAway, nonneg]

@[simp] theorem roundHalfAway_intCast (n : ℤ) : roundHalfAway (n : ℚ) = n := by
  unfold roundHalfAway
  split
  · simp
  · rw [← Int.cast_neg, round_intCast, neg_neg]

@[simp] theorem roundHalfAway_zero : roundHalfAway 0 = 0 := by simp [roundHalfAway]

theorem roundHalfAway_neg (x : ℚ) : roundHalfAway (-x) = -roundHalfAway x := by
  rcases lt_trichotomy x 0 with negative | rfl | positive
  · simp [roundHalfAway, negative.le, not_le.mpr negative]
  · simp
  · simp [roundHalfAway, positive.le, not_le.mpr positive]

theorem round_le_round {x y : ℚ} (le : x ≤ y) : round x ≤ round y := by
  rw [round_eq, round_eq]
  exact Int.floor_le_floor (by linarith)

theorem round_nonneg {x : ℚ} (nonneg : 0 ≤ x) : 0 ≤ round x := by
  simpa using round_le_round nonneg

theorem roundHalfAway_nonneg {x : ℚ} (nonneg : 0 ≤ x) : 0 ≤ roundHalfAway x := by
  rw [roundHalfAway_of_nonneg nonneg]
  exact round_nonneg nonneg

theorem roundHalfAway_mono {x y : ℚ} (le : x ≤ y) : roundHalfAway x ≤ roundHalfAway y := by
  by_cases left : 0 ≤ x
  · rw [roundHalfAway_of_nonneg left, roundHalfAway_of_nonneg (left.trans le)]
    exact round_le_round le
  · by_cases right : 0 ≤ y
    · have low : 0 ≤ round (-x) := round_nonneg (by linarith)
      have high := roundHalfAway_nonneg right
      simp only [roundHalfAway, if_neg left] at high ⊢
      omega
    · simp only [roundHalfAway, if_neg left, if_neg right]
      exact neg_le_neg (round_le_round (by linarith))

theorem roundHalfAway_add {n : ℤ} {x : ℚ} (whole : 0 ≤ n) (nonneg : 0 ≤ x) :
    roundHalfAway (n + x) = n + roundHalfAway x := by
  have total : (0 : ℚ) ≤ n + x := add_nonneg (by exact_mod_cast whole) nonneg
  rw [roundHalfAway_of_nonneg total, roundHalfAway_of_nonneg nonneg, round_intCast_add]

theorem roundHalfAway_sub {n : ℤ} {x : ℚ} (nonneg : 0 ≤ x) (le : x ≤ n) (untied : ¬ IsTie x) :
    roundHalfAway (n - x) = n - roundHalfAway x := by
  rw [roundHalfAway_of_nonneg (sub_nonneg.mpr le), roundHalfAway_of_nonneg nonneg, round_eq_iff]
  obtain ⟨low, _⟩ := (round_eq_iff (x := x) (n := round x)).mp rfl
  have strict : (round x : ℚ) - 1 / 2 ≠ x := by
    intro tie
    apply untied
    unfold IsTie
    rw [← tie, Int.fract_eq_iff]
    exact ⟨by norm_num, by norm_num, round x - 1, by push_cast; ring⟩
  have low' : (round x : ℚ) - 1 / 2 < x := lt_of_le_of_ne low strict
  constructor
  · push_cast
    linarith
  · push_cast
    linarith

theorem roundHalfAway_sub_small {n : ℤ} {x : ℚ} (nonneg : 0 ≤ x) (le : x ≤ n) (small : x ≤ 1 / 2) :
    roundHalfAway (n - x) = n := by
  rw [roundHalfAway_of_nonneg (sub_nonneg.mpr le), round_eq_iff]
  constructor
  · linarith
  · linarith

/-- A value of a `numeric(digits, places)` column, in units of the last place. -/
structure Numeric (digits places : ℕ) where
  units : ℤ
  fits : units.natAbs < 10 ^ digits
  deriving DecidableEq, Repr

namespace Numeric

variable {digits places : ℕ}

@[ext] theorem ext {a b : Numeric digits places} (same : a.units = b.units) : a = b := by
  cases a
  cases b
  simp_all

def value (n : Numeric digits places) : ℚ := n.units / 10 ^ places

def store (digits places : ℕ) (x : ℚ) : Option (Numeric digits places) :=
  let units := roundHalfAway (x * 10 ^ places)
  if fits : units.natAbs < 10 ^ digits then some ⟨units, fits⟩ else none

instance : Zero (Numeric digits places) := ⟨⟨0, by simp⟩⟩

@[simp] theorem units_zero : (0 : Numeric digits places).units = 0 := rfl

@[simp] theorem value_zero : (0 : Numeric digits places).value = 0 := by simp [value]

theorem value_scaled (n : Numeric digits places) : n.value * 10 ^ places = n.units := by
  simp [value]

theorem store_units {x : ℚ} {n : Numeric digits places} (stored : store digits places x = some n) :
    n.units = roundHalfAway (x * 10 ^ places) := by
  simp only [store] at stored
  split at stored
  · cases stored
    rfl
  · cases stored

@[simp] theorem store_value (n : Numeric digits places) : store digits places n.value = some n := by
  simp [store, value_scaled, n.fits]

theorem store_whole {x : ℚ} {u : ℤ} {n : Numeric digits places} (whole : x * 10 ^ places = u)
    (stored : store digits places x = some n) : n.units = u := by
  rw [store_units stored, whole, roundHalfAway_intCast]

theorem units_nonneg_iff (n : Numeric digits places) : 0 ≤ n.value ↔ 0 ≤ n.units := by
  have positive : (0 : ℚ) < 10 ^ places := by positivity
  rw [← Int.cast_nonneg_iff (R := ℚ), ← value_scaled, mul_nonneg_iff_of_pos_right positive]

theorem value_le_iff (a b : Numeric digits places) : a.value ≤ b.value ↔ a.units ≤ b.units := by
  have positive : (0 : ℚ) < 10 ^ places := by positivity
  rw [← Int.cast_le (R := ℚ), ← value_scaled, ← value_scaled, mul_le_mul_iff_left₀ positive]

theorem scaled_nonneg {x : ℚ} (nonneg : 0 ≤ x) : 0 ≤ x * 10 ^ places := by positivity

theorem store_nonneg {x : ℚ} {n : Numeric digits places} (nonneg : 0 ≤ x)
    (stored : store digits places x = some n) : 0 ≤ n.units := by
  rw [store_units stored]
  exact roundHalfAway_nonneg (scaled_nonneg nonneg)

theorem store_add {n m : Numeric digits places} {x : ℚ} (base : 0 ≤ n.units) (nonneg : 0 ≤ x)
    (stored : store digits places (n.value + x) = some m) :
    m.units = n.units + roundHalfAway (x * 10 ^ places) := by
  rw [store_units stored, add_mul, value_scaled]
  exact roundHalfAway_add base (scaled_nonneg nonneg)

theorem store_sub {n m : Numeric digits places} {x : ℚ} (nonneg : 0 ≤ x) (covered : x ≤ n.value)
    (untied : ¬ IsTie (x * 10 ^ places)) (stored : store digits places (n.value - x) = some m) :
    m.units = n.units - roundHalfAway (x * 10 ^ places) := by
  have positive : (0 : ℚ) < 10 ^ places := by positivity
  rw [store_units stored, sub_mul, value_scaled]
  refine roundHalfAway_sub (scaled_nonneg nonneg) ?_ untied
  rw [← value_scaled]
  exact mul_le_mul_of_nonneg_right covered positive.le

theorem store_of_le {n : Numeric digits places} {x : ℚ} (nonneg : 0 ≤ x) (le : x ≤ n.value) :
    ∃ m, store digits places x = some m := by
  have low : 0 ≤ roundHalfAway (x * 10 ^ places) := roundHalfAway_nonneg (scaled_nonneg nonneg)
  have high : roundHalfAway (x * 10 ^ places) ≤ n.units := by
    calc roundHalfAway (x * 10 ^ places)
        ≤ roundHalfAway (n.value * 10 ^ places) :=
          roundHalfAway_mono (mul_le_mul_of_nonneg_right le (by positivity))
      _ = n.units := by rw [value_scaled, roundHalfAway_intCast]
  have bound := n.fits
  have fits : (roundHalfAway (x * 10 ^ places)).natAbs < 10 ^ digits := by omega
  exact ⟨⟨_, fits⟩, by simp [store, fits]⟩

theorem store_neg_of_le {n : Numeric digits places} {x : ℚ} (nonneg : 0 ≤ x) (le : x ≤ n.value) :
    ∃ m, store digits places (-x) = some m := by
  obtain ⟨m, stored⟩ := store_of_le nonneg le
  have fits : (roundHalfAway (-x * 10 ^ places)).natAbs < 10 ^ digits := by
    rw [neg_mul, roundHalfAway_neg, Int.natAbs_neg, ← store_units stored]
    exact m.fits
  exact ⟨⟨_, fits⟩, by rw [store, dif_pos fits]⟩

theorem store_neg {x : ℚ} {m : Numeric digits places} (stored : store digits places (-x) = some m) :
    m.units = -roundHalfAway (x * 10 ^ places) := by
  rw [store_units stored, neg_mul, roundHalfAway_neg]

def Whole (places : ℕ) (x : ℚ) : Prop := ∃ units : ℤ, x * 10 ^ places = units

namespace Whole

theorem value (n : Numeric digits places) : Whole places n.value := ⟨n.units, n.value_scaled⟩

theorem zero : Whole places 0 := ⟨0, by simp⟩

theorem sub {x y : ℚ} (whole : Whole places x) (other : Whole places y) : Whole places (x - y) := by
  obtain ⟨a, first⟩ := whole
  obtain ⟨b, second⟩ := other
  exact ⟨a - b, by rw [sub_mul, first, second]; push_cast; rfl⟩

theorem max {x y : ℚ} (whole : Whole places x) (other : Whole places y) : Whole places (max x y) := by
  rcases max_choice x y with same | same
  · rwa [same]
  · rwa [same]

theorem min {x y : ℚ} (whole : Whole places x) (other : Whole places y) : Whole places (min x y) := by
  rcases min_choice x y with same | same
  · rwa [same]
  · rwa [same]

theorem stored {x : ℚ} {n : Numeric digits places} (whole : Whole places x) (fits : store digits places x = some n) :
    n.value = x := by
  obtain ⟨_, scaled⟩ := whole
  rw [Numeric.value, store_whole scaled fits, ← scaled, mul_div_cancel_right₀ _ (by positivity)]

end Whole

end Numeric

end MapBackend.Library
