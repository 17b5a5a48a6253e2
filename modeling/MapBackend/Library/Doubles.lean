import MapBackend.Library.Decimals
import Mathlib.Data.Int.Log
import Mathlib.Data.Rat.Floor
import Mathlib.Tactic.Linarith
import Mathlib.Tactic.Positivity
import Mathlib.Tactic.NormNum
import Mathlib.Tactic.FieldSimp

/-!
Binary floating point numbers of 53 bits: the nearest one of a rational number, and which rational
numbers it sends to a given power of two or above.
-/

namespace MapBackend.Library

inductive Double where
  | finite (value : ℚ)
  | infinity (negative : Bool)
  | nan
  deriving DecidableEq

namespace Double

def roundHalfEven (x : ℚ) : ℤ :=
  if Int.fract x < 1 / 2 ∨ Int.fract x = 1 / 2 ∧ ⌊x⌋ % 2 = 0 then ⌊x⌋ else ⌊x⌋ + 1

def quantum (x : ℚ) : ℤ := max (-1074) (Int.log 2 x - 52)

def roundSize (x : ℚ) : ℚ := roundHalfEven (x / 2 ^ quantum x) * 2 ^ quantum x

def ofRat (x : ℚ) : Double :=
  if 2 ^ 1024 ≤ roundSize |x| then .infinity (decide (x < 0))
  else .finite (if x < 0 then -roundSize |x| else roundSize |x|)

def truncate (x : ℚ) : ℤ := if 0 ≤ x then ⌊x⌋ else ⌈x⌉

/-! ## Rounding to an integer -/

theorem floor_le_roundHalfEven (x : ℚ) : ⌊x⌋ ≤ roundHalfEven x := by
  unfold roundHalfEven
  split <;> omega

theorem le_roundHalfEven {n : ℤ} {x : ℚ} (le : (n : ℚ) ≤ x) : n ≤ roundHalfEven x :=
  le_trans (Int.le_floor.mpr le) (floor_le_roundHalfEven x)

theorem half_le_of_le {n : ℤ} {x : ℚ} (le : n ≤ roundHalfEven x) : (n : ℚ) - 1 / 2 ≤ x := by
  have parts := Int.floor_add_fract x
  have nonneg := Int.fract_nonneg x
  unfold roundHalfEven at le
  split at le
  · have below : (n : ℚ) ≤ ⌊x⌋ := by exact_mod_cast le
    linarith
  · next up =>
    have below : (n : ℚ) ≤ ⌊x⌋ + 1 := by exact_mod_cast le
    have half : ¬ Int.fract x < 1 / 2 := fun small => up (.inl small)
    linarith

theorem le_roundHalfEven_iff {n : ℤ} (even : n % 2 = 0) {x : ℚ} : n ≤ roundHalfEven x ↔ (n : ℚ) - 1 / 2 ≤ x := by
  refine ⟨half_le_of_le, fun near => ?_⟩
  by_cases whole : (n : ℚ) ≤ x
  · exact le_roundHalfEven whole
  · have parts := Int.floor_add_fract x
    have small := Int.fract_lt_one x
    have floor : ⌊x⌋ = n - 1 := by
      rw [Int.floor_eq_iff]
      push_cast
      constructor <;> linarith
    have half : (1 : ℚ) / 2 ≤ Int.fract x := by
      rw [floor] at parts
      push_cast at parts
      linarith
    unfold roundHalfEven
    rw [if_neg, floor]
    · omega
    · rintro (low | ⟨-, _⟩)
      · linarith
      · omega

theorem roundHalfEven_le {n : ℤ} {x : ℚ} (le : x ≤ n) : roundHalfEven x ≤ n := by
  by_contra above
  have near := half_le_of_le (show n + 1 ≤ roundHalfEven x by omega)
  push_cast at near
  linarith

/-! ## Rounding to 53 bits -/

theorem two_zpow_pos (k : ℤ) : (0 : ℚ) < 2 ^ k := zpow_pos two_pos k

theorem roundSize_nonneg {x : ℚ} (nonneg : 0 ≤ x) : 0 ≤ roundSize x := by
  have scaled : ((0 : ℤ) : ℚ) ≤ x / 2 ^ quantum x := by
    rw [Int.cast_zero]
    exact div_nonneg nonneg (two_zpow_pos _).le
  have whole : (0 : ℚ) ≤ roundHalfEven (x / 2 ^ quantum x) := by exact_mod_cast le_roundHalfEven scaled
  exact mul_nonneg whole (two_zpow_pos _).le

theorem le_roundSize {x : ℚ} {k : ℤ} (divides : quantum x ≤ k) (le : (2 : ℚ) ^ k ≤ x) : (2 : ℚ) ^ k ≤ roundSize x := by
  have bit := two_zpow_pos (quantum x)
  obtain ⟨n, gap⟩ := Int.le.dest divides
  have power : (2 : ℚ) ^ k = ((2 ^ n : ℤ) : ℚ) * 2 ^ quantum x := by
    rw [← gap, add_comm, zpow_add₀ two_ne_zero, zpow_natCast]
    push_cast
    rfl
  have scaled : ((2 ^ n : ℤ) : ℚ) ≤ x / 2 ^ quantum x := (le_div_iff₀ bit).mpr (power ▸ le)
  have whole : ((2 ^ n : ℤ) : ℚ) ≤ roundHalfEven (x / 2 ^ quantum x) := by exact_mod_cast le_roundHalfEven scaled
  rw [power]
  exact mul_le_mul_of_nonneg_right whole bit.le

theorem roundSize_le {x : ℚ} {k : ℤ} (divides : quantum x ≤ k) (le : x ≤ (2 : ℚ) ^ k) : roundSize x ≤ (2 : ℚ) ^ k := by
  have bit := two_zpow_pos (quantum x)
  obtain ⟨n, gap⟩ := Int.le.dest divides
  have power : (2 : ℚ) ^ k = ((2 ^ n : ℤ) : ℚ) * 2 ^ quantum x := by
    rw [← gap, add_comm, zpow_add₀ two_ne_zero, zpow_natCast]
    push_cast
    rfl
  have scaled : x / 2 ^ quantum x ≤ ((2 ^ n : ℤ) : ℚ) := (div_le_iff₀ bit).mpr (power ▸ le)
  have whole : (roundHalfEven (x / 2 ^ quantum x) : ℚ) ≤ ((2 ^ n : ℤ) : ℚ) := by exact_mod_cast roundHalfEven_le scaled
  rw [power]
  exact mul_le_mul_of_nonneg_right whole bit.le

theorem le_roundSize_of_below {x : ℚ} {k : ℤ} (normal : -1021 ≤ k) (size : Int.log 2 x = k - 1) :
    (2 : ℚ) ^ k ≤ roundSize x ↔ (2 : ℚ) ^ k - 2 ^ (k - 54) ≤ x := by
  have exponent : quantum x = k - 53 := by
    unfold quantum
    omega
  have bit := two_zpow_pos (k - 53)
  have power : (2 : ℚ) ^ k = ((2 ^ 53 : ℤ) : ℚ) * 2 ^ (k - 53) := by
    rw [show k = 53 + (k - 53) by omega, zpow_add₀ two_ne_zero]
    norm_num
  have half : (2 : ℚ) ^ (k - 54) = 1 / 2 * 2 ^ (k - 53) := by
    rw [show k - 53 = 1 + (k - 54) by omega, zpow_add₀ two_ne_zero, zpow_one]
    linarith
  have rounds : (2 : ℚ) ^ k ≤ roundSize x ↔ (2 ^ 53 : ℤ) ≤ roundHalfEven (x / 2 ^ (k - 53)) := by
    unfold roundSize
    rw [exponent, power, mul_le_mul_iff_left₀ bit]
    exact Int.cast_le
  rw [rounds, le_roundHalfEven_iff (by norm_num), le_div_iff₀ bit, power, half]
  constructor <;> intro near <;> linarith

theorem le_roundSize_iff {x : ℚ} {k : ℤ} (nonneg : 0 ≤ x) (normal : -1021 ≤ k) :
    (2 : ℚ) ^ k ≤ roundSize x ↔ (2 : ℚ) ^ k - 2 ^ (k - 54) ≤ x := by
  have gap := two_zpow_pos (k - 54)
  have half : (2 : ℚ) ^ k = 2 * 2 ^ (k - 1) := by
    rw [← zpow_one_add₀ two_ne_zero, show 1 + (k - 1) = k by omega]
  have small : (2 : ℚ) ^ (k - 54) ≤ 2 ^ (k - 1) := zpow_le_zpow_right₀ (by norm_num) (by omega)
  rcases nonneg.eq_or_lt with rfl | positive
  · have zero : roundSize 0 = 0 := by
      rw [roundSize, zero_div, show roundHalfEven 0 = 0 by simp [roundHalfEven], Int.cast_zero, zero_mul]
    rw [zero]
    constructor
    · intro le
      linarith [two_zpow_pos k]
    · intro le
      linarith
  by_cases below : x < 2 ^ (k - 1)
  · -- the last bit divides the power before, which bounds what is rounded
    have log := (Int.lt_zpow_iff_log_lt (b := 2) (by norm_num) positive).mp (by exact_mod_cast below)
    have size : quantum x ≤ k - 1 := by
      unfold quantum
      omega
    have rounded := roundSize_le size below.le
    constructor
    · intro le
      linarith [two_zpow_pos k]
    · intro le
      linarith
  · have lower : k - 1 ≤ Int.log 2 x :=
      (Int.zpow_le_iff_le_log (b := 2) (by norm_num) positive).mp (by exact_mod_cast not_lt.mp below)
    by_cases same : Int.log 2 x = k - 1
    · exact le_roundSize_of_below normal same
    · have above : (2 : ℚ) ^ Int.log 2 x ≤ x := by exact_mod_cast Int.zpow_log_le_self (b := 2) (by norm_num) positive
      have order : (2 : ℚ) ^ k ≤ 2 ^ Int.log 2 x := zpow_le_zpow_right₀ (by norm_num) (by omega)
      have divides : quantum x ≤ Int.log 2 x := by
        unfold quantum
        omega
      exact ⟨fun _ => by linarith, fun _ => order.trans (le_roundSize divides above)⟩

theorem ofRat_finite_iff {x : ℚ} : (∃ value, ofRat x = .finite value) ↔ |x| < 2 ^ 1024 - 2 ^ 970 := by
  have large := le_roundSize_iff (k := 1024) (abs_nonneg x) (by norm_num)
  norm_num only at large
  unfold ofRat
  constructor
  · rintro ⟨value, found⟩
    split at found
    · cases found
    · next fits => exact not_le.mp fun le => fits (large.mpr le)
  · intro fits
    exact ⟨_, if_neg fun le => absurd (large.mp le) (not_le.mpr fits)⟩

theorem truncate_nonneg_iff {x value : ℚ} (found : ofRat x = .finite value) :
    0 ≤ truncate value ↔ -(1 - 1 / 2 ^ 54) < x := by
  have unit := le_roundSize_iff (k := 0) (abs_nonneg x) (by norm_num)
  have size := roundSize_nonneg (abs_nonneg x)
  norm_num at unit
  unfold ofRat at found
  split at found
  · cases found
  · obtain rfl := Double.finite.inj found
    unfold truncate
    by_cases negative : x < 0
    · rw [if_pos negative]
      rw [abs_of_neg negative] at unit size ⊢
      have truncates : 0 ≤ (if 0 ≤ -roundSize (-x) then ⌊-roundSize (-x)⌋ else ⌈-roundSize (-x)⌉) ↔ ¬ 1 ≤ roundSize (-x) := by
        split
        · next zero =>
          constructor
          · intro _ one
            linarith
          · intro _
            exact Int.floor_nonneg.mpr zero
        · rw [Int.le_ceil_iff]
          push_cast
          constructor
          · intro above one
            linarith
          · intro below
            linarith [not_le.mp below]
      rw [truncates, unit, not_le]
      norm_num
      constructor <;> intro <;> linarith
    · rw [if_neg negative, if_pos size]
      constructor
      · intro _
        norm_num
        linarith [not_lt.mp negative]
      · intro _
        exact Int.floor_nonneg.mpr size

end Double

end MapBackend.Library
