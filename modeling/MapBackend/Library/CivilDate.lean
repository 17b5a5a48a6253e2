import Mathlib.Order.Nat
import Mathlib.Order.Basic
import Mathlib.Order.Lattice
import Mathlib.Tactic.Common

/-!
Proleptic Gregorian dates between the years 1 and 9999, ordered lexicographically,
with month arithmetic that clamps the day to the length of the target month.
-/

namespace MapBackend.Library

def isLeap (year : ℕ) : Bool := year % 4 == 0 && (year % 100 != 0 || year % 400 == 0)

def monthDays (year month : ℕ) : ℕ :=
  if month = 2 then (if isLeap year then 29 else 28)
  else if month = 4 ∨ month = 6 ∨ month = 9 ∨ month = 11 then 30 else 31

theorem monthDays_pos (year month : ℕ) : 28 ≤ monthDays year month ∧ monthDays year month ≤ 31 := by
  unfold monthDays
  split
  · split <;> omega
  · split <;> omega

structure CivilDate where
  year : ℕ
  month : ℕ
  day : ℕ
  valid : (1 ≤ year ∧ year ≤ 9999) ∧ (1 ≤ month ∧ month ≤ 12) ∧ 1 ≤ day ∧ day ≤ monthDays year month
  deriving DecidableEq

namespace CivilDate

/-- `date(year, month, day)`; `none` is the ValueError of an invalid date. -/
def make (year month day : ℕ) : Option CivilDate :=
  if valid : (1 ≤ year ∧ year ≤ 9999) ∧ (1 ≤ month ∧ month ≤ 12) ∧ 1 ≤ day ∧ day ≤ monthDays year month
  then some ⟨year, month, day, valid⟩ else none

def index (d : CivilDate) : ℕ := (d.year * 12 + d.month) * 32 + d.day

theorem index_injective : Function.Injective index := by
  rintro ⟨y, m, d, _⟩ ⟨y', m', d', _⟩ same
  have short := monthDays_pos y m
  have short' := monthDays_pos y' m'
  simp only [index] at same
  have day : d = d' := by omega
  have month : m = m' := by omega
  have year : y = y' := by omega
  subst day month year
  rfl

instance : LinearOrder CivilDate := LinearOrder.lift' index index_injective

/-- Shift by whole months from the anchor, keeping its day or the last day of the month. -/
def addMonths (anchor : CivilDate) (months : ℕ) : Option CivilDate :=
  let absolute := anchor.year * 12 + anchor.month - 1 + months
  let year := absolute / 12
  let month := absolute % 12 + 1
  make year month (min anchor.day (monthDays year month))

def addYear (start : CivilDate) : Option CivilDate :=
  (make (start.year + 1) start.month start.day).orElse fun _ => make (start.year + 1) 2 28

theorem le_iff_index {a b : CivilDate} : a ≤ b ↔ a.index ≤ b.index := Iff.rfl

theorem make_fields {year month day : ℕ} {d : CivilDate} (made : make year month day = some d) :
    d.year = year ∧ d.month = month ∧ d.day = day := by
  unfold make at made
  split at made
  · cases made
    exact ⟨rfl, rfl, rfl⟩
  · cases made

theorem addMonths_month {anchor d : CivilDate} {months : ℕ} (made : anchor.addMonths months = some d) :
    d.year * 12 + d.month = anchor.year * 12 + anchor.month + months ∧ d.day = min anchor.day (monthDays d.year d.month) := by
  obtain ⟨year, month, day⟩ := make_fields made
  have positive := anchor.valid.2.1.1
  rw [day, year, month]
  exact ⟨by omega, rfl⟩

theorem addMonths_mono {a b c d : CivilDate} {months : ℕ} (le : a ≤ b) (left : a.addMonths months = some c)
    (right : b.addMonths months = some d) : c ≤ d := by
  obtain ⟨_, dayC⟩ := addMonths_month left
  obtain ⟨_, _⟩ := addMonths_month right
  rw [le_iff_index] at le ⊢
  simp only [index] at le ⊢
  have shortA := monthDays_pos a.year a.month
  have shortB := monthDays_pos b.year b.month
  have shortC := monthDays_pos c.year c.month
  have shortD := monthDays_pos d.year d.month
  have validA := a.valid
  have validB := b.valid
  have validC := c.valid
  have validD := d.valid
  by_cases same : c.year * 12 + c.month = d.year * 12 + d.month
  · have year : c.year = d.year := by omega
    have month : c.month = d.month := by omega
    rw [year, month] at dayC
    omega
  · omega

theorem addYear_month {b d : CivilDate} (made : b.addYear = some d) :
    d.year * 12 + d.month = b.year * 12 + b.month + 12 := by
  unfold addYear at made
  cases exact : make (b.year + 1) b.month b.day with
  | some =>
    rw [exact] at made
    cases made
    obtain ⟨year, month, -⟩ := make_fields exact
    omega
  | none =>
    rw [exact] at made
    obtain ⟨year, month, -⟩ := make_fields made
    -- Only the day 29 of a February is missing a year later.
    have leap : b.month = 2 := by
      by_contra other
      have valid := b.valid
      have reached := d.valid.1.2
      have long : monthDays (b.year + 1) b.month = monthDays b.year b.month := by simp [monthDays, other]
      unfold make at exact
      rw [dif_pos (by omega)] at exact
      cases exact
    omega

theorem addMonths_le_addYear {a b c d : CivilDate} (le : a ≤ b) (left : a.addMonths 1 = some c) (right : b.addYear = some d) :
    c ≤ d := by
  obtain ⟨_, -⟩ := addMonths_month left
  have monthD := addYear_month right
  rw [le_iff_index] at le ⊢
  simp only [index] at le ⊢
  have validA := a.valid
  have validB := b.valid
  have validC := c.valid
  have shortA := monthDays_pos a.year a.month
  have shortB := monthDays_pos b.year b.month
  have shortC := monthDays_pos c.year c.month
  omega

def nextDay (d : CivilDate) : Option CivilDate :=
  if d.day < monthDays d.year d.month then make d.year d.month (d.day + 1)
  else if d.month < 12 then make d.year (d.month + 1) 1
  else make (d.year + 1) 1 1

def addDays (start : CivilDate) : ℕ → Option CivilDate
  | 0 => some start
  | days + 1 => (addDays start days).bind nextDay

/-- `str(date)`, as characters: four digits, two and two. -/
def textChars (d : CivilDate) : List Char :=
  [Nat.digitChar (d.year / 1000), Nat.digitChar (d.year / 100 % 10), Nat.digitChar (d.year / 10 % 10),
    Nat.digitChar (d.year % 10), '-', Nat.digitChar (d.month / 10), Nat.digitChar (d.month % 10), '-',
    Nat.digitChar (d.day / 10), Nat.digitChar (d.day % 10)]

def text (d : CivilDate) : String := String.ofList d.textChars

theorem text_toList (d : CivilDate) : d.text.toList = d.textChars := String.toList_ofList

theorem digitChar_inj {a b : ℕ} (ha : a < 10) (hb : b < 10) (same : Nat.digitChar a = Nat.digitChar b) : a = b := by
  have all : ∀ a b : Fin 10, Nat.digitChar a = Nat.digitChar b → a = b := by decide
  exact congrArg Fin.val (all ⟨a, ha⟩ ⟨b, hb⟩ same)

theorem textChars_injective : Function.Injective textChars := by
  rintro ⟨y, m, d, _⟩ ⟨y', m', d', _⟩ same
  have short := monthDays_pos y m
  have short' := monthDays_pos y' m'
  simp only [textChars, List.cons.injEq, and_true, true_and] at same
  obtain ⟨y1, y2, y3, y4, m1, m2, d1, d2⟩ := same
  have y1 := digitChar_inj (by omega) (by omega) y1
  have y2 := digitChar_inj (by omega) (by omega) y2
  have y3 := digitChar_inj (by omega) (by omega) y3
  have y4 := digitChar_inj (by omega) (by omega) y4
  have m1 := digitChar_inj (by omega) (by omega) m1
  have m2 := digitChar_inj (by omega) (by omega) m2
  have d1 := digitChar_inj (by omega) (by omega) d1
  have d2 := digitChar_inj (by omega) (by omega) d2
  have year : y = y' := by omega
  have month : m = m' := by omega
  have day : d = d' := by omega
  subst year month day
  rfl

theorem textChars_length (d : CivilDate) : d.textChars.length = 10 := rfl

theorem textChars_head (d : CivilDate) (rest : List Char) : (d.textChars ++ rest).head? ≠ some 'v' := by
  have digit : ∀ a : Fin 10, Nat.digitChar a ≠ 'v' := by decide
  have small : d.year / 1000 < 10 := by
    have bound := d.valid.1.2
    omega
  intro same
  exact digit ⟨d.year / 1000, small⟩ (Option.some.inj same)

end CivilDate

end MapBackend.Library
