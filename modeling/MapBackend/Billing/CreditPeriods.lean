import MapBackend.Billing.SubscriptionTerms

/-!
The AI credit periods of a paid term: months counted from the start of the term, the last one cut at
its end.
-/

namespace MapBackend.Billing
open MapBackend.Library

def monthDistance (start target : CivilDate) : ℤ := (target.year - start.year) * 12 + target.month - start.month

/-- The month that holds the date, counted from the start, and the date that it begins with. -/
def anchoredMonth (start target : CivilDate) : Option (ℕ × CivilDate) := do
  let monthIndex := (target.year * 12 + target.month) - (start.year * 12 + start.month)
  let periodStart ← start.addMonths monthIndex
  let monthIndex := if target < periodStart then monthIndex - 1 else monthIndex
  let periodStart ← start.addMonths monthIndex
  return (monthIndex, periodStart)

def periodEndAfter (start stop : CivilDate) (monthIndex : ℕ) : Option CivilDate :=
  if stop.year * 12 + stop.month < monthIndex + 1 + (start.year * 12 + start.month) then some stop
  else (start.addMonths (monthIndex + 1)).map fun month => min month stop

variable {subscription : Subscription} {target : CivilDate}

theorem aiCreditPeriodForDate_eq (le : subscription.currentPeriodStart ≤ target)
    (lt : target < subscription.currentPeriodEnd) : aiCreditPeriodForDate subscription target =
      (anchoredMonth subscription.currentPeriodStart target).bind fun month =>
        (periodEndAfter subscription.currentPeriodStart subscription.currentPeriodEnd month.1).map fun stop => some (month.2, stop) := by
  have inside : ¬ (target < subscription.currentPeriodStart ∨ subscription.currentPeriodEnd ≤ target) :=
    not_or.mpr ⟨not_lt.mpr le, not_le.mpr lt⟩
  simp only [aiCreditPeriodForDate, if_neg inside, anchoredMonth, Option.bind_eq_bind, Option.bind_assoc]
  congr 1
  funext first
  congr 1
  funext second
  rw [Option.pure_def, Option.bind_some, periodEndAfter, apply_ite (Option.map _), Option.map_some, Option.map_map]
  rfl

/-! ## Boundaries -/

/-- A date so many months after the anchor: its day is the anchor's, or the last one of a shorter month. -/
structure Boundary (anchor : CivilDate) (months : ℤ) (d : CivilDate) : Prop where
  month : (d.year * 12 + d.month : ℤ) = anchor.year * 12 + anchor.month + months
  day : d.day = min anchor.day (monthDays d.year d.month)

theorem CivilDate.ext_of_fields {a b : CivilDate} (year : a.year = b.year) (month : a.month = b.month) (day : a.day = b.day) : a = b := by
  cases a
  cases b
  subst year month day
  rfl

variable {months : ℤ}

theorem Boundary.unique {anchor a b : CivilDate} (first : Boundary anchor months a) (second : Boundary anchor months b) :
    a = b := by
  have monthA := first.month
  have monthB := second.month
  have validA := a.valid
  have validB := b.valid
  have year : a.year = b.year := by omega
  have month : a.month = b.month := by omega
  exact CivilDate.ext_of_fields year month (by rw [first.day, second.day, year, month])

theorem addMonths_boundary {anchor d : CivilDate} {months : ℕ} (made : anchor.addMonths months = some d) :
    Boundary anchor months d := by
  obtain ⟨year, month, day⟩ := CivilDate.make_fields made
  have valid := anchor.valid
  exact ⟨by omega, by rw [day, year, month]⟩

theorem addMonths_of_le (anchor last : CivilDate) (months : ℕ)
    (before : anchor.year * 12 + anchor.month + months ≤ last.year * 12 + last.month) :
    ∃ d, anchor.addMonths months = some d ∧ Boundary anchor months d := by
  have validAnchor := anchor.valid
  have validLast := last.valid
  have short := monthDays_pos ((anchor.year * 12 + anchor.month - 1 + months) / 12)
    ((anchor.year * 12 + anchor.month - 1 + months) % 12 + 1)
  have made : ∃ d, anchor.addMonths months = some d := by
    unfold CivilDate.addMonths CivilDate.make
    dsimp only
    rw [dif_pos (by omega)]
    exact ⟨_, rfl⟩
  obtain ⟨d, made⟩ := made
  exact ⟨d, made, addMonths_boundary made⟩

def cell (anchor u : CivilDate) : ℤ :=
  monthDistance anchor u - if u.day < min anchor.day (monthDays u.year u.month) then 1 else 0

theorem Boundary.le_iff {anchor b u : CivilDate} (is : Boundary anchor months b) : b ≤ u ↔ months ≤ cell anchor u := by
  have month := is.month
  have day := is.day
  have validB := b.valid
  have validU := u.valid
  have shortB := monthDays_pos b.year b.month
  have shortU := monthDays_pos u.year u.month
  rw [CivilDate.le_iff_index, CivilDate.index, CivilDate.index, cell, monthDistance]
  by_cases same : b.year * 12 + b.month = u.year * 12 + u.month
  · have year : b.year = u.year := by omega
    have sameMonth : b.month = u.month := by omega
    rw [year, sameMonth] at day
    split_ifs with early
    · omega
    · omega
  · split_ifs with early
    · omega
    · omega

theorem Boundary.cell_eq {anchor b : CivilDate} (is : Boundary anchor months b) : cell anchor b = months := by
  have month := is.month
  have day := is.day
  rw [cell, monthDistance, if_neg (by omega)]
  omega

theorem boundary_anchor (anchor : CivilDate) : Boundary anchor 0 anchor where
  month := by omega
  day := by
    have valid := anchor.valid
    omega

theorem cell_nonneg {anchor u : CivilDate} (le : anchor ≤ u) : 0 ≤ cell anchor u := (boundary_anchor anchor).le_iff.mp le

theorem cell_le_distance (anchor u : CivilDate) : cell anchor u ≤ monthDistance anchor u ∧ monthDistance anchor u ≤ cell anchor u + 1 := by
  rw [cell]
  split_ifs <;> omega

theorem monthDistance_mono (anchor : CivilDate) {a b : CivilDate} (le : a ≤ b) : monthDistance anchor a ≤ monthDistance anchor b := by
  rw [CivilDate.le_iff_index, CivilDate.index, CivilDate.index] at le
  have validA := a.valid
  have validB := b.valid
  have shortA := monthDays_pos a.year a.month
  have shortB := monthDays_pos b.year b.month
  rw [monthDistance, monthDistance]
  omega

/-! ## Periods -/

theorem anchoredMonth_spec {start target : CivilDate} (le : start ≤ target) :
    ∃ n b, anchoredMonth start target = some (n, b) ∧ (n : ℤ) = cell start target ∧ Boundary start (cell start target) b := by
  have nonneg := cell_nonneg le
  obtain ⟨atMost, _⟩ := cell_le_distance start target
  have distance : ((target.year * 12 + target.month - (start.year * 12 + start.month) : ℕ) : ℤ) = monthDistance start target := by
    rw [monthDistance] at atMost ⊢
    omega
  obtain ⟨b, made, is⟩ := addMonths_of_le start target (target.year * 12 + target.month - (start.year * 12 + start.month))
    (by rw [monthDistance] at distance; omega)
  rw [distance] at is
  simp only [anchoredMonth, Option.bind_eq_bind, made, Option.bind_some, Option.pure_def]
  by_cases later : target < b
  · have step : cell start target = monthDistance start target - 1 := by
      have before : ¬ monthDistance start target ≤ cell start target := fun ahead => absurd (is.le_iff.mpr ahead) (not_le.mpr later)
      omega
    have earlier : ((target.year * 12 + target.month - (start.year * 12 + start.month) - 1 : ℕ) : ℤ) = cell start target := by omega
    obtain ⟨c, made', is'⟩ := addMonths_of_le start target (target.year * 12 + target.month - (start.year * 12 + start.month) - 1)
      (by rw [monthDistance] at distance; omega)
    rw [earlier] at is'
    rw [if_pos later, made']
    exact ⟨_, c, rfl, earlier, is'⟩
  · have here : cell start target = monthDistance start target := by
      have ahead := is.le_iff.mp (not_lt.mp later)
      omega
    rw [if_neg later, made]
    exact ⟨_, b, rfl, by omega, here ▸ is⟩

theorem periodEndAfter_spec {start target : CivilDate} {n : ℕ} (stop : CivilDate) (here : (n : ℤ) = cell start target) :
    ∃ e, periodEndAfter start stop n = some e ∧ e ≤ stop ∧
      (e = stop ∨ Boundary start (cell start target + 1) e) ∧ ∀ u, u < stop → (u < e ↔ cell start u ≤ cell start target) := by
  rw [← here]
  unfold periodEndAfter
  by_cases last : stop.year * 12 + stop.month < n + 1 + (start.year * 12 + start.month)
  · rw [if_pos last]
    refine ⟨stop, rfl, le_rfl, .inl rfl, fun u before => ⟨fun _ => ?_, fun _ => before⟩⟩
    have mono := monthDistance_mono start before.le
    have atMost := (cell_le_distance start u).1
    rw [monthDistance, monthDistance] at mono
    rw [monthDistance] at atMost
    omega
  · rw [if_neg last]
    obtain ⟨next, made, is⟩ := addMonths_of_le start stop (n + 1) (by omega)
    rw [Nat.cast_succ] at is
    rw [made, Option.map_some]
    refine ⟨min next stop, rfl, min_le_right next stop, ?_, fun u before => ?_⟩
    · rcases le_total next stop with early | late
      · exact .inr (by rwa [min_eq_left early])
      · exact .inl (min_eq_right late)
    · have bound : u < next ↔ cell start u ≤ n := by
        rw [← not_le, is.le_iff]
        omega
      rw [lt_min_iff, bound]
      exact and_iff_left before

/-- The period of a date: its boundaries, and the dates of the term before its end. -/
structure IsPeriod (start stop target : CivilDate) (p : CivilDate × CivilDate) : Prop where
  begins : Boundary start (cell start target) p.1
  within : p.2 ≤ stop
  ends : p.2 = stop ∨ Boundary start (cell start target + 1) p.2
  before : ∀ u, u < stop → (u < p.2 ↔ cell start u ≤ cell start target)

theorem period_exists (le : subscription.currentPeriodStart ≤ target)
    (lt : target < subscription.currentPeriodEnd) : ∃ p, aiCreditPeriodForDate subscription target = some (some p) ∧
      IsPeriod subscription.currentPeriodStart subscription.currentPeriodEnd target p := by
  obtain ⟨n, b, found, here, is⟩ := anchoredMonth_spec le
  obtain ⟨e, ended, within, bound, before⟩ := periodEndAfter_spec subscription.currentPeriodEnd here
  refine ⟨(b, e), ?_, is, within, bound, before⟩
  rw [aiCreditPeriodForDate_eq le lt, found, Option.bind_some, ended, Option.map_some]

variable {p : CivilDate × CivilDate}

theorem period_inside
    (found : aiCreditPeriodForDate subscription target = some (some p)) :
    subscription.currentPeriodStart ≤ target ∧ target < subscription.currentPeriodEnd := by
  by_cases outside : target < subscription.currentPeriodStart ∨ subscription.currentPeriodEnd ≤ target
  · rw [aiCreditPeriodForDate, if_pos outside] at found
    cases found
  · rw [not_or, not_lt, not_le] at outside
    exact outside

theorem period_spec
    (found : aiCreditPeriodForDate subscription target = some (some p)) :
    IsPeriod subscription.currentPeriodStart subscription.currentPeriodEnd target p := by
  obtain ⟨le, lt⟩ := period_inside found
  obtain ⟨q, found', is⟩ := period_exists le lt
  obtain rfl := Option.some.inj (Option.some.inj (found.symm.trans found'))
  exact is

theorem period_around
    (found : aiCreditPeriodForDate subscription target = some (some p)) :
    subscription.currentPeriodStart ≤ p.1 ∧ p.1 ≤ target ∧ target < p.2 := by
  obtain ⟨le, lt⟩ := period_inside found
  have is := period_spec found
  refine ⟨?_, is.begins.le_iff.mpr le_rfl, (is.before target lt).mpr le_rfl⟩
  rw [(boundary_anchor subscription.currentPeriodStart).le_iff, is.begins.cell_eq]
  exact cell_nonneg le

theorem period_of_cell {t u : CivilDate}
    (found : aiCreditPeriodForDate subscription t = some (some p)) (le : subscription.currentPeriodStart ≤ u)
    (lt : u < subscription.currentPeriodEnd) (same : cell subscription.currentPeriodStart u = cell subscription.currentPeriodStart t) :
    aiCreditPeriodForDate subscription u = some (some p) := by
  obtain ⟨leT, ltT⟩ := period_inside found
  obtain ⟨n, b, first, _, is⟩ := anchoredMonth_spec leT
  obtain ⟨m, c, second, here', is'⟩ := anchoredMonth_spec le
  rw [same] at here' is'
  obtain rfl := is.unique is'
  obtain rfl : n = m := by omega
  rw [aiCreditPeriodForDate_eq leT ltT, first] at found
  rw [aiCreditPeriodForDate_eq le lt, second]
  exact found

section Runs

def residualTerm : Subscription where
  pk := 1
  plan := { pk := 1, slug := "pro", name := "Pro", limitAiCredits := none }
  status := .active
  billingPeriod := .monthly
  currentPeriodStart := ⟨2024, 1, 31, by decide⟩
  currentPeriodEnd := ⟨2024, 4, 15, by decide⟩
  aiPeriodStart := none
  aiPeriodEnd := none
  cancelledAt := none
  billingVersion := 0

example : (aiCreditPeriodForDate residualTerm ⟨2024, 4, 10, by decide⟩).map (Option.map fun p => (p.1.text, p.2.text)) =
    some (some ("2024-03-31", "2024-04-15")) := by decide +kernel

end Runs

end MapBackend.Billing
