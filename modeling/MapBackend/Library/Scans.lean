import Mathlib.Data.List.Nodup
import Mathlib.Data.List.Perm.Subperm

/-!
A queue that is worked off by bounded scans.
-/

namespace MapBackend.Library

section Traces

variable {S A : Type*} (next : S → A → S)

def trace (s : S) (actions : ℕ → A) : ℕ → S
  | 0 => s
  | t + 1 => next (trace s actions t) (actions t)

variable {next}

theorem trace_always {inv : S → Prop} {s : S} {actions : ℕ → A} (start : inv s)
    (step : ∀ t, inv (trace next s actions t) → inv (next (trace next s actions t) (actions t))) (t : ℕ) :
    inv (trace next s actions t) := by
  induction t with
  | zero => exact start
  | succ t ih => exact step t ih

theorem trace_relates {rel : S → S → Prop} {s : S} {actions : ℕ → A} (same : ∀ a, rel a a)
    (chain : ∀ a b c, rel a b → rel b c → rel a c)
    (step : ∀ t, rel (trace next s actions t) (trace next s actions (t + 1))) {t u : ℕ} (later : t ≤ u) :
    rel (trace next s actions t) (trace next s actions u) := by
  induction later with
  | refl => exact same _
  | step _ ih => exact chain _ _ _ ih (step _)

theorem trace_fixed {s : S} {actions : ℕ → A} (fixed : ∀ t, next s (actions t) = s) (t : ℕ) :
    trace next s actions t = s := by
  induction t with
  | zero => rfl
  | succ t ih => exact (congrArg (next · (actions t)) ih).trans (fixed t)

end Traces

section Windows

variable {K : Type*} {waits : K → Bool} {before after : List K} {x : K} {n : ℕ}

theorem mem_window (fresh : x ∉ before) (waiting : waits x = true) :
    x ∈ ((before ++ x :: after).filter waits).take n ↔ (before.filter waits).length < n := by
  rw [List.filter_append, List.filter_cons_of_pos waiting, List.take_append, List.mem_append]
  constructor
  · intro taken
    rcases taken with early | late
    · exact absurd (List.mem_filter.mp (List.mem_of_mem_take early)).1 fresh
    · by_contra full
      rw [Nat.sub_eq_zero_of_le (Nat.le_of_not_lt full)] at late
      cases late
  · intro room
    obtain ⟨k, rest⟩ := Nat.exists_eq_succ_of_ne_zero (Nat.sub_ne_zero_of_lt room)
    rw [rest]
    exact .inr List.mem_cons_self

theorem takeWhile_before [DecidableEq K] (fresh : x ∉ before) :
    (before ++ x :: after).takeWhile (fun k => k != x) = before := by
  have others : ∀ k ∈ before, (k != x) = true := fun k mem => bne_iff_ne.mpr fun same => fresh (same ▸ mem)
  rw [List.takeWhile_append_of_pos others]
  simp

end Windows

section Blocking

variable {K : Type*} {waits : ℕ → K → Bool} {succeeds : ℕ → K → Prop} {older : List K} {limit : ℕ}

def KeepsFailing (succeeds : ℕ → K → Prop) (t : ℕ) (k : K) : Prop := ∀ u, t ≤ u → ¬ succeeds u k

theorem waits_of_failing (leaves : ∀ t k, waits t k = true → waits (t + 1) k = false → succeeds t k) {t u : ℕ} {k : K}
    (waiting : waits t k = true) (failing : KeepsFailing succeeds t k) (later : t ≤ u) : waits u k = true := by
  induction later with
  | refl => exact waiting
  | @step u later ih =>
    cases still : waits (u + 1) k with
    | true => rfl
    | false => exact absurd (leaves u k ih still) (failing u later)

theorem eventually_settled (gone : ∀ t k, waits t k = true → waits (t + 1) k = false → ∀ u, t < u → waits u k = false)
    (older : List K) (t : ℕ) : ∃ N, t ≤ N ∧ ∀ u, N ≤ u → ∀ k ∈ older, waits u k = waits N k := by
  induction older with
  | nil => exact ⟨t, Nat.le_refl t, fun _ _ _ none_there => nomatch none_there⟩
  | cons first _ ih =>
    obtain ⟨N, _, settled⟩ := ih
    -- the first entry changes at most twice: it starts to wait and it leaves
    have one : ∃ M, N ≤ M ∧ ∀ u, M ≤ u → waits u first = waits M first := by
      by_cases leaves : ∃ u, N ≤ u ∧ waits u first = true ∧ waits (u + 1) first = false
      · obtain ⟨u, after, waiting, left⟩ := leaves
        refine ⟨u + 1, by omega, fun v beyond => ?_⟩
        rw [left, gone u first waiting left v (by omega)]
      · by_cases starts : ∃ u, N ≤ u ∧ waits u first = true
        · obtain ⟨u, after, waiting⟩ := starts
          refine ⟨u, after, fun v beyond => ?_⟩
          rw [waiting]
          induction beyond with
          | refl => exact waiting
          | @step v beyond still =>
            cases later_on : waits (v + 1) first with
            | true => rfl
            | false => exact absurd ⟨v, Nat.le_trans after beyond, still, later_on⟩ leaves
        · have never : ∀ u, N ≤ u → waits u first = false := by
            intro u after
            cases waiting : waits u first with
            | false => rfl
            | true => exact absurd ⟨u, after, waiting⟩ starts
          exact ⟨N, Nat.le_refl N, fun u after => (never u after).trans (never N (Nat.le_refl N)).symm⟩
    obtain ⟨M, beyond, steady⟩ := one
    refine ⟨M, by omega, fun u after k mem => ?_⟩
    rcases List.mem_cons.mp mem with rfl | mem
    · exact steady u after
    · exact (settled u (by omega) k mem).trans (settled M beyond k mem).symm

open Classical in
noncomputable def blockers (waits : ℕ → K → Bool) (succeeds : ℕ → K → Prop) (older : List K) (t : ℕ) : List K :=
  older.filter fun k => waits t k && decide (KeepsFailing succeeds t k)

theorem mem_blockers {t : ℕ} {k : K} :
    k ∈ blockers waits succeeds older t ↔ k ∈ older ∧ waits t k = true ∧ KeepsFailing succeeds t k := by
  simp [blockers]

theorem full_of_blockers (leaves : ∀ t k, waits t k = true → waits (t + 1) k = false → succeeds t k) {t u : ℕ}
    (blocked : limit ≤ (blockers waits succeeds older t).length) (later : t ≤ u) :
    limit ≤ (older.filter (waits u)).length := by
  refine Nat.le_trans blocked (List.Sublist.length_le (List.monotone_filter_right older fun k stuck => ?_))
  simp only [Bool.and_eq_true, decide_eq_true_eq] at stuck
  exact waits_of_failing leaves stuck.1 stuck.2 later

theorem blockers_of_full {scans : ℕ → Prop} {t : ℕ} (distinct : older.Nodup)
    (gone : ∀ t k, waits t k = true → waits (t + 1) k = false → ∀ u, t < u → waits u k = false)
    (served : ∀ u k, t ≤ u → waits u k = true → succeeds u k →
      (scans u → k ∈ (older.filter (waits u)).take limit) → waits (u + 1) k = false)
    (recurs : ∀ t, ∃ u, t ≤ u ∧ scans u)
    (full : ∀ u, t ≤ u → scans u → limit ≤ (older.filter (waits u)).length) :
    ∃ N, t ≤ N ∧ limit ≤ (blockers waits succeeds older N).length := by
  obtain ⟨N, later, settled⟩ := eventually_settled gone older t
  obtain ⟨u, after, scan⟩ := recurs N
  have same (v : ℕ) (beyond : N ≤ v) : older.filter (waits v) = older.filter (waits N) :=
    List.filter_congr fun k mem => settled v beyond k mem
  have enough : limit ≤ (older.filter (waits N)).length := same u after ▸ full u (by omega) scan
  refine ⟨N, later, ?_⟩
  -- the entries that every later scan takes
  have taken : ((older.filter (waits N)).take limit).length = limit := List.length_take_of_le enough
  rw [← taken]
  refine (List.subperm_of_subset ?_ fun k mem => ?_).length_le
  · exact (List.take_sublist _ _).nodup (distinct.filter _)
  · obtain ⟨in_older, waiting⟩ := List.mem_filter.mp (List.mem_of_mem_take mem)
    refine mem_blockers.mpr ⟨in_older, waiting, fun v beyond works => ?_⟩
    have waits_on : waits v k = true := (settled v beyond k in_older).trans waiting
    have left := served v k (Nat.le_trans later beyond) waits_on works fun _ => same v beyond ▸ mem
    rw [settled (v + 1) (by omega) k in_older, waiting] at left
    cases left

end Blocking

end MapBackend.Library
