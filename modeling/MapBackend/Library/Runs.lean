import Mathlib.Data.List.Basic
import Mathlib.Tactic.Common

/-!
Finite runs of a deterministic transition function.
-/

namespace MapBackend.Library

section Runs

variable {S A : Type*} (next : S → A → S)

def run (s : S) (actions : List A) : S := actions.foldl next s

@[simp] theorem run_nil (s : S) : run next s [] = s := rfl

@[simp] theorem run_cons (s : S) (a : A) (rest : List A) :
    run next s (a :: rest) = run next (next s a) rest := rfl

theorem run_append (s : S) (first second : List A) :
    run next s (first ++ second) = run next (run next s first) second := by
  simp [run]

/-- Every action of the run is performed in a state where the condition allows it. -/
def Meets (cond : S → A → Prop) : S → List A → Prop
  | _, [] => True
  | s, a :: rest => cond s a ∧ Meets cond (next s a) rest

@[simp] theorem meets_nil (cond : S → A → Prop) (s : S) : Meets next cond s [] := trivial

@[simp] theorem meets_cons (cond : S → A → Prop) (s : S) (a : A) (rest : List A) :
    Meets next cond s (a :: rest) ↔ cond s a ∧ Meets next cond (next s a) rest := Iff.rfl

theorem meets_append (cond : S → A → Prop) (s : S) (first second : List A) :
    Meets next cond s (first ++ second) ↔
      Meets next cond s first ∧ Meets next cond (run next s first) second := by
  induction first generalizing s with
  | nil => simp
  | cons _ _ ih => simp [ih, and_assoc]

theorem meets_of_forall {cond : S → A → Prop} (always : ∀ s a, cond s a) (s : S) (actions : List A) :
    Meets next cond s actions := by
  induction actions generalizing s with
  | nil => trivial
  | cons a _ ih => exact ⟨always s a, ih _⟩

theorem meets_congr {cond other : S → A → Prop} (same : ∀ s a, cond s a ↔ other s a) (s : S) (actions : List A) :
    Meets next cond s actions ↔ Meets next other s actions := by
  induction actions generalizing s with
  | nil => exact Iff.rfl
  | cons a _ ih => exact and_congr (same s a) (ih _)

theorem meets_congr_on {cond other : S → A → Prop} {allowed : A → Prop} {inv : S → Prop}
    (keeps : ∀ s a, inv s → allowed a → inv (next s a)) (same : ∀ s a, inv s → allowed a → (cond s a ↔ other s a)) {s : S} (start : inv s)
    {actions : List A} (all : ∀ a ∈ actions, allowed a) : Meets next cond s actions ↔ Meets next other s actions := by
  induction actions generalizing s with
  | nil => exact Iff.rfl
  | cons a _ ih =>
    have first : allowed a := all a List.mem_cons_self
    exact and_congr (same s a start first) (ih (keeps s a start first) fun b mem => all b (List.mem_cons_of_mem a mem))

theorem meets_of_mem {allowed : A → Prop} {actions : List A} (all : ∀ a ∈ actions, allowed a) (s : S) :
    Meets next (fun _ a => allowed a) s actions := by
  induction actions generalizing s with
  | nil => trivial
  | cons a _ ih => exact ⟨all a (List.mem_cons_self), ih (fun b mem => all b (List.mem_cons_of_mem a mem)) _⟩

instance decidableMeets (cond : S → A → Prop) [∀ s a, Decidable (cond s a)] :
    (s : S) → (actions : List A) → Decidable (Meets next cond s actions)
  | _, [] => .isTrue trivial
  | s, a :: rest =>
    have := decidableMeets cond (next s a) rest
    inferInstanceAs (Decidable (cond s a ∧ Meets next cond (next s a) rest))

theorem run_invariant {cond : S → A → Prop} {inv : S → Prop}
    (step : ∀ s a, inv s → cond s a → inv (next s a)) {s : S} (start : inv s) {actions : List A}
    (allowed : Meets next cond s actions) : inv (run next s actions) := by
  induction actions generalizing s with
  | nil => exact start
  | cons a _ ih => exact ih (step s a start allowed.1) allowed.2

theorem run_always {inv : S → Prop} (step : ∀ s a, inv s → inv (next s a)) {s : S} (start : inv s)
    (actions : List A) : inv (run next s actions) :=
  have allowed : Meets next (fun _ _ => True) s actions :=
    meets_of_forall next (fun _ _ => trivial) s actions
  run_invariant next (fun s a held _ => step s a held) start allowed

theorem run_relates {rel : S → S → Prop} (same : ∀ s, rel s s)
    (chain : ∀ a b c, rel a b → rel b c → rel a c) {inv : S → Prop}
    (keeps : ∀ s a, inv s → inv (next s a)) (step : ∀ s a, inv s → rel s (next s a))
    {s : S} (start : inv s) (actions : List A) : rel s (run next s actions) := by
  induction actions generalizing s with
  | nil => exact same s
  | cons a _ ih => exact chain _ _ _ (step s a start) (ih (keeps s a start))

end Runs

end MapBackend.Library
