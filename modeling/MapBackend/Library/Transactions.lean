import Mathlib.Tactic.Common

/-!
Database transactions.
-/

namespace MapBackend.Library

variable {S E : Type*} {R T : Type _}

/-- The state after a transaction: what it committed, or the old state when it raised. -/
def commit (s : S) (outcome : Except E (S × R)) : S :=
  match outcome with
  | .ok (next, _) => next
  | .error _ => s

@[simp] theorem commit_ok (s next : S) (r : R) : commit (E := E) s (.ok (next, r)) = next := rfl

@[simp] theorem commit_error (s : S) (e : E) : commit (R := R) s (.error e) = s := rfl

theorem commit_preserves (P : S → Prop) (s : S) (outcome : Except E (S × R)) (before : P s)
    (committed : ∀ next r, outcome = .ok (next, r) → P next) : P (commit s outcome) := by
  cases h : outcome with
  | error => exact before
  | ok pair => exact committed pair.1 pair.2 h

theorem commit_relates (rel : S → S → Prop) (s : S) (outcome : Except E (S × R)) (same : rel s s)
    (committed : ∀ next r, outcome = .ok (next, r) → rel s next) : rel s (commit s outcome) := by
  cases h : outcome with
  | error => exact same
  | ok pair => exact committed pair.1 pair.2 h

theorem bind_ok {x : Except E R} {f : R → Except E T} {t : T} :
    (x >>= f) = .ok t ↔ ∃ r, x = .ok r ∧ f r = .ok t := by
  cases x with
  | error => simp [bind, Except.bind]
  | ok => simp [bind, Except.bind]

theorem pure_ok {r t : R} : (pure r : Except E R) = .ok t ↔ r = t := by
  simp [pure, Except.pure]

def raiseIf (c : Prop) [Decidable c] (e : E) : Except E Unit := if c then .error e else .ok ()

theorem raiseIf_ok {c : Prop} [Decidable c] {e : E} {u : Unit} : raiseIf c e = .ok u ↔ ¬ c := by
  by_cases h : c <;> simp [raiseIf, h]

def orRaise (e : E) : Option R → Except E R
  | none => .error e
  | some r => .ok r

theorem orRaise_ok {e : E} {x : Option R} {r : R} : orRaise e x = .ok r ↔ x = some r := by
  cases x <;> simp [orRaise]

theorem ok_of_toOption {x : Except E R} {r : R} (is : x.toOption = some r) : x = .ok r := by
  cases x with
  | error => cases is
  | ok => exact congrArg Except.ok (Option.some.inj is)

end MapBackend.Library
