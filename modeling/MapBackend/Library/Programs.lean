import Mathlib.Data.List.Basic
import Mathlib.Tactic.Common

/-!
Programs whose state outlives a failure: what they raise can be caught, and what they changed before
stays.
-/

namespace MapBackend.Library.Program

variable {ε σ : Type} {α β : Type}

def after (p : EStateM ε σ α) (s : σ) : σ :=
  match p s with
  | .ok _ t => t
  | .error _ t => t

def attempt (p : EStateM ε σ α) : EStateM ε σ (Except ε α) := fun s =>
  match p s with
  | .ok a t => .ok (.ok a) t
  | .error e t => .ok (.error e) t

def lift (x : Except ε α) : EStateM ε σ α := fun s =>
  match x with
  | .ok a => .ok a s
  | .error e => .error e s

/-! ## Results -/

theorem bind_ok {p : EStateM ε σ α} {f : α → EStateM ε σ β} {s t : σ} {b : β} :
    (p >>= f) s = .ok b t ↔ ∃ a m, p s = .ok a m ∧ f a m = .ok b t := by
  change EStateM.bind p f s = .ok b t ↔ _
  cases h : p s <;> simp [EStateM.bind, h]

theorem pure_ok {a b : α} {s t : σ} : (pure a : EStateM ε σ α) s = .ok b t ↔ a = b ∧ s = t := by
  change EStateM.Result.ok a s = .ok b t ↔ _
  simp

theorem throw_ok {e : ε} {b : α} {s t : σ} : (throw e : EStateM ε σ α) s = .ok b t ↔ False := by
  change EStateM.Result.error e s = .ok b t ↔ _
  simp

theorem lift_ok {x : Except ε α} {b : α} {s t : σ} : (lift x : EStateM ε σ α) s = .ok b t ↔ x = .ok b ∧ s = t := by
  cases x <;> simp [lift]

theorem attempt_ok {p : EStateM ε σ α} {a : α} {s t : σ} : attempt p s = .ok (.ok a) t ↔ p s = .ok a t := by
  cases h : p s <;> simp [attempt, h]

theorem attempt_error {p : EStateM ε σ α} {e : ε} {s t : σ} : attempt p s = .ok (.error e) t ↔ p s = .error e t := by
  cases h : p s <;> simp [attempt, h]

/-! ## Evaluation -/

theorem get_bind {s : σ} (f : σ → EStateM ε σ β) : ((get : EStateM ε σ σ) >>= f) s = f s s := rfl

theorem set_bind {s t : σ} (f : PUnit → EStateM ε σ β) : ((set t : EStateM ε σ PUnit) >>= f) s = f ⟨⟩ t := rfl

theorem bind_of_ok {p : EStateM ε σ α} {s t : σ} {a : α} (h : p s = .ok a t) (f : α → EStateM ε σ β) : (p >>= f) s = f a t := by
  change EStateM.bind p f s = _
  rw [EStateM.bind, h]

theorem bind_of_error {p : EStateM ε σ α} {s t : σ} {e : ε} (h : p s = .error e t) (f : α → EStateM ε σ β) :
    (p >>= f) s = .error e t := by
  change EStateM.bind p f s = _
  rw [EStateM.bind, h]

theorem after_ok {p : EStateM ε σ α} {s t : σ} {a : α} (h : p s = .ok a t) : after p s = t := by
  rw [after, h]

theorem after_error {p : EStateM ε σ α} {s t : σ} {e : ε} (h : p s = .error e t) : after p s = t := by
  rw [after, h]

theorem after_bind_ok {p : EStateM ε σ α} {f : α → EStateM ε σ β} {s t : σ} {a : α} (h : p s = .ok a t) :
    after (p >>= f) s = after (f a) t := by
  change after (EStateM.bind p f) s = _
  simp [after, EStateM.bind, h]

theorem after_bind_error {p : EStateM ε σ α} {f : α → EStateM ε σ β} {s t : σ} {e : ε} (h : p s = .error e t) :
    after (p >>= f) s = t := by
  change after (EStateM.bind p f) s = _
  simp [after, EStateM.bind, h]

/-! ## Relations of the states before and after -/

/-- The program leads from every state to a related one, whether it returns or raises. -/
def Moves (rel : σ → σ → Prop) (p : EStateM ε σ α) : Prop := ∀ s, rel s (after p s)

section Rules

variable {rel : σ → σ → Prop} (same : ∀ s, rel s s) (chain : ∀ a b c, rel a b → rel b c → rel a c)

include same in
theorem Moves.pure (a : α) : Moves rel (pure a : EStateM ε σ α) := fun s => same s

include same in
theorem Moves.throw (e : ε) : Moves rel (throw e : EStateM ε σ α) := fun s => same s

include same in
theorem Moves.get : Moves rel (get : EStateM ε σ σ) := fun s => same s

include same in
theorem Moves.lift (x : Except ε α) : Moves rel (lift x : EStateM ε σ α) := by
  intro s
  cases x with
  | ok => exact same s
  | error => exact same s

include chain in
theorem Moves.bind {p : EStateM ε σ α} {f : α → EStateM ε σ β} (first : Moves rel p) (next : ∀ a, Moves rel (f a)) :
    Moves rel (p >>= f) := by
  intro s
  have moved := first s
  cases h : p s with
  | ok a t =>
    rw [after_ok h] at moved
    rw [after_bind_ok h]
    exact chain s t _ moved (next a t)
  | error =>
    rw [after_error h] at moved
    rw [after_bind_error h]
    exact moved

theorem Moves.attempt {p : EStateM ε σ α} (moves : Moves rel p) : Moves rel (attempt p) := by
  intro s
  have moved := moves s
  cases h : p s with
  | ok => simpa [after, Program.attempt, h] using moved
  | error => simpa [after, Program.attempt, h] using moved

include same chain in
theorem Moves.foldlM {f : β → α → EStateM ε σ β} (step : ∀ b a, Moves rel (f b a)) (b : β) (items : List α) :
    Moves rel (items.foldlM f b) := by
  induction items generalizing b with
  | nil => exact Moves.pure same b
  | cons a _ ih =>
    rw [List.foldlM_cons]
    exact Moves.bind chain (step b a) fun next => ih next

include same chain in
theorem Moves.mapM {f : α → EStateM ε σ β} (each : ∀ a, Moves rel (f a)) (items : List α) : Moves rel (items.mapM f) := by
  induction items with
  | nil =>
    rw [List.mapM_nil]
    exact Moves.pure same []
  | cons a _ ih =>
    rw [List.mapM_cons]
    exact Moves.bind chain (each a) fun b => Moves.bind chain ih fun others => Moves.pure same (b :: others)

end Rules

theorem Moves.modify {rel : σ → σ → Prop} {f : σ → σ} (step : ∀ s, rel s (f s)) : Moves rel (modify f : EStateM ε σ PUnit) :=
  fun s => step s

theorem Moves.weaken {rel other : σ → σ → Prop} {p : EStateM ε σ α} (moves : Moves rel p) (weaker : ∀ s t, rel s t → other s t) :
    Moves other p := fun s => weaker s _ (moves s)

theorem Moves.ok {rel : σ → σ → Prop} {p : EStateM ε σ α} (moves : Moves rel p) {s t : σ} {a : α} (h : p s = .ok a t) :
    rel s t := after_ok h ▸ moves s

theorem Moves.error {rel : σ → σ → Prop} {p : EStateM ε σ α} (moves : Moves rel p) {s t : σ} {e : ε}
    (h : p s = .error e t) : rel s t := after_error h ▸ moves s

/-! ## Lists -/

/-- The results of a program for each item of a list, with the states in between. -/
inductive Threads (step : σ → α → β → σ → Prop) : σ → List α → List β → σ → Prop
  | nil (s : σ) : Threads step s [] [] s
  | cons {s m t : σ} {a : α} {b : β} {items : List α} {results : List β} (first : step s a b m)
      (rest : Threads step m items results t) : Threads step s (a :: items) (b :: results) t

theorem threads_of_mapM {f : α → EStateM ε σ β} {items : List α} {results : List β} {s t : σ}
    (h : items.mapM f s = .ok results t) : Threads (fun s a b t => f a s = .ok b t) s items results t := by
  induction items generalizing s results with
  | nil =>
    rw [List.mapM_nil, pure_ok] at h
    obtain ⟨rfl, rfl⟩ := h
    exact .nil s
  | cons _ _ ih =>
    rw [List.mapM_cons, bind_ok] at h
    obtain ⟨b, m, first, more⟩ := h
    obtain ⟨_, n, tail, last⟩ := bind_ok.mp more
    obtain ⟨rfl, rfl⟩ := pure_ok.mp last
    exact .cons first (ih tail)

theorem mapM_returns {f : α → EStateM ε σ β} {inv : List α → σ → Prop}
    (step : ∀ a rest s, inv (a :: rest) s → ∃ b t, f a s = .ok b t ∧ inv rest t) {items : List α} {s : σ} (start : inv items s) :
    ∃ results t, items.mapM f s = .ok results t ∧ inv [] t := by
  induction items generalizing s with
  | nil => exact ⟨[], s, by rw [List.mapM_nil]; rfl, start⟩
  | cons a rest ih =>
    obtain ⟨b, m, first, kept⟩ := step a rest s start
    obtain ⟨others, t, last, done⟩ := ih kept
    refine ⟨b :: others, t, ?_, done⟩
    rw [List.mapM_cons, bind_of_ok first, bind_of_ok last]
    rfl

theorem length_of_mapM {f : α → EStateM ε σ β} {items : List α} {results : List β} {s t : σ}
    (h : items.mapM f s = .ok results t) : results.length = items.length := by
  have threads := threads_of_mapM h
  clear h
  induction threads with
  | nil => rfl
  | cons _ _ ih => rw [List.length_cons, List.length_cons, ih]

theorem foldlM_keeps {f : β → α → EStateM ε σ β} {good : β → Prop}
    (step : ∀ b a s c t, good b → f b a s = .ok c t → good c) {items : List α} {b c : β} {s t : σ}
    (start : good b) (h : items.foldlM f b s = .ok c t) : good c := by
  induction items generalizing b s with
  | nil =>
    rw [List.foldlM_nil, pure_ok] at h
    exact h.1 ▸ start
  | cons a _ ih =>
    rw [List.foldlM_cons, bind_ok] at h
    obtain ⟨m, u, first, more⟩ := h
    exact ih (step b a s m u start first) more

end MapBackend.Library.Program
