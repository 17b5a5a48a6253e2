import MapBackend.Library.Programs

/-!
Walks of a forest with an explicit stack.
-/

namespace MapBackend.Library.StackWalk
open MapBackend.Library.Program

variable {ε σ ν : Type} (visit : ν → EStateM ε σ (List ν))

/-- A walk of at most so many visits. One more raises what its visit raises, or `spent`. -/
def walk (spent : ε) : ℕ → List ν → EStateM ε σ Unit
  | _, [] => pure ()
  | 0, node :: _ => do
    let _ ← visit node
    throw spent
  | room + 1, node :: rest => do
    let below ← visit node
    walk spent room (below ++ rest)

inductive Traverses : σ → List ν → σ → Prop
  | nil (s : σ) : Traverses s [] s
  | cons {s m u t : σ} {node : ν} {below rest : List ν} (visited : visit node s = .ok below m)
      (inside : Traverses m below u) (outside : Traverses u rest t) : Traverses s (node :: rest) t

variable {visit}

theorem Traverses.split {s t : σ} {first second : List ν} (h : Traverses visit s (first ++ second) t) :
    ∃ m, Traverses visit s first m ∧ Traverses visit m second t := by
  induction first generalizing s with
  | nil => exact ⟨s, .nil s, h⟩
  | cons _ _ ih =>
    cases h with
    | cons visited inside outside =>
      obtain ⟨m, before, behind⟩ := ih outside
      exact ⟨m, .cons visited inside before, behind⟩

theorem Traverses.append {s m t : σ} {first second : List ν} (before : Traverses visit s first m)
    (behind : Traverses visit m second t) : Traverses visit s (first ++ second) t := by
  induction before with
  | nil => exact behind
  | cons visited inside _ _ ih => exact .cons visited inside (ih behind)

theorem traverses_of_walk {spent : ε} {room : ℕ} {nodes : List ν} {s t : σ}
    (h : walk visit spent room nodes s = .ok () t) : Traverses visit s nodes t := by
  induction room generalizing nodes s with
  | zero =>
    cases nodes with
    | nil =>
      obtain ⟨-, rfl⟩ := pure_ok.mp h
      exact .nil s
    | cons =>
      obtain ⟨below, m, -, stuck⟩ := bind_ok.mp h
      exact absurd stuck (by simp [throw_ok])
  | succ _ ih =>
    cases nodes with
    | nil =>
      obtain ⟨-, rfl⟩ := pure_ok.mp h
      exact .nil s
    | cons =>
      obtain ⟨below, m, visited, more⟩ := bind_ok.mp h
      obtain ⟨u, inside, outside⟩ := (ih more).split
      exact .cons visited inside outside

section Bounded

variable {left : σ → ℕ} (uses : ∀ node s below t, visit node s = .ok below t → left t + 1 ≤ left s)

include uses in
theorem walk_of_traverses {spent : ε} {room : ℕ} {nodes : List ν} {s t : σ} (h : Traverses visit s nodes t)
    (enough : left s ≤ room) : walk visit spent room nodes s = .ok () t := by
  induction room generalizing nodes s with
  | zero =>
    cases h with
    | nil => exact pure_ok.mpr ⟨rfl, rfl⟩
    | cons visited => exact absurd (uses _ _ _ _ visited) (by omega)
  | succ _ ih =>
    cases h with
    | nil => exact pure_ok.mpr ⟨rfl, rfl⟩
    | cons visited inside outside =>
      have used := uses _ _ _ _ visited
      exact bind_ok.mpr ⟨_, _, visited, ih (inside.append outside) (by omega)⟩

end Bounded

theorem walk_moves {rel : σ → σ → Prop} (same : ∀ s, rel s s) (chain : ∀ a b c, rel a b → rel b c → rel a c)
    (each : ∀ node, Moves rel (visit node)) (spent : ε) (room : ℕ) (nodes : List ν) :
    Moves rel (walk visit spent room nodes) := by
  induction room generalizing nodes with
  | zero =>
    cases nodes with
    | nil => exact Moves.pure same ()
    | cons node => exact Moves.bind chain (each node) fun _ => Moves.throw same spent
  | succ _ ih =>
    cases nodes with
    | nil => exact Moves.pure same ()
    | cons node rest => exact Moves.bind chain (each node) fun below => ih (below ++ rest)

end MapBackend.Library.StackWalk
