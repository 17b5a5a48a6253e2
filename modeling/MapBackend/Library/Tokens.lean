import MapBackend.Library.Workers

/-!
Random tokens of the workers on a shared store.
-/

namespace MapBackend.Library

section Tokens

variable {S W I E : Type*} {next : S → E → S} {advance : W → I → S → S × W} {token? : W → Option ℕ} {drawn : S → ℕ}

structure Crew.Tokens (token? : W → Option ℕ) (drawn : S → ℕ) (c : Crew S W) : Prop where
  below : ∀ w ∈ c.workers, ∀ token ∈ token? w, token < drawn c.store
  apart : ∀ (j k : ℕ) (v w : W), j ≠ k → c.workers[j]? = some v → c.workers[k]? = some w →
    ∀ token ∈ token? v, token? w ≠ some token

def Draws (token? : W → Option ℕ) (drawn : S → ℕ) (s : S) (w : W) (later : S) (w' : W) : Prop :=
  drawn s ≤ drawn later ∧
    (token? w' = none ∨ token? w' = token? w ∨ (token? w' = some (drawn s) ∧ drawn s < drawn later))

theorem Crew.Tokens.start {c : Crew S W} (tokens : c.Tokens token? drawn) {w : W} (idle : token? w = none) :
    Crew.Tokens token? drawn { c with workers := c.workers ++ [w] } := by
  have known {k : ℕ} {v : W} (at_k : (c.workers ++ [w])[k]? = some v) (holds : (token? v).isSome) : c.workers[k]? = some v := by
    by_cases old : k < c.workers.length
    · rwa [List.getElem?_append_left old] at at_k
    · rw [List.getElem?_append_right (Nat.le_of_not_lt old)] at at_k
      have same : v = w := List.mem_singleton.mp (List.mem_of_getElem? at_k)
      rw [same, idle] at holds
      cases holds
  refine ⟨fun v mem token held => ?_, fun j k v u other at_j at_k token held same => ?_⟩
  · rcases List.mem_append.mp mem with old | new
    · exact tokens.below v old token held
    · rw [List.mem_singleton.mp new, idle] at held
      cases held
  · have first := known at_j (Option.isSome_of_mem held)
    have second := known at_k (Option.isSome_of_mem same)
    exact tokens.apart j k v u other first second token held same

theorem Crew.Tokens.crash {c : Crew S W} (tokens : c.Tokens token? drawn) (k : ℕ) :
    Crew.Tokens token? drawn { c with workers := c.workers.eraseIdx k } := by
  refine ⟨fun v mem => tokens.below v (List.mem_of_mem_eraseIdx mem), fun i j v w other at_i at_j => ?_⟩
  rw [List.getElem?_eraseIdx] at at_i at_j
  split at at_i
  next before =>
    split at at_j
    next => exact tokens.apart i j v w other at_i at_j
    next => exact tokens.apart i (j + 1) v w (by omega) at_i at_j
  next after =>
    split at at_j
    next => exact tokens.apart (i + 1) j v w (by omega) at_i at_j
    next => exact tokens.apart (i + 1) (j + 1) v w (by omega) at_i at_j

theorem Crew.Tokens.move {c : Crew S W} (tokens : c.Tokens token? drawn) {k : ℕ} {w w' : W} {later : S}
    (found : c.workers[k]? = some w) (draws : Draws token? drawn c.store w later w') :
    Crew.Tokens token? drawn { store := later, workers := c.workers.set k w' } := by
  obtain ⟨grows, holds⟩ := draws
  have below {v : W} (mem : v ∈ c.workers) {token : ℕ} (held : token? v = some token) : token < drawn c.store :=
    tokens.below v mem token held
  -- The new token of the mover is its own or a fresh one, and no other worker has it.
  have mover {j : ℕ} {v : W} (other : j ≠ k) (at_j : c.workers[j]? = some v) {token : ℕ} (held : token? v = some token) :
      token? w' ≠ some token := by
    intro same
    rcases holds with none | kept | ⟨fresh, -⟩
    · exact absurd (none.symm.trans same) (by simp)
    · exact tokens.apart j k v w other at_j found token held (kept.symm.trans same)
    · have next : drawn c.store = token := Option.some.inj (fresh.symm.trans same)
      exact absurd (below (List.mem_of_getElem? at_j) held) (by omega)
  have known {j : ℕ} {v : W} (at_j : (c.workers.set k w')[j]? = some v) :
      (j = k ∧ v = w') ∨ (j ≠ k ∧ c.workers[j]? = some v) := by
    rw [List.getElem?_set] at at_j
    by_cases same : k = j
    · rw [if_pos same] at at_j
      split at at_j
      · exact .inl ⟨same.symm, (Option.some.inj at_j).symm⟩
      · cases at_j
    · rw [if_neg same] at at_j
      exact .inr ⟨Ne.symm same, at_j⟩
  refine ⟨fun v mem token held => ?_, fun i j v u other at_i at_j token held same => ?_⟩
  · obtain ⟨j, at_j⟩ := List.mem_iff_getElem?.mp mem
    rcases known at_j with ⟨-, rfl⟩ | ⟨-, old⟩
    · rcases holds with none | kept | ⟨fresh, more⟩
      · exact absurd (none ▸ held) (Option.not_mem_none token)
      · exact (below (List.mem_of_getElem? found) (kept.symm.trans held)).trans_le grows
      · have next : drawn c.store = token := Option.some.inj (fresh.symm.trans held)
        exact next ▸ more
    · exact (below (List.mem_of_getElem? old) held).trans_le grows
  · rcases known at_i with ⟨rfl, rfl⟩ | ⟨apart_i, old_i⟩
    · rcases known at_j with ⟨rfl, -⟩ | ⟨apart_j, old_j⟩
      · exact other rfl
      · exact mover apart_j old_j same held
    · rcases known at_j with ⟨rfl, rfl⟩ | ⟨-, old_j⟩
      · exact mover apart_i old_i held same
      · exact tokens.apart i j v u other old_i old_j token held same

theorem Crew.Tokens.act {N : Type*} {enter : N → W} {c : Crew S W} (tokens : c.Tokens token? drawn) (a : CrewAction N I E)
    (entered : ∀ entry, token? (enter entry) = none) (performed : ∀ e, drawn (next c.store e) = drawn c.store)
    (moved : ∀ (k : ℕ) (input : I) (w : W), c.workers[k]? = some w →
      Draws token? drawn c.store w (advance w input c.store).1 (advance w input c.store).2) :
    (c.act next advance enter a).Tokens token? drawn := by
  cases a with
  | start entry => exact tokens.start (entered entry)
  | crash k => exact tokens.crash k
  | direct event => exact ⟨fun w mem token held => (performed event).symm ▸ tokens.below w mem token held, tokens.apart⟩
  | move k input =>
    cases found : c.workers[k]? with
    | none => simpa [Crew.act, CrewAction.enter, Crew.step, found] using tokens
    | some w =>
      have next := tokens.move found (moved k input w found)
      simpa [Crew.act, CrewAction.enter, Crew.step, found] using next

end Tokens

end MapBackend.Library
