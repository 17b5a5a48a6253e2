import MapBackend.Library.Runs
import Mathlib.Algebra.Order.BigOperators.Group.List
import Mathlib.Algebra.Order.Ring.Nat

/-!
Workers on a shared store.
-/

namespace MapBackend.Library

structure Crew (S W : Type*) where
  store : S
  workers : List W

inductive CrewAction (W I E : Type*) where
  | start (worker : W)
  | move (k : ℕ) (input : I)
  | crash (k : ℕ)
  | direct (event : E)

section Workers

variable {S W I E : Type*} (next : S → E → S) (advance : W → I → S → S × W)

def Crew.step (c : Crew S W) : CrewAction W I E → Crew S W
  | .start worker => { c with workers := c.workers ++ [worker] }
  | .move k input =>
    match c.workers[k]? with
    | none => c
    | some worker =>
      let (store, worker) := advance worker input c.store
      { store, workers := c.workers.set k worker }
  | .crash k => { c with workers := c.workers.eraseIdx k }
  | .direct event => { c with store := next c.store event }

def Serial : Prop := ∀ w i s, (advance w i s).1 = s ∨ ∃ e, (advance w i s).1 = next s e

variable {next advance}

theorem Crew.step_store (serial : Serial next advance) (c : Crew S W) (a : CrewAction W I E) :
    (c.step next advance a).store = c.store ∨ ∃ e, (c.step next advance a).store = next c.store e := by
  cases a with
  | start => exact .inl rfl
  | crash => exact .inl rfl
  | direct event => exact .inr ⟨event, rfl⟩
  | move k input =>
    cases found : c.workers[k]? with
    | none => exact .inl (by simp [Crew.step, found])
    | some worker => simpa [Crew.step, found] using serial worker input c.store

structure Crew.Keeps (inv : S → Prop) (held : S → W → Prop) (c : Crew S W) : Prop where
  store : inv c.store
  workers : ∀ w ∈ c.workers, held c.store w

theorem Crew.Keeps.step {inv : S → Prop} {held : S → W → Prop} {c : Crew S W} (kept : c.Keeps inv held)
    (a : CrewAction W I E) (started : ∀ w, a = .start w → held c.store w)
    (performed : ∀ e, a = .direct e → inv (next c.store e) ∧ ∀ v, held c.store v → held (next c.store e) v)
    (moved : ∀ k input w, a = .move k input → c.workers[k]? = some w →
      let (store, worker) := advance w input c.store
      inv store ∧ held store worker ∧
        ∀ j v, j ≠ k → c.workers[j]? = some v → held c.store v → held store v) :
    (c.step next advance a).Keeps inv held := by
  cases a with
  | start worker =>
    refine ⟨kept.store, fun w mem => ?_⟩
    rcases List.mem_append.mp mem with old | new
    · exact kept.workers w old
    · exact List.mem_singleton.mp new ▸ started worker rfl
  | crash => exact ⟨kept.store, fun w mem => kept.workers w (List.mem_of_mem_eraseIdx mem)⟩
  | direct event =>
    obtain ⟨holds, stable⟩ := performed event rfl
    exact ⟨holds, fun w mem => stable w (kept.workers w mem)⟩
  | move k input =>
    cases found : c.workers[k]? with
    | none => simpa [Crew.step, found] using kept
    | some worker =>
      obtain ⟨holds, own, stable⟩ := moved k input worker rfl found
      simp only [Crew.step, found]
      refine ⟨holds, fun w mem => ?_⟩
      obtain ⟨j, at_j⟩ := List.mem_iff_getElem?.mp mem
      rw [List.getElem?_set] at at_j
      by_cases same : k = j
      · subst same
        rw [if_pos rfl] at at_j
        split at at_j
        · exact Option.some.inj at_j ▸ own
        · cases at_j
      · rw [if_neg same] at at_j
        exact stable j w (Ne.symm same) at_j (kept.workers w (List.mem_of_getElem? at_j))

def Crew.load (weight : W → ℕ) (c : Crew S W) : ℕ := (c.workers.map weight).sum

theorem sum_set (weight : W → ℕ) {workers : List W} {k : ℕ} {old : W} (new : W) (found : workers[k]? = some old) :
    ((workers.set k new).map weight).sum + weight old = (workers.map weight).sum + weight new := by
  induction workers generalizing k with
  | nil => simp at found
  | cons w _ ih =>
    cases k with
    | zero =>
      obtain rfl : w = old := by simpa using found
      simp only [List.set_cons_zero, List.map_cons, List.sum_cons]
      omega
    | succ k =>
      have later := ih (k := k) (by simpa using found)
      simp only [List.set_cons_succ, List.map_cons, List.sum_cons]
      omega

theorem weight_le_sum (weight : W → ℕ) {workers : List W} {k : ℕ} {w : W} (found : workers[k]? = some w) :
    weight w ≤ (workers.map weight).sum :=
  List.le_sum_of_mem (List.mem_map_of_mem (List.mem_of_getElem? found))

theorem sum_eraseIdx_le (weight : W → ℕ) (workers : List W) (k : ℕ) :
    ((workers.eraseIdx k).map weight).sum ≤ (workers.map weight).sum := by
  induction workers generalizing k with
  | nil => simp
  | cons _ _ ih =>
    cases k with
    | zero => simp
    | succ k =>
      simp only [List.eraseIdx_cons_succ, List.map_cons, List.sum_cons]
      exact Nat.add_le_add_left (ih k) _

theorem Crew.load_pair (weight : W → ℕ) {c : Crew S W} {j k : ℕ} {v w : W} (other : j ≠ k)
    (at_j : c.workers[j]? = some v) (at_k : c.workers[k]? = some w) : weight v + weight w ≤ c.load weight := by
  have generous : ∀ {workers : List W} {j k : ℕ}, j ≠ k → workers[j]? = some v → workers[k]? = some w →
      weight v + weight w ≤ (workers.map weight).sum := by
    intro workers
    induction workers with
    | nil =>
      intro j k _ at_j
      simp at at_j
    | cons first _ ih =>
      intro j k other at_j at_k
      match j, k with
      | 0, 0 => exact absurd rfl other
      | 0, k + 1 =>
        obtain rfl : first = v := by simpa using at_j
        exact Nat.add_le_add_left (weight_le_sum weight (by simpa using at_k)) _
      | j + 1, 0 =>
        obtain rfl : first = w := by simpa using at_k
        rw [Nat.add_comm]
        exact Nat.add_le_add_left (weight_le_sum weight (by simpa using at_j)) _
      | j + 1, k + 1 =>
        have later := ih (j := j) (k := k) (by omega) (by simpa using at_j) (by simpa using at_k)
        simp only [List.map_cons, List.sum_cons]
        omega
  exact generous other at_j at_k

theorem Crew.step_load {meter : S → ℕ} {weight : W → ℕ} (c : Crew S W) (a : CrewAction W I E)
    (started : ∀ w, a = .start w → weight w = 0)
    (performed : ∀ e, a = .direct e → meter (next c.store e) ≤ meter c.store)
    (moved : ∀ k input w, a = .move k input → c.workers[k]? = some w →
      meter (advance w input c.store).1 + weight (advance w input c.store).2 ≤ meter c.store + weight w) :
    meter (c.step next advance a).store + (c.step next advance a).load weight ≤ meter c.store + c.load weight := by
  cases a with
  | start worker => simp [Crew.step, Crew.load, started worker rfl]
  | crash k => exact Nat.add_le_add_left (sum_eraseIdx_le weight c.workers k) _
  | direct event => exact Nat.add_le_add_right (performed event rfl) _
  | move k input =>
    cases found : c.workers[k]? with
    | none => simp [Crew.step, found, Crew.load]
    | some worker =>
      have kept := moved k input worker rfl found
      have moved_sum := sum_set weight (advance worker input c.store).2 found
      simp only [Crew.step, found, Crew.load]
      omega

def CrewAction.enter {N : Type*} (enter : N → W) : CrewAction N I E → CrewAction W I E
  | .start entry => .start (enter entry)
  | .move k input => .move k input
  | .crash k => .crash k
  | .direct event => .direct event

variable (next advance)

def Crew.act {N : Type*} (enter : N → W) (c : Crew S W) (a : CrewAction N I E) : Crew S W :=
  c.step next advance (a.enter enter)

variable {next advance}

def Crew.Allowed {N : Type*} (guard : Crew S W → W → I → Prop) (c : Crew S W) : CrewAction N I E → Prop
  | .move k input => ∀ w ∈ c.workers[k]?, guard c w input
  | _ => True

instance {N : Type*} (guard : Crew S W → W → I → Prop) [∀ c w input, Decidable (guard c w input)] (c : Crew S W) :
    (a : CrewAction N I E) → Decidable (c.Allowed guard a)
  | .move k input => inferInstanceAs (Decidable (∀ w ∈ c.workers[k]?, guard c w input))
  | .start _ => isTrue trivial
  | .crash _ => isTrue trivial
  | .direct _ => isTrue trivial

theorem Crew.allowed_always {N : Type*} (c : Crew S W) (a : CrewAction N I E) : c.Allowed (fun _ _ _ => True) a := by
  cases a with
  | move => exact fun _ _ => trivial
  | _ => trivial

theorem Crew.act_store {N : Type*} {enter : N → W} (c : Crew S W) (a : CrewAction N I E) :
    (c.act next advance enter a).store = c.store ∨
      (∃ event, a = .direct event ∧ (c.act next advance enter a).store = next c.store event) ∨
      ∃ k input w, a = .move k input ∧ c.workers[k]? = some w ∧
        (c.act next advance enter a).store = (advance w input c.store).1 := by
  cases a with
  | start => exact .inl rfl
  | crash => exact .inl rfl
  | direct event => exact .inr (.inl ⟨event, rfl, rfl⟩)
  | move k input =>
    cases found : c.workers[k]? with
    | none => exact .inl (by simp [Crew.act, CrewAction.enter, Crew.step, found])
    | some w => exact .inr (.inr ⟨k, input, w, rfl, found, by simp [Crew.act, CrewAction.enter, Crew.step, found]⟩)

theorem Crew.Keeps.act {N : Type*} {enter : N → W} {inv : S → Prop} {held : S → W → Prop} {c : Crew S W}
    {guard : Crew S W → W → I → Prop} (kept : c.Keeps inv held) (a : CrewAction N I E) (allowed : c.Allowed guard a)
    (entered : ∀ entry, held c.store (enter entry))
    (performed : ∀ e, inv (next c.store e) ∧ ∀ v, held c.store v → held (next c.store e) v)
    (moved : ∀ (k : ℕ) (input : I) (w : W), c.workers[k]? = some w → held c.store w → guard c w input →
      let (store, worker) := advance w input c.store
      inv store ∧ held store worker ∧
        ∀ j v, j ≠ k → c.workers[j]? = some v → held c.store v → held store v) :
    (c.act next advance enter a).Keeps inv held := by
  refine Crew.Keeps.step kept (a.enter enter) (fun w started => ?_) (fun e _ => performed e) fun k input w acts found => ?_
  · cases a with
    | start entry =>
      cases started
      exact entered entry
    | _ => cases started
  · cases a with
    | move =>
      cases acts
      exact moved k input w found (kept.workers w (List.mem_of_getElem? found)) (allowed w found)
    | _ => cases acts

theorem Crew.act_load {N : Type*} {enter : N → W} {meter : S → ℕ} {weight : W → ℕ} (c : Crew S W) (a : CrewAction N I E)
    (entered : ∀ entry, weight (enter entry) = 0) (performed : ∀ e, meter (next c.store e) ≤ meter c.store)
    (moved : ∀ (k : ℕ) (input : I) (w : W), c.workers[k]? = some w →
      meter (advance w input c.store).1 + weight (advance w input c.store).2 ≤ meter c.store + weight w) :
    meter (c.act next advance enter a).store + (c.act next advance enter a).load weight ≤
      meter c.store + c.load weight := by
  refine Crew.step_load c (a.enter enter) (fun w started => ?_) (fun e _ => performed e) fun k input w _ found => moved k input w found
  cases a with
  | start entry =>
    cases started
    exact entered entry
  | _ => cases started

theorem Crew.act_reserve {N : Type*} {enter : N → W} {reserve : S → ℤ} {weight : W → ℕ} {c : Crew S W} (a : CrewAction N I E)
    (covered : (c.load weight : ℤ) ≤ reserve c.store) (entered : ∀ entry, weight (enter entry) = 0)
    (performed : ∀ e, reserve c.store ≤ reserve (next c.store e))
    (moved : ∀ (k : ℕ) (input : I) (w : W), c.workers[k]? = some w →
      (weight (advance w input c.store).2 : ℤ) + reserve c.store ≤ weight w + reserve (advance w input c.store).1) :
    ((c.act next advance enter a).load weight : ℤ) ≤ reserve (c.act next advance enter a).store := by
  cases a with
  | start entry => simpa [Crew.act, CrewAction.enter, Crew.step, Crew.load, entered entry] using covered
  | crash k =>
    have fewer := sum_eraseIdx_le weight c.workers k
    have within : (((c.workers.eraseIdx k).map weight).sum : ℤ) ≤ c.load weight := by exact_mod_cast fewer
    exact within.trans covered
  | direct event => exact covered.trans (performed event)
  | move k input =>
    cases found : c.workers[k]? with
    | none => simpa [Crew.act, CrewAction.enter, Crew.step, found, Crew.load] using covered
    | some w =>
      have kept := moved k input w found
      have moved_sum := sum_set weight (advance w input c.store).2 found
      simp only [Crew.act, CrewAction.enter, Crew.step, found, Crew.load] at covered ⊢
      omega

theorem Crew.run_alone {N : Type*} {enter : N → W} {c : Crew S W} {k : ℕ} {w : W} (input : I)
    (found : c.workers[k]? = some w) (n : ℕ) :
    (run (fun (c : Crew S W) (a : CrewAction N I E) => c.act next advance enter a) c (List.replicate n (.move k input))).store =
      ((fun moved : S × W => advance moved.2 input moved.1)^[n] (c.store, w)).1 := by
  induction n generalizing c w with
  | zero => rfl
  | succ _ ih =>
    obtain ⟨small, rfl⟩ := List.getElem?_eq_some_iff.mp found
    have moved : (c.act next advance enter (.move k input)).workers[k]? = some (advance c.workers[k] input c.store).2 := by
      simp [Crew.act, CrewAction.enter, Crew.step, small]
    have stored : (c.act next advance enter (.move k input)).store = (advance c.workers[k] input c.store).1 := by
      simp [Crew.act, CrewAction.enter, Crew.step, small]
    rw [List.replicate_succ, run_cons, ih moved, stored]
    rfl

end Workers

end MapBackend.Library
