import MapBackend.Library.Transactions
import Mathlib.Data.List.Forall2

/-!
Loops over a list that may raise.
-/

namespace MapBackend.Library

universe u

variable {α E : Type*} {β R T : Type u}

/-! ## Errors -/

theorem bind_error {x : Except E R} {f : R → Except E T} {e : E} :
    (x >>= f) = .error e ↔ x = .error e ∨ ∃ r, x = .ok r ∧ f r = .error e := by
  cases x with
  | error => simp [bind, Except.bind]
  | ok => simp [bind, Except.bind]

theorem raiseIf_error {c : Prop} [Decidable c] {e e' : E} : raiseIf c e = .error e' ↔ c ∧ e = e' := by
  by_cases h : c <;> simp [raiseIf, h]

theorem orRaise_error {e e' : E} {x : Option R} : orRaise e x = .error e' ↔ x = none ∧ e = e' := by
  cases x <;> simp [orRaise]

theorem map_ok_iff {x : Except E R} {f : R → T} {t : T} : x.map f = .ok t ↔ ∃ r, x = .ok r ∧ f r = t := by
  cases x <;> simp [Except.map]

theorem map_error_iff {x : Except E R} {f : R → T} {e : E} : x.map f = .error e ↔ x = .error e := by
  cases x <;> simp [Except.map]

/-! ## Loops that carry a state -/

section
variable {f : β → α → Except E β}

theorem foldlM_cons_ok {item : α} {items : List α} {s t : β} :
    (item :: items).foldlM f s = .ok t ↔ ∃ u, f s item = .ok u ∧ items.foldlM f u = .ok t := by
  rw [List.foldlM_cons, bind_ok]

theorem foldlM_append_ok {before after : List α} {s t : β} :
    (before ++ after).foldlM f s = .ok t ↔ ∃ u, before.foldlM f s = .ok u ∧ after.foldlM f u = .ok t := by
  rw [List.foldlM_append, bind_ok]

theorem foldlM_keeps_ok {P : β → Prop} {items : List α} (step : ∀ item ∈ items, ∀ s t, P s → f s item = .ok t → P t)
    {s t : β} (holds : P s) (ran : items.foldlM f s = .ok t) : P t := by
  induction items generalizing s with
  | nil =>
    obtain rfl := Except.ok.inj ran
    exact holds
  | cons item _ ih =>
    obtain ⟨u, first, later⟩ := foldlM_cons_ok.mp ran
    exact ih (fun other mem => step other (List.mem_cons_of_mem item mem)) (step item List.mem_cons_self s u holds first) later

theorem foldlM_error_iff {items : List α} {s : β} {e : E} : items.foldlM f s = .error e ↔
    ∃ before item after t, items = before ++ item :: after ∧ before.foldlM f s = .ok t ∧ f t item = .error e := by
  constructor
  · intro raised
    induction items generalizing s with
    | nil => cases raised
    | cons item rest ih =>
      rw [List.foldlM_cons, bind_error] at raised
      rcases raised with here | ⟨u, first, later⟩
      · exact ⟨[], item, rest, s, rfl, rfl, here⟩
      · obtain ⟨before, other, after, t, rfl, ran, there⟩ := ih later
        exact ⟨item :: before, other, after, t, rfl, foldlM_cons_ok.mpr ⟨u, first, ran⟩, there⟩
  · rintro ⟨before, item, after, t, rfl, ran, raised⟩
    rw [List.foldlM_append, ran]
    change (item :: after).foldlM f t = .error e
    rw [List.foldlM_cons, raised]
    rfl

end

/-! ## Loops that collect results -/

theorem mapM_ok_iff {f : α → Except E β} {items : List α} {results : List β} :
    items.mapM f = .ok results ↔ List.Forall₂ (fun item result => f item = .ok result) items results := by
  induction items generalizing results with
  | nil =>
    rw [List.mapM_nil, List.forall₂_nil_left_iff]
    exact ⟨fun done => (Except.ok.inj done).symm, fun none => none ▸ rfl⟩
  | cons _ _ ih =>
    rw [List.mapM_cons, bind_ok, List.forall₂_cons_left_iff]
    constructor
    · rintro ⟨result, here, later⟩
      obtain ⟨others, there, done⟩ := bind_ok.mp later
      obtain rfl := Except.ok.inj done
      exact ⟨result, others, here, ih.mp there, rfl⟩
    · rintro ⟨result, others, here, there, rfl⟩
      exact ⟨result, here, bind_ok.mpr ⟨others, ih.mpr there, rfl⟩⟩

theorem mapM_error {f : α → Except E β} {items : List α} {e : E} (raised : items.mapM f = .error e) :
    ∃ item ∈ items, f item = .error e := by
  induction items with
  | nil => cases raised
  | cons item _ ih =>
    rw [List.mapM_cons, bind_error] at raised
    rcases raised with here | ⟨_, -, later⟩
    · exact ⟨item, List.mem_cons_self, here⟩
    · rcases bind_error.mp later with there | ⟨_, -, done⟩
      · obtain ⟨other, mem, own⟩ := ih there
        exact ⟨other, List.mem_cons_of_mem item mem, own⟩
      · cases done

end MapBackend.Library
