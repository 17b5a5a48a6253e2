import Mathlib.Data.List.Forall2
import Mathlib.Tactic.Common

/-!
Patterns that backtrack.
-/

namespace MapBackend.Library

abbrev Pattern (α β : Type*) := List α → List (β × List α)

namespace Pattern

variable {α β γ : Type*}

def ret (b : β) : Pattern α β := fun text => [(b, text)]

def bind (first : Pattern α β) (next : β → Pattern α γ) : Pattern α γ := fun text =>
  (first text).flatMap fun way => next way.1 way.2

def orElse (first second : Pattern α β) : Pattern α β := fun text => first text ++ second text

def one (accepts : α → Bool) : Pattern α (List α)
  | [] => []
  | c :: rest => if accepts c = true then [([c], rest)] else []

def seq (first second : Pattern α (List α)) : Pattern α (List α) :=
  first.bind fun front => second.bind fun behind => ret (front ++ behind)

def maybe (pattern : Pattern α (List α)) : Pattern α (List α) := pattern.orElse (ret [])

/-- As many characters of a class as there are, or fewer, but no more than the bound. -/
def upTo (accepts : α → Bool) : ℕ → Pattern α (List α)
  | 0 => ret []
  | n + 1 => maybe (seq (one accepts) (upTo accepts n))

def many (accepts : α → Bool) : Pattern α (List α)
  | [] => [([], [])]
  | c :: rest => (if accepts c = true then (many accepts rest).map fun way => (c :: way.1, way.2) else []) ++ [([], c :: rest)]

def literal (same : α → α → Bool) : List α → Pattern α (List α)
  | [] => ret []
  | letter :: letters => seq (one (same letter)) (literal same letters)

def choice (patterns : List (Pattern α β)) : Pattern α β := fun text => patterns.flatMap fun pattern => pattern text

/-- `re.search`: the first place where the pattern matches, and its preferred way there. -/
def search (pattern : Pattern α β) : List α → Option (ℕ × β)
  | [] => (pattern []).head?.map fun way => (0, way.1)
  | c :: rest =>
    match (pattern (c :: rest)).head? with
    | some way => some (0, way.1)
    | none => (search pattern rest).map fun found => (found.1 + 1, found.2)

/-! ## Ways -/

variable {accepts : α → Bool} {text rest taken : List α}

theorem mem_ret {b c : β} : (c, rest) ∈ ret b text ↔ c = b ∧ rest = text := by simp [ret]

theorem mem_bind {first : Pattern α β} {next : β → Pattern α γ} {c : γ} :
    (c, rest) ∈ first.bind next text ↔ ∃ b middle, (b, middle) ∈ first text ∧ (c, rest) ∈ next b middle := by
  simp [bind]

theorem mem_orElse {first second : Pattern α β} {b : β} :
    (b, rest) ∈ first.orElse second text ↔ (b, rest) ∈ first text ∨ (b, rest) ∈ second text := List.mem_append

theorem mem_choice {patterns : List (Pattern α β)} {b : β} :
    (b, rest) ∈ choice patterns text ↔ ∃ pattern ∈ patterns, (b, rest) ∈ pattern text := List.mem_flatMap

theorem mem_one : (taken, rest) ∈ one accepts text ↔ ∃ c, accepts c = true ∧ taken = [c] ∧ text = c :: rest := by
  cases text with
  | nil => simp [one]
  | cons c =>
    rw [one]
    split
    next is =>
      rw [List.mem_singleton, Prod.mk.injEq]
      constructor
      · rintro ⟨rfl, rfl⟩
        exact ⟨c, is, rfl, rfl⟩
      · rintro ⟨d, -, rfl, same⟩
        obtain ⟨rfl, rfl⟩ := List.cons.inj same
        exact ⟨rfl, rfl⟩
    next isNot =>
      constructor
      · exact fun mem => absurd mem List.not_mem_nil
      · rintro ⟨d, is, -, same⟩
        exact absurd ((List.cons.inj same).1 ▸ is) isNot

theorem mem_seq {first second : Pattern α (List α)} : (taken, rest) ∈ seq first second text ↔
    ∃ front middle behind, (front, middle) ∈ first text ∧ (behind, rest) ∈ second middle ∧ taken = front ++ behind := by
  simp only [seq, mem_bind, mem_ret]
  constructor
  · rintro ⟨front, middle, one, behind, _, two, rfl, rfl⟩
    exact ⟨front, middle, behind, one, two, rfl⟩
  · rintro ⟨front, middle, behind, one, two, rfl⟩
    exact ⟨front, middle, one, behind, rest, two, rfl, rfl⟩

theorem mem_maybe {pattern : Pattern α (List α)} : (taken, rest) ∈ maybe pattern text ↔
    (taken, rest) ∈ pattern text ∨ (taken = [] ∧ rest = text) := by
  rw [maybe, mem_orElse, mem_ret]

theorem mem_upTo {n : ℕ} : (taken, rest) ∈ upTo accepts n text ↔
    text = taken ++ rest ∧ (∀ c ∈ taken, accepts c = true) ∧ taken.length ≤ n := by
  induction n generalizing text taken with
  | zero =>
    rw [upTo, mem_ret]
    constructor
    · rintro ⟨rfl, rfl⟩
      exact ⟨rfl, fun c mem => absurd mem List.not_mem_nil, Nat.le_refl 0⟩
    · rintro ⟨rfl, -, short⟩
      obtain rfl := List.length_eq_zero_iff.mp (Nat.le_zero.mp short)
      exact ⟨rfl, rfl⟩
  | succ _ ih =>
    rw [upTo, mem_maybe, mem_seq]
    constructor
    · rintro (⟨_, _, _, first, more, rfl⟩ | ⟨rfl, rfl⟩)
      · obtain ⟨c, is, rfl, rfl⟩ := mem_one.mp first
        obtain ⟨rfl, all, short⟩ := ih.mp more
        exact ⟨rfl, List.forall_mem_cons.mpr ⟨is, all⟩, Nat.succ_le_succ short⟩
      · exact ⟨rfl, fun c mem => absurd mem List.not_mem_nil, Nat.zero_le _⟩
    · rintro ⟨rfl, all, short⟩
      cases taken with
      | nil => exact .inr ⟨rfl, rfl⟩
      | cons c others =>
        obtain ⟨is, all⟩ := List.forall_mem_cons.mp all
        exact .inl ⟨[c], others ++ rest, others, mem_one.mpr ⟨c, is, rfl, rfl⟩, ih.mpr ⟨rfl, all, Nat.le_of_succ_le_succ short⟩, rfl⟩

theorem mem_many : (taken, rest) ∈ many accepts text ↔ text = taken ++ rest ∧ ∀ c ∈ taken, accepts c = true := by
  induction text generalizing taken with
  | nil =>
    rw [many, List.mem_singleton, Prod.mk.injEq]
    constructor
    · rintro ⟨rfl, rfl⟩
      exact ⟨rfl, fun c mem => absurd mem List.not_mem_nil⟩
    · rintro ⟨same, -⟩
      exact List.append_eq_nil_iff.mp same.symm
  | cons c others ih =>
    have nothing : (taken, rest) ∈ [(([] : List α), c :: others)] ↔ taken = [] ∧ rest = c :: others := by
      rw [List.mem_singleton, Prod.mk.injEq]
    rw [many, List.mem_append, nothing]
    constructor
    · rintro (more | ⟨rfl, rfl⟩)
      · split at more
        next is =>
          obtain ⟨⟨front, _⟩, there, same⟩ := List.mem_map.mp more
          obtain ⟨rfl, rfl⟩ := Prod.mk.inj same
          obtain ⟨rfl, all⟩ := ih.mp there
          exact ⟨rfl, List.forall_mem_cons.mpr ⟨is, all⟩⟩
        next => exact absurd more List.not_mem_nil
      · exact ⟨rfl, fun d mem => absurd mem List.not_mem_nil⟩
    · rintro ⟨same, all⟩
      cases taken with
      | nil => exact .inr ⟨rfl, same.symm⟩
      | cons _ front =>
        obtain ⟨rfl, rfl⟩ := List.cons.inj same
        obtain ⟨is, all⟩ := List.forall_mem_cons.mp all
        rw [if_pos is]
        exact .inl (List.mem_map.mpr ⟨(front, rest), ih.mpr ⟨rfl, all⟩, rfl⟩)

theorem mem_literal {same : α → α → Bool} {letters : List α} : (taken, rest) ∈ literal same letters text ↔
    text = taken ++ rest ∧ List.Forall₂ (fun letter c => same letter c = true) letters taken := by
  induction letters generalizing text taken with
  | nil =>
    rw [literal, mem_ret, List.forall₂_nil_left_iff]
    constructor
    · rintro ⟨rfl, rfl⟩
      exact ⟨rfl, rfl⟩
    · rintro ⟨rfl, rfl⟩
      exact ⟨rfl, rfl⟩
  | cons _ _ ih =>
    rw [literal, mem_seq]
    constructor
    · rintro ⟨_, _, behind, first, more, rfl⟩
      obtain ⟨c, is, rfl, rfl⟩ := mem_one.mp first
      obtain ⟨rfl, all⟩ := ih.mp more
      exact ⟨rfl, .cons is all⟩
    · rintro ⟨rfl, all⟩
      cases all with
      | @cons _ c _ behind is all =>
        exact ⟨[c], behind ++ rest, behind, mem_one.mpr ⟨c, is, rfl, rfl⟩, ih.mpr ⟨rfl, all⟩, rfl⟩

/-! ## Search -/

theorem search_some {pattern : Pattern α β} {n : ℕ} {b : β} (found : search pattern text = some (n, b)) :
    (∃ rest, (b, rest) ∈ pattern (text.drop n)) ∧ n ≤ text.length ∧ ∀ j < n, pattern (text.drop j) = [] := by
  induction text generalizing n with
  | nil =>
    obtain ⟨way, head, same⟩ := Option.map_eq_some_iff.mp found
    obtain ⟨rfl, rfl⟩ := Prod.mk.inj same
    exact ⟨⟨way.2, List.mem_of_mem_head? head⟩, Nat.le_refl 0, fun j before => absurd before (Nat.not_lt_zero j)⟩
  | cons c others ih =>
    rw [search] at found
    cases head : (pattern (c :: others)).head? with
    | some way =>
      rw [head] at found
      obtain ⟨rfl, rfl⟩ := Prod.mk.inj (Option.some.inj found)
      exact ⟨⟨way.2, List.mem_of_mem_head? head⟩, Nat.zero_le _, fun j before => absurd before (Nat.not_lt_zero j)⟩
    | none =>
      rw [head] at found
      obtain ⟨⟨m, way⟩, later, same⟩ := Option.map_eq_some_iff.mp found
      obtain ⟨rfl, rfl⟩ := Prod.mk.inj same
      obtain ⟨there, short, before⟩ := ih later
      refine ⟨there, Nat.succ_le_succ short, fun j earlier => ?_⟩
      cases j with
      | zero => exact List.head?_eq_none_iff.mp head
      | succ j => exact before j (Nat.lt_of_succ_lt_succ earlier)

theorem search_eq_none {pattern : Pattern α β} : search pattern text = none ↔ ∀ j ≤ text.length, pattern (text.drop j) = [] := by
  induction text with
  | nil =>
    rw [search, Option.map_eq_none_iff, List.head?_eq_none_iff]
    exact ⟨fun nothing j _ => by rwa [List.drop_nil], fun nothing => nothing 0 (Nat.le_refl 0)⟩
  | cons c others ih =>
    rw [search]
    cases head : (pattern (c :: others)).head? with
    | some =>
      refine iff_of_false (by simp) fun nothing => ?_
      rw [show pattern (c :: others) = [] from nothing 0 (Nat.zero_le _)] at head
      cases head
    | none =>
      rw [Option.map_eq_none_iff, ih]
      constructor
      · intro later j short
        cases j with
        | zero => exact List.head?_eq_none_iff.mp head
        | succ j => exact later j (Nat.le_of_succ_le_succ short)
      · exact fun all j short => all (j + 1) (Nat.succ_le_succ short)

end Pattern

end MapBackend.Library
