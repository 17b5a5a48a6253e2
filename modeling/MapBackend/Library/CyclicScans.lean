import Mathlib.Data.Finset.Sort
import Mathlib.Data.Fintype.Card
import Mathlib.Tactic.Order

/-!
Cyclic scans of a finite set of keys.
-/

namespace MapBackend.Library

variable {K : Type*} [LinearOrder K]

/-- A scan meets the first key before the second one; without a cursor it starts at the least key. -/
def Precedes : Option K → K → K → Prop
  | none, a, b => a < b
  | some c, a, b => (c < a ∧ (a < b ∨ b ≤ c)) ∨ (a < b ∧ b ≤ c)

instance (cursor : Option K) (a b : K) : Decidable (Precedes cursor a b) :=
  match cursor with
  | none => inferInstanceAs (Decidable (a < b))
  | some c => inferInstanceAs (Decidable ((c < a ∧ (a < b ∨ b ≤ c)) ∨ (a < b ∧ b ≤ c)))

namespace Precedes

variable {cursor : Option K} {a b c : K}

theorem irrefl : ¬ Precedes cursor a a := by
  cases cursor with
  | none => exact lt_irrefl a
  | some =>
    rintro (⟨above, below | wrapped⟩ | ⟨below, _⟩)
    · exact lt_irrefl a below
    · exact absurd above (not_lt.mpr wrapped)
    · exact lt_irrefl a below

theorem asymm (first : Precedes cursor a b) : ¬ Precedes cursor b a := by
  intro second
  cases cursor with
  | none => exact lt_asymm first second
  | some =>
    simp only [Precedes] at first second
    rcases first with ⟨_, _ | _⟩ | ⟨_, _⟩ <;> rcases second with ⟨_, _ | _⟩ | ⟨_, _⟩ <;> order

theorem advance {x k : K} (passed : Precedes cursor c k) :
    Precedes (some c) x k ↔ Precedes cursor c x ∧ Precedes cursor x k := by
  cases cursor with
  | none =>
    simp only [Precedes] at passed ⊢
    constructor
    · rintro (⟨above, below | wrapped⟩ | ⟨below, wrapped⟩)
      · exact ⟨above, below⟩
      · order
      · order
    · rintro ⟨above, below⟩
      exact .inl ⟨above, .inl below⟩
  | some =>
    -- The places of the four keys around the circle are decided by their order on the line.
    simp only [Precedes] at passed ⊢
    grind

theorem filter_before {before after : List K} {k : K} (ordered : (before ++ k :: after).Pairwise (Precedes cursor)) :
    (before ++ k :: after).filter (fun x => Precedes cursor x k) = before := by
  rw [List.pairwise_append, List.pairwise_cons] at ordered
  obtain ⟨-, ⟨behind, -⟩, ahead⟩ := ordered
  have first : before.filter (fun x => Precedes cursor x k) = before :=
    List.filter_eq_self.mpr fun x mem => decide_eq_true (ahead x mem k List.mem_cons_self)
  have rest : after.filter (fun x => Precedes cursor x k) = [] :=
    List.filter_eq_nil_iff.mpr fun x mem => by simpa using (behind x mem).asymm
  rw [List.filter_append, first, List.filter_cons_of_neg (by simpa using irrefl), rest, List.append_nil]

end Precedes

section Scans

def ascending (rows : Finset K) : List K := rows.sort (· ≤ ·)

def scan (rows : Finset K) : Option K → List K
  | none => ascending rows
  | some c => ascending (rows.filter (c < ·)) ++ ascending (rows.filter (· ≤ c))

def position (rows : Finset K) (cursor : Option K) (k : K) : ℕ := (rows.filter fun x => Precedes cursor x k).card

variable {rows : Finset K} {cursor : Option K} {c k : K}

theorem mem_ascending : k ∈ ascending rows ↔ k ∈ rows := Finset.mem_sort _

theorem ascending_pairwise (rows : Finset K) : (ascending rows).Pairwise (· < ·) := (Finset.sortedLT_sort rows).pairwise

theorem mem_scan : k ∈ scan rows cursor ↔ k ∈ rows := by
  cases cursor with
  | none => exact mem_ascending
  | some c =>
    simp only [scan, List.mem_append, mem_ascending, Finset.mem_filter, ← and_or_left]
    exact and_iff_left (lt_or_ge c k)

theorem scan_pairwise : (scan rows cursor).Pairwise (Precedes cursor) := by
  cases cursor with
  | none => exact ascending_pairwise rows
  | some =>
    rw [scan, List.pairwise_append]
    refine ⟨?_, ?_, ?_⟩
    · refine (ascending_pairwise _).imp_of_mem fun a_mem b_mem less => ?_
      exact .inl ⟨(Finset.mem_filter.mp (mem_ascending.mp a_mem)).2, .inl less⟩
    · refine (ascending_pairwise _).imp_of_mem fun a_mem b_mem less => ?_
      exact .inr ⟨less, (Finset.mem_filter.mp (mem_ascending.mp b_mem)).2⟩
    · intro a a_mem b b_mem
      exact .inl ⟨(Finset.mem_filter.mp (mem_ascending.mp a_mem)).2, .inr (Finset.mem_filter.mp (mem_ascending.mp b_mem)).2⟩

theorem scan_nodup : (scan rows cursor).Nodup := by
  refine scan_pairwise.imp fun {a b} before => ?_
  rintro rfl
  exact Precedes.irrefl before

theorem scan_length : (scan rows cursor).length = rows.card := by
  have same : (scan rows cursor).toFinset = rows := by
    ext k
    rw [List.mem_toFinset, mem_scan]
  rw [← List.toFinset_card_of_nodup scan_nodup, same]

theorem position_scan {before after : List K} (split : scan rows cursor = before ++ k :: after) : position rows cursor k = before.length := by
  have ordered : (scan rows cursor).Pairwise (Precedes cursor) := scan_pairwise
  rw [split] at ordered
  have same : (rows.filter fun x => Precedes cursor x k) = before.toFinset := by
    ext x
    rw [Finset.mem_filter, ← mem_scan, List.mem_toFinset, ← Precedes.filter_before ordered, split, List.mem_filter,
      decide_eq_true_iff]
  have distinct : before.Nodup := by
    have all : (scan rows cursor).Nodup := scan_nodup
    rw [split] at all
    exact (List.nodup_append.mp all).1
  rw [position, same, List.toFinset_card_of_nodup distinct]

theorem position_lt_card (mem : k ∈ rows) : position rows cursor k < rows.card := by
  obtain ⟨_, _, split⟩ := List.append_of_mem (mem_scan |>.mpr mem)
  rw [position_scan split, ← scan_length , split, List.length_append, List.length_cons]
  omega

theorem mem_take_scan {n : ℕ} (mem : k ∈ rows) : k ∈ (scan rows cursor).take n ↔ position rows cursor k < n := by
  obtain ⟨before, _, split⟩ := List.append_of_mem (mem_scan |>.mpr mem)
  rw [position_scan split, split]
  have apart : k ∉ before := by
    have all : (scan rows cursor).Nodup := scan_nodup
    rw [split, List.nodup_append] at all
    exact fun here => all.2.2 k here k List.mem_cons_self rfl
  constructor
  · intro taken
    by_contra short
    rw [List.take_append_of_le_length (not_lt.mp short)] at taken
    exact apart (List.mem_of_mem_take taken)
  · intro less
    obtain ⟨more, rfl⟩ := Nat.exists_eq_add_of_lt less
    rw [List.take_append, List.mem_append]
    refine .inr ?_
    have left : before.length + more + 1 - before.length = more + 1 := by omega
    rw [left, List.take_succ_cons]
    exact List.mem_cons_self

theorem position_decreases (present : c ∈ rows) (passed : Precedes cursor c k) : position rows (some c) k < position rows cursor k := by
  refine Finset.card_lt_card (Finset.ssubset_iff_of_subset ?_ |>.mpr ⟨c, ?_, ?_⟩)
  · intro x mem
    obtain ⟨there, before⟩ := Finset.mem_filter.mp mem
    exact Finset.mem_filter.mpr ⟨there, (Precedes.advance passed |>.mp before).2⟩
  · exact Finset.mem_filter.mpr ⟨present, passed⟩
  · intro mem
    exact Precedes.irrefl (Precedes.advance passed |>.mp (Finset.mem_filter.mp mem).2).1

theorem position_advance {before after : List K} (split : scan rows cursor = before ++ c :: after) (waits : k ∈ after) :
    position rows (some c) k + (before.length + 1) = position rows cursor k := by
  obtain ⟨between, behind, rfl⟩ := List.append_of_mem waits
  have ordered : (scan rows cursor).Pairwise (Precedes cursor) := scan_pairwise
  have whole : scan rows cursor = (before ++ c :: between) ++ k :: behind := by rw [split, List.append_assoc, List.cons_append]
  have passed : Precedes cursor c k := by
    rw [split, List.pairwise_append, List.pairwise_cons] at ordered
    exact ordered.2.1.1 k (List.mem_append_right _ List.mem_cons_self)
  have cut : (rows.filter fun x => Precedes (some c) x k) = between.toFinset := by
    ext x
    have chosen : x ∈ between ↔ x ∈ before ++ c :: between ∧ Precedes cursor c x := by
      rw [split] at ordered
      rw [List.pairwise_append, List.pairwise_cons] at ordered
      constructor
      · intro mem
        exact ⟨List.mem_append_right _ (List.mem_cons_of_mem _ mem), ordered.2.1.1 x (List.mem_append_left _ mem)⟩
      · rintro ⟨mem, later⟩
        rcases List.mem_append.mp mem with early | late
        · exact absurd later (ordered.2.2 x early c List.mem_cons_self).asymm
        · rcases List.mem_cons.mp late with rfl | here
          · exact absurd later Precedes.irrefl
          · exact here
    have ahead : x ∈ before ++ c :: between ↔ x ∈ rows ∧ Precedes cursor x k := by
      rw [whole] at ordered
      rw [← @mem_scan _ _ rows cursor, whole]
      conv_lhs => rw [← Precedes.filter_before ordered, List.mem_filter, decide_eq_true_iff]
    rw [Finset.mem_filter, Precedes.advance passed, List.mem_toFinset, chosen, ahead]
    tauto
  have distinct : between.Nodup := by
    have all : (scan rows cursor).Nodup := scan_nodup
    rw [whole, List.nodup_append, List.nodup_append, List.nodup_cons] at all
    exact all.1.2.1.2
  rw [position_scan whole, position, cut, List.toFinset_card_of_nodup distinct, List.length_append, List.length_cons]
  omega

end Scans

end MapBackend.Library
