import Mathlib.Data.List.Nodup
import Mathlib.Tactic.Tauto

/-!
One pass over a list that keeps an item when its key has not come before.
-/

namespace MapBackend.Library

variable {α κ : Type*} [DecidableEq κ]

def distinct (key : α → κ) (seen : List κ) : List α → List α
  | [] => []
  | item :: rest =>
    if key item ∈ seen then distinct key seen rest else item :: distinct key (key item :: seen) rest

namespace distinct

variable {key : α → κ} {seen : List κ} {items : List α} {item : α}

theorem cons (key : α → κ) (seen : List κ) (item : α) (rest : List α) : distinct key seen (item :: rest) =
    if key item ∈ seen then distinct key seen rest else item :: distinct key (key item :: seen) rest := rfl

theorem sublist (key : α → κ) (seen : List κ) (items : List α) : (distinct key seen items).Sublist items := by
  induction items generalizing seen with
  | nil => exact List.Sublist.refl []
  | cons item _ ih =>
    rw [cons]
    split
    · exact (ih seen).cons item
    · exact (ih (key item :: seen)).cons₂ item

theorem not_seen (kept : item ∈ distinct key seen items) : key item ∉ seen := by
  induction items generalizing seen with
  | nil => cases kept
  | cons _ _ ih =>
    rw [cons] at kept
    split at kept
    · exact ih kept
    · rename_i fresh
      rcases List.mem_cons.mp kept with here | later
      · exact here ▸ fresh
      · exact fun before => ih later (List.mem_cons_of_mem _ before)

theorem nodup (key : α → κ) (seen : List κ) (items : List α) : ((distinct key seen items).map key).Nodup := by
  induction items generalizing seen with
  | nil => exact List.nodup_nil
  | cons _ _ ih =>
    rw [cons]
    split
    · exact ih seen
    · rw [List.map_cons, List.nodup_cons]
      refine ⟨fun again => ?_, ih _⟩
      obtain ⟨_, kept, same⟩ := List.mem_map.mp again
      exact not_seen kept (same ▸ List.mem_cons_self)

theorem covers (mem : item ∈ items) :
    key item ∈ seen ∨ ∃ kept ∈ distinct key seen items, key kept = key item := by
  induction items generalizing seen with
  | nil => cases mem
  | cons first _ ih =>
    rw [cons]
    split
    · rename_i before
      rcases List.mem_cons.mp mem with here | later
      · exact .inl (here ▸ before)
      · exact ih later
    · rcases List.mem_cons.mp mem with here | later
      · exact .inr ⟨first, List.mem_cons_self, by rw [here]⟩
      · rcases @ih (key first :: seen) later with before | ⟨kept, mem, same⟩
        · rcases List.mem_cons.mp before with here | before
          · exact .inr ⟨first, List.mem_cons_self, here.symm⟩
          · exact .inl before
        · exact .inr ⟨kept, List.mem_cons_of_mem _ mem, same⟩

theorem eq_self (keys : (items.map key).Nodup) (fresh : ∀ item ∈ items, key item ∉ seen) :
    distinct key seen items = items := by
  induction items generalizing seen with
  | nil => rfl
  | cons first _ ih =>
    rw [List.map_cons, List.nodup_cons] at keys
    rw [cons, if_neg (fresh first List.mem_cons_self), ih keys.2]
    intro item mem seen
    rcases List.mem_cons.mp seen with same | before
    · exact keys.1 (List.mem_map.mpr ⟨item, mem, same⟩)
    · exact fresh item (List.mem_cons_of_mem _ mem) before

theorem first (kept : item ∈ distinct key seen items) :
    items.find? (fun other => decide (key other = key item)) = some item := by
  induction items generalizing seen with
  | nil => cases kept
  | cons head _ ih =>
    have unseen := not_seen kept
    rw [cons] at kept
    split at kept
    · rename_i before
      have other : key head ≠ key item := fun same => unseen (same ▸ before)
      rw [List.find?_cons_of_neg (by simpa using other)]
      exact ih kept
    · rcases List.mem_cons.mp kept with here | later
      · rw [here, List.find?_cons_of_pos (by simp)]
      · have other : key head ≠ key item := fun same => not_seen later (same ▸ List.mem_cons_self)
        rw [List.find?_cons_of_neg (by simpa using other)]
        exact ih later

theorem congr {others : List κ} (same : ∀ k, k ∈ seen ↔ k ∈ others) : distinct key seen items = distinct key others items := by
  induction items generalizing seen others with
  | nil => rfl
  | cons item _ ih =>
    rw [cons, cons, ih same]
    by_cases before : key item ∈ seen
    · rw [if_pos before, if_pos ((same _).mp before)]
    · rw [if_neg before, if_neg (mt (same _).mpr before)]
      refine congrArg (item :: ·) (ih fun k => ?_)
      rw [List.mem_cons, List.mem_cons, same]

theorem append (key : α → κ) (seen : List κ) (items others : List α) :
    distinct key seen (items ++ others) = distinct key seen items ++ distinct key (seen ++ items.map key) others := by
  induction items generalizing seen with
  | nil => rw [List.map_nil, List.append_nil, List.nil_append]; rfl
  | cons item rest ih =>
    rw [List.cons_append, cons, cons, ih, ih]
    by_cases before : key item ∈ seen
    · rw [if_pos before, if_pos before]
      refine congrArg (distinct key seen rest ++ ·) (congr fun k => ?_)
      simp only [List.map_cons, List.mem_append, List.mem_cons]
      constructor
      · rintro (one | two)
        · exact .inl one
        · exact .inr (.inr two)
      · rintro (one | rfl | two)
        · exact .inl one
        · exact .inl before
        · exact .inr two
    · rw [if_neg before, if_neg before, List.cons_append]
      refine congrArg (fun kept => item :: (distinct key (key item :: seen) rest ++ kept)) (congr fun k => ?_)
      simp only [List.map_cons, List.cons_append, List.mem_append, List.mem_cons]
      tauto

end distinct

end MapBackend.Library
