import Mathlib.Data.List.Nodup
import Mathlib.Data.List.Perm.Subperm

/-!
Tables of rows with a unique key.
-/

namespace MapBackend.Library

section Tables

variable {R K : Type*} (key : R → K)

def put [DecidableEq K] (row : R) (rows : List R) : List R := rows.map fun old => if key old = key row then row else old

variable {key}

theorem mem_put [DecidableEq K] {row new : R} {rows : List R} :
    new ∈ put key row rows ↔
      (new = row ∧ ∃ old ∈ rows, key old = key row) ∨ (new ∈ rows ∧ key new ≠ key row) := by
  constructor
  · intro mem
    obtain ⟨old, mem, same⟩ := List.mem_map.mp mem
    by_cases hit : key old = key row
    · exact .inl ⟨by simpa [hit] using same.symm, old, mem, hit⟩
    · have kept : old = new := by simpa [hit] using same
      exact .inr ⟨kept ▸ mem, kept ▸ hit⟩
  · intro made
    apply List.mem_map.mpr
    rcases made with ⟨rfl, old, mem, hit⟩ | ⟨mem, miss⟩
    · exact ⟨old, mem, by simp [hit]⟩
    · exact ⟨new, mem, by simp [miss]⟩

@[simp] theorem map_key_put [DecidableEq K] (row : R) (rows : List R) : (put key row rows).map key = rows.map key := by
  rw [put, List.map_map]
  apply List.map_congr_left
  intro old _
  by_cases hit : key old = key row <;> simp [hit]

theorem row_unique {rows : List R} (keys : (rows.map key).Nodup) {a b : R} (ha : a ∈ rows) (hb : b ∈ rows)
    (same : key a = key b) : a = b := List.inj_on_of_nodup_map keys ha hb same

theorem put_self [DecidableEq K] {rows : List R} (keys : (rows.map key).Nodup) {row : R} (mem : row ∈ rows) :
    put key row rows = rows := by
  unfold put
  refine (List.map_congr_left fun old there => ?_).trans (List.map_id _)
  by_cases hit : key old = key row
  · rw [if_pos hit]
    exact row_unique keys mem there hit.symm
  · exact if_neg hit

theorem only_row {rows : List R} {cond : R → Prop} [DecidablePred cond]
    (few : (rows.filter fun row => cond row).length ≤ 1) {a b : R} (ha : a ∈ rows) (hb : b ∈ rows)
    (cond_a : cond a) (cond_b : cond b) : a = b := by
  have in_a : a ∈ rows.filter fun row => cond row := List.mem_filter.mpr ⟨ha, decide_eq_true cond_a⟩
  have in_b : b ∈ rows.filter fun row => cond row := List.mem_filter.mpr ⟨hb, decide_eq_true cond_b⟩
  generalize (rows.filter fun row => decide (cond row)) = chosen at *
  match chosen, few with
  | [], _ => exact absurd in_a List.not_mem_nil
  | [_], _ => exact (List.mem_singleton.mp in_a).trans (List.mem_singleton.mp in_b).symm
  | _ :: _ :: _, few => simp at few

theorem filterMap_put [DecidableEq K] {A : Type*} {column : R → Option A} {rows : List R}
    (keys : (rows.map key).Nodup) {old new : R} (mem : old ∈ rows) (same : key new = key old)
    (kept : column new = column old) : (put key new rows).filterMap column = rows.filterMap column := by
  rw [put, List.filterMap_map]
  apply List.filterMap_congr
  intro row row_mem
  by_cases hit : key row = key new
  · have one : row = old := row_unique keys row_mem mem (hit.trans same)
    simp [one, same, kept]
  · simp [hit]

theorem filter_put_le [DecidableEq K] {cond : R → Prop} [DecidablePred cond] {rows : List R}
    (keys : (rows.map key).Nodup) {old new : R} (mem : old ∈ rows) (same : key new = key old)
    (before : cond new → cond old) :
    ((put key new rows).filter fun row => cond row).length ≤ (rows.filter fun row => cond row).length := by
  rw [← List.countP_eq_length_filter, ← List.countP_eq_length_filter, put, List.countP_map]
  apply List.countP_mono_left
  intro row row_mem holds
  by_cases hit : key row = key new
  · have one : row = old := row_unique keys row_mem mem (hit.trans same)
    simp only [Function.comp_apply, hit, if_true, decide_eq_true_eq] at holds
    exact decide_eq_true (one ▸ before holds)
  · simpa [hit] using holds

theorem find_change [DecidableEq K] [DecidableEq R] {table rows : List R} (keys : (table.map key).Nodup) (sub : rows ⊆ table)
    {change : R → Option R} (same : ∀ row new, change row = some new → key new = key row) {row : R}
    (mem : row ∈ table) :
    (rows.filterMap change).find? (fun new => decide (key new = key row)) =
      if row ∈ rows then change row else none := by
  induction rows with
  | nil => simp
  | cons first rest ih =>
    have later := ih fun other other_mem => sub (List.mem_cons_of_mem _ other_mem)
    by_cases hit : row = first
    · subst hit
      cases changed : change row with
      | none => simpa [List.filterMap_cons, changed] using later
      | some new => simp [changed, same row new changed]
    · have miss : key first ≠ key row := by
        intro collide
        exact hit (row_unique keys mem (sub List.mem_cons_self) collide.symm)
      have inside : row ∈ first :: rest ↔ row ∈ rest := by simp [hit]
      cases changed : change first with
      | none => simpa [List.filterMap_cons, changed, hit] using later
      | some new =>
        have other : key new ≠ key row := same first new changed ▸ miss
        simpa [List.filterMap_cons, changed, hit, other] using later

theorem perm_rest [DecidableEq R] {table rows : List R} (keys : (table.map key).Nodup) (sub : rows.Subperm table)
    {change : R → R} (outside : ∀ row, row ∉ rows → change row = row) :
    ∃ rest, table.Perm (rows ++ rest) ∧ (table.map change).Perm (rows.map change ++ rest) := by
  have split : (rows ++ table.diff rows).Perm table :=
    List.subperm_append_diff_self_of_count_le fun row _ => sub.count_le row
  have nodup : (rows ++ table.diff rows).Nodup := split.nodup_iff.mpr keys.of_map
  refine ⟨table.diff rows, split.symm, ?_⟩
  have kept : (table.diff rows).map change = table.diff rows := by
    have same : ∀ row ∈ table.diff rows, change row = id row := by
      intro row mem
      apply outside
      intro taken
      exact (List.nodup_append.mp nodup).2.2 row taken row mem rfl
    exact (List.map_congr_left same).trans (List.map_id _)
  rw [← kept, ← List.map_append]
  exact split.symm.map change

variable (key)

/-- Every row is new or comes from an old one, unchanged or by a step; no row disappears. -/
structure Evolves (Step : R → R → Prop) (Fresh : R → Prop) (before after : List R) : Prop where
  source : ∀ new ∈ after, (Fresh new ∧ ∀ old ∈ before, key old ≠ key new) ∨
    ∃ old ∈ before, new = old ∨ Step old new
  kept : ∀ old ∈ before, ∃ new ∈ after, new = old ∨ Step old new

variable {key} {Step : R → R → Prop} {Fresh : R → Prop} {before after : List R}

theorem Evolves.refl (rows : List R) : Evolves key Step Fresh rows rows where
  source new mem := .inr ⟨new, mem, .inl rfl⟩
  kept old mem := ⟨old, mem, .inl rfl⟩

theorem Evolves.put [DecidableEq K] (keys : (before.map key).Nodup) {old new : R} (mem : old ∈ before)
    (same : key new = key old) (step : Step old new) :
    Evolves key Step Fresh before (put key new before) where
  source row row_mem := by
    rcases mem_put.mp row_mem with ⟨rfl, -⟩ | ⟨kept, -⟩
    · exact .inr ⟨old, mem, .inr step⟩
    · exact .inr ⟨row, kept, .inl rfl⟩
  kept row row_mem := by
    by_cases hit : key row = key new
    · have this_row : row = old := row_unique keys row_mem mem (hit.trans same)
      exact ⟨new, mem_put.mpr (.inl ⟨rfl, row, row_mem, hit⟩), .inr (this_row ▸ step)⟩
    · exact ⟨row, mem_put.mpr (.inr ⟨row_mem, hit⟩), .inl rfl⟩

theorem Evolves.append (evolves : Evolves key Step Fresh before after) {row : R} (fresh : Fresh row)
    (unused : ∀ old ∈ before, key old ≠ key row) : Evolves key Step Fresh before (after ++ [row]) where
  source new mem := by
    rcases List.mem_append.mp mem with mem | last
    · exact evolves.source new mem
    · rw [List.mem_singleton.mp last]
      exact .inl ⟨fresh, unused⟩
  kept old mem := by
    obtain ⟨new, new_mem, step⟩ := evolves.kept old mem
    exact ⟨new, List.mem_append_left _ new_mem, step⟩

theorem Evolves.mono {Weaker : R → R → Prop} (weaken : ∀ old new, Step old new → Weaker old new)
    (evolves : Evolves key Step Fresh before after) : Evolves key Weaker Fresh before after where
  source new mem := (evolves.source new mem).imp_right
    fun ⟨old, old_mem, made⟩ => ⟨old, old_mem, made.imp_right (weaken old new)⟩
  kept old mem :=
    let ⟨new, new_mem, made⟩ := evolves.kept old mem
    ⟨new, new_mem, made.imp_right (weaken old new)⟩

theorem Evolves.widen {Wider : R → Prop} (wider : ∀ new, Fresh new → Wider new)
    (evolves : Evolves key Step Fresh before after) : Evolves key Step Wider before after where
  source new mem := (evolves.source new mem).imp_left fun ⟨fresh, unused⟩ => ⟨wider new fresh, unused⟩
  kept := evolves.kept

theorem Evolves.row (evolves : Evolves key Step Fresh before after) (keys : (before.map key).Nodup)
    (keeps : ∀ old new, Step old new → key new = key old) {old new : R} (old_mem : old ∈ before)
    (new_mem : new ∈ after) (same : key new = key old) : new = old ∨ Step old new := by
  rcases evolves.source new new_mem with ⟨-, unused⟩ | ⟨origin, origin_mem, made⟩
  · exact absurd same.symm (unused old old_mem)
  · have origin_key : key new = key origin := by
      rcases made with rfl | step
      · rfl
      · exact keeps origin new step
    rw [row_unique keys old_mem origin_mem (same.symm.trans origin_key)]
    exact made

def Rewrites (Step : R → R → Prop) (before after : List R) : Prop :=
  ∃ f : R → R, after = before.map f ∧ ∀ row ∈ before, Step row (f row)

theorem Rewrites.refl (same : ∀ row, Step row row) (rows : List R) : Rewrites Step rows rows :=
  ⟨id, (List.map_id _).symm, fun row _ => same row⟩

theorem Rewrites.trans {last : List R} (chain : ∀ a b c, Step a b → Step b c → Step a c) (first : Rewrites Step before after)
    (second : Rewrites Step after last) : Rewrites Step before last := by
  obtain ⟨f, rfl, stepF⟩ := first
  obtain ⟨g, rfl, stepG⟩ := second
  refine ⟨g ∘ f, List.map_map, fun row mem => ?_⟩
  exact chain _ _ _ (stepF row mem) (stepG (f row) (List.mem_map_of_mem mem))

theorem Rewrites.put [DecidableEq K] (same : ∀ row, Step row row) (keys : (before.map key).Nodup) {old new : R}
    (mem : old ∈ before) (kept : key new = key old) (step : Step old new) : Rewrites Step before (put key new before) := by
  refine ⟨fun row => if key row = key new then new else row, rfl, fun row row_mem => ?_⟩
  dsimp only
  by_cases hit : key row = key new
  · rw [if_pos hit, row_unique keys row_mem mem (hit.trans kept)]
    exact step
  · rw [if_neg hit]
    exact same row

theorem Rewrites.source (rewrites : Rewrites Step before after) {new : R} (mem : new ∈ after) :
    ∃ old ∈ before, Step old new := by
  obtain ⟨f, rfl, step⟩ := rewrites
  obtain ⟨old, old_mem, rfl⟩ := List.mem_map.mp mem
  exact ⟨old, old_mem, step old old_mem⟩

theorem Rewrites.kept (rewrites : Rewrites Step before after) {old : R} (mem : old ∈ before) :
    ∃ new ∈ after, Step old new := by
  obtain ⟨f, rfl, step⟩ := rewrites
  exact ⟨f old, List.mem_map_of_mem mem, step old mem⟩

theorem Rewrites.keys (rewrites : Rewrites Step before after) (keeps : ∀ old new, Step old new → key new = key old) :
    after.map key = before.map key := by
  obtain ⟨f, rfl, step⟩ := rewrites
  rw [List.map_map]
  apply List.map_congr_left
  intro row mem
  exact keeps row (f row) (step row mem)

end Tables

end MapBackend.Library
