import MapBackend.Library.Tables

/-!
Dictionaries that cache the rows of a table under their keys.
-/

namespace MapBackend.Library

abbrev Dict (K V : Type*) := K → Option V

namespace Dict

section Basic

variable {K V : Type*}

def empty : Dict K V := fun _ => none

def Agrees (cache source : Dict K V) : Prop := ∀ k v, cache k = some v → source k = some v

theorem agrees_empty (source : Dict K V) : Agrees empty source := fun _ _ found => by cases found

theorem Agrees.eq {cache source : Dict K V} (agrees : Agrees cache source) {k : K}
    (settled : (cache k).isSome ∨ source k = none) : cache k = source k := by
  cases entry : cache k with
  | some v => exact (agrees k v entry).symm
  | none =>
    rcases settled with found | absent
    · rw [entry] at found
      cases found
    · exact absent.symm

variable [DecidableEq K]

def set (cache : Dict K V) (k : K) (v : V) : Dict K V := fun other => if other = k then some v else cache other

def setdefault (cache : Dict K V) (k : K) (v : V) : Dict K V := if (cache k).isSome then cache else cache.set k v

@[simp] theorem set_self (cache : Dict K V) (k : K) (v : V) : cache.set k v k = some v := if_pos rfl

theorem set_other (cache : Dict K V) {k other : K} (v : V) (ne : other ≠ k) : cache.set k v other = cache other := if_neg ne

theorem of_set {cache : Dict K V} {k other : K} {v w : V} (found : cache.set k v other = some w) :
    (other = k ∧ w = v) ∨ cache other = some w := by
  by_cases same : other = k
  · subst same
    rw [set_self] at found
    exact .inl ⟨rfl, (Option.some.inj found).symm⟩
  · rw [set_other cache v same] at found
    exact .inr found

theorem Agrees.set {cache source : Dict K V} (agrees : Agrees cache source) {k : K} {v : V} (row : source k = some v) :
    Agrees (cache.set k v) source := by
  intro other w found
  rcases of_set found with ⟨rfl, rfl⟩ | before
  · exact row
  · exact agrees other w before

theorem Agrees.setdefault {cache source : Dict K V} (agrees : Agrees cache source) {k : K} {v : V} (row : source k = some v) :
    Agrees (cache.setdefault k v) source := by
  rw [Dict.setdefault]
  split
  · exact agrees
  · exact agrees.set row

theorem isSome_set (cache : Dict K V) {k other : K} (v : V) (found : other = k ∨ (cache other).isSome) :
    (cache.set k v other).isSome := by
  by_cases same : other = k
  · rw [same, set_self]
    rfl
  · rw [set_other cache v same]
    exact found.resolve_left same

theorem isSome_setdefault (cache : Dict K V) {k other : K} (v : V) (found : other = k ∨ (cache other).isSome) :
    (cache.setdefault k v other).isSome := by
  rw [Dict.setdefault]
  split
  next there => exact found.elim (fun same => same ▸ there) id
  next => exact isSome_set cache v found

theorem of_setdefault {cache : Dict K V} {k other : K} {v w : V} (found : cache.setdefault k v other = some w) :
    (other = k ∧ w = v) ∨ cache other = some w := by
  rw [Dict.setdefault] at found
  split at found
  · exact .inr found
  · exact of_set found

end Basic

section Rows

variable {K R : Type*} [DecidableEq K] (key : R → K)

def find (table : List R) : Dict K R := fun k => table.find? fun row => decide (key row = k)

def fill (rows : List R) (cache : Dict K R) : Dict K R := rows.foldl (fun cache row => cache.set (key row) row) cache

def fillDefault (rows : List R) (cache : Dict K R) : Dict K R :=
  rows.foldl (fun cache row => cache.setdefault (key row) row) cache

variable {key} {table rows : List R}

theorem key_of_find {k : K} {row : R} (found : find key table k = some row) : row ∈ table ∧ key row = k := by
  have same := List.find?_some (show table.find? (fun row => decide (key row = k)) = some row from found)
  exact ⟨List.mem_of_find?_eq_some found, of_decide_eq_true same⟩

theorem find_of_mem (keys : (table.map key).Nodup) {row : R} (mem : row ∈ table) : find key table (key row) = some row := by
  cases found : find key table (key row) with
  | none => exact absurd (decide_eq_true rfl) (List.find?_eq_none.mp found row mem)
  | some =>
    obtain ⟨other_mem, same⟩ := key_of_find found
    rw [row_unique keys other_mem mem same]

theorem find_eq_none {k : K} : find key table k = none ↔ ∀ row ∈ table, key row ≠ k := by
  simp [find]

theorem Agrees.fill (keys : (table.map key).Nodup) (sub : rows ⊆ table) {cache : Dict K R}
    (agrees : Agrees cache (find key table)) : Agrees (fill key rows cache) (find key table) := by
  induction rows generalizing cache with
  | nil => exact agrees
  | cons _ _ ih =>
    obtain ⟨mem, sub⟩ := List.cons_subset.mp sub
    exact ih sub (agrees.set (find_of_mem keys mem))

theorem Agrees.fillDefault (keys : (table.map key).Nodup) (sub : rows ⊆ table) {cache : Dict K R}
    (agrees : Agrees cache (find key table)) : Agrees (fillDefault key rows cache) (find key table) := by
  induction rows generalizing cache with
  | nil => exact agrees
  | cons _ _ ih =>
    obtain ⟨mem, sub⟩ := List.cons_subset.mp sub
    exact ih sub (agrees.setdefault (find_of_mem keys mem))

theorem isSome_fill {cache : Dict K R} {k : K} (found : (∃ row ∈ rows, key row = k) ∨ (cache k).isSome) :
    (fill key rows cache k).isSome := by
  induction rows generalizing cache with
  | nil => exact found.resolve_left fun ⟨_, mem, _⟩ => absurd mem List.not_mem_nil
  | cons row _ ih =>
    refine ih ?_
    rcases found with ⟨other, mem, same⟩ | there
    · rcases List.mem_cons.mp mem with rfl | mem
      · exact .inr (isSome_set cache other (.inl same.symm))
      · exact .inl ⟨other, mem, same⟩
    · exact .inr (isSome_set cache row (.inr there))

theorem isSome_fillDefault {cache : Dict K R} {k : K} (found : (∃ row ∈ rows, key row = k) ∨ (cache k).isSome) :
    (fillDefault key rows cache k).isSome := by
  induction rows generalizing cache with
  | nil => exact found.resolve_left fun ⟨_, mem, _⟩ => absurd mem List.not_mem_nil
  | cons row _ ih =>
    refine ih ?_
    rcases found with ⟨other, mem, same⟩ | there
    · rcases List.mem_cons.mp mem with rfl | mem
      · exact .inr (isSome_setdefault cache other (.inl same.symm))
      · exact .inl ⟨other, mem, same⟩
    · exact .inr (isSome_setdefault cache row (.inr there))

theorem of_fillDefault {cache : Dict K R} {k : K} {row : R} (found : fillDefault key rows cache k = some row) :
    row ∈ rows ∨ cache k = some row := by
  induction rows generalizing cache with
  | nil => exact .inr found
  | cons _ _ ih =>
    rcases ih found with mem | before
    · exact .inl (List.mem_cons_of_mem _ mem)
    · rcases of_setdefault before with ⟨-, rfl⟩ | older
      · exact .inl List.mem_cons_self
      · exact .inr older

end Rows

/-! ## Rows that point to rows -/

section Load

variable {K R : Type*} [DecidableEq K] (key : R → K) (next : R → Option K) (table : List R)

/-- Read the pending rows, then the rows that they point to, until a round finds none. -/
def load : ℕ → List K → Dict K R → Dict K R
  | 0, _, cache => cache
  | rounds + 1, pending, cache =>
    let rows := table.filter fun row => pending.contains (key row)
    if rows.isEmpty then cache
    else
      let cache := fillDefault key rows cache
      load rounds ((rows.filterMap next).filter fun k => (cache k).isNone) cache

variable {key next table}

def missing (key : R → K) (table : List R) (cache : Dict K R) : ℕ := (table.filter fun row => (cache (key row)).isNone).length

def Settled (key : R → K) (table : List R) (pending : List K) (cache : Dict K R) (k : K) : Prop :=
  (cache k).isSome ∨ k ∈ pending ∨ find key table k = none

/-- A cache that agrees with the table and settles every key that one of its rows points to. -/
structure Closing (key : R → K) (next : R → Option K) (table : List R) (pending : List K) (cache : Dict K R) : Prop where
  agrees : Agrees cache (find key table)
  settled : ∀ k row, cache k = some row → ∀ other ∈ next row, Settled key table pending cache other

theorem Settled.round {pending : List K} {cache : Dict K R} {k : K} (settled : Settled key table pending cache k) (later : List K) :
    Settled key table later (fillDefault key (table.filter fun row => pending.contains (key row)) cache) k := by
  rcases settled with there | asked | absent
  · exact .inl (isSome_fillDefault (.inr there))
  · cases found : find key table k with
    | none => exact .inr (.inr found)
    | some row =>
      obtain ⟨mem, same⟩ := key_of_find found
      refine .inl (isSome_fillDefault (.inl ⟨row, List.mem_filter.mpr ⟨mem, ?_⟩, same⟩))
      simpa [same] using asked
  · exact .inr (.inr absent)

theorem missing_round {pending : List K} {cache : Dict K R} (fresh : ∀ k ∈ pending, cache k = none)
    (found : (table.filter fun row => pending.contains (key row)) ≠ []) :
    missing key table (fillDefault key (table.filter fun row => pending.contains (key row)) cache) < missing key table cache := by
  obtain ⟨row, mem⟩ := List.exists_mem_of_ne_nil _ found
  obtain ⟨row_mem, asked⟩ := List.mem_filter.mp mem
  generalize loaded : fillDefault key (table.filter fun row => pending.contains (key row)) cache = later
  have now : (later (key row)).isSome := loaded ▸ isSome_fillDefault (.inl ⟨row, mem, rfl⟩)
  have before : cache (key row) = none := fresh _ (by simpa using asked)
  have kept : ∀ k, later k = none → cache k = none := by
    intro k none
    by_contra there
    have still : (later k).isSome := loaded ▸ isSome_fillDefault (.inr (Option.isSome_iff_ne_none.mpr there))
    rw [none] at still
    cases still
  have same : (table.filter fun row => (later (key row)).isNone) =
      (table.filter fun row => (cache (key row)).isNone).filter fun row => (later (key row)).isNone := by
    rw [List.filter_filter]
    apply List.filter_congr
    intro other _
    cases after : later (key other) with
    | none => simp [kept _ after]
    | some => simp
  rw [missing, missing, same, List.length_filter_lt_length_iff_exists]
  refine ⟨row, List.mem_filter.mpr ⟨row_mem, by simp [before]⟩, ?_⟩
  obtain ⟨_, entry⟩ := Option.isSome_iff_exists.mp now
  simp [entry]

theorem load_closing (keys : (table.map key).Nodup) {rounds : ℕ} {pending : List K} {cache : Dict K R}
    (closing : Closing key next table pending cache) (fresh : ∀ k ∈ pending, cache k = none)
    (enough : missing key table cache < rounds) :
    Closing key next table [] (load key next table rounds pending cache) ∧
      ∀ k, Settled key table pending cache k → Settled key table [] (load key next table rounds pending cache) k := by
  induction rounds generalizing pending cache with
  | zero => exact absurd enough (Nat.not_lt_zero _)
  | succ _ ih =>
    rw [load]
    split
    next empty =>
      have absent : ∀ k, Settled key table pending cache k → Settled key table [] cache k := by
        intro k settled
        refine settled.imp_right fun rest => .inr (rest.elim (fun asked => ?_) id)
        refine find_eq_none.mpr fun row mem same => ?_
        have inside : row ∈ table.filter fun row => pending.contains (key row) :=
          List.mem_filter.mpr ⟨mem, by simpa [same] using asked⟩
        rw [List.isEmpty_iff.mp empty] at inside
        exact absurd inside List.not_mem_nil
      exact ⟨⟨closing.agrees, fun k row entry other points => absent _ (closing.settled k row entry other points)⟩, absent⟩
    next found =>
      have some_row : (table.filter fun row => pending.contains (key row)) ≠ [] := by simpa using found
      have fewer := missing_round fresh some_row
      generalize rows_eq : (table.filter fun row => pending.contains (key row)) = rows at *
      have sub : rows ⊆ table := by
        rw [← rows_eq]
        exact List.filter_subset_self table
      generalize later_eq : ((rows.filterMap next).filter fun k => (fillDefault key rows cache k).isNone) = later
      have round : ∀ k, Settled key table pending cache k → Settled key table later (fillDefault key rows cache) k := by
        intro k settled
        rw [← rows_eq]
        exact settled.round later
      have closing' : Closing key next table later (fillDefault key rows cache) := by
        refine ⟨closing.agrees.fillDefault keys sub, fun k row entry other points => ?_⟩
        rcases of_fillDefault entry with mem | before
        · by_cases there : (fillDefault key rows cache other).isSome
          · exact .inl there
          · refine .inr (.inl ?_)
            rw [← later_eq]
            exact List.mem_filter.mpr ⟨List.mem_filterMap.mpr ⟨row, mem, points⟩, by simpa using there⟩
        · exact round _ (closing.settled k row before other points)
      have fresh' : ∀ k ∈ later, fillDefault key rows cache k = none := by
        intro k mem
        rw [← later_eq] at mem
        simpa using (List.mem_filter.mp mem).2
      obtain ⟨closed, settles⟩ := ih closing' fresh' (by omega)
      subst later_eq
      exact ⟨closed, fun k settled => settles k (round k settled)⟩

theorem isSome_load {rounds : ℕ} {pending : List K} {cache : Dict K R} {k : K} (there : (cache k).isSome) :
    (load key next table rounds pending cache k).isSome := by
  induction rounds generalizing pending cache with
  | zero => exact there
  | succ _ ih =>
    rw [load]
    split
    · exact there
    · exact ih (isSome_fillDefault (.inr there))

theorem of_load {rounds : ℕ} {pending : List K} {cache : Dict K R} {k : K} {row : R}
    (found : load key next table rounds pending cache k = some row) : row ∈ table ∨ cache k = some row := by
  induction rounds generalizing pending cache with
  | zero => exact .inr found
  | succ _ ih =>
    rw [load] at found
    split at found
    · exact .inr found
    · rcases ih found with mem | before
      · exact .inl mem
      · exact (of_fillDefault before).imp_left fun mem => (List.mem_filter.mp mem).1

end Load

/-! ## Rows with more than the table shows -/

section Images

variable {K A R : Type*} [DecidableEq K] {key : R → K} {next : R → Option K} (f : A → R)

theorem setdefault_map (cache : Dict K A) (k : K) (a : A) :
    (fun other => (cache.setdefault k a other).map f) = setdefault (fun other => (cache other).map f) k (f a) := by
  funext other
  unfold setdefault
  rw [Option.isSome_map]
  split
  · rfl
  · unfold set
    split <;> rfl

theorem fillDefault_map (objects : List A) (cache : Dict K A) :
    (fun k => (fillDefault (key ∘ f) objects cache k).map f) = fillDefault key (objects.map f) fun k => (cache k).map f := by
  induction objects generalizing cache with
  | nil => rfl
  | cons object _ ih =>
    have step := ih (cache.setdefault (key (f object)) object)
    rw [setdefault_map] at step
    exact step

theorem load_map (table : List A) (rounds : ℕ) (pending : List K) (cache : Dict K A) :
    (fun k => (load (key ∘ f) (next ∘ f) table rounds pending cache k).map f) =
      load key next (table.map f) rounds pending fun k => (cache k).map f := by
  induction rounds generalizing pending cache with
  | zero => rfl
  | succ _ ih =>
    have rows : (table.map f).filter (fun row => pending.contains (key row)) =
        (table.filter fun object => pending.contains (key (f object))).map f := by
      rw [List.filter_map]
      rfl
    simp only [load, rows, List.isEmpty_map, Function.comp_apply]
    by_cases none : (table.filter fun object => pending.contains (key (f object))).isEmpty = true
    · simp only [none, if_true]
    · simp only [none]
      have later := ih (((table.filter fun object => pending.contains (key (f object))).filterMap (next ∘ f)).filter fun k =>
        (fillDefault (key ∘ f) (table.filter fun object => pending.contains (key (f object))) cache k).isNone)
        (fillDefault (key ∘ f) (table.filter fun object => pending.contains (key (f object))) cache)
      have filled := @fillDefault_map _ _ _ _ key f (table.filter fun object => pending.contains (key (f object))) cache
      rw [filled] at later
      refine later.trans ?_
      rw [List.filterMap_map, ← filled]
      congr 1
      congr 1
      funext k
      rw [Option.isNone_map]

end Images

end Dict

end MapBackend.Library
