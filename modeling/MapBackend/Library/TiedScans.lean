import Mathlib.Data.List.Dedup
import Mathlib.Data.List.Sort
import Mathlib.Data.List.TakeWhile
import MapBackend.Library.Choices
import MapBackend.Library.Distinct

/-!
Scans of sorted rows that keep the first row of every key, up to a limit.
-/

namespace MapBackend.Library

def notAfter {A R : Type*} [LinearOrder R] (rank : A → R) (a b : A) : Bool := decide (rank a ≤ rank b)

/-- How rows are sorted, which of them count, what tells them apart, and what is kept of them. -/
structure Scan (A R K E : Type*) where
  rank : A → R
  keep : A → Bool
  key : A → K
  entry : A → E
  limit : ℕ

namespace Scan

section Orders

variable {A R K E : Type*} [LinearOrder R] {scan : Scan A R K E} {rows : List A} {a b : A}

def le (scan : Scan A R K E) : A → A → Bool := notAfter scan.rank

theorem le_iff : scan.le a b = true ↔ scan.rank a ≤ scan.rank b := decide_eq_true_iff

theorem exists_arranged (scan : Scan A R K E) (rows : List A) : ∃ l, Arranges scan.le rows l := by
  have trans (a b c : A) (first : scan.le a b = true) (second : scan.le b c = true) : scan.le a c = true :=
    le_iff.mpr ((le_iff.mp first).trans (le_iff.mp second))
  have total (a b : A) : (scan.le a b || scan.le b a) = true := by
    rw [Bool.or_eq_true, le_iff, le_iff]
    exact le_total _ _
  exact ⟨rows.mergeSort scan.le, rows.mergeSort_perm scan.le, List.pairwise_mergeSort trans total rows⟩

theorem exists_leading (scan : Scan A R K E) (mem : a ∈ rows) : ∃ lower upper, Arranges scan.le rows (lower ++ a :: upper) ∧
    (∀ b ∈ lower, scan.rank b < scan.rank a) ∧ ∀ b ∈ a :: upper, scan.rank a ≤ scan.rank b := by
  obtain ⟨before, after, rfl⟩ := List.append_of_mem mem
  let r (x y : A) : Prop := scan.rank x ≤ scan.rank y
  have : Std.Total r := ⟨fun x y => le_total (scan.rank x) (scan.rank y)⟩
  have : IsTrans A r := ⟨fun _ _ _ => le_trans⟩
  let others := (before ++ after).insertionSort r
  have sorted : (List.insertionSort r (a :: (before ++ after))).Pairwise r := List.pairwise_insertionSort r _
  have perm : (List.insertionSort r (a :: (before ++ after))).Perm (before ++ a :: after) :=
    (List.perm_insertionSort r _).trans List.perm_middle.symm
  have split := List.insertionSort_cons_eq_take_drop r a (before ++ after)
  rw [split] at sorted perm
  refine ⟨_, _, ⟨perm, sorted.imp le_iff.mpr⟩, fun b there => ?_, fun b there => ?_⟩
  · have small := List.mem_takeWhile_imp there
    exact not_le.mp (of_decide_eq_true small)
  · rcases List.mem_cons.mp there with rfl | late
    · exact le_refl _
    · exact (List.pairwise_cons.mp (List.pairwise_append.mp sorted).2.1).1 b late

end Orders

section Lists

variable {A R K E : Type*} [DecidableEq K] (scan : Scan A R K E)

def kept (l : List A) : List A := distinct scan.key [] (l.filter scan.keep)

def entries (l : List A) : List E := (scan.kept l).map scan.entry

def result (l : List A) : List E := (scan.entries l).take scan.limit

variable {scan} {l : List A} {a b d : A}

theorem mem_of_kept (mem : d ∈ scan.kept l) : d ∈ l ∧ scan.keep d = true :=
  List.mem_filter.mp ((distinct.sublist _ _ _).subset mem)

theorem same_of_key (mem : a ∈ scan.kept l) (mem' : b ∈ scan.kept l) (same : scan.key a = scan.key b) : a = b :=
  List.inj_on_of_nodup_map (distinct.nodup _ _ _) mem mem' same

theorem result_nodup (own : ∀ a b, scan.entry a = scan.entry b → scan.key a = scan.key b) (l : List A) : (scan.result l).Nodup := by
  have keys : (scan.kept l).Pairwise fun a b => scan.key a ≠ scan.key b := List.pairwise_map.mp (distinct.nodup _ _ _)
  have entries : (scan.entries l).Nodup := List.pairwise_map.mpr (keys.imp fun {a b} apart same => apart (own a b same))
  exact entries.sublist (List.take_sublist _ _)

theorem entries_append (xs ys : List A) : scan.entries xs <+: scan.entries (xs ++ ys) := by
  rw [entries, entries, kept, kept, List.filter_append, distinct.append, List.map_append]
  exact List.prefix_append _ _

theorem filter_leads {p : A → Bool} {xs : List A} (sorted : xs.Pairwise fun a b => p b = true → p a = true) : ∃ rest, xs = xs.filter p ++ rest := by
  induction xs with
  | nil => exact ⟨[], rfl⟩
  | cons a xs ih =>
    obtain ⟨first, later⟩ := List.pairwise_cons.mp sorted
    by_cases leads : p a = true
    · obtain ⟨rest, split⟩ := ih later
      refine ⟨rest, ?_⟩
      rw [List.filter_cons_of_pos leads, List.cons_append, ← split]
    · have none_left : xs.filter p = [] := List.filter_eq_nil_iff.mpr fun b mem other => leads (first b mem other)
      exact ⟨a :: xs, by rw [List.filter_cons_of_neg leads, none_left, List.nil_append]⟩

theorem of_result {e : E} (mem : e ∈ scan.result l) : ∃ d ∈ scan.kept l, scan.entry d = e :=
  List.mem_map.mp (List.mem_of_mem_take mem)

theorem reached {before after : List A} {item : A} (keep : scan.keep item = true) (room : (scan.entries before).length < scan.limit) :
    ∃ d ∈ scan.kept (before ++ item :: after), scan.key d = scan.key item ∧ scan.entry d ∈ scan.result (before ++ item :: after) := by
  have split : scan.kept (before ++ item :: after) =
      scan.kept before ++ distinct scan.key ([] ++ (before.filter scan.keep).map scan.key) (item :: after.filter scan.keep) := by
    rw [kept, List.filter_append, distinct.append, List.filter_cons_of_pos keep, kept]
  rw [entries, List.length_map] at room
  have placed {d : A} {rest : List A} {place : ℕ} (whole : scan.kept (before ++ item :: after) = rest) (small : place < scan.limit)
      (here : rest[place]? = some d) : scan.entry d ∈ scan.result (before ++ item :: after) := by
    refine List.mem_of_getElem? (i := place) ?_
    rw [result, List.getElem?_take_of_lt small, entries, List.getElem?_map, whole, here, Option.map_some]
  by_cases seen : scan.key item ∈ [] ++ (before.filter scan.keep).map scan.key
  · obtain ⟨c, there, same⟩ := List.mem_map.mp seen
    obtain none_seen | ⟨d, kept, same'⟩ := @distinct.covers _ _ _ scan.key [] _ c there
    · cases none_seen
    · have early : d ∈ scan.kept before := kept
      obtain ⟨place, bound, here⟩ := List.mem_iff_getElem.mp early
      refine ⟨d, split ▸ List.mem_append_left _ early, same'.trans same, placed split (lt_trans bound room) ?_⟩
      rw [List.getElem?_append_left bound]
      exact (List.getElem?_eq_some_iff).mpr ⟨bound, here⟩
  · rw [distinct, if_neg seen] at split
    refine ⟨item, split ▸ List.mem_append_right _ List.mem_cons_self, rfl, placed split room ?_⟩
    rw [List.getElem?_append_right (Nat.le_refl _), Nat.sub_self, List.getElem?_cons_zero]

end Lists

variable {A R K E : Type*} [LinearOrder R] [DecidableEq K] (scan : Scan A R K E)

def earlier (rows : List A) (level : R) : List K :=
  ((rows.filter fun a => scan.keep a && decide (scan.rank a < level)).map scan.key).dedup

def Settled (rows : List A) : Prop :=
  ∀ a ∈ rows, ∀ b ∈ rows, scan.keep a = true → scan.keep b = true → scan.rank a = scan.rank b → scan.entry a ≠ scan.entry b →
    scan.key a ∈ scan.earlier rows (scan.rank a) ∨ scan.key b ∈ scan.earlier rows (scan.rank b) ∨
      scan.limit ≤ (scan.earlier rows (scan.rank a)).length

variable {scan} {rows l l' lower upper : List A} {a b d : A} {level : R} {k : K}

theorem mem_earlier : k ∈ scan.earlier rows level ↔ ∃ c ∈ rows, scan.keep c = true ∧ scan.rank c < level ∧ scan.key c = k := by
  simp only [earlier, List.mem_dedup, List.mem_map, List.mem_filter, Bool.and_eq_true, decide_eq_true_eq, and_assoc]

theorem earlier_nodup : (scan.earlier rows level).Nodup := List.nodup_dedup _

theorem kept_earliest (arranged : Arranges scan.le rows l) (mem : d ∈ scan.kept l) : scan.key d ∉ scan.earlier rows (scan.rank d) := by
  intro before
  obtain ⟨c, c_mem, kept, lt, same⟩ := mem_earlier.mp before
  obtain ⟨-, -, least⟩ := find_first (arranged.filter scan.keep) (distinct.first mem)
  rcases least c (List.mem_filter.mpr ⟨c_mem, kept⟩) (decide_eq_true same) with rfl | le
  · exact lt_irrefl _ lt
  · exact absurd (le_iff.mp le) (not_le.mpr lt)

theorem kept_of_mem (arranged : Arranges scan.le rows l) (mem : a ∈ rows) (keep : scan.keep a = true) :
    ∃ d ∈ scan.kept l, scan.key d = scan.key a ∧ scan.rank d ≤ scan.rank a := by
  have there : a ∈ l.filter scan.keep := List.mem_filter.mpr ⟨arranged.1.mem_iff.mpr mem, keep⟩
  obtain none_seen | ⟨d, kept, same⟩ := @distinct.covers _ _ _ scan.key [] _ a there
  · cases none_seen
  · refine ⟨d, kept, same, le_of_not_gt fun lt => kept_earliest arranged kept ?_⟩
    exact mem_earlier.mpr ⟨a, mem, keep, lt, same.symm⟩

theorem kept_sorted (arranged : Arranges scan.le rows l) :
    (scan.kept l).Pairwise fun a b => scan.rank a ≤ scan.rank b ∧ scan.key a ≠ scan.key b := by
  have sorted : (scan.kept l).Pairwise fun a b => scan.le a b = true :=
    List.Pairwise.sublist (distinct.sublist _ _ _) (arranged.filter scan.keep).2
  have apart : (scan.kept l).Pairwise fun a b => scan.key a ≠ scan.key b := List.pairwise_map.mp (distinct.nodup _ _ _)
  exact List.Pairwise.and (sorted.imp le_iff.mp) apart

/-! ## The place of a row -/

theorem length_lower (arranged : Arranges scan.le rows (lower ++ upper)) (below : ∀ b ∈ lower, scan.rank b < level)
    (above : ∀ b ∈ upper, level ≤ scan.rank b) : (scan.kept lower).length = (scan.earlier rows level).length := by
  have perm : ((scan.kept lower).map scan.key).Perm (scan.earlier rows level) := by
    refine (List.perm_ext_iff_of_nodup (distinct.nodup _ _ _) earlier_nodup).mpr fun k => ?_
    rw [mem_earlier, List.mem_map]
    constructor
    · rintro ⟨d, mem, rfl⟩
      obtain ⟨there, keep⟩ := mem_of_kept mem
      exact ⟨d, arranged.1.mem_iff.mp (List.mem_append_left _ there), keep, below d there, rfl⟩
    · rintro ⟨c, mem, keep, lt, rfl⟩
      have there : c ∈ lower := by
        rcases List.mem_append.mp (arranged.1.mem_iff.mpr mem) with early | late
        · exact early
        · exact absurd (above c late) (not_le.mpr lt)
      obtain none_seen | kept := @distinct.covers _ _ _ scan.key [] _ c (List.mem_filter.mpr ⟨there, keep⟩)
      · cases none_seen
      · exact kept
  rw [← perm.length_eq, List.length_map]

theorem entry_of_leading (arranged : Arranges scan.le rows (lower ++ a :: upper)) (below : ∀ b ∈ lower, scan.rank b < scan.rank a)
    (above : ∀ b ∈ a :: upper, scan.rank a ≤ scan.rank b) (keep : scan.keep a = true)
    (fresh : scan.key a ∉ scan.earlier rows (scan.rank a)) :
    (scan.entries (lower ++ a :: upper))[(scan.earlier rows (scan.rank a)).length]? = some (scan.entry a) := by
  have unseen : scan.key a ∉ [] ++ (lower.filter scan.keep).map scan.key := by
    intro seen
    obtain ⟨c, there, same⟩ := List.mem_map.mp seen
    obtain ⟨there, keep⟩ := List.mem_filter.mp there
    exact fresh (mem_earlier.mpr ⟨c, arranged.1.mem_iff.mp (List.mem_append_left _ there), keep, below c there, same⟩)
  rw [entries, kept, List.filter_append, distinct.append, List.filter_cons_of_pos keep, distinct, if_neg unseen, List.map_append,
    ← length_lower arranged below above, List.map_cons, List.getElem?_append_right (by rw [List.length_map, kept]), List.length_map, kept,
    Nat.sub_self, List.getElem?_cons_zero]

theorem earlier_lt (arranged : Arranges scan.le rows l) (mem : d ∈ (scan.kept l).take scan.limit) :
    (scan.earlier rows (scan.rank d)).length < scan.limit := by
  obtain ⟨place, bound, here⟩ := List.mem_iff_getElem.mp mem
  have small : place < scan.limit := by
    rw [List.length_take] at bound
    omega
  have within : place < (scan.kept l).length := by
    rw [List.length_take] at bound
    omega
  refine lt_of_le_of_lt ?_ small
  have own : (scan.kept l)[place] = d := by rw [← here, List.getElem_take]
  have sub : scan.earlier rows (scan.rank d) ⊆ ((scan.kept l).take place).map scan.key := by
    intro k before
    obtain ⟨c, c_mem, keep, lt, rfl⟩ := mem_earlier.mp before
    obtain ⟨e, kept, same, le⟩ := kept_of_mem arranged c_mem keep
    obtain ⟨other, inside, rfl⟩ := List.mem_iff_getElem.mp kept
    refine List.mem_map.mpr ⟨_, List.mem_take_iff_getElem.mpr ⟨other, ?_, rfl⟩, same⟩
    refine lt_min (lt_of_not_ge fun late => ?_) inside
    rcases Nat.eq_or_lt_of_le late with rfl | later
    · rw [own] at le
      exact lt_irrefl _ (lt_of_le_of_lt le lt)
    · have ordered := (List.pairwise_iff_getElem.mp (kept_sorted arranged) place other within inside later).1
      rw [own] at ordered
      exact lt_irrefl _ (lt_of_le_of_lt (ordered.trans le) lt)
  have short := (List.subperm_of_subset earlier_nodup sub).length_le
  rw [List.length_map, List.length_take] at short
  exact short.trans (min_le_left _ _)

/-! ## The order of rows of one rank -/

theorem take_filter {X : Type*} {good : X → Bool} {xs : List X} {n : ℕ} (all : ∀ x ∈ xs.take n, good x = true) :
    (xs.filter good).take n = xs.take n := by
  have split : xs.filter good = xs.take n ++ (xs.drop n).filter good := by
    conv_lhs => rw [← List.take_append_drop n xs, List.filter_append, List.filter_eq_self.mpr all]
  rcases Nat.lt_or_ge xs.length n with short | _
  · rw [split, List.drop_eq_nil_of_le short.le, List.filter_nil, List.append_nil, List.take_take, min_self]
  · rw [split, List.take_append_of_le_length (by rw [List.length_take]; omega), List.take_take, min_self]

def placed (scan : Scan A R K E) (rows l : List A) : List A :=
  (scan.kept l).filter fun d => decide ((scan.earlier rows (scan.rank d)).length < scan.limit)

theorem result_eq (arranged : Arranges scan.le rows l) : scan.result l = ((scan.placed rows l).map scan.entry).take scan.limit := by
  rw [result, entries, ← List.map_take, ← List.map_take, placed,
    take_filter fun d mem => decide_eq_true (earlier_lt arranged mem)]

theorem mem_placed : d ∈ scan.placed rows l ↔ d ∈ scan.kept l ∧ (scan.earlier rows (scan.rank d)).length < scan.limit := by
  rw [placed, List.mem_filter, decide_eq_true_iff]

theorem placed_sorted (own : ∀ a b, scan.entry a = scan.entry b → scan.key a = scan.key b) (settled : scan.Settled rows)
    (arranged : Arranges scan.le rows l) :
    ((scan.placed rows l).map fun d => (scan.rank d, scan.entry d)).Pairwise fun x y => x.1 < y.1 := by
  rw [List.pairwise_map]
  refine List.Pairwise.imp_of_mem ?_ (List.Pairwise.sublist List.filter_sublist (kept_sorted arranged))
  intro a b a_mem b_mem ordered
  obtain ⟨a_kept, room⟩ := mem_placed.mp a_mem
  obtain ⟨b_kept, -⟩ := mem_placed.mp b_mem
  refine lt_of_le_of_ne ordered.1 fun tied => ?_
  have apart : scan.entry a ≠ scan.entry b := fun same => ordered.2 (own a b same)
  obtain ⟨a_there, a_keep⟩ := mem_of_kept a_kept
  obtain ⟨b_there, b_keep⟩ := mem_of_kept b_kept
  rcases settled a (arranged.1.mem_iff.mp a_there) b (arranged.1.mem_iff.mp b_there) a_keep b_keep tied apart with seen | seen | full
  · exact kept_earliest arranged a_kept seen
  · exact kept_earliest arranged b_kept seen
  · exact absurd room (not_lt.mpr full)

theorem placed_sub (settled : scan.Settled rows) (arranged : Arranges scan.le rows l) (other : Arranges scan.le rows l') {x : R × E}
    (mem : x ∈ (scan.placed rows l).map fun d => (scan.rank d, scan.entry d)) :
    x ∈ (scan.placed rows l').map fun d => (scan.rank d, scan.entry d) := by
  obtain ⟨d, placed, rfl⟩ := List.mem_map.mp mem
  obtain ⟨d_kept, room⟩ := mem_placed.mp placed
  obtain ⟨d_there, d_keep⟩ := mem_of_kept d_kept
  have d_mem : d ∈ rows := arranged.1.mem_iff.mp d_there
  obtain ⟨e, e_kept, same, le⟩ := kept_of_mem other d_mem d_keep
  obtain ⟨e_there, e_keep⟩ := mem_of_kept e_kept
  have e_mem : e ∈ rows := other.1.mem_iff.mp e_there
  have tied : scan.rank d = scan.rank e := by
    refine le_antisymm (le_of_not_gt fun lt => kept_earliest arranged d_kept ?_) le
    exact mem_earlier.mpr ⟨e, e_mem, e_keep, lt, same⟩
  have equal : scan.entry d = scan.entry e := by
    by_contra apart
    rcases settled d d_mem e e_mem d_keep e_keep tied apart with seen | seen | full
    · exact kept_earliest arranged d_kept seen
    · exact kept_earliest other e_kept seen
    · exact absurd room (not_lt.mpr full)
  refine List.mem_map.mpr ⟨e, mem_placed.mpr ⟨e_kept, tied ▸ room⟩, ?_⟩
  rw [tied, equal]

variable (own : ∀ a b, scan.entry a = scan.entry b → scan.key a = scan.key b)
include own

theorem same_result_iff :
    (∀ l l', Arranges scan.le rows l → Arranges scan.le rows l' → scan.result l = scan.result l') ↔ scan.Settled rows := by
  constructor
  · intro same a a_mem b b_mem a_keep b_keep tied apart
    by_contra none_of
    obtain ⟨a_fresh, rest⟩ := not_or.mp none_of
    obtain ⟨b_fresh, room⟩ := not_or.mp rest
    obtain ⟨_, _, arranged, below, above⟩ := exists_leading scan a_mem
    obtain ⟨_, _, arranged', below', above'⟩ := exists_leading scan b_mem
    have first := entry_of_leading arranged below above a_keep a_fresh
    have second := entry_of_leading arranged' below' above' b_keep b_fresh
    rw [← tied] at second
    have here := congrArg (fun xs => xs[(scan.earlier rows (scan.rank a)).length]?) (same _ _ arranged arranged')
    simp only [result, List.getElem?_take_of_lt (not_le.mp room), first, second] at here
    exact apart (Option.some.inj here)
  · intro settled l l' arranged arranged'
    have irrefl : Std.Irrefl fun x y : R × E => x.1 < y.1 := ⟨fun x => lt_irrefl x.1⟩
    have antisymm : Std.Antisymm fun x y : R × E => x.1 < y.1 := ⟨fun _ _ lt gt => absurd gt lt.asymm⟩
    have equal := List.Pairwise.eq_of_mem_iff (placed_sorted own settled arranged) (placed_sorted own settled arranged')
      fun x => ⟨placed_sub settled arranged arranged', placed_sub settled arranged' arranged⟩
    have entries_eq := congrArg (List.map Prod.snd) equal
    rw [List.map_map, List.map_map] at entries_eq
    rw [result_eq arranged, result_eq arranged']
    exact congrArg (List.take scan.limit) entries_eq

omit own

/-! ## The rows that a scan reaches -/

variable {V : Type*} {data : A → V}

/-- Every row that a scan reaches before its list is full stands in the list with its own data. -/
def Represents (scan : Scan A R K E) (data : A → V) (rows : List A) : Prop :=
  ∀ before item after, Arranges scan.le rows (before ++ item :: after) → scan.keep item = true →
    (scan.entries before).length < scan.limit →
    ∃ d ∈ rows, scan.keep d = true ∧ scan.key d = scan.key item ∧ data d = data item ∧
      scan.entry d ∈ scan.result (before ++ item :: after)

def Agrees (scan : Scan A R K E) (data : A → V) (rows : List A) : Prop :=
  ∀ a ∈ rows, ∀ b ∈ rows, scan.keep a = true → scan.keep b = true → scan.key a = scan.key b →
    (scan.earlier rows (scan.rank a)).length < scan.limit → (scan.earlier rows (scan.rank b)).length < scan.limit → data a = data b

theorem earlier_mono {first second : R} (le : first ≤ second) : (scan.earlier rows first).length ≤ (scan.earlier rows second).length := by
  refine (List.subperm_of_subset earlier_nodup fun k before => ?_).length_le
  obtain ⟨c, mem, keep, lt, same⟩ := mem_earlier.mp before
  exact mem_earlier.mpr ⟨c, mem, keep, lt_of_lt_of_le lt le, same⟩

theorem earlier_le_before {before after : List A} {item : A} (arranged : Arranges scan.le rows (before ++ item :: after)) :
    (scan.earlier rows (scan.rank item)).length ≤ (scan.entries before).length := by
  rw [entries, List.length_map, ← List.length_map scan.key]
  refine (List.subperm_of_subset earlier_nodup fun k early => ?_).length_le
  obtain ⟨c, mem, keep, lt, rfl⟩ := mem_earlier.mp early
  have ordered := (List.pairwise_append.mp arranged.2).2.1
  have there : c ∈ before := by
    rcases List.mem_append.mp (arranged.1.mem_iff.mpr mem) with here | here
    · exact here
    · rcases List.mem_cons.mp here with rfl | late
      · exact absurd lt (lt_irrefl _)
      · exact absurd (le_iff.mp ((List.pairwise_cons.mp ordered).1 c late)) (not_le.mpr lt)
  obtain none_seen | ⟨d, kept, same⟩ := @distinct.covers _ _ _ scan.key [] _ c (List.mem_filter.mpr ⟨there, keep⟩)
  · cases none_seen
  · exact List.mem_map.mpr ⟨d, kept, same⟩

theorem represents_iff (own : ∀ a b, scan.entry a = scan.entry b → scan.key a = scan.key b ∧ data a = data b)
    (settled : scan.Settled rows) : scan.Represents data rows ↔ scan.Agrees data rows := by
  have same := (same_result_iff fun a b equal => (own a b equal).1).mpr settled
  constructor
  · intro represents a a_mem b b_mem a_keep b_keep key a_room b_room
    obtain ⟨lower, upper, arranged, below, above⟩ := exists_leading scan a_mem
    obtain ⟨lower', upper', arranged', below', above'⟩ := exists_leading scan b_mem
    rw [← length_lower arranged below above] at a_room
    rw [← length_lower arranged' below' above'] at b_room
    obtain ⟨d, -, -, d_key, d_data, d_here⟩ := represents lower a upper arranged a_keep (by rwa [entries, List.length_map])
    obtain ⟨e, -, -, e_key, e_data, e_here⟩ := represents lower' b upper' arranged' b_keep (by rwa [entries, List.length_map])
    rw [← same _ _ arranged arranged'] at e_here
    obtain ⟨x, x_kept, x_entry⟩ := of_result d_here
    obtain ⟨y, y_kept, y_entry⟩ := of_result e_here
    obtain ⟨x_key, x_data⟩ := own x d x_entry
    obtain ⟨y_key, y_data⟩ := own y e y_entry
    have one : x = y := same_of_key x_kept y_kept (by rw [x_key, y_key, d_key, e_key, key])
    rw [← d_data, ← e_data, ← x_data, ← y_data, one]
  · intro agrees before item after arranged keep room
    obtain ⟨d, kept, key, here⟩ := @reached _ _ _ _ _ scan before after item keep room
    have item_mem : item ∈ rows := arranged.1.mem_iff.mp (List.mem_append_right _ List.mem_cons_self)
    obtain ⟨other, other_kept, other_key, le⟩ := kept_of_mem arranged item_mem keep
    have first : other = d := same_of_key other_kept kept (other_key.trans key.symm)
    rw [first] at le
    have item_room := lt_of_le_of_lt (earlier_le_before arranged) room
    obtain ⟨there, d_keep⟩ := mem_of_kept kept
    have d_mem : d ∈ rows := arranged.1.mem_iff.mp there
    exact ⟨d, d_mem, d_keep, key, agrees d d_mem item item_mem d_keep keep key (lt_of_le_of_lt (earlier_mono le) item_room) item_room, here⟩

end Scan

end MapBackend.Library
