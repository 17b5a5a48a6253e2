import Mathlib.Data.List.Basic
import Mathlib.Data.List.Nodup

/-!
Dictionaries as lists of entries in the order in which their keys came: an entry that is set again
keeps its place.
-/

namespace MapBackend.Library.Dictionary

variable {K A : Type*} [DecidableEq K]

def set (key : K) (value : A) : List (K × A) → List (K × A)
  | [] => [(key, value)]
  | entry :: rest => if entry.1 = key then (key, value) :: rest else entry :: set key value rest

def get (key : K) : List (K × A) → Option A
  | [] => none
  | entry :: rest => if entry.1 = key then some entry.2 else get key rest

def keys (entries : List (K × A)) : List K := entries.map Prod.fst

theorem get_set (key other : K) (value : A) (entries : List (K × A)) :
    get other (set key value entries) = if key = other then some value else get other entries := by
  induction entries with
  | nil => rfl
  | cons entry _ ih =>
    by_cases here : entry.1 = key
    · subst here
      by_cases same : entry.1 = other
      · simp [set, get, same]
      · simp [set, get, same]
    · by_cases same : key = other
      · subst same
        simp [set, get, here, ih]
      · simp [set, get, here, ih, same]

theorem get_eq_none {key : K} {entries : List (K × A)} : get key entries = none ↔ key ∉ keys entries := by
  induction entries with
  | nil => simp [get, keys]
  | cons entry _ ih =>
    by_cases here : entry.1 = key
    · simp [get, keys, here]
    · simp only [get, if_neg here, ih, keys, List.map_cons, List.mem_cons, not_or]
      exact ⟨fun absent => ⟨fun same => here same.symm, absent⟩, fun both => both.2⟩

theorem get_mapValues {B : Type*} (f : A → B) (key : K) (entries : List (K × A)) :
    get key (entries.map fun entry => (entry.1, f entry.2)) = (get key entries).map f := by
  induction entries with
  | nil => rfl
  | cons _ _ ih =>
    rw [List.map_cons, get, get]
    split
    · rfl
    · exact ih

theorem mem_of_get {key : K} {value : A} {entries : List (K × A)} (found : get key entries = some value) :
    ∃ entry ∈ entries, entry.2 = value := by
  induction entries with
  | nil => cases found
  | cons entry _ ih =>
    unfold get at found
    split at found
    · exact ⟨entry, List.mem_cons_self, Option.some.inj found⟩
    · obtain ⟨other, mem, same⟩ := ih found
      exact ⟨other, List.mem_cons_of_mem _ mem, same⟩

theorem mem_keys_set {key other : K} {value : A} {entries : List (K × A)} :
    other ∈ keys (set key value entries) ↔ other = key ∨ other ∈ keys entries := by
  rw [← not_iff_not, ← get_eq_none, get_set, not_or, ← get_eq_none]
  by_cases same : key = other
  · simp [same]
  · simp [same, Ne.symm same]

theorem nodup_set {key : K} {value : A} {entries : List (K × A)} (distinct : (keys entries).Nodup) :
    (keys (set key value entries)).Nodup := by
  induction entries with
  | nil => exact List.nodup_singleton key
  | cons entry _ ih =>
    obtain ⟨fresh, later⟩ := List.nodup_cons.mp distinct
    unfold set
    by_cases here : entry.1 = key
    · rw [if_pos here]
      exact List.nodup_cons.mpr ⟨here ▸ fresh, later⟩
    · rw [if_neg here]
      refine List.nodup_cons.mpr ⟨fun mem => ?_, ih later⟩
      rcases mem_keys_set.mp mem with same | mem
      · exact here same
      · exact fresh mem

def mapKeys (f : K → K) (entries : List (K × A)) : List (K × A) :=
  entries.foldl (fun mapped entry => set (f entry.1) entry.2 mapped) []

theorem set_fresh {key : K} {value : A} {entries : List (K × A)} (fresh : key ∉ keys entries) :
    set key value entries = entries ++ [(key, value)] := by
  induction entries with
  | nil => rfl
  | cons entry _ ih =>
    have other : entry.1 ≠ key := fun same => fresh (same ▸ List.mem_cons_self)
    rw [set, if_neg other, ih fun mem => fresh (List.mem_cons_of_mem _ mem), List.cons_append]

theorem mapKeys_fixed {f : K → K} {entries : List (K × A)} (fixed : ∀ key ∈ keys entries, f key = key)
    (distinct : (keys entries).Nodup) : mapKeys f entries = entries := by
  have appended (before : List (K × A)) (clear : (keys (before ++ entries)).Nodup) :
      entries.foldl (fun mapped entry => set (f entry.1) entry.2 mapped) before = before ++ entries := by
    induction entries generalizing before with
    | nil => rw [List.append_nil, List.foldl_nil]
    | cons entry rest ih =>
      have own : f entry.1 = entry.1 := fixed entry.1 List.mem_cons_self
      have fresh : entry.1 ∉ keys before := by
        rw [keys, List.map_append, List.nodup_append'] at clear
        exact fun mem => clear.2.2 mem List.mem_cons_self
      have shape : before ++ entry :: rest = before ++ [entry] ++ rest := (List.append_cons before entry rest)
      rw [List.foldl_cons, own, set_fresh fresh, shape]
      exact ih (fun key mem => fixed key (List.mem_cons_of_mem _ mem)) (List.nodup_cons.mp distinct).2 _ (shape ▸ clear)
  exact appended [] distinct

theorem mem_keys_mapKeys {f : K → K} {key : K} {entries : List (K × A)} :
    key ∈ keys (mapKeys f entries) ↔ ∃ source ∈ keys entries, f source = key := by
  have gathered (before : List (K × A)) :
      key ∈ keys (entries.foldl (fun mapped entry => set (f entry.1) entry.2 mapped) before) ↔
        key ∈ keys before ∨ ∃ source ∈ keys entries, f source = key := by
    induction entries generalizing before with
    | nil => simp [keys]
    | cons entry _ ih =>
      rw [List.foldl_cons, ih, mem_keys_set]
      simp only [keys, List.map_cons, List.mem_cons, exists_eq_or_imp]
      rw [or_comm (a := key = f entry.1), or_assoc, eq_comm (a := key)]
  exact (gathered []).trans (or_iff_right (List.not_mem_nil))

section Lookup

variable {entries : List (K × A)}

theorem lookup_eq_some (distinct : (entries.map Prod.fst).Nodup) {key : K} {value : A} :
    entries.lookup key = some value ↔ (key, value) ∈ entries := by
  constructor
  · intro found
    obtain ⟨before, after, rfl, -⟩ := List.lookup_eq_some_iff.mp found
    simp
  · intro mem
    obtain ⟨before, after, rfl⟩ := List.append_of_mem mem
    refine List.lookup_eq_some_iff.mpr ⟨before, after, rfl, fun entry inside => bne_iff_ne.mpr fun same => ?_⟩
    rw [List.map_append, List.map_cons, List.nodup_append] at distinct
    exact distinct.2.2 entry.1 (List.mem_map_of_mem inside) key List.mem_cons_self same.symm

theorem lookup_perm {wanted : List K} (distinct : (entries.map Prod.fst).Nodup) (once : wanted.Nodup)
    (sub : ∀ entry ∈ entries, entry.1 ∈ wanted) :
    (wanted.filterMap fun key => entries.lookup key).Perm (entries.map Prod.snd) := by
  have rows : (wanted.filterMap fun key => (entries.lookup key).map fun value => (key, value)).Perm entries := by
    refine (List.perm_ext_iff_of_nodup (once.filterMap fun a b row left right => ?_) (List.Nodup.of_map _ distinct)).mpr
      fun row => ⟨fun mem => ?_, fun mem => ?_⟩
    · obtain ⟨_, -, rfl⟩ := Option.map_eq_some_iff.mp left
      obtain ⟨_, -, same⟩ := Option.map_eq_some_iff.mp right
      exact (congrArg Prod.fst same).symm
    · obtain ⟨key, -, made⟩ := List.mem_filterMap.mp mem
      obtain ⟨value, found, rfl⟩ := Option.map_eq_some_iff.mp made
      exact (lookup_eq_some distinct).mp found
    · exact List.mem_filterMap.mpr ⟨row.1, sub row mem, by rw [(lookup_eq_some distinct).mpr mem]; rfl⟩
  have values := rows.map Prod.snd
  rw [List.map_filterMap] at values
  simpa [Function.comp_def] using values

end Lookup

end MapBackend.Library.Dictionary
