import Mathlib.Data.List.Induction
import Mathlib.Data.List.Nodup
import Mathlib.Order.Lattice

/-!
Choices from a list.
-/

namespace MapBackend.Library

variable {A : Type*}

section Best

variable {R : Type*} [LinearOrder R] {rank : A → Option R}

/-- The better of the best element so far and the next one, which has to rank above it. -/
def better (rank : A → Option R) (best : Option (A × R)) (next : A) : Option (A × R) :=
  match rank next, best with
  | none, _ => best
  | some r, none => some (next, r)
  | some r, some (a, old) => if old < r then some (next, r) else some (a, old)

def scanBest (rank : A → Option R) (rows : List A) : Option (A × R) := rows.foldl (better rank) none

def Leads (rank : A → Option R) (seen : List A) : Option (A × R) → Prop
  | none => ∀ a ∈ seen, rank a = none
  | some (best, r) => best ∈ seen ∧ rank best = some r ∧ ∀ a ∈ seen, ∀ other, rank a = some other → other ≤ r

theorem Leads.step {seen : List A} {best : Option (A × R)} (leads : Leads rank seen best) (next : A) :
    Leads rank (seen ++ [next]) (better rank best next) := by
  cases ranked : rank next with
  | none =>
    simp only [better, ranked]
    cases best with
    | none =>
      intro a mem
      rcases List.mem_append.mp mem with old | new
      · exact leads a old
      · exact List.mem_singleton.mp new ▸ ranked
    | some =>
      obtain ⟨mem, own, greatest⟩ := leads
      refine ⟨List.mem_append_left _ mem, own, fun a there other found => ?_⟩
      rcases List.mem_append.mp there with old | new
      · exact greatest a old other found
      · rw [List.mem_singleton.mp new, ranked] at found
        cases found
  | some r =>
    cases best with
    | none =>
      simp only [better, ranked]
      refine ⟨List.mem_append_right _ List.mem_cons_self, ranked, fun a there other found => ?_⟩
      rcases List.mem_append.mp there with old | new
      · rw [leads a old] at found
        cases found
      · rw [List.mem_singleton.mp new, ranked] at found
        exact (Option.some.inj found).symm.le
    | some best =>
      obtain ⟨mem, own, greatest⟩ := leads
      simp only [better, ranked]
      by_cases above : best.2 < r
      · rw [if_pos above]
        refine ⟨List.mem_append_right _ List.mem_cons_self, ranked, fun a there other found => ?_⟩
        rcases List.mem_append.mp there with old | new
        · exact (greatest a old other found).trans above.le
        · rw [List.mem_singleton.mp new, ranked] at found
          exact (Option.some.inj found).symm.le
      · rw [if_neg above]
        refine ⟨List.mem_append_left _ mem, own, fun a there other found => ?_⟩
        rcases List.mem_append.mp there with old | new
        · exact greatest a old other found
        · rw [List.mem_singleton.mp new, ranked] at found
          exact (Option.some.inj found) ▸ not_lt.mp above

theorem scanBest_leads (rank : A → Option R) (rows : List A) : Leads rank rows (scanBest rank rows) := by
  induction rows using List.reverseRecOn with
  | nil => exact fun a mem => by cases mem
  | append_singleton _ next ih =>
    rw [scanBest, List.foldl_concat]
    exact ih.step next

theorem Leads.unique {rows : List A} {one other : Option (A × R)} (apart : ∀ a ∈ rows, ∀ b ∈ rows, ∀ r, rank a = some r → rank b = some r → a = b)
    (first : Leads rank rows one) (second : Leads rank rows other) : one = other := by
  cases one with
  | none =>
    cases other with
    | none => rfl
    | some best =>
      obtain ⟨mem, own, -⟩ := second
      rw [first best.1 mem] at own
      cases own
  | some best =>
    obtain ⟨mem, own, greatest⟩ := first
    cases other with
    | none =>
      rw [second best.1 mem] at own
      cases own
    | some rival =>
      obtain ⟨mem', own', greatest'⟩ := second
      have same : best.2 = rival.2 := le_antisymm (greatest' _ mem _ own) (greatest _ mem' _ own')
      exact congrArg some (Prod.ext (apart _ mem _ mem' _ own (same ▸ own')) same)

theorem scanBest_perm {rows other : List A} (perm : rows.Perm other)
    (apart : ∀ a ∈ rows, ∀ b ∈ rows, ∀ r, rank a = some r → rank b = some r → a = b) : scanBest rank rows = scanBest rank other := by
  refine Leads.unique apart (scanBest_leads rank rows) ?_
  have leads := scanBest_leads rank other
  cases best : scanBest rank other with
  | none =>
    rw [best] at leads
    exact fun a mem => leads a (perm.mem_iff.mp mem)
  | some =>
    rw [best] at leads
    exact ⟨perm.mem_iff.mpr leads.1, leads.2.1, fun a mem => leads.2.2 a (perm.mem_iff.mp mem)⟩

end Best

section First

variable {le : A → A → Bool} {rows l : List A} {p : A → Bool} {a : A}

/-- The lists in which an ordering lets the rows come: of equal ones any may come first. -/
def Arranges (le : A → A → Bool) (rows l : List A) : Prop := l.Perm rows ∧ l.Pairwise (fun a b => le a b = true)

def First (le : A → A → Bool) (p : A → Bool) (rows : List A) (a : A) : Prop :=
  a ∈ rows ∧ p a = true ∧ ∀ b ∈ rows, p b = true → b = a ∨ le a b = true

theorem find_first (arranged : Arranges le rows l) (found : l.find? p = some a) : First le p rows a := by
  obtain ⟨matched, _, _, split, none_before⟩ := List.find?_eq_some_iff_append.mp found
  have ordered := arranged.2
  rw [split, List.pairwise_append, List.pairwise_cons] at ordered
  refine ⟨arranged.1.mem_iff.mp (List.mem_of_find?_eq_some found), matched, fun b mem other => ?_⟩
  rw [← arranged.1.mem_iff, split, List.mem_append, List.mem_cons] at mem
  rcases mem with early | rfl | late
  · have no := none_before b early
    rw [other] at no
    cases no
  · exact .inl rfl
  · exact .inr (ordered.2.1.1 b late)

theorem find_none (arranged : Arranges le rows l) (missing : l.find? p = none) (a : A) : ¬ First le p rows a := by
  rintro ⟨mem, matched, -⟩
  exact List.find?_eq_none.mp missing a (arranged.1.mem_iff.mpr mem) matched

theorem exists_found [DecidableEq A] (trans : ∀ a b c, le a b = true → le b c = true → le a c = true)
    (total : ∀ a b, (le a b || le b a) = true) (distinct : rows.Nodup) (first : First le p rows a) :
    ∃ l, Arranges le rows l ∧ l.find? p = some a := by
  obtain ⟨mem, matched, earliest⟩ := first
  have perm : ((a :: rows.erase a).mergeSort le).Perm rows := ((a :: rows.erase a).mergeSort_perm le).trans (List.perm_cons_erase mem).symm
  have arranged : Arranges le rows ((a :: rows.erase a).mergeSort le) := ⟨perm, List.pairwise_mergeSort trans total _⟩
  refine ⟨_, arranged, ?_⟩
  cases found : ((a :: rows.erase a).mergeSort le).find? p with
  | none => exact absurd ⟨mem, matched, earliest⟩ (find_none arranged found a)
  | some x =>
    refine congrArg some ?_
    by_contra apart
    obtain ⟨x_mem, x_matched, -⟩ := find_first arranged found
    -- The sort is stable, so the element in front stays before `x`; but `x` is the first match.
    have rest : x ∈ rows.erase a := (List.mem_erase_of_ne apart).mpr x_mem
    have pair : [a, x].Sublist ((a :: rows.erase a).mergeSort le) :=
      List.pair_sublist_mergeSort trans total ((earliest x x_mem x_matched).resolve_left apart) ((List.singleton_sublist.mpr rest).cons_cons a)
    obtain ⟨-, before, after, split, none_before⟩ := List.find?_eq_some_iff_append.mp found
    have once : (before ++ x :: after).Nodup := split ▸ perm.nodup_iff.mpr distinct
    have later : (before ++ x :: after).Pairwise fun u v => u = a → v ≠ x := by
      rw [List.nodup_append, List.nodup_cons] at once
      rw [List.pairwise_append, List.pairwise_cons]
      have absent : a ∉ before := fun early => by simpa [matched] using none_before a early
      refine ⟨?_, ⟨fun v _ same => absurd same apart, ?_⟩, fun u early v _ same => absurd (same ▸ early) absent⟩
      · exact List.Pairwise.imp_of_mem (fun early _ _ same => absurd (same ▸ early) absent) (List.pairwise_of_forall fun _ _ => trivial)
      · exact List.Pairwise.imp_of_mem (fun _ late _ _ same => once.2.1.1 (same ▸ late)) (List.pairwise_of_forall fun _ _ => trivial)
    rw [split] at pair
    exact (List.pairwise_pair.mp (later.sublist pair)) rfl rfl

theorem Arranges.filter (arranged : Arranges le rows l) (q : A → Bool) : Arranges le (rows.filter q) (l.filter q) :=
  ⟨arranged.1.filter q, arranged.2.filter q⟩

theorem first_filter {q : A → Bool} : First le p (rows.filter q) a ↔ First le (fun x => q x && p x) rows a := by
  simp only [First, List.mem_filter, Bool.and_eq_true]
  constructor
  · rintro ⟨⟨mem, kept⟩, matched, earliest⟩
    exact ⟨mem, ⟨kept, matched⟩, fun b there both => earliest b ⟨there, both.1⟩ both.2⟩
  · rintro ⟨mem, ⟨kept, matched⟩, earliest⟩
    exact ⟨⟨mem, kept⟩, matched, fun b there other => earliest b there.1 ⟨there.2, other⟩⟩

theorem find_arranged_iff [DecidableEq A] (trans : ∀ a b c, le a b = true → le b c = true → le a c = true)
    (total : ∀ a b, (le a b || le b a) = true) (distinct : rows.Nodup) :
    (∀ l l', Arranges le rows l → Arranges le rows l' → l.find? p = l'.find? p) ↔
      ∀ a b, First le p rows a → First le p rows b → a = b := by
  constructor
  · intro same a b a_first b_first
    obtain ⟨l, arranged, found⟩ := exists_found trans total distinct a_first
    obtain ⟨l', arranged', found'⟩ := exists_found trans total distinct b_first
    have equal := same l l' arranged arranged'
    rw [found, found'] at equal
    exact Option.some.inj equal
  · intro unique l l' arranged arranged'
    cases found : l.find? p with
    | none =>
      cases found' : l'.find? p with
      | none => rfl
      | some b => exact absurd (find_first arranged' found') (find_none arranged found b)
    | some a =>
      cases found' : l'.find? p with
      | none => exact absurd (find_first arranged found) (find_none arranged' found' a)
      | some b => exact congrArg some (unique a b (find_first arranged found) (find_first arranged' found'))

theorem find_filter_arranged_iff [DecidableEq A] {q : A → Bool} (trans : ∀ a b c, le a b = true → le b c = true → le a c = true)
    (total : ∀ a b, (le a b || le b a) = true) (distinct : rows.Nodup) :
    (∀ l l', Arranges le rows l → Arranges le rows l' → (l.filter q).find? p = (l'.filter q).find? p) ↔
      ∀ a b, First le p (rows.filter q) a → First le p (rows.filter q) b → a = b := by
  have search (l : List A) : (l.filter q).find? p = l.find? fun x => q x && p x := by
    rw [List.find?_filter]
    congr 1
    funext x
    cases q x <;> cases p x <;> rfl
  simp only [search, first_filter]
  exact find_arranged_iff trans total distinct

theorem find_key_perm {K : Type*} [DecidableEq K] {key : A → K} {rows other : List A} (keys : (rows.map key).Nodup)
    (perm : rows.Perm other) (k : K) : rows.find? (fun a => key a == k) = other.find? fun a => key a == k := by
  have any_order {l : List A} (same : l.Perm rows) : Arranges (fun _ _ => true) rows l :=
    ⟨same, List.pairwise_of_forall fun _ _ => rfl⟩
  cases found : rows.find? fun a => key a == k with
  | none =>
    cases found' : other.find? fun a => key a == k with
    | none => rfl
    | some b => exact absurd (find_first (any_order perm.symm) found') (find_none (any_order (.refl _)) found b)
  | some a =>
    cases found' : other.find? fun a => key a == k with
    | none => exact absurd (find_first (any_order (.refl _)) found) (find_none (any_order perm.symm) found' a)
    | some b =>
      have own : (key a == k) = true := by simpa using List.find?_some found
      have own' : (key b == k) = true := by simpa using List.find?_some found'
      have same : key a = key b := (eq_of_beq own).trans (eq_of_beq own').symm
      exact congrArg some (List.inj_on_of_nodup_map keys (List.mem_of_find?_eq_some found)
        (perm.mem_iff.mpr (List.mem_of_find?_eq_some found')) same)

end First

end MapBackend.Library
