import MapBackend.Datasources.CsvAdapter
import Mathlib.Data.List.DropRight

/-!
The columns of a price list: the name of a column is its own column, and the header has either such
names only or no required one.
-/

namespace MapBackend.Datasources
open MapBackend.Library MapBackend.Core

/-! ## Texts -/

theorem strip_strip (text : Text) : Url.strip (Url.strip text) = Url.strip text := by
  unfold Url.strip Url.rstrip
  have solid := List.head?_dropWhile_not Url.isSpace text
  generalize text.dropWhile Url.isSpace = body at solid ⊢
  obtain ⟨blanks, split⟩ : ∃ blanks, body = (body.reverse.dropWhile Url.isSpace).reverse ++ blanks := by
    refine ⟨(body.reverse.takeWhile Url.isSpace).reverse, ?_⟩
    rw [← List.reverse_append, List.takeWhile_append_dropWhile, List.reverse_reverse]
  have left : (body.reverse.dropWhile Url.isSpace).reverse.dropWhile Url.isSpace =
      (body.reverse.dropWhile Url.isSpace).reverse := by
    cases shape : (body.reverse.dropWhile Url.isSpace).reverse with
    | nil => rfl
    | cons =>
      rw [shape] at split
      rw [split] at solid
      exact List.dropWhile_cons_of_neg (by simpa using solid)
  rw [left, List.reverse_reverse, List.dropWhile_idempotent]

theorem label_stripped (cell : Option Cell) : Url.strip (labelOf cell) = labelOf cell := by
  cases cell with
  | none => rfl
  | some cell =>
    cases cell with
    | none => rfl
    | text value => exact strip_strip value
    | other shown => exact strip_strip shown

theorem mem_splitOn {c : Char} {text word : Text} (mem : word ∈ text.splitOn c) : c ∉ word ∧ ∀ d ∈ word, d ∈ text := by
  induction text generalizing word with
  | nil =>
    rw [List.splitOn_nil] at mem
    obtain rfl := List.mem_singleton.mp mem
    simp
  | cons first rest ih =>
    rw [List.splitOn_cons_eq_if_modifyHead] at mem
    by_cases separates : (first == c) = true
    · rw [if_pos separates] at mem
      rcases List.mem_cons.mp mem with rfl | mem
      · simp
      · exact ⟨(ih mem).1, fun d inside => List.mem_cons_of_mem _ ((ih mem).2 d inside)⟩
    · rw [if_neg separates] at mem
      cases pieces : rest.splitOn c with
      | nil => exact absurd pieces (List.splitOn_ne_nil c rest)
      | cons =>
        rw [pieces] at mem ih
        rcases List.mem_cons.mp mem with rfl | mem
        · obtain ⟨clear, inside⟩ := ih List.mem_cons_self
          refine ⟨fun has => ?_, fun d has => ?_⟩
          · rcases List.mem_cons.mp has with rfl | has
            · exact separates (beq_self_eq_true _)
            · exact clear has
          · rcases List.mem_cons.mp has with rfl | has
            · exact List.mem_cons_self
            · exact List.mem_cons_of_mem _ (inside d has)
        · obtain ⟨clear, inside⟩ := ih (List.mem_cons_of_mem _ mem)
          exact ⟨clear, fun d has => List.mem_cons_of_mem _ (inside d has)⟩

theorem mem_joinWords {c : Char} {words : List Text} (mem : c ∈ joinWords words) : c = ' ' ∨ ∃ word ∈ words, c ∈ word := by
  induction words with
  | nil => cases mem
  | cons first rest ih =>
    cases rest with
    | nil =>
      rw [joinWords, List.intercalate_singleton] at mem
      exact .inr ⟨first, List.mem_cons_self, mem⟩
    | cons =>
      rw [joinWords, List.intercalate_cons_cons] at mem
      rcases List.mem_append.mp mem with mem | mem
      · rcases List.mem_append.mp mem with here | space
        · exact .inr ⟨first, List.mem_cons_self, here⟩
        · exact .inl (List.mem_singleton.mp space)
      · rcases ih mem with space | ⟨word, known, here⟩
        · exact .inl space
        · exact .inr ⟨word, List.mem_cons_of_mem _ known, here⟩

def IsWord (word : Text) : Prop := word ≠ [] ∧ ∀ c ∈ word, Url.isSpace c = false

theorem splitWords_isWord {text word : Text} (mem : word ∈ splitWords text) : IsWord word ∧ ∀ c ∈ word, c ∈ text := by
  obtain ⟨piece, filled⟩ := List.mem_filter.mp mem
  obtain ⟨clear, inside⟩ := mem_splitOn piece
  have own (c : Char) (has : c ∈ word) : Url.isSpace c = false ∧ c ∈ text := by
    obtain ⟨d, source, image⟩ := List.mem_map.mp (inside c has)
    by_cases blank : Url.isSpace d = true
    · rw [if_pos blank] at image
      exact absurd (image ▸ has) clear
    · rw [if_neg blank] at image
      subst image
      exact ⟨Bool.eq_false_iff.mpr blank, source⟩
  refine ⟨⟨fun empty => ?_, fun c has => (own c has).1⟩, fun c has => (own c has).2⟩
  rw [empty] at filled
  cases filled

theorem splitWords_joinWords {words : List Text} (solid : ∀ word ∈ words, IsWord word) : splitWords (joinWords words) = words := by
  have kept : (joinWords words).map (fun c => if Url.isSpace c = true then ' ' else c) = joinWords words := by
    refine List.map_congr_left (fun c mem => ?_) |>.trans (List.map_id _)
    rcases mem_joinWords mem with rfl | ⟨word, known, inside⟩
    · rfl
    · rw [(solid word known).2 c inside]
      rfl
  have filled : words.filter (fun word => !word.isEmpty) = words :=
    List.filter_eq_self.mpr fun word known => by simpa using (solid word known).1
  unfold splitWords
  rw [kept]
  by_cases none : words = []
  · subst none
    rfl
  · have spaces (word : Text) (known : word ∈ words) : ' ' ∉ word := by
      intro inside
      cases (solid word known).2 ' ' inside
    rw [joinWords, List.splitOn_intercalate ' ' spaces none, filled]

/-! ## Normalized labels -/

variable (lowering : Lowering)

theorem normalizedLabel_joined {words : List Text} (solid : ∀ word ∈ words, IsWord word)
    (small : ∀ word ∈ words, ∀ c ∈ word, lowering.isLower c = true ∧ c ≠ 'ё') :
    normalizedLabel lowering (joinWords words) = joinWords words := by
  have lower : lowering.lower (joinWords words) = joinWords words := by
    refine lowering.lower_of_isLower _ fun c mem => ?_
    rcases mem_joinWords mem with rfl | ⟨word, known, inside⟩
    · exact lowering.ascii ' ' (by decide) rfl
    · exact (small word known c inside).1
  unfold normalizedLabel
  rw [lower, splitWords_joinWords solid]
  refine List.map_congr_left (fun c mem => if_neg ?_) |>.trans (List.map_id _)
  rcases mem_joinWords mem with rfl | ⟨word, known, inside⟩
  · decide
  · exact (small word known c inside).2

theorem map_joinWords (f : Char → Char) (space : f ' ' = ' ') (words : List Text) :
    (joinWords words).map f = joinWords (words.map (List.map f)) := by
  induction words with
  | nil => rfl
  | cons _ rest ih =>
    cases rest with
    | nil => simp [joinWords, List.intercalate_singleton]
    | cons =>
      have joined := ih
      simp only [joinWords, List.map_cons] at joined
      simp only [joinWords, List.map_cons, List.intercalate_cons_cons, List.map_append, List.map_nil, space, joined]

theorem normalizedLabel_idem (value : Text) :
    normalizedLabel lowering (normalizedLabel lowering value) = normalizedLabel lowering value := by
  have yo : ('ё' : Char) ≠ 'е' := by decide
  have joined : normalizedLabel lowering value =
      joinWords ((splitWords (lowering.lower value)).map (List.map fun c => if c = 'ё' then 'е' else c)) :=
    map_joinWords _ (by decide) _
  rw [joined]
  refine normalizedLabel_joined lowering (fun word mem => ?_) fun word mem => ?_
  all_goals
    obtain ⟨_, known, rfl⟩ := List.mem_map.mp mem
    obtain ⟨⟨filled, solid⟩, inside⟩ := splitWords_isWord known
  · refine ⟨fun empty => filled (List.map_eq_nil_iff.mp empty), fun c has => ?_⟩
    obtain ⟨d, here, rfl⟩ := List.mem_map.mp has
    by_cases special : d = 'ё'
    · rw [if_pos special]
      decide
    · rw [if_neg special]
      exact solid d here
  · intro c has
    obtain ⟨d, here, rfl⟩ := List.mem_map.mp has
    by_cases special : d = 'ё'
    · rw [if_pos special]
      exact ⟨lowering.cyrillic _ (by decide) (by decide), yo.symm⟩
    · rw [if_neg special]
      exact ⟨lowering.lower_isLower value d (inside d here), special⟩

/-! ## Columns -/

def knownColumns : List Text :=
  [article, name, price, stockQty, brand, category, condition, oemNumbers, crossNumbers, description]

def isPlainLabel (column : Text) : Bool :=
  !column.isEmpty && column.all fun c => c.toNat < 128 && !c.isUpper && !Url.isSpace c && c != 'ё'

theorem tables_checked : (knownColumns.all (fun column => columnOf column == column && isPlainLabel column) &&
    (columnAliases.all (fun entry => knownColumns.contains entry.2) &&
      columnMarkers.all fun check => knownColumns.contains check.1)) = true := by decide +kernel

theorem knownColumns_checked {column : Text} (known : column ∈ knownColumns) :
    columnOf column = column ∧ isPlainLabel column = true := by
  have own := List.all_eq_true.mp (Bool.and_eq_true_iff.mp tables_checked).1 column known
  rwa [Bool.and_eq_true, beq_iff_eq] at own

theorem columnOf_known {column : Text} (known : column ∈ knownColumns) : columnOf column = column :=
  (knownColumns_checked known).1

theorem columnOf_cases (normalized : Text) : columnOf normalized ∈ knownColumns ∨ columnOf normalized = normalized := by
  unfold columnOf
  split
  · next empty => exact .inr empty.symm
  · obtain ⟨aliases, markers⟩ := Bool.and_eq_true_iff.mp (Bool.and_eq_true_iff.mp tables_checked).2
    split
    · next exact found =>
      obtain ⟨entry, mem, rfl⟩ := Dictionary.mem_of_get found
      exact .inl (List.contains_iff_mem.mp (List.all_eq_true.mp aliases entry mem))
    · split
      · next check found =>
        exact .inl (List.contains_iff_mem.mp (List.all_eq_true.mp markers check (List.mem_of_find?_eq_some found)))
      · exact .inr rfl

theorem canonicalColumn_known {column : Text} (known : column ∈ knownColumns) : canonicalColumn lowering column = column := by
  have own := (knownColumns_checked known).2
  simp only [isPlainLabel, Bool.and_eq_true, Bool.not_eq_true', List.isEmpty_eq_false_iff, List.all_eq_true, decide_eq_true_iff,
    bne_iff_ne] at own
  obtain ⟨filled, each⟩ := own
  have joined : joinWords [column] = column := List.intercalate_singleton
  have fixed : normalizedLabel lowering column = column := by
    have whole := @normalizedLabel_joined lowering [column]
      (fun word mem => by
        obtain rfl := List.mem_singleton.mp mem
        exact ⟨filled, fun c has => (each c has).1.2⟩)
      (fun word mem c has => by
        obtain rfl := List.mem_singleton.mp mem
        obtain ⟨⟨⟨ascii, small⟩, _⟩, other⟩ := each c has
        exact ⟨lowering.ascii c ascii small, other⟩)
    rwa [joined] at whole
  rw [canonicalColumn, fixed, columnOf_known known]

theorem canonicalColumn_idem (value : Text) :
    canonicalColumn lowering (canonicalColumn lowering value) = canonicalColumn lowering value := by
  rcases columnOf_cases (normalizedLabel lowering value) with known | same
  · exact canonicalColumn_known lowering known
  · have column : canonicalColumn lowering value = normalizedLabel lowering value := same
    rw [column, canonicalColumn, normalizedLabel_idem, same]

end MapBackend.Datasources
