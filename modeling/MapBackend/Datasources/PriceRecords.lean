import MapBackend.Datasources.PriceColumns

/-!
The records of a price list: what a record has under each column of its row, and which header the
columns come from.
-/

namespace MapBackend.Datasources
open MapBackend.Library MapBackend.Core

/-! ## A row under its header -/

def lastUnder (column : Text) : List Text → Row → Option Text
  | [], _ => none
  | header :: headers, row => (lastUnder column headers row.tail).or (if header = column then some (labelOf row.head?) else none)

def cellText (headers : List Text) (row : Row) (column : Text) : Text := (lastUnder column headers row).getD []

variable {headers : List Text} {row : Row} {column : Text}

theorem lastUnder_isSome :
    (lastUnder column headers row).isSome = true ↔ column ∈ headers := by
  induction headers generalizing row with
  | nil => simp [lastUnder]
  | cons header _ ih =>
    rw [lastUnder, Option.isSome_or, Bool.or_eq_true, ih, List.mem_cons]
    by_cases same : header = column
    · simp [same]
    · simp [same, Ne.symm same]

theorem lastUnder_stripped {column text : Text} (found : lastUnder column headers row = some text) :
    Url.strip text = text := by
  induction headers generalizing row with
  | nil => cases found
  | cons _ _ ih =>
    rw [lastUnder, Option.or_eq_some_iff] at found
    rcases found with later | ⟨-, here⟩
    · exact ih later
    · split at here
      · obtain rfl := Option.some.inj here
        exact label_stripped _
      · cases here

theorem hasAnyValue_of_cell (named : column ≠ [])
    (filled : cellText headers row column ≠ []) : hasAnyValue headers row = true := by
  induction headers generalizing row with
  | nil => exact absurd rfl filled
  | cons header headers ih =>
    unfold cellText lastUnder at filled
    rw [hasAnyValue, Bool.or_eq_true]
    cases later : lastUnder column headers row.tail with
    | some =>
      rw [later] at filled
      refine .inr (ih ?_)
      unfold cellText
      rw [later]
      exact filled
    | none =>
      rw [later, Option.none_or] at filled
      by_cases same : header = column
      · rw [if_pos same] at filled
        exact .inl (by simpa [same, named] using filled)
      · rw [if_neg same] at filled
        exact absurd rfl filled

theorem get_rowDict (named : column ≠ []) (headers : List Text) (row : Row) (record : Record) :
    Dictionary.get column (rowDict headers row record) = (lastUnder column headers row).or (Dictionary.get column record) := by
  induction headers generalizing row record with
  | nil => rfl
  | cons header _ ih =>
    rw [rowDict, ih, lastUnder, Option.or_assoc]
    congr 1
    by_cases blank : header = []
    · have other : ¬ header = column := fun same => named (same ▸ blank)
      rw [if_pos blank, if_neg other, Option.none_or]
    · rw [if_neg blank, Dictionary.get_set]
      by_cases same : header = column
      · rw [if_pos same, if_pos same, Option.some_or]
      · rw [if_neg same, if_neg same, Option.none_or]

theorem rowDict_distinct {record : Record} (distinct : (Dictionary.keys record).Nodup) :
    (Dictionary.keys (rowDict headers row record)).Nodup := by
  induction headers generalizing row record with
  | nil => exact distinct
  | cons _ _ ih =>
    rw [rowDict]
    split
    · exact ih distinct
    · exact ih (Dictionary.nodup_set distinct)

theorem rowDict_keys {record : Record} {key : Text}
    (mem : key ∈ Dictionary.keys (rowDict headers row record)) : key ∈ Dictionary.keys record ∨ key ∈ headers := by
  induction headers generalizing row record with
  | nil => exact .inl mem
  | cons _ _ ih =>
    rw [rowDict] at mem
    rcases ih mem with known | later
    · split at known
      · exact .inl known
      · rcases Dictionary.mem_keys_set.mp known with rfl | known
        · exact .inr List.mem_cons_self
        · exact .inl known
    · exact .inr (List.mem_cons_of_mem _ later)

/-! ## Groups -/

theorem get_inheritGroup {column groupKey : Text} (other : groupKey ≠ column) (state : Record × Record) :
    Dictionary.get column (inheritGroup state groupKey).2 = Dictionary.get column state.2 := by
  unfold inheritGroup
  dsimp only
  split
  · rfl
  · split
    · rw [Dictionary.get_set, if_neg other]
    · rfl

theorem inheritGroup_distinct {groupKey : Text} {state : Record × Record} (distinct : (Dictionary.keys state.2).Nodup) :
    (Dictionary.keys (inheritGroup state groupKey).2).Nodup := by
  unfold inheritGroup
  dsimp only
  split
  · exact distinct
  · split
    · exact Dictionary.nodup_set distinct
    · exact distinct

theorem inheritGroup_keys {groupKey key : Text} {state : Record × Record} (mem : key ∈ Dictionary.keys (inheritGroup state groupKey).2) :
    key = groupKey ∨ key ∈ Dictionary.keys state.2 := by
  unfold inheritGroup at mem
  dsimp only at mem
  split at mem
  · exact .inr mem
  · split at mem
    · exact Dictionary.mem_keys_set.mp mem
    · exact .inr mem

structure RecordOf (headers : List Text) (row : Row) (record : Record) : Prop where
  cells : ∀ column, column ≠ [] → column ≠ brand → column ≠ category → Dictionary.get column record = lastUnder column headers row
  distinct : (Dictionary.keys record).Nodup
  keys : ∀ key ∈ Dictionary.keys record, key ∈ headers ∨ key = brand ∨ key = category

theorem recordOf_row (headers : List Text) (row : Row) (groups : Record) :
    RecordOf headers row ([brand, category].foldl inheritGroup (groups, rowDict headers row [])).2 where
  cells column named notBrand notCategory := by
    rw [List.foldl_cons, List.foldl_cons, List.foldl_nil, get_inheritGroup notCategory.symm, get_inheritGroup notBrand.symm,
      get_rowDict named]
    exact Option.or_none
  distinct := inheritGroup_distinct (inheritGroup_distinct (rowDict_distinct List.nodup_nil))
  keys key mem := by
    rcases inheritGroup_keys mem with rfl | mem
    · exact .inr (.inr rfl)
    · rcases inheritGroup_keys mem with rfl | mem
      · exact .inr (.inl rfl)
      · rcases rowDict_keys mem with none | known
        · cases none
        · exact .inl known

theorem records_forall (headers : List Text) (groups : Record) (rows : List Row) :
    List.Forall₂ (RecordOf headers) (rows.filter (hasAnyValue headers)) (records headers groups rows) := by
  induction rows generalizing groups with
  | nil => exact List.Forall₂.nil
  | cons row _ ih =>
    by_cases value : hasAnyValue headers row = true
    · rw [List.filter_cons_of_pos value, records, if_pos value]
      exact List.Forall₂.cons (recordOf_row headers row groups) (ih _)
    · rw [List.filter_cons_of_neg value, records, if_neg value]
      exact ih groups

/-! ## The header -/

variable (lowering : Lowering)

theorem foldl_better_mem (candidates : List HeaderCandidate) (best : Option HeaderCandidate) :
    ∀ c ∈ candidates.foldl better best, c ∈ candidates ∨ best = some c := by
  induction candidates generalizing best with
  | nil => exact fun c found => .inr found
  | cons _ _ ih =>
    intro c found
    rcases ih _ c found with later | chosen
    · exact .inl (List.mem_cons_of_mem _ later)
    · unfold better at chosen
      split at chosen
      · obtain rfl := Option.some.inj chosen
        exact .inl List.mem_cons_self
      · split at chosen
        · obtain rfl := Option.some.inj chosen
          exact .inl List.mem_cons_self
        · exact .inr chosen

theorem foldl_better_some {candidates : List HeaderCandidate} {best : HeaderCandidate} :
    candidates.foldl better (some best) ≠ none := by
  induction candidates generalizing best with
  | nil => exact Option.some_ne_none best
  | cons _ _ ih =>
    rw [List.foldl_cons, better]
    split <;> exact ih

theorem foldl_better_none {candidates : List HeaderCandidate} (none : candidates.foldl better .none = .none) : candidates = [] := by
  cases candidates with
  | nil => rfl
  | cons => exact absurd none foldl_better_some

theorem buildHeaders_canonical {headerRows : List Row} {header : Text} (mem : header ∈ buildHeaders lowering headerRows) :
    canonicalColumn lowering header = header := by
  obtain ⟨i, -, rfl⟩ := List.mem_map.mp mem
  exact canonicalColumn_idem lowering _

theorem headerCandidate_mem {rows : List Row} {c : HeaderCandidate} (mem : c ∈ headerCandidates lowering rows) :
    ∃ start depth, start < min rows.length maxHeaderScanRows ∧ 1 ≤ depth ∧ depth ≤ maxHeaderDepth ∧
      headerCandidate lowering rows start depth = some c := by
  obtain ⟨start, inside, mem⟩ := List.mem_flatMap.mp mem
  obtain ⟨depth, deep, made⟩ := List.mem_filterMap.mp mem
  obtain ⟨i, _, rfl⟩ := List.mem_range'.mp deep
  exact ⟨start, _, List.mem_range.mp inside, by omega, by unfold maxHeaderDepth at *; omega, made⟩

theorem headerCandidate_headers {rows : List Row} {start depth : ℕ} {c : HeaderCandidate}
    (made : headerCandidate lowering rows start depth = some c) :
    start + depth ≤ rows.length ∧ c.start = start ∧ c.depth = depth ∧
      c.headers = buildHeaders lowering ((rows.drop start).take depth) := by
  unfold headerCandidate at made
  split at made
  · cases made
  · next fits =>
    dsimp only at made
    split at made
    · cases made
    · obtain rfl := Option.some.inj made
      exact ⟨not_lt.mp fits, rfl, rfl, rfl⟩

theorem buildHeaders_single (row : Row) : buildHeaders lowering [row] = row.map fun cell => canonicalColumn lowering cell.label := by
  have width : [row].foldl (fun width row => max width row.length) 0 = row.length := by simp
  unfold buildHeaders
  rw [width]
  refine List.ext_getElem (by simp) fun i inside _ => ?_
  rw [List.length_map, List.length_range] at inside
  rw [List.getElem_map, List.getElem_map, List.getElem_range]
  have cell : row[i]? = some row[i] := List.getElem?_eq_getElem inside
  have label : columnLabel [row] i = row[i].label := by
    unfold columnLabel
    rw [List.map_singleton, cell, labelOf]
    by_cases blank : row[i].label = []
    · rw [blank]
      rfl
    · rw [List.filter_cons_of_pos (by simpa using blank), List.filter_nil, joinWords, List.intercalate_singleton]
  rw [label]

theorem detectHeader_columns (rows : List Row) :
    (∀ header ∈ (detectHeader lowering rows).headers, canonicalColumn lowering header = header) ∨
      ∀ header ∈ (detectHeader lowering rows).headers, canonicalColumn lowering header ∉ requiredColumns := by
  unfold detectHeader
  cases found : (headerCandidates lowering rows).foldl better none with
  | some best =>
    refine .inl fun header mem => ?_
    rcases foldl_better_mem _ _ best found with known | never
    · obtain ⟨_, _, -, -, -, made⟩ := headerCandidate_mem lowering known
      obtain ⟨-, -, -, headers⟩ := headerCandidate_headers lowering made
      have inside : header ∈ best.headers := mem
      exact buildHeaders_canonical lowering (headers ▸ inside)
    · cases never
  | none =>
    refine .inr fun header mem required => ?_
    cases rows with
    | nil => cases mem
    | cons row rest =>
      obtain ⟨cell, inside, rfl⟩ := List.mem_map.mp mem
      -- the first row alone would have been a candidate
      have single : foundRequired (buildHeaders lowering (((row :: rest).drop 0).take 1)) ≠ [] := by
        rw [List.drop_zero, List.take_succ_cons, List.take_zero, buildHeaders_single]
        refine List.ne_nil_of_mem (List.mem_filter.mpr ⟨required, List.contains_iff_mem.mpr ?_⟩)
        exact List.mem_map.mpr ⟨cell, inside, rfl⟩
      have short : ¬ (row :: rest).length < 0 + 1 := by simp
      have made : ∃ c, headerCandidate lowering (row :: rest) 0 1 = some c := by
        unfold headerCandidate
        rw [if_neg short]
        exact ⟨_, if_neg single⟩
      obtain ⟨c, made⟩ := made
      have mem : c ∈ headerCandidates lowering (row :: rest) :=
        List.mem_flatMap.mpr ⟨0, List.mem_range.mpr (by simp [maxHeaderScanRows]),
          List.mem_filterMap.mpr ⟨1, by simp [maxHeaderDepth], made⟩⟩
      rw [foldl_better_none found] at mem
      cases mem

end MapBackend.Datasources
