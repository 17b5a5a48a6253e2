import MapBackend.Library.Folds
import MapBackend.Marketplaces.OzonAttributes

/-!
The values of one characteristic: what is kept of them passes preflight and is kept again, unless a text was cut at a blank.
-/

namespace MapBackend.Marketplaces.OzonAttributes
open MapBackend.Library MapBackend.Core Products.Import

/-! ## Stripped texts -/

def IsStripped (text : Text) : Prop := text.head?.any Url.isSpace = false ∧ text.getLast?.any Url.isSpace = false

variable {text : Text}

theorem dropWhile_of_head (head : text.head?.any Url.isSpace = false) : text.dropWhile Url.isSpace = text := by
  cases text with
  | nil => rfl
  | cons c =>
    have visible : ¬ Url.isSpace c = true := Bool.eq_false_iff.mp head
    rw [List.dropWhile_cons_of_neg visible]

theorem head_dropWhile (text : Text) : (text.dropWhile Url.isSpace).head?.any Url.isSpace = false := by
  induction text with
  | nil => rfl
  | cons c =>
    by_cases blank : Url.isSpace c = true
    · rwa [List.dropWhile_cons_of_pos blank]
    · rw [List.dropWhile_cons_of_neg blank]
      exact Bool.eq_false_iff.mpr blank

theorem rstrip_of_last (last : text.getLast?.any Url.isSpace = false) : Url.rstrip Url.isSpace text = text := by
  rw [Url.rstrip, dropWhile_of_head (by rwa [List.head?_reverse]), List.reverse_reverse]

theorem strip_eq_self (stripped : IsStripped text) : Url.strip text = text := by
  rw [Url.strip, dropWhile_of_head stripped.1, rstrip_of_last stripped.2]

theorem rstrip_head (head : text.head?.any Url.isSpace = false) :
    (Url.rstrip Url.isSpace text).head?.any Url.isSpace = false := by
  have prefixed : Url.rstrip Url.isSpace text <+: text := by
    have suffixed : text.reverse.dropWhile Url.isSpace <:+ text.reverse := List.dropWhile_suffix _
    simpa [Url.rstrip] using List.reverse_prefix.mpr suffixed
  obtain ⟨_, shape⟩ := prefixed
  cases own : Url.rstrip Url.isSpace text with
  | nil => rfl
  | cons =>
    rw [own] at shape
    rw [← shape] at head
    exact head

theorem strip_isStripped (text : Text) : IsStripped (Url.strip text) := by
  refine ⟨rstrip_head (head_dropWhile text), ?_⟩
  rw [Url.strip, Url.rstrip, List.getLast?_reverse]
  exact head_dropWhile _

theorem isStripped_of_strip (same : Url.strip text = text) : IsStripped text := same ▸ strip_isStripped text

theorem strip_take_ne_nil {n : ℕ} (stripped : IsStripped text) (filled : text.take n ≠ []) :
    Url.strip (text.take n) ≠ [] := by
  obtain ⟨c, rest, shape⟩ := List.exists_cons_of_ne_nil filled
  have head : (text.take n).head?.any Url.isSpace = false := by
    cases text with
    | nil => rw [List.take_nil]; rfl
    | cons =>
      cases n with
      | zero => rfl
      | succ => exact stripped.1
  rw [Url.strip, dropWhile_of_head head, shape]
  rw [shape] at head
  have kept : Url.rstrip Url.isSpace ([] ++ c :: rest) = [] ++ c :: Url.rstrip Url.isSpace rest := Url.rstrip_append head [] rest
  rw [List.nil_append] at kept
  rw [kept]
  exact List.cons_ne_nil _ _

def blankCut (text : Text) : Bool := decide (1000 < text.length) && (text.take 1000).getLast?.any Url.isSpace

theorem take_of_short (short : text.length ≤ 1000) : text.take 1000 = text := List.take_of_length_le short

theorem isStripped_take_iff (stripped : IsStripped text) : IsStripped (text.take 1000) ↔ blankCut text = false := by
  by_cases long : 1000 < text.length
  · have head : (text.take 1000).head?.any Url.isSpace = false := by
      rw [List.head?_take, if_neg (by decide)]
      exact stripped.1
    rw [blankCut, decide_eq_true long, Bool.true_and]
    exact ⟨And.right, fun last => ⟨head, last⟩⟩
  · rw [blankCut, decide_eq_false long, take_of_short (Nat.le_of_not_lt long)]
    exact iff_of_true stripped rfl

theorem strip_sublist (text : Text) : (Url.strip text).Sublist text := by
  have shorter : ((text.dropWhile Url.isSpace).reverse.dropWhile Url.isSpace).reverse.Sublist (text.dropWhile Url.isSpace).reverse.reverse :=
    (List.dropWhile_sublist _).reverse
  rw [List.reverse_reverse] at shorter
  exact shorter.trans (List.dropWhile_sublist _)

theorem strippedText_isStripped (value : SourceValue) : IsStripped (strippedText value) := by
  cases value with
  | text s => exact strip_isStripped s
  | _ => exact ⟨rfl, rfl⟩

/-! ## Numbers -/

def isInfinite : SourceValue → Bool
  | .special shown => decide (shown ≠ "nan".toList)
  | _ => false

variable {e : AttributeError}

theorem integerOf_error {value : SourceValue} :
    integerOf value = .error e ↔ isInfinite value = true ∧ e = .overflow := by
  cases value with
  | special shown =>
    change (if shown = "nan".toList then Except.ok none else Except.error AttributeError.overflow) = .error e ↔
      decide (shown ≠ "nan".toList) = true ∧ e = .overflow
    rw [decide_eq_true_iff]
    by_cases nan : shown = "nan".toList
    · rw [if_pos nan]
      exact ⟨fun raised => (by cases raised), fun other => absurd nan other.1⟩
    · rw [if_neg nan]
      exact ⟨fun raised => ⟨nan, (Except.error.inj raised).symm⟩, fun other => by rw [other.2]⟩
  | _ => simp [integerOf, isInfinite]

theorem requestedId_error {fields : List (Text × SourceValue)} : requestedId fields = .error e ↔
    isInfinite ((field "dictionary_value_id" fields).getD .null) = true ∧ e = .overflow := by
  unfold requestedId
  split
  · next blank => simp [blank, isInfinite]
  · next truth => simp [truth, isInfinite]
  · rw [map_error_iff, integerOf_error]

/-! ## Values without a dictionary -/

variable {casefold : Text → Text} {definition : AttributeDefinition} {v : AttributeValue} {raw : SourceValue}
  {values : List AttributeValue} {raws : List SourceValue}

theorem freeValue_ok : freeValue casefold definition raw = .ok v ↔ ∃ fields, raw = .object fields ∧
    isBlankId ((field "dictionary_value_id" fields).getD (.int 0)) = true ∧ v.value ≠ [] ∧
    (isBooleanAttribute casefold definition = true → booleanTexts.contains v.value = true) ∧
    v = ⟨(strippedText ((field "value" fields).getD .null)).take 1000, 0⟩ := by
  cases raw with
  | object =>
    simp only [freeValue, bind_ok, raiseIf_ok, not_or, not_and, Bool.not_eq_false, SourceValue.object.injEq, exists_eq_left',
      exists_const, Except.ok.injEq]
    constructor
    · rintro ⟨⟨blank, filled⟩, boolean, rfl⟩
      exact ⟨blank, filled, boolean, rfl⟩
    · rintro ⟨blank, filled, boolean, rfl⟩
      exact ⟨⟨blank, filled⟩, boolean, rfl⟩
  | _ => simp [freeValue]

structure KeptFree (casefold : Text → Text) (definition : AttributeDefinition) (v : AttributeValue) : Prop where
  id : v.dictionaryValueId = 0
  filled : Url.strip v.value ≠ []
  short : v.value.length ≤ 1000
  boolean : isBooleanAttribute casefold definition = true → booleanTexts.contains v.value = true

theorem freeValue_kept (made : freeValue casefold definition raw = .ok v) : KeptFree casefold definition v := by
  obtain ⟨_, -, -, filled, boolean, rfl⟩ := freeValue_ok.mp made
  exact ⟨rfl, strip_take_ne_nil (strippedText_isStripped _) filled, List.length_take_le _ _, boolean⟩

theorem freeValue_toJson (kept : KeptFree casefold definition v) :
    freeValue casefold definition v.toJson = .ok v ↔ IsStripped v.value := by
  have blank : isBlankId ((field "dictionary_value_id" [("value".toList, .text v.value),
      ("dictionary_value_id".toList, .int v.dictionaryValueId)]).getD (.int 0)) = true := by
    rw [kept.id]
    rfl
  have short : (Url.strip v.value).length ≤ 1000 := le_trans (strip_sublist v.value).length_le kept.short
  rw [AttributeValue.toJson, freeValue_ok]
  constructor
  · rintro ⟨_, shape, -, -, -, same⟩
    obtain rfl := SourceValue.object.inj shape
    have texts : v.value = (Url.strip v.value).take 1000 := congrArg AttributeValue.value same
    rw [List.take_of_length_le short] at texts
    exact isStripped_of_strip texts.symm
  · intro stripped
    refine ⟨_, rfl, blank, fun none => kept.filled (by rw [none]; rfl), kept.boolean, ?_⟩
    change v = ⟨(Url.strip v.value).take 1000, 0⟩
    rw [strip_eq_self stripped, List.take_of_length_le kept.short, ← kept.id]

/-! ## Values of a dictionary -/

variable {account : ℕ} {schema : OzonCategoryAttributeSnapshot} {snapshots : List OzonAttributeValueSnapshot}

def GoodIds (ids : List ℤ) : Prop := ids.Nodup ∧ ∀ n ∈ ids, 0 < n

theorem requestNext_ok {ids others : List ℤ} : requestNext ids raw = .ok others ↔
    ∃ fields n, raw = .object fields ∧ requestedId fields = .ok n ∧ 0 < n ∧ n ∉ ids ∧ others = ids ++ [n] := by
  cases raw with
  | object fields =>
    simp only [requestNext, bind_ok, raiseIf_ok, not_or, not_le, SourceValue.object.injEq, Except.ok.injEq]
    constructor
    · rintro ⟨n, named, -, ⟨positive, fresh⟩, rfl⟩
      exact ⟨fields, n, rfl, named, positive, fresh, rfl⟩
    · rintro ⟨_, n, rfl, named, positive, fresh, rfl⟩
      exact ⟨n, named, (), ⟨positive, fresh⟩, rfl⟩
  | _ => simp [requestNext]

variable {ids : List ℤ}

theorem goodIds_append {n : ℤ} (good : GoodIds ids) (positive : 0 < n) (fresh : n ∉ ids) : GoodIds (ids ++ [n]) := by
  refine ⟨List.nodup_append.mpr ⟨good.1, List.nodup_singleton n, ?_⟩, fun m mem => ?_⟩
  · intro a here b there same
    obtain rfl := List.mem_singleton.mp there
    exact fresh (same ▸ here)
  · rcases List.mem_append.mp mem with here | there
    · exact good.2 m here
    · exact List.mem_singleton.mp there ▸ positive

theorem requested_good {ids others : List ℤ} (good : GoodIds ids) (ran : raws.foldlM requestNext ids = .ok others) :
    GoodIds others ∧ others.length = ids.length + raws.length := by
  induction raws generalizing ids with
  | nil =>
    obtain rfl := Except.ok.inj ran
    exact ⟨good, rfl⟩
  | cons _ _ ih =>
    obtain ⟨_, first, later⟩ := foldlM_cons_ok.mp ran
    obtain ⟨_, n, -, -, positive, fresh, rfl⟩ := requestNext_ok.mp first
    obtain ⟨own, size⟩ := ih (goodIds_append good positive fresh) later
    refine ⟨own, ?_⟩
    rw [size, List.length_append, List.length_singleton, List.length_cons]
    omega

theorem requested_toJson (good : GoodIds (ids ++ values.map AttributeValue.dictionaryValueId)) :
    (values.map AttributeValue.toJson).foldlM requestNext ids = .ok (ids ++ values.map AttributeValue.dictionaryValueId) := by
  induction values generalizing ids with
  | nil => rw [List.map_nil, List.map_nil, List.append_nil]; rfl
  | cons v rest ih =>
    rw [List.map_cons] at good
    have positive : 0 < v.dictionaryValueId := good.2 _ (List.mem_append_right _ List.mem_cons_self)
    have fresh : v.dictionaryValueId ∉ ids := fun mem =>
      (List.nodup_append.mp good.1).2.2 _ mem _ List.mem_cons_self rfl
    have shape : ids ++ v.dictionaryValueId :: rest.map AttributeValue.dictionaryValueId =
        (ids ++ [v.dictionaryValueId]) ++ rest.map AttributeValue.dictionaryValueId := by simp
    rw [shape] at good
    rw [List.map_cons, List.map_cons, shape]
    exact foldlM_cons_ok.mpr ⟨_, requestNext_ok.mpr ⟨_, _, rfl, rfl, positive, fresh, rfl⟩, ih good⟩

structure KeptDictionary (account : ℕ) (schema : OzonCategoryAttributeSnapshot) (snapshots : List OzonAttributeValueSnapshot)
    (definition : AttributeDefinition) (values : List AttributeValue) : Prop where
  ids : GoodIds (values.map AttributeValue.dictionaryValueId)
  texts : ∀ v ∈ values, canonicalText (snapshotsOf account schema definition snapshots) v.dictionaryValueId = some v.value

theorem candidateOf_filled {n : ℤ} (found : candidateOf raw = some (n, text)) : Url.strip text ≠ [] := by
  unfold candidateOf at found
  split at found
  · split at found
    · dsimp only at found
      split_ifs at found with empty
      obtain ⟨-, rfl⟩ := Prod.mk.inj (Option.some.inj found)
      have stripped := strippedText_isStripped ((field "value" ‹_›).getD .null)
      refine strip_take_ne_nil stripped fun none => ?_
      exact (List.take_eq_nil_iff.mp none).elim (by decide) empty
    · cases found
  · cases found

theorem canonicalText_filled {rows : List OzonAttributeValueSnapshot} {n : ℤ}
    (found : canonicalText rows n = some text) : Url.strip text ≠ [] := by
  obtain ⟨_, mem, rfl⟩ := Dictionary.mem_of_get found
  obtain ⟨_, -, inside⟩ := List.mem_flatMap.mp mem
  obtain ⟨_, -, own⟩ := List.mem_filterMap.mp inside
  exact candidateOf_filled own

theorem forall₂_texts {rows : List OzonAttributeValueSnapshot} :
    List.Forall₂ (fun n v => (orRaise e (canonicalText rows n)).map (fun value => AttributeValue.mk value n) = .ok v) ids values ↔
      ids = values.map AttributeValue.dictionaryValueId ∧ ∀ v ∈ values, canonicalText rows v.dictionaryValueId = some v.value := by
  simp only [map_ok_iff, orRaise_ok]
  constructor
  · intro each
    induction each with
    | nil => exact ⟨rfl, List.forall_mem_nil _⟩
    | cons here _ ih =>
      obtain ⟨_, found, rfl⟩ := here
      obtain ⟨rfl, texts⟩ := ih
      exact ⟨rfl, List.forall_mem_cons.mpr ⟨found, texts⟩⟩
  · rintro ⟨rfl, texts⟩
    rw [List.forall₂_map_left_iff, List.forall₂_same]
    exact fun v mem => ⟨v.value, texts v mem, rfl⟩

theorem dictionaryValues_ok : dictionaryValues account schema snapshots definition raws = .ok values ↔
    ∃ ids, raws.foldlM requestNext [] = .ok ids ∧ ids = values.map AttributeValue.dictionaryValueId ∧
      ∀ v ∈ values, canonicalText (snapshotsOf account schema definition snapshots) v.dictionaryValueId = some v.value := by
  simp only [dictionaryValues, bind_ok, mapM_ok_iff, forall₂_texts]

theorem dictionaryValues_kept (made : dictionaryValues account schema snapshots definition raws = .ok values) :
    KeptDictionary account schema snapshots definition values ∧ values.length = raws.length := by
  obtain ⟨_, ran, rfl, texts⟩ := dictionaryValues_ok.mp made
  obtain ⟨good, size⟩ := requested_good ⟨List.nodup_nil, List.forall_mem_nil _⟩ ran
  refine ⟨⟨good, texts⟩, ?_⟩
  rwa [List.length_map, List.length_nil, Nat.zero_add] at size

theorem dictionaryValues_toJson (kept : KeptDictionary account schema snapshots definition values) :
    dictionaryValues account schema snapshots definition (values.map AttributeValue.toJson) = .ok values :=
  dictionaryValues_ok.mpr ⟨_, requested_toJson kept.ids, rfl, kept.texts⟩

/-! ## Values of a characteristic -/

structure Kept (casefold : Text → Text) (account : ℕ) (schema : OzonCategoryAttributeSnapshot)
    (snapshots : List OzonAttributeValueSnapshot) (definition : AttributeDefinition) (values : List AttributeValue) : Prop where
  dictionary : 0 < definition.dictionaryId → KeptDictionary account schema snapshots definition values
  free : definition.dictionaryId ≤ 0 → ∀ v ∈ values, KeptFree casefold definition v

theorem forall₂_kept {items : List SourceValue} (each : List.Forall₂ (fun item v => freeValue casefold definition item = .ok v) items values) :
    ∀ v ∈ values, KeptFree casefold definition v := by
  induction each with
  | nil => exact List.forall_mem_nil _
  | cons here _ ih => exact List.forall_mem_cons.mpr ⟨freeValue_kept here, ih⟩

theorem valuesOf_kept (made : valuesOf casefold account schema snapshots definition raws = .ok values) :
    Kept casefold account schema snapshots definition values ∧ values.length = raws.length := by
  unfold valuesOf at made
  split at made
  · next dictionary =>
    obtain ⟨kept, size⟩ := dictionaryValues_kept made
    exact ⟨⟨fun _ => kept, fun free => absurd dictionary (not_lt.mpr free)⟩, size⟩
  · next free =>
    have each := mapM_ok_iff.mp made
    exact ⟨⟨fun dictionary => absurd dictionary free, fun _ => forall₂_kept each⟩, each.length_eq.symm⟩

theorem valuesOf_toJson (kept : Kept casefold account schema snapshots definition values) :
    valuesOf casefold account schema snapshots definition (values.map AttributeValue.toJson) = .ok values ↔
      (definition.dictionaryId ≤ 0 → ∀ v ∈ values, IsStripped v.value) := by
  unfold valuesOf
  split
  · next dictionary =>
    exact iff_of_true (dictionaryValues_toJson (kept.dictionary dictionary)) fun free => absurd dictionary (not_lt.mpr free)
  · next free =>
    rw [mapM_ok_iff, List.forall₂_map_left_iff, List.forall₂_same]
    have own := kept.free (not_lt.mp free)
    exact ⟨fun again _ v mem => (freeValue_toJson (own v mem)).mp (again v mem),
      fun stripped v mem => (freeValue_toJson (own v mem)).mpr (stripped (not_lt.mp free) v mem)⟩

theorem freeValue_stripped (made : freeValue casefold definition (.object fields) = .ok v) :
    IsStripped v.value ↔ blankCut (strippedText ((field "value" fields).getD .null)) = false := by
  obtain ⟨_, shape, -, -, -, rfl⟩ := freeValue_ok.mp made
  obtain rfl := SourceValue.object.inj shape
  exact isStripped_take_iff (strippedText_isStripped _)

/-! ## Preflight -/

theorem isFreeItem_toJson (kept : KeptFree casefold definition v) : isFreeItem v.toJson = true := by
  have blank : isBlankId (.int v.dictionaryValueId) = true := by
    rw [kept.id]
    rfl
  change (decide (Url.strip v.value ≠ []) && isBlankId (.int v.dictionaryValueId)) = true
  rw [blank, Bool.and_true]
  exact decide_eq_true kept.filled

theorem isDictionaryItem_toJson (positive : 0 < v.dictionaryValueId) (filled : Url.strip v.value ≠ []) :
    isDictionaryItem v.toJson = true := by
  change (decide (0 < v.dictionaryValueId) && decide (Url.strip v.value ≠ [])) = true
  rw [decide_eq_true positive, decide_eq_true filled, Bool.and_self]

theorem booleanItemCheck_toJson (kept : KeptFree casefold definition v) (boolean : isBooleanAttribute casefold definition = true) :
    booleanItemCheck v.toJson = .passes := by
  have blank : isBlankId (.int v.dictionaryValueId) = true := by
    rw [kept.id]
    rfl
  change (if false = true then StoredCheck.raises else if booleanTexts.contains v.value = true ∧
    isBlankId (.int v.dictionaryValueId) = true then StoredCheck.passes else chooseBoolean) = .passes
  rw [if_neg Bool.false_ne_true, if_pos ⟨kept.boolean boolean, blank⟩]

theorem storedAttributeValueError_kept (kept : Kept casefold account schema snapshots definition values) (filled : values ≠ [])
    (single : isBooleanAttribute casefold definition = true → values.length ≤ 1) :
    storedAttributeValueError casefold definition (valuesJson values) = .passes := by
  have items : itemsOf (valuesJson values) = values.map AttributeValue.toJson := rfl
  have some_item : ¬ (values.map AttributeValue.toJson).isEmpty = true := by
    rwa [List.isEmpty_iff, List.map_eq_nil_iff]
  rw [storedAttributeValueError, items, if_neg some_item]
  split
  · next dictionary =>
    have own := kept.dictionary dictionary
    have all : (values.map AttributeValue.toJson).all isDictionaryItem = true := by
      rw [List.all_map, List.all_eq_true]
      intro v mem
      exact isDictionaryItem_toJson (own.ids.2 _ (List.mem_map_of_mem mem)) (canonicalText_filled (own.texts v mem))
    rw [if_pos all]
  · next free =>
    have own := kept.free (not_lt.mp free)
    split
    · next boolean =>
      have one : values.length = 1 := Nat.le_antisymm (single boolean) (List.length_pos_iff.mpr filled)
      obtain ⟨v, rfl⟩ := List.length_eq_one_iff.mp one
      exact booleanItemCheck_toJson (own v List.mem_cons_self) boolean
    · have all : (values.map AttributeValue.toJson).all isFreeItem = true := by
        rw [List.all_map, List.all_eq_true]
        exact fun v mem => isFreeItem_toJson (own v mem)
      rw [if_pos all]

end MapBackend.Marketplaces.OzonAttributes
