import MapBackend.Marketplaces.OzonAttributeValues

/-!
What is kept of the characteristics of an offer: a strictly ascending list that preflight passes and that is kept as it is
when it is sent again.
-/

namespace MapBackend.Marketplaces.OzonAttributes
open MapBackend.Library MapBackend.Core Products.Import

variable {casefold : Text → Text} {account : ℕ} {schema : OzonCategoryAttributeSnapshot}
  {snapshots : List OzonAttributeValueSnapshot} {seen : List (ℤ × ℤ)} {fields : List (Text × SourceValue)} {identity : ℤ × ℤ}
  {values : List AttributeValue} {definition : AttributeDefinition} {raws : List SourceValue}

/-! ## Entries -/

theorem normalizeEntry_ok : normalizeEntry casefold account schema snapshots seen fields = .ok (identity, values) ↔
    identityOf fields = .ok identity ∧ ∃ definition raws, definitionOf schema identity = some definition ∧ identity ∉ seen ∧
      rawValuesOf fields = .ok raws ∧ (isBooleanAttribute casefold definition = true → raws.length ≤ 1) ∧
      (raws.length : ℤ) ≤ maximum definition ∧ valuesOf casefold account schema snapshots definition raws = .ok values := by
  simp only [normalizeEntry, bind_ok, orRaise_ok, raiseIf_ok, Option.filter_eq_some_iff, decide_eq_true_eq, not_and, not_lt,
    Except.ok.injEq, Prod.mk.injEq]
  constructor
  · rintro ⟨_, named, definition, ⟨known, fresh⟩, raws, listed, -, single, -, few, _, kept, rfl, rfl⟩
    exact ⟨named, definition, raws, known, fresh, listed, single, few, kept⟩
  · rintro ⟨named, definition, raws, known, fresh, listed, single, few, kept⟩
    exact ⟨identity, named, definition, ⟨known, fresh⟩, raws, listed, (), single, (), few, values, kept, rfl, rfl⟩

def complexField (fields : List (Text × SourceValue)) : SourceValue := (field "complex_id" fields).getD (.int 0)

theorem identityOf_overflow : identityOf fields = .error .overflow ↔ isInfinite (complexField fields) = true ∨
    ∃ n, integerOf (complexField fields) = .ok (some n) ∧ ∃ value, field "id" fields = some value ∧ isInfinite value = true := by
  have chosen {x : Option ℤ} : x.elim (.error invalidAttributes) Except.ok ≠ .error AttributeError.overflow := by
    cases x <;> (intro same; cases same)
  have picked {x : Option ℤ} {n : ℤ} : x.elim (.error invalidAttributes) Except.ok = .ok n ↔ x = some n := by
    cases x <;> simp
  have refused : invalidAttributes ≠ .overflow := fun same => by cases same
  simp only [identityOf, bind_error, picked, orRaise_error, orRaise_ok, integerOf_error, chosen, refused, complexField,
    and_true, and_false, or_false, false_or, exists_false, reduceCtorEq]
  constructor
  · rintro (complexId | ⟨_, read, n, rfl, value, has, infinite⟩)
    · exact .inl complexId
    · exact .inr ⟨n, read, value, has, infinite⟩
  · rintro (complexId | ⟨n, read, value, has, infinite⟩)
    · exact .inl complexId
    · exact .inr ⟨some n, read, n, rfl, value, has, infinite⟩

variable {item : SourceValue}

theorem freeValue_never_overflows : freeValue casefold definition item ≠ .error .overflow := by
  intro raised
  cases item with
  | object =>
    simp only [freeValue, bind_error, raiseIf_error, offerError, reduceCtorEq, and_false, or_false, exists_false] at raised
  | _ => cases raised

theorem requestNext_overflow {ids : List ℤ} : requestNext ids item = .error .overflow ↔
    ∃ own, item = .object own ∧ isInfinite ((field "dictionary_value_id" own).getD .null) = true := by
  have refused : invalidDictionaryValue ≠ .overflow := fun same => by cases same
  cases item with
  | object =>
    simp only [requestNext, bind_error, raiseIf_error, requestedId_error, refused, and_true, and_false, or_false, exists_false,
      SourceValue.object.injEq, exists_eq_left', reduceCtorEq]
  | _ => simp [requestNext, refused]

def AsksInfinity (raws : List SourceValue) : Prop := ∃ before own after, raws = before ++ .object own :: after ∧
  (∃ ids, before.foldlM requestNext [] = .ok ids) ∧ isInfinite ((field "dictionary_value_id" own).getD .null) = true

theorem valuesOf_overflow : valuesOf casefold account schema snapshots definition raws = .error .overflow ↔
    0 < definition.dictionaryId ∧ AsksInfinity raws := by
  unfold valuesOf
  split
  · next dictionary =>
    have found (ids : List ℤ) (e : AttributeError) (other : e ≠ .overflow) : ids.mapM (fun n => (orRaise e
        (canonicalText (snapshotsOf account schema definition snapshots) n)).map fun value => AttributeValue.mk value n) ≠
          .error .overflow := by
      intro raised
      obtain ⟨n, -, own⟩ := mapM_error raised
      exact other (orRaise_error.mp (map_error_iff.mp own)).2
    rw [dictionaryValues, bind_error, foldlM_error_iff]
    constructor
    · rintro (⟨before, item, after, ids, shape, ran, raised⟩ | ⟨ids, -, raised⟩)
      · obtain ⟨own, rfl, infinite⟩ := requestNext_overflow.mp raised
        exact ⟨dictionary, before, own, after, shape, ⟨ids, ran⟩, infinite⟩
      · exact absurd raised (found ids _ (fun same => by cases same))
    · rintro ⟨-, before, own, after, shape, ⟨ids, ran⟩, infinite⟩
      exact .inl ⟨before, .object own, after, ids, shape, ran, requestNext_overflow.mpr ⟨own, rfl, infinite⟩⟩
  · next free =>
    refine iff_of_false (fun raised => ?_) fun both => free both.1
    obtain ⟨item, -, own⟩ := mapM_error raised
    exact freeValue_never_overflows own

inductive MeetsInfinity (schema : OzonCategoryAttributeSnapshot) (seen : List (ℤ × ℤ)) (fields : List (Text × SourceValue)) : Prop where
  | complexId (infinite : isInfinite (complexField fields) = true)
  | id {n : ℤ} {value : SourceValue} (before : integerOf (complexField fields) = .ok (some n)) (has : field "id" fields = some value)
      (infinite : isInfinite value = true)
  | value {identity : ℤ × ℤ} {definition : AttributeDefinition} {raws : List SourceValue} (named : identityOf fields = .ok identity)
      (known : definitionOf schema identity = some definition) (fresh : identity ∉ seen) (listed : rawValuesOf fields = .ok raws)
      (few : (raws.length : ℤ) ≤ maximum definition) (dictionary : 0 < definition.dictionaryId) (asks : AsksInfinity raws)

theorem rawValuesOf_never_overflows : rawValuesOf fields ≠ .error .overflow := by
  unfold rawValuesOf
  split <;> (intro same; cases same)

theorem normalizeEntry_overflow :
    normalizeEntry casefold account schema snapshots seen fields = .error .overflow ↔ MeetsInfinity schema seen fields := by
  have refused (code message : String) : offerError code message ≠ .overflow := fun same => by cases same
  have unknown (code : String) (message : Text) : AttributeError.offer code message ≠ .overflow := fun same => by cases same
  simp only [normalizeEntry, bind_error, orRaise_error, orRaise_ok, raiseIf_error, raiseIf_ok, identityOf_overflow,
    Option.filter_eq_some_iff, decide_eq_true_eq, rawValuesOf_never_overflows, valuesOf_overflow, refused, unknown, and_false,
    or_false, false_or, exists_false, not_and, not_lt, reduceCtorEq]
  constructor
  · rintro ((complexId | ⟨n, read, value, has, infinite⟩) | ⟨_, named, _, ⟨known, fresh⟩, _, listed, -, -, -, few,
      dictionary, asks⟩)
    · exact .complexId complexId
    · exact .id read has infinite
    · exact .value named known fresh listed few dictionary asks
  · intro meets
    cases meets with
    | complexId infinite => exact .inl (.inl infinite)
    | id before has infinite => exact .inl (.inr ⟨_, before, _, has, infinite⟩)
    | value named known fresh listed few dictionary asks =>
      refine .inr ⟨_, named, _, ⟨known, fresh⟩, _, listed, (), fun boolean => ?_, (), few, dictionary, asks⟩
      rw [isBooleanAttribute, decide_eq_false (not_le.mpr dictionary), Bool.false_and] at boolean
      cases boolean

/-! ## The loop -/

variable {state final : NormalizeState} {items : List SourceValue} {e : NormalizedAttribute} {entries : List NormalizedAttribute}

theorem normalizeNext_ok {next : NormalizeState} :
    normalizeNext casefold account schema snapshots state item = .ok next ↔ ∃ fields identity values, item = .object fields ∧
      normalizeEntry casefold account schema snapshots state.seen fields = .ok (identity, values) ∧ next = state.add identity values := by
  cases item with
  | object own =>
    simp only [normalizeNext, map_ok_iff, SourceValue.object.injEq]
    constructor
    · rintro ⟨⟨identity, values⟩, made, rfl⟩
      exact ⟨own, identity, values, rfl, made, rfl⟩
    · rintro ⟨_, identity, values, rfl, made, rfl⟩
      exact ⟨(identity, values), made, rfl⟩
  | _ => simp [normalizeNext]

theorem normalizeNext_overflow : normalizeNext casefold account schema snapshots state item = .error .overflow ↔
    ∃ fields, item = .object fields ∧ MeetsInfinity schema state.seen fields := by
  have refused : invalidAttributes ≠ .overflow := fun same => by cases same
  cases item with
  | object => simp only [normalizeNext, map_error_iff, normalizeEntry_overflow, SourceValue.object.injEq, exists_eq_left']
  | _ => simp [normalizeNext, refused]

theorem mem_add : e ∈ (state.add identity values).normalized ↔
    e ∈ state.normalized ∨ values ≠ [] ∧ e = ⟨identity.2, identity.1, values⟩ := by
  unfold NormalizeState.add
  dsimp only
  split
  · next empty => simp [empty]
  · next filled => simp [filled]

def Source (casefold : Text → Text) (account : ℕ) (schema : OzonCategoryAttributeSnapshot)
    (snapshots : List OzonAttributeValueSnapshot) (items : List SourceValue) (e : NormalizedAttribute) : Prop :=
  e.values ≠ [] ∧ ∃ fields seen, .object fields ∈ items ∧
    normalizeEntry casefold account schema snapshots seen fields = .ok (e.identity, e.values)

/-- What the loop has kept: entries of identities that it has seen, none twice. -/
structure Collected (casefold : Text → Text) (account : ℕ) (schema : OzonCategoryAttributeSnapshot)
    (snapshots : List OzonAttributeValueSnapshot) (items : List SourceValue) (state : NormalizeState) : Prop where
  seen : ∀ e ∈ state.normalized, e.identity ∈ state.seen
  once : (state.normalized.map NormalizedAttribute.identity).Nodup
  source : ∀ e ∈ state.normalized, Source casefold account schema snapshots items e

theorem Collected.next {next : NormalizeState}
    (collected : Collected casefold account schema snapshots items state) (mem : item ∈ items)
    (step : normalizeNext casefold account schema snapshots state item = .ok next) :
    Collected casefold account schema snapshots items next := by
  obtain ⟨fields, _, _, rfl, made, rfl⟩ := normalizeNext_ok.mp step
  obtain ⟨-, _, _, -, fresh, -⟩ := normalizeEntry_ok.mp made
  constructor
  · intro e has
    rcases mem_add.mp has with before | ⟨-, rfl⟩
    · exact List.mem_append_left _ (collected.seen e before)
    · exact List.mem_append_right _ (List.mem_singleton_self _)
  · unfold NormalizeState.add
    dsimp only
    split
    · exact collected.once
    · rw [List.map_append, List.nodup_append]
      refine ⟨collected.once, List.nodup_singleton _, fun own before other last same => ?_⟩
      obtain ⟨e, has, rfl⟩ := List.mem_map.mp before
      obtain rfl := List.mem_singleton.mp last
      have inside := collected.seen e has
      rw [same] at inside
      exact fresh inside
  · intro e has
    rcases mem_add.mp has with before | ⟨filled, rfl⟩
    · exact collected.source e before
    · exact ⟨filled, fields, state.seen, mem, made⟩

theorem collected_loop (ran : items.foldlM (normalizeNext casefold account schema snapshots) ⟨[], []⟩ = .ok final) :
    Collected casefold account schema snapshots items final := by
  have start : Collected casefold account schema snapshots items ⟨[], []⟩ :=
    ⟨List.forall_mem_nil _, List.nodup_nil, List.forall_mem_nil _⟩
  exact foldlM_keeps_ok (fun item mem s t own step => Collected.next own mem step) start ran

theorem length_loop (ran : items.foldlM (normalizeNext casefold account schema snapshots) state = .ok final) :
    final.normalized.length ≤ state.normalized.length + items.length := by
  induction items generalizing state with
  | nil =>
    obtain rfl := Except.ok.inj ran
    exact le_rfl
  | cons _ _ ih =>
    obtain ⟨_, first, later⟩ := foldlM_cons_ok.mp ran
    obtain ⟨_, identity, values, -, -, rfl⟩ := normalizeNext_ok.mp first
    have own := ih later
    have grown : (state.add identity values).normalized.length ≤ state.normalized.length + 1 := by
      unfold NormalizeState.add
      dsimp only
      split
      · exact Nat.le_succ _
      · exact (List.length_append).le
    rw [List.length_cons]
    omega

theorem mem_loop (ran : items.foldlM (normalizeNext casefold account schema snapshots) state = .ok final)
    (mem : e ∈ state.normalized) : e ∈ final.normalized := by
  have keeps (item : SourceValue) (_ : item ∈ items) (s t : NormalizeState) (has : e ∈ s.normalized)
      (step : normalizeNext casefold account schema snapshots s item = .ok t) : e ∈ t.normalized := by
    obtain ⟨_, _, _, -, -, rfl⟩ := normalizeNext_ok.mp step
    exact mem_add.mpr (.inl has)
  exact foldlM_keeps_ok keeps mem ran

theorem covered_loop (ran : items.foldlM (normalizeNext casefold account schema snapshots) state = .ok final)
    (mem : .object fields ∈ items) : ∃ seen identity values,
      normalizeEntry casefold account schema snapshots seen fields = .ok (identity, values) ∧
      (values ≠ [] → ⟨identity.2, identity.1, values⟩ ∈ final.normalized) := by
  obtain ⟨_, _, rfl⟩ := List.append_of_mem mem
  obtain ⟨own, -, rest⟩ := foldlM_append_ok.mp ran
  obtain ⟨_, step, later⟩ := foldlM_cons_ok.mp rest
  obtain ⟨_, identity, values, shape, made, rfl⟩ := normalizeNext_ok.mp step
  obtain rfl := SourceValue.object.inj shape
  exact ⟨own.seen, identity, values, made, fun filled => mem_loop later (mem_add.mpr (.inr ⟨filled, rfl⟩))⟩

/-! ## Sent again -/

def Resendable (schema : OzonCategoryAttributeSnapshot) (e : NormalizedAttribute) : Prop :=
  ∀ definition, definitionOf schema e.identity = some definition → definition.dictionaryId ≤ 0 → ∀ v ∈ e.values, IsStripped v.value

def entryFields (e : NormalizedAttribute) : List (Text × SourceValue) :=
  [("id".toList, .int e.id), ("complex_id".toList, .int e.complexId), ("values".toList, valuesJson e.values)]

theorem identityOf_entryFields (e : NormalizedAttribute) : identityOf (entryFields e) = .ok e.identity := rfl

theorem rawValuesOf_entryFields (e : NormalizedAttribute) :
    rawValuesOf (entryFields e) = .ok (e.values.map AttributeValue.toJson) := rfl

theorem Source.kept (source : Source casefold account schema snapshots items e) : ∃ definition,
    definitionOf schema e.identity = some definition ∧ Kept casefold account schema snapshots definition e.values ∧
    (isBooleanAttribute casefold definition = true → e.values.length ≤ 1) ∧ (e.values.length : ℤ) ≤ maximum definition := by
  obtain ⟨-, _, _, -, made⟩ := source
  obtain ⟨-, definition, _, known, -, -, single, few, own⟩ := normalizeEntry_ok.mp made
  obtain ⟨kept, size⟩ := valuesOf_kept own
  exact ⟨definition, known, kept, size ▸ single, size ▸ few⟩

theorem Source.again (source : Source casefold account schema snapshots items e) (resendable : Resendable schema e)
    (fresh : e.identity ∉ seen) :
    normalizeEntry casefold account schema snapshots seen (entryFields e) = .ok (e.identity, e.values) := by
  obtain ⟨definition, known, kept, single, few⟩ := source.kept
  have size : (e.values.map AttributeValue.toJson).length = e.values.length := List.length_map _
  exact normalizeEntry_ok.mpr ⟨identityOf_entryFields e, definition, _, known, fresh, rawValuesOf_entryFields e, size.symm ▸ single,
    size.symm ▸ few, (valuesOf_toJson kept).mpr (resendable definition known)⟩

theorem resent_loop (source : ∀ e ∈ entries, Source casefold account schema snapshots items e)
    (resendable : ∀ e ∈ entries, Resendable schema e) (once : (entries.map NormalizedAttribute.identity).Nodup)
    (fresh : ∀ e ∈ entries, e.identity ∉ state.seen) :
    (entries.map NormalizedAttribute.toJson).foldlM (normalizeNext casefold account schema snapshots) state =
      .ok ⟨state.seen ++ entries.map NormalizedAttribute.identity, state.normalized ++ entries⟩ := by
  induction entries generalizing state with
  | nil => rw [List.map_nil, List.map_nil, List.append_nil, List.append_nil]; rfl
  | cons e _ ih =>
    rw [List.map_cons, List.nodup_cons] at once
    have here := (source e List.mem_cons_self).again (resendable e List.mem_cons_self) (fresh e List.mem_cons_self)
    have kept : state.add e.identity e.values = ⟨state.seen ++ [e.identity], state.normalized ++ [e]⟩ := by
      rw [NormalizeState.add, if_neg (source e List.mem_cons_self).1]
      rfl
    have later := @ih ⟨state.seen ++ [e.identity], state.normalized ++ [e]⟩ (fun other mem => source other (List.mem_cons_of_mem e mem))
      (fun other mem => resendable other (List.mem_cons_of_mem e mem)) once.2 fun other mem has => by
        rcases List.mem_append.mp has with before | last
        · exact fresh other (List.mem_cons_of_mem e mem) before
        · exact once.1 (List.mem_singleton.mp last ▸ List.mem_map_of_mem mem)
    rw [List.append_assoc, List.append_assoc] at later
    exact foldlM_cons_ok.mpr ⟨_, normalizeNext_ok.mpr ⟨_, _, _, rfl, here, kept.symm⟩, later⟩

/-! ## The order -/

instance identityLe_total : Std.Total identityLe := ⟨fun a b => by unfold identityLe; omega⟩

instance identityLe_trans : IsTrans NormalizedAttribute identityLe := ⟨fun a b c first second => by unfold identityLe at *; omega⟩

def IdentityLt (a b : NormalizedAttribute) : Prop := a.complexId < b.complexId ∨ a.complexId = b.complexId ∧ a.id < b.id

theorem ascending_of_once (once : (entries.map NormalizedAttribute.identity).Nodup) (ordered : entries.Pairwise identityLe) :
    entries.Pairwise IdentityLt := by
  refine (List.Pairwise.and (List.pairwise_map.mp once) ordered).imp fun {a b} both => ?_
  obtain ⟨apart, le⟩ := both
  have other : ¬ (a.complexId = b.complexId ∧ a.id = b.id) := fun same => apart (Prod.ext same.1 same.2)
  unfold identityLe at le
  unfold IdentityLt
  omega

theorem normalizeAttributes_ok {raw : SourceValue} {result : List NormalizedAttribute} :
    normalizeAttributes casefold account schema snapshots raw = .ok result ↔ ∃ items final, raw = .list items ∧ items.length ≤ 200 ∧
      items.foldlM (normalizeNext casefold account schema snapshots) ⟨[], []⟩ = .ok final ∧
      result = final.normalized.insertionSort identityLe := by
  cases raw with
  | list own =>
    simp only [normalizeAttributes, bind_ok, raiseIf_ok, not_lt, SourceValue.list.injEq, Except.ok.injEq]
    constructor
    · rintro ⟨-, few, final, ran, rfl⟩
      exact ⟨own, final, rfl, few, ran, rfl⟩
    · rintro ⟨_, final, rfl, few, ran, rfl⟩
      exact ⟨(), few, final, ran, rfl⟩
  | _ => simp [normalizeAttributes]

theorem normalizeAttributes_overflow {raw : SourceValue} :
    normalizeAttributes casefold account schema snapshots raw = .error .overflow ↔ ∃ items before fields after state,
      raw = .list items ∧ items.length ≤ 200 ∧ items = before ++ .object fields :: after ∧
      before.foldlM (normalizeNext casefold account schema snapshots) ⟨[], []⟩ = .ok state ∧ MeetsInfinity schema state.seen fields := by
  have refused : invalidAttributes ≠ .overflow := fun same => by cases same
  cases raw with
  | list own =>
    simp only [normalizeAttributes, bind_error, raiseIf_error, raiseIf_ok, foldlM_error_iff, normalizeNext_overflow, refused,
      and_false, false_or, exists_false, or_false, not_lt, SourceValue.list.injEq, reduceCtorEq]
    constructor
    · rintro ⟨-, few, before, _, after, state, shape, ran, fields, rfl, meets⟩
      exact ⟨own, before, fields, after, state, rfl, few, shape, ran, meets⟩
    · rintro ⟨_, before, fields, after, state, rfl, few, shape, ran, meets⟩
      exact ⟨(), few, before, _, after, state, shape, ran, fields, rfl, meets⟩
  | _ => simp [normalizeAttributes, refused]

/-! ## Normalized lists -/

/-- A list in the order of its identities, of entries that the schema knows and preflight passes. -/
structure Sound (casefold : Text → Text) (schema : OzonCategoryAttributeSnapshot) (result : List NormalizedAttribute) : Prop where
  ascending : result.Pairwise IdentityLt
  entries : ∀ e ∈ result, ∃ definition, definitionOf schema e.identity = some definition ∧ 1 ≤ e.values.length ∧
    (e.values.length : ℤ) ≤ maximum definition ∧ storedAttributeValueError casefold definition (valuesJson e.values) = .passes

/-- What is promised of a value that is sent: it is refused as an offer or kept soundly, and what is kept is kept again. -/
structure Normalizes (casefold : Text → Text) (account : ℕ) (schema : OzonCategoryAttributeSnapshot)
    (snapshots : List OzonAttributeValueSnapshot) (raw : SourceValue) : Prop where
  refused : ∀ e, normalizeAttributes casefold account schema snapshots raw = .error e → ∃ code message, e = .offer code message
  sound : ∀ result, normalizeAttributes casefold account schema snapshots raw = .ok result → Sound casefold schema result
  stable : ∀ result, normalizeAttributes casefold account schema snapshots raw = .ok result →
    normalizeAttributes casefold account schema snapshots (attributesJson result) = .ok result

def CutsClean (schema : OzonCategoryAttributeSnapshot) (items : List SourceValue) : Prop :=
  ∀ fields identity definition raws own, .object fields ∈ items → identityOf fields = .ok identity →
    definitionOf schema identity = some definition → definition.dictionaryId ≤ 0 → rawValuesOf fields = .ok raws →
    .object own ∈ raws → blankCut (strippedText ((field "value" own).getD .null)) = false

/-- The loop meets no infinite number, and no text of an accepted list is cut behind a blank. -/
structure Normalizable (casefold : Text → Text) (account : ℕ) (schema : OzonCategoryAttributeSnapshot)
    (snapshots : List OzonAttributeValueSnapshot) (raw : SourceValue) : Prop where
  finite : ∀ items before fields after state, raw = .list items → items.length ≤ 200 → items = before ++ .object fields :: after →
    before.foldlM (normalizeNext casefold account schema snapshots) ⟨[], []⟩ = .ok state → ¬ MeetsInfinity schema state.seen fields
  clean : ∀ items, raw = .list items → (∃ result, normalizeAttributes casefold account schema snapshots raw = .ok result) →
    CutsClean schema items

variable {raw : SourceValue} {result : List NormalizedAttribute}

theorem normalized_collected (done : normalizeAttributes casefold account schema snapshots raw = .ok result) : ∃ items final,
    raw = .list items ∧ items.length ≤ 200 ∧ items.foldlM (normalizeNext casefold account schema snapshots) ⟨[], []⟩ = .ok final ∧
    result.Perm final.normalized ∧ result.Pairwise identityLe ∧ (result.map NormalizedAttribute.identity).Nodup ∧
    (∀ e ∈ result, Source casefold account schema snapshots items e) ∧ result.length ≤ 200 := by
  obtain ⟨items, final, rfl, few, ran, rfl⟩ := normalizeAttributes_ok.mp done
  have collected := collected_loop ran
  have perm := List.perm_insertionSort identityLe final.normalized
  have size := length_loop ran
  refine ⟨items, final, rfl, few, ran, perm, List.pairwise_insertionSort identityLe _,
    (perm.map NormalizedAttribute.identity).nodup_iff.mpr collected.once, fun e mem => collected.source e (perm.mem_iff.mp mem), ?_⟩
  rw [perm.length_eq]
  exact (size.trans (by rw [List.length_nil, Nat.zero_add])).trans few

theorem normalized_sound (done : normalizeAttributes casefold account schema snapshots raw = .ok result) :
    Sound casefold schema result := by
  obtain ⟨_, _, -, -, -, -, ordered, once, source, -⟩ := normalized_collected done
  refine ⟨ascending_of_once once ordered, fun e mem => ?_⟩
  obtain ⟨definition, known, kept, single, few⟩ := (source e mem).kept
  exact ⟨definition, known, List.length_pos_iff.mpr (source e mem).1, few, storedAttributeValueError_kept kept (source e mem).1 single⟩

theorem normalized_again (done : normalizeAttributes casefold account schema snapshots raw = .ok result)
    (resendable : ∀ e ∈ result, Resendable schema e) :
    normalizeAttributes casefold account schema snapshots (attributesJson result) = .ok result := by
  obtain ⟨items, _, -, -, -, -, ordered, once, source, _⟩ := normalized_collected done
  have ran := @resent_loop casefold account schema snapshots ⟨[], []⟩ items result source resendable once
    fun e _ => List.not_mem_nil
  refine normalizeAttributes_ok.mpr ⟨_, _, rfl, by rwa [List.length_map], ran, ?_⟩
  exact (List.Pairwise.insertionSort_eq ordered).symm

theorem resendable_of_again (done : normalizeAttributes casefold account schema snapshots raw = .ok result)
    (again : normalizeAttributes casefold account schema snapshots (attributesJson result) = .ok result) :
    ∀ e ∈ result, Resendable schema e := by
  intro e mem definition known free
  obtain ⟨_, _, -, -, -, -, -, once, source, -⟩ := normalized_collected done
  obtain ⟨_, _, shape, -, ran, perm, -⟩ := normalized_collected again
  obtain rfl := SourceValue.list.inj shape
  have listed : .object (entryFields e) ∈ result.map NormalizedAttribute.toJson := List.mem_map_of_mem mem
  obtain ⟨_, _, values, made, kept⟩ := covered_loop ran listed
  obtain ⟨named, _, _, known', -, own, -, -, valued⟩ := normalizeEntry_ok.mp made
  obtain rfl := Except.ok.inj ((identityOf_entryFields e).symm.trans named)
  obtain rfl := Option.some.inj (known.symm.trans known')
  obtain rfl := Except.ok.inj ((rawValuesOf_entryFields e).symm.trans own)
  have filled : values ≠ [] := by
    have size := (valuesOf_kept valued).2
    rw [List.length_map] at size
    exact List.length_pos_iff.mp (size ▸ List.length_pos_iff.mpr (source e mem).1)
  have stored := perm.mem_iff.mpr (kept filled)
  have same : e = ⟨e.identity.2, e.identity.1, values⟩ := List.inj_on_of_nodup_map once mem stored rfl
  have texts : e.values = values := congrArg NormalizedAttribute.values same
  obtain ⟨_, known', kept', -⟩ := (source e mem).kept
  obtain rfl := Option.some.inj (known.symm.trans known')
  exact (valuesOf_toJson kept').mp (texts.symm ▸ valued) free

theorem mem_of_forall₂ {α β : Type*} {R : α → β → Prop} {xs : List α} {ys : List β} (each : List.Forall₂ R xs ys) {x : α}
    (mem : x ∈ xs) : ∃ y ∈ ys, R x y := by
  induction each with
  | nil => cases mem
  | cons here _ ih =>
    rcases List.mem_cons.mp mem with rfl | later
    · exact ⟨_, List.mem_cons_self, here⟩
    · obtain ⟨y, inside, own⟩ := ih later
      exact ⟨y, List.mem_cons_of_mem _ inside, own⟩

theorem free_values (free : definition.dictionaryId ≤ 0)
    (made : valuesOf casefold account schema snapshots definition raws = .ok values) :
    List.Forall₂ (fun item v => freeValue casefold definition item = .ok v) raws values := by
  rw [valuesOf, if_neg (not_lt.mpr free)] at made
  exact mapM_ok_iff.mp made

theorem resendable_iff (done : normalizeAttributes casefold account schema snapshots (.list items) = .ok result) :
    (∀ e ∈ result, Resendable schema e) ↔ CutsClean schema items := by
  obtain ⟨_, _, shape, -, ran, perm, -, -, source, -⟩ := normalized_collected done
  obtain rfl := SourceValue.list.inj shape
  constructor
  · intro resendable fields identity definition raws own mem named known free listed inside
    obtain ⟨seen, _, _, made, kept⟩ := covered_loop ran mem
    obtain ⟨named', definition', _, known', -, listed', -, -, valued⟩ := normalizeEntry_ok.mp made
    obtain rfl := Except.ok.inj (named.symm.trans named')
    obtain rfl := Option.some.inj (known.symm.trans known')
    obtain rfl := Except.ok.inj (listed.symm.trans listed')
    obtain ⟨v, has, from_own⟩ := mem_of_forall₂ (free_values free valued) inside
    have stored := perm.mem_iff.mpr (kept (List.ne_nil_of_mem has))
    exact (freeValue_stripped from_own).mp (resendable _ stored definition known free v has)
  · intro clean e mem definition known free v has
    obtain ⟨-, fields, seen, inside, made⟩ := source e mem
    obtain ⟨named, definition', raws, known', -, listed, -, -, valued⟩ := normalizeEntry_ok.mp made
    obtain rfl := Option.some.inj (known.symm.trans known')
    obtain ⟨_, own, from_own⟩ := mem_of_forall₂ (free_values free valued).flip has
    obtain ⟨value, rfl, -⟩ := freeValue_ok.mp from_own
    exact (freeValue_stripped from_own).mpr (clean fields e.identity definition raws value inside named known free listed own)

/-- Every value of JSON is refused or kept soundly, and kept again, exactly when no infinite number is met and no text is
cut behind a blank. -/
theorem normalizes_iff (casefold : Text → Text) (account : ℕ) (schema : OzonCategoryAttributeSnapshot)
    (snapshots : List OzonAttributeValueSnapshot) (raw : SourceValue) :
    Normalizes casefold account schema snapshots raw ↔ Normalizable casefold account schema snapshots raw := by
  constructor
  · intro normalizes
    refine ⟨fun items before fields after state is few shape ran meets => ?_, fun items is accepted => ?_⟩
    · have raised := normalizeAttributes_overflow.mpr ⟨items, before, fields, after, state, is, few, shape, ran, meets⟩
      obtain ⟨code, message, same⟩ := normalizes.refused _ raised
      cases same
    · obtain ⟨result, done⟩ := accepted
      have again := resendable_of_again done (normalizes.stable result done)
      exact (resendable_iff (is ▸ done)).mp again
  · intro normalizable
    refine ⟨fun e raised => ?_, fun result => normalized_sound, fun result done => ?_⟩
    · cases e with
      | offer code message => exact ⟨code, message, rfl⟩
      | overflow =>
        obtain ⟨items, before, fields, after, state, is, few, shape, ran, meets⟩ := normalizeAttributes_overflow.mp raised
        exact absurd meets (normalizable.finite items before fields after state is few shape ran)
    · obtain ⟨items, _, is, -⟩ := normalized_collected done
      exact normalized_again done ((resendable_iff (is ▸ done)).mpr (normalizable.clean items is ⟨result, done⟩))

def infiniteEntry : SourceValue :=
  .list [.object [("id".toList, .special "inf".toList), ("values".toList, .list [])]]

/-- An infinite id raises an error that is no `OzonOfferError`. -/
theorem infinite_id_raises : ¬ ∀ (casefold : Text → Text) (account : ℕ) (schema : OzonCategoryAttributeSnapshot)
    (snapshots : List OzonAttributeValueSnapshot) (raw : SourceValue), Normalizes casefold account schema snapshots raw := by
  intro always
  have raised : normalizeAttributes id 1 ⟨1, 1, [], [], []⟩ [] infiniteEntry = .error .overflow := rfl
  obtain ⟨_, _, same⟩ := (always id 1 ⟨1, 1, [], [], []⟩ [] infiniteEntry).refused _ raised
  cases same

end MapBackend.Marketplaces.OzonAttributes
