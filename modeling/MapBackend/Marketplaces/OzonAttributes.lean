import MapBackend.Library.Dicts
import MapBackend.Marketplaces.Models
import MapBackend.Products.SourcePrice

/-!
The characteristics of an Ozon offer.
-/

namespace MapBackend.Marketplaces.OzonAttributes
open MapBackend.Library MapBackend.Core Products.Import

structure AttributeDefinition where
  id : ℤ
  attributeComplexId : ℤ
  name : Text
  type : Text
  maxValueCount : ℤ
  dictionaryId : ℤ

structure OzonCategoryAttributeSnapshot where
  descriptionCategoryId : ℕ
  typeId : ℕ
  language : Text
  schemaHash : Text
  attributes : List AttributeDefinition

structure OzonAttributeValueSnapshot where
  pk : ℕ
  account : ℕ
  descriptionCategoryId : ℕ
  typeId : ℕ
  attributeId : ℤ
  language : Text
  attributeSchemaHash : Text
  values : SourceValue
  updatedAt : Instant

inductive AttributeError where
  | offer (code : String) (message : Text)
  | overflow
  deriving DecidableEq

structure AttributeValue where
  value : Text
  dictionaryValueId : ℤ
  deriving DecidableEq

structure NormalizedAttribute where
  id : ℤ
  complexId : ℤ
  values : List AttributeValue
  deriving DecidableEq

def offerError (code message : String) : AttributeError := .offer code message.toList

def invalidAttributes : AttributeError := offerError "invalid_attributes" "Проверьте характеристики Ozon."
def invalidAttributeValues : AttributeError := offerError "invalid_attribute_values" "Проверьте значение характеристики Ozon."
def invalidDictionaryValue : AttributeError := offerError "invalid_dictionary_value" "Выберите значение из справочника Ozon."

/-! ## Values of JSON -/

/-- `int(value)`; nothing for a TypeError or a ValueError. A text has no more than 4300 digits. -/
def integerOf : SourceValue → Except AttributeError (Option ℤ)
  | .bool b => .ok (some (if b then 1 else 0))
  | .int n => .ok (some n)
  | .float f => .ok (some (Double.truncate f.value))
  | .special shown => if shown = "nan".toList then .ok none else .error .overflow
  | .text s => .ok (if 4300 < (s.filter Products.Sources.isDecimalDigit).length then none else AIAgent.intOf s)
  | _ => .ok none

def isBlankId : SourceValue → Bool
  | .null => true
  | .text s => s.isEmpty
  | value => decide (value.number = some 0)

def field (key : String) (entries : List (Text × SourceValue)) : Option SourceValue := Dictionary.get key.toList entries

def strippedText : SourceValue → Text
  | .text s => Url.strip s
  | _ => []

def itemsOf : SourceValue → List SourceValue
  | .list items => items
  | _ => []

/-! ## Definitions -/

def booleanAttributeTypes : List Text := ["boolean".toList, "bool".toList]
def booleanAttributeNames : List Text := ["нужен код маркировки".toList]
def booleanTexts : List Text := ["true".toList, "false".toList]

variable (casefold : Text → Text)

def isBooleanAttribute (definition : AttributeDefinition) : Bool :=
  decide (definition.dictionaryId ≤ 0) && (booleanAttributeTypes.contains (casefold (Url.strip definition.type)) ||
    booleanAttributeNames.contains (casefold (Url.strip definition.name)))

def maximum (definition : AttributeDefinition) : ℤ :=
  min (if definition.maxValueCount = 0 then 10 else definition.maxValueCount) 10

def AttributeDefinition.identity (definition : AttributeDefinition) : ℤ × ℤ := (definition.attributeComplexId, definition.id)

def definitionOf (schema : OzonCategoryAttributeSnapshot) (identity : ℤ × ℤ) : Option AttributeDefinition :=
  schema.attributes.reverse.find? fun definition => decide (definition.identity = identity)

/-! ## Preflight -/

/-- Why a stored value is no error, is one, or raises because it has no hash. -/
inductive StoredCheck where
  | passes
  | fails (message : Text)
  | raises
  deriving DecidableEq

def chooseFromDictionary : StoredCheck := .fails "Выберите значение из справочника Ozon.".toList
def chooseBoolean : StoredCheck := .fails "Выберите только «Да» или «Нет».".toList
def checkValue : StoredCheck := .fails "Проверьте значение характеристики Ozon.".toList

def isDictionaryItem : SourceValue → Bool
  | .object entries =>
    (match (field "dictionary_value_id" entries).getD .null with
      | .int n => decide (0 < n)
      | _ => false) && decide (strippedText ((field "value" entries).getD .null) ≠ [])
  | _ => false

def isHashable : SourceValue → Bool
  | .list _ => false
  | .object _ => false
  | _ => true

def isBooleanText : SourceValue → Bool
  | .text s => booleanTexts.contains s
  | _ => false

def booleanItemCheck : SourceValue → StoredCheck
  | .object entries =>
    let value := (field "value" entries).getD .null
    if isHashable value = false then .raises
    else if isBooleanText value = true ∧ isBlankId ((field "dictionary_value_id" entries).getD (.int 0)) = true then .passes
    else chooseBoolean
  | _ => chooseBoolean

def isFreeItem : SourceValue → Bool
  | .object entries => decide (strippedText ((field "value" entries).getD .null) ≠ []) &&
      isBlankId ((field "dictionary_value_id" entries).getD (.int 0))
  | _ => false

def booleanValuesCheck : List SourceValue → StoredCheck
  | [item] => booleanItemCheck item
  | _ => chooseBoolean

def storedAttributeValueError (definition : AttributeDefinition) (stored : SourceValue) : StoredCheck :=
  if (itemsOf stored).isEmpty = true then .passes
  else if 0 < definition.dictionaryId then (if (itemsOf stored).all isDictionaryItem = true then .passes else chooseFromDictionary)
  else if isBooleanAttribute casefold definition = true then booleanValuesCheck (itemsOf stored)
  else if (itemsOf stored).all isFreeItem = true then .passes else checkValue

/-! ## Dictionaries -/

def requestedId (entries : List (Text × SourceValue)) : Except AttributeError ℤ :=
  match (field "dictionary_value_id" entries).getD .null with
  | .null => .ok 0
  | .bool _ => .ok 0
  | value => (integerOf value).map fun n => n.getD 0

def requestNext (requested : List ℤ) : SourceValue → Except AttributeError (List ℤ)
  | .object entries => do
    let valueId ← requestedId entries
    raiseIf (valueId ≤ 0 ∨ valueId ∈ requested) invalidDictionaryValue
    .ok (requested ++ [valueId])
  | _ => .error invalidDictionaryValue

def snapshotsOf (account : ℕ) (schema : OzonCategoryAttributeSnapshot) (definition : AttributeDefinition)
    (snapshots : List OzonAttributeValueSnapshot) : List OzonAttributeValueSnapshot :=
  ((snapshots.filter fun row => decide (row.account = account ∧ row.descriptionCategoryId = schema.descriptionCategoryId ∧
    row.typeId = schema.typeId ∧ row.attributeId = definition.id ∧ row.language = schema.language ∧
    row.attributeSchemaHash = schema.schemaHash)).insertionSort fun a b =>
      b.updatedAt < a.updatedAt ∨ a.updatedAt = b.updatedAt ∧ b.pk ≤ a.pk).take 20

def candidateOf : SourceValue → Option (ℤ × Text)
  | .object entries =>
    match (field "id" entries).getD .null with
    | .int n =>
      let value := strippedText ((field "value" entries).getD .null)
      if value = [] then none else some (n, value.take 1000)
    | _ => none
  | _ => none

def canonicalText (snapshots : List OzonAttributeValueSnapshot) (valueId : ℤ) : Option Text :=
  Dictionary.get valueId (snapshots.flatMap fun row => (itemsOf row.values).filterMap candidateOf)

def dictionaryValues (account : ℕ) (schema : OzonCategoryAttributeSnapshot) (snapshots : List OzonAttributeValueSnapshot)
    (definition : AttributeDefinition) (rawValues : List SourceValue) : Except AttributeError (List AttributeValue) := do
  let requested ← rawValues.foldlM requestNext []
  requested.mapM fun valueId => (orRaise (offerError "invalid_dictionary_value"
    "Значение не найдено в актуальном справочнике Ozon. Повторите поиск.")
      (canonicalText (snapshotsOf account schema definition snapshots) valueId)).map fun value => ⟨value, valueId⟩

/-! ## Normalization -/

def freeValue (definition : AttributeDefinition) : SourceValue → Except AttributeError AttributeValue
  | .object entries => do
    let value := (strippedText ((field "value" entries).getD .null)).take 1000
    raiseIf (isBlankId ((field "dictionary_value_id" entries).getD (.int 0)) = false ∨ value = [])
      (offerError "invalid_attribute_value" "Введите значение характеристики Ozon.")
    raiseIf (isBooleanAttribute casefold definition = true ∧ booleanTexts.contains value = false)
      (.offer "invalid_boolean_value" (definition.name ++ ": выберите только «Да» или «Нет».".toList))
    .ok ⟨value, 0⟩
  | _ => .error invalidAttributeValues

def valuesOf (account : ℕ) (schema : OzonCategoryAttributeSnapshot) (snapshots : List OzonAttributeValueSnapshot)
    (definition : AttributeDefinition) (rawValues : List SourceValue) : Except AttributeError (List AttributeValue) :=
  if 0 < definition.dictionaryId then dictionaryValues account schema snapshots definition rawValues
  else rawValues.mapM (freeValue casefold definition)

def identityOf (entries : List (Text × SourceValue)) : Except AttributeError (ℤ × ℤ) := do
  let complexId ← (← integerOf ((field "complex_id" entries).getD (.int 0))).elim (.error invalidAttributes) .ok
  let id ← (← integerOf (← orRaise invalidAttributes (field "id" entries))).elim (.error invalidAttributes) .ok
  .ok (complexId, id)

def rawValuesOf (entries : List (Text × SourceValue)) : Except AttributeError (List SourceValue) :=
  match (field "values" entries).getD .null with
  | .list values => .ok values
  | _ => .error invalidAttributeValues

def normalizeEntry (account : ℕ) (schema : OzonCategoryAttributeSnapshot) (snapshots : List OzonAttributeValueSnapshot)
    (seen : List (ℤ × ℤ)) (entries : List (Text × SourceValue)) : Except AttributeError ((ℤ × ℤ) × List AttributeValue) := do
  let identity ← identityOf entries
  let definition ← orRaise (offerError "invalid_attribute" "Характеристика отсутствует в текущей схеме Ozon.")
    ((definitionOf schema identity).filter fun _ => decide (identity ∉ seen))
  let rawValues ← rawValuesOf entries
  raiseIf (isBooleanAttribute casefold definition = true ∧ 1 < rawValues.length)
    (.offer "invalid_boolean_value" (definition.name ++ ": выберите только один вариант — «Да» или «Нет».".toList))
  raiseIf (maximum definition < rawValues.length)
    (offerError "too_many_attribute_values" "У характеристики слишком много значений.")
  let values ← valuesOf casefold account schema snapshots definition rawValues
  .ok (identity, values)

structure NormalizeState where
  seen : List (ℤ × ℤ)
  normalized : List NormalizedAttribute

def NormalizeState.add (state : NormalizeState) (identity : ℤ × ℤ) (values : List AttributeValue) : NormalizeState where
  seen := state.seen ++ [identity]
  normalized := if values = [] then state.normalized else state.normalized ++ [⟨identity.2, identity.1, values⟩]

def normalizeNext (account : ℕ) (schema : OzonCategoryAttributeSnapshot) (snapshots : List OzonAttributeValueSnapshot)
    (state : NormalizeState) : SourceValue → Except AttributeError NormalizeState
  | .object entries =>
    (normalizeEntry casefold account schema snapshots state.seen entries).map fun result => state.add result.1 result.2
  | _ => .error invalidAttributes

def NormalizedAttribute.identity (entry : NormalizedAttribute) : ℤ × ℤ := (entry.complexId, entry.id)

def identityLe (a b : NormalizedAttribute) : Prop := a.complexId < b.complexId ∨ a.complexId = b.complexId ∧ a.id ≤ b.id

instance : DecidableRel identityLe := fun _ _ => inferInstanceAs (Decidable (_ ∨ _))

def normalizeAttributes (account : ℕ) (schema : OzonCategoryAttributeSnapshot) (snapshots : List OzonAttributeValueSnapshot) :
    SourceValue → Except AttributeError (List NormalizedAttribute)
  | .list raw => do
    raiseIf (200 < raw.length) invalidAttributes
    let state ← raw.foldlM (normalizeNext casefold account schema snapshots) ⟨[], []⟩
    .ok (state.normalized.insertionSort identityLe)
  | _ => .error invalidAttributes

/-! ## The stored list -/

def AttributeValue.toJson (value : AttributeValue) : SourceValue :=
  .object [("value".toList, .text value.value), ("dictionary_value_id".toList, .int value.dictionaryValueId)]

def valuesJson (values : List AttributeValue) : SourceValue := .list (values.map AttributeValue.toJson)

def NormalizedAttribute.toJson (entry : NormalizedAttribute) : SourceValue :=
  .object [("id".toList, .int entry.id), ("complex_id".toList, .int entry.complexId), ("values".toList, valuesJson entry.values)]

def attributesJson (attributes : List NormalizedAttribute) : SourceValue := .list (attributes.map NormalizedAttribute.toJson)

end MapBackend.Marketplaces.OzonAttributes
