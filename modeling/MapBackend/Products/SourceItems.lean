import MapBackend.Core.DecimalText

/-!
The records of a data source.
-/

namespace MapBackend.Products.Import
open MapBackend.Library MapBackend.Core

/-! ## Values -/

structure PyFloat where
  value : ℚ
  shown : Text
  zero : value = 0 → shown = "0.0".toList ∨ shown = "-0.0".toList

inductive SourceValue where
  | null
  | bool (b : Bool)
  | int (n : ℤ)
  | float (f : PyFloat)
  /-- Not a number, or an infinity. -/
  | special (shown : Text)
  | text (s : Text)
  | list (items : List SourceValue)
  | object (entries : List (Text × SourceValue))

namespace SourceValue

def truthy : SourceValue → Bool
  | .null => false
  | .bool b => b
  | .int n => decide (n ≠ 0)
  | .float f => decide (f.value ≠ 0)
  | .special _ => true
  | .text s => !s.isEmpty
  | .list items => !items.isEmpty
  | .object entries => !entries.isEmpty

def number : SourceValue → Option ℚ
  | .bool b => some (if b then 1 else 0)
  | .int n => some n
  | .float f => some f.value
  | _ => none

mutual

def same : SourceValue → SourceValue → Bool
  | .null, b => match b with
    | .null => true
    | _ => false
  | .text s, b => match b with
    | .text t => decide (s = t)
    | _ => false
  | .special s, b => match b with
    | .special t => decide (s = t) && decide (s ≠ "nan".toList)
    | _ => false
  | .list items, b => match b with
    | .list others => sameItems items others
    | _ => false
  | .object entries, b => match b with
    | .object others => decide (entries.length = others.length) && sameEntries entries others
    | _ => false
  | .bool v, b => decide (b.number = some (if v then 1 else 0))
  | .int n, b => decide (b.number = some (n : ℚ))
  | .float f, b => decide (b.number = some f.value)

def sameItems : List SourceValue → List SourceValue → Bool
  | [], others => others.isEmpty
  | item :: rest, others => match others with
    | [] => false
    | other :: later => same item other && sameItems rest later

def sameEntries : List (Text × SourceValue) → List (Text × SourceValue) → Bool
  | [], _ => true
  | (key, value) :: rest, others =>
    (match others.find? fun entry => decide (entry.1 = key) with
      | none => false
      | some other => same value other.2) && sameEntries rest others

end

@[simp] theorem same_text (s : Text) (v : SourceValue) : same (.text s) v = true ↔ v = .text s := by
  cases v with
  | text => simp [same, eq_comm]
  | _ => simp [same]

def isNull : SourceValue → Bool
  | .null => true
  | _ => false

def hashable : SourceValue → Bool
  | .list _ => false
  | .object _ => false
  | _ => true

end SourceValue

structure Texts where
  items : List SourceValue → Text
  entries : List (Text × SourceValue) → Text

def Texts.str (texts : Texts) : SourceValue → Text
  | .null => "None".toList
  | .bool true => "True".toList
  | .bool false => "False".toList
  | .int n => (toString n).toList
  | .float f => f.shown
  | .special shown => shown
  | .text s => s
  | .list [] => "[]".toList
  | .list items => '[' :: (texts.items items ++ [']'])
  | .object [] => "\x7b\x7d".toList
  | .object entries => '\x7b' :: (texts.entries entries ++ ['\x7d'])

def intValue : SourceValue → Option ℤ
  | .bool b => some (if b then 1 else 0)
  | .int n => some n
  | .float f => some (if 0 ≤ f.value then ⌊f.value⌋ else ⌈f.value⌉)
  | .text s => AIAgent.intOf s
  | _ => none

def parseInteger (value : SourceValue) : Option ℤ :=
  match value with
  | .null => some 0
  | _ => intValue value

structure SourceItem where
  article : Option SourceValue
  uuid : Option SourceValue
  name : Option SourceValue
  brand : Option SourceValue
  price : Option SourceValue
  stockQty : Option SourceValue
  category : Option SourceValue
  condition : Option SourceValue
  warehouse : Option SourceValue
  description : Option SourceValue

namespace SourceItem

variable (data : SourceItem)

def orEmpty (field : Option SourceValue) : SourceValue := field.getD (.text [])

def nameValue : SourceValue := orEmpty data.name
def categoryValue : SourceValue := orEmpty data.category
def descriptionValue : SourceValue := orEmpty data.description
def warehouseValue : SourceValue := orEmpty data.warehouse
def conditionValue : SourceValue := data.condition.getD (.text "new".toList)
def priceValue : SourceValue := data.price.getD (.text "0".toList)
def stockValue : SourceValue := data.stockQty.getD (.int 0)

end SourceItem

/-! ## Columns -/

/-- Why a row is refused: a constraint of the table, or a value that its column cannot hold. -/
inductive RowError where
  | integrity
  | value
  deriving DecidableEq

/-- What a column of at most so many characters holds of a text: blanks beyond them are cut off. -/
def cut (limit : ℕ) (text : Text) : Option Text :=
  if text.length ≤ limit then some text
  else if (text.drop limit).all (fun c => c == ' ') then some (text.take limit)
  else none

def charColumn (texts : Texts) (limit : Option ℕ) (value : SourceValue) : Except RowError Text :=
  match value with
  | .null => .error .integrity
  | _ =>
    let text := texts.str value
    if text.any (fun c => c.toNat == 0) then .error .value
    else match limit with
      | none => .ok text
      | some limit => match cut limit text with
        | none => .error .value
        | some stored => .ok stored

def hundredths (x : ℚ) : ℤ := if 0 ≤ x then ⌊x * 100 + 1 / 2⌋ else -⌊-x * 100 + 1 / 2⌋

def priceColumn (price : PyDecimal) : Except RowError ℤ :=
  if price.val.isFinite = false then .error .value
  else if (hundredths price.val.value).natAbs < 10 ^ 12 then .ok (hundredths price.val.value)
  else .error .value

def stockColumn (stock : ℤ) : Except RowError ℕ :=
  if 2147483647 < stock ∨ stock < -2147483648 then .error .value
  else if stock < 0 then .error .integrity
  else .ok stock.toNat

theorem hundredths_stored (price : ℤ) : hundredths ((price : ℚ) / 100) = price := by
  have hundred : (price : ℚ) / 100 * 100 = price := by field_simp
  unfold hundredths
  by_cases positive : (0 : ℚ) ≤ (price : ℚ) / 100
  · rw [if_pos positive, hundred, Int.floor_eq_iff]
    constructor
    · linarith
    · linarith
  · rw [if_neg positive, neg_mul, hundred, neg_eq_iff_eq_neg, Int.floor_eq_iff]
    push_cast
    constructor
    · linarith
    · linarith

end MapBackend.Products.Import
