import MapBackend.Core.DecimalText
import MapBackend.Library.Dicts
import MapBackend.Library.Doubles

/-!
Uploaded price lists: the cells of a table, the search for its header, the records of its rows and
the items that are made of them.
-/

namespace MapBackend.Datasources
open MapBackend.Library MapBackend.Core

/-! ## Cells -/

inductive Cell where
  | none
  | text (value : Text)
  | other (shown : Text) (truthy : Bool)
  deriving DecidableEq

abbrev Row := List Cell

def Cell.str : Cell → Text
  | .none => "None".toList
  | .text value => value
  | .other shown _ => shown

/-- `str(value).strip() if value is not None else ''`. -/
def Cell.label : Cell → Text
  | .none => []
  | cell => Url.strip cell.str

def Cell.isBlank : Cell → Bool
  | .none => true
  | .text value => value.isEmpty
  | .other _ _ => false

def Cell.truthy : Cell → Bool
  | .none => false
  | .text value => !value.isEmpty
  | .other _ truthy => truthy

def labelOf : Option Cell → Text
  | .none => []
  | some cell => cell.label

/-! ## Numbers -/

def plainNumber (text : Text) : Text := (text.map fun c => if c = ',' then '.' else c).filter fun c => c != ' '

def dropUnderscores (before : Bool) : Text → Option Text
  | [] => some []
  | '_' :: c :: rest => if before = true ∧ c.isDigit = true then (dropUnderscores true rest).map (c :: ·) else .none
  | '_' :: [] => .none
  | c :: rest => (dropUnderscores c.isDigit rest).map (c :: ·)

def floatWord (negative : Bool) (text : Text) : Option Decimal :=
  let lower := text.map Char.toLower
  if lower = "inf".toList ∨ lower = "infinity".toList then some (.infinity negative)
  else if lower = "nan".toList then some (.nan negative false 0)
  else .none

def unsignedFloat (negative : Bool) (text : Text) : Option Decimal :=
  match Decimal.readFinite negative text with
  | some number => some number
  | .none => floatWord negative text

def spelledFloat (text : Text) : Option Decimal :=
  match ((Url.strip text).mapM asciiOf).bind (dropUnderscores false) with
  | some ('-' :: rest) => unsignedFloat true rest
  | some ('+' :: rest) => unsignedFloat false rest
  | some rest => unsignedFloat false rest
  | .none => .none

def toDouble : Decimal → Double
  | .infinity negative => .infinity negative
  | .nan _ _ _ => .nan
  | number => Double.ofRat number.value

/-! ## Columns -/

/-- `str.lower`, and the characters that it leaves as they are. -/
structure Lowering where
  lower : Text → Text
  isLower : Char → Bool
  lower_isLower : ∀ text, ∀ c ∈ lower text, isLower c = true
  lower_of_isLower : ∀ text, (∀ c ∈ text, isLower c = true) → lower text = text
  ascii : ∀ c : Char, c.toNat < 128 → c.isUpper = false → isLower c = true
  cyrillic : ∀ c : Char, 0x430 ≤ c.toNat → c.toNat ≤ 0x44F → isLower c = true

def joinWords (texts : List Text) : Text := [' '].intercalate texts

def splitWords (text : Text) : List Text :=
  ((text.map fun c => if Url.isSpace c = true then ' ' else c).splitOn ' ').filter fun word => !word.isEmpty

/-- Lower case, single spaces (a line end is a blank for `split` as well), and no `ё`. -/
def normalizedLabel (lowering : Lowering) (value : Text) : Text :=
  (joinWords (splitWords (lowering.lower value))).map fun c => if c = 'ё' then 'е' else c

def article : Text := "article".toList
def name : Text := "name".toList
def price : Text := "price".toList
def stockQty : Text := "stock_qty".toList
def brand : Text := "brand".toList
def category : Text := "category".toList
def condition : Text := "condition".toList
def oemNumbers : Text := "oem_numbers".toList
def crossNumbers : Text := "cross_numbers".toList
def description : Text := "description".toList

def requiredColumns : List Text := [article, name, price, stockQty]

def columnAliases : List (Text × Text) :=
  [("артикул".toList, article), ("номер производ.".toList, article), ("номер производителя".toList, article),
    ("название".toList, name), ("наименование".toList, name), ("номенклатура".toList, name), ("товар".toList, name),
    ("цена".toList, price), ("стоимость".toList, price), ("остаток".toList, stockQty), ("количество".toList, stockQty),
    ("кол-во".toList, stockQty), ("бренд".toList, brand), ("производитель".toList, brand), ("марка".toList, brand),
    ("категория".toList, category), ("состояние".toList, condition), ("oem".toList, oemNumbers),
    ("кроссы".toList, crossNumbers), ("кросс-номера".toList, crossNumbers), ("описание".toList, description)]

def columnMarkers : List (Text × List Text) :=
  [(article, ["артикул".toList, "номер производ".toList, "номер детали".toList, "part number".toList, "sku".toList]),
    (brand, ["производитель".toList, "бренд".toList, "марка".toList, "brand".toList]),
    (name, ["номенклатура".toList, "наименование".toList, "название".toList, "товар".toList, "описание товара".toList,
      "name".toList]),
    (price, ["средняя цена".toList, "цена".toList, "стоимость".toList, "price".toList]),
    (stockQty, ["конечный остаток количество".toList, "остаток количество".toList, "остаток".toList, "количество".toList,
      "кол-во".toList, "qty".toList, "stock".toList]),
    (category, ["категория".toList, "группа".toList, "раздел".toList, "category".toList]),
    (condition, ["состояние".toList, "condition".toList]),
    (oemNumbers, ["oem".toList]),
    (crossNumbers, ["кросс".toList, "cross".toList]),
    (description, ["описание".toList, "description".toList])]

def isInside (marker text : Text) : Bool := text.tails.any marker.isPrefixOf

def columnOf (normalized : Text) : Text :=
  if normalized = [] then []
  else match Dictionary.get normalized columnAliases with
    | some exact => exact
    | .none => match columnMarkers.find? fun check => check.2.any fun marker => isInside marker normalized with
      | some check => check.1
      | .none => normalized

def canonicalColumn (lowering : Lowering) (value : Text) : Text := columnOf (normalizedLabel lowering value)

/-! ## The header -/

def columnLabel (headerRows : List Row) (i : ℕ) : Text :=
  joinWords ((headerRows.map fun row => labelOf row[i]?).filter fun label => !label.isEmpty)

/-- `_build_headers`. A parent label is only kept where there is a label of the column's own. -/
def buildHeaders (lowering : Lowering) (headerRows : List Row) : List Text :=
  (List.range (headerRows.foldl (fun width row => max width row.length) 0)).map
    fun i => canonicalColumn lowering (columnLabel headerRows i)

def looksNumeric : Option Cell → Bool
  | .none => false
  | some cell => !cell.isBlank && (decimalOf (plainNumber cell.str)).isSome

def rowMap (headers : List Text) (row : Row) : List (Text × Cell) :=
  ((headers.zip row).filter fun entry => requiredColumns.contains entry.1 && !entry.2.isBlank).foldl
    (fun cells entry => Dictionary.set entry.1 entry.2 cells) []

def isTruthy : Option Cell → Bool
  | .none => false
  | some cell => cell.truthy

def rowScore (headers : List Text) (row : Row) : ℕ :=
  let cells := rowMap headers row
  cells.length + (if isTruthy (Dictionary.get article cells) = true ∧ isTruthy (Dictionary.get name cells) = true then 2 else 0) +
    (if looksNumeric (Dictionary.get price cells) = true then 1 else 0) +
    if looksNumeric (Dictionary.get stockQty cells) = true then 1 else 0

def scoreDataRows (rows : List Row) (headers : List Text) : ℕ := rows.foldl (fun score row => score + rowScore headers row) 0

/-- A possible header: its score, its first row, how many rows it has and its columns. -/
structure HeaderCandidate where
  score : ℤ
  start : ℕ
  depth : ℕ
  headers : List Text
  deriving DecidableEq

def maxHeaderScanRows : ℕ := 50
def maxHeaderDepth : ℕ := 2
def headerDataSampleRows : ℕ := 5

def foundRequired (headers : List Text) : List Text := requiredColumns.filter fun column => headers.contains column

/-- The header of `depth` rows from `start` on, when the table has them and one of them is required. -/
def headerCandidate (lowering : Lowering) (rows : List Row) (start depth : ℕ) : Option HeaderCandidate :=
  if rows.length < start + depth then .none
  else
    let headers := buildHeaders lowering ((rows.drop start).take depth)
    if foundRequired headers = [] then .none
    else
      let dataScore := scoreDataRows ((rows.drop (start + depth)).take headerDataSampleRows) headers
      some
        { score := (foundRequired headers).length * 100 + dataScore - start * 2 - (depth - 1) * 5
          start, depth, headers }

def headerCandidates (lowering : Lowering) (rows : List Row) : List HeaderCandidate :=
  (List.range (min rows.length maxHeaderScanRows)).flatMap fun start =>
    (List.range' 1 maxHeaderDepth).filterMap fun depth => headerCandidate lowering rows start depth

def better (best : Option HeaderCandidate) (candidate : HeaderCandidate) : Option HeaderCandidate :=
  match best with
  | .none => some candidate
  | some found => if found.score < candidate.score then some candidate else some found

structure Header where
  start : ℕ
  depth : ℕ
  headers : List Text

/-- `_detect_header`: the labels of the first row where no column is known. -/
def detectHeader (lowering : Lowering) (rows : List Row) : Header :=
  match (headerCandidates lowering rows).foldl better .none with
  | some best => { start := best.start, depth := best.depth, headers := best.headers }
  | .none => { start := 0, depth := 1, headers := (rows.head?.getD []).map Cell.label }

/-! ## Records -/

abbrev Record := List (Text × Text)

/-- The record of a row, the columns from left to right; a later column of the same name wins. -/
def rowDict : List Text → Row → Record → Record
  | [], _, record => record
  | header :: headers, row, record =>
    rowDict headers row.tail (if header = [] then record else Dictionary.set header (labelOf row.head?) record)

def hasAnyValue : List Text → Row → Bool
  | [], _ => false
  | header :: headers, row => (!header.isEmpty && !(labelOf row.head?).isEmpty) || hasAnyValue headers row.tail

def textOf (key : Text) (record : Record) : Text := (Dictionary.get key record).getD []

def inheritGroup (state : Record × Record) (groupKey : Text) : Record × Record :=
  let value := textOf groupKey state.2
  if value ≠ [] then (Dictionary.set groupKey value state.1, state.2)
  else if textOf article state.2 ≠ [] ∨ textOf name state.2 ≠ [] then
    (state.1, Dictionary.set groupKey (textOf groupKey state.1) state.2)
  else state

/-- The loop of `_rows_to_dicts` over the data rows, with the groups that were read last. -/
def records (headers : List Text) : Record → List Row → List Record
  | _, [] => []
  | groups, row :: rest =>
    if hasAnyValue headers row = true then
      let state := [brand, category].foldl inheritGroup (groups, rowDict headers row [])
      state.2 :: records headers state.1 rest
    else records headers groups rest

def bufferedRows : ℕ := maxHeaderScanRows + maxHeaderDepth + headerDataSampleRows

def dataRows (header : Header) (rows : List Row) : List Row :=
  (rows.take bufferedRows).drop (header.start + header.depth) ++ rows.drop bufferedRows

/-- `_rows_to_dicts` of the rows within the limits. -/
def rowsToDicts (lowering : Lowering) (rows : List Row) : List Record :=
  if rows.take bufferedRows = [] then []
  else
    let header := detectHeader lowering (rows.take bufferedRows)
    records header.headers [] (dataRows header rows)

/-! ## Items -/

/-- What stops an upload: the adapter's own error, or one that nobody catches. -/
inductive UploadError where
  | csvValidation (message : Text)
  | keyError (key : Text)
  | overflow
  deriving DecidableEq

structure ImportLimits where
  maxRows : ℕ
  maxColumns : ℕ
  maxCells : ℕ

def exceeds (what : String) (limit : ℕ) (rest : String) : UploadError :=
  .csvValidation ("Количество ".toList ++ what.toList ++ " превышает допустимый лимит ".toList ++ (toString limit).toList ++ rest.toList)

/-- `_iter_limited_rows`. Nothing else in the loops over the rows raises, so that all rows are counted first. -/
def iterLimitedRows (limits : ImportLimits) : ℕ → ℕ → List Row → Except UploadError (List Row)
  | _, _, [] => .ok []
  | rowNumber, totalCells, row :: rest => do
    raiseIf (limits.maxRows < rowNumber) (exceeds "строк" limits.maxRows ".")
    raiseIf (limits.maxColumns < row.length) (exceeds "колонок" limits.maxColumns ".")
    raiseIf (limits.maxCells < totalCells + row.length) (exceeds "ячеек" limits.maxCells ".")
    let others ← iterLimitedRows limits (rowNumber + 1) (totalCells + row.length) rest
    pure (row :: others)

structure Item where
  article : Text
  name : Text
  brand : Text
  price : Text
  stockQty : ℤ
  category : Text
  condition : Text
  oemNumbers : Text
  crossNumbers : Text
  description : Text
  deriving DecidableEq

def orZero (value : Option Text) : Text := if value.getD [] = [] then ['0'] else value.getD []

/-- `Строка i: некорректная цена "…"`, with the cell that the message looks up. -/
def invalidCell (i : ℕ) (what : String) (key : Text) (row : Record) : UploadError :=
  match Dictionary.get key row with
  | some value => .csvValidation ("Строка ".toList ++ (toString i).toList ++ what.toList ++ value ++ ['"'])
  | .none => .keyError key

def readPrice (i : ℕ) (row : Record) : Except UploadError PyDecimal :=
  orRaise (invalidCell i ": некорректная цена \"" price row) (decimalOf (plainNumber (orZero (Dictionary.get price row))))

/-- `int(float(stock_val))`: an infinite quantity raises an error that is no `ValueError`. -/
def readQuantity (i : ℕ) (row : Record) : Except UploadError ℤ :=
  match (spelledFloat (plainNumber (orZero (Dictionary.get stockQty row)))).map toDouble with
  | some (.finite value) => .ok (Double.truncate value)
  | some (.infinity _) => .error .overflow
  | some .nan => .error (invalidCell i ": некорректное количество \"" stockQty row)
  | .none => .error (invalidCell i ": некорректное количество \"" stockQty row)

def itemOf (i : ℕ) (row : Record) : Except UploadError Item := do
  let price ← readPrice i row
  let quantity ← readQuantity i row
  pure
    { article := textOf article row, name := textOf name row, brand := textOf brand row, price := price.val.shown
      stockQty := quantity, category := textOf category row, condition := (Dictionary.get condition row).getD "new".toList
      oemNumbers := textOf oemNumbers row, crossNumbers := textOf crossNumbers row
      description := textOf description row }

/-- The loop of `_normalize`: a row without an article or a name is left out, which a row without any required
cell is as well. -/
def normalizeRows : ℕ → List Record → Except UploadError (List Item)
  | _, [] => .ok []
  | i, row :: rest =>
    let normalized := row.map fun entry => (entry.1, Url.strip entry.2)
    if textOf article normalized = [] ∨ textOf name normalized = [] then normalizeRows (i + 1) rest
    else do
      let item ← itemOf i normalized
      let items ← normalizeRows (i + 1) rest
      pure (item :: items)

def missingColumns (rows : List Record) : List Text :=
  requiredColumns.filter fun column => !(Dictionary.keys (rows.head?.getD [])).contains column

def normalize (lowering : Lowering) (rows : List Record) : Except UploadError (List Item) :=
  if rows = [] then .ok []
  else do
    let normalizedRows := rows.map (Dictionary.mapKeys (canonicalColumn lowering))
    let missing := missingColumns normalizedRows
    raiseIf (missing ≠ [])
      (.csvValidation ("Отсутствуют обязательные колонки: ".toList ++ [',', ' '].intercalate missing))
    normalizeRows 2 normalizedRows

/-- `_rows_to_dicts` and `_normalize`, one after the other, of the rows of a table. -/
def uploadRows (limits : ImportLimits) (lowering : Lowering) (rows : List Row) : Except UploadError (List Item) := do
  let rows ← iterLimitedRows limits 1 0 rows
  normalize lowering (rowsToDicts lowering rows)

end MapBackend.Datasources
