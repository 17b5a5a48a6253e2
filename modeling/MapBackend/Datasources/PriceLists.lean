import MapBackend.Datasources.PriceRecords
import MapBackend.Library.Words

/-!
Which price lists are taken or refused as they should be: what the texts of prices and quantities
stand for decides whether the items are valid, the upload is refused, or an error gets out.
-/

namespace MapBackend.Datasources
open MapBackend.Library MapBackend.Core

/-! ## Prices and quantities -/

def numberText (text : Text) : Text := plainNumber (if text = [] then ['0'] else text)

def PriceFits (text : Text) : Prop := ∃ d ∈ decimalOf (numberText text), d.val.isFinite = true ∧ 0 ≤ d.val.value

def QuantityRefused (text : Text) : Prop :=
  ∀ number ∈ spelledFloat (numberText text), ∃ negative signaling payload, number = .nan negative signaling payload

def QuantityInfinite (text : Text) : Prop :=
  ∃ number ∈ spelledFloat (numberText text),
    (∃ negative, number = .infinity negative) ∨ number.isFinite = true ∧ 2 ^ 1024 - 2 ^ 970 ≤ |number.value|

def QuantityFits (text : Text) : Prop :=
  ∃ number ∈ spelledFloat (numberText text),
    number.isFinite = true ∧ -(1 - 1 / 2 ^ 54) < number.value ∧ number.value < 2 ^ 1024 - 2 ^ 970

abbrev Entry := Text × Text

def Refused (entry : Entry) : Prop := decimalOf (numberText entry.1) = none ∨ QuantityRefused entry.2

def Overflows (entry : Entry) : Prop := decimalOf (numberText entry.1) ≠ none ∧ QuantityInfinite entry.2

def Fits (entry : Entry) : Prop := PriceFits entry.1 ∧ QuantityFits entry.2

def RefusedFirst (entries : List Entry) : Prop :=
  ∃ before entry after, entries = before ++ entry :: after ∧ Refused entry ∧ ∀ other ∈ before, ¬ Overflows other

variable {entry : Entry}

theorem not_refused_of_fits (fits : Fits entry) : ¬ Refused entry := by
  obtain ⟨⟨d, read, -⟩, number, spelled, finite, -⟩ := fits
  rintro (unread | refused)
  · rw [unread] at read
    cases read
  · obtain ⟨_, _, _, rfl⟩ := refused number spelled
    cases finite

theorem one_le_limit : (1 : ℚ) ≤ 2 ^ 1024 - 2 ^ 970 := by
  have power : (2 : ℚ) ^ 1024 = 2 ^ 54 * 2 ^ 970 := by rw [← pow_add]
  have unit : (1 : ℚ) ≤ 2 ^ 970 := one_le_pow₀ (by norm_num)
  rw [power]
  generalize (2 : ℚ) ^ 970 = large at unit
  linarith

theorem not_overflows_of_fits (fits : Fits entry) : ¬ Overflows entry := by
  obtain ⟨-, number, spelled, finite, above, below⟩ := fits
  rintro ⟨-, other, again, large⟩
  obtain rfl : number = other := Option.some.inj (spelled.symm.trans again)
  rcases large with ⟨_, rfl⟩ | ⟨-, large⟩
  · cases finite
  · have small : -(2 ^ 1024 - 2 ^ 970 : ℚ) < number.value := by
      refine lt_of_le_of_lt (neg_le_neg one_le_limit) (lt_trans ?_ above)
      norm_num
    exact absurd (abs_lt.mpr ⟨small, below⟩) (not_lt.mpr large)

theorem not_refusedFirst_nil : ¬ RefusedFirst [] := by
  rintro ⟨_, _, _, shape, -⟩
  exact absurd shape.symm (List.append_ne_nil_of_right_ne_nil _ (List.cons_ne_nil _ _))

theorem refusedFirst_cons {entries : List Entry} :
    RefusedFirst (entry :: entries) ↔ Refused entry ∨ ¬ Overflows entry ∧ RefusedFirst entries := by
  constructor
  · rintro ⟨before, found, after, shape, refused, calm⟩
    cases before with
    | nil =>
      obtain ⟨rfl, -⟩ := List.cons_eq_cons.mp shape
      exact .inl refused
    | cons _ before =>
      obtain ⟨rfl, rest⟩ := List.cons_eq_cons.mp shape
      exact .inr ⟨calm entry List.mem_cons_self, before, found, after, rest, refused,
        fun other mem => calm other (List.mem_cons_of_mem _ mem)⟩
  · rintro (refused | ⟨calm, before, found, after, rfl, refused, quiet⟩)
    · exact ⟨[], entry, entries, rfl, refused, fun other none => nomatch none⟩
    · refine ⟨entry :: before, found, after, rfl, refused, fun other mem => ?_⟩
      rcases List.mem_cons.mp mem with rfl | mem
      · exact calm
      · exact quiet other mem

inductive QuantityReads (text : Text) : Prop where
  | refused (number : (spelledFloat (numberText text)).map toDouble = none ∨ (spelledFloat (numberText text)).map toDouble = some .nan)
      (refused : QuantityRefused text) (calm : ¬ QuantityInfinite text)
  | infinite (negative : Bool) (number : (spelledFloat (numberText text)).map toDouble = some (.infinity negative))
      (infinite : QuantityInfinite text) (known : ¬ QuantityRefused text)
  | finite (value : ℚ) (number : (spelledFloat (numberText text)).map toDouble = some (.finite value))
      (fits : 0 ≤ Double.truncate value ↔ QuantityFits text) (calm : ¬ QuantityInfinite text) (known : ¬ QuantityRefused text)

theorem quantityReads (text : Text) : QuantityReads text := by
  cases spelled : spelledFloat (numberText text) with
  | none =>
    refine .refused (.inl (by rw [spelled]; rfl)) (fun number found => ?_) ?_
    · rw [spelled] at found
      cases found
    · rintro ⟨number, found, -⟩
      rw [spelled] at found
      cases found
  | some number =>
    have own (P : Decimal → Prop) : (∃ n ∈ spelledFloat (numberText text), P n) ↔ P number := by rw [spelled]; simp
    have all (P : Decimal → Prop) : (∀ n ∈ spelledFloat (numberText text), P n) ↔ P number := by rw [spelled]; simp
    have infinite := own fun number => (∃ negative, number = .infinity negative) ∨
      number.isFinite = true ∧ 2 ^ 1024 - 2 ^ 970 ≤ |number.value|
    have refused := all fun number => ∃ negative signaling payload, number = .nan negative signaling payload
    have fits := own fun number => number.isFinite = true ∧ -(1 - 1 / 2 ^ 54) < number.value ∧ number.value < 2 ^ 1024 - 2 ^ 970
    cases number with
    | nan negative =>
      refine .refused (.inr (by rw [spelled]; rfl)) (refused.mpr ⟨_, _, _, rfl⟩) fun never => ?_
      rcases infinite.mp never with ⟨negative, same⟩ | ⟨finite, -⟩
      · cases same
      · cases finite
    | infinity negative =>
      refine .infinite negative (by rw [spelled]; rfl) (infinite.mpr (.inl ⟨_, rfl⟩)) fun never => ?_
      obtain ⟨_, _, _, same⟩ := refused.mp never
      cases same
    | finite negative coefficient exponent =>
      have known : ¬ QuantityRefused text := by
        intro never
        obtain ⟨_, _, _, same⟩ := refused.mp never
        cases same
      have double : (spelledFloat (numberText text)).map toDouble =
          some (Double.ofRat (Decimal.value (.finite negative coefficient exponent))) := by
        rw [spelled]
        rfl
      generalize Decimal.value (.finite negative coefficient exponent) = value at double infinite fits
      by_cases small : |value| < 2 ^ 1024 - 2 ^ 970
      · obtain ⟨rounded, found⟩ := Double.ofRat_finite_iff.mpr small
        refine .finite rounded (double.trans (congrArg some found)) ?_ (fun never => ?_) known
        · rw [Double.truncate_nonneg_iff found]
          exact ⟨fun above => fits.mpr ⟨rfl, above, (abs_lt.mp small).2⟩, fun fit => (fits.mp fit).2.1⟩
        · rcases infinite.mp never with ⟨negative, same⟩ | ⟨-, large⟩
          · cases same
          · exact absurd small (not_lt.mpr large)
      · have large : ∃ negative, Double.ofRat value = .infinity negative := by
          cases found : Double.ofRat value with
          | finite => exact absurd (Double.ofRat_finite_iff.mp ⟨_, found⟩) small
          | infinity negative => exact ⟨negative, rfl⟩
          | nan =>
            unfold Double.ofRat at found
            split at found <;> cases found
        obtain ⟨sign, found⟩ := large
        exact .infinite sign (double.trans (congrArg some found)) (infinite.mpr (.inr ⟨rfl, not_lt.mp small⟩)) known

/-! ## Items -/

/-- An item that can be stored: it has an article and a name, a price that is finite and not negative, and a quantity that is
not negative. -/
structure Item.Valid (item : Item) : Prop where
  article : item.article ≠ []
  name : item.name ≠ []
  price : ∃ d, decimalOf item.price = some d ∧ d.val.isFinite = true ∧ 0 ≤ d.val.value
  stockQty : 0 ≤ item.stockQty

inductive ItemReads (i : ℕ) (row : Record) (entry : Entry) : Prop where
  | refused (message : Text) (error : itemOf i row = .error (.csvValidation message)) (refused : Refused entry)
  | overflow (error : itemOf i row = .error .overflow) (overflows : Overflows entry) (known : ¬ Refused entry)
  | ok (item : Item) (made : itemOf i row = .ok item) (valid : item.Valid ↔ Fits entry) (known : ¬ Refused entry)
      (calm : ¬ Overflows entry)

theorem shown_fits {text : Text} {d : PyDecimal} (read : decimalOf (numberText text) = some d) :
    (∃ other, decimalOf d.val.shown = some other ∧ other.val.isFinite = true ∧ 0 ≤ other.val.value) ↔ PriceFits text := by
  unfold PriceFits
  rw [read]
  simp only [Option.mem_def, Option.some.injEq, exists_eq_left']
  constructor
  · rintro ⟨other, again, finite, nonneg⟩
    cases kind : d.val.isFinite with
    | false => exact absurd finite (by rw [decimalOf_shown_special kind again]; decide)
    | true =>
      have same : other = d := Option.some.inj (again.symm.trans (decimalOf_shown d kind))
      rw [← same]
      exact ⟨rfl, nonneg⟩
  · rintro ⟨finite, nonneg⟩
    exact ⟨d, decimalOf_shown d finite, finite, nonneg⟩

theorem invalidCell_known (i : ℕ) (what : String) {key value : Text} {row : Record} (known : Dictionary.get key row = some value) :
    ∃ message, invalidCell i what key row = .csvValidation message := by
  unfold invalidCell
  rw [known]
  exact ⟨_, rfl⟩

theorem itemReads {i : ℕ} {row : Record} (articled : textOf article row ≠ []) (named : textOf name row ≠ [])
    (priced : Dictionary.get price row = some entry.1) (stocked : Dictionary.get stockQty row = some entry.2) : ItemReads i row entry := by
  have priceText : plainNumber (orZero (Dictionary.get price row)) = numberText entry.1 := by
    rw [priced]
    rfl
  have quantityText : plainNumber (orZero (Dictionary.get stockQty row)) = numberText entry.2 := by
    rw [stocked]
    rfl
  have prices : readPrice i row = orRaise (invalidCell i ": некорректная цена \"" price row) (decimalOf (numberText entry.1)) := by
    rw [readPrice, priceText]
  cases read : decimalOf (numberText entry.1) with
  | none =>
    obtain ⟨message, error⟩ := invalidCell_known i ": некорректная цена \"" priced
    rw [read, error] at prices
    refine .refused message ?_ (.inl read)
    rw [itemOf, prices]
    rfl
  | some d =>
    rw [read] at prices
    have readable : decimalOf (numberText entry.1) ≠ none := by
      rw [read]
      exact Option.some_ne_none d
    have refused_iff : Refused entry ↔ QuantityRefused entry.2 := or_iff_right readable
    have overflows_iff : Overflows entry ↔ QuantityInfinite entry.2 := and_iff_right readable
    have quantities := readQuantity.eq_def i row
    rw [quantityText] at quantities
    cases quantityReads entry.2 with
    | refused number refused =>
      obtain ⟨message, error⟩ := invalidCell_known i ": некорректное количество \"" stocked
      have stops : readQuantity i row = .error (.csvValidation message) := by
        rcases number with number | number <;>
          rw [quantities, number, ← error]
      refine .refused message ?_ (refused_iff.mpr refused)
      rw [itemOf, prices, stops]
      rfl
    | infinite _ number infinite known =>
      rw [number] at quantities
      refine .overflow ?_ (overflows_iff.mpr infinite) fun never => known (refused_iff.mp never)
      rw [itemOf, prices, quantities]
      rfl
    | finite value number fits calm known =>
      rw [number] at quantities
      have made : itemOf i row = .ok
          { article := textOf article row, name := textOf name row, brand := textOf brand row, price := d.val.shown
            stockQty := Double.truncate value, category := textOf category row
            condition := (Dictionary.get condition row).getD "new".toList, oemNumbers := textOf oemNumbers row
            crossNumbers := textOf crossNumbers row, description := textOf description row } := by
        rw [itemOf, prices, quantities]
        rfl
      refine .ok _ made ?_ (fun never => known (refused_iff.mp never)) fun never => calm (overflows_iff.mp never)
      constructor
      · intro valid
        exact ⟨(shown_fits read).mp valid.price, fits.mp valid.stockQty⟩
      · rintro ⟨priceFits, quantityFits⟩
        exact { article := articled, name := named, price := (shown_fits read).mpr priceFits, stockQty := fits.mpr quantityFits }

/-! ## The rows of a list -/

def isProduct (headers : List Text) (row : Row) : Bool :=
  !(cellText headers row article).isEmpty && !(cellText headers row name).isEmpty

def entryOf (headers : List Text) (row : Row) : Entry := (cellText headers row price, cellText headers row stockQty)

def entriesOf (headers : List Text) (rows : List Row) : List Entry := (rows.filter (isProduct headers)).map (entryOf headers)

variable {headers : List Text} {column : Text}

theorem get_normalized {row : Row} {record : Record} (of : RecordOf headers row record)
    (known : column ∈ requiredColumns) :
    Dictionary.get column (record.map fun entry => (entry.1, Url.strip entry.2)) = lastUnder column headers row := by
  have plain : requiredColumns.all (fun column => column != [] && column != brand && column != category) = true := by decide
  have own := List.all_eq_true.mp plain column known
  simp only [Bool.and_eq_true, bne_iff_ne] at own
  rw [Dictionary.get_mapValues, of.cells column own.1.1 own.1.2 own.2]
  cases found : lastUnder column headers row with
  | none => rfl
  | some => exact congrArg some (lastUnder_stripped found)

theorem get_present {row : Row} (present : column ∈ headers) :
    lastUnder column headers row = some (cellText headers row column) := by
  obtain ⟨_, found⟩ := Option.isSome_iff_exists.mp (lastUnder_isSome.mpr present)
  rw [cellText, found]
  rfl

section
variable {headers : List Text} (complete : ∀ column ∈ requiredColumns, column ∈ headers)
include complete

theorem normalizeRows_cons {row : Row} {record : Record} (of : RecordOf headers row record) (i : ℕ) (rest : List Record) :
    (isProduct headers row = false ∧ normalizeRows i (record :: rest) = normalizeRows (i + 1) rest) ∨
      (isProduct headers row = true ∧ ∃ normalized, ItemReads i normalized (entryOf headers row) ∧
        normalizeRows i (record :: rest) = do
          let item ← itemOf i normalized
          let items ← normalizeRows (i + 1) rest
          pure (item :: items)) := by
  have get (column : Text) (known : column ∈ requiredColumns) :
      Dictionary.get column (record.map fun entry => (entry.1, Url.strip entry.2)) = some (cellText headers row column) :=
    (get_normalized of known).trans (get_present (complete column known))
  have articles := get article (by simp [requiredColumns])
  have names := get name (by simp [requiredColumns])
  have articleText : textOf article (record.map fun entry => (entry.1, Url.strip entry.2)) = cellText headers row article := by
    rw [textOf, articles]
    rfl
  have nameText : textOf name (record.map fun entry => (entry.1, Url.strip entry.2)) = cellText headers row name := by
    rw [textOf, names]
    rfl
  rw [normalizeRows, articleText, nameText]
  by_cases product : isProduct headers row = true
  · refine .inr ⟨product, record.map fun entry => (entry.1, Url.strip entry.2), ?_, ?_⟩
    · simp only [isProduct, Bool.and_eq_true, Bool.not_eq_true', List.isEmpty_eq_false_iff] at product
      exact itemReads (articleText ▸ product.1) (nameText ▸ product.2) (get price (by simp [requiredColumns]))
        (get stockQty (by simp [requiredColumns]))
    · simp only [isProduct, Bool.and_eq_true, Bool.not_eq_true', List.isEmpty_eq_false_iff] at product
      rw [if_neg (by simp [product.1, product.2])]
  · refine .inl ⟨Bool.eq_false_iff.mpr product, ?_⟩
    simp only [isProduct, Bool.and_eq_true, Bool.not_eq_true', List.isEmpty_eq_false_iff, not_and_or, not_not] at product
    rw [if_pos product]

theorem normalizeRows_refused {rows : List Row} {records : List Record} (of : List.Forall₂ (RecordOf headers) rows records) (i : ℕ) :
    (∃ message, normalizeRows i records = .error (.csvValidation message)) ↔ RefusedFirst (entriesOf headers rows) := by
  induction of generalizing i with
  | nil =>
    refine ⟨?_, fun never => absurd never not_refusedFirst_nil⟩
    rintro ⟨message, error⟩
    cases error
  | @cons row record rows records own others ih =>
    rcases normalizeRows_cons complete own i records with ⟨skipped, same⟩ | ⟨product, _, reads, same⟩
    · rw [same, ih, entriesOf, entriesOf, List.filter_cons_of_neg (by rw [skipped]; decide)]
    · have entries : entriesOf headers (row :: rows) = entryOf headers row :: entriesOf headers rows := by
        rw [entriesOf, List.filter_cons_of_pos product, List.map_cons, entriesOf]
      rw [same, entries, refusedFirst_cons]
      cases reads with
      | refused message error refused => exact ⟨fun _ => .inl refused, fun _ => ⟨message, by rw [error]; rfl⟩⟩
      | overflow error overflows known =>
        rw [error]
        constructor
        · rintro ⟨message, other⟩
          cases other
        · rintro (refused | ⟨calm, -⟩)
          · exact absurd refused known
          · exact absurd overflows calm
      | ok _ made _ known calm =>
        rw [made, or_iff_right known, and_iff_right calm, ← ih (i + 1)]
        constructor
        · rintro ⟨message, error⟩
          cases outcome : normalizeRows (i + 1) records with
          | error =>
            rw [outcome] at error
            exact ⟨message, error⟩
          | ok =>
            rw [outcome] at error
            cases error
        · rintro ⟨message, error⟩
          exact ⟨message, by rw [error]; rfl⟩

theorem normalizeRows_valid {rows : List Row} {records : List Record} (of : List.Forall₂ (RecordOf headers) rows records) (i : ℕ) :
    (∃ items, normalizeRows i records = .ok items ∧ ∀ item ∈ items, item.Valid) ↔ ∀ entry ∈ entriesOf headers rows, Fits entry := by
  induction of generalizing i with
  | nil => exact ⟨fun _ entry none => (nomatch none), fun _ => ⟨[], rfl, fun item none => nomatch none⟩⟩
  | @cons row record rows records own others ih =>
    rcases normalizeRows_cons complete own i records with ⟨skipped, same⟩ | ⟨product, _, reads, same⟩
    · rw [same, ih, entriesOf, entriesOf, List.filter_cons_of_neg (by rw [skipped]; decide)]
    · have entries : entriesOf headers (row :: rows) = entryOf headers row :: entriesOf headers rows := by
        rw [entriesOf, List.filter_cons_of_pos product, List.map_cons, entriesOf]
      rw [same, entries, List.forall_mem_cons]
      cases reads with
      | refused _ error refused =>
        rw [error]
        constructor
        · rintro ⟨items, never, -⟩
          cases never
        · rintro ⟨fits, -⟩
          exact absurd refused (not_refused_of_fits fits)
      | overflow error overflows =>
        rw [error]
        constructor
        · rintro ⟨items, never, -⟩
          cases never
        · rintro ⟨fits, -⟩
          exact absurd overflows (not_overflows_of_fits fits)
      | ok item made valid =>
        rw [made, ← ih (i + 1)]
        constructor
        · rintro ⟨items, outcome, each⟩
          cases rest : normalizeRows (i + 1) records with
          | error =>
            rw [rest] at outcome
            cases outcome
          | ok others =>
            rw [rest] at outcome
            cases outcome
            obtain ⟨first, later⟩ := List.forall_mem_cons.mp each
            exact ⟨valid.mp first, others, rfl, later⟩
        · rintro ⟨fits, items, outcome, each⟩
          exact ⟨item :: items, by rw [outcome]; rfl, List.forall_mem_cons.mpr ⟨valid.mpr fits, each⟩⟩

end

/-! ## Uploads -/

def Handled : Except UploadError (List Item) → Prop
  | .ok items => ∀ item ∈ items, item.Valid
  | .error e => ∃ message, e = .csvValidation message

theorem handled_iff (outcome : Except UploadError (List Item)) :
    Handled outcome ↔ (∃ message, outcome = .error (.csvValidation message)) ∨ ∃ items, outcome = .ok items ∧ ∀ item ∈ items, item.Valid := by
  cases outcome with
  | ok items =>
    constructor
    · exact fun valid => .inr ⟨items, rfl, valid⟩
    · rintro (⟨message, never⟩ | ⟨_, same, valid⟩)
      · cases never
      · cases same
        exact valid
  | error =>
    constructor
    · rintro ⟨message, rfl⟩
      exact .inl ⟨message, rfl⟩
    · rintro (⟨message, same⟩ | ⟨items, never, -⟩)
      · cases same
        exact ⟨message, rfl⟩
      · cases never

def WithinLimits (limits : ImportLimits) (rows : List Row) : Prop :=
  rows.length ≤ limits.maxRows ∧ (∀ row ∈ rows, row.length ≤ limits.maxColumns) ∧ rows.flatten.length ≤ limits.maxCells

theorem iterLimitedRows_outcome (limits : ImportLimits) (rows : List Row) (number cells : ℕ) (counted : number ≤ limits.maxRows + 1)
    (few : cells ≤ limits.maxCells) :
    ((number + rows.length ≤ limits.maxRows + 1 ∧ (∀ row ∈ rows, row.length ≤ limits.maxColumns) ∧
        cells + rows.flatten.length ≤ limits.maxCells) ∧ iterLimitedRows limits number cells rows = .ok rows) ∨
      (¬ (number + rows.length ≤ limits.maxRows + 1 ∧ (∀ row ∈ rows, row.length ≤ limits.maxColumns) ∧
        cells + rows.flatten.length ≤ limits.maxCells) ∧ ∃ message, iterLimitedRows limits number cells rows = .error (.csvValidation message)) := by
  induction rows generalizing number cells with
  | nil => exact .inl ⟨⟨counted, fun row none => (nomatch none), few⟩, rfl⟩
  | cons row _ ih =>
    rw [iterLimitedRows, List.length_cons, List.forall_mem_cons, List.flatten_cons, List.length_append]
    by_cases manyRows : limits.maxRows < number
    · refine .inr ⟨fun fits => by omega, ?_⟩
      rw [raiseIf, if_pos manyRows]
      exact ⟨_, rfl⟩
    · by_cases wide : limits.maxColumns < row.length
      · refine .inr ⟨fun fits => by omega, ?_⟩
        rw [raiseIf, if_neg manyRows, raiseIf, if_pos wide]
        exact ⟨_, rfl⟩
      · by_cases manyCells : limits.maxCells < cells + row.length
        · refine .inr ⟨fun fits => by omega, ?_⟩
          rw [raiseIf, if_neg manyRows, raiseIf, if_neg wide, raiseIf, if_pos manyCells]
          exact ⟨_, rfl⟩
        · rw [raiseIf, if_neg manyRows, raiseIf, if_neg wide, raiseIf, if_neg manyCells]
          rcases ih (number + 1) (cells + row.length) (by omega) (by omega) with ⟨⟨_, narrow, _⟩, same⟩ | ⟨large, message, error⟩
          · refine .inl ⟨⟨by omega, ⟨by omega, narrow⟩, by omega⟩, ?_⟩
            rw [same]
            rfl
          · refine .inr ⟨fun fits => large ⟨by omega, fits.2.1.2, by omega⟩, message, ?_⟩
            rw [error]
            rfl

variable (limits : ImportLimits) (lowering : Lowering)

def headerOf (rows : List Row) : Header := detectHeader lowering (rows.take bufferedRows)

def productEntries (rows : List Row) : List Entry :=
  entriesOf (headerOf lowering rows).headers (dataRows (headerOf lowering rows) rows)

theorem rowsToDicts_records (rows : List Row) (some_row : rows ≠ []) :
    rowsToDicts lowering rows = records (headerOf lowering rows).headers [] (dataRows (headerOf lowering rows) rows) := by
  cases rows with
  | nil => exact absurd rfl some_row
  | cons => rfl

theorem entriesOf_values (rows : List Row) :
    entriesOf headers (rows.filter (hasAnyValue headers)) = entriesOf headers rows := by
  unfold entriesOf
  rw [List.filter_filter]
  congr 1
  refine List.filter_congr fun row _ => ?_
  cases product : isProduct headers row with
  | false => rfl
  | true =>
    simp only [isProduct, Bool.and_eq_true, Bool.not_eq_true', List.isEmpty_eq_false_iff] at product
    rw [@hasAnyValue_of_cell _ _ article (by decide) product.1]
    rfl

theorem missing_column {rows : List Row} {row : Row} {record : Record}
    (of : RecordOf (headerOf lowering rows).headers row record) (required : column ∈ requiredColumns)
    (missing : column ∉ (headerOf lowering rows).headers) : column ∉ Dictionary.keys (Dictionary.mapKeys (canonicalColumn lowering) record) := by
  intro mem
  obtain ⟨source, known, image⟩ := Dictionary.mem_keys_mapKeys.mp mem
  rcases of.keys source known with header | rfl | rfl
  · rcases detectHeader_columns lowering (rows.take bufferedRows) with own | other
    · rw [own source header] at image
      exact missing (image ▸ header)
    · exact other source header (image ▸ required)
  · rw [canonicalColumn_known lowering (by simp [knownColumns])] at image
    exact absurd (image ▸ required) (by decide)
  · rw [canonicalColumn_known lowering (by simp [knownColumns])] at image
    exact absurd (image ▸ required) (by decide)

theorem exists_related {A B : Type*} {R : A → B → Prop} {as : List A} {bs : List B} (related : List.Forall₂ R as bs) {b : B}
    (mem : b ∈ bs) : ∃ a, R a b := by
  induction related with
  | nil => cases mem
  | @cons a other as bs own others ih =>
    rcases List.mem_cons.mp mem with rfl | mem
    · exact ⟨a, own⟩
    · exact ih mem

theorem normalize_complete {rows : List Row} (complete : ∀ column ∈ requiredColumns, column ∈ (headerOf lowering rows).headers)
    {products : List Row} {records : List Record} (of : List.Forall₂ (RecordOf (headerOf lowering rows).headers) products records) :
    normalize lowering records = normalizeRows 2 records := by
  have own : ∀ header ∈ (headerOf lowering rows).headers, canonicalColumn lowering header = header := by
    rcases detectHeader_columns lowering (rows.take bufferedRows) with own | other
    · exact own
    · have known : article ∈ requiredColumns := by simp [requiredColumns]
      have fixed := @canonicalColumn_known lowering article (by simp [knownColumns])
      exact absurd known (fixed ▸ other article (complete article known))
  have kept : records.map (Dictionary.mapKeys (canonicalColumn lowering)) = records := by
    refine List.map_congr_left (fun record mem => ?_) |>.trans (List.map_id _)
    obtain ⟨row, record_of⟩ := exists_related of mem
    refine Dictionary.mapKeys_fixed (fun key known => ?_) record_of.distinct
    rcases record_of.keys key known with header | rfl | rfl
    · exact own key header
    · exact canonicalColumn_known lowering (by simp [knownColumns])
    · exact canonicalColumn_known lowering (by simp [knownColumns])
  unfold normalize
  cases of with
  | nil => rfl
  | @cons row record products records head others =>
    have present : missingColumns (record :: records) = [] := by
      refine List.filter_eq_nil_iff.mpr fun column required => ?_
      have value := (head.cells column (by rintro rfl; exact absurd required (by decide)) (by rintro rfl; exact absurd required (by decide))
        (by rintro rfl; exact absurd required (by decide))).trans (get_present (complete column required))
      have known : column ∈ Dictionary.keys record := by
        by_contra absent
        rw [Dictionary.get_eq_none.mpr absent] at value
        cases value
      simpa using known
    rw [if_neg (List.cons_ne_nil _ _), kept]
    dsimp only
    rw [present, raiseIf, if_neg (by simp)]
    rfl

/-- A price list gives valid items or the adapter's own error exactly when it is too large, lacks a required column, has a
refused row before any infinite quantity, or has only prices and quantities that fit. -/
theorem uploadRows_handled (rows : List Row) :
    Handled (uploadRows limits lowering rows) ↔
      ¬ WithinLimits limits rows ∨ (∃ column ∈ requiredColumns, column ∉ (headerOf lowering rows).headers) ∨
        RefusedFirst (productEntries lowering rows) ∨ ∀ entry ∈ productEntries lowering rows, Fits entry := by
  unfold uploadRows WithinLimits
  rcases iterLimitedRows_outcome limits rows 1 0 (by omega) (by omega) with ⟨fits, same⟩ | ⟨large, message, error⟩
  · rw [same, or_iff_right (by rw [not_not]; exact ⟨by omega, fits.2.1, by omega⟩)]
    change Handled (normalize lowering (rowsToDicts lowering rows)) ↔ _
    by_cases none : rows = []
    · subst none
      have empty : Handled (.ok []) := fun item never => nomatch never
      exact ⟨fun _ => .inl ⟨article, by simp [requiredColumns], List.not_mem_nil⟩, fun _ => empty⟩
    rw [rowsToDicts_records lowering rows none]
    have of := records_forall (headerOf lowering rows).headers [] (dataRows (headerOf lowering rows) rows)
    by_cases incomplete : ∃ column ∈ requiredColumns, column ∉ (headerOf lowering rows).headers
    · rw [iff_true_intro (Or.inl incomplete), iff_true]
      obtain ⟨column, required, missing⟩ := incomplete
      generalize records _ _ _ = made at of
      generalize List.filter _ _ = products at of
      cases of with
      | nil => exact fun item never => nomatch never
      | @cons row record _ others head _ =>
        have absent := missing_column lowering head required missing
        have lacks : missingColumns ((record :: others).map (Dictionary.mapKeys (canonicalColumn lowering))) ≠ [] :=
          List.ne_nil_of_mem (List.mem_filter.mpr ⟨required, by simpa using absent⟩)
        rw [normalize, if_neg (List.cons_ne_nil _ _)]
        dsimp only
        rw [raiseIf, if_pos lacks]
        exact ⟨_, rfl⟩
    · rw [or_iff_right incomplete]
      have complete : ∀ column ∈ requiredColumns, column ∈ (headerOf lowering rows).headers := by
        intro column required
        by_contra missing
        exact incomplete ⟨column, required, missing⟩
      have entries : entriesOf (headerOf lowering rows).headers ((dataRows (headerOf lowering rows) rows).filter
          (hasAnyValue (headerOf lowering rows).headers)) = productEntries lowering rows := entriesOf_values _
      rw [normalize_complete lowering complete of, handled_iff, normalizeRows_refused complete of, normalizeRows_valid complete of, entries]
  · rw [error]
    exact ⟨fun _ => .inl fun fits => large ⟨by omega, fits.2.1, by omega⟩, fun _ => ⟨message, rfl⟩⟩

/-! ## A price list with an infinite quantity -/

def lowerChar (c : Char) : Char :=
  if 65 ≤ c.toNat ∧ c.toNat ≤ 90 ∨ 0x410 ≤ c.toNat ∧ c.toNat ≤ 0x42F then Char.ofNat (c.toNat + 32)
  else if 0x400 ≤ c.toNat ∧ c.toNat ≤ 0x40F then Char.ofNat (c.toNat + 80)
  else c

def isLowerChar (c : Char) : Bool :=
  !decide (65 ≤ c.toNat ∧ c.toNat ≤ 90) && !decide (0x400 ≤ c.toNat ∧ c.toNat ≤ 0x42F)

theorem lowerChar_isLower (c : Char) : isLowerChar (lowerChar c) = true := by
  unfold lowerChar
  split
  · next upper =>
    rw [isLowerChar, toNat_ofNat (by omega)]
    simp
    omega
  · split
    · next upper =>
      rw [isLowerChar, toNat_ofNat (by omega)]
      simp
      omega
    · simp [isLowerChar]
      omega

theorem lowerChar_of_isLower {c : Char} (small : isLowerChar c = true) : lowerChar c = c := by
  simp [isLowerChar] at small
  unfold lowerChar
  rw [if_neg (by omega), if_neg (by omega)]

theorem map_lowerChar {text : List Char} (small : ∀ c ∈ text, isLowerChar c = true) :
    text.map lowerChar = text :=
  (List.map_congr_left fun c mem => lowerChar_of_isLower (small c mem)).trans (List.map_id _)

theorem isLowerChar_map (text : List Char) (c : Char) (mem : c ∈ text.map lowerChar) :
    isLowerChar c = true := by
  obtain ⟨source, -, rfl⟩ := List.mem_map.mp mem
  exact lowerChar_isLower source

theorem isLowerChar_ascii (c : Char) (small : c.toNat < 0x80) (other : c.isUpper = false) :
    isLowerChar c = true := by
  have upper : ¬ (65 ≤ c.toNat ∧ c.toNat ≤ 90) := decide_eq_false_iff_not.mp other
  simp [isLowerChar]
  omega

theorem isLowerChar_cyrillic (c : Char) (above : 0x430 ≤ c.toNat) : isLowerChar c = true := by
  simp [isLowerChar]
  omega

def twoAlphabets : Lowering where
  lower := List.map lowerChar
  isLower := isLowerChar
  lower_isLower := isLowerChar_map
  lower_of_isLower _ := map_lowerChar
  ascii := isLowerChar_ascii
  cyrillic c above _ := isLowerChar_cyrillic c above

def cellOf (text : String) : Cell := .text text.toList

def fourColumns : Row := [cellOf "Артикул", cellOf "Название", cellOf "Цена", cellOf "Остаток"]

def roomyLimits : ImportLimits := { maxRows := 1000, maxColumns := 100, maxCells := 10000 }

def infiniteStock : List Row := [fourColumns, [cellOf "A1", cellOf "Болт", cellOf "10", cellOf "inf"]]

def raisesOverflow : Except UploadError (List Item) → Bool
  | .error .overflow => true
  | _ => false

/-- An infinite quantity raises an error that the adapter does not catch. -/
theorem uploadRows_handled_infinite : ¬ ∀ (limits : ImportLimits) (lowering : Lowering) (rows : List Row),
    Handled (uploadRows limits lowering rows) := by
  intro always
  have overflow : raisesOverflow (uploadRows roomyLimits twoAlphabets infiniteStock) = true := by decide +kernel
  have handled := always roomyLimits twoAlphabets infiniteStock
  generalize uploadRows roomyLimits twoAlphabets infiniteStock = outcome at overflow handled
  cases outcome with
  | ok => cases overflow
  | error =>
    obtain ⟨_, rfl⟩ := handled
    cases overflow

end MapBackend.Datasources
