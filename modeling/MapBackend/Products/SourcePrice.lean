import MapBackend.Products.SourceItems
import MapBackend.Library.Doubles

/-!
The price that a source shows for a part: `_parse_source_price` takes any value of JSON, looks for the first
number of a text, drops the blanks in it and rounds what is left to hundredths.
-/

namespace MapBackend.Products.Sources
open MapBackend.Library MapBackend.Core Import

inductive PriceValue where
  | json (value : SourceValue)
  | decimal (value : PyDecimal)

inductive PriceError where
  | invalidOperation
  deriving DecidableEq

/-! ## The number in a text -/

def isDecimalDigit (c : Char) : Bool := (AIAgent.digitValue c).isSome

def isNumberBody (c : Char) : Bool := isDecimalDigit c || Url.isSpace c || c == '\u00a0'

def isPoint (c : Char) : Bool := c == '.' || c == ','

def fractionMatch : Text → Text
  | point :: digit :: rest =>
    if isPoint point && isDecimalDigit digit then point :: digit :: (rest.take 1).takeWhile isDecimalDigit else []
  | _ => []

/-- `\d[\d\s\u00a0]*(?:[.,]\d{1,2})?` at the start of the text. -/
def unsignedMatch : Text → Option Text
  | c :: rest =>
    if isDecimalDigit c then some (c :: (rest.takeWhile isNumberBody ++ fractionMatch (rest.dropWhile isNumberBody)))
    else none
  | [] => none

def priceMatch : Text → Option Text
  | '-' :: rest => (unsignedMatch rest).map ('-' :: ·)
  | text => unsignedMatch text

def searchPrice : Text → Option Text
  | [] => none
  | c :: rest => match priceMatch (c :: rest) with
    | some found => some found
    | none => searchPrice rest

/-- `head, tail = normalized.rsplit('.', 1)` and back together with the points of the head dropped. -/
def keepLastPoint (text : Text) : Text :=
  ((text.reverse.dropWhile (· != '.')).reverse.filter (· != '.')) ++ '.' :: Url.afterLast '.' text

def isKept (c : Char) : Bool := c != '\u00a0' && c != ' '

def commaToPoint (c : Char) : Char := if c = ',' then '.' else c

def normalizedPrice (raw : Text) : Text :=
  let normalized := (raw.filter isKept).map commaToPoint
  if 1 < normalized.count '.' then keepLastPoint normalized else normalized

/-! ## The number rounded -/

/-- `value.quantize(Decimal('0.01'))`: a half goes to the even neighbour, and a result holds 28 digits.
`none` is an InvalidOperation. -/
def quantizeCents : Decimal → Option Decimal
  | .finite negative coefficient exponent =>
    let cents := (Double.roundHalfEven ((Decimal.finite false coefficient exponent).value * 100)).toNat
    if cents < 10 ^ 28 then some (.finite negative cents (-2)) else none
  | .infinity _ => none
  | .nan negative signaling payload => if signaling then none else some (.nan negative false payload)

/-- `price if price >= 0 else None`; a NaN cannot be compared. -/
def nonnegative : Decimal → Except PriceError (Option Decimal)
  | .nan _ _ _ => .error .invalidOperation
  | .infinity negative => .ok (if negative then none else some (.infinity false))
  | .finite negative coefficient exponent =>
    .ok (if negative = true ∧ coefficient ≠ 0 then none else some (.finite negative coefficient exponent))

def parsePriceText (raw : Text) : Except PriceError (Option Decimal) :=
  match (decimalOf (normalizedPrice raw)).bind fun d => quantizeCents d.val with
  | none => .ok none
  | some price => nonnegative price

def rawPrice (texts : Texts) : PriceValue → Option Text
  | .json .null => none
  | .json (.bool _) => none
  | .json (.int n) => some (texts.str (.int n))
  | .json (.float f) => some (texts.str (.float f))
  | .json (.special shown) => some (texts.str (.special shown))
  | .json value => searchPrice (texts.str value)
  | .decimal d => some d.val.shown

def parseSourcePrice (texts : Texts) (value : PriceValue) : Except PriceError (Option Decimal) :=
  match rawPrice texts value with
  | none => .ok none
  | some raw => parsePriceText raw

/-! ## Characters -/

variable {c : Char}

theorem digitValue_digit (digit : c.isDigit = true) : AIAgent.digitValue c = some (c.toNat - 48) := by
  obtain ⟨low, high⟩ : 48 ≤ c.toNat ∧ c.toNat ≤ 57 := Char.isDigit_iff_toNat.mp digit
  rw [AIAgent.digitValue, AIAgent.decimalZeros, List.find?_cons_of_pos (by simp; omega)]
  rfl

theorem isDecimalDigit_of_digit (digit : c.isDigit = true) : isDecimalDigit c = true := by
  rw [isDecimalDigit, digitValue_digit digit]
  rfl

theorem digit_not_space (digit : c.isDigit = true) : Url.isSpace c = false ∧ c.toNat < 128 ∧ c ≠ '_' := by
  obtain ⟨ascii, solid, plain⟩ := numeric_plain (Decimal.numeric_of_digit digit)
  exact ⟨solid, ascii, bne_iff_ne.mp plain⟩

theorem digit_value_lt {n : ℕ} (found : AIAgent.digitValue c = some n) : n < 10 := by
  rw [AIAgent.digitValue, Option.map_eq_some_iff] at found
  obtain ⟨_, zero, rfl⟩ := found
  have range := List.find?_some zero
  simp only [Bool.and_eq_true, decide_eq_true_eq] at range
  omega

/-! ## A number is finite unless its text is a word -/

def isLetterN (c : Char) : Bool := c == 'n' || c == 'N'

theorem letterN_of_lower (lower : c.toLower = 'n') : isLetterN c = true := by
  unfold Char.toLower at lower
  split at lower
  · next range =>
    have number : (c.val + 32).toNat = 110 := congrArg (fun d : Char => d.val.toNat) lower
    have most : c.val.toNat ≤ 90 := UInt32.le_iff_toNat_le.mp range.2
    rw [UInt32.toNat_add] at number
    have code : c.val.toNat = 78 := by
      have shift : (32 : UInt32).toNat = 32 := rfl
      omega
    have upper : c = 'N' := Char.ext (UInt32.toNat_inj.mp code)
    rw [upper]
    rfl
  · rw [lower]
    rfl

variable {d : Decimal}

theorem readSpecial_letter {negative : Bool} {text : List Char}
    (found : Decimal.readSpecial negative text = some d) : ∃ c ∈ text, isLetterN c = true := by
  have letter : 'n' ∈ text.map Char.toLower := by
    unfold Decimal.readSpecial at found
    dsimp only at found
    split_ifs at found with infinite quiet loud
    · rcases infinite with word | word
      · rw [word]; decide
      · rw [word]; decide
    · exact (List.isPrefixOf_iff_prefix.mp (Bool.and_eq_true_iff.mp quiet).1).subset (by decide)
    · exact (List.isPrefixOf_iff_prefix.mp (Bool.and_eq_true_iff.mp loud).1).subset (by decide)
  obtain ⟨c, mem, lower⟩ := List.mem_map.mp letter
  exact ⟨c, mem, letterN_of_lower lower⟩

theorem readUnsigned_finite {negative : Bool} {text : List Char}
    (plain : ∀ c ∈ text, isLetterN c = false) (found : Decimal.readUnsigned negative text = some d) : d.isFinite = true := by
  unfold Decimal.readUnsigned at found
  split at found
  · next number read =>
    obtain rfl := Option.some.inj found
    unfold Decimal.readFinite at read
    dsimp only at read
    split at read
    · cases read
    · obtain ⟨_, -, rfl⟩ := Option.map_eq_some_iff.mp read
      rfl
  · obtain ⟨c, mem, letter⟩ := readSpecial_letter found
    rw [plain c mem] at letter
    cases letter

theorem read_finite {text : List Char} (plain : ∀ c ∈ text, isLetterN c = false)
    (found : Decimal.read text = some d) : d.isFinite = true := by
  unfold Decimal.read at found
  split at found
  · exact readUnsigned_finite (fun c mem => plain c (List.mem_cons_of_mem _ mem)) found
  · exact readUnsigned_finite (fun c mem => plain c (List.mem_cons_of_mem _ mem)) found
  · exact readUnsigned_finite plain found

theorem asciiOf_plain {c d : Char} (plain : isLetterN c = false) (found : asciiOf c = some d) : isLetterN d = false := by
  unfold asciiOf at found
  split at found
  · exact Option.some.inj found ▸ plain
  · obtain ⟨n, value, rfl⟩ := Option.map_eq_some_iff.mp found
    have all : ∀ digit < 10, isLetterN (Nat.digitChar digit) = false := by decide
    exact all n (digit_value_lt value)

theorem mapM_ascii_plain {text ascii : Text} (plain : ∀ c ∈ text, isLetterN c = false) (mapped : text.mapM asciiOf = some ascii) :
    ∀ c ∈ ascii, isLetterN c = false := by
  induction text generalizing ascii with
  | nil =>
    obtain rfl := Option.some.inj mapped
    exact fun c mem => by cases mem
  | cons first _ ih =>
    simp only [List.mapM_cons, Option.bind_eq_bind, Option.bind_eq_some_iff, Option.pure_def] at mapped
    obtain ⟨d, own, _, others, same⟩ := mapped
    obtain rfl := Option.some.inj same
    intro c mem
    rcases List.mem_cons.mp mem with rfl | behind
    · exact asciiOf_plain (plain first List.mem_cons_self) own
    · exact ih (fun c mem => plain c (List.mem_cons_of_mem _ mem)) others c behind

theorem strip_subset (text : Text) : Url.strip text ⊆ text := by
  intro c mem
  unfold Url.strip Url.rstrip at mem
  rw [List.mem_reverse] at mem
  exact (List.dropWhile_sublist _).subset (List.mem_reverse.mp ((List.dropWhile_sublist _).subset mem))

theorem decimalOf_finite {text : Text} {d : PyDecimal} (plain : ∀ c ∈ text, isLetterN c = false)
    (found : decimalOf text = some d) : d.val.isFinite = true := by
  unfold decimalOf at found
  split at found
  · cases found
  · next number read =>
    split at found
    · obtain rfl := Option.some.inj found
      obtain ⟨_, mapped, read⟩ := Option.bind_eq_some_iff.mp read
      exact read_finite (mapM_ascii_plain (fun c mem => plain c (strip_subset text (List.mem_of_mem_filter mem))) mapped) read
    · cases found

/-! ## What a call returns -/

def IsPrice (d : Decimal) : Prop := (∃ negative cents, d = .finite negative cents (-2)) ∧ 0 ≤ d.value

theorem quantizeCents_finite {d price : Decimal} (finite : d.isFinite = true) (found : quantizeCents d = some price) :
    ∃ negative cents, price = .finite negative cents (-2) := by
  cases d with
  | finite negative =>
    unfold quantizeCents at found
    dsimp only at found
    split at found
    · exact ⟨negative, _, (Option.some.inj found).symm⟩
    · cases found
  | infinity => cases finite
  | nan => cases finite

theorem value_nonneg (coefficient : ℕ) (exponent : ℤ) : 0 ≤ (Decimal.finite false coefficient exponent).value := by
  have power : (0 : ℚ) ≤ if 0 ≤ exponent then 10 ^ exponent.toNat else 1 / 10 ^ (-exponent).toNat := by
    split <;> positivity
  rw [Decimal.value, if_neg (by decide), one_mul]
  exact mul_nonneg (Nat.cast_nonneg _) power

theorem nonnegative_finite (negative : Bool) (cents : ℕ) :
    ∃ result, nonnegative (.finite negative cents (-2)) = .ok result ∧ ∀ d ∈ result, IsPrice d := by
  refine ⟨_, rfl, fun d mem => ?_⟩
  split at mem
  · cases mem
  · next sign =>
    obtain rfl := Option.some.inj mem
    refine ⟨⟨negative, cents, rfl⟩, ?_⟩
    cases negative with
    | false => exact value_nonneg cents (-2)
    | true =>
      have zero : cents = 0 := by
        by_contra other
        exact sign ⟨rfl, other⟩
      rw [zero, Decimal.value, Nat.cast_zero, mul_zero, zero_mul]

theorem normalizedPrice_plain {raw : Text} (plain : ∀ c ∈ raw, isLetterN c = false) : ∀ c ∈ normalizedPrice raw, isLetterN c = false := by
  have mapped : ∀ c ∈ (raw.filter isKept).map commaToPoint, isLetterN c = false := by
    intro c mem
    obtain ⟨d, inside, rfl⟩ := List.mem_map.mp mem
    unfold commaToPoint
    split
    · rfl
    · exact plain d (List.mem_of_mem_filter inside)
  unfold normalizedPrice
  dsimp only
  split
  · intro c mem
    unfold keepLastPoint Url.afterLast at mem
    rcases List.mem_append.mp mem with head | tail
    · exact mapped c (List.mem_reverse.mp ((List.dropWhile_sublist _).subset (List.mem_reverse.mp (List.mem_of_mem_filter head))))
    · rcases List.mem_cons.mp tail with rfl | behind
      · rfl
      · exact mapped c (List.mem_reverse.mp ((List.takeWhile_sublist _).subset (List.mem_reverse.mp behind)))
  · exact mapped

theorem parsePriceText_ok {raw : Text} (plain : ∀ c ∈ raw, isLetterN c = false) :
    ∃ result, parsePriceText raw = .ok result ∧ ∀ d ∈ result, IsPrice d := by
  unfold parsePriceText
  cases found : (decimalOf (normalizedPrice raw)).bind fun d => quantizeCents d.val with
  | none => exact ⟨none, rfl, fun d mem => by cases mem⟩
  | some =>
    obtain ⟨d, read, rounded⟩ := Option.bind_eq_some_iff.mp found
    have finite := decimalOf_finite (normalizedPrice_plain plain) read
    obtain ⟨negative, cents, rfl⟩ := quantizeCents_finite finite rounded
    exact nonnegative_finite negative cents

/-! ## The characters of a match -/

def isPriceChar (c : Char) : Bool := isNumberBody c || isPoint c || c == '-'

theorem letter_of_priceChar (price : isPriceChar c = true) : isLetterN c = false := by
  have lower : isPriceChar 'n' = false := by decide
  have upper : isPriceChar 'N' = false := by decide
  unfold isLetterN
  rw [Bool.or_eq_false_iff, beq_eq_false_iff_ne, beq_eq_false_iff_ne]
  refine ⟨?_, ?_⟩
  · rintro rfl
    exact absurd (lower.symm.trans price) (by decide)
  · rintro rfl
    exact absurd (upper.symm.trans price) (by decide)

theorem priceChar_of_digit (digit : isDecimalDigit c = true) : isPriceChar c = true := by
  simp [isPriceChar, isNumberBody, digit]

theorem fractionMatch_chars (text : Text) : ∀ c ∈ fractionMatch text, isPriceChar c = true := by
  intro c mem
  unfold fractionMatch at mem
  split at mem
  · next point digit rest =>
    split at mem
    · next both =>
      obtain ⟨isPoint, isDigit⟩ := Bool.and_eq_true_iff.mp both
      rcases List.mem_cons.mp mem with rfl | mem
      · simp [isPriceChar, isPoint]
      · rcases List.mem_cons.mp mem with rfl | mem
        · exact priceChar_of_digit isDigit
        · exact priceChar_of_digit (List.mem_takeWhile_imp mem)
    · cases mem
  · cases mem

variable {text found : Text}

theorem unsignedMatch_chars (made : unsignedMatch text = some found) : ∀ c ∈ found, isPriceChar c = true := by
  unfold unsignedMatch at made
  split at made
  · next first rest =>
    split at made
    · next digit =>
      obtain rfl := Option.some.inj made
      intro c mem
      rcases List.mem_cons.mp mem with rfl | mem
      · exact priceChar_of_digit digit
      · rcases List.mem_append.mp mem with body | fraction
        · simp [isPriceChar, List.mem_takeWhile_imp body]
        · exact fractionMatch_chars _ c fraction
    · cases made
  · cases made

theorem priceMatch_chars (made : priceMatch text = some found) : ∀ c ∈ found, isPriceChar c = true := by
  unfold priceMatch at made
  split at made
  · obtain ⟨_, inner, rfl⟩ := Option.map_eq_some_iff.mp made
    intro c mem
    rcases List.mem_cons.mp mem with rfl | behind
    · rfl
    · exact unsignedMatch_chars inner c behind
  · exact unsignedMatch_chars made

theorem searchPrice_chars (made : searchPrice text = some found) : ∀ c ∈ found, isPriceChar c = true := by
  induction text with
  | nil => cases made
  | cons _ _ ih =>
    rw [searchPrice] at made
    split at made
    · next here =>
      obtain rfl := Option.some.inj made
      exact priceMatch_chars here
    · exact ih made

/-! ## Every value of JSON -/

def isNumberChar (c : Char) : Bool := c.isDigit || c == '-' || c == '+' || c == '.' || c == 'e'

/-- How Python shows a number with a point: with the characters of a number, or as a word. -/
def Shown : SourceValue → Prop
  | .float f => ∀ c ∈ f.shown, isNumberChar c = true
  | .special shown => shown = "nan".toList ∨ shown = "inf".toList ∨ shown = "-inf".toList
  | _ => True

theorem parsePriceText_nan : parsePriceText "nan".toList = .error .invalidOperation := rfl

theorem parsePriceText_infinite (negative : Bool) :
    parsePriceText ((if negative then ['-'] else []) ++ "inf".toList) = .ok none := by
  cases negative <;> rfl

theorem number_plain (number : isNumberChar c = true) :
    isLetterN c = false := by
  unfold isLetterN
  rw [Bool.or_eq_false_iff, beq_eq_false_iff_ne, beq_eq_false_iff_ne]
  refine ⟨?_, ?_⟩
  · rintro rfl
    exact absurd number (by decide)
  · rintro rfl
    exact absurd number (by decide)

theorem int_chars (n : ℤ) : ∀ c ∈ (toString n).toList, isNumberChar c = true := by
  have digits (m : ℕ) : ∀ c ∈ m.repr.toList, isNumberChar c = true := by
    intro c mem
    rw [Nat.toList_repr] at mem
    simp [isNumberChar, Decimal.digits_isDigit m c mem]
  intro c mem
  cases n with
  | ofNat m => exact digits m c mem
  | negSucc m =>
    have shape : (toString (Int.negSucc m)).toList = '-' :: (m + 1).repr.toList := by
      change ("-" ++ (m + 1).repr).toList = _
      rw [String.toList_append]
      rfl
    rw [shape] at mem
    rcases List.mem_cons.mp mem with rfl | behind
    · rfl
    · exact digits (m + 1) c behind

theorem searched_ok (text : Text) : ∃ result, (match searchPrice text with
    | none => Except.ok none
    | some raw => parsePriceText raw) = .ok result ∧ ∀ d ∈ result, IsPrice d := by
  cases found : searchPrice text with
  | none => exact ⟨none, rfl, fun d mem => by cases mem⟩
  | some => exact parsePriceText_ok fun c mem => letter_of_priceChar (searchPrice_chars found c mem)

theorem parseSourcePrice_ok (texts : Texts) {value : SourceValue} (shown : Shown value) (number : value ≠ .special "nan".toList) :
    ∃ result, parseSourcePrice texts (.json value) = .ok result ∧ ∀ d ∈ result, IsPrice d := by
  cases value with
  | null => exact ⟨none, rfl, fun d mem => by cases mem⟩
  | bool => exact ⟨none, rfl, fun d mem => by cases mem⟩
  | int n => exact parsePriceText_ok fun c mem => number_plain (int_chars n c mem)
  | float => exact parsePriceText_ok fun c mem => number_plain (shown c mem)
  | special =>
    rcases shown with rfl | rfl | rfl
    · exact absurd rfl number
    · exact ⟨none, parsePriceText_infinite false, fun d mem => by cases mem⟩
    · exact ⟨none, parsePriceText_infinite true, fun d mem => by cases mem⟩
  | text s => exact searched_ok (texts.str (.text s))
  | list items => exact searched_ok (texts.str (.list items))
  | object entries => exact searched_ok (texts.str (.object entries))

end MapBackend.Products.Sources
