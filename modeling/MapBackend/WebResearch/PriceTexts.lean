import MapBackend.WebResearch.OfferExtraction
import MapBackend.Library.Patterns
import MapBackend.Products.PriceLayouts

/-!
The price that is taken from the text of a page.
-/

namespace MapBackend.WebResearch
open MapBackend.Library MapBackend.Core Products.Import Products.Sources

/-! ## The pattern -/

def letterCases : List (List Char) :=
  [['о', 'О', 'ᲂ'], ['т', 'Т', 'ᲄ', 'ᲅ'], ['р', 'Р'], ['у', 'У'], ['б', 'Б'], ['л', 'Л'], ['е', 'Е'], ['й', 'Й'], ['R', 'r'], ['U', 'u'],
    ['B', 'b'], ['S', 's', 'ſ'], ['D', 'd'], ['E', 'e'], ['Y', 'y'], ['N', 'n'], ['K', 'k', 'K'], ['Z', 'z'], ['T', 't']]

def sameLetter (letter c : Char) : Bool := c == letter || letterCases.any fun cases => cases.contains letter && cases.contains c

def currencyWords : List Text :=
  ["₽".toList, "руб.".toList, "рублей".toList, "руб".toList, "RUB".toList, "USD".toList, "EUR".toList, "BYN".toList, "KZT".toList, "₸".toList,
    "€".toList, "$".toList]

def currencyPattern : Pattern Char Text := Pattern.choice (currencyWords.map (Pattern.literal sameLetter))

def fromPattern : Pattern Char Text :=
  Pattern.maybe (Pattern.seq (Pattern.literal sameLetter "от".toList) (Pattern.seq (Pattern.one Url.isSpace) (Pattern.many Url.isSpace)))

def fractionPattern : Pattern Char Text :=
  Pattern.maybe (Pattern.seq (Pattern.one isPoint) (Pattern.seq (Pattern.one isDecimalDigit) (Pattern.upTo isDecimalDigit 1)))

def pricePattern : Pattern Char Text :=
  Pattern.seq (Pattern.one isDecimalDigit)
    (Pattern.seq (Pattern.seq (Pattern.one isNumberBody) (Pattern.upTo isNumberBody 11)) fractionPattern)

structure PriceMatch where
  lead : Text
  price : Text
  currency : Text
  deriving DecidableEq

def pricedPattern (lead : Text) : Pattern Char PriceMatch :=
  pricePattern.bind fun price => (Pattern.many Url.isSpace).bind fun _ => currencyPattern.bind fun currency =>
    Pattern.ret ⟨lead, price, currency⟩

def offerPattern : Pattern Char PriceMatch := fromPattern.bind pricedPattern

/-- `PRICE_RE.search`, with the place of the match. -/
def priceSearch (text : Text) : Option (ℕ × PriceMatch) := Pattern.search offerPattern text

def textCandidate (text : Text) : List OfferCandidate :=
  match priceSearch text with
  | none => []
  | some (_, found) =>
    [⟨.text [], .text [], .text [], .text [], .text found.price, .text found.currency, .text text, .text text, .text [],
      .bool (!found.lead.isEmpty)⟩]

/-! ## Written prices -/

def maxCents : ℕ := 99999999999999

def numberOf (layout : PriceLayout) : Text :=
  grouped layout.grouping.text (Nat.toDigits 10 layout.whole) ++ layout.fractionText

/-- An amount that can be stored, with nothing but a currency sign around it. -/
structure ShopPrice where
  lead : Text
  layout : PriceLayout
  silent : ∀ c ∈ lead, isDecimalDigit c = false
  positive : 0 < layout.cents
  below : layout.cents ≤ maxCents

def ShopPrice.written (price : ShopPrice) : Text := price.lead ++ price.layout.written

structure PagePrice where
  before : Text
  layout : PriceLayout
  gap : Text
  mark : Text
  after : Text
  suffix : layout.suffix = gap ++ mark
  blank : ∀ c ∈ gap, Url.isSpace c = true
  isMark : (mark, []) ∈ currencyPattern mark
  positive : 0 < layout.cents
  below : layout.cents ≤ maxCents

def PagePrice.text (page : PagePrice) : Text := page.before ++ numberOf page.layout ++ page.gap ++ page.mark ++ page.after

variable (lib : PageLibrary)

def ShopPrice.Respected (price : ShopPrice) : Prop :=
  decimalCents lib (.text price.written) = none ∨ decimalCents lib (.text price.written) = some price.layout.cents

/-- The candidate of the text has the price that stands there, the whole amount and no more of the text. -/
def PagePrice.Reported (page : PagePrice) : Prop :=
  ∃ place found candidate, priceSearch page.text = some (place, found) ∧ place + found.lead.length = page.before.length ∧
    Url.rstrip Url.isSpace found.price = numberOf page.layout ∧ textCandidate page.text = [candidate] ∧
    candidate.price = .text found.price ∧ decimalCents lib candidate.price = some page.layout.cents

/-! ## When prices are read as written -/

def points (text : Text) : ℕ := text.countP isPoint

/-- One comma or point is all that is written beside the digits, and it stands before the last of them without being the decimal one. -/
def ShopPrice.Misleading (price : ShopPrice) : Prop :=
  price.layout.fraction = [] ∧ points price.layout.suffix = 0 ∧
    points price.lead + points (grouped price.layout.grouping.text (Nat.toDigits 10 price.layout.whole)) = 1

/-- What may follow the first digit of a price: one to twelve digits or blanks, then perhaps a point with one or two digits. -/
def PriceBody (text : Text) : Prop :=
  ∃ body fraction, text = body ++ fraction ∧ (∀ c ∈ body, isNumberBody c = true) ∧ body ≠ [] ∧ body.length ≤ 12 ∧
    (fraction = [] ∨ ∃ point digits, fraction = point :: digits ∧ isPoint point = true ∧ (∀ c ∈ digits, isDecimalDigit c = true) ∧
      digits ≠ [] ∧ digits.length ≤ 2)

/-- The amount is of the form of a price, with the blank behind it where it is one digit. -/
def PagePrice.Fits (page : PagePrice) : Prop :=
  PriceBody (numberOf page.layout).tail ∨ ((numberOf page.layout).tail = [] ∧ page.gap ≠ [])

/-- A digit before the amount begins what is, with the amount, of the form of a price. -/
def PagePrice.Joined (page : PagePrice) : Prop :=
  ∃ front digit between, page.before = front ++ digit :: between ∧ isDecimalDigit digit = true ∧ PriceBody (between ++ numberOf page.layout)

end MapBackend.WebResearch
