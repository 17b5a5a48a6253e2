import MapBackend.WebResearch.SearchContext
import MapBackend.WebResearch.Accounting
import MapBackend.Products.SourcePrice
import MapBackend.Library.Programs

/-!
The offers that are taken from the pages of a search.
-/

namespace MapBackend.WebResearch
open MapBackend.Library MapBackend.Core Products.Import

structure OfferProduct where
  pk : ℕ
  article : Text
  brand : Text
  oemNumbers : List Text
  crossNumbers : List Text
  crossCodes : List Text

structure WebResearchEvidence where
  pk : ℕ
  run : ℕ
  rank : ℕ
  title : Text
  url : Text
  domain : Text
  snippet : Text
  rawContent : Text
  providerId : Text

/-- What is read from a page: any values of JSON, where a key that is missing is null. -/
structure OfferCandidate where
  title : SourceValue
  article : SourceValue
  brand : SourceValue
  sellerName : SourceValue
  price : SourceValue
  currency : SourceValue
  availability : SourceValue
  condition : SourceValue
  url : SourceValue
  isPriceFrom : SourceValue

structure OfferRun where
  pk : ℕ
  tenant : ℕ
  product : OfferProduct
  settingsSnapshot : SettingsSnapshot

inductive MatchType where
  | exact
  | cross
  | analogue
  | review
  deriving DecidableEq

inductive Availability where
  | unknown
  | inStock
  | preorder
  | outOfStock
  deriving DecidableEq

inductive OfferCondition where
  | new
  | used
  | unknown
  deriving DecidableEq

inductive ReviewStatus where
  | pending
  | verified
  | rejected
  deriving DecidableEq

structure CompetitorOffer where
  run : ℕ
  dedupeKey : Text
  tenant : ℕ
  product : ℕ
  evidence : ℕ
  providerId : Text
  sellerName : Text
  domain : Text
  url : Text
  countryCode : Text
  region : Text
  title : Text
  article : Text
  matchedCode : Text
  matchType : MatchType
  matchConfidence : ℕ
  matchReasons : List Text
  price : ℕ
  currency : Text
  normalizedPrice : Option ℕ
  normalizedCurrency : Text
  isPriceFrom : Bool
  availability : Availability
  availabilityText : Text
  condition : OfferCondition
  deliveryText : Text
  reviewStatus : ReviewStatus
  capturedAt : Instant
  expiresAt : Instant
  deriving DecidableEq

abbrev OfferTable := List ((ℕ × Text) × CompetitorOffer)

abbrev OfferProgram := EStateM PyError OfferTable

variable (lib : PageLibrary)

/-! ## Values of a candidate -/

def normalizePartCode (text : Text) : Text := (upperText lib text).filter isCodeChar

def decimalCents (value : SourceValue) : Option ℕ :=
  let cleaned := ((textOr lib value).filter fun c => !Url.isSpace c && c != '\u00a0').map Products.Sources.commaToPoint
  match decimalOf (cleaned.filter fun c => Products.Sources.isDecimalDigit c || c == '.') with
  | none => none
  | some number =>
    if number.val.value ≤ 0 ∨ 99999999999999 / 100 < number.val.value then none
    else some (Double.roundHalfEven (number.val.value * 100)).toNat

def hasToken (tokens : List String) (text : Text) : Bool := tokens.any fun token => occursIn token.toList text

def availabilityOf (value : SourceValue) : Availability × Text :=
  let raw := Url.strip (textOr lib value)
  let lowered := lib.casefold raw
  if hasToken ["instock", "in stock", "в наличии", "есть в наличии"] lowered then (.inStock, raw)
  else if hasToken ["preorder", "pre-order", "под заказ", "предзаказ"] lowered then (.preorder, raw)
  else if hasToken ["outofstock", "out of stock", "нет в наличии", "распродан"] lowered then (.outOfStock, raw)
  else (.unknown, raw)

def conditionOf (value : SourceValue) : OfferCondition :=
  let lowered := lib.casefold (textOr lib value)
  if hasToken ["usedcondition", "б/у", "бывш", "used"] lowered then .used
  else if hasToken ["newcondition", "новый", "новая", "new"] lowered then .new
  else .unknown

def currencyMap : List (Text × Text) :=
  [("₽", "RUB"), ("РУБ", "RUB"), ("РУБ.", "RUB"), ("РУБЛЕЙ", "RUB"), ("RUB", "RUB"), ("$", "USD"), ("USD", "USD"), ("€", "EUR"),
    ("EUR", "EUR"), ("BYN", "BYN"), ("₸", "KZT"), ("KZT", "KZT")].map fun entry => (entry.1.toList, entry.2.toList)

def currencyOf (value : SourceValue) : Text :=
  let raw := upperText lib (Url.strip (textOr lib value))
  (Dictionary.get raw currencyMap).getD (raw.take 3)

/-! ## The match -/

def productCodes (product : OfferProduct) : List Text :=
  let direct := normalizePartCode lib product.article
  let related := (product.oemNumbers ++ product.crossNumbers).map (normalizePartCode lib) ++ product.crossCodes
  lib.setOrder (distinct id [] ((direct :: related).filter fun code => !code.isEmpty))

def offerTexts (candidate : OfferCandidate) (evidence : WebResearchEvidence) : List Text :=
  [textOr lib candidate.article, textOr lib candidate.title, evidence.title, evidence.snippet]

def joinTexts : List Text → Text
  | [] => []
  | [text] => text
  | text :: rest => text ++ ' ' :: joinTexts rest

def longestFirst (codes : List Text) : List Text := codes.insertionSort fun a b => b.length ≤ a.length

def matchedCode (codes : List Text) (haystack : Text) : Text :=
  ((longestFirst codes).find? fun code => occursIn code (normalizePartCode lib haystack)).getD []

/-- `normalize_part_code(candidate.get('brand') or haystack)`: only a text has a capital form. -/
def candidateBrand (brand : SourceValue) (haystack : Text) : Except PyError Text :=
  if brand.truthy = true then
    match brand with
    | .text s => .ok (normalizePartCode lib s)
    | _ => .error .attributeError
  else .ok (normalizePartCode lib haystack)

structure OfferMatch where
  matchType : MatchType
  confidence : ℕ
  code : Text
  reasons : List Text

def judgeMatch (product : OfferProduct) (matched candidateBrand : Text) : OfferMatch :=
  let productBrand := normalizePartCode lib product.brand
  let brandMatches := !productBrand.isEmpty && occursIn productBrand candidateBrand
  let reasons := (if matched = [] then [] else ["Совпал артикул/OEM ".toList ++ matched]) ++
    if brandMatches then ["Совпал бренд".toList] else []
  if matched = [] then ⟨.review, 35, [], ["Артикул/OEM не подтверждён".toList]⟩
  else if brandMatches || productBrand.isEmpty then
    if matched = normalizePartCode lib product.article then ⟨.exact, 95, matched, reasons⟩ else ⟨.cross, 88, matched, reasons⟩
  else ⟨.review, 68, matched, reasons ++ ["Бренд не подтверждён".toList]⟩

def matchProduct (product : OfferProduct) (candidate : OfferCandidate) (evidence : WebResearchEvidence) :
    Except PyError OfferMatch :=
  let haystack := joinTexts (offerTexts lib candidate evidence)
  (candidateBrand lib candidate.brand haystack).map (judgeMatch lib product (matchedCode lib (productCodes lib product) haystack))

/-! ## The address of an offer -/

def usesNetloc : List Text :=
  ["", "ftp", "http", "gopher", "nntp", "telnet", "imap", "wais", "file", "mms", "https", "shttp", "snews", "prospero", "rtsp",
    "rtsps", "rtspu", "rsync", "svn", "svn+ssh", "sftp", "nfs", "git", "git+ssh", "ws", "wss", "itms-services"].map String.toList

def unsplitUrl (scheme netloc path : Text) : Text :=
  let url :=
    if netloc ≠ [] then "//".toList ++ netloc ++ (if path ≠ [] ∧ path.head? ≠ some '/' then '/' :: path else path)
    else if "//".toList.isPrefixOf path = true then "//".toList ++ path
    else if scheme ≠ [] ∧ usesNetloc.contains scheme = true ∧ (path = [] ∨ path.head? = some '/') then "//".toList ++ path
    else path
  if scheme = [] then url else scheme ++ ':' :: url

def canonicalUrl (value : Text) : Except PyError Text :=
  match Url.urlsplit lib.toUrlLibrary (cleanUrl value) with
  | none => .error .valueError
  | some split => .ok (unsplitUrl (lib.lower split.scheme) (lib.lower split.netloc) (Url.rstrip (· == '/') split.path))

def dedupeKeyOf (url seller matched : Text) : Except PyError Text :=
  (canonicalUrl lib url).map fun canonical => lib.sha256 (canonical ++ '|' :: (lib.casefold seller ++ '|' :: matched))

/-! ## Saving -/

structure OfferPolicy where
  allowedCountries : List Text
  includeUsed : Bool
  includePreorder : Bool
  deriving DecidableEq

def offerPolicy (snapshot : SettingsSnapshot) : Except PyError OfferPolicy := do
  let allowed ← normalizeCountryCodes lib (snapshot.countryCodes.getD .null)
  .ok ⟨if snapshot.regionPreset.any (SourceValue.same · (.text presetRussia)) then ["RU".toList] else allowed,
    (snapshot.includeUsed.getD .null).truthy, (snapshot.includePreorder.getD (.bool true)).truthy⟩

/-- `not allowed_countries or (country_code and country_code in allowed_countries)`. -/
def OfferPolicy.admits (policy : OfferPolicy) (country : Text) : Bool :=
  policy.allowedCountries.isEmpty || (!country.isEmpty && policy.allowedCountries.contains country)

/-- A price and a currency that an offer is stored with, when the settings admit its condition and availability. -/
def OfferPolicy.priced (policy : OfferPolicy) (candidate : OfferCandidate) : Option (ℕ × Text) :=
  match decimalCents lib candidate.price with
  | none => none
  | some cents =>
    let currency := currencyOf lib candidate.currency
    if cents = 0 ∨ currency.length ≠ 3 then none
    else if conditionOf lib candidate.condition = .used ∧ policy.includeUsed = false then none
    else if (availabilityOf lib candidate.availability).1 = .preorder ∧ policy.includePreorder = false then none
    else some (cents, currency)

def OfferMatch.sure (found : OfferMatch) : Bool := found.matchType == .exact || found.matchType == .cross

def textOrElse (value : SourceValue) (fallback : Text) : Text := if value.truthy = true then lib.texts.str value else fallback

def offerUrl (evidence : WebResearchEvidence) (candidate : OfferCandidate) : Text :=
  (textOrElse lib candidate.url evidence.url).take 2000

def offerSeller (evidence : WebResearchEvidence) (candidate : OfferCandidate) : Text :=
  (textOrElse lib candidate.sellerName evidence.domain).take 255

def offerCountry (evidence : WebResearchEvidence) (candidate : OfferCandidate) : Except PyError Text :=
  inferCountryCode lib evidence.url (joinTexts [evidence.title, evidence.snippet, textOr lib candidate.title])

def countryReasons (policy : OfferPolicy) (country : Text) : List Text :=
  if country = [] then ["Страна продавца не подтверждена".toList]
  else if policy.admits country then [] else ["Предложение за пределами выбранного региона".toList]

def offerOf (run : OfferRun) (policy : OfferPolicy) (expiresAt now : Instant) (evidence : WebResearchEvidence)
    (candidate : OfferCandidate) (cents : ℕ) (currency : Text) (found : OfferMatch) (country dedupeKey : Text) : CompetitorOffer where
  run := run.pk
  dedupeKey := dedupeKey
  tenant := run.tenant
  product := run.product.pk
  evidence := evidence.pk
  providerId := evidence.providerId
  sellerName := offerSeller lib evidence candidate
  domain := evidence.domain
  url := offerUrl lib evidence candidate
  countryCode := country
  region := []
  title := (textOrElse lib candidate.title evidence.title).take 500
  article := (textOr lib candidate.article).take 100
  matchedCode := found.code.take 100
  matchType := found.matchType
  matchConfidence := found.confidence
  matchReasons := found.reasons ++ countryReasons policy country
  price := cents
  currency := currency
  normalizedPrice := if currency = "RUB".toList then some cents else none
  normalizedCurrency := "RUB".toList
  isPriceFrom := candidate.isPriceFrom.truthy
  availability := (availabilityOf lib candidate.availability).1
  availabilityText := (availabilityOf lib candidate.availability).2.take 255
  condition := conditionOf lib candidate.condition
  deliveryText := []
  reviewStatus := if found.sure && policy.admits country && !candidate.isPriceFrom.truthy then .verified else .pending
  capturedAt := now
  expiresAt := expiresAt

def pageTexts (evidence : WebResearchEvidence) (candidate : OfferCandidate) : List Text :=
  [evidence.providerId, evidence.domain, offerSeller lib evidence candidate, offerUrl lib evidence candidate,
    (textOrElse lib candidate.title evidence.title).take 500, (textOr lib candidate.article).take 100,
    currencyOf lib candidate.currency, (availabilityOf lib candidate.availability).2.take 255]

def storable (texts : List Text) : Bool := texts.all fun text => text.all fun c => c.toNat != 0

def offerFor (run : OfferRun) (policy : OfferPolicy) (expiresAt now : Instant) (evidence : WebResearchEvidence)
    (candidate : OfferCandidate) : Except PyError (Option CompetitorOffer) :=
  match policy.priced lib candidate with
  | none => .ok none
  | some (cents, currency) => do
    let found ← matchProduct lib run.product candidate evidence
    let country ← offerCountry lib evidence candidate
    let dedupeKey ← dedupeKeyOf lib (offerUrl lib evidence candidate) (offerSeller lib evidence candidate) found.code
    if storable (pageTexts lib evidence candidate) then
      .ok (some (offerOf lib run policy expiresAt now evidence candidate cents currency found country dedupeKey))
    else .error .valueError

def updateOrCreate (offer : CompetitorOffer) : OfferProgram Unit :=
  modify fun table => Dictionary.set (offer.run, offer.dedupeKey) offer table

def saveCandidate (run : OfferRun) (policy : OfferPolicy) (expiresAt now : Instant) (saved : List CompetitorOffer)
    (entry : WebResearchEvidence × OfferCandidate) : OfferProgram (List CompetitorOffer) := do
  match ← Program.lift (offerFor lib run policy expiresAt now entry.1 entry.2) with
  | none => pure saved
  | some offer =>
    updateOrCreate offer
    pure (saved ++ [offer])

def hourSpan : Instant := 3600 * second

def offerEntries (extract : WebResearchEvidence → List OfferCandidate) (evidenceItems : List WebResearchEvidence) :
    List (WebResearchEvidence × OfferCandidate) :=
  evidenceItems.flatMap fun evidence => (extract evidence).map (evidence, ·)

def expiryOf (ttlHours : ℤ) (now : Instant) : Instant := now + max 1 ttlHours * hourSpan

/-- `save_deterministic_offers` over the candidates that are extracted from the pages. -/
def saveDeterministicOffers (extract : WebResearchEvidence → List OfferCandidate) (run : OfferRun)
    (evidenceItems : List WebResearchEvidence) (ttlHours : ℤ) (now : Instant) : OfferProgram (List CompetitorOffer) := do
  let policy ← Program.lift (offerPolicy lib run.settingsSnapshot)
  (offerEntries extract evidenceItems).foldlM (saveCandidate lib run policy (expiryOf ttlHours now) now) []

end MapBackend.WebResearch
