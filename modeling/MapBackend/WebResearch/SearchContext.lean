import MapBackend.Products.SourceItems
import MapBackend.Library.Dicts
import MapBackend.Library.Distinct
import MapBackend.Library.Words

/-!
The region of a search: the settings of a tenant, the snapshot of them that a run keeps, the contexts in which
its queries are sent, and the country that a page is taken to be of.
-/

namespace MapBackend.WebResearch
open MapBackend.Library MapBackend.Core Products.Import

def isCodeChar (c : Char) : Bool :=
  let n := c.toNat
  (48 ≤ n && n ≤ 57) || (65 ≤ n && n ≤ 90) || (0x410 ≤ n && n ≤ 0x42F) || n == 0x401

def isLatinCapital (c : Char) : Bool := decide (65 ≤ c.toNat ∧ c.toNat ≤ 90)

/-- The Unicode tables, the texts of lists and objects, the order in which a set of texts is gone through and
the digest of a text. Of the tables it is known that a capital is its own, that letters are no blanks, and that no
character which is neither a letter nor a digit has one of a code for its capital. -/
structure PageLibrary extends UrlLibrary where
  texts : Texts
  upper : Char → Text
  casefold : Text → Text
  isAlpha : Char → Bool
  isAlnum : Char → Bool
  sha256 : Text → Text
  setOrder : List Text → List Text
  setOrder_perm : ∀ items, (setOrder items).Perm items
  upper_plain : ∀ c, isAlnum c = false → ∀ d ∈ upper c, isCodeChar d = false
  upper_upper : ∀ c, ∀ d ∈ upper c, upper d = [d]
  latin_upper : ∀ c, isLatinCapital c = true → upper c = [c] ∧ isAlpha c = true
  alpha_solid : ∀ c, isAlpha c = true → Url.isSpace c = false

def isPlainLetter (c : Char) : Bool :=
  let n := c.toNat
  (65 ≤ n && n ≤ 90) || (97 ≤ n && n ≤ 122) || (0x410 ≤ n && n ≤ 0x44F) || n == 0x401 || n == 0x451

def isPlainSmall (c : Char) : Bool :=
  let n := c.toNat
  (97 ≤ n && n ≤ 122) || (0x430 ≤ n && n ≤ 0x44F) || n == 0x451

def plainCapital (c : Char) : Char :=
  if isPlainSmall c then (if c.toNat = 0x451 then 'Ё' else Char.ofNat (c.toNat - 32)) else c

def plainSmall (c : Char) : Char :=
  if isPlainLetter c && !isPlainSmall c then (if c.toNat = 0x401 then 'ё' else Char.ofNat (c.toNat + 32)) else c

theorem plain_of_code {c : Char} (other : (c.isDigit || isPlainLetter c) = false) : isCodeChar c = false := by
  obtain ⟨digit, letter⟩ := Bool.or_eq_false_iff.mp other
  have range : ¬ (48 ≤ c.toNat ∧ c.toNat ≤ 57) := fun inside =>
    Bool.false_ne_true (digit.symm.trans (Char.isDigit_iff_toNat.mpr inside))
  simp only [isPlainLetter, Bool.or_eq_false_iff, Bool.and_eq_false_iff, decide_eq_false_iff_not, beq_eq_false_iff_ne] at letter
  simp only [isCodeChar, Bool.or_eq_false_iff, Bool.and_eq_false_iff, decide_eq_false_iff_not, beq_eq_false_iff_ne]
  omega

theorem plainCapital_other {c : Char} (other : isPlainSmall c = false) : plainCapital c = c := by
  rw [plainCapital, other, if_neg Bool.false_ne_true]

theorem plainCapital_capital (c : Char) : plainCapital (plainCapital c) = plainCapital c := by
  cases small : isPlainSmall c with
  | false => rw [plainCapital_other small, plainCapital_other small]
  | true =>
    refine plainCapital_other ?_
    rw [plainCapital, small, if_pos rfl]
    simp only [isPlainSmall, Bool.or_eq_true, Bool.and_eq_true, decide_eq_true_eq, beq_iff_eq] at small
    split
    · rfl
    · next other =>
      have code : (Char.ofNat (c.toNat - 32)).toNat = c.toNat - 32 := toNat_ofNat (by omega)
      simp only [isPlainSmall, code, Bool.or_eq_false_iff, Bool.and_eq_false_iff,
        decide_eq_false_iff_not, beq_eq_false_iff_ne]
      omega

/-- Every address is well formed, a digest is the text itself, and a set keeps the order of its list. -/
def plainLibrary : PageLibrary where
  netlocValid := fun _ => true
  lower := List.map plainSmall
  ipAddress := fun _ => none
  idna := fun _ => none
  texts := ⟨fun _ => [], fun _ => []⟩
  upper := fun c => [plainCapital c]
  casefold := List.map plainSmall
  isAlpha := isPlainLetter
  isAlnum := fun c => c.isDigit || isPlainLetter c
  sha256 := id
  setOrder := id
  setOrder_perm := List.Perm.refl
  upper_plain := by
    intro c other d mem
    have letter := (Bool.or_eq_false_iff.mp other).2
    have small : isPlainSmall c = false := by
      simp only [isPlainLetter, Bool.or_eq_false_iff, Bool.and_eq_false_iff, decide_eq_false_iff_not, beq_eq_false_iff_ne] at letter
      simp only [isPlainSmall, Bool.or_eq_false_iff, Bool.and_eq_false_iff, decide_eq_false_iff_not, beq_eq_false_iff_ne]
      omega
    rw [List.mem_singleton.mp mem, plainCapital_other small]
    exact plain_of_code other
  upper_upper := by
    intro c d mem
    rw [List.mem_singleton.mp mem, plainCapital_capital]
  latin_upper := by
    intro c capital
    have range := of_decide_eq_true capital
    constructor
    · apply congrArg (fun d => [d])
      apply plainCapital_other
      simp only [isPlainSmall, Bool.or_eq_false_iff, Bool.and_eq_false_iff, decide_eq_false_iff_not, beq_eq_false_iff_ne]
      omega
    · simp only [isPlainLetter, Bool.or_eq_true, Bool.and_eq_true, decide_eq_true_eq, beq_iff_eq]
      omega
  alpha_solid := by
    intro c letter
    simp only [isPlainLetter, Bool.or_eq_true, Bool.and_eq_true, decide_eq_true_eq, beq_iff_eq] at letter
    simp only [Url.isSpace, Bool.or_eq_false_iff, Bool.and_eq_false_iff, decide_eq_false_iff_not, beq_eq_false_iff_ne]
    omega

inductive PyError where
  | typeError
  | valueError
  | attributeError
  deriving DecidableEq

theorem map_ok {α β : Type} {f : α → β} {x : Except PyError α} {b : β} : x.map f = .ok b ↔ ∃ a, x = .ok a ∧ f a = b := by
  cases x <;> simp [Except.map]

variable (lib : PageLibrary)

def upperText (text : Text) : Text := text.flatMap lib.upper

def textOr (value : SourceValue) : Text := if value.truthy = true then lib.texts.str value else []

def itemsOr (value : SourceValue) : Except PyError (List SourceValue) :=
  if value.truthy = true then
    match value with
    | .list items => .ok items
    | .text s => .ok (s.map fun c => .text [c])
    | .object entries => .ok (entries.map fun entry => .text entry.1)
    | _ => .error .typeError
  else .ok []

/-- What `urlparse` drops before it reads a URL: controls and blanks at its start, tabs and line breaks everywhere. -/
def cleanUrl (url : Text) : Text :=
  (url.dropWhile fun c => decide (c.toNat ≤ 32)).filter fun c => c != '\t' && c != '\r' && c != '\n'

def urlHost (url : Text) : Except PyError Text :=
  match Url.urlsplit lib.toUrlLibrary (cleanUrl url) with
  | none => .error .valueError
  | some split => .ok (Url.hostname lib.toUrlLibrary split.netloc)

/-! ## Countries -/

def cisCountryCodes : List Text := ["RU", "BY", "KZ", "AM", "KG", "UZ", "AZ", "MD", "TJ"].map String.toList

def countryQueryLabels : List (Text × Text) :=
  [("RU", "Россия"), ("BY", "Беларусь"), ("KZ", "Казахстан"), ("AM", "Армения"), ("KG", "Кыргызстан"), ("UZ", "Узбекистан"),
    ("AZ", "Азербайджан"), ("MD", "Молдова"), ("TJ", "Таджикистан"), ("GE", "Грузия"), ("UA", "Украина"), ("TR", "Турция"),
    ("DE", "Германия"), ("PL", "Польша"), ("CZ", "Чехия"), ("LT", "Литва"), ("LV", "Латвия"), ("EE", "Эстония"), ("CN", "Китай"),
    ("KR", "Южная Корея"), ("JP", "Япония"), ("AE", "ОАЭ"), ("US", "США"), ("GB", "Великобритания"), ("FR", "Франция"),
    ("IT", "Италия"), ("ES", "Испания"), ("NL", "Нидерланды")].map fun entry => (entry.1.toList, entry.2.toList)

def countryTlds : List (Text × Text) :=
  [("ru", "RU"), ("рф", "RU"), ("by", "BY"), ("kz", "KZ"), ("am", "AM"), ("kg", "KG"), ("uz", "UZ"), ("az", "AZ"), ("md", "MD"),
    ("tj", "TJ"), ("ua", "UA"), ("ge", "GE"), ("tr", "TR"), ("de", "DE"), ("pl", "PL"), ("cz", "CZ"), ("lt", "LT"), ("lv", "LV"),
    ("ee", "EE"), ("cn", "CN"), ("kr", "KR"), ("jp", "JP"), ("ae", "AE"), ("us", "US"), ("uk", "GB"), ("fr", "FR"), ("it", "IT"),
    ("es", "ES"), ("nl", "NL")].map fun entry => (entry.1.toList, entry.2.toList)

def addCountryCode (result : List Text) (value : SourceValue) : List Text :=
  let code := upperText lib (Url.strip (textOr lib value))
  if code.length = 2 ∧ code.all lib.isAlpha = true ∧ result.contains code = false then result ++ [code] else result

/-- `normalize_country_codes` of values that are a list already. -/
def countryCodesOf (values : List SourceValue) : List Text := values.foldl (addCountryCode lib) []

def normalizeCountryCodes (values : SourceValue) : Except PyError (List Text) := (itemsOr values).map (countryCodesOf lib)

def tldCountry (host : Text) : Option Text := Dictionary.get (Url.afterLast '.' (lib.lower host)) countryTlds

def textCountry (text : Text) : Text :=
  let lowered := lib.casefold text
  if text.contains '₽' || occursIn " руб".toList lowered || occursIn "россия".toList lowered then "RU".toList
  else ((countryQueryLabels.find? fun entry => occursIn (lib.casefold entry.2) lowered).map Prod.fst).getD []

def inferCountryCode (url text : Text) : Except PyError Text :=
  (urlHost lib url).map fun host => (tldCountry lib host).getD (textCountry lib text)

/-! ## Settings -/

inductive Purpose where
  | enrichment
  | pricing
  | combined
  deriving DecidableEq

def presetRussia : Text := "russia".toList
def presetRussiaCis : Text := "russia_cis".toList
def presetCustom : Text := "custom".toList
def presetWorldwide : Text := "worldwide".toList

structure ResearchSettings where
  regionPreset : Text
  countryCodes : SourceValue
  searchLanguage : Text
  preferredDomains : SourceValue
  excludedDomains : SourceValue
  resultLimit : ℤ

structure TenantWebResearchSettings extends ResearchSettings where
  includeUsed : Bool
  includePreorder : Bool

structure SettingsSnapshot where
  regionPreset : Option SourceValue
  countryCodes : Option SourceValue
  searchLanguage : Option SourceValue
  includeUsed : Option SourceValue
  includePreorder : Option SourceValue
  preferredDomains : Option SourceValue
  excludedDomains : Option SourceValue
  resultLimit : Option SourceValue

structure SearchContext where
  countryCode : Text
  language : Text
  includeDomains : List Text
  excludeDomains : List Text
  marketIntent : Text
  strictRegion : Bool
  resultLimit : ℤ

def TenantWebResearchSettings.snapshot (settings : TenantWebResearchSettings) : Except PyError SettingsSnapshot := do
  let countryCodes ← itemsOr settings.countryCodes
  let preferredDomains ← itemsOr settings.preferredDomains
  let excludedDomains ← itemsOr settings.excludedDomains
  .ok ⟨some (.text settings.regionPreset), some (.list countryCodes), some (.text settings.searchLanguage),
    some (.bool settings.includeUsed), some (.bool settings.includePreorder), some (.list preferredDomains),
    some (.list excludedDomains), some (.int settings.resultLimit)⟩

/-! ## Contexts -/

def removeWww (host : Text) : Text := if "www.".toList.isPrefixOf host then host.drop 4 else host

def domainHost (value : SourceValue) : Except PyError Text :=
  let raw := lib.lower (Url.strip (textOr lib value))
  (urlHost lib (if occursIn "://".toList raw then raw else "https://".toList ++ raw)).map removeWww

def normalizedDomains (values : SourceValue) : Except PyError (List Text) := do
  let hosts ← (← itemsOr values).mapM (domainHost lib)
  .ok (distinct id [] (hosts.filter fun host => !host.isEmpty))

def presetCountries (preset : Text) (selected : List Text) : List Text :=
  if preset = presetRussia then ["RU".toList]
  else if preset = presetRussiaCis then (if selected = [] then cisCountryCodes else selected)
  else if preset = presetCustom then selected
  else [[]]

def countryCodesForSettings (settings : ResearchSettings) : Except PyError (List Text) :=
  (normalizeCountryCodes lib settings.countryCodes).map (presetCountries settings.regionPreset)

def marketIntent (purpose : Purpose) : Text :=
  if purpose = .enrichment then "enrichment".toList else "pricing".toList

def buildSearchContexts (settings : ResearchSettings) (purpose : Purpose) : Except PyError (List SearchContext) := do
  let includeDomains ← normalizedDomains lib settings.preferredDomains
  let excludeDomains ← normalizedDomains lib settings.excludedDomains
  let countryCodes ← countryCodesForSettings lib settings
  .ok ((if countryCodes = [] then [[]] else countryCodes).map fun code =>
    { countryCode := code
      language := if settings.searchLanguage = [] then "ru".toList else settings.searchLanguage
      includeDomains
      excludeDomains
      marketIntent := marketIntent purpose
      strictRegion := decide (settings.regionPreset ≠ presetWorldwide)
      resultLimit := max 1 (min settings.resultLimit 50) })

def snapshotStringList : SourceValue → List SourceValue
  | .list items => items.filter fun
    | .text _ => true
    | _ => false
  | _ => []

def snapshotResultLimit : SourceValue → ℤ
  | .int n => n
  | .text s => (AIAgent.intOf s).getD 30
  | _ => 30

/-- The settings that a snapshot stands for, with the defaults of `search_contexts_from_snapshot`. -/
def snapshotSettings (snapshot : SettingsSnapshot) : ResearchSettings where
  regionPreset := lib.texts.str (snapshot.regionPreset.getD (.text presetRussia))
  countryCodes := .list ((countryCodesOf lib (snapshotStringList (snapshot.countryCodes.getD (.list [])))).map .text)
  searchLanguage :=
    let language := snapshot.searchLanguage.getD (.text "ru".toList)
    if language.truthy = true then lib.texts.str language else "ru".toList
  preferredDomains := .list (snapshotStringList (snapshot.preferredDomains.getD (.list [])))
  excludedDomains := .list (snapshotStringList (snapshot.excludedDomains.getD (.list [])))
  resultLimit := snapshotResultLimit (snapshot.resultLimit.getD (.int 30))

def searchContextsFromSnapshot (snapshot : SettingsSnapshot) (purpose : Purpose) : Except PyError (List SearchContext) :=
  buildSearchContexts lib (snapshotSettings lib snapshot) purpose

def createRunSnapshot (settings : TenantWebResearchSettings) (purpose : Purpose) : Except PyError SettingsSnapshot := do
  let contexts ← buildSearchContexts lib settings.toResearchSettings purpose
  let snapshot ← settings.snapshot
  .ok { snapshot with
    countryCodes := some (.list (((contexts.map SearchContext.countryCode).filter fun code => !code.isEmpty).map .text)) }

end MapBackend.WebResearch
