import MapBackend.WebResearch.OfferExtraction

/-!
Which part a verified offer names.
-/

namespace MapBackend.WebResearch
open MapBackend.Library MapBackend.Core Products.Import

/-! ## Codes -/

def codeChars (lib : PageLibrary) (c : Char) : Text := (lib.upper c).filter isCodeChar

def StandsInText (lib : PageLibrary) (code text : Text) : Prop :=
  ∃ part, StandsWhole lib.isAlnum part text ∧ normalizePartCode lib part = code

def NamesPart (lib : PageLibrary) (product : OfferProduct) (evidence : WebResearchEvidence) (candidate : OfferCandidate) : Prop :=
  ∃ code ∈ productCodes lib product, ∃ text ∈ offerTexts lib candidate evidence, StandsInText lib code text

def wordsName (lib : PageLibrary) (product : OfferProduct) (evidence : WebResearchEvidence) (candidate : OfferCandidate) : Bool :=
  (productCodes lib product).any fun code =>
    (offerTexts lib candidate evidence).any fun text => readsWords lib.isAlnum (codeChars lib) code text

def codeOccurs (lib : PageLibrary) (product : OfferProduct) (evidence : WebResearchEvidence) (candidate : OfferCandidate) : Bool :=
  (productCodes lib product).any fun code =>
    occursIn code (normalizePartCode lib (joinTexts (offerTexts lib candidate evidence)))

variable {lib : PageLibrary} {product : OfferProduct} {evidence : WebResearchEvidence} {candidate : OfferCandidate}
  {code text haystack : Text} {codes : List Text}

theorem normalizePartCode_eq (text : Text) : normalizePartCode lib text = text.flatMap (codeChars lib) := by
  rw [normalizePartCode, upperText, List.filter_flatMap]
  rfl

theorem codeChars_silent (c : Char) (other : lib.isAlnum c = false) : codeChars lib c = [] :=
  List.filter_eq_nil_iff.mpr fun d mem => by rw [lib.upper_plain c other d mem]; exact Bool.false_ne_true

theorem productCodes_ne_nil (mem : code ∈ productCodes lib product) : code ≠ [] := by
  have listed := (distinct.sublist _ _ _).subset ((lib.setOrder_perm _).mem_iff.mp mem)
  have filled := (List.mem_filter.mp listed).2
  rintro rfl
  cases filled

theorem standsInText_iff (some : code ≠ []) :
    StandsInText lib code text ↔ readsWords lib.isAlnum (codeChars lib) code text = true := by
  rw [readsWords_iff, ← readsWhole_iff codeChars_silent some]
  simp only [StandsInText, ReadsWhole, normalizePartCode_eq]

theorem namesPart_iff : NamesPart lib product evidence candidate ↔ wordsName lib product evidence candidate = true := by
  simp only [NamesPart, wordsName, List.any_eq_true]
  constructor
  · rintro ⟨code, known, text, mem, stands⟩
    exact ⟨code, known, text, mem, (standsInText_iff (productCodes_ne_nil known)).mp stands⟩
  · rintro ⟨code, known, text, mem, reads⟩
    exact ⟨code, known, text, mem, (standsInText_iff (productCodes_ne_nil known)).mpr reads⟩

theorem matchedCode_ne_nil (filled : ∀ code ∈ codes, code ≠ []) :
    matchedCode lib codes haystack ≠ [] ↔ ∃ code ∈ codes, occursIn code (normalizePartCode lib haystack) = true := by
  have sorted (code : Text) : code ∈ longestFirst codes ↔ code ∈ codes := (List.perm_insertionSort _ codes).mem_iff
  rw [matchedCode]
  cases found : (longestFirst codes).find? fun code => occursIn code (normalizePartCode lib haystack) with
  | none =>
    refine ⟨fun miss => absurd rfl miss, ?_⟩
    rintro ⟨code, mem, occurs⟩
    exact absurd occurs (List.find?_eq_none.mp found code ((sorted code).mpr mem))
  | some code =>
    have mem := (sorted code).mp (List.mem_of_find?_eq_some found)
    exact ⟨fun _ => ⟨code, mem, List.find?_some (p := fun code => occursIn code (normalizePartCode lib haystack)) found⟩,
      fun _ => filled code mem⟩

theorem matched_iff : matchedCode lib (productCodes lib product) (joinTexts (offerTexts lib candidate evidence)) ≠ [] ↔
    codeOccurs lib product evidence candidate = true := by
  rw [matchedCode_ne_nil fun _ => productCodes_ne_nil, codeOccurs, List.any_eq_true]

/-! ## What else an offer needs -/

def brandAgrees (lib : PageLibrary) (product : OfferProduct) (brand : Text) : Bool :=
  (normalizePartCode lib product.brand).isEmpty || occursIn (normalizePartCode lib product.brand) brand

structure Publishable (lib : PageLibrary) (run : OfferRun) (policy : OfferPolicy) (evidence : WebResearchEvidence)
    (candidate : OfferCandidate) : Prop where
  priced : (policy.priced lib candidate).isSome = true
  brand : ∃ brand, candidateBrand lib candidate.brand (joinTexts (offerTexts lib candidate evidence)) = .ok brand ∧
    brandAgrees lib run.product brand = true
  country : ∃ country, offerCountry lib evidence candidate = .ok country ∧ policy.admits country = true
  address : ∃ canonical, canonicalUrl lib (offerUrl lib evidence candidate) = .ok canonical
  plain : storable (pageTexts lib evidence candidate) = true
  fixed : candidate.isPriceFrom.truthy = false

variable {run : OfferRun} {policy : OfferPolicy} {expiresAt now : Instant} {offer : CompetitorOffer}

theorem judgeMatch_sure (matched brand : Text) :
    (judgeMatch lib product matched brand).sure = true ↔ matched ≠ [] ∧ brandAgrees lib product brand = true := by
  unfold judgeMatch brandAgrees
  cases noBrand : (normalizePartCode lib product.brand).isEmpty <;>
    cases inside : occursIn (normalizePartCode lib product.brand) brand <;>
    by_cases none : matched = [] <;> by_cases direct : matched = normalizePartCode lib product.article <;>
    simp_all [OfferMatch.sure]

theorem offerFor_some (stored : offerFor lib run policy expiresAt now evidence candidate = .ok (some offer)) :
    ∃ cents currency found country dedupeKey, policy.priced lib candidate = some (cents, currency) ∧
      matchProduct lib run.product candidate evidence = .ok found ∧ offerCountry lib evidence candidate = .ok country ∧
      dedupeKeyOf lib (offerUrl lib evidence candidate) (offerSeller lib evidence candidate) found.code = .ok dedupeKey ∧
      storable (pageTexts lib evidence candidate) = true ∧
      offer = offerOf lib run policy expiresAt now evidence candidate cents currency found country dedupeKey := by
  unfold offerFor at stored
  split at stored
  · cases stored
  · next cents currency priced =>
    obtain ⟨found, matched, stored⟩ := bind_ok.mp stored
    obtain ⟨country, located, stored⟩ := bind_ok.mp stored
    obtain ⟨dedupeKey, keyed, stored⟩ := bind_ok.mp stored
    split at stored
    · next plain => exact ⟨cents, currency, found, country, dedupeKey, priced, matched, located, keyed, plain,
        (Option.some.inj (Except.ok.inj stored)).symm⟩
    · cases stored

variable {found : OfferMatch}

theorem offerFor_of {cents : ℕ} {currency country canonical : Text}
    (priced : policy.priced lib candidate = some (cents, currency))
    (matched : matchProduct lib run.product candidate evidence = .ok found)
    (located : offerCountry lib evidence candidate = .ok country)
    (address : canonicalUrl lib (offerUrl lib evidence candidate) = .ok canonical)
    (plain : storable (pageTexts lib evidence candidate) = true) :
    ∃ dedupeKey, offerFor lib run policy expiresAt now evidence candidate =
      .ok (some (offerOf lib run policy expiresAt now evidence candidate cents currency found country dedupeKey)) := by
  obtain ⟨dedupeKey, keyed⟩ : ∃ key, dedupeKeyOf lib (offerUrl lib evidence candidate) (offerSeller lib evidence candidate) found.code =
      .ok key := ⟨_, map_ok.mpr ⟨canonical, address, rfl⟩⟩
  refine ⟨dedupeKey, ?_⟩
  unfold offerFor
  rw [priced]
  exact bind_ok.mpr ⟨found, matched, bind_ok.mpr ⟨country, located, bind_ok.mpr ⟨dedupeKey, keyed, if_pos plain⟩⟩⟩

theorem matchProduct_ok : matchProduct lib product candidate evidence = .ok found ↔
    ∃ brand, candidateBrand lib candidate.brand (joinTexts (offerTexts lib candidate evidence)) = .ok brand ∧
      judgeMatch lib product (matchedCode lib (productCodes lib product) (joinTexts (offerTexts lib candidate evidence))) brand =
        found := map_ok

theorem reviewStatus_verified {cents : ℕ} {currency country dedupeKey : Text} :
    (offerOf lib run policy expiresAt now evidence candidate cents currency found country dedupeKey).reviewStatus = .verified ↔
      found.sure = true ∧ policy.admits country = true ∧ candidate.isPriceFrom.truthy = false := by
  have shape : (offerOf lib run policy expiresAt now evidence candidate cents currency found country dedupeKey).reviewStatus =
      if found.sure && policy.admits country && !candidate.isPriceFrom.truthy then ReviewStatus.verified else .pending := rfl
  rw [shape]
  cases found.sure <;> cases policy.admits country <;> cases candidate.isPriceFrom.truthy <;> simp

theorem offerFor_verified : (∃ offer, offerFor lib run policy expiresAt now evidence candidate = .ok (some offer) ∧
    offer.reviewStatus = .verified) ↔
      Publishable lib run policy evidence candidate ∧ codeOccurs lib run.product evidence candidate = true := by
  constructor
  · rintro ⟨offer, stored, verified⟩
    obtain ⟨cents, currency, _, country, dedupeKey, priced, matched, located, keyed, plain, rfl⟩ := offerFor_some stored
    obtain ⟨sure, admitted, fixed⟩ := reviewStatus_verified.mp verified
    obtain ⟨brand, named, rfl⟩ := matchProduct_ok.mp matched
    obtain ⟨some, agrees⟩ := (judgeMatch_sure _ _).mp sure
    obtain ⟨canonical, address, -⟩ := map_ok.mp keyed
    exact ⟨⟨by rw [priced]; rfl, ⟨brand, named, agrees⟩, ⟨country, located, admitted⟩, ⟨canonical, address⟩, plain, fixed⟩,
      matched_iff.mp some⟩
  · rintro ⟨⟨priced, ⟨brand, named, agrees⟩, ⟨country, located, admitted⟩, ⟨canonical, address⟩, plain, fixed⟩, occurs⟩
    obtain ⟨⟨cents, currency⟩, priced⟩ := Option.isSome_iff_exists.mp priced
    have sure := (judgeMatch_sure _ brand).mpr ⟨matched_iff.mpr occurs, agrees⟩
    have matched : matchProduct lib run.product candidate evidence = .ok _ := matchProduct_ok.mpr ⟨brand, named, rfl⟩
    obtain ⟨dedupeKey, stored⟩ := offerFor_of priced matched located address plain
    exact ⟨_, stored, reviewStatus_verified.mpr ⟨sure, admitted, fixed⟩⟩

/-! ## The loop -/

variable {extract : WebResearchEvidence → List OfferCandidate} {items : List WebResearchEvidence} {ttl : ℤ}
  {saved : List CompetitorOffer} {entries : List (WebResearchEvidence × OfferCandidate)} {table : OfferTable} {key : ℕ × Text}

/-- The call stores the candidate of the page as the offer: the loop runs up to it, and its round saves the offer. -/
def Stores (lib : PageLibrary) (extract : WebResearchEvidence → List OfferCandidate) (run : OfferRun)
    (items : List WebResearchEvidence) (ttl : ℤ) (now : Instant) (table : OfferTable) (evidence : WebResearchEvidence)
    (candidate : OfferCandidate) (offer : CompetitorOffer) : Prop :=
  ∃ policy earlier later saved mid next, offerPolicy lib run.settingsSnapshot = .ok policy ∧
    offerEntries extract items = earlier ++ (evidence, candidate) :: later ∧
    earlier.foldlM (saveCandidate lib run policy (expiryOf ttl now) now) [] table = .ok saved mid ∧
    saveCandidate lib run policy (expiryOf ttl now) now saved (evidence, candidate) mid = .ok (saved ++ [offer]) next

def Handled (lib : PageLibrary) (run : OfferRun) (policy : OfferPolicy) (expiresAt now : Instant)
    (entry : WebResearchEvidence × OfferCandidate) : Prop :=
  ∃ stored, offerFor lib run policy expiresAt now entry.1 entry.2 = .ok stored

/-- The loop comes to the candidate of the page with this policy: nothing before it raises. -/
def ComesTo (lib : PageLibrary) (extract : WebResearchEvidence → List OfferCandidate) (run : OfferRun)
    (items : List WebResearchEvidence) (ttl : ℤ) (now : Instant) (policy : OfferPolicy) (evidence : WebResearchEvidence)
    (candidate : OfferCandidate) : Prop :=
  offerPolicy lib run.settingsSnapshot = .ok policy ∧ ∃ earlier later,
    offerEntries extract items = earlier ++ (evidence, candidate) :: later ∧
    ∀ entry ∈ earlier, Handled lib run policy (expiryOf ttl now) now entry

theorem saveCandidate_none (entry : WebResearchEvidence × OfferCandidate)
    (quiet : offerFor lib run policy expiresAt now entry.1 entry.2 = .ok none) :
    saveCandidate lib run policy expiresAt now saved entry table = .ok saved table := by
  unfold saveCandidate
  rw [quiet]
  rfl

theorem saveCandidate_some (entry : WebResearchEvidence × OfferCandidate)
    (stored : offerFor lib run policy expiresAt now entry.1 entry.2 = .ok (some offer)) :
    saveCandidate lib run policy expiresAt now saved entry table =
      .ok (saved ++ [offer]) (Dictionary.set (offer.run, offer.dedupeKey) offer table) := by
  unfold saveCandidate
  rw [stored]
  rfl

theorem saveCandidate_error {e : PyError} (entry : WebResearchEvidence × OfferCandidate)
    (raised : offerFor lib run policy expiresAt now entry.1 entry.2 = .error e) :
    saveCandidate lib run policy expiresAt now saved entry table = .error e table := by
  unfold saveCandidate
  rw [raised]
  rfl

theorem saveCandidate_stores (entry : WebResearchEvidence × OfferCandidate) :
    (∃ next, saveCandidate lib run policy expiresAt now saved entry table = .ok (saved ++ [offer]) next) ↔
      offerFor lib run policy expiresAt now entry.1 entry.2 = .ok (some offer) := by
  constructor
  · rintro ⟨next, step⟩
    cases outcome : offerFor lib run policy expiresAt now entry.1 entry.2 with
    | error =>
      rw [saveCandidate_error entry outcome] at step
      cases step
    | ok stored =>
      cases stored with
      | none =>
        rw [saveCandidate_none entry outcome] at step
        have same := congrArg List.length (EStateM.Result.ok.inj step).1
        simp at same
      | some =>
        rw [saveCandidate_some entry outcome] at step
        have same := List.append_cancel_left (EStateM.Result.ok.inj step).1
        rw [List.singleton_inj.mp same]
  · exact fun stored => ⟨_, saveCandidate_some entry stored⟩

theorem foldlM_handled : (∃ result next, entries.foldlM (saveCandidate lib run policy expiresAt now) saved table = .ok result next) ↔
    ∀ entry ∈ entries, Handled lib run policy expiresAt now entry := by
  induction entries generalizing saved table with
  | nil => exact ⟨fun _ entry mem => absurd mem List.not_mem_nil, fun _ => ⟨saved, table, rfl⟩⟩
  | cons entry rest ih =>
    simp only [List.foldlM_cons, Program.bind_ok, List.forall_mem_cons]
    constructor
    · rintro ⟨result, next, _, _, first, later⟩
      refine ⟨?_, ih.mp ⟨result, next, later⟩⟩
      cases outcome : offerFor lib run policy expiresAt now entry.1 entry.2 with
      | error =>
        rw [saveCandidate_error entry outcome] at first
        cases first
      | ok stored => exact ⟨stored, outcome⟩
    · rintro ⟨⟨stored, outcome⟩, later⟩
      cases stored with
      | none =>
        obtain ⟨result, next, rest⟩ := ih.mpr later
        exact ⟨result, next, saved, table, saveCandidate_none entry outcome, rest⟩
      | some =>
        obtain ⟨result, next, rest⟩ := ih.mpr later
        exact ⟨result, next, _, _, saveCandidate_some entry outcome, rest⟩

theorem stores_iff : Stores lib extract run items ttl now table evidence candidate offer ↔
    ∃ policy, ComesTo lib extract run items ttl now policy evidence candidate ∧
      offerFor lib run policy (expiryOf ttl now) now evidence candidate = .ok (some offer) := by
  constructor
  · rintro ⟨policy, earlier, later, saved, mid, next, settled, parts, before, step⟩
    exact ⟨policy, ⟨settled, earlier, later, parts, foldlM_handled.mp ⟨saved, mid, before⟩⟩,
      (saveCandidate_stores (evidence, candidate)).mp ⟨next, step⟩⟩
  · rintro ⟨policy, ⟨settled, earlier, later, parts, handled⟩, stored⟩
    obtain ⟨saved, mid, before⟩ := foldlM_handled.mpr handled
    obtain ⟨next, step⟩ := (saveCandidate_stores (evidence, candidate)).mpr stored
    exact ⟨policy, earlier, later, saved, mid, next, settled, parts, before, step⟩

theorem foldlM_rows (found : Dictionary.get key
      (Program.after (entries.foldlM (saveCandidate lib run policy expiresAt now) saved) table) = some offer) :
    Dictionary.get key table = some offer ∨ ∃ earlier entry later, entries = earlier ++ entry :: later ∧
      (∀ other ∈ earlier, Handled lib run policy expiresAt now other) ∧
      offerFor lib run policy expiresAt now entry.1 entry.2 = .ok (some offer) := by
  induction entries generalizing saved table with
  | nil => exact .inl found
  | cons entry rest ih =>
    rw [List.foldlM_cons] at found
    cases outcome : offerFor lib run policy expiresAt now entry.1 entry.2 with
    | error =>
      rw [Program.after_bind_error (saveCandidate_error entry outcome)] at found
      exact .inl found
    | ok stored =>
      -- what the rest of the loop stores it stores after this candidate, which raises nothing
      have further {table' : OfferTable} (kept : Dictionary.get key table' = some offer ∨ ∃ earlier entry later,
          rest = earlier ++ entry :: later ∧ (∀ other ∈ earlier, Handled lib run policy expiresAt now other) ∧
          offerFor lib run policy expiresAt now entry.1 entry.2 = .ok (some offer)) :
          Dictionary.get key table' = some offer ∨ ∃ earlier other later, entry :: rest = earlier ++ other :: later ∧
            (∀ other ∈ earlier, Handled lib run policy expiresAt now other) ∧
            offerFor lib run policy expiresAt now other.1 other.2 = .ok (some offer) := by
        refine kept.imp_right ?_
        rintro ⟨earlier, other, later, rfl, handled, made⟩
        exact ⟨entry :: earlier, other, later, rfl, List.forall_mem_cons.mpr ⟨⟨stored, outcome⟩, handled⟩, made⟩
      cases stored with
      | none =>
        rw [Program.after_bind_ok (saveCandidate_none entry outcome)] at found
        exact further (ih found)
      | some =>
        rw [Program.after_bind_ok (saveCandidate_some entry outcome)] at found
        rcases further (ih found) with here | below
        · rw [Dictionary.get_set] at here
          split at here
          · obtain rfl := Option.some.inj here
            exact .inr ⟨[], entry, rest, rfl, List.forall_mem_nil _, outcome⟩
          · exact .inl here
        · exact .inr below

theorem rows_stored (found : Dictionary.get key
      (Program.after (saveDeterministicOffers lib extract run items ttl now) table) = some offer) :
    Dictionary.get key table = some offer ∨ ∃ evidence candidate, Stores lib extract run items ttl now table evidence candidate offer := by
  unfold saveDeterministicOffers at found
  cases settled : offerPolicy lib run.settingsSnapshot with
  | error e =>
    have raised : (Program.lift (offerPolicy lib run.settingsSnapshot) : OfferProgram OfferPolicy) table = .error e table := by
      rw [settled]
      rfl
    rw [Program.after_bind_error raised] at found
    exact .inl found
  | ok policy =>
    have returned : (Program.lift (offerPolicy lib run.settingsSnapshot) : OfferProgram OfferPolicy) table = .ok policy table := by
      rw [settled]
      rfl
    rw [Program.after_bind_ok returned] at found
    refine (foldlM_rows found).imp_right ?_
    rintro ⟨earlier, entry, later, parts, handled, stored⟩
    exact ⟨entry.1, entry.2, stores_iff.mpr ⟨policy, ⟨settled, earlier, later, parts, handled⟩, stored⟩⟩

/-- Every offer that the call stores as verified names the part, exactly when whole words of one text name it for every
candidate that the loop comes to, that can be published and for which the letters and digits of the joined texts hold a code. -/
theorem verified_named_iff (lib : PageLibrary) (extract : WebResearchEvidence → List OfferCandidate) (run : OfferRun)
    (items : List WebResearchEvidence) (ttl : ℤ) (now : Instant) (table : OfferTable) :
    ((∀ evidence candidate offer, Stores lib extract run items ttl now table evidence candidate offer →
        offer.reviewStatus = .verified → NamesPart lib run.product evidence candidate) ↔
      ∀ policy evidence candidate, ComesTo lib extract run items ttl now policy evidence candidate →
        Publishable lib run policy evidence candidate → codeOccurs lib run.product evidence candidate = true →
          wordsName lib run.product evidence candidate = true) ∧
    ∀ key offer, Dictionary.get key (Program.after (saveDeterministicOffers lib extract run items ttl now) table) = some offer →
      Dictionary.get key table = some offer ∨
        ∃ evidence candidate, Stores lib extract run items ttl now table evidence candidate offer := by
  refine ⟨⟨fun named policy evidence candidate comes publishable occurs => ?_, fun words evidence candidate offer stores verified => ?_⟩,
    fun key offer => rows_stored⟩
  · obtain ⟨offer, stored, verified⟩ := offerFor_verified.mpr ⟨publishable, occurs⟩
    exact namesPart_iff.mp (named evidence candidate offer (stores_iff.mpr ⟨policy, comes, stored⟩) verified)
  · obtain ⟨policy, comes, stored⟩ := stores_iff.mp stores
    obtain ⟨publishable, occurs⟩ := offerFor_verified.mp ⟨offer, stored, verified⟩
    exact namesPart_iff.mpr (words policy evidence candidate comes publishable occurs)

/-- A page that sells the part 51234 is verified for the part 123. -/
theorem longer_code_verified : ¬ ∀ (lib : PageLibrary) (extract : WebResearchEvidence → List OfferCandidate) (run : OfferRun)
    (items : List WebResearchEvidence) (ttl : ℤ) (now : Instant) (table : OfferTable) (evidence : WebResearchEvidence)
    (candidate : OfferCandidate) (offer : CompetitorOffer), Stores lib extract run items ttl now table evidence candidate offer →
      offer.reviewStatus = .verified → NamesPart lib run.product evidence candidate := by
  intro claimed
  let snapshot : SettingsSnapshot :=
    ⟨some (.text presetRussia), some (.list [.text "RU".toList]), none, none, none, none, none, none⟩
  let run : OfferRun := ⟨1, 1, ⟨1, "123".toList, "Bosch".toList, [], [], []⟩, snapshot⟩
  let evidence : WebResearchEvidence := ⟨1, 1, 1, "Фильтр Bosch 51234".toList, "https://shop.ru/f".toList, "shop.ru".toList, [], [], []⟩
  let candidate : OfferCandidate := ⟨.null, .null, .null, .null, .text "100".toList, .text "RUB".toList, .null, .null, .null, .bool false⟩
  have settled : offerPolicy plainLibrary run.settingsSnapshot = .ok ⟨["RU".toList], false, true⟩ :=
    ok_of_toOption (by decide +kernel)
  have publishable : Publishable plainLibrary run ⟨["RU".toList], false, true⟩ evidence candidate := by
    refine ⟨by decide +kernel, ⟨_, rfl, by decide +kernel⟩, ⟨"RU".toList, ok_of_toOption (by decide +kernel), by decide +kernel⟩, ⟨_, rfl⟩,
      by decide +kernel, rfl⟩
  obtain ⟨offer, stored, verified⟩ := (@offerFor_verified _ _ _ run _ (expiryOf 24 0) 0).mpr ⟨publishable, by decide +kernel⟩
  have stores : Stores plainLibrary (fun _ => [candidate]) run [evidence] 24 0 [] evidence candidate offer :=
    stores_iff.mpr ⟨_, ⟨settled, [], [], rfl, List.forall_mem_nil _⟩, stored⟩
  have named := namesPart_iff.mp (claimed _ _ _ _ _ _ _ _ _ _ stores verified)
  have missed : wordsName plainLibrary run.product evidence candidate = false := by decide +kernel
  exact Bool.false_ne_true (missed.symm.trans named)

end MapBackend.WebResearch
