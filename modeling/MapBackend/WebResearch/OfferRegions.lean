import MapBackend.WebResearch.OfferNames

/-!
The region of a search and of its offers.
-/

namespace MapBackend.WebResearch
open MapBackend.Library MapBackend.Core Products.Import

def NamesCountries (contexts : List SearchContext) : Prop := ∃ context ∈ contexts, context.strictRegion = true ∧ context.countryCode ≠ []

/-- The offers of a call follow the contexts of the snapshot: one that is verified is of a country of strict contexts that name
any, and when the preset is worldwide only the match and a price from keep an offer from being verified. -/
structure FollowsRegion (lib : PageLibrary) (extract : WebResearchEvidence → List OfferCandidate) (run : OfferRun)
    (items : List WebResearchEvidence) (ttl : ℤ) (now : Instant) (table : OfferTable) (purpose : Purpose) : Prop where
  named : ∀ contexts, searchContextsFromSnapshot lib run.settingsSnapshot purpose = .ok contexts → NamesCountries contexts →
    ∀ evidence candidate offer, Stores lib extract run items ttl now table evidence candidate offer →
      offer.reviewStatus = .verified → offer.countryCode ≠ [] ∧ offer.countryCode ∈ contexts.map SearchContext.countryCode
  worldwide : (snapshotSettings lib run.settingsSnapshot).regionPreset = presetWorldwide →
    ∀ evidence candidate offer, Stores lib extract run items ttl now table evidence candidate offer →
      (offer.matchType = .exact ∨ offer.matchType = .cross) → offer.isPriceFrom = false → offer.reviewStatus = .verified

variable {lib : PageLibrary} {values : List SourceValue} {code : Text} {codes : List Text} {preset country : Text}

/-! ## Country codes -/

structure IsCountryCode (lib : PageLibrary) (code : Text) : Prop where
  two : code.length = 2
  alpha : code.all lib.isAlpha = true
  upper : upperText lib code = code

theorem upperText_upperText (text : Text) : upperText lib (upperText lib text) = upperText lib text := by
  unfold upperText
  rw [List.flatMap_assoc]
  apply List.flatMap_congr
  intro c _
  calc (lib.upper c).flatMap lib.upper = (lib.upper c).flatMap (fun d => [d]) := List.flatMap_congr fun d mem => lib.upper_upper c d mem
    _ = lib.upper c := List.flatMap_singleton' _

theorem IsCountryCode.ne_nil (is : IsCountryCode lib code) : code ≠ [] := by
  rintro rfl
  cases is.two

theorem mem_addCountryCode {result : List Text} {value : SourceValue} : code ∈ addCountryCode lib result value ↔
    code ∈ result ∨ (IsCountryCode lib code ∧ upperText lib (Url.strip (textOr lib value)) = code) := by
  unfold addCountryCode
  dsimp only
  split
  · next fresh =>
    rw [List.mem_append, List.mem_singleton]
    apply or_congr_right
    constructor
    · rintro rfl
      exact ⟨⟨fresh.1, fresh.2.1, upperText_upperText _⟩, rfl⟩
    · exact fun made => made.2.symm
  · next stale =>
    refine ⟨.inl, fun either => either.elim id ?_⟩
    rintro ⟨is, rfl⟩
    by_contra miss
    exact stale ⟨is.two, is.alpha, Bool.eq_false_iff.mpr fun there => miss (List.contains_iff_mem.mp there)⟩

theorem mem_countryCodesOf : code ∈ countryCodesOf lib values ↔
    IsCountryCode lib code ∧ ∃ value ∈ values, upperText lib (Url.strip (textOr lib value)) = code := by
  have general (result : List Text) : code ∈ values.foldl (addCountryCode lib) result ↔
      code ∈ result ∨ IsCountryCode lib code ∧ ∃ value ∈ values, upperText lib (Url.strip (textOr lib value)) = code := by
    induction values generalizing result with
    | nil => simp
    | cons _ _ ih =>
      rw [List.foldl_cons, ih, mem_addCountryCode]
      simp only [List.exists_mem_cons_iff]
      tauto
  rw [countryCodesOf, general]
  exact or_iff_right List.not_mem_nil

theorem mem_countryCodesOf_texts (valid : ∀ code ∈ codes, IsCountryCode lib code) :
    code ∈ countryCodesOf lib (codes.map .text) ↔ code ∈ codes := by
  have stable (other : Text) (is : IsCountryCode lib other) : upperText lib (Url.strip (textOr lib (.text other))) = other := by
    have filled : (SourceValue.text other).truthy = true := by
      cases other with
      | nil => exact absurd rfl is.ne_nil
      | cons => rfl
    have solid : Url.strip other = other := strip_plain fun c mem => lib.alpha_solid c (List.all_eq_true.mp is.alpha c mem)
    rw [textOr, if_pos filled, Texts.str, solid, is.upper]
  rw [mem_countryCodesOf]
  constructor
  · rintro ⟨-, _, mem, made⟩
    obtain ⟨other, known, rfl⟩ := List.mem_map.mp mem
    rw [stable other (valid other known)] at made
    exact made ▸ known
  · exact fun known => ⟨valid code known, .text code, List.mem_map_of_mem known, stable code (valid code known)⟩

theorem countryCodesOf_valid : ∀ code ∈ countryCodesOf lib values, IsCountryCode lib code :=
  fun _ mem => (mem_countryCodesOf.mp mem).1

theorem cis_valid : ∀ code ∈ cisCountryCodes, IsCountryCode lib code := by
  have shape : cisCountryCodes.all (fun code => code.length == 2 && code.all isLatinCapital) = true := by decide
  intro code mem
  obtain ⟨two, all⟩ := Bool.and_eq_true_iff.mp (List.all_eq_true.mp shape code mem)
  have capitals := List.all_eq_true.mp all
  refine ⟨beq_iff_eq.mp two, List.all_eq_true.mpr fun c inside => (lib.latin_upper c (capitals c inside)).2, ?_⟩
  calc code.flatMap lib.upper = code.flatMap (fun c => [c]) := List.flatMap_congr fun c inside => (lib.latin_upper c (capitals c inside)).1
    _ = code := List.flatMap_singleton' _

theorem itemsOr_list (items : List SourceValue) : itemsOr (.list items) = .ok items := by
  cases items <;> rfl

/-! ## Contexts -/

variable {settings : ResearchSettings} {purpose : Purpose} {contexts : List SearchContext} {snapshot : SettingsSnapshot}
  {policy : OfferPolicy}

/-- The codes of the contexts; without a country there is one context of the empty code. -/
def contextCodes (codes : List Text) : List Text := if codes = [] then [[]] else codes

theorem buildSearchContexts_ok (built : buildSearchContexts lib settings purpose = .ok contexts) :
    ∃ codes, countryCodesForSettings lib settings = .ok codes ∧ contexts.map SearchContext.countryCode = contextCodes codes ∧
      ∀ context ∈ contexts, context.strictRegion = decide (settings.regionPreset ≠ presetWorldwide) := by
  obtain ⟨_, -, built⟩ := bind_ok.mp built
  obtain ⟨_, -, built⟩ := bind_ok.mp built
  obtain ⟨codes, chosen, built⟩ := bind_ok.mp built
  cases built
  refine ⟨codes, chosen, ?_, ?_⟩
  · rw [List.map_map]
    exact List.map_id _
  · intro context mem
    obtain ⟨_, -, rfl⟩ := List.mem_map.mp mem
    rfl

theorem countryCodesForSettings_list {items : List SourceValue} (listed : settings.countryCodes = .list items) :
    countryCodesForSettings lib settings = .ok (presetCountries settings.regionPreset (countryCodesOf lib items)) := by
  rw [countryCodesForSettings, normalizeCountryCodes, listed, itemsOr_list]
  rfl

theorem snapshotStringList_texts (codes : List Text) : snapshotStringList (.list (codes.map .text)) = codes.map .text := by
  apply List.filter_eq_self.mpr
  intro value mem
  obtain ⟨_, -, rfl⟩ := List.mem_map.mp mem
  rfl

/-- A snapshot whose own codes are those that its preset means: none without a region, and at least one for the CIS. -/
structure RegionKept (lib : PageLibrary) (snapshot : SettingsSnapshot) (preset : Text) (codes : List Text) : Prop where
  text : snapshot.regionPreset = some (.text preset)
  list : snapshot.countryCodes = some (.list (codes.map .text))
  worldwide : preset = presetWorldwide → countryCodesOf lib (codes.map .text) = []
  cis : preset = presetRussiaCis → countryCodesOf lib (codes.map .text) ≠ []

theorem searchContextsFromSnapshot_codes (named : snapshot.regionPreset = some (.text preset))
    (listed : snapshot.countryCodes = some (.list (codes.map .text)))
    (built : searchContextsFromSnapshot lib snapshot purpose = .ok contexts) : contexts.map SearchContext.countryCode =
      contextCodes (presetCountries preset (countryCodesOf lib ((countryCodesOf lib (codes.map .text)).map .text))) := by
  obtain ⟨_, chosen, shape, -⟩ := buildSearchContexts_ok built
  have text : (snapshotSettings lib snapshot).regionPreset = preset := by
    rw [snapshotSettings, named]
    rfl
  have list : (snapshotSettings lib snapshot).countryCodes = .list ((countryCodesOf lib (codes.map .text)).map .text) := by
    rw [snapshotSettings, listed, Option.getD_some, snapshotStringList_texts]
  rw [countryCodesForSettings_list list, text] at chosen
  rw [shape, ← Except.ok.inj chosen]

theorem offerPolicy_texts (named : snapshot.regionPreset = some (.text preset))
    (listed : snapshot.countryCodes = some (.list (codes.map .text))) (settled : offerPolicy lib snapshot = .ok policy) :
    policy.allowedCountries = if preset = presetRussia then ["RU".toList] else countryCodesOf lib (codes.map .text) := by
  obtain ⟨_, normal, settled⟩ := bind_ok.mp settled
  rw [listed, Option.getD_some, normalizeCountryCodes, itemsOr_list] at normal
  obtain rfl := Except.ok.inj normal
  obtain rfl := Except.ok.inj settled
  dsimp only
  rw [named, Option.any_some]
  by_cases russia : preset = presetRussia
  · rw [if_pos russia, if_pos ((SourceValue.same_text _ _).mpr (congrArg _ russia.symm))]
  · have other : ¬ SourceValue.same (.text preset) (.text presetRussia) = true := fun same =>
      russia (SourceValue.text.inj ((SourceValue.same_text _ _).mp same)).symm
    rw [if_neg russia, if_neg other]

theorem admits_iff : policy.admits country = true ↔
    policy.allowedCountries = [] ∨ country ≠ [] ∧ country ∈ policy.allowedCountries := by
  simp [OfferPolicy.admits, List.isEmpty_iff]

theorem RegionKept.admits_named (kept : RegionKept lib snapshot preset codes) (settled : offerPolicy lib snapshot = .ok policy)
    (built : searchContextsFromSnapshot lib snapshot purpose = .ok contexts) (named : NamesCountries contexts)
    (admitted : policy.admits country = true) : country ≠ [] ∧ country ∈ contexts.map SearchContext.countryCode := by
  have shape := searchContextsFromSnapshot_codes kept.text kept.list built
  have allowed := offerPolicy_texts kept.text kept.list settled
  obtain ⟨context, mem, -, none⟩ := named
  have inside : context.countryCode ∈ contexts.map SearchContext.countryCode := List.mem_map_of_mem mem
  rw [shape] at inside ⊢
  generalize normal : countryCodesOf lib (codes.map .text) = own at *
  have valid : ∀ code ∈ own, IsCountryCode lib code := normal ▸ countryCodesOf_valid
  have again (code : Text) : code ∈ countryCodesOf lib (own.map .text) ↔ code ∈ own := mem_countryCodesOf_texts valid
  rw [admits_iff, allowed] at admitted
  by_cases russia : preset = presetRussia
  · rw [if_pos russia] at admitted
    rw [presetCountries, if_pos russia]
    exact admitted.resolve_left (List.cons_ne_nil _ _)
  · rw [if_neg russia] at admitted
    rw [presetCountries, if_neg russia] at inside ⊢
    have filled (some : own ≠ []) : countryCodesOf lib (own.map .text) ≠ [] := by
      obtain ⟨code, _, rfl⟩ := List.exists_cons_of_ne_nil some
      exact List.ne_nil_of_mem ((again code).mpr List.mem_cons_self)
    by_cases cis : preset = presetRussiaCis
    · have some := normal ▸ kept.cis cis
      obtain ⟨known, mem⟩ := admitted.resolve_left some
      rw [if_pos cis, if_neg (filled some), contextCodes, if_neg (filled some)]
      exact ⟨known, (again country).mpr mem⟩
    · rw [if_neg cis] at inside ⊢
      by_cases custom : preset = presetCustom
      · rw [if_pos custom] at inside ⊢
        have some : own ≠ [] := by
          rintro rfl
          exact none (List.mem_singleton.mp inside)
        obtain ⟨known, mem⟩ := admitted.resolve_left some
        rw [contextCodes, if_neg (filled some)]
        exact ⟨known, (again country).mpr mem⟩
      · rw [if_neg custom] at inside
        exact absurd (List.mem_singleton.mp inside) none

theorem RegionKept.admits_worldwide (kept : RegionKept lib snapshot preset codes) (settled : offerPolicy lib snapshot = .ok policy)
    (worldwide : preset = presetWorldwide) (country : Text) : policy.admits country = true := by
  have allowed := offerPolicy_texts kept.text kept.list settled
  have other : preset ≠ presetRussia := worldwide ▸ by decide
  rw [if_neg other, kept.worldwide worldwide] at allowed
  exact admits_iff.mpr (.inl allowed)

theorem RegionKept.follows {run : OfferRun} (kept : RegionKept lib run.settingsSnapshot preset codes)
    (extract : WebResearchEvidence → List OfferCandidate) (items : List WebResearchEvidence) (ttl : ℤ) (now : Instant)
    (table : OfferTable) (purpose : Purpose) : FollowsRegion lib extract run items ttl now table purpose := by
  constructor
  · intro contexts built named evidence candidate offer stores verified
    obtain ⟨policy, ⟨settled, -⟩, stored⟩ := stores_iff.mp stores
    obtain ⟨cents, currency, found, country, dedupeKey, -, -, -, -, -, rfl⟩ := offerFor_some stored
    exact kept.admits_named settled built named (reviewStatus_verified.mp verified).2.1
  · intro worldwide evidence candidate offer stores sure fixed
    obtain ⟨policy, ⟨settled, -⟩, stored⟩ := stores_iff.mp stores
    obtain ⟨cents, currency, found, country, dedupeKey, -, -, -, -, -, rfl⟩ := offerFor_some stored
    have own : preset = presetWorldwide := by
      rw [snapshotSettings, kept.text] at worldwide
      exact worldwide
    have certain : found.sure = true := by
      rcases sure with exact | cross
      · exact (by simp [OfferMatch.sure, show found.matchType = .exact from exact])
      · exact (by simp [OfferMatch.sure, show found.matchType = .cross from cross])
    exact reviewStatus_verified.mpr ⟨certain, kept.admits_worldwide settled own country, fixed⟩

/-! ## The snapshot of a new run -/

theorem snapshot_ok {tenant : TenantWebResearchSettings} (taken : tenant.snapshot = .ok snapshot) :
    snapshot.regionPreset = some (.text tenant.regionPreset) := by
  obtain ⟨_, -, taken⟩ := bind_ok.mp taken
  obtain ⟨_, -, taken⟩ := bind_ok.mp taken
  obtain ⟨_, -, taken⟩ := bind_ok.mp taken
  cases taken
  rfl

theorem cis_countries {selected : List Text} (valid : ∀ code ∈ selected, IsCountryCode lib code) :
    presetCountries presetRussiaCis selected ≠ [] ∧ ∀ code ∈ presetCountries presetRussiaCis selected, IsCountryCode lib code := by
  have chosen : presetCountries presetRussiaCis selected = if selected = [] then cisCountryCodes else selected := rfl
  rw [chosen]
  split
  · exact ⟨List.cons_ne_nil _ _, cis_valid⟩
  · next some => exact ⟨some, valid⟩

theorem createRunSnapshot_kept {tenant : TenantWebResearchSettings} (created : createRunSnapshot lib tenant purpose = .ok snapshot) :
    ∃ codes, RegionKept lib snapshot tenant.regionPreset codes := by
  obtain ⟨_, built, created⟩ := bind_ok.mp created
  obtain ⟨taken, known, created⟩ := bind_ok.mp created
  cases created
  obtain ⟨codes, chosen, shape, -⟩ := buildSearchContexts_ok built
  obtain ⟨selected, normal, rfl⟩ := map_ok.mp chosen
  have valid : ∀ code ∈ selected, IsCountryCode lib code := by
    obtain ⟨_, -, rfl⟩ := map_ok.mp normal
    exact countryCodesOf_valid
  have text : taken.regionPreset = some (.text tenant.regionPreset) := snapshot_ok known
  refine ⟨_, text, rfl, fun worldwide => ?_, fun cis => ?_⟩
  · rw [shape, worldwide]
    rfl
  · rw [shape, cis]
    obtain ⟨some, known⟩ := cis_countries valid
    obtain ⟨code, _, same⟩ := List.exists_cons_of_ne_nil some
    have mem : code ∈ presetCountries presetRussiaCis selected := same ▸ List.mem_cons_self
    have filled : (!code.isEmpty) = true := by simp [(known code mem).ne_nil]
    have stored : code ∈ (contextCodes (presetCountries presetRussiaCis selected)).filter fun code => !code.isEmpty := by
      rw [contextCodes, if_neg some]
      exact List.mem_filter.mpr ⟨mem, filled⟩
    refine List.ne_nil_of_mem ((mem_countryCodesOf_texts ?_).mpr stored)
    intro other mem
    rw [contextCodes, if_neg some] at mem
    exact known other (List.mem_filter.mp mem).1

/-- The offers of a run follow the contexts of its search, unless the codes of its snapshot are not those that the preset means.
Those of a snapshot that `create_run` stores are. -/
theorem region_followed (lib : PageLibrary) (extract : WebResearchEvidence → List OfferCandidate) (run : OfferRun)
    (items : List WebResearchEvidence) (ttl : ℤ) (now : Instant) (table : OfferTable) (purpose : Purpose) :
    (∀ preset codes, RegionKept lib run.settingsSnapshot preset codes → FollowsRegion lib extract run items ttl now table purpose) ∧
    ∀ tenant origin, createRunSnapshot lib tenant origin = .ok run.settingsSnapshot →
      FollowsRegion lib extract run items ttl now table purpose := by
  have follows (preset : Text) (codes : List Text) (kept : RegionKept lib run.settingsSnapshot preset codes) :
      FollowsRegion lib extract run items ttl now table purpose := kept.follows extract items ttl now table purpose
  refine ⟨follows, fun tenant origin created => ?_⟩
  obtain ⟨codes, kept⟩ := createRunSnapshot_kept created
  exact follows tenant.regionPreset codes kept

/-- A run for the CIS whose settings list no country, with one candidate. -/
theorem region_followed_cis : ∃ snapshot, createRunSnapshot plainLibrary
      ⟨⟨presetRussiaCis, .list [], "ru".toList, .list [], .list [], 30⟩, false, true⟩ .pricing = .ok snapshot ∧
    FollowsRegion plainLibrary
      (fun _ => [⟨.null, .null, .null, .null, .text "100".toList, .text "EUR".toList, .null, .null, .null, .bool false⟩])
      ⟨1, 1, ⟨1, "123".toList, "Bosch".toList, [], [], []⟩, snapshot⟩
      [⟨1, 1, 1, "Bosch 123".toList, "https://shop.by/f".toList, "shop.by".toList, [], [], []⟩] 24 0 [] .pricing := by
  obtain ⟨snapshot, created⟩ : ∃ snapshot, createRunSnapshot plainLibrary
      ⟨⟨presetRussiaCis, .list [], "ru".toList, .list [], .list [], 30⟩, false, true⟩ .pricing = .ok snapshot := ⟨_, rfl⟩
  exact ⟨snapshot, created, (region_followed plainLibrary _ ⟨1, 1, _, snapshot⟩ _ 24 0 [] .pricing).2 _ .pricing created⟩

/-- With a stored list that is empty an offer from Germany is verified, though the contexts name the CIS alone. -/
theorem empty_list_admits_germany : ¬ ∀ (lib : PageLibrary) (extract : WebResearchEvidence → List OfferCandidate) (run : OfferRun)
    (items : List WebResearchEvidence) (ttl : ℤ) (now : Instant) (table : OfferTable) (purpose : Purpose),
    FollowsRegion lib extract run items ttl now table purpose := by
  intro claimed
  let snapshot : SettingsSnapshot := ⟨some (.text presetRussiaCis), some (.list []), none, none, none, none, none, none⟩
  let run : OfferRun := ⟨1, 1, ⟨1, "123".toList, "Bosch".toList, [], [], []⟩, snapshot⟩
  let evidence : WebResearchEvidence := ⟨1, 1, 1, "Bosch 123".toList, "https://shop.de/f".toList, "shop.de".toList, [], [], []⟩
  let candidate : OfferCandidate := ⟨.null, .null, .null, .null, .text "100".toList, .text "EUR".toList, .null, .null, .null, .bool false⟩
  have settled : offerPolicy plainLibrary run.settingsSnapshot = .ok ⟨[], false, true⟩ := ok_of_toOption (by decide +kernel)
  have made : ∃ offer, offerFor plainLibrary run ⟨[], false, true⟩ (expiryOf 24 0) 0 evidence candidate = .ok (some offer) ∧
      offer.reviewStatus = .verified ∧ offer.countryCode = "DE".toList := by
    have shown : (offerFor plainLibrary run ⟨[], false, true⟩ (expiryOf 24 0) 0 evidence candidate).toOption.any (fun stored =>
        stored.any fun offer => decide (offer.reviewStatus = .verified ∧ offer.countryCode = "DE".toList)) = true := by decide +kernel
    cases outcome : offerFor plainLibrary run ⟨[], false, true⟩ (expiryOf 24 0) 0 evidence candidate with
    | error =>
      rw [outcome] at shown
      cases shown
    | ok stored =>
      rw [outcome] at shown
      cases stored with
      | none => cases shown
      | some offer => exact ⟨offer, rfl, of_decide_eq_true shown⟩
  obtain ⟨offer, stored, verified, german⟩ := made
  have stores : Stores plainLibrary (fun _ => [candidate]) run [evidence] 24 0 [] evidence candidate offer :=
    stores_iff.mpr ⟨_, ⟨settled, [], [], rfl, List.forall_mem_nil _⟩, stored⟩
  have built : searchContextsFromSnapshot plainLibrary snapshot .pricing = .ok _ := rfl
  have inside := ((claimed plainLibrary (fun _ => [candidate]) run [evidence] 24 0 [] .pricing).named _ built
    ⟨_, List.mem_cons_self, rfl, by decide⟩ evidence candidate offer stores verified).2
  rw [german] at inside
  exact absurd inside (by decide +kernel)

end MapBackend.WebResearch
