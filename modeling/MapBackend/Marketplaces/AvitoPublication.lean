import MapBackend.Marketplaces.AvitoFeedDocument
import MapBackend.Marketplaces.AvitoPreflight

/-!
What a preflight without errors says about the advertisement that the feed writes for the listing.
-/

namespace MapBackend.Marketplaces.Avito
open MapBackend.Core MapBackend.Core.Url MapBackend.Library

/-! ## Cutting a text -/

def cutAt (text : Text) (maxLength : ℕ) : ℕ :=
  match lastBreak (text.take (maxLength + 1)) with
  | some boundary => if maxLength * 4 / 5 ≤ boundary then boundary else maxLength
  | none => maxLength

/-- The text is short enough, or the part that stays has more than spaces and marks. -/
def KeepsLetter (text : Text) (maxLength : ℕ) : Prop :=
  text.length ≤ maxLength ∨ ∃ c ∈ text.take (cutAt text maxLength), isMark c = false

theorem rstrip_eq_nil (drop : Char → Bool) (text : Text) : rstrip drop text = [] ↔ ∀ c ∈ text, drop c = true := by
  rw [rstrip, List.reverse_eq_nil_iff, List.dropWhile_eq_nil_iff]
  simp only [List.mem_reverse]

theorem lastBreak_lt {text : Text} {boundary : ℕ} (found : lastBreak text = some boundary) : boundary < text.length := by
  unfold lastBreak at found
  obtain ⟨_, index, rfl⟩ := Option.map_eq_some_iff.mp found
  have inside := (List.findIdx?_eq_some_iff_findIdx_eq.mp index).1
  rw [List.length_reverse] at inside
  omega

theorem limitMarketplaceText_ne_nil {value : Text} (maxLength : ℕ) (filled : strip value ≠ []) :
    limitMarketplaceText value maxLength ≠ [] ↔ KeepsLetter (strip value) maxLength := by
  have cut : ¬ (strip value).length ≤ maxLength →
      limitMarketplaceText value maxLength = rstrip isMark ((strip value).take (cutAt (strip value) maxLength)) := by
    intro long
    simp only [limitMarketplaceText, cutAt, if_neg long]
    cases found : lastBreak ((strip value).take (maxLength + 1)) with
    | none => rfl
    | some =>
      have inside := lastBreak_lt found
      rw [List.length_take] at inside
      simp only
      split
      · rw [List.take_take, Nat.min_eq_left (by omega)]
      · rfl
  by_cases short : (strip value).length ≤ maxLength
  · have same : limitMarketplaceText value maxLength = strip value := if_pos short
    rw [same]
    exact ⟨fun _ => .inl short, fun _ => filled⟩
  · rw [cut short, Ne, rstrip_eq_nil]
    simp only [KeepsLetter, short, false_or]
    simp

theorem priceText_positive {price : Numeric 12 2} (positive : 0 < price.units) :
    (∃ n : ℕ, 0 < n ∧ priceText price = (toString n).toList) ↔ 100 ≤ price.units := by
  have whole : price.units.tdiv 100 = ((price.units / 100).toNat : ℤ) := by
    rw [Int.tdiv_eq_ediv_of_nonneg positive.le]
    omega
  have shown : priceText price = (toString (price.units / 100).toNat).toList := by
    rw [priceText, whole]
    rfl
  rw [shown]
  constructor
  · rintro ⟨n, _, same⟩
    have digits := congrArg (fun text => Nat.ofDigitChars 10 text 0) same
    simp only [Nat.toString_eq_repr, Nat.toList_repr, Nat.ofDigitChars_ten_toDigits] at digits
    omega
  · exact fun rouble => ⟨_, by omega, rfl⟩

/-! ## What the preflight has checked -/

theorem addMessage_ne_nil (messages : Messages) (finding : Finding) : addMessage messages finding ≠ [] := by
  unfold addMessage
  split
  next there =>
    intro empty
    rw [List.map_eq_nil_iff] at empty
    rw [empty] at there
    cases there
  next => simp

theorem foldl_addMessage_eq_nil {findings : List Finding} {messages : Messages} (empty : findings.foldl addMessage messages = []) :
    findings = [] ∧ messages = [] := by
  induction findings generalizing messages with
  | nil => exact ⟨rfl, empty⟩
  | cons first _ ih => exact absurd (ih empty).2 (addMessage_ne_nil messages first)

theorem check_forall {failed : Prop} [Decidable failed] {blocking : Bool} {field message : Text} :
    (∀ finding ∈ check failed blocking field message, finding.blocking = false) ↔ (failed → blocking = false) := by
  unfold check
  by_cases fails : failed
  · simp [fails]
  · simp [fails]

section Passed

variable {settings : PublicationSettings} {db : FeedDatabase} {account : AccountState} {listing : Listing}

theorem warnings_only (passes : (avitoPublicationPreflight settings db account listing).1 = []) :
    ∀ finding ∈ publicationFindings settings db account listing, finding.blocking = false := by
  unfold avitoPublicationPreflight at passes
  generalize publicationFindings settings db account listing = findings at passes ⊢
  intro finding mem
  obtain ⟨none, -⟩ := foldl_addMessage_eq_nil passes
  have kept := List.filter_eq_nil_iff.mp none finding mem
  simpa using kept

structure Passed (settings : PublicationSettings) (db : FeedDatabase) (listing : Listing) (relations : Relations) : Prop where
  title : strip (orText listing.title listing.product.name) ≠ []
  description : strip (orText listing.descriptionAi listing.product.description1c) ≠ []
  price : 0 < listing.priceOnListing.units
  placed : sellerAddressId listing relations.placement relations.mapping ≠ [] ∨
    addressText listing relations.placement relations.mapping ≠ []
  manager : managerName listing relations.placement relations.mapping ≠ []
  phone : contactPhone listing relations.placement relations.mapping ≠ []
  required : schemaVerified settings db listing = true → ∀ tag ∈ requiredFields settings db listing,
    tag ∈ providedTags settings db listing

theorem brand_provided (verified : schemaVerified settings db listing = true)
    (none : ∀ finding ∈ brandFindings settings db listing, finding.blocking = false)
    (required : "Brand".toList ∈ requiredFields settings db listing) :
    (db.relations settings.toFeedSettings listing).brand ≠ [] := by
  simp only [brandFindings, List.forall_mem_append, check_forall] at none
  obtain ⟨⟨missing, unknown⟩, -⟩ := none
  have asks := List.contains_iff_mem.mpr required
  have brand : strip listing.product.brand ≠ [] := by
    intro empty
    have warns := missing ⟨asks, empty⟩
    rw [verified] at warns
    cases warns
  have known : (lookupBrand settings.toFeedSettings (strip listing.product.brand)).known = true := by
    by_contra other
    have warns := unknown ⟨⟨brand, by simpa using other⟩, asks⟩
    rw [verified] at warns
    cases warns
  simp only [FeedDatabase.relations, if_neg brand, brandText, known, if_true, orText]
  split
  · exact brand
  next filled => exact filled

theorem oem_provided (verified : schemaVerified settings db listing = true)
    (none : ∀ finding ∈ oemFindings settings db listing, finding.blocking = false)
    (required : "OEM".toList ∈ requiredFields settings db listing) : getOem listing.product ≠ [] := by
  simp only [oemFindings, List.forall_mem_append, check_forall] at none
  intro empty
  have warns := none.1 ⟨List.contains_iff_mem.mpr required, empty⟩
  rw [verified] at warns
  cases warns

theorem required_provided (none : ∀ finding ∈ publicationFindings settings db account listing, finding.blocking = false)
    (verified : schemaVerified settings db listing = true) {tag : Text} (required : tag ∈ requiredFields settings db listing) :
    tag ∈ providedTags settings db listing := by
  simp only [publicationFindings, List.forall_mem_append] at none
  obtain ⟨⟨⟨⟨-, brand⟩, oem⟩, fields⟩, -⟩ := none
  simp only [requiredFindings, List.forall_mem_append, check_forall, verified] at fields
  obtain ⟨subtypes, others⟩ := fields
  by_contra absent
  have missing : tag ∈ missingRequiredAvitoFields settings db listing := by
    refine List.mem_filter.mpr ⟨required, ?_⟩
    simpa using absent
  have provides (name value : Text) (filled : value ≠ []) (same : tag = name)
      (sub : (if value = [] then [] else [name]) ⊆ providedTags settings db listing) : False := by
    rw [if_neg filled] at sub
    exact absent (same ▸ sub (List.mem_singleton_self name))
  have unlabelled : labelOf avitoSubtypeLabels tag = none := by
    by_contra labelled
    have some_tag : (missingRequiredAvitoFields settings db listing).filter
        (fun tag => (labelOf avitoSubtypeLabels tag).isSome) ≠ [] :=
      List.ne_nil_of_mem (List.mem_filter.mpr ⟨missing, Option.isSome_iff_ne_none.mpr labelled⟩)
    cases subtypes some_tag
  by_cases isBrand : tag = "Brand".toList
  · refine provides _ _ (brand_provided verified brand (isBrand ▸ required)) isBrand fun name mem => ?_
    simp only [providedTags, List.mem_append]
    exact .inl (.inl (.inr mem))
  by_cases isOem : tag = "OEM".toList
  · refine provides _ _ (oem_provided verified oem (isOem ▸ required)) isOem fun name mem => ?_
    simp only [providedTags, List.mem_append]
    exact .inl (.inr mem)
  have other : (missingRequiredAvitoFields settings db listing).filter (fun tag =>
      (labelOf avitoSubtypeLabels tag).isNone && tag != "Brand".toList && tag != "OEM".toList) ≠ [] := by
    refine List.ne_nil_of_mem (List.mem_filter.mpr ⟨missing, ?_⟩)
    rw [unlabelled, Bool.and_eq_true, Bool.and_eq_true, bne_iff_ne, bne_iff_ne]
    exact ⟨⟨rfl, isBrand⟩, isOem⟩
  cases others other

theorem passed (passes : (avitoPublicationPreflight settings db account listing).1 = []) :
    Passed settings db listing (db.relations settings.toFeedSettings listing) := by
  have none := warnings_only passes
  have fields := none
  simp only [publicationFindings, listingFindings, List.forall_mem_append, check_forall] at fields
  obtain ⟨⟨⟨⟨listed, -⟩, -⟩, -⟩, -⟩ := fields
  obtain ⟨⟨⟨⟨⟨⟨⟨title, description⟩, price⟩, -⟩, placed⟩, manager⟩, phone⟩, -⟩ := listed
  have holds {failed : Prop} (absent : failed → true = false) : ¬ failed := fun fails => by cases absent fails
  refine ⟨holds title, holds description, not_not.mp (holds price), ?_, holds manager, holds phone,
    fun verified tag required => required_provided none verified required⟩
  by_cases seller : sellerAddressId listing (db.relations settings.toFeedSettings listing).placement
      (db.relations settings.toFeedSettings listing).mapping = []
  · exact .inr fun empty => holds placed ⟨seller, empty⟩
  · exact .inl seller

end Passed

/-! ## The advertisement -/

def AvitoAd.Has (ad : AvitoAd) (tag : Text) (kind : Text → Prop) : Prop := ∃ field ∈ ad.fields, field.1.name = tag ∧ kind field.2

theorem mem_optionalField {tag : FieldTag} {value : Text} {field : FieldTag × Text} :
    field ∈ optionalField tag value ↔ value ≠ [] ∧ field = (tag, value) := by
  unfold optionalField
  by_cases empty : value = []
  · simp [empty]
  · simp [empty]

section Fields

variable (settings : FeedSettings) (listing : Listing) (relations : Relations)

def leadingFields : List (FieldTag × Text) := (feedAd settings listing relations).fields.take 7

variable {settings listing relations}

variable {field : FieldTag × Text}

theorem mem_fields : field ∈ (feedAd settings listing relations).fields ↔
    field ∈ leadingFields settings listing relations ∨
    field ∈ optionalField ⟨"ProductType".toList, by decide⟩ (getProductType relations.mapping relations.spec) ∨
    field ∈ optionalField ⟨"SparePartType".toList, by decide⟩ (getSparePartType relations.mapping relations.spec) ∨
    (∃ pair ∈ getPartSubtype settings.taxonomy relations.spec relations.category, field ∈ optionalField pair.1 pair.2) ∨
    field ∈ optionalField ⟨"Brand".toList, by decide⟩ relations.brand ∨
    field ∈ optionalField ⟨"OEM".toList, by decide⟩ (getOem listing.product) ∨
    field ∈ addPlacement listing relations ∨
    field ∈ [((⟨"Condition".toList, by decide⟩ : FieldTag), conditionText listing.product.condition),
      (⟨"AllowEmail".toList, by decide⟩, "Нет".toList)] := by
  have subtype : field ∈ ((getPartSubtype settings.taxonomy relations.spec relations.category).map fun pair =>
        optionalField pair.1 pair.2).getD [] ↔
      ∃ pair ∈ getPartSubtype settings.taxonomy relations.spec relations.category, field ∈ optionalField pair.1 pair.2 := by
    cases getPartSubtype settings.taxonomy relations.spec relations.category with
    | none => simp
    | some => simp
  rw [← subtype]
  unfold leadingFields feedAd
  simp only [List.cons_append, List.nil_append, List.take_succ_cons, List.take_zero, List.mem_append, List.mem_cons, or_assoc,
    List.not_mem_nil, false_or]

def leadingNames : List Text :=
  ["Id".toList, "Title".toList, "Description".toList, "Price".toList, "Category".toList, "AdType".toList, "GoodsType".toList]

theorem leadingFields_names : (leadingFields settings listing relations).map (fun field => field.1.name) = leadingNames := rfl

theorem subtype_name {category : Option CatalogCategory} {spec : Spec} {taxonomy : Taxonomy} {pair : FieldTag × Text}
    (found : getPartSubtype taxonomy spec category = some pair) : "SparePartType".toList.isSuffixOf pair.1.name = true := by
  obtain ⟨tag, is, same⟩ := Option.map_eq_some_iff.mp found
  have subtype := List.find?_some is
  rw [isSubtype, Bool.and_eq_true] at subtype
  have name : pair.1 = tag := by
    rw [← same]
    cases category with
    | none => rfl
    | some =>
      dsimp only
      split <;> rfl
  rw [name]
  exact subtype.1

theorem mem_addPlacement (mem : field ∈ addPlacement listing relations) :
    field.1.name ∈ ["SellerAddressID".toList, "Address".toList, "ManagerName".toList, "ContactPhone".toList] := by
  have names (tag : FieldTag) (value : Text) (inside : field ∈ optionalField tag value) : field.1.name = tag.name := by
    rw [(mem_optionalField.mp inside).2]
  simp only [addPlacement, List.mem_append] at mem
  rcases mem with (seller | manager) | phone
  · split at seller
    · rw [names _ _ seller]
      decide
    · rw [List.mem_singleton.mp seller]
      exact List.mem_cons_self
  · rw [names _ _ manager]
    decide
  · rw [names _ _ phone]
    decide

theorem leading_of_name (mem : field ∈ (feedAd settings listing relations).fields)
    (name : field.1.name ∈ leadingNames) : field ∈ leadingFields settings listing relations := by
  have optional (tag : FieldTag) (value : Text) (other : tag.name ∉ leadingNames) (inside : field ∈ optionalField tag value) : False := by
    rw [(mem_optionalField.mp inside).2] at name
    exact other name
  rcases mem_fields.mp mem with leading | product | spare | ⟨_, found, inside⟩ | brand | oem | placed | last
  · exact leading
  · exact (optional _ _ (by decide) product).elim
  · exact (optional _ _ (by decide) spare).elim
  · have suffix := subtype_name found
    have none : leadingNames.all (fun other => !"SparePartType".toList.isSuffixOf other) = true := by decide
    refine (optional _ _ (fun there => ?_) inside).elim
    have not := List.all_eq_true.mp none _ there
    rw [suffix] at not
    cases not
  · exact (optional _ _ (by decide) brand).elim
  · exact (optional _ _ (by decide) oem).elim
  · have apart : ∀ other ∈ ["SellerAddressID".toList, "Address".toList, "ManagerName".toList, "ContactPhone".toList],
        other ∉ leadingNames := by decide
    exact absurd name (apart _ (mem_addPlacement placed))
  · have apart : "Condition".toList ∉ leadingNames ∧ "AllowEmail".toList ∉ leadingNames := by decide
    rcases List.mem_cons.mp last with rfl | rest
    · exact absurd name apart.1
    · rw [List.mem_singleton.mp rest] at name
      exact absurd name apart.2

theorem has_leading {tag : FieldTag} {value : Text} {kind : Text → Prop} (mem : (tag, value) ∈ leadingFields settings listing relations) :
    (feedAd settings listing relations).Has tag.name kind ↔ kind value := by
  constructor
  · rintro ⟨field, there, name, holds⟩
    have own : field.1.name ∈ leadingNames := by
      rw [name, ← @leadingFields_names settings listing relations]
      exact List.mem_map_of_mem (f := fun field : FieldTag × Text => field.1.name) mem
    have keys : ((leadingFields settings listing relations).map fun field => field.1.name).Nodup := by
      rw [leadingFields_names]
      decide
    have same : field = (tag, value) := row_unique keys (leading_of_name there own) mem name
    rw [same] at holds
    exact holds
  · exact fun holds => ⟨(tag, value), mem_fields.mpr (.inl mem), rfl, holds⟩

theorem has_optional {tag : FieldTag} {value : Text} (filled : value ≠ [])
    (sub : ∀ field ∈ optionalField tag value, field ∈ (feedAd settings listing relations).fields) :
    (feedAd settings listing relations).Has tag.name (· ≠ []) :=
  ⟨(tag, value), sub _ (mem_optionalField.mpr ⟨filled, rfl⟩), rfl, filled⟩

end Fields

/-! ## The context of the feed -/

def FeedBuildContext.answered (settings : FeedSettings) (db : FeedDatabase) (context : FeedBuildContext)
    (listings : List Listing) : FeedBuildContext :=
  listings.foldl (fun context listing => (context.relations settings db listing).2) context

def feedContext (settings : FeedSettings) (db : FeedDatabase) (batches : List (List Listing)) : FeedBuildContext :=
  batches.foldl (fun context batch => (context.prepareBatch db batch).answered settings db batch) FeedBuildContext.empty

def buildFeedAd (settings : FeedSettings) (db : FeedDatabase) (context : FeedBuildContext) (listing : Listing) : AvitoAd :=
  feedAd settings listing (context.relations settings db listing).1

section Context

variable {settings : FeedSettings} {db : FeedDatabase}

theorem answered_covers {batch listings : List Listing} {context : FeedBuildContext} (sub : listings ⊆ batch)
    (sound : context.Sound settings db) (covers : ∀ listing ∈ batch, context.Covers db listing) :
    (context.answered settings db listings).Sound settings db ∧
      ∀ listing ∈ batch, (context.answered settings db listings).Covers db listing := by
  unfold FeedBuildContext.answered
  induction listings generalizing context with
  | nil => exact ⟨sound, covers⟩
  | cons first _ ih =>
    obtain ⟨mem, sub⟩ := List.cons_subset.mp sub
    obtain ⟨-, later, kept⟩ := FeedBuildContext.relations_eq sound (covers first mem)
    exact ih sub later fun listing inside => kept.covers (covers listing inside)

theorem feedContext_sound (batches : List (List Listing)) : (feedContext settings db batches).Sound settings db := by
  have run (context : FeedBuildContext) (sound : context.Sound settings db) :
      (batches.foldl (fun context batch => (context.prepareBatch db batch).answered settings db batch) context).Sound settings db := by
    induction batches generalizing context with
    | nil => exact sound
    | cons batch _ ih =>
      obtain ⟨prepared, covers⟩ := @FeedBuildContext.prepareBatch_ready settings db context batch sound
      exact ih _ (answered_covers (List.Subset.refl batch) prepared covers).1
  exact run _ .empty

theorem buildFeedAd_eq (earlier : List (List Listing)) (before after : List Listing) (listing : Listing) :
    buildFeedAd settings db
        (((feedContext settings db earlier).prepareBatch db (before ++ listing :: after)).answered settings db before) listing =
      resolvedAd settings db listing := by
  obtain ⟨prepared, covers⟩ := @FeedBuildContext.prepareBatch_ready settings db _ (before ++ listing :: after)
    (feedContext_sound earlier)
  obtain ⟨sound, covered⟩ := answered_covers (List.subset_append_left before (listing :: after)) prepared covers
  have answer := FeedBuildContext.relations_eq sound (covered listing (List.mem_append_right _ List.mem_cons_self))
  rw [buildFeedAd, answer.1, resolvedAd]

end Context

/-! ## Preflight and feed -/

section Publication

variable (settings : PublicationSettings) (db : FeedDatabase) (listing : Listing)

/-- What a publishable advertisement has. The provider infers the compatible cars by itself, and an identifier of the seller
stands for an address. -/
structure Published (ad : AvitoAd) : Prop where
  title : ad.Has "Title".toList (· ≠ [])
  description : ad.Has "Description".toList (· ≠ [])
  price : ad.Has "Price".toList fun text => ∃ n : ℕ, 0 < n ∧ text = (toString n).toList
  placed : ad.Has "SellerAddressID".toList (· ≠ []) ∨ ad.Has "Address".toList (· ≠ [])
  manager : ad.Has "ManagerName".toList (· ≠ [])
  phone : ad.Has "ContactPhone".toList (· ≠ [])
  required : schemaVerified settings db listing = true → ∀ tag ∈ requiredFields settings db listing, tag ≠ "CompatibleCars".toList →
    ad.Has tag (· ≠ []) ∨ (tag = "Address".toList ∧ ad.Has "SellerAddressID".toList (· ≠ []))

/-- The texts keep more than marks when they are cut, the price is a rouble at least, and a verified schema that requires the
category finds one in the leaf or in the mapping. -/
structure FeedReady : Prop where
  title : KeepsLetter (strip (orText listing.title listing.product.name)) avitoTitleMaxLength
  description : KeepsLetter (strip (orText listing.descriptionAi listing.product.description1c)) avitoDescriptionMaxLength
  price : 100 ≤ listing.priceOnListing.units
  category : schemaVerified settings db listing = true → "Category".toList ∈ requiredFields settings db listing →
    (db.relations settings.toFeedSettings listing).spec.fixedValue "Category".toList = [] →
      ∀ mapping ∈ db.getCategoryMapping listing, mapping.categoryTarget ≠ []

variable {settings db listing}

theorem getAvitoCategory_ne_nil (mapping : Option CategoryMapping) (spec : Spec) :
    getAvitoCategory mapping spec ≠ [] ↔
      (spec.fixedValue "Category".toList = [] → ∀ row ∈ mapping, row.categoryTarget ≠ []) := by
  have general : "Запчасти и аксессуары".toList ≠ [] := by decide
  unfold getAvitoCategory orText
  generalize "Запчасти и аксессуары".toList = default at *
  generalize spec.fixedValue "Category".toList = fixed
  by_cases empty : fixed = []
  · rw [if_pos empty]
    cases mapping with
    | none => simp [general]
    | some => simp [empty]
  · simp [empty]

theorem firstValue_ne_nil {values : List Text} {last : Text} (filled : strip last ≠ []) : firstValue (values ++ [last]) ≠ [] := by
  unfold firstValue
  cases found : ((values ++ [last]).map strip).find? fun text => decide (text ≠ []) with
  | none =>
    have empty := List.find?_eq_none.mp found (strip last) (List.mem_map_of_mem (List.mem_append_right _ List.mem_cons_self))
    exact absurd filled (by simpa using empty)
  | some =>
    have hit := List.find?_some found
    simpa using hit

theorem leading_filled (relations : Relations) :
    listing.publishIdempotencyKey.str ≠ [] ∧ adTypeText listing ≠ [] ∧ getGoodsType relations.mapping relations.spec ≠ [] ∧
      conditionText listing.product.condition ≠ [] := by
  refine ⟨fun empty => ?_, ?_, firstValue_ne_nil (by decide), ?_⟩
  · have length := congrArg List.length empty
    simp [Uuid.str] at length
  · unfold adTypeText orText
    split
    · decide
    next filled => exact filled
  · unfold conditionText
    split <;> decide

theorem mem_provided {name value tag : Text} (mem : tag ∈ if value = [] then [] else [name]) : value ≠ [] ∧ tag = name := by
  by_cases empty : value = []
  · rw [if_pos empty] at mem
    exact absurd mem List.not_mem_nil
  · rw [if_neg empty] at mem
    exact ⟨empty, List.mem_singleton.mp mem⟩

theorem has_provided (ready : FeedReady settings db listing)
    (passed : Passed settings db listing (db.relations settings.toFeedSettings listing))
    (verified : schemaVerified settings db listing = true) {tag : Text} (required : tag ∈ requiredFields settings db listing)
    (provided : tag ∈ providedTags settings db listing) (cars : tag ≠ "CompatibleCars".toList) (address : tag ≠ "Address".toList) :
    (resolvedAd settings.toFeedSettings db listing).Has tag (· ≠ []) := by
  obtain ⟨key, adType, goods, condition⟩ := @leading_filled listing (db.relations settings.toFeedSettings listing)
  have leading {name : FieldTag} {value : Text} (filled : value ≠ [])
      (mem : (name, value) ∈ leadingFields settings.toFeedSettings listing (db.relations settings.toFeedSettings listing)) :
      (resolvedAd settings.toFeedSettings db listing).Has name.name (· ≠ []) := (has_leading mem).mpr filled
  simp only [providedTags, List.mem_append] at provided
  rcases provided with ((((always | product) | spare) | brand) | oem) | subtype
  · simp only [feedAlwaysOrProviderInferredTags, List.mem_cons, List.not_mem_nil, or_false] at always
    rcases always with rfl | rfl | rfl | rfl | rfl | rfl | rfl | rfl | rfl | rfl
    · exact leading key (.head _)
    · exact leading ((limitMarketplaceText_ne_nil _ passed.title).mpr ready.title) (.tail _ (.head _))
    · exact leading ((limitMarketplaceText_ne_nil _ passed.description).mpr ready.description) (.tail _ (.tail _ (.head _)))
    · obtain ⟨n, -, shown⟩ := (priceText_positive passed.price).mpr ready.price
      have filled : priceText listing.priceOnListing ≠ [] := by
        rw [shown, Nat.toString_eq_repr, Nat.toList_repr]
        exact Nat.toDigits_ne_nil
      exact leading filled (.tail _ (.tail _ (.tail _ (.head _))))
    · have filled := (getAvitoCategory_ne_nil (db.getCategoryMapping listing)
        (db.relations settings.toFeedSettings listing).spec).mpr (ready.category verified required)
      exact leading filled (.tail _ (.tail _ (.tail _ (.tail _ (.head _)))))
    · exact leading goods (.tail _ (.tail _ (.tail _ (.tail _ (.tail _ (.tail _ (.head _)))))))
    · exact leading adType (.tail _ (.tail _ (.tail _ (.tail _ (.tail _ (.head _))))))
    · refine ⟨(⟨"Condition".toList, by decide⟩, conditionText listing.product.condition), mem_fields.mpr ?_, rfl, condition⟩
      exact .inr (.inr (.inr (.inr (.inr (.inr (.inr List.mem_cons_self))))))
    · exact absurd rfl address
    · exact absurd rfl cars
  · obtain ⟨filled, rfl⟩ := mem_provided product
    exact @has_optional _ _ _ ⟨"ProductType".toList, by decide⟩ _ filled fun _ mem => mem_fields.mpr (.inr (.inl mem))
  · obtain ⟨filled, rfl⟩ := mem_provided spare
    exact @has_optional _ _ _ ⟨"SparePartType".toList, by decide⟩ _ filled fun _ mem => mem_fields.mpr (.inr (.inr (.inl mem)))
  · obtain ⟨filled, rfl⟩ := mem_provided brand
    exact @has_optional _ _ _ ⟨"Brand".toList, by decide⟩ _ filled fun _ mem =>
      mem_fields.mpr (.inr (.inr (.inr (.inr (.inl mem)))))
  · obtain ⟨filled, rfl⟩ := mem_provided oem
    exact @has_optional _ _ _ ⟨"OEM".toList, by decide⟩ _ filled fun _ mem =>
      mem_fields.mpr (.inr (.inr (.inr (.inr (.inr (.inl mem))))))
  · cases found : getPartSubtype settings.taxonomy (db.relations settings.toFeedSettings listing).spec
        (db.relations settings.toFeedSettings listing).category with
    | none =>
      rw [found] at subtype
      exact absurd subtype List.not_mem_nil
    | some pair =>
      rw [found] at subtype
      obtain ⟨filled, rfl⟩ := mem_provided subtype
      exact has_optional filled fun _ mem => mem_fields.mpr (.inr (.inr (.inr (.inl ⟨pair, found, mem⟩))))

/-- After a preflight without errors, the advertisement that the feed writes is publishable exactly when the listing is ready. -/
theorem preflight_published (settings : PublicationSettings) (db : FeedDatabase) (account : AccountState)
    (earlier : List (List Listing)) (before after : List Listing) (listing : Listing)
    (passes : (avitoPublicationPreflight settings db account listing).1 = []) :
    Published settings db listing (buildFeedAd settings.toFeedSettings db
        (((feedContext settings.toFeedSettings db earlier).prepareBatch db (before ++ listing :: after)).answered
          settings.toFeedSettings db before) listing) ↔ FeedReady settings db listing := by
  rw [buildFeedAd_eq]
  have passed := passed passes
  have title := @has_leading settings.toFeedSettings listing (db.relations settings.toFeedSettings listing)
    ⟨"Title".toList, by decide⟩ _ (· ≠ []) (.tail _ (.head _))
  have description := @has_leading settings.toFeedSettings listing (db.relations settings.toFeedSettings listing)
    ⟨"Description".toList, by decide⟩ _ (· ≠ []) (.tail _ (.tail _ (.head _)))
  have price := @has_leading settings.toFeedSettings listing (db.relations settings.toFeedSettings listing)
    ⟨"Price".toList, by decide⟩ _ (fun text => ∃ n : ℕ, 0 < n ∧ text = (toString n).toList) (.tail _ (.tail _ (.tail _ (.head _))))
  have category := @has_leading settings.toFeedSettings listing (db.relations settings.toFeedSettings listing)
    ⟨"Category".toList, by decide⟩ _ (· ≠ []) (.tail _ (.tail _ (.tail _ (.tail _ (.head _)))))
  constructor
  · intro published
    refine ⟨?_, ?_, ?_, fun verified required => ?_⟩
    · exact (limitMarketplaceText_ne_nil _ passed.title).mp (title.mp published.title)
    · exact (limitMarketplaceText_ne_nil _ passed.description).mp (description.mp published.description)
    · exact (priceText_positive passed.price).mp (price.mp published.price)
    · rcases published.required verified _ required (by decide) with has | ⟨address, -⟩
      · exact (getAvitoCategory_ne_nil (db.getCategoryMapping listing) _).mp (category.mp has)
      · exact absurd address (by decide)
  · intro ready
    have placement {field : FieldTag × Text} (mem : field ∈ addPlacement listing (db.relations settings.toFeedSettings listing)) :
        field ∈ (resolvedAd settings.toFeedSettings db listing).fields :=
      mem_fields.mpr (.inr (.inr (.inr (.inr (.inr (.inr (.inl mem)))))))
    have placed : (resolvedAd settings.toFeedSettings db listing).Has "SellerAddressID".toList (· ≠ []) ∨
        (resolvedAd settings.toFeedSettings db listing).Has "Address".toList (· ≠ []) := by
      by_cases empty : sellerAddressId listing (db.relations settings.toFeedSettings listing).placement
          (db.relations settings.toFeedSettings listing).mapping = []
      · have address := passed.placed.resolve_left (not_not.mpr empty)
        refine .inr (@has_optional _ _ _ ⟨"Address".toList, by decide⟩ _ address fun field mem => placement ?_)
        rw [addPlacement, if_pos empty]
        exact List.mem_append_left _ (List.mem_append_left _ mem)
      · refine .inl ⟨(⟨"SellerAddressID".toList, by decide⟩, _), placement ?_, rfl, empty⟩
        rw [addPlacement, if_neg empty]
        exact List.mem_append_left _ (List.mem_append_left _ List.mem_cons_self)
    refine ⟨title.mpr ?_, description.mpr ?_, price.mpr ?_, placed, ?_, ?_, fun verified tag required cars => ?_⟩
    · exact (limitMarketplaceText_ne_nil _ passed.title).mpr ready.title
    · exact (limitMarketplaceText_ne_nil _ passed.description).mpr ready.description
    · exact (priceText_positive passed.price).mpr ready.price
    · refine @has_optional _ _ _ ⟨"ManagerName".toList, by decide⟩ _ passed.manager fun field mem => placement ?_
      exact List.mem_append_left _ (List.mem_append_right _ mem)
    · refine @has_optional _ _ _ ⟨"ContactPhone".toList, by decide⟩ _ passed.phone fun field mem => placement ?_
      exact List.mem_append_right _ mem
    · by_cases address : tag = "Address".toList
      · rcases placed with seller | other
        · exact .inr ⟨address, seller⟩
        · exact .inl (address ▸ other)
      · exact .inl (has_provided ready passed verified required (passed.required verified tag required) cars address)

end Publication

/-! ## A price below one rouble -/

/-- A listing with a title, a description, an address and contacts, for this price. -/
def pricedListing (price : Numeric 12 2) : Listing :=
  { titledListing "A".toList with
    account := ⟨1, [], [], "A".toList, "A".toList, "1".toList⟩
    descriptionAi := "A".toList
    priceOnListing := price }

def barePublication : PublicationSettings where
  __ := bareSettings
  schemaHttp _ := none
  brandSuggestions _ := []

def activeAccount : AccountState := ⟨true, none⟩

theorem preflight_published_rouble :
    Published barePublication bareDatabase (pricedListing ⟨100, by decide⟩) (buildFeedAd barePublication.toFeedSettings bareDatabase
        (((feedContext barePublication.toFeedSettings bareDatabase []).prepareBatch bareDatabase
          [pricedListing ⟨100, by decide⟩]).answered barePublication.toFeedSettings bareDatabase [])
        (pricedListing ⟨100, by decide⟩)) ↔
      FeedReady barePublication bareDatabase (pricedListing ⟨100, by decide⟩) :=
  preflight_published barePublication bareDatabase activeAccount [] [] [] (pricedListing ⟨100, by decide⟩) (by decide +kernel)

/-- Half a rouble passes the preflight, and the feed shows the price "0". -/
theorem preflight_published_kopecks :
    (avitoPublicationPreflight barePublication bareDatabase activeAccount (pricedListing ⟨50, by decide⟩)).1 = [] ∧
      ¬ Published barePublication bareDatabase (pricedListing ⟨50, by decide⟩) (buildFeedAd barePublication.toFeedSettings bareDatabase
        (((feedContext barePublication.toFeedSettings bareDatabase []).prepareBatch bareDatabase
          [pricedListing ⟨50, by decide⟩]).answered barePublication.toFeedSettings bareDatabase [])
        (pricedListing ⟨50, by decide⟩)) := by
  refine ⟨by decide +kernel, fun published => ?_⟩
  have same := @buildFeedAd_eq barePublication.toFeedSettings bareDatabase [] [] [] (pricedListing ⟨50, by decide⟩)
  have price := published.price
  rw [List.nil_append] at same
  rw [same] at price
  have leading := @has_leading barePublication.toFeedSettings (pricedListing ⟨50, by decide⟩)
    (bareDatabase.relations barePublication.toFeedSettings (pricedListing ⟨50, by decide⟩)) ⟨"Price".toList, by decide⟩ _
    (fun text => ∃ n : ℕ, 0 < n ∧ text = (toString n).toList) (.tail _ (.tail _ (.tail _ (.head _))))
  have rouble := (priceText_positive (by decide)).mp (leading.mp price)
  exact absurd rouble (by decide)

end MapBackend.Marketplaces.Avito
