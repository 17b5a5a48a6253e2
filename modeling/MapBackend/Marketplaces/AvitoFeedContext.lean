import MapBackend.Marketplaces.AvitoFeedBuilder

/-!
The caches of the build context never change what a listing gets: after its batch is prepared, the context answers for
every listing of the batch as the database does.
-/

namespace MapBackend.Marketplaces.Avito
open MapBackend.Core MapBackend.Core.Url MapBackend.Library

def FeedDatabase.relations (db : FeedDatabase) (settings : FeedSettings) (listing : Listing) : Relations :=
  let category := db.categoryOf listing.product
  let spec := (category.map (db.specOf settings.taxonomy)).getD Spec.empty
  let brand := strip listing.product.brand
  { mapping := db.getCategoryMapping listing
    spec
    category
    placement := ⟨listing.placementAddress.bind db.address, listing.bulkPlacementAddress.bind db.address,
      db.defaultAddress listing.account.id⟩
    brand := if brand = [] then [] else brandText (brandIsRequired settings db listing spec) brand (lookupBrand settings brand)
    images := db.feedImages listing.product.id }

namespace FeedBuildContext

variable {settings : FeedSettings} {db : FeedDatabase} {context : FeedBuildContext} {listing : Listing} {batch : List Listing}

structure Sound (settings : FeedSettings) (db : FeedDatabase) (context : FeedBuildContext) : Prop where
  mappings : context.categoryMappings.Agrees (Dict.find mappingKey db.categoryMappings)
  tenants : ∀ tenant ∈ context.mappingTenantsLoaded, ∀ source,
    context.categoryMappings (tenant, source) = db.mapping tenant source
  categories : context.categories.Agrees db.category
  specs : ∀ id spec, context.categorySpecs id = some spec → ∃ category, db.category id = some category ∧
    spec = db.specOf settings.taxonomy category
  addresses : context.addresses.Agrees db.address
  brands : ∀ brand lookup, context.brandLookups brand = some lookup → lookup = lookupBrand settings brand

structure Covers (db : FeedDatabase) (context : FeedBuildContext) (listing : Listing) : Prop where
  tenant : listing.tenant ∈ context.mappingTenantsLoaded
  category : ∀ id ∈ listing.product.catalogCategory, context.categories id = db.category id
  ancestors : ∀ id category, context.categories id = some category → ∀ parent ∈ category.parent,
    context.categories parent = db.category parent
  placement : ∀ id ∈ placementIds listing, context.addresses id = db.address id
  default : context.defaultAddresses listing.account.id = some (db.defaultAddress listing.account.id)
  images : context.imagesByProduct listing.product.id = some (db.feedImages listing.product.id)

/-! ## Preparing a batch -/

theorem Sound.empty : Sound settings db empty where
  mappings := Dict.agrees_empty _
  tenants _ mem := absurd mem List.not_mem_nil
  categories := Dict.agrees_empty _
  specs _ _ found := by cases found
  addresses := Dict.agrees_empty _
  brands _ _ found := by cases found

theorem loadCategoryMappings_tenants (mappings : context.categoryMappings.Agrees (Dict.find mappingKey db.categoryMappings))
    (tenants : ∀ tenant ∈ context.mappingTenantsLoaded, ∀ source,
      context.categoryMappings (tenant, source) = db.mapping tenant source) :
    ∀ tenant ∈ (loadCategoryMappings db batch context).mappingTenantsLoaded, ∀ source,
      (loadCategoryMappings db batch context).categoryMappings (tenant, source) = db.mapping tenant source := by
  intro tenant loaded source
  have agrees : (loadCategoryMappings db batch context).categoryMappings.Agrees (Dict.find mappingKey db.categoryMappings) :=
    mappings.fill db.mappingKeys (List.filter_subset_self _)
  refine agrees.eq ?_
  rcases List.mem_append.mp loaded with before | now
  · cases known : context.categoryMappings (tenant, source) with
    | some => exact .inl (Dict.isSome_fill (.inr (by rw [known]; rfl)))
    | none => exact .inr ((tenants tenant before source).symm.trans known)
  · cases found : Dict.find mappingKey db.categoryMappings (tenant, source) with
    | none => exact .inr rfl
    | some row =>
      obtain ⟨mem, same⟩ := Dict.key_of_find found
      refine .inl (Dict.isSome_fill (.inl ⟨row, List.mem_filter.mpr ⟨mem, ?_⟩, same⟩))
      have owner : row.tenant = tenant := congrArg Prod.fst same
      simpa [owner] using now

theorem registerDefault_apply {accounts : List ℕ} {account : ℕ} (asked : account ∈ accounts) (rows : List PlacementAddress)
    (defaults : Dict ℕ (Option PlacementAddress)) :
    rows.foldl (registerDefault accounts) defaults account =
      (defaults account).or ((rows.find? fun row =>
        decide (row.account = account ∧ row.isActive = true ∧ row.isDefault = true)).map some) := by
  induction rows generalizing defaults with
  | nil => simp
  | cons row _ ih =>
    rw [List.foldl_cons, ih, List.find?_cons]
    by_cases hit : row.account = account ∧ row.isActive = true ∧ row.isDefault = true
    · obtain ⟨rfl, active, default⟩ := hit
      cases known : defaults row.account with
      | none => simp [registerDefault, asked, active, default, known]
      | some => simp [registerDefault, known, active, default]
    · have kept : registerDefault accounts defaults row account = defaults account := by
        rw [registerDefault]
        split
        next registers =>
          refine Dict.set_other _ _ fun same => ?_
          exact hit ⟨same.symm, registers.2.1, registers.2.2.1⟩
        next => rfl
      rw [kept, decide_eq_false hit]

theorem foldl_setdefault_none {accounts : List ℕ} {account : ℕ} (defaults : Dict ℕ (Option PlacementAddress))
    (asked : account ∈ accounts ∨ (defaults account).isSome) :
    accounts.foldl (fun defaults id => defaults.setdefault id none) defaults account = some (defaults account).join := by
  induction accounts generalizing defaults with
  | nil =>
    obtain ⟨_, known⟩ := Option.isSome_iff_exists.mp (asked.resolve_left List.not_mem_nil)
    rw [List.foldl_nil, known]
    rfl
  | cons id _ ih =>
    have step : (defaults.setdefault id none account).join = (defaults account).join := by
      cases after : defaults.setdefault id none account with
      | none =>
        cases before : defaults account with
        | none => rfl
        | some =>
          have there := @Dict.isSome_setdefault _ _ _ defaults id account none (.inr (by rw [before]; rfl))
          rw [after] at there
          cases there
      | some =>
        rcases Dict.of_setdefault after with ⟨same, rfl⟩ | before
        · cases before : defaults account with
          | none => rfl
          | some =>
            have kept : defaults.setdefault id none = defaults := if_pos (by rw [← same, before]; rfl)
            rw [kept, before] at after
            rw [Option.some.inj after]
        · rw [before]
    rw [List.foldl_cons, ih _ ?_, step]
    rcases asked with mem | there
    · rcases List.mem_cons.mp mem with same | later
      · exact .inr (Dict.isSome_setdefault _ _ (.inl same))
      · exact .inl later
    · exact .inr (Dict.isSome_setdefault _ _ (.inr there))

theorem foldl_set_images (products : List ℕ) (images : Dict ℕ (List ProductImage)) (product : ℕ)
    (asked : product ∈ products ∨ images product = some (db.feedImages product)) :
    products.foldl (fun images product => images.set product (db.feedImages product)) images product =
      some (db.feedImages product) := by
  induction products generalizing images with
  | nil => exact asked.resolve_left List.not_mem_nil
  | cons first _ ih =>
    refine ih _ ?_
    by_cases same : product = first
    · subst same
      exact .inr (Dict.set_self _ _ _)
    · have kept : images.set first (db.feedImages first) product = images product := Dict.set_other _ _ same
      exact (asked.imp_left fun mem => (List.mem_cons.mp mem).resolve_left same).imp_right kept.trans

theorem find?_filter_of_imp {A : Type} {wanted kept : A → Bool} (imp : ∀ a, wanted a = true → kept a = true) (as : List A) :
    (as.filter kept).find? wanted = as.find? wanted := by
  rw [List.find?_filter]
  congr 1
  funext a
  cases hit : wanted a with
  | false => simp
  | true => simp [imp a hit]

theorem loadAddresses_default (fresh : context.defaultAddresses = Dict.empty) (mem : listing ∈ batch) :
    (loadAddresses db batch context).defaultAddresses listing.account.id = some (db.defaultAddress listing.account.id) := by
  have asked : listing.account.id ∈
      (batch.map fun listing => listing.account.id).filter fun id => (context.defaultAddresses id).isNone :=
    List.mem_filter.mpr ⟨List.mem_map_of_mem mem, by rw [fresh]; rfl⟩
  rw [loadAddresses]
  dsimp only
  rw [foldl_setdefault_none _ (.inl asked), registerDefault_apply asked, find?_filter_of_imp, fresh, FeedDatabase.defaultAddress]
  · cases db.addresses.find? _ <;> rfl
  · intro row hit
    obtain ⟨owner, active, default⟩ := of_decide_eq_true hit
    have inside := List.contains_iff_mem.mpr asked
    rw [owner, active, default, inside]
    exact Bool.or_true _

theorem prepareBatch_ready (sound : context.Sound settings db) :
    (prepareBatch db batch context).Sound settings db ∧ ∀ listing ∈ batch, (prepareBatch db batch context).Covers db listing := by
  have wantedClosing : Dict.Closing CatalogCategory.id CatalogCategory.parent db.categories
      ((batch.filterMap fun listing => listing.product.catalogCategory).filter fun id =>
        ((Dict.empty : Dict ℕ CatalogCategory) id).isNone) Dict.empty :=
    ⟨Dict.agrees_empty _, fun _ _ found => by cases found⟩
  have enough : Dict.missing CatalogCategory.id db.categories Dict.empty < db.categories.length + 1 :=
    Nat.lt_succ_of_le (List.length_filter_le _ _)
  obtain ⟨closing, settles⟩ := Dict.load_closing db.categoryKeys wantedClosing (fun _ _ => rfl) enough
  constructor
  · exact
    { mappings := sound.mappings.fill db.mappingKeys (List.filter_subset_self _)
      tenants := loadCategoryMappings_tenants sound.mappings sound.tenants
      categories := closing.agrees
      specs := fun _ _ found => by cases found
      addresses := (Dict.agrees_empty _).fill db.addressKeys (List.filter_subset_self _)
      brands := sound.brands }
  · intro listing mem
    exact
    { tenant := by
        by_cases known : listing.tenant ∈ context.mappingTenantsLoaded
        · exact List.mem_append_left _ known
        · exact List.mem_append_right _ (List.mem_filter.mpr ⟨List.mem_map_of_mem mem, by simpa using known⟩)
      category := by
        intro id own
        have wanted : id ∈ (batch.filterMap fun listing => listing.product.catalogCategory).filter fun id =>
            ((Dict.empty : Dict ℕ CatalogCategory) id).isNone :=
          List.mem_filter.mpr ⟨List.mem_filterMap.mpr ⟨listing, mem, own⟩, rfl⟩
        refine closing.agrees.eq ((settles id (.inr (.inl wanted))).imp_right fun rest => ?_)
        exact rest.resolve_left List.not_mem_nil
      ancestors := by
        intro id category found parent above
        refine closing.agrees.eq ((closing.settled id category found parent above).imp_right fun rest => ?_)
        exact rest.resolve_left List.not_mem_nil
      placement := by
        intro id own
        have agrees : (prepareBatch db batch context).addresses.Agrees db.address :=
          (Dict.agrees_empty _).fill db.addressKeys (List.filter_subset_self _)
        refine agrees.eq ?_
        cases found : db.address id with
        | none => exact .inr rfl
        | some row =>
          obtain ⟨row_mem, same⟩ := Dict.key_of_find found
          refine .inl (Dict.isSome_fill (.inl ⟨row, List.mem_filter.mpr ⟨row_mem, ?_⟩, same⟩))
          have asked : row.id ∈ (batch.flatMap placementIds).filter fun id => ((Dict.empty : Dict ℕ PlacementAddress) id).isNone :=
            List.mem_filter.mpr ⟨List.mem_flatMap.mpr ⟨listing, mem, same ▸ own⟩, rfl⟩
          exact Bool.or_eq_true_iff.mpr (.inl (List.contains_iff_mem.mpr asked))
      default := loadAddresses_default rfl mem
      images := foldl_set_images _ _ _ (.inl (List.mem_map_of_mem mem)) }

/-! ## The answers for a listing -/

theorem Covers.categoryFor (covers : context.Covers db listing) : context.categoryFor listing = db.categoryOf listing.product := by
  rw [FeedBuildContext.categoryFor, FeedDatabase.categoryOf]
  cases own : listing.product.catalogCategory with
  | none => rfl
  | some id => exact covers.category id own

theorem Covers.categoryMapping (covers : context.Covers db listing) (sound : context.Sound settings db) :
    context.categoryMapping db listing = db.getCategoryMapping listing := by
  rw [FeedBuildContext.categoryMapping, if_pos covers.tenant, covers.categoryFor, FeedDatabase.getCategoryMapping]
  congr 1
  funext source
  exact sound.tenants _ covers.tenant source

theorem Covers.placementSources (covers : context.Covers db listing) :
    context.placementSources listing = (db.relations settings listing).placement := by
  have read (own : Option ℕ) (sub : own.toList ⊆ placementIds listing) : own.bind context.addresses = own.bind db.address := by
    cases own with
    | none => rfl
    | some id => exact covers.placement id (sub List.mem_cons_self)
  rw [FeedBuildContext.placementSources, read _ (List.subset_append_left _ _), read _ (List.subset_append_right _ _),
    covers.default]
  rfl

theorem ancestry_eq (ancestors : ∀ id category, context.categories id = some category → ∀ parent ∈ category.parent,
      context.categories parent = db.category parent) {id : ℕ} {category : CatalogCategory}
    (loaded : context.categories id = some category) (steps : ℕ) :
    context.parentOf category = db.parentOf category ∧
      ancestry context.parentOf steps category = ancestry db.parentOf steps category := by
  have above : context.parentOf category = db.parentOf category := by
    rw [FeedBuildContext.parentOf, FeedDatabase.parentOf]
    cases points : category.parent with
    | none => rfl
    | some parent => exact ancestors id category loaded parent points
  refine ⟨above, ?_⟩
  induction steps generalizing id category with
  | zero => rfl
  | succ _ ih =>
    rw [ancestry, ancestry, above]
    cases found : db.parentOf category with
    | none => rfl
    | some parent =>
      obtain ⟨parentId, -, parent_loaded⟩ := Option.bind_eq_some_iff.mp (above.trans found)
      have next : context.parentOf parent = db.parentOf parent := by
        rw [FeedBuildContext.parentOf, FeedDatabase.parentOf]
        cases points : parent.parent with
        | none => rfl
        | some grandparent => exact ancestors parentId parent parent_loaded grandparent points
      rw [Option.map_some, Option.map_some, ih parent_loaded next]

theorem Covers.resolve (covers : context.Covers db listing) {id : ℕ} {category : CatalogCategory}
    (loaded : context.categories id = some category) (taxonomy : Taxonomy) :
    resolveAvitoSpec taxonomy db.categories.length category context.parentOf = db.specOf taxonomy category := by
  obtain ⟨above, nodes⟩ := ancestry_eq covers.ancestors loaded db.categories.length
  rw [FeedDatabase.specOf, resolveAvitoSpec, resolveAvitoSpec, above, nodes]

/-- What answering a listing may do to the context: it keeps a spec and a lookup. -/
structure Kept (before after : FeedBuildContext) : Prop where
  tenants : after.mappingTenantsLoaded = before.mappingTenantsLoaded
  categories : after.categories = before.categories
  addresses : after.addresses = before.addresses
  defaults : after.defaultAddresses = before.defaultAddresses
  images : after.imagesByProduct = before.imagesByProduct

theorem Kept.covers {after : FeedBuildContext} (kept : Kept context after) (covers : context.Covers db listing) :
    after.Covers db listing where
  tenant := kept.tenants ▸ covers.tenant
  category := kept.categories ▸ covers.category
  ancestors := kept.categories ▸ covers.ancestors
  placement := kept.addresses ▸ covers.placement
  default := kept.defaults ▸ covers.default
  images := kept.images ▸ covers.images

theorem avitoSpec_eq (sound : context.Sound settings db) (covers : context.Covers db listing) :
    (context.avitoSpec db settings.taxonomy listing).1 = (db.relations settings listing).spec ∧
      (context.avitoSpec db settings.taxonomy listing).2.Sound settings db ∧
      Kept context (context.avitoSpec db settings.taxonomy listing).2 := by
  have same : (db.relations settings listing).spec =
      ((db.categoryOf listing.product).map (db.specOf settings.taxonomy)).getD Spec.empty := rfl
  rw [same, ← covers.categoryFor, avitoSpec]
  cases own : context.categoryFor listing with
  | none => exact ⟨rfl, sound, rfl, rfl, rfl, rfl, rfl⟩
  | some category =>
    obtain ⟨id, -, loaded⟩ := Option.bind_eq_some_iff.mp own
    have row := sound.categories id category loaded
    obtain ⟨-, key⟩ := Dict.key_of_find row
    cases cached : context.categorySpecs category.id with
    | some spec =>
      obtain ⟨other, other_row, known⟩ := sound.specs _ spec cached
      have one : other = category := Option.some.inj (other_row.symm.trans (key ▸ row))
      simp only [cached]
      refine ⟨?_, sound, rfl, rfl, rfl, rfl, rfl⟩
      rw [known, one]
      rfl
    | none =>
      have resolved := covers.resolve loaded settings.taxonomy
      simp only [cached]
      refine ⟨resolved, ?_, rfl, rfl, rfl, rfl, rfl⟩
      refine { sound with specs := fun other spec found => ?_ }
      rcases Dict.of_set found with ⟨rfl, rfl⟩ | before
      · exact ⟨category, key ▸ row, resolved⟩
      · exact sound.specs other spec before

theorem brandFor_eq (sound : context.Sound settings db) (spec : Spec) :
    (context.brandFor settings db listing spec).1 =
        (if strip listing.product.brand = [] then []
          else brandText (brandIsRequired settings db listing spec) (strip listing.product.brand)
            (lookupBrand settings (strip listing.product.brand))) ∧
      (context.brandFor settings db listing spec).2.Sound settings db ∧
      Kept context (context.brandFor settings db listing spec).2 := by
  rw [brandFor]
  by_cases none : strip listing.product.brand = []
  · simp only [none, if_true]
    exact ⟨trivial, sound, rfl, rfl, rfl, rfl, rfl⟩
  · simp only [none, if_false]
    cases cached : context.brandLookups (strip listing.product.brand) with
    | some lookup =>
      rw [sound.brands _ lookup cached]
      exact ⟨rfl, sound, rfl, rfl, rfl, rfl, rfl⟩
    | none =>
      dsimp only
      refine ⟨rfl, { sound with brands := fun brand lookup found => ?_ }, rfl, rfl, rfl, rfl, rfl⟩
      rcases Dict.of_set found with ⟨rfl, rfl⟩ | before
      · rfl
      · exact sound.brands brand lookup before

theorem relations_eq (sound : context.Sound settings db) (covers : context.Covers db listing) :
    (context.relations settings db listing).1 = db.relations settings listing ∧
      (context.relations settings db listing).2.Sound settings db ∧
      Kept context (context.relations settings db listing).2 := by
  obtain ⟨spec_eq, spec_sound, spec_kept⟩ := avitoSpec_eq sound covers
  have spec_covers := spec_kept.covers covers
  rw [relations]
  generalize context.avitoSpec db settings.taxonomy listing = answer at *
  obtain ⟨spec, middle⟩ := answer
  obtain ⟨brand_eq, brand_sound, brand_kept⟩ := @brandFor_eq settings db middle listing spec_sound spec
  have images_eq : (middle.brandFor settings db listing spec).2.imagesFor db listing.product = db.feedImages listing.product.id := by
    rw [imagesFor, brand_kept.images, spec_covers.images]
    rfl
  dsimp only at *
  refine ⟨?_, brand_sound, brand_kept.tenants.trans spec_kept.tenants, brand_kept.categories.trans spec_kept.categories,
    brand_kept.addresses.trans spec_kept.addresses, brand_kept.defaults.trans spec_kept.defaults,
    brand_kept.images.trans spec_kept.images⟩
  rw [brand_eq, images_eq, covers.categoryMapping sound, spec_covers.categoryFor,
    @Covers.placementSources settings db _ listing spec_covers, spec_eq]
  rfl

end FeedBuildContext

end MapBackend.Marketplaces.Avito
