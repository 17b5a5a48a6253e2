import MapBackend.Marketplaces.AvitoFeedSources

/-!
The values of one advertisement, resolved from a listing and the rows that belong to it, in the order of the
priorities of the adapter.
-/

namespace MapBackend.Marketplaces.Avito
open MapBackend.Core MapBackend.Core.Url MapBackend.Library

def orText (a b : Text) : Text := if a = [] then b else a

def firstValue (values : List Text) : Text := ((values.map strip).find? fun text => decide (text ≠ [])).getD []

def column {R : Type} (row : Option R) (read : R → Text) : Text := (row.map read).getD []

def attributesOf (mapping : Option CategoryMapping) : JsonObject := (mapping.map CategoryMapping.attributesMap).getD []

/-! ## Texts -/

def avitoTitleMaxLength : ℕ := 200
def avitoDescriptionMaxLength : ℕ := 7500

def isMark (c : Char) : Bool := c == ' ' || c == ',' || c == ';' || c == ':' || c == '-'

def lastBreak (text : Text) : Option ℕ :=
  (text.reverse.findIdx? fun c => c == '\n' || c == ' ').map fun behind => text.length - 1 - behind

def limitMarketplaceText (value : Text) (maxLength : ℕ) : Text :=
  let text := strip value
  if text.length ≤ maxLength then text
  else
    let shortened := text.take (maxLength + 1)
    match lastBreak shortened with
    | some boundary =>
      if maxLength * 4 / 5 ≤ boundary then rstrip isMark (shortened.take boundary) else rstrip isMark (text.take maxLength)
    | none => rstrip isMark (text.take maxLength)

def hexDigit (value : BitVec 4) : Char := Nat.digitChar value.toNat

def hexDigits (key : Uuid) (first count : ℕ) : Text :=
  (List.range count).map fun i => hexDigit (key.extractLsb' (4 * (31 - (first + i))) 4)

def Uuid.str (key : Uuid) : Text :=
  hexDigits key 0 8 ++ '-' :: (hexDigits key 8 4 ++ '-' :: (hexDigits key 12 4 ++ '-' :: (hexDigits key 16 4 ++
    '-' :: hexDigits key 20 12)))

def priceText (price : Numeric 12 2) : Text := (toString (price.units.tdiv 100)).toList

def conditionText (condition : Text) : Text :=
  if condition = "used".toList ∨ condition = "refurbished".toList then "Б/у".toList else "Новое".toList

/-! ## The category -/

namespace Taxonomy

variable (taxonomy : Taxonomy)

def lookup (table : List (Text × Text)) (key : Text) : Option Text :=
  (table.find? fun pair => decide (pair.1 = key)).map Prod.snd

/-- `leaf_spec_by_slug().get`: the last leaf with the slug. -/
def leafSpecBySlug (slug : Text) : Option Leaf := taxonomy.leaves.reverse.find? fun leaf => decide (leaf.slug = slug)

def secondaryBranches : List Text :=
  ["Для грузовиков и спецтехники".toList, "Для мототехники".toList, "Для водного транспорта".toList]

def isSecondaryBranch (leaf : Leaf) : Bool := secondaryBranches.any fun branch => leaf.path.contains branch

/-- `leaf_spec_by_name().get`: the first leaf with the name, unless only a later one is in the main branch. -/
def leafSpecByName (name : Text) : Option Leaf :=
  (taxonomy.leaves.filter fun leaf => leaf.name == name).foldl
    (fun current leaf =>
      match current with
      | none => some leaf
      | some kept => if isSecondaryBranch kept && !isSecondaryBranch leaf then some leaf else some kept)
    none

def resolveAvitoSlug (categoryName parentName : Text) : Option Text :=
  ((lookup taxonomy.leafToAvito (strip categoryName)).orElse fun _ =>
    lookup taxonomy.rootToAvito (strip categoryName)).orElse fun _ => lookup taxonomy.rootToAvito (strip parentName)

def avitoSpecFor (categoryName parentName : Text) : Option Leaf :=
  (taxonomy.resolveAvitoSlug categoryName parentName).bind taxonomy.leafSpecBySlug

end Taxonomy

def ancestry (parentOf : CatalogCategory → Option CatalogCategory) : ℕ → CatalogCategory → List CatalogCategory
  | 0, _ => []
  | steps + 1, category => category :: ((parentOf category).map (ancestry parentOf steps)).getD []

/-- `_resolve_avito_spec`; the steps suffice for the way up from any category. -/
def resolveAvitoSpec (taxonomy : Taxonomy) (steps : ℕ) (category : CatalogCategory)
    (parentOf : CatalogCategory → Option CatalogCategory) : Spec :=
  let nodes := ancestry parentOf steps category
  let leaf := (taxonomy.avitoSpecFor category.name (column (parentOf category) CatalogCategory.name)).orElse fun _ =>
    (nodes.findSome? fun node => taxonomy.leafSpecBySlug node.externalId).orElse fun _ =>
      nodes.findSome? fun node => taxonomy.leafSpecByName node.name
  (leaf.map Leaf.spec).getD Spec.empty

def Spec.fixedValue (spec : Spec) (tag : Text) : Text := (Taxonomy.lookup spec.fixed tag).getD []

section Values

variable (mapping : Option CategoryMapping) (spec : Spec)

/-- A value of the category mapping under either spelling of its key, or the fixed value of the leaf. -/
def mappedValue (tag key : Text) : List Text :=
  [((attributesOf mapping).get tag).str, ((attributesOf mapping).get key).str, spec.fixedValue tag]

def getAvitoCategory : Text :=
  orText (spec.fixedValue "Category".toList)
    ((mapping.map CategoryMapping.categoryTarget).getD "Запчасти и аксессуары".toList)

def getGoodsType : Text := firstValue (mappedValue mapping spec "GoodsType".toList "goods_type".toList ++ ["Запчасти".toList])

def getProductType : Text := firstValue (mappedValue mapping spec "ProductType".toList "product_type".toList)

def getSparePartType : Text := firstValue (mappedValue mapping spec "SparePartType".toList "spare_part_type".toList)

end Values

def isSubtype (tag : FieldTag) : Bool :=
  "SparePartType".toList.isSuffixOf tag.name && tag.name != "SparePartType".toList

/-- `_get_part_subtype`: a category below the leaf names the subtype of the part. -/
def getPartSubtype (taxonomy : Taxonomy) (spec : Spec) (category : Option CatalogCategory) : Option (FieldTag × Text) :=
  (spec.required.find? isSubtype).map fun tag =>
    match category with
    | none => (tag, [])
    | some category =>
      let leafName := (taxonomy.leafSpecBySlug spec.slug).map Leaf.name
      if category.externalId = spec.slug ∨ (category.externalId = [] ∧ some category.name = leafName) then (tag, [])
      else (tag, category.name)

def oemValues (product : Product) : List Text :=
  (product.oemNumbers.map strip).foldl (fun values value => if value.isEmpty || values.contains value then values else values ++ [value]) []

/-- `_get_oem`: the first number that the feed accepts. -/
def getOem (product : Product) : Text :=
  ((oemValues product).find? fun value =>
    value.all (fun c => decide (c.toNat < 128)) && !(value.filter (· != '-')).isEmpty &&
      (value.filter (· != '-')).all Char.isAlphanum && decide (value.length ≤ 50)).getD []

/-! ## The brand -/

def adTypeText (listing : Listing) : Text := orText listing.adType "Товар приобретен на продажу".toList

/-- `_dependency_field_values`: a later entry stands before an earlier one with the same key. -/
def dependencyFieldValues (taxonomy : Taxonomy) (listing : Listing) (mapping : Option CategoryMapping)
    (category : Option CatalogCategory) (spec : Spec) : JsonObject :=
  ((getPartSubtype taxonomy spec category).map fun pair => (pair.1.name, JsonValue.text pair.2)).toList ++
  [("AdType".toList, .text (adTypeText listing)),
    ("Brand".toList, .text (strip listing.product.brand)),
    ("Category".toList, .text (getAvitoCategory mapping spec)),
    ("Condition".toList, .text (conditionText listing.product.condition)),
    ("GoodsType".toList, .text (getGoodsType mapping spec)),
    ("OEM".toList, .text (getOem listing.product)),
    ("ProductType".toList, .text (getProductType mapping spec)),
    ("SparePartType".toList, .text (getSparePartType mapping spec))] ++
  attributesOf mapping ++ spec.fixed.map fun pair => (pair.1, .text pair.2)

def DependencyPair.holds (pair : DependencyPair) (values : JsonObject) : Bool :=
  let normalized := (values.get pair.tag).items
  let filled := normalized.any fun text => !text.isEmpty
  match pair.clause with
  | .empty => !filled
  | .filled => filled
  | .value => normalized.any pair.values.contains

def Dependency.holds (dependency : Dependency) (values : JsonObject) : Bool :=
  !dependency.pairs.isEmpty &&
    if dependency.disjunctive then dependency.pairs.any (·.holds values) else dependency.pairs.all (·.holds values)

def FieldRule.isVisible (rule : FieldRule) (values : JsonObject) : Bool :=
  let visible := rule.dependencies.filter fun dependency => dependency.action == .visible
  let hidden := rule.dependencies.filter fun dependency => dependency.action == .hidden
  (visible.isEmpty || visible.any (·.holds values)) && !hidden.any (·.holds values)

def FieldRule.requires (rule : FieldRule) (values : JsonObject) : Bool :=
  rule.isVisible values &&
    (rule.required || (rule.dependencies.filter fun dependency => dependency.action == .required).any (·.holds values))

def requiredAvitoFields (spec : Spec) (values : JsonObject) : List Text :=
  spec.fieldRules.foldl
    (fun ordered entry =>
      if entry.2.any (·.requires values) then if ordered.contains entry.1 then ordered else ordered ++ [entry.1]
      else ordered.erase entry.1)
    (spec.required.map FieldTag.name)

structure BrandLookup where
  known : Bool
  canonical : Option Text

def lookupBrand (settings : FeedSettings) (brand : Text) : BrandLookup :=
  let catalog := settings.brands.filter fun name => settings.normalizeBrandName name != []
  let normalized := settings.normalizeBrandName brand
  if catalog.isEmpty then ⟨true, none⟩
  else if normalized = [] then ⟨false, none⟩
  else
    match catalog.find? fun name => decide (settings.normalizeBrandName name = normalized) with
    | some canonical => ⟨true, some canonical⟩
    | none => ⟨false, none⟩

def brandText (required : Bool) (brand : Text) (lookup : BrandLookup) : Text :=
  if lookup.known then orText (lookup.canonical.getD []) brand else if required then brand else []

/-! ## Placement and photos -/

structure Placement where
  manual : Option PlacementAddress
  bulk : Option PlacementAddress
  account : Option PlacementAddress

def placementValue (placement : Placement) (mapping : Option CategoryMapping) (read : PlacementAddress → Text)
    (override bulk key tag default : Text) : Text :=
  firstValue [column placement.manual read, override, column placement.bulk read, bulk, ((attributesOf mapping).get key).str,
    ((attributesOf mapping).get tag).str, column placement.account read, default]

section Placed

variable (listing : Listing) (placement : Placement) (mapping : Option CategoryMapping)

/-- `get_placement_fields`: the identifier of the account is no address. -/
def sellerAddressId : Text :=
  let id := placementValue placement mapping PlacementAddress.sellerAddressId listing.sellerAddressIdOverride
    listing.bulkSellerAddressId "seller_address_id".toList "SellerAddressID".toList listing.account.defaultSellerAddressId
  if id = listing.account.externalId then [] else id

def addressText : Text :=
  placementValue placement mapping PlacementAddress.address listing.addressOverride listing.bulkAddress "address".toList
    "Address".toList listing.account.defaultAddress

def managerName : Text :=
  placementValue placement mapping PlacementAddress.managerName listing.managerNameOverride listing.bulkManagerName
    "manager_name".toList "ManagerName".toList listing.account.defaultManagerName

def contactPhone : Text :=
  placementValue placement mapping PlacementAddress.contactPhone listing.contactPhoneOverride listing.bulkContactPhone
    "contact_phone".toList "ContactPhone".toList listing.account.defaultContactPhone

end Placed

def imageUrl (settings : FeedSettings) (s3Key fallback : Text) : Text :=
  if settings.ycCdnDomain ≠ [] ∧ s3Key ≠ [] ∧ settings.isS3 = true then
    "https://".toList ++ settings.ycCdnDomain ++ '/' :: s3Key
  else if s3Key ≠ [] then settings.storageUrl s3Key
  else fallback

def deliveryS3Key (image : ProductImage) : Text := image.activeVariant.getD image.s3Key

def published (url : Text) : Bool := "http".toList.isPrefixOf url

/-- `get_feed_image_urls`: the photo of the category stands in for missing ones. -/
def getFeedImageUrls (settings : FeedSettings) (images : List ProductImage) (category : Option CatalogCategory) : List Text :=
  let urls := (images.map fun image => imageUrl settings (deliveryS3Key image) image.urlSource).filter published
  let fallback := if (column category CatalogCategory.defaultImageS3Key) = [] then []
    else [imageUrl settings (column category CatalogCategory.defaultImageS3Key) []].filter published
  (if urls.isEmpty then fallback else urls).take 10

/-! ## The advertisement -/

structure Relations where
  mapping : Option CategoryMapping
  spec : Spec
  category : Option CatalogCategory
  placement : Placement
  brand : Text
  images : List ProductImage

/-- The texts of an advertisement in the order of the feed, and the addresses of its photos. -/
structure AvitoAd where
  fields : List (FieldTag × Text)
  images : List Text

def optionalField (tag : FieldTag) (value : Text) : List (FieldTag × Text) := if value = [] then [] else [(tag, value)]

def addPlacement (listing : Listing) (relations : Relations) : List (FieldTag × Text) :=
  let seller := sellerAddressId listing relations.placement relations.mapping
  (if seller = [] then
    optionalField ⟨"Address".toList, by decide⟩ (addressText listing relations.placement relations.mapping)
  else [(⟨"SellerAddressID".toList, by decide⟩, seller)]) ++
  optionalField ⟨"ManagerName".toList, by decide⟩ (managerName listing relations.placement relations.mapping) ++
  optionalField ⟨"ContactPhone".toList, by decide⟩ (contactPhone listing relations.placement relations.mapping)

def feedAd (settings : FeedSettings) (listing : Listing) (relations : Relations) : AvitoAd where
  fields :=
    [(⟨"Id".toList, by decide⟩, listing.publishIdempotencyKey.str),
      (⟨"Title".toList, by decide⟩, limitMarketplaceText (orText listing.title listing.product.name) avitoTitleMaxLength),
      (⟨"Description".toList, by decide⟩,
        limitMarketplaceText (orText listing.descriptionAi listing.product.description1c) avitoDescriptionMaxLength),
      (⟨"Price".toList, by decide⟩, priceText listing.priceOnListing),
      (⟨"Category".toList, by decide⟩, getAvitoCategory relations.mapping relations.spec),
      (⟨"AdType".toList, by decide⟩, adTypeText listing),
      (⟨"GoodsType".toList, by decide⟩, getGoodsType relations.mapping relations.spec)] ++
    optionalField ⟨"ProductType".toList, by decide⟩ (getProductType relations.mapping relations.spec) ++
    optionalField ⟨"SparePartType".toList, by decide⟩ (getSparePartType relations.mapping relations.spec) ++
    ((getPartSubtype settings.taxonomy relations.spec relations.category).map fun pair => optionalField pair.1 pair.2).getD [] ++
    optionalField ⟨"Brand".toList, by decide⟩ relations.brand ++
    optionalField ⟨"OEM".toList, by decide⟩ (getOem listing.product) ++
    addPlacement listing relations ++
    [(⟨"Condition".toList, by decide⟩, conditionText listing.product.condition),
      (⟨"AllowEmail".toList, by decide⟩, "Нет".toList)]
  images := getFeedImageUrls settings relations.images relations.category

end MapBackend.Marketplaces.Avito
