import MapBackend.Library.Caches
import MapBackend.Library.ElementTree
import MapBackend.Marketplaces.AvitoFeedValues

/-!
The feed builder: relations are loaded for a batch of listings at a time, each listing becomes one `Ad` element, and
every chunk of text goes through a writer that counts and hashes what the sink has taken.
-/

namespace MapBackend.Marketplaces.Avito
open MapBackend.Core MapBackend.Core.Url MapBackend.Library

/-! ## The build context -/

structure FeedBuildContext where
  categoryMappings : Dict (ℕ × Text) CategoryMapping
  mappingTenantsLoaded : List ℕ
  categories : Dict ℕ CatalogCategory
  categorySpecs : Dict ℕ Spec
  addresses : Dict ℕ PlacementAddress
  defaultAddresses : Dict ℕ (Option PlacementAddress)
  imagesByProduct : Dict ℕ (List ProductImage)
  brandLookups : Dict Text BrandLookup

def mappingSources (product : Product) (category : Option CatalogCategory) : List Text :=
  (if product.category1c = [] then [] else [product.category1c]) ++ (category.map CatalogCategory.name).toList

namespace FeedDatabase

variable (db : FeedDatabase)

def categoryOf (product : Product) : Option CatalogCategory := product.catalogCategory.bind db.category

def getCategoryMapping (listing : Listing) : Option CategoryMapping :=
  (mappingSources listing.product (db.categoryOf listing.product)).findSome? fun source => db.mapping listing.tenant source

/-- `_resolve_avito_spec` over the rows of the database. -/
def specOf (taxonomy : Taxonomy) (category : CatalogCategory) : Spec :=
  resolveAvitoSpec taxonomy db.categories.length category db.parentOf

end FeedDatabase

namespace FeedBuildContext

def empty : FeedBuildContext := ⟨Dict.empty, [], Dict.empty, Dict.empty, Dict.empty, Dict.empty, Dict.empty, Dict.empty⟩

variable (db : FeedDatabase) (listings : List Listing) (context : FeedBuildContext)

def mappingKey (row : CategoryMapping) : ℕ × Text := (row.tenant, row.categorySource)

def loadCategoryMappings : FeedBuildContext :=
  let missing := (listings.map Listing.tenant).filter fun tenant => !context.mappingTenantsLoaded.contains tenant
  { context with
    categoryMappings := Dict.fill mappingKey (db.categoryMappings.filter fun row => missing.contains row.tenant)
      context.categoryMappings
    mappingTenantsLoaded := context.mappingTenantsLoaded ++ missing }

/-- `_load_categories`: the categories of the products and, round after round, their missing parents. -/
def loadCategories : FeedBuildContext :=
  let wanted := (listings.filterMap fun listing => listing.product.catalogCategory).filter fun id => (context.categories id).isNone
  { context with
    categories := Dict.load CatalogCategory.id CatalogCategory.parent db.categories (db.categories.length + 1) wanted
      context.categories }

def placementIds (listing : Listing) : List ℕ := listing.placementAddress.toList ++ listing.bulkPlacementAddress.toList

def registerDefault (accounts : List ℕ) (defaults : Dict ℕ (Option PlacementAddress)) (row : PlacementAddress) :
    Dict ℕ (Option PlacementAddress) :=
  if row.account ∈ accounts ∧ row.isActive = true ∧ row.isDefault = true ∧ (defaults row.account).isNone = true then
    defaults.set row.account (some row)
  else defaults

def loadAddresses : FeedBuildContext :=
  let explicit := (listings.flatMap placementIds).filter fun id => (context.addresses id).isNone
  let accounts := (listings.map fun listing => listing.account.id).filter fun id => (context.defaultAddresses id).isNone
  let rows := db.addresses.filter fun row =>
    explicit.contains row.id || (accounts.contains row.account && row.isActive && row.isDefault)
  { context with
    addresses := Dict.fill PlacementAddress.id rows context.addresses
    defaultAddresses := accounts.foldl (fun defaults id => defaults.setdefault id none)
      (rows.foldl (registerDefault accounts) context.defaultAddresses) }

def loadImages : FeedBuildContext :=
  { context with
    imagesByProduct := (listings.map fun listing => listing.product.id).foldl
      (fun images product => images.set product (db.feedImages product)) Dict.empty }

def prepareBatch : FeedBuildContext :=
  let context := { context with
    categories := Dict.empty, categorySpecs := Dict.empty, addresses := Dict.empty, defaultAddresses := Dict.empty }
  let context := loadCategoryMappings db listings context
  let context := loadCategories db listings context
  let context := loadAddresses db listings context
  loadImages db listings context

def categoryFor (listing : Listing) : Option CatalogCategory := listing.product.catalogCategory.bind context.categories

def parentOf (category : CatalogCategory) : Option CatalogCategory := category.parent.bind context.categories

def categoryMapping (listing : Listing) : Option CategoryMapping :=
  if listing.tenant ∈ context.mappingTenantsLoaded then
    (mappingSources listing.product (context.categoryFor listing)).findSome? fun source =>
      context.categoryMappings (listing.tenant, source)
  else db.getCategoryMapping listing

def avitoSpec (taxonomy : Taxonomy) (listing : Listing) : Spec × FeedBuildContext :=
  match context.categoryFor listing with
  | none => (Spec.empty, context)
  | some category =>
    match context.categorySpecs category.id with
    | some spec => (spec, context)
    | none =>
      let spec := resolveAvitoSpec taxonomy db.categories.length category context.parentOf
      (spec, { context with categorySpecs := context.categorySpecs.set category.id spec })

def placementSources (listing : Listing) : Placement where
  manual := listing.placementAddress.bind context.addresses
  bulk := listing.bulkPlacementAddress.bind context.addresses
  account := (context.defaultAddresses listing.account.id).join

def imagesFor (product : Product) : List ProductImage :=
  (context.imagesByProduct product.id).getD (db.publishableImages product.id)

end FeedBuildContext

/-- `_brand_is_required`: the rules of the leaf read the mapping and the category from the database. -/
def brandIsRequired (settings : FeedSettings) (db : FeedDatabase) (listing : Listing) (spec : Spec) : Bool :=
  (requiredAvitoFields spec (dependencyFieldValues settings.taxonomy listing (db.getCategoryMapping listing)
    (db.categoryOf listing.product) spec)).contains "Brand".toList

/-- `_get_brand` with the lookups of earlier listings. -/
def FeedBuildContext.brandFor (settings : FeedSettings) (db : FeedDatabase) (context : FeedBuildContext) (listing : Listing)
    (spec : Spec) : Text × FeedBuildContext :=
  let brand := strip listing.product.brand
  if brand = [] then ([], context)
  else
    match context.brandLookups brand with
    | some lookup => (brandText (brandIsRequired settings db listing spec) brand lookup, context)
    | none =>
      let lookup := lookupBrand settings brand
      (brandText (brandIsRequired settings db listing spec) brand lookup,
        { context with brandLookups := context.brandLookups.set brand lookup })

/-- What the context answers for a listing, and the context with the answers that it keeps. -/
def FeedBuildContext.relations (settings : FeedSettings) (db : FeedDatabase) (context : FeedBuildContext) (listing : Listing) :
    Relations × FeedBuildContext :=
  let mapping := context.categoryMapping db listing
  let (spec, context) := context.avitoSpec db settings.taxonomy listing
  let category := context.categoryFor listing
  let placement := context.placementSources listing
  let (brand, context) := context.brandFor settings db listing spec
  (⟨mapping, spec, category, placement, brand, context.imagesFor db listing.product⟩, context)

/-! ## The elements -/

def imagesElement (urls : List Text) : List Xml.Element :=
  if urls.isEmpty then []
  else [.mk "Images".toList [] [] (urls.map fun url => .mk "Image".toList [("url".toList, url)] [] [] []) []]

def AvitoAd.element (ad : AvitoAd) : Xml.Element :=
  .mk "Ad".toList [] [] (ad.fields.map (fun field => .leaf field.1.name field.2) ++ imagesElement ad.images) []

def AvitoAd.text (ad : AvitoAd) : Text := (ad.element.indent Url.isSpace [' ', ' '] 1).tostring

/-! ## Writing -/

inductive FeedError where
  | invalidCeiling
  | payloadSizeExceeded
  | incompleteChunk
  deriving DecidableEq

abbrev Accepts := ByteArray → ByteArray → ℕ

/-- `_HashingBoundedWriter`: `hashed` are the bytes that went into the digest. -/
structure HashingBoundedWriter where
  sink : ByteArray
  sizeBytes : ℕ
  hashed : ByteArray

structure FeedWriteResult where
  listingCount : ℕ
  sizeBytes : ℕ
  payloadSha256 : ByteArray

def utf8 (text : Text) : ByteArray := (String.ofList text).toUTF8

structure FeedProgress where
  writer : HashingBoundedWriter
  context : FeedBuildContext
  listingCount : ℕ

section Write

variable (accepts : Accepts) (maxBytes : Option ℤ)

def HashingBoundedWriter.write (writer : HashingBoundedWriter) (text : Text) : Except FeedError HashingBoundedWriter := do
  let chunk := utf8 text
  let nextSize := writer.sizeBytes + chunk.size
  raiseIf (∃ limit ∈ maxBytes, limit < nextSize) .payloadSizeExceeded
  let written := accepts writer.sink chunk
  raiseIf (written ≠ chunk.size) .incompleteChunk
  pure ⟨writer.sink ++ chunk.extract 0 written, nextSize, writer.hashed ++ chunk⟩

/-- `_batched`, with the batch that is being collected. -/
def batched {A : Type} (size : ℕ) : List A → List A → List (List A)
  | batch, [] => if batch.isEmpty then [] else [batch]
  | batch, item :: rest =>
    if (batch ++ [item]).length = size then (batch ++ [item]) :: batched size [] rest else batched size (batch ++ [item]) rest

def xmlHeader : Text := "<?xml version='1.0' encoding='UTF-8'?>\n".toList
def adsStart : Text := "<Ads formatVersion=\"3\" target=\"Avito.ru\">\n".toList
def adsEnd : Text := "</Ads>".toList

variable (settings : FeedSettings) (db : FeedDatabase)

def writeListing (progress : FeedProgress) (listing : Listing) : Except FeedError FeedProgress := do
  let (relations, context) := progress.context.relations settings db listing
  let ad := feedAd settings listing relations
  let writer ← progress.writer.write accepts maxBytes [' ', ' ']
  let writer ← writer.write accepts maxBytes ad.text
  let writer ← writer.write accepts maxBytes ['\n']
  pure ⟨writer, context, progress.listingCount + 1⟩

def writeBatch (progress : FeedProgress) (batch : List Listing) : Except FeedError FeedProgress :=
  batch.foldlM (writeListing accepts maxBytes settings db)
    { progress with context := progress.context.prepareBatch db batch }

/-- `write_feed`: the result and what the sink holds afterwards. -/
def writeFeed (sha256 : ByteArray → ByteArray) (batchSize : ℕ) (listings : List Listing) (sink : ByteArray) :
    Except FeedError (FeedWriteResult × ByteArray) := do
  raiseIf (∃ limit ∈ maxBytes, limit < 1) .invalidCeiling
  let writer ← HashingBoundedWriter.write accepts maxBytes ⟨sink, 0, ByteArray.empty⟩ xmlHeader
  let writer ← writer.write accepts maxBytes adsStart
  let progress ← (batched batchSize [] listings).foldlM (writeBatch accepts maxBytes settings db)
    ⟨writer, FeedBuildContext.empty, 0⟩
  let writer ← progress.writer.write accepts maxBytes adsEnd
  pure (⟨progress.listingCount, writer.sizeBytes, sha256 writer.hashed⟩, writer.sink)

end Write

def feedBuildBatchSize : ℕ := 500

end MapBackend.Marketplaces.Avito
