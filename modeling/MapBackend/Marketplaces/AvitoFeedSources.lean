import MapBackend.Core.PublicUrl
import MapBackend.Library.Numeric
import MapBackend.Library.Xml
import Mathlib.Data.List.Sort

/-!
The rows that an Avito feed is built from and the values that the adapter resolves for an advertisement.
-/

namespace MapBackend.Marketplaces.Avito
open MapBackend.Core MapBackend.Core.Url MapBackend.Library

/-! ## Rows -/

/-- A value of a JSON object. What is neither a text nor a list is known by its truth and its `str`. -/
inductive JsonValue where
  | null
  | text (value : Text)
  | list (items : List (Option Text)) (shown : Text)
  | other (truthy : Bool) (shown : Text)
  deriving DecidableEq

def JsonValue.str : JsonValue → Text
  | .null => []
  | .text value => value
  | .list items shown => if items.isEmpty then [] else shown
  | .other truthy shown => if truthy then shown else []

/-- The texts of the items, without `None`, where a value that is no list is one item. -/
def JsonValue.items : JsonValue → List Text
  | .null => []
  | .text value => [strip value]
  | .list items _ => items.filterMap fun item => item.map strip
  | .other _ shown => [strip shown]

abbrev JsonObject := List (Text × JsonValue)

def JsonObject.get (object : JsonObject) (key : Text) : JsonValue :=
  ((object.find? fun pair => decide (pair.1 = key)).map Prod.snd).getD .null

structure FieldTag where
  name : Text
  named : Xml.isName name = true
  deriving DecidableEq

inductive DependencyAction where
  | visible | hidden | required
  deriving DecidableEq

inductive PairClause where
  | empty | filled | value
  deriving DecidableEq

structure DependencyPair where
  tag : Text
  clause : PairClause
  values : List Text

structure Dependency where
  action : DependencyAction
  /-- The clause `or`; the other one is `and`. -/
  disjunctive : Bool
  pairs : List DependencyPair

structure FieldRule where
  required : Bool
  dependencies : List Dependency

/-- A leaf of the Avito tree, as `avito_field_specs.json` and `avito_field_rules.json` describe it. -/
structure Leaf where
  slug : Text
  name : Text
  path : List Text
  fixed : List (Text × Text)
  required : List FieldTag
  fieldRules : List (Text × List FieldRule)

/-- The part of a leaf that the feed uses; an empty one for a category without a leaf. -/
structure Spec where
  slug : Text
  fixed : List (Text × Text)
  required : List FieldTag
  fieldRules : List (Text × List FieldRule)

def Spec.empty : Spec := ⟨[], [], [], []⟩

def Leaf.spec (leaf : Leaf) : Spec := ⟨leaf.slug, leaf.fixed, leaf.required, leaf.fieldRules⟩

/-- The data files of the adapter: the leaves of the tree, `ROOT_TO_AVITO` and `LEAF_TO_AVITO`. -/
structure Taxonomy where
  leaves : List Leaf
  rootToAvito : List (Text × Text)
  leafToAvito : List (Text × Text)

/-- What the builder reads outside the rows: settings, the storage and the catalogues. -/
structure FeedSettings where
  ycCdnDomain : Text
  /-- The default storage has a bucket. -/
  isS3 : Bool
  storageUrl : Text → Text
  taxonomy : Taxonomy
  brands : List Text
  normalizeBrandName : Text → Text

structure CategoryMapping where
  tenant : ℕ
  categorySource : Text
  categoryTarget : Text
  attributesMap : JsonObject

structure CatalogCategory where
  id : ℕ
  name : Text
  parent : Option ℕ
  externalId : Text
  defaultImageS3Key : Text

structure PlacementAddress where
  id : ℕ
  account : ℕ
  sellerAddressId : Text
  address : Text
  managerName : Text
  contactPhone : Text
  isDefault : Bool
  isActive : Bool

structure ProductImage where
  id : ℕ
  product : ℕ
  s3Key : Text
  urlSource : Text
  isPrimary : Bool
  position : ℕ
  /-- A status of `PUBLISHABLE_IMAGE_STATUSES`. -/
  publishable : Bool
  /-- The key of the active processed variant. -/
  activeVariant : Option Text

structure Product where
  id : ℕ
  name : Text
  description1c : Text
  brand : Text
  condition : Text
  oemNumbers : List Text
  category1c : Text
  catalogCategory : Option ℕ

structure Account where
  id : ℕ
  externalId : Text
  defaultSellerAddressId : Text
  defaultAddress : Text
  defaultManagerName : Text
  defaultContactPhone : Text

abbrev Uuid := BitVec 128

structure Listing where
  tenant : ℕ
  product : Product
  account : Account
  title : Text
  descriptionAi : Text
  priceOnListing : Numeric 12 2
  publishIdempotencyKey : Uuid
  adType : Text
  placementAddress : Option ℕ
  bulkPlacementAddress : Option ℕ
  addressOverride : Text
  sellerAddressIdOverride : Text
  managerNameOverride : Text
  contactPhoneOverride : Text
  bulkAddress : Text
  bulkSellerAddressId : Text
  bulkManagerName : Text
  bulkContactPhone : Text

def climb (parentOf : CatalogCategory → Option CatalogCategory) : ℕ → CatalogCategory → Option CatalogCategory
  | 0, category => some category
  | n + 1, category => (parentOf category).bind (climb parentOf n)

structure FeedDatabase where
  categoryMappings : List CategoryMapping
  categories : List CatalogCategory
  addresses : List PlacementAddress
  images : List ProductImage
  mappingKeys : (categoryMappings.map fun row => (row.tenant, row.categorySource)).Nodup
  categoryKeys : (categories.map CatalogCategory.id).Nodup
  addressKeys : (addresses.map PlacementAddress.id).Nodup
  /-- The way up from a category ends. -/
  rooted : ∀ category ∈ categories,
    climb (fun child => categories.find? fun row => decide (some row.id = child.parent)) categories.length category = none

namespace FeedDatabase

variable (db : FeedDatabase)

def mapping (tenant : ℕ) (source : Text) : Option CategoryMapping :=
  db.categoryMappings.find? fun row => decide ((row.tenant, row.categorySource) = (tenant, source))

def category (id : ℕ) : Option CatalogCategory := db.categories.find? fun row => decide (row.id = id)

def address (id : ℕ) : Option PlacementAddress := db.addresses.find? fun row => decide (row.id = id)

def defaultAddress (account : ℕ) : Option PlacementAddress :=
  db.addresses.find? fun row => decide (row.account = account ∧ row.isActive = true ∧ row.isDefault = true)

def parentOf (category : CatalogCategory) : Option CatalogCategory := category.parent.bind db.category

def imageOrder (a b : ProductImage) : Prop :=
  (a.isPrimary = true ∧ b.isPrimary = false) ∨
    (a.isPrimary = b.isPrimary ∧ (a.position < b.position ∨ (a.position = b.position ∧ a.id ≤ b.id)))

instance (a b : ProductImage) : Decidable (imageOrder a b) :=
  inferInstanceAs (Decidable ((a.isPrimary = true ∧ b.isPrimary = false) ∨
    (a.isPrimary = b.isPrimary ∧ (a.position < b.position ∨ (a.position = b.position ∧ a.id ≤ b.id)))))

def publishableImages (product : ℕ) : List ProductImage :=
  (db.images.filter fun image => image.product == product && image.publishable).insertionSort imageOrder

def feedImages (product : ℕ) : List ProductImage := (db.publishableImages product).take 10

end FeedDatabase

end MapBackend.Marketplaces.Avito
