import MapBackend.Marketplaces.AvitoFeedContext
import Mathlib.Data.Char
import Mathlib.Data.List.Lex
import Mathlib.Data.Prod.Lex

/-!
Listings whose relations the ORM may have loaded before: a category with a part of its ancestors, explicit
placement addresses, the mappings of a tenant and the addresses of an account.
-/

namespace MapBackend.Marketplaces.Avito
open MapBackend.Core MapBackend.Core.Url MapBackend.Library

/-- The database with the names of the placement addresses. Its queries order texts by the collation of the database,
which is the order of the table; the adapter orders them by code points. -/
structure NamedDatabase extends FeedDatabase where
  addressName : ℕ → Text

/-- A category object. Its parent is loaded or not; a loaded parent may be missing. -/
inductive CategoryObject where
  | bare (row : CatalogCategory)
  | root (row : CatalogCategory)
  | under (row : CatalogCategory) (parent : CategoryObject)

namespace CategoryObject

def row : CategoryObject → CatalogCategory
  | .bare row | .root row | .under row _ => row

def Shows (db : FeedDatabase) : CategoryObject → Prop
  | .bare row => db.category row.id = some row
  | .root row => db.category row.id = some row ∧ row.parent = none
  | .under row parent => db.category row.id = some row ∧ row.parent = some parent.row.id ∧ parent.Shows db

end CategoryObject

/-- A listing with what the ORM has loaded of its relations: `none` is not loaded, `some none` is loaded and missing. The
last two are the prefetched rows of its tenant and of its account, in any order. -/
structure LoadedListing (db : NamedDatabase) where
  listing : Listing
  category : Option (Option CategoryObject)
  placementAddress : Option (Option PlacementAddress)
  bulkPlacementAddress : Option (Option PlacementAddress)
  categoryMappings : Option (List CategoryMapping)
  placementAddresses : Option (List PlacementAddress)
  categoryShown : ∀ loaded ∈ category, loaded.map CategoryObject.row = db.categoryOf listing.product ∧
    ∀ object ∈ loaded, object.Shows db.toFeedDatabase
  placementShown : ∀ loaded ∈ placementAddress, loaded = listing.placementAddress.bind db.address
  bulkShown : ∀ loaded ∈ bulkPlacementAddress, loaded = listing.bulkPlacementAddress.bind db.address
  mappingsShown : ∀ rows ∈ categoryMappings, rows.Perm (db.categoryMappings.filter fun row => row.tenant == listing.tenant)
  addressesShown : ∀ rows ∈ placementAddresses, rows.Perm (db.addresses.filter fun row => row.account == listing.account.id)

namespace NamedDatabase

variable (db : NamedDatabase)

def sortKey (row : PlacementAddress) : Text ×ₗ ℕ := toLex (db.addressName row.id, row.id)

def firstDefault (rows : List PlacementAddress) : Option PlacementAddress :=
  ((rows.filter fun row => row.isActive && row.isDefault).insertionSort fun a b => db.sortKey a ≤ db.sortKey b).head?

end NamedDatabase

/-! ## Specs of objects -/

section Resolve

variable {S : Type} (parentOf : S → CategoryObject → S × Option CategoryObject)

def walkUp (leafOf : CatalogCategory → Option Leaf) : ℕ → S → Option CategoryObject → S × Option Leaf
  | 0, s, _ => (s, none)
  | _ + 1, s, none => (s, none)
  | steps + 1, s, some node =>
    match leafOf node.row with
    | some leaf => (s, some leaf)
    | none =>
      let (s, parent) := parentOf s node
      walkUp leafOf steps s parent

/-- `_resolve_avito_spec` on objects; reading a parent may change the state of the reader. -/
def resolveObjectSpec (taxonomy : Taxonomy) (steps : ℕ) (s : S) (category : CategoryObject) : S × Spec :=
  let (s, parent) := parentOf s category
  match taxonomy.avitoSpecFor category.row.name (column (parent.map CategoryObject.row) CatalogCategory.name) with
  | some leaf => (s, leaf.spec)
  | none =>
    let (s, leaf) := walkUp parentOf (fun row => taxonomy.leafSpecBySlug row.externalId) steps s (some category)
    match leaf with
    | some leaf => (s, leaf.spec)
    | none =>
      let (s, leaf) := walkUp parentOf (fun row => taxonomy.leafSpecByName row.name) steps s (some category)
      (s, (leaf.map Leaf.spec).getD Spec.empty)

def ancestorsUp : ℕ → S → Option CategoryObject → S × List CatalogCategory
  | 0, s, _ => (s, [])
  | _ + 1, s, none => (s, [])
  | steps + 1, s, some node =>
    let (s, parent) := parentOf s node
    let (s, above) := ancestorsUp steps s parent
    (s, node.row :: above)

end Resolve

/-- What is resolved for a listing: its category and the ancestors, its mapping and spec, the sources of its placement, and the
address and the contacts that follow. -/
structure FeedAnswer where
  ancestors : List CatalogCategory
  mapping : Option CategoryMapping
  spec : Spec
  placement : Placement
  sellerAddressId : Text
  address : Text
  managerName : Text
  contactPhone : Text

/-- `get_placement_fields` and `get_contact_fields` on resolved sources. -/
def feedAnswer (listing : Listing) (ancestors : List CatalogCategory) (mapping : Option CategoryMapping) (spec : Spec)
    (placement : Placement) : FeedAnswer where
  ancestors
  mapping
  spec
  placement
  sellerAddressId := sellerAddressId listing placement mapping
  address := addressText listing placement mapping
  managerName := managerName listing placement mapping
  contactPhone := contactPhone listing placement mapping

/-! ## The plain resolvers -/

namespace LoadedListing

variable {db : NamedDatabase} (loaded : LoadedListing db)

/-- `getattr(listing.product, 'catalog_category')`. -/
def catalogCategory : Option CategoryObject :=
  loaded.category.getD ((db.categoryOf loaded.listing.product).map .bare)

def parentObject (db : FeedDatabase) : CategoryObject → Option CategoryObject
  | .bare row => (db.parentOf row).map .bare
  | .root _ => none
  | .under _ parent => some parent

def getCategoryMapping : Option CategoryMapping :=
  let sources := mappingSources loaded.listing.product (loaded.catalogCategory.map CategoryObject.row)
  match loaded.categoryMappings with
  | some rows =>
    let bySource := Dict.fill CategoryMapping.categorySource rows Dict.empty
    sources.findSome? bySource
  | none => sources.findSome? fun source => db.mapping loaded.listing.tenant source

def avitoSpec (taxonomy : Taxonomy) : Spec :=
  match loaded.catalogCategory with
  | none => Spec.empty
  | some category =>
    (resolveObjectSpec (fun _ node => ((), parentObject db.toFeedDatabase node)) taxonomy db.categories.length () category).2

def getAccountDefaultAddress : Option PlacementAddress :=
  match loaded.placementAddresses with
  | some rows => db.firstDefault rows
  | none => db.defaultAddress loaded.listing.account.id

def placement : Placement where
  manual := loaded.placementAddress.getD (loaded.listing.placementAddress.bind db.address)
  bulk := loaded.bulkPlacementAddress.getD (loaded.listing.bulkPlacementAddress.bind db.address)
  account := loaded.getAccountDefaultAddress

def answer (taxonomy : Taxonomy) : FeedAnswer :=
  feedAnswer loaded.listing
    (ancestorsUp (fun _ node => ((), parentObject db.toFeedDatabase node)) db.categories.length () loaded.catalogCategory).2
    loaded.getCategoryMapping (loaded.avitoSpec taxonomy) loaded.placement

end LoadedListing

/-! ## The build context -/

/-- `_FeedBuildContext` without the images and the brands. -/
structure LoadedContext where
  categoryMappings : Dict (ℕ × Text) CategoryMapping
  mappingTenantsLoaded : List ℕ
  categories : Dict ℕ CategoryObject
  categorySpecs : Dict ℕ Spec
  addresses : Dict ℕ PlacementAddress
  defaultAddresses : Dict ℕ (Option PlacementAddress)

/-- `_register_category`, with the first parent that is missing. -/
def registerCategory (categories : Dict ℕ CategoryObject) : CategoryObject → Dict ℕ CategoryObject × Option ℕ
  | .bare row =>
    let categories := categories.setdefault row.id (.bare row)
    (categories, row.parent.filter fun parent => (categories parent).isNone)
  | .root row => (categories.setdefault row.id (.root row), none)
  | .under row parent => registerCategory (categories.setdefault row.id (.under row parent)) parent

namespace LoadedContext
open FeedBuildContext (mappingKey registerDefault)

def empty : LoadedContext := ⟨Dict.empty, [], Dict.empty, Dict.empty, Dict.empty, Dict.empty⟩

variable {db : NamedDatabase}

def registerMappings (context : LoadedContext) (loaded : LoadedListing db) : LoadedContext :=
  if context.mappingTenantsLoaded.contains loaded.listing.tenant then context
  else
    match loaded.categoryMappings with
    | none => context
    | some rows =>
      { context with
        categoryMappings := Dict.fill mappingKey rows context.categoryMappings
        mappingTenantsLoaded := loaded.listing.tenant :: context.mappingTenantsLoaded }

def loadCategoryMappings (batch : List (LoadedListing db)) (context : LoadedContext) : LoadedContext :=
  let context := batch.foldl registerMappings context
  let missing := (batch.map fun loaded => loaded.listing.tenant).filter fun tenant => !context.mappingTenantsLoaded.contains tenant
  { context with
    categoryMappings := Dict.fill mappingKey (db.categoryMappings.filter fun row => missing.contains row.tenant)
      context.categoryMappings
    mappingTenantsLoaded := context.mappingTenantsLoaded ++ missing }

def wantCategory (state : Dict ℕ CategoryObject × List ℕ) (loaded : LoadedListing db) : Dict ℕ CategoryObject × List ℕ :=
  match loaded.category with
  | some none => state
  | some (some object) =>
    let (categories, missing) := registerCategory state.1 object
    (categories, missing.toList ++ state.2)
  | none => (state.1, loaded.listing.product.catalogCategory.toList ++ state.2)

/-- `_load_categories`: the wanted categories and, round after round, their missing parents. -/
def loadCategories (batch : List (LoadedListing db)) (context : LoadedContext) : LoadedContext :=
  let (categories, wanted) := batch.foldl wantCategory (context.categories, [])
  let pending := wanted.filter fun id => (categories id).isNone
  { context with
    categories := Dict.load (fun object => object.row.id) (fun object => object.row.parent) (db.categories.map .bare)
      (db.categories.length + 1) pending categories }

/-- What the loading of addresses collects: the addresses, the defaults, the identifiers to read and the accounts to read. -/
structure AddressState where
  addresses : Dict ℕ PlacementAddress
  defaults : Dict ℕ (Option PlacementAddress)
  explicit : List ℕ
  accounts : List ℕ

def wantAddress (state : AddressState) (loaded : Option (Option PlacementAddress)) (id : Option ℕ) : AddressState :=
  match loaded with
  | some none => state
  | some (some row) => { state with addresses := state.addresses.set row.id row }
  | none => { state with explicit := (id.toList.filter fun id => (state.addresses id).isNone) ++ state.explicit }

def wantDefault (state : AddressState) (loaded : LoadedListing db) : AddressState :=
  if (state.defaults loaded.listing.account.id).isSome then state
  else
    match loaded.placementAddresses with
    | some rows =>
      { state with
        defaults := state.defaults.set loaded.listing.account.id (db.firstDefault rows)
        addresses := Dict.fill PlacementAddress.id rows state.addresses }
    | none => { state with accounts := loaded.listing.account.id :: state.accounts }

def wantAddresses (state : AddressState) (loaded : LoadedListing db) : AddressState :=
  let state := wantAddress state loaded.placementAddress loaded.listing.placementAddress
  let state := wantAddress state loaded.bulkPlacementAddress loaded.listing.bulkPlacementAddress
  wantDefault state loaded

def loadAddresses (batch : List (LoadedListing db)) (context : LoadedContext) : LoadedContext :=
  let state := batch.foldl wantAddresses ⟨context.addresses, context.defaultAddresses, [], []⟩
  let rows := db.addresses.filter fun row =>
    state.explicit.contains row.id || (state.accounts.contains row.account && row.isActive && row.isDefault)
  { context with
    addresses := Dict.fill PlacementAddress.id rows state.addresses
    defaultAddresses := state.accounts.foldl (fun defaults id => defaults.setdefault id none)
      (rows.foldl (registerDefault state.accounts) state.defaults) }

def prepareBatch (context : LoadedContext) (batch : List (LoadedListing db)) : LoadedContext :=
  let context := { context with
    categories := Dict.empty, categorySpecs := Dict.empty, addresses := Dict.empty, defaultAddresses := Dict.empty }
  loadAddresses batch (loadCategories batch (loadCategoryMappings batch context))

def categoryFor (context : LoadedContext) (loaded : LoadedListing db) : LoadedContext × Option CategoryObject :=
  match loaded.category with
  | some none => (context, none)
  | some (some object) => ({ context with categories := (registerCategory context.categories object).1 }, some object)
  | none => (context, loaded.listing.product.catalogCategory.bind context.categories)

def parentOf (categories : Dict ℕ CategoryObject) : CategoryObject → Dict ℕ CategoryObject × Option CategoryObject
  | .bare row => (categories, row.parent.bind categories)
  | .root _ => (categories, none)
  | .under _ parent => ((registerCategory categories parent).1, some parent)

def categoryMapping (context : LoadedContext) (loaded : LoadedListing db) : LoadedContext × Option CategoryMapping :=
  if context.mappingTenantsLoaded.contains loaded.listing.tenant then
    let (context, category) := context.categoryFor loaded
    (context, (mappingSources loaded.listing.product (category.map CategoryObject.row)).findSome? fun source =>
      context.categoryMappings (loaded.listing.tenant, source))
  else (context, loaded.getCategoryMapping)

def avitoSpec (taxonomy : Taxonomy) (context : LoadedContext) (loaded : LoadedListing db) : LoadedContext × Spec :=
  let (context, category) := context.categoryFor loaded
  match category with
  | none => (context, Spec.empty)
  | some category =>
    match context.categorySpecs category.row.id with
    | some spec => (context, spec)
    | none =>
      let (categories, spec) := resolveObjectSpec parentOf taxonomy db.categories.length context.categories category
      ({ context with categories, categorySpecs := context.categorySpecs.set category.row.id spec }, spec)

def placementSources (context : LoadedContext) (loaded : LoadedListing db) : Placement where
  manual := loaded.placementAddress.getD (loaded.listing.placementAddress.bind context.addresses)
  bulk := loaded.bulkPlacementAddress.getD (loaded.listing.bulkPlacementAddress.bind context.addresses)
  account := (context.defaultAddresses loaded.listing.account.id).join

def answer (taxonomy : Taxonomy) (context : LoadedContext) (loaded : LoadedListing db) : LoadedContext × FeedAnswer :=
  let (context, mapping) := context.categoryMapping loaded
  let (context, spec) := context.avitoSpec taxonomy loaded
  let (context, category) := context.categoryFor loaded
  let (categories, ancestors) := ancestorsUp parentOf db.categories.length context.categories category
  ({ context with categories }, feedAnswer loaded.listing ancestors mapping spec (context.placementSources loaded))

def answers (taxonomy : Taxonomy) (context : LoadedContext) (listings : List (LoadedListing db)) : LoadedContext :=
  listings.foldl (fun context loaded => (context.answer taxonomy loaded).1) context

def build (taxonomy : Taxonomy) (batches : List (List (LoadedListing db))) : LoadedContext :=
  batches.foldl (fun context batch => (context.prepareBatch batch).answers taxonomy batch) empty

end LoadedContext

end MapBackend.Marketplaces.Avito
