import MapBackend.Marketplaces.FeedIntents
import MapBackend.Products.SourceItems

/-!
The import of source records into the products of a catalogue: a record makes a product or writes one, alone or
with the other records of its page.
-/

namespace MapBackend.Products.Import
open MapBackend.Library MapBackend.Core MapBackend.Marketplaces

/-! ## Products -/

inductive BrandResolutionStatus where
  | unknown | source | catalog | manual | ambiguous
  deriving DecidableEq

structure BrandResolution where
  ref : Option ℕ
  status : BrandResolutionStatus
  confidence : ℚ
  sourceId : Text
  needsReview : Bool
  deriving DecidableEq

structure Product where
  pk : ℕ
  tenant : ℕ
  datasource : Option ℕ
  article : Text
  uuid1c : Option ℕ
  name : Text
  brand : Text
  brandResolution : BrandResolution
  category1c : Text
  condition : Text
  description1c : Text
  price : ℤ
  stockQty : ℕ
  warehouse : Text
  hash1c : Text
  deletedAt : Option ℕ
  syncExcluded : Bool
  deriving DecidableEq

structure Shelf where
  products : List Product
  nextPk : ℕ

/-- A product in memory. Its fields hold what was assigned to them, and what the columns made of that only after
the product is read again. -/
structure Instance where
  pk : ℕ
  name : SourceValue
  brand : Text
  brandResolution : BrandResolution
  category1c : SourceValue
  condition : SourceValue
  description1c : SourceValue
  price : ℚ
  stockQty : ℤ
  hash1c : Text
  deleted : Bool
  syncExcluded : Bool

def Product.load (row : Product) : Instance where
  pk := row.pk
  name := .text row.name
  brand := row.brand
  brandResolution := row.brandResolution
  category1c := .text row.category1c
  condition := .text row.condition
  description1c := .text row.description1c
  price := row.price / 100
  stockQty := row.stockQty
  hash1c := row.hash1c
  deleted := row.deletedAt.isSome
  syncExcluded := row.syncExcluded

structure DataSource where
  pk : ℕ
  type : Text

inductive ImportError where
  | missingArticle
  | unhashableArticle
  | invalidPrice
  | invalidStock
  | brand
  | row (error : RowError)
  | feed (error : FeedIntent.FeedIntentError)
  | staleProductFeedWrite

/-- What an import uses beside its arguments: the digest of a payload, the platform's brands, the identifiers that a
value denotes, and whether feed intents are recorded. -/
structure Environment (Brands : Type) where
  texts : Texts
  digest : List (String × SourceValue) → Text
  resolveOrCreateBrand : Text → Text → Brands → Brands × Option (Option ℕ)
  uuidOf : SourceValue → Option ℕ
  ingressEnabled : Bool

section
variable {Brands : Type} (env : Environment Brands)

/-! ## Preparation -/

def computeHash (data : SourceItem) : Text :=
  env.digest [
    ("name", data.nameValue),
    ("brand", SourceItem.orEmpty data.brand),
    ("price", .text (env.texts.str (SourceItem.orEmpty data.price))),
    ("stock_qty", data.stockValue),
    ("category", data.categoryValue),
    ("condition", data.conditionValue),
    ("description", data.descriptionValue)]

structure Defaults where
  name : SourceValue
  brand : Text
  brandResolution : BrandResolution
  category1c : SourceValue
  condition : SourceValue
  price : PyDecimal
  stockQty : ℤ
  warehouse : SourceValue
  description1c : SourceValue
  hash1c : Text
  uuid1c : Option SourceValue

structure Prepared where
  data : SourceItem
  defaults : Defaults
  hashNew : Text

def incomingBrand (data : SourceItem) : Text :=
  match data.brand with
  | none => []
  | some brand => if brand.truthy then Url.strip (env.texts.str brand) else []

def priceOf (data : SourceItem) : Option PyDecimal := decimalOf (env.texts.str data.priceValue)

/-- `_prepare_source_upsert`. The brand is made before the price is read, and stays when the price is refused. -/
def prepareSourceUpsert (datasource : DataSource) (data : SourceItem) (brands : Brands) : Brands × Except ImportError Prepared :=
  let hashNew := computeHash env data
  let incoming := incomingBrand env data
  let sourceId := if datasource.type.isEmpty then "datasource".toList else datasource.type
  let (brands, resolved) := env.resolveOrCreateBrand incoming sourceId brands
  (brands, do
    let ref ← orRaise .brand resolved
    let price ← orRaise .invalidPrice (priceOf env data)
    let stock ← orRaise .invalidStock (intValue data.stockValue)
    .ok {
      data
      hashNew
      defaults := {
        name := data.nameValue
        brand := incoming
        brandResolution := {
          ref
          status := if incoming.isEmpty then .unknown else .source
          confidence := if incoming.isEmpty then 0 else 1
          sourceId := if incoming.isEmpty then [] else sourceId
          needsReview := false }
        category1c := data.categoryValue
        condition := data.conditionValue
        price
        stockQty := stock
        warehouse := data.warehouseValue
        description1c := data.descriptionValue
        hash1c := hashNew
        uuid1c := data.uuid.filter SourceValue.truthy } })

def Defaults.keepBrand (defaults : Defaults) (existing : Instance) : Defaults :=
  if defaults.brand.isEmpty && !existing.brand.isEmpty then
    { defaults with brand := existing.brand, brandResolution := existing.brandResolution }
  else defaults

def sourceChangesFeed (existing : Instance) (prepared : Prepared) : Bool :=
  if existing.deleted then true
  else if existing.syncExcluded then false
  else
    let defaults := prepared.defaults.keepBrand existing
    !existing.name.same defaults.name || decide (existing.brand ≠ defaults.brand) ||
      !existing.category1c.same defaults.category1c || !existing.condition.same defaults.condition ||
      !existing.description1c.same defaults.description1c

/-! ## The kind of a change -/

inductive ChangeType where
  | priceOnly | stockOnly | content | category
  deriving DecidableEq

structure Compared (Price Stock : Type) where
  price : Price
  stockQty : Stock
  name : SourceValue
  brand : Text
  condition : SourceValue
  category : SourceValue
  description : SourceValue

def changeType (priceChanged stockChanged categoryChanged contentChanged : Bool) : Option ChangeType :=
  if !(priceChanged || stockChanged || categoryChanged || contentChanged) then none
  else if categoryChanged then some .category
  else if contentChanged then some .content
  else if priceChanged && !stockChanged then some .priceOnly
  else if stockChanged && !priceChanged then some .stockOnly
  else some .content

def comparedPrice (price : SourceValue) : Option PyDecimal :=
  decimalOf (env.texts.str (if price.truthy then price else .int 0))

/-- `detect_change_type`, where the old values are those of a product. Only a price that is no number raises. -/
def detectChangeType (old : Compared ℚ ℤ) (new : Compared SourceValue SourceValue) : Except ImportError (Option ChangeType) := do
  let price ← orRaise .invalidPrice (comparedPrice env new.price)
  let priceChanged := !(price.val.isFinite && decide (price.val.value = old.price))
  let stockChanged := match parseInteger new.stockQty with
    | some stock => decide (old.stockQty ≠ stock)
    | none => !(SourceValue.int old.stockQty).same new.stockQty
  let categoryChanged := !old.category.same new.category
  let contentChanged := !old.name.same new.name || decide (old.brand ≠ new.brand) ||
    !old.condition.same new.condition || !old.description.same new.description
  .ok (changeType priceChanged stockChanged categoryChanged contentChanged)

def Instance.compared (existing : Instance) : Compared ℚ ℤ where
  price := existing.price
  stockQty := existing.stockQty
  name := existing.name
  brand := existing.brand
  condition := existing.condition
  category := existing.category1c
  description := existing.description1c

def SourceItem.compared (data : SourceItem) (brand : Text) : Compared SourceValue SourceValue where
  price := data.priceValue
  stockQty := data.stockValue
  name := data.nameValue
  brand := brand
  condition := data.conditionValue
  category := data.categoryValue
  description := data.descriptionValue

/-! ## Writing -/

structure Columns where
  name : Text
  brand : Text
  brandResolution : BrandResolution
  category1c : Text
  condition : Text
  price : ℤ
  stockQty : ℕ
  warehouse : Text
  description1c : Text
  hash1c : Text
  /-- Absent when the column is not written. -/
  uuid1c : Option ℕ

def uuidColumn : Option SourceValue → Except RowError (Option ℕ)
  | none => .ok none
  | some value => (orRaise .value (env.uuidOf value)).map some

def columnsOf (defaults : Defaults) : Except RowError Columns := do
  let name ← charColumn env.texts (some 500) defaults.name
  let brand ← charColumn env.texts (some 200) (.text defaults.brand)
  let category1c ← charColumn env.texts (some 300) defaults.category1c
  let condition ← charColumn env.texts (some 10) defaults.condition
  let price ← priceColumn defaults.price
  let stockQty ← stockColumn defaults.stockQty
  let warehouse ← charColumn env.texts (some 200) defaults.warehouse
  let description1c ← charColumn env.texts none defaults.description1c
  let uuid1c ← uuidColumn env defaults.uuid1c
  .ok { name, brand, brandResolution := defaults.brandResolution, category1c, condition, price, stockQty, warehouse,
        description1c, hash1c := defaults.hash1c, uuid1c }

/-- `unique_tenant_uuid_1c`: another product of the tenant has this identifier. -/
def uuidTaken (products : List Product) (pk tenant : ℕ) (uuid : Option ℕ) : Bool :=
  uuid.any fun uuid => products.any fun row => decide (row.pk ≠ pk) && decide (row.tenant = tenant) && decide (row.uuid1c = some uuid)

def sourceRow (tenant : ℕ) (datasource : DataSource) (article : Text) (shelf : Shelf) : Option Product :=
  shelf.products.find? fun row =>
    decide (row.tenant = tenant) && decide (row.datasource = some datasource.pk) && decide (row.article = article)

def Product.write (row : Product) (columns : Columns) : Product :=
  { row with
    name := columns.name
    brand := columns.brand
    brandResolution := columns.brandResolution
    category1c := columns.category1c
    condition := columns.condition
    price := columns.price
    stockQty := columns.stockQty
    warehouse := columns.warehouse
    description1c := columns.description1c
    hash1c := columns.hash1c
    uuid1c := columns.uuid1c.orElse fun _ => row.uuid1c }

def Product.restore (row : Product) (restoring : Bool) : Product :=
  if restoring then { row with deletedAt := none, syncExcluded := false } else row

def Instance.assign (existing : Instance) (defaults : Defaults) : Instance where
  pk := existing.pk
  name := defaults.name
  brand := defaults.brand
  brandResolution := defaults.brandResolution
  category1c := defaults.category1c
  condition := defaults.condition
  description1c := defaults.description1c
  price := defaults.price.val.value
  stockQty := defaults.stockQty
  hash1c := defaults.hash1c
  deleted := false
  syncExcluded := if existing.deleted then false else existing.syncExcluded

def blankProduct (pk tenant : ℕ) (datasource : DataSource) (article : Text) : Product where
  pk := pk
  tenant := tenant
  datasource := some datasource.pk
  article := article
  uuid1c := none
  name := []
  brand := []
  brandResolution := ⟨none, .unknown, 0, [], false⟩
  category1c := []
  condition := []
  description1c := []
  price := 0
  stockQty := 0
  warehouse := []
  hash1c := []
  deletedAt := none
  syncExcluded := false

def blankInstance (pk : ℕ) : Instance := (blankProduct pk 0 ⟨0, []⟩ []).load

def createProduct (tenant : ℕ) (datasource : DataSource) (article : SourceValue) (defaults : Defaults) (shelf : Shelf) :
    Except RowError (Shelf × Instance) := do
  let article ← charColumn env.texts (some 100) article
  let columns ← columnsOf env defaults
  raiseIf ((sourceRow tenant datasource article shelf).isSome = true ∨
    uuidTaken shelf.products shelf.nextPk tenant columns.uuid1c = true) .integrity
  .ok ({ products := shelf.products ++ [(blankProduct shelf.nextPk tenant datasource article).write columns],
         nextPk := shelf.nextPk + 1 }, (blankInstance shelf.nextPk).assign defaults)

def saveProduct (pk : ℕ) (restoring : Bool) (defaults : Defaults) (shelf : Shelf) : Except RowError Shelf := do
  let columns ← columnsOf env defaults
  raiseIf (shelf.products.any (fun row => decide (row.pk = pk) &&
    uuidTaken shelf.products pk row.tenant columns.uuid1c) = true) .integrity
  .ok { shelf with products := shelf.products.map fun row => if row.pk = pk then (row.restore restoring).write columns else row }

inductive ImportStatus where
  | created | updated | unchanged
  deriving DecidableEq

structure Outcome where
  status : ImportStatus
  changeType : Option ChangeType
  deriving DecidableEq

def Outcome.ofChange (change : Option ChangeType) : Outcome := ⟨if change.isSome then .updated else .unchanged, change⟩

def asImport {R : Type} : Except RowError R → Except ImportError R
  | .ok r => .ok r
  | .error e => .error (.row e)

/-- The change that is looked for when the record is another one than at the last import. -/
def foundChange (existing : Instance) (prepared : Prepared) (brand : Text) : Except ImportError (Option ChangeType) :=
  if existing.hash1c ≠ prepared.hashNew then detectChangeType env existing.compared (prepared.data.compared brand)
  else .ok none

def applySourceUpsert (tenant : ℕ) (datasource : DataSource) (article : SourceValue) (prepared : Prepared)
    (existing : Option Instance) (shelf : Shelf) : Except ImportError (Shelf × Instance × Outcome) :=
  match existing with
  | none => do
    let (shelf, product) ← asImport (createProduct env tenant datasource article prepared.defaults shelf)
    .ok (shelf, product, ⟨.created, none⟩)
  | some existing =>
    if !existing.deleted && existing.syncExcluded then .ok (shelf, existing, ⟨.unchanged, none⟩)
    else do
      let defaults := prepared.defaults.keepBrand existing
      let shelf ← asImport (saveProduct env existing.pk existing.deleted defaults shelf)
      let change ← foundChange env existing prepared defaults.brand
      .ok (shelf, existing.assign defaults, Outcome.ofChange change)

end

end MapBackend.Products.Import
