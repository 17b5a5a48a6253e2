import MapBackend.Library.Programs
import MapBackend.Library.Words
import MapBackend.Products.SourceImports
import MapBackend.Products.SourcePolicy

/-!
Which products the parser of parts may be asked for: what the domains of the tenant allow, the category of the product
and its classification, which is made and stored when there is none.
-/

namespace MapBackend.Products.Enrichment
open MapBackend.Library MapBackend.Core MapBackend.Marketplaces Inference Program

/-! ## Rows -/

structure CaseLibrary extends Alphabet where
  upper : Char → Text

structure PlatformDomain where
  id : ℕ
  slug : Text
  isActive : Bool
  supportsAutoPartsEnrichment : Bool
  requiresProductClassification : Bool
  deriving DecidableEq

structure CatalogCategory extends TenantCatalogCategory where
  domain : Text
  deriving DecidableEq

structure TenantCategoryMapping where
  tenant : ℕ
  sourceCategory : Text
  category : ℕ
  deriving DecidableEq

inductive ClassificationSource where
  | rules | manual | apiKey | ai
  deriving DecidableEq, Repr

structure ProductCatalogClassification where
  domain : Text
  confidence : ℚ
  source : ClassificationSource
  reason : Text
  needsReview : Bool
  reviewStatus : ReviewStatus
  deriving DecidableEq

structure PartProduct extends Inference.Product where
  id : ℕ
  deleted : Bool
  article : Text
  catalogCategoryManuallyCleared : Bool
  classification : Option ProductCatalogClassification
  fitments : List VehicleFitment
  deriving DecidableEq

structure ProductTable where
  rows : List PartProduct
  keys : (rows.map PartProduct.id).Nodup

namespace ProductTable

def product? (table : ProductTable) (id : ℕ) : Option PartProduct := table.rows.find? fun row => row.id == id

def save (table : ProductTable) (row : PartProduct) : ProductTable where
  rows := put PartProduct.id row table.rows
  keys := by
    rw [map_key_put]
    exact table.keys

end ProductTable

structure Tenant where
  id : ℕ
  catalogDomain : Text
  deriving DecidableEq

structure ProductParseJob where
  pk : ℕ
  tenant : ℕ
  product : ℕ
  brand : Text
  article : Text
  normalizedArticle : Text
  sourceId : Text
  fallbackOriginKey : Text
  deriving DecidableEq

structure Dispatch where
  pk : ℕ
  taskName : Text
  queue : Text
  args : List ℕ
  deduplicationKey : Option Text
  availableAt : Instant
  maxRunAttempts : ℕ
  executionTimeoutSeconds : ℕ
  deriving DecidableEq

structure ImageSearchTask where
  pk : ℕ
  tenant : ℕ
  product : ℕ
  taskId : Text
  dispatch : Option ℕ
  deriving DecidableEq

/-- What the calls of one tenant only read: its settings, its categories and its listings. -/
structure CatalogSettings where
  tenant : Tenant
  domains : List PlatformDomain
  enabledDomains : List TenantCatalogDomain
  categories : List CatalogCategory
  mappings : List TenantCategoryMapping
  listings : List Import.ListingRow
  ingressEnabled : Bool
  canGenerateAi : Bool

/-- The settings with what the calls write: the products, the cursors of the feeds, the tasks and the outbox. -/
structure PartStore where
  settings : CatalogSettings
  products : ProductTable
  feeds : FeedIntent.FeedStore
  parseJobs : List ProductParseJob
  dispatches : List Dispatch
  imageTasks : List ImageSearchTask
  nextPk : ℕ

inductive PartError where
  | autoPartsEnrichmentDisabled
  | productIsNotAutoPart
  | quotaExceeded
  | productDoesNotExist
  | tenantMismatch
  | dataError
  | unknownBulkAction
  | tooManyProducts
  | unknownSource
  | unknownTask
  | idempotencyConflict
  | feed (e : FeedIntent.FeedIntentError)

abbrev PartM := EStateM PartError PartStore

/-! ## Settings of the tenant -/

namespace CatalogSettings

variable (s : CatalogSettings)

def category? (id : ℕ) : Option CatalogCategory := s.categories.find? fun category => category.id == id

def domain? (id : ℕ) : Option PlatformDomain := s.domains.find? fun domain => domain.id == id

def primaryDomain : Option PlatformDomain := s.domains.find? fun domain => domain.slug == s.tenant.catalogDomain

def tenantSupports : Bool :=
  match s.primaryDomain with
  | some domain => domain.supportsAutoPartsEnrichment
  | none => s.tenant.catalogDomain == "auto_parts".toList || s.tenant.catalogDomain == "mixed".toList

def tenantRequires : Bool :=
  match s.primaryDomain with
  | some domain => domain.requiresProductClassification
  | none => s.tenant.catalogDomain == "mixed".toList

def activeDomains : List PlatformDomain :=
  (s.enabledDomains.filter fun row => row.tenant == s.tenant.id && row.isEnabled).filterMap fun row =>
    (s.domain? row.domain).filter PlatformDomain.isActive

/-- `_auto_parts_catalog_capabilities`: whether the parser is allowed, and whether each product is checked. -/
def autoPartsCatalogCapabilities : Bool × Bool :=
  let flags := s.activeDomains.map PlatformDomain.supportsAutoPartsEnrichment
  let primaryEnabled := s.activeDomains.any fun domain => domain.slug == s.tenant.catalogDomain
  (s.tenantSupports || (primaryEnabled && flags.any id), s.tenantRequires || (primaryEnabled && flags.any id && flags.any (!·)))

/-- Whether the root domain of the product's category supports the parser, when it has one. -/
def rootSupports (product : PartProduct) : Option Bool := do
  let category ← s.category? (← product.catalogCategory)
  let root ← category.rootDomain
  let domain ← s.domain? root.id
  return domain.supportsAutoPartsEnrichment

def productCatalogSupportsAutoParts (product : PartProduct) : Bool := (s.rootSupports product).getD false

end CatalogSettings

def ensureAutoPartsEnabled : PartM Unit := do
  if (← get).settings.autoPartsCatalogCapabilities.1 then return else throw .autoPartsEnrichmentDisabled

/-! ## The category of a product -/

section Classification

variable (lib : CaseLibrary)

def inferCategory (s : CatalogSettings) (product : PartProduct) : PartProduct × Option CatalogCategory :=
  let rows := activeCategories s.enabledDomains (s.categories.map CatalogCategory.toTenantCatalogCategory) product.tenant
  let (saved, category) := inferProductTenantCategory lib.toAlphabet rows product.toProduct
  ({ product with toProduct := saved }, category.bind fun category => s.category? category.id)

def mappedCategory (s : CatalogSettings) (product : PartProduct) : Option CatalogCategory :=
  (s.mappings.filter fun mapping => mapping.tenant == product.tenant && mapping.sourceCategory == product.category1c).findSome? fun mapping =>
    (s.category? mapping.category).filter fun category => category.isActive

/-- `_get_product_tenant_category_locked`: the product as it is saved, and its category. -/
def getProductTenantCategoryLocked (s : CatalogSettings) (product : PartProduct) : PartProduct × Option CatalogCategory :=
  match product.catalogCategory with
  | some id => (product, s.category? id)
  | none =>
    if product.catalogCategoryManuallyCleared then (product, none)
    else if product.category1c.isEmpty then inferCategory lib s product
    else
      match mappedCategory s product with
      | some category => ({ product with catalogCategory := some category.id }, some category)
      | none => inferCategory lib s product

/-! ## The classification -/

def autoParts : Text := "auto_parts".toList

def autoPartsMarkers : List Text :=
  ["авто", "автомоб", "запчаст", "oem", "кросс", "тормоз", "колод", "диск торм", "суппорт", "амортиз", "стойк", "подвес", "рычаг",
    "шаровая", "рулев", "рейка", "тяга", "наконечник", "двигател", "мотор", "фильтр", "свеч", "ремень", "toyota", "lexus", "hyundai",
    "kia", "mercedes", "benz", "bmw", "audi", "volkswagen", "nissan", "renault", "brembo", "trw", "kyb"].map String.toList

def nonAutoPartsMarkers : List Text :=
  ["кольц", "серьг", "браслет", "цепоч", "ожерель", "подвеск", "украшен", "ювелир", "золот", "серебр", "плать", "рубаш", "брюк", "куртк",
    "обув", "одежд"].map String.toList

def classificationText (product : PartProduct) : Text :=
  lib.lower ([' '].intercalate [product.name, product.category1c, product.description1c, product.brand])

def firstMatches (found : List Text) : Text := ", ".toList.intercalate (found.take 5)

def ruleClassification (product : PartProduct) (category : Option CatalogCategory) : ProductCatalogClassification :=
  let text := classificationText lib product
  let auto := autoPartsMarkers.filter fun marker => occursIn marker text
  let other := nonAutoPartsMarkers.filter fun marker => occursIn marker text
  match category.filter fun category => category.domain != "unknown".toList with
  | some category =>
    let fallback := isAutoPartsFallback lib.toAlphabet category.toTenantCatalogCategory
    { domain := category.domain
      confidence := double (17 / 20)
      source := .rules
      reason :=
        if fallback then
          "Вид запчасти не определён по названию товара — присвоен общий узел «Автомобиль на запчасти». Уточните категорию.".toList
        else "Тип товара определён по категории каталога: ".toList ++ category.name ++ ".".toList
      needsReview := fallback || (category.domain == autoParts && !other.isEmpty)
      reviewStatus := .pending }
  | none =>
    if !auto.isEmpty then
      { domain := autoParts
        confidence := if 1 < auto.length then double (9 / 10) else double (3 / 4)
        source := .rules
        reason := "Найдены признаки автозапчасти: ".toList ++ firstMatches auto ++ ".".toList
        needsReview := !decide (1 < auto.length)
        reviewStatus := .pending }
    else if !other.isEmpty then
      { domain := "jewellery".toList
        confidence := double (17 / 20)
        source := .rules
        reason := "Найдены признаки неавтомобильного товара: ".toList ++ firstMatches other ++ ".".toList
        needsReview := false
        reviewStatus := .pending }
    else
      { domain := "unknown".toList
        confidence := double (3 / 10)
        source := .rules
        reason := "Не найдено достаточно признаков автозапчасти или другого домена.".toList
        needsReview := true
        reviewStatus := .pending }

def storedClassification (old : Option ProductCatalogClassification) (new : ProductCatalogClassification) : ProductCatalogClassification :=
  match old with
  | some old => if old.source = .manual then old else new
  | none => new

/-- `locked_product_feed_write` of one product: the cursors of its feeds are moved first. -/
def lockedProductFeedWrite (observedAt : Instant) (id : ℕ) : PartM Unit := do
  let s ← get
  if s.settings.ingressEnabled then
    match s.feeds.bumpFeedIntents (Import.productFeedAccountIds [id] s.settings.listings s.feeds) observedAt with
    | .ok (feeds, _) => set { s with feeds }
    | .error e => throw (.feed e)

/-- `_classify_product_catalog_domain_locked`: the row as it is saved, and its classification. -/
def classifyLocked (s : CatalogSettings) (row : PartProduct) : PartProduct × ProductCatalogClassification :=
  let (saved, category) := getProductTenantCategoryLocked lib s row
  let classification := storedClassification row.classification (ruleClassification lib row category)
  ({ saved with classification := some classification }, classification)

/-- `classify_product_catalog_domain`; the object of the caller gets the category of the row, and nothing else. -/
def classifyProductCatalogDomain (observedAt : Instant) (product : PartProduct) : PartM (PartProduct × ProductCatalogClassification) := do
  match (← get).products.product? product.id with
  | none => throw .productDoesNotExist
  | some row =>
    if row.deleted then throw .productDoesNotExist
    else
      lockedProductFeedWrite observedAt product.id
      let s ← get
      let (saved, classification) := classifyLocked lib s.settings row
      set { s with products := s.products.save saved }
      return ({ product with catalogCategory := saved.catalogCategory }, classification)

def ProductCatalogClassification.candidate (classification : ProductCatalogClassification) : Bool :=
  if classification.reviewStatus = .rejected then false
  else
    classification.domain == autoParts && decide (double (7 / 10) ≤ classification.confidence) &&
      (decide (classification.reviewStatus = .approved) || !classification.needsReview)

/-- `is_product_auto_part_candidate`, with the object as it leaves it: that there was no classification stays known. -/
def isProductAutoPartCandidate (observedAt : Instant) (product : PartProduct) : PartM (PartProduct × Bool) := do
  match product.classification with
  | some classification => return (product, classification.candidate)
  | none =>
    let (product, classification) ← classifyProductCatalogDomain lib observedAt product
    return (product, classification.candidate)

/-- `ensure_product_auto_parts_eligible` of a product, with the object as it leaves it. -/
def ensureProductAutoPartsEligible (observedAt : Instant) (product : PartProduct) : PartM PartProduct := do
  let s := (← get).settings
  let (tenantSupports, requiresProductCheck) := s.autoPartsCatalogCapabilities
  let productCategorySupports := s.productCatalogSupportsAutoParts product
  if s.rootSupports product = some false then throw .productIsNotAutoPart
  else if !tenantSupports && !productCategorySupports then throw .autoPartsEnrichmentDisabled
  else if requiresProductCheck || productCategorySupports then
    let (product, candidate) ← isProductAutoPartCandidate lib observedAt product
    if candidate then return product else throw .productIsNotAutoPart
  else return product

end Classification

end MapBackend.Products.Enrichment
