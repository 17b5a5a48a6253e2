import MapBackend.Core.PublicUrl
import MapBackend.Library.Choices
import MapBackend.Library.Doubles
import Mathlib.Data.Prod.Lex
import Mathlib.Data.List.Infix

/-!
The category of a product from its texts: the words of the product against the names and aliases of the
active categories of its tenant, the penalty of secondary branches, and the general node of the fallback.
-/

namespace MapBackend.Products.Inference
open MapBackend.Library MapBackend.Core

/-! ## Texts -/

/-- `str.lower` and `str.isalnum` of one character. -/
structure Alphabet where
  lower : Text → Text
  isAlnum : Char → Bool

def homoglyphs : List (Char × Char) :=
  [('A', 'А'), ('B', 'В'), ('C', 'С'), ('E', 'Е'), ('H', 'Н'), ('K', 'К'), ('M', 'М'),
    ('O', 'О'), ('P', 'Р'), ('T', 'Т'), ('X', 'Х'), ('Y', 'У'),
    ('a', 'а'), ('c', 'с'), ('e', 'е'), ('k', 'к'), ('m', 'м'), ('o', 'о'), ('p', 'р'),
    ('x', 'х'), ('y', 'у')]

def dehomoglyph (text : Text) : Text := text.map fun c => (homoglyphs.lookup c).getD c

def isWordChar (c : Char) : Bool :=
  ('0'.toNat ≤ c.toNat && c.toNat ≤ '9'.toNat) || ('a'.toNat ≤ c.toNat && c.toNat ≤ 'z'.toNat) ||
    ('а'.toNat ≤ c.toNat && c.toNat ≤ 'я'.toNat) || c == 'ё'

def findWords (text : Text) : List Text := (text.splitOnP fun c => !isWordChar c).filter fun word => !word.isEmpty

def normalizeCategoryName (alphabet : Alphabet) (name : Text) : Text := (alphabet.lower name).filter alphabet.isAlnum

/-! ## Rows -/

structure CatalogDomain where
  id : ℕ
  slug : Text
  deriving DecidableEq

structure TenantCatalogDomain where
  tenant : ℕ
  domain : ℕ
  isEnabled : Bool
  deriving DecidableEq

structure TenantCatalogCategory where
  id : ℕ
  tenant : ℕ
  name : Text
  normalizedName : Text
  parentId : Option ℕ
  rootDomain : Option CatalogDomain
  aliases : List Text
  externalSource : Text
  externalId : Text
  isActive : Bool
  deriving DecidableEq

structure Product where
  tenant : ℕ
  name : Text
  category1c : Text
  description1c : Text
  brand : Text
  catalogCategory : Option ℕ
  deriving DecidableEq

/-! ## Scores -/

/-- The nearest number of double precision; scores are not negative and far from the largest one. -/
def double (x : ℚ) : ℚ := Double.roundSize x

def categoryWordMatches (productWords : List Text) (termWord : Text) : Bool :=
  productWords.contains termWord ||
    (4 ≤ termWord.length && productWords.any fun productWord =>
      let stemLength := if min termWord.length productWord.length ≤ 4 then 3 else 5
      4 ≤ productWord.length &&
        (termWord.take stemLength == productWord.take stemLength ||
          (productWord.length == 4 && productWord.isPrefixOf termWord) ||
          (termWord.length == 4 && termWord.isPrefixOf productWord)))

def categoryTermStopWords : List Text :=
  ["для", "авто", "автомобиль", "автомобиля", "автомобилей", "автомобили", "запчасти", "запчасть", "автозапчасти",
    "другое", "другие", "прочее", "прочие"].map String.toList

section Scores

variable (alphabet : Alphabet) (productWords : List Text) (normalizedText : Text)

def termWords (term : Text) : List Text :=
  (findWords (alphabet.lower term)).filter fun word => 2 < word.length && !categoryTermStopWords.contains word

/-- One round of the loop over the terms; the name of the category is the first of them. -/
def scoreTerm (score : ℚ) (indexed : Text × ℕ) : ℚ :=
  let words := termWords alphabet indexed.1
  let matchedCount := words.countP (categoryWordMatches productWords)
  if matchedCount = 0 then score
  else
    let termScore := double matchedCount
    let termScore := if matchedCount = words.length then double (termScore + words.length) else termScore
    let termScore := if normalizeCategoryName alphabet indexed.1 <:+: normalizedText then double (termScore + words.length * 2) else termScore
    let termScore := if indexed.2 = 0 then double (termScore + 1 / 4) else termScore
    max score termScore

def categoryMatchScore (category : TenantCatalogCategory) : ℚ :=
  let score := (category.name :: category.aliases).zipIdx.foldl (scoreTerm alphabet productWords normalizedText) 0
  if 0 < score ∧ category.parentId.isSome = true then double (score + double (1 / 10)) else score

end Scores

/-! ## Branches -/

def truckMarkers : List Text × List Text :=
  (["грузов", "спецтехн"].map String.toList,
    ["камаз", "краз", "зил", "автобус", "трактор", "экскаватор", "погрузчик", "тягач", "полуприцеп"].map String.toList)

def motoMarkers : List Text × List Text :=
  (["мотоцикл", "скутер", "квадроцикл", "мопед", "снегоход", "питбайк"].map String.toList, ["мото"].map String.toList)

def waterMarkers : List Text × List Text :=
  (["лодочн", "гидроцикл"].map String.toList, ["лодка", "лодки", "катер", "яхта"].map String.toList)

/-- The secondary branches, with the prefixes and the words of the products that belong to them. -/
def secondaryBranchMarkers : List (Text × List Text × List Text) :=
  [("длягрузовиковиспецтехники".toList, truckMarkers),
    ("шиныдлягрузовиковиспецтехники".toList, truckMarkers),
    ("длямототехники".toList, motoMarkers),
    ("мотошины".toList, motoMarkers),
    ("длямотоиводноготранспорта".toList, (motoMarkers.1 ++ waterMarkers.1, motoMarkers.2 ++ waterMarkers.2)),
    ("дляводноготранспорта".toList, waterMarkers),
    ("прицепы".toList, (["прицеп".toList], [])),
    ("экипировка".toList, (["экипир", "мотошлем", "мотоперчат"].map String.toList, ["шлем".toList]))]

/-- The categories from a node upwards that both loops visit: the parent has to be loaded and not seen. -/
def climb (byId : ℕ → Option TenantCatalogCategory) : ℕ → List ℕ → TenantCatalogCategory → List TenantCatalogCategory
  | 0, _, _ => []
  | fuel + 1, seen, node =>
    if seen.contains node.id = true then []
    else node :: ((node.parentId.bind byId).map (climb byId fuel (node.id :: seen))).getD []

section Branches

variable (categories : List TenantCatalogCategory)

def categoriesById (id : ℕ) : Option TenantCatalogCategory := categories.find? fun category => category.id == id

/-- Every round sees one more category, so the loops end within as many rounds as there are categories. -/
def upwards (category : TenantCatalogCategory) : List TenantCatalogCategory :=
  climb (categoriesById categories) (categories.length + 1) [] category

def secondaryBranchKey (category : TenantCatalogCategory) : Option Text :=
  ((upwards categories category).find? fun node => (secondaryBranchMarkers.lookup node.normalizedName).isSome).map (·.normalizedName)

def productMatchesBranch (productWords : List Text) (branchKey : Text) : Bool :=
  match secondaryBranchMarkers.lookup branchKey with
  | none => false
  | some (prefixes, exactWords) =>
    exactWords.any productWords.contains || productWords.any fun word => prefixes.any fun stem => stem.isPrefixOf word

def categoryDepth (category : TenantCatalogCategory) : ℕ := (upwards categories category).countP fun node => node.parentId.isSome

end Branches

/-! ## The inference -/

def seedSource : Text := "platform_auto_parts_seed".toList

def avito : Text := "avito".toList

/-- The rows of the queryset: the active categories of the enabled domains of the tenant. -/
def activeCategories (domains : List TenantCatalogDomain) (rows : List TenantCatalogCategory) (tenant : ℕ) : List TenantCatalogCategory :=
  rows.filter fun category => category.tenant == tenant && category.isActive &&
    category.rootDomain.any fun root => domains.any fun enabled =>
      enabled.tenant == tenant && enabled.isEnabled && enabled.domain == root.id

def isAutoParts (category : TenantCatalogCategory) : Bool := category.rootDomain.any fun root => root.slug == "auto_parts".toList

def hasInternalAutoPartsTree (categories : List TenantCatalogCategory) : Bool :=
  categories.any fun category => isAutoParts category && category.externalSource == seedSource && !category.externalId.isEmpty

def matchable (categories : List TenantCatalogCategory) : List TenantCatalogCategory :=
  if hasInternalAutoPartsTree categories = true then
    categories.filter fun category => !(isAutoParts category && category.externalSource == avito)
  else categories

abbrev CategoryKey := ℚ ×ₗ ℕ ×ₗ ℤ

def categoryKey (alphabet : Alphabet) (productWords : List Text) (normalizedText : Text) (categories : List TenantCatalogCategory)
    (category : TenantCatalogCategory) : Option CategoryKey :=
  let score := categoryMatchScore alphabet productWords normalizedText category
  if score ≤ 0 then none
  else
    let score := match secondaryBranchKey categories category with
      | none => score
      | some branchKey =>
        if productMatchesBranch productWords branchKey = true then double (score + double (1 / 20)) else double (score * double (3 / 10))
    some (toLex (score, toLex (categoryDepth categories category, -(category.id : ℤ))))

def isAutoPartsFallback (alphabet : Alphabet) (category : TenantCatalogCategory) : Bool :=
  category.normalizedName == normalizeCategoryName alphabet "Автомобиль на запчасти".toList && category.externalSource == avito

def autoPartsFallbackCategory (alphabet : Alphabet) (categories : List TenantCatalogCategory) : Option TenantCatalogCategory :=
  categories.find? (isAutoPartsFallback alphabet)

def productText (alphabet : Alphabet) (product : Product) : Text :=
  alphabet.lower (dehomoglyph ([' '].intercalate [product.name, product.category1c, product.description1c, product.brand]))

def readable (alphabet : Alphabet) (product : Product) : Bool :=
  !(findWords (productText alphabet product)).isEmpty && !(normalizeCategoryName alphabet (productText alphabet product)).isEmpty

def keyOf (alphabet : Alphabet) (product : Product) (categories : List TenantCatalogCategory) : TenantCatalogCategory → Option CategoryKey :=
  categoryKey alphabet (findWords (productText alphabet product)) (normalizeCategoryName alphabet (productText alphabet product)) categories

def bestCategory (alphabet : Alphabet) (product : Product) (categories : List TenantCatalogCategory) : Option TenantCatalogCategory :=
  match scanBest (keyOf alphabet product categories) categories with
  | none => autoPartsFallbackCategory alphabet categories
  | some (category, key) => if (ofLex key).1 < 2 then autoPartsFallbackCategory alphabet categories else some category

/-- `infer_product_tenant_category` on the rows as the database returns them: the product as it is saved, and its category. -/
def inferProductTenantCategory (alphabet : Alphabet) (returned : List TenantCatalogCategory) (product : Product) :
    Product × Option TenantCatalogCategory :=
  if readable alphabet product = false then (product, none)
  else
    match bestCategory alphabet product (matchable returned) with
    | none => (product, none)
    | some category => ({ product with catalogCategory := some category.id }, some category)

end MapBackend.Products.Inference
