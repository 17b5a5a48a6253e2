import MapBackend.Products.SourceUpsert

/-!
The two imports of source records: one record in a transaction of its own, and a page of records in one
transaction.
-/

namespace MapBackend.Products.Import
open MapBackend.Library MapBackend.Core MapBackend.Marketplaces

/-- A listing of a product in an account; it is live while its status is active or pending. -/
structure ListingRow where
  product : ℕ
  account : ℕ
  live : Bool
  deriving DecidableEq

structure Catalogue (Brands : Type) where
  shelf : Shelf
  brands : Brands
  listings : List ListingRow
  feeds : FeedIntent.FeedStore

section
variable {Brands : Type} (env : Environment Brands) (tenant : ℕ) (datasource : DataSource)

/-! ## Feed intents -/

def productFeedAccountIds (productIds : List ℕ) (listings : List ListingRow) (feeds : FeedIntent.FeedStore) : List ℕ :=
  ((listings.filter fun listing => productIds.contains listing.product && listing.live &&
    (feeds.account? listing.account).any fun account => !account.deleted).map ListingRow.account).dedup

def bumpProducts (bumpIds : List ℕ) (observedAt : Instant) (listings : List ListingRow) (feeds : FeedIntent.FeedStore) :
    Except ImportError FeedIntent.FeedStore :=
  if env.ingressEnabled then
    match feeds.bumpFeedIntents (productFeedAccountIds bumpIds listings feeds) observedAt with
    | .ok (feeds, _) => .ok feeds
    | .error e => .error (.feed e)
  else .ok feeds

/-- `for _attempt in range(3)`: a transaction that raises is rolled back, and runs again after some errors. -/
def attempts {R : Type} (again : ImportError → Bool) (body : Except ImportError R) : ℕ → Except ImportError R
  | 0 => .error .staleProductFeedWrite
  | left + 1 =>
    match body with
    | .ok r => .ok r
    | .error e => if again e then attempts again body left else .error e

def ImportError.isIntegrity : ImportError → Bool
  | .row .integrity => true
  | _ => false

def ImportError.isStale : ImportError → Bool
  | .staleProductFeedWrite => true
  | _ => false

/-! ## One record -/

/-- The transaction of `upsert_from_source`: a record without a product makes one, and any other writes its product
and moves the cursors first. -/
def writeSource (observedAt : Instant) (article : SourceValue) (prepared : Prepared) (listings : List ListingRow)
    (shelf : Shelf) (feeds : FeedIntent.FeedStore) : Except ImportError (Shelf × FeedIntent.FeedStore × Outcome) :=
  let row := if article.isNull then none else sourceRow tenant datasource (env.texts.str article) shelf
  match row with
  | none => attempts ImportError.isIntegrity (do
      let (shelf, _, outcome) ← applySourceUpsert env tenant datasource article prepared none shelf
      .ok (shelf, feeds, outcome)) 3
  | some row => attempts ImportError.isStale (do
      let bumpIds := if sourceChangesFeed row.load prepared then [row.pk] else []
      let feeds ← bumpProducts env bumpIds observedAt listings feeds
      let (shelf, _, outcome) ← applySourceUpsert env tenant datasource article prepared (some row.load) shelf
      .ok (shelf, feeds, outcome)) 3

def upsertFromSource (observedAt : Instant) (data : SourceItem) (s : Catalogue Brands) :
    Catalogue Brands × Except ImportError Outcome :=
  let (brands, prepared) := prepareSourceUpsert env datasource data s.brands
  let s := { s with brands }
  let written := do
    let prepared ← prepared
    let article ← orRaise .missingArticle data.article
    writeSource env tenant datasource observedAt article prepared s.listings s.shelf s.feeds
  match written with
  | .ok (shelf, feeds, outcome) => ({ s with shelf, feeds }, .ok outcome)
  | .error e => (s, .error e)

/-- The records one by one, each at its own time; the first that raises ends the import. -/
def upsertEach : List (Instant × SourceItem) → Catalogue Brands → Catalogue Brands × Except ImportError (List Outcome)
  | [], s => (s, .ok [])
  | (observedAt, data) :: rest, s =>
    match upsertFromSource env tenant datasource observedAt data s with
    | (s, .error e) => (s, .error e)
    | (s, .ok outcome) =>
      match upsertEach rest s with
      | (s, .error e) => (s, .error e)
      | (s, .ok outcomes) => (s, .ok (outcome :: outcomes))

/-! ## A page -/

def prepareAll : List SourceItem → Brands → Brands × Except ImportError (List Prepared)
  | [], brands => (brands, .ok [])
  | data :: rest, brands =>
    match prepareSourceUpsert env datasource data brands with
    | (brands, .error e) => (brands, .error e)
    | (brands, .ok prepared) =>
      match prepareAll rest brands with
      | (brands, .error e) => (brands, .error e)
      | (brands, .ok others) => (brands, .ok (prepared :: others))

/-- The products of a page by their articles: the locked rows and the ones that the page made. They are written in
place, so that a later record of an article meets what an earlier one assigned. -/
abbrev Held := List (SourceValue × Instance)

/-- `existing_by_article.get(article) or created_by_article.get(article)`. -/
def Held.get (held : Held) (article : SourceValue) : Option Instance :=
  (held.find? fun entry => entry.1.same article).map Prod.snd

def Held.set (held : Held) (article : SourceValue) (product : Instance) : Held :=
  if (held.get article).isSome then held.map fun entry => if entry.1.same article then (entry.1, product) else entry
  else held ++ [(article, product)]

def writePage : List (SourceValue × Prepared) → Held → Shelf → Except ImportError (Shelf × List Outcome)
  | [], _, shelf => .ok (shelf, [])
  | (article, prepared) :: rest, held, shelf => do
    let (shelf, product, outcome) ← applySourceUpsert env tenant datasource article prepared (held.get article) shelf
    let (shelf, outcomes) ← writePage rest (held.set article product) shelf
    .ok (shelf, outcome :: outcomes)

def withArticles : List Prepared → Except ImportError (List (SourceValue × Prepared))
  | [] => .ok []
  | prepared :: rest => do
    let article ← orRaise .missingArticle prepared.data.article
    let page ← withArticles rest
    .ok ((article, prepared) :: page)

def existingProducts (articles : List SourceValue) (shelf : Shelf) : List Product :=
  shelf.products.filter fun row => decide (row.tenant = tenant) && decide (row.datasource = some datasource.pk) &&
    articles.any fun article => !article.isNull && decide (row.article = env.texts.str article)

/-- The transaction of `upsert_batch_from_source`. The cursors follow the rows as they were before the page. -/
def writeBatch (observedAt : Instant) (page : List (SourceValue × Prepared)) (listings : List ListingRow)
    (shelf : Shelf) (feeds : FeedIntent.FeedStore) : Except ImportError (Shelf × FeedIntent.FeedStore × List Outcome) := do
  let existing := existingProducts env tenant datasource (page.map Prod.fst) shelf
  let held : Held := existing.map fun row => (.text row.article, row.load)
  raiseIf (page.all (fun entry => entry.1.hashable) = false) .unhashableArticle
  let bumpIds := page.filterMap fun entry =>
    (held.get entry.1).bind fun product => if sourceChangesFeed product entry.2 then some product.pk else none
  let feeds ← bumpProducts env bumpIds observedAt listings feeds
  let (shelf, outcomes) ← writePage env tenant datasource page held shelf
  .ok (shelf, feeds, outcomes)

def upsertBatchFromSource (observedAt : Instant) (items : List SourceItem) (s : Catalogue Brands) :
    Catalogue Brands × Except ImportError (List Outcome) :=
  let (brands, prepared) := prepareAll env datasource items s.brands
  let s := { s with brands }
  let written := do
    let prepared ← prepared
    let page ← withArticles prepared
    attempts (fun e => e.isIntegrity || e.isStale) (writeBatch env tenant datasource observedAt page s.listings s.shelf s.feeds) 3
  match written with
  | .ok (shelf, feeds, outcomes) => ({ s with shelf, feeds }, .ok outcomes)
  | .error e => (s, .error e)

end

end MapBackend.Products.Import
