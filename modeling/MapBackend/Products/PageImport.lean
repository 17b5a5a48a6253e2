import MapBackend.Products.PageFeeds

/-!
The import of a page against the import of its records one by one.
-/

namespace MapBackend.Products.Import
open MapBackend.Library MapBackend.Core MapBackend.Marketplaces

/-- The tables keep their keys, and a listing is one of a product that is there. -/
structure Catalogue.Valid {Brands : Type} (s : Catalogue Brands) : Prop where
  shelf : s.shelf.Valid
  listings : ∀ listing ∈ s.listings, listing.product < s.shelf.nextPk
  accounts : (s.feeds.accounts.map FeedIntent.FeedAccount.pk).Nodup

/-- Each account has moved by one revision where the other run has moved it, and not at all elsewhere. -/
def BumpedOnce (before many once : FeedIntent.FeedStore) : Prop :=
  ∀ account row, before.account? account = some row → ∃ more one, many.account? account = some more ∧
    once.account? account = some one ∧
    one.cursor.revision = row.cursor.revision + if row.cursor.revision < more.cursor.revision then 1 else 0

/-- The page is imported as a whole or not at all, and as its records would be one by one. -/
structure SameImport {Brands : Type} (env : Environment Brands) (tenant : ℕ) (datasource : DataSource) (observedAt : Instant)
    (timed : List (Instant × SourceItem)) (s : Catalogue Brands) : Prop where
  whole : ∀ batch e, upsertBatchFromSource env tenant datasource observedAt (timed.map Prod.snd) s = (batch, .error e) →
    batch.shelf = s.shelf ∧ batch.feeds = s.feeds
  same : ∀ each outcomes, upsertEach env tenant datasource timed s = (each, .ok outcomes) →
    ∃ batch, upsertBatchFromSource env tenant datasource observedAt (timed.map Prod.snd) s = (batch, .ok outcomes) ∧
      batch.shelf = each.shelf ∧ BumpedOnce s.feeds each.feeds batch.feeds

section
variable {Brands : Type} {env : Environment Brands} {tenant : ℕ} {datasource : DataSource}

theorem preparedPage_text {timed : List (Instant × SourceItem)} {brands : Brands} {page : List (SourceValue × Prepared)}
    (ready : PreparedPage env datasource timed brands page) : ∀ entry ∈ page, ∃ article, entry.1 = .text article := by
  induction timed generalizing brands page with
  | nil =>
    cases ready
    exact fun entry mem => absurd mem List.not_mem_nil
  | cons entry _ ih =>
    obtain ⟨article, _, _, _, -, -, rfl, second⟩ := ready
    intro entry mem
    rcases List.mem_cons.mp mem with rfl | mem
    · exact ⟨article, rfl⟩
    · exact ih second entry mem

def heldAtFirst (env : Environment Brands) (tenant : ℕ) (datasource : DataSource) (page : List (SourceValue × Prepared)) (shelf : Shelf) :
    Held :=
  (existingProducts env tenant datasource (page.map Prod.fst) shelf).map fun row => (.text row.article, row.load)

theorem heldAtFirst_fits (page : List (SourceValue × Prepared)) (shelf : Shelf) :
    HeldFits env tenant datasource (fun article => ∃ entry ∈ page, entry.1 = .text article) [] (heldAtFirst env tenant datasource page shelf)
      shelf where
  keys := by
    intro entry mem
    obtain ⟨row, -, rfl⟩ := List.mem_map.mp mem
    exact ⟨row.article, rfl⟩
  gets := by
    rintro article ⟨entry, mem, key⟩
    have listed : ∀ row : Product, row.article = article → ((page.map Prod.fst).any fun article =>
        !article.isNull && decide (row.article = env.texts.str article)) = true := by
      rintro row rfl
      refine List.any_eq_true.mpr ⟨entry.1, List.mem_map.mpr ⟨entry, mem, rfl⟩, ?_⟩
      rw [key]
      simp [SourceValue.isNull, Texts.str]
    unfold Held.get heldAtFirst sourceRow existingProducts
    rw [List.find?_map, List.find?_filter, Option.map_map]
    have keyed : (fun row : Product => decide ((decide (row.tenant = tenant) && decide (row.datasource = some datasource.pk) &&
        ((page.map Prod.fst).any fun article => !article.isNull && decide (row.article = env.texts.str article))) = true ∧
        ((fun entry : SourceValue × Instance => entry.1.same (.text article)) ∘ fun row => (SourceValue.text row.article, row.load)) row = true)) =
        fun row => decide (row.tenant = tenant) && decide (row.datasource = some datasource.pk) && decide (row.article = article) := by
      funext row
      have same : (SourceValue.text row.article).same (.text article) = decide (row.article = article) := by
        rw [Bool.eq_iff_iff, SourceValue.same_text, decide_eq_true_iff, SourceValue.text.injEq, eq_comm]
      simp only [Function.comp_apply, same]
      by_cases own : row.article = article
      · rw [listed row own]
        simp [own]
      · simp [own]
    rw [keyed]
    rfl

theorem origin_refl {listings : List ListingRow} {account : ℕ} {shelf : Shelf} (valid : shelf.Valid)
    (there : ∀ listing ∈ listings, listing.product < shelf.nextPk) :
    Origin tenant datasource listings account shelf shelf where
  kept := fun article row found => ⟨row, found, rfl, fun _ => ⟨rfl, rfl, rfl, rfl, rfl, rfl, rfl⟩⟩
  made := by
    intro article current absent found
    rw [absent] at found
    cases found
  fresh := by
    rintro pk above ⟨listing, mem, rfl, -⟩
    exact Nat.lt_irrefl _ (Nat.lt_of_lt_of_le (there listing mem) above)

theorem mem_bumpIds {page : List (SourceValue × Prepared)} {shelf : Shelf} {listings : List ListingRow} {account : ℕ}
    (texts : ∀ entry ∈ page, ∃ article, entry.1 = .text article) :
    (∃ pk ∈ page.filterMap (fun entry => ((heldAtFirst env tenant datasource page shelf).get entry.1).bind fun product =>
        if sourceChangesFeed product entry.2 then some product.pk else none), Owns listings pk account) ↔
      ∃ entry ∈ page, ∃ article row, entry.1 = .text article ∧ sourceRow tenant datasource article shelf = some row ∧
        sourceChangesFeed row.load entry.2 = true ∧ Owns listings row.pk account := by
  have fits : HeldFits env tenant datasource _ [] (heldAtFirst env tenant datasource page shelf) shelf := heldAtFirst_fits page shelf
  constructor
  · rintro ⟨pk, listed, owns⟩
    obtain ⟨entry, mem, found⟩ := List.mem_filterMap.mp listed
    obtain ⟨article, key⟩ := texts entry mem
    rw [key, fits.gets article ⟨entry, mem, key⟩, Option.bind_map, Option.bind_eq_some_iff] at found
    obtain ⟨row, there, chosen⟩ := found
    have loaded : row.inPage env (lastOf [] article) = row.load := rfl
    rw [Function.comp_apply, loaded] at chosen
    split at chosen
    · next changes =>
      cases chosen
      exact ⟨entry, mem, article, row, key, there, changes, owns⟩
    · cases chosen
  · rintro ⟨entry, mem, article, row, key, there, changes, owns⟩
    refine ⟨row.pk, List.mem_filterMap.mpr ⟨entry, mem, ?_⟩, owns⟩
    have loaded : row.inPage env (lastOf [] article) = row.load := rfl
    rw [key, fits.gets article ⟨entry, mem, key⟩, there, Option.map_some, Option.bind_some, loaded, if_pos changes]
    rfl

theorem upsertBatchFromSource_page {timed : List (Instant × SourceItem)} {s : Catalogue Brands} {page : List (SourceValue × Prepared)}
    {observedAt : Instant} {shelf : Shelf} {feeds : FeedIntent.FeedStore} {outcomes : List Outcome}
    (ready : PreparedPage env datasource timed s.brands page)
    (bumped : bumpProducts env (page.filterMap fun entry => ((heldAtFirst env tenant datasource page s.shelf).get entry.1).bind
      fun product => if sourceChangesFeed product entry.2 then some product.pk else none) observedAt s.listings s.feeds = .ok feeds)
    (written : writePage env tenant datasource page (heldAtFirst env tenant datasource page s.shelf) s.shelf = .ok (shelf, outcomes)) :
    ∃ batch, upsertBatchFromSource env tenant datasource observedAt (timed.map Prod.snd) s = (batch, .ok outcomes) ∧
      batch.shelf = shelf ∧ batch.feeds = feeds := by
  obtain ⟨_, prepares, articles, keys⟩ := prepareAll_page ready
  have unhashable : ¬ page.all (fun entry => entry.1.hashable) = false := by
    rw [keys]
    decide
  have goes : writeBatch env tenant datasource observedAt page s.listings s.shelf s.feeds = .ok (shelf, feeds, outcomes) := by
    unfold writeBatch
    dsimp only
    rw [raiseIf, if_neg unhashable]
    unfold heldAtFirst at bumped written
    change (bumpProducts env _ observedAt s.listings s.feeds >>= _) = _
    rw [bumped]
    change (writePage env tenant datasource page _ s.shelf >>= _) = _
    rw [written]
    rfl
  unfold upsertBatchFromSource
  rw [prepares]
  dsimp only
  have done : ((Except.ok (page.map Prod.snd) : Except ImportError (List Prepared)) >>= fun prepared =>
      withArticles prepared >>= fun page => attempts (fun e => e.isIntegrity || e.isStale)
        (writeBatch env tenant datasource observedAt page s.listings s.shelf s.feeds) 3) = .ok (shelf, feeds, outcomes) := by
    change (withArticles (page.map Prod.snd) >>= _) = _
    rw [articles]
    change attempts _ _ 3 = _
    rw [goes]
    rfl
  rw [done]
  exact ⟨_, rfl, rfl, rfl⟩

theorem upsertBatchFromSource_error {items : List SourceItem} {s batch : Catalogue Brands} {observedAt : Instant} {e : ImportError}
    (failed : upsertBatchFromSource env tenant datasource observedAt items s = (batch, .error e)) :
    batch.shelf = s.shelf ∧ batch.feeds = s.feeds := by
  unfold upsertBatchFromSource at failed
  dsimp only at failed
  split at failed
  · cases failed
  · cases failed
    exact ⟨rfl, rfl⟩

theorem bumpedOnce {timed : List (Instant × SourceItem)} {s each : Catalogue Brands} {outcomes : List Outcome}
    {page : List (SourceValue × Prepared)} {observedAt : Instant} (valid : s.Valid)
    (named : ∀ entry ∈ timed, ∃ article, entry.2.Named article) (ready : PreparedPage env datasource timed s.brands page)
    (imported : upsertEach env tenant datasource timed s = (each, .ok outcomes)) :
    ∃ feeds, bumpProducts env (page.filterMap fun entry => ((heldAtFirst env tenant datasource page s.shelf).get entry.1).bind
      fun product => if sourceChangesFeed product entry.2 then some product.pk else none) observedAt s.listings s.feeds = .ok feeds ∧
      BumpedOnce s.feeds each.feeds feeds := by
  generalize chosen : (page.filterMap fun entry => ((heldAtFirst env tenant datasource page s.shelf).get entry.1).bind
      fun product => if sourceChangesFeed product entry.2 then some product.pk else none) = ids
  -- the accounts of the page are the accounts that the records one by one move
  have accounts : ∀ account, account ∈ productFeedAccountIds ids s.listings s.feeds ↔
      Moves env tenant datasource account timed s ∧ Present s.feeds account := by
    intro account
    rw [mem_productFeedAccountIds, ← chosen, mem_bumpIds (preparedPage_text ready),
      ← moves_account_iff ready valid.shelf (origin_refl valid.shelf valid.listings) imported]
  have goes : ∃ feeds, bumpProducts env ids observedAt s.listings s.feeds = .ok feeds := by
    unfold bumpProducts
    by_cases ingress : env.ingressEnabled = true
    · have there : ∀ account ∈ productFeedAccountIds ids s.listings s.feeds, (s.feeds.account? account).isSome = true := by
        intro account listed
        obtain ⟨-, row, found, -⟩ := (accounts account).mp listed
        rw [found]
        rfl
      have movable : ∀ row ∈ s.feeds.accounts, row.pk ∈ productFeedAccountIds ids s.listings s.feeds → Movable row := by
        intro row mem listed
        obtain ⟨moves, other, found, present⟩ := (accounts row.pk).mp listed
        have own := account?_of_mem valid.accounts mem
        cases own.symm.trans found
        obtain ⟨_, -, advanced, -⟩ := each_account named imported own
        exact (advanced ⟨ingress, present, moves⟩).1
      obtain ⟨moved, bumped⟩ := @bumpFeedIntents_goes _ observedAt _ there movable
      rw [if_pos ingress, bumped]
      exact ⟨moved, rfl⟩
    · rw [if_neg ingress]
      exact ⟨_, rfl⟩
  obtain ⟨feeds, bumped⟩ := goes
  refine ⟨feeds, bumped, fun account row found => ?_⟩
  obtain ⟨more, many, advanced, rests⟩ := each_account named imported found
  obtain ⟨one, once, -, moved, stays⟩ := bumpProducts_account? bumped found
  refine ⟨more, one, many, once, ?_⟩
  have same : (env.ingressEnabled = true ∧ account ∈ productFeedAccountIds ids s.listings s.feeds) ↔
      (env.ingressEnabled = true ∧ row.deleted = false ∧ Moves env tenant datasource account timed s) := by
    rw [accounts]
    constructor
    · rintro ⟨ingress, moves, other, own, present⟩
      cases found.symm.trans own
      exact ⟨ingress, present, moves⟩
    · rintro ⟨ingress, present, moves⟩
      exact ⟨ingress, moves, row, found, present⟩
  by_cases moves : env.ingressEnabled = true ∧ row.deleted = false ∧ Moves env tenant datasource account timed s
  · rw [(moved (same.mpr moves)).2, if_pos (advanced moves).2]
  · rw [stays fun inside => moves (same.mp inside), rests moves, if_neg (Nat.lt_irrefl _), Nat.add_zero]

/-- A page is imported as its records would be one by one exactly when every record of an article that came before on
the page finds the same change against the values given before as against the columns that hold them. -/
theorem upsertBatchFromSource_same {timed : List (Instant × SourceItem)} {s : Catalogue Brands} {observedAt : Instant}
    (valid : s.Valid) (named : ∀ entry ∈ timed, ∃ article, entry.2.Named article) :
    SameImport env tenant datasource observedAt timed s ↔ ∀ each outcomes,
      upsertEach env tenant datasource timed s = (each, .ok outcomes) → Comparable env tenant datasource timed [] s := by
  have page_goes : ∀ each outcomes, upsertEach env tenant datasource timed s = (each, .ok outcomes) →
      ∃ batch others, upsertBatchFromSource env tenant datasource observedAt (timed.map Prod.snd) s = (batch, .ok others) ∧
        batch.shelf = each.shelf ∧ BumpedOnce s.feeds each.feeds batch.feeds ∧
        (others = outcomes ↔ Comparable env tenant datasource timed [] s) := by
    intro each outcomes imported
    obtain ⟨page, ready⟩ := preparedPage_of_each named imported
    obtain ⟨others, written, agrees⟩ :=
      page_lockstep ready (fun _ there => there) valid.shelf (heldAtFirst_fits page s.shelf) imported
    obtain ⟨_, bumped, once⟩ := @bumpedOnce _ _ _ _ _ _ _ _ _ observedAt valid named ready imported
    obtain ⟨batch, done, shelf, moved⟩ := upsertBatchFromSource_page ready bumped written
    exact ⟨batch, others, done, shelf, moved ▸ once, agrees⟩
  constructor
  · intro same each outcomes imported
    obtain ⟨batch, others, done, -, -, agrees⟩ := page_goes each outcomes imported
    obtain ⟨_, done', -, -⟩ := same.same each outcomes imported
    rw [done, Prod.mk.injEq, Except.ok.injEq] at done'
    exact agrees.mp done'.2
  · intro comparable
    refine ⟨fun batch e failed => upsertBatchFromSource_error failed, fun each outcomes imported => ?_⟩
    obtain ⟨batch, others, done, shelf, once, agrees⟩ := page_goes each outcomes imported
    rw [agrees.mpr (comparable each outcomes imported)] at done
    exact ⟨batch, done, shelf, once⟩

end

/-! Pages with a record that is repeated. -/

def leverAt (price : String) : SourceItem := { lever with price := some (.text price.toList) }

theorem leverAt_named (price : String) : (leverAt price).Named "A100".toList := ⟨rfl, fun _ kept => (Option.some.inj kept).symm⟩

theorem catalogueOf_valid : (catalogueOf imported).Valid where
  shelf := {
    keys := by decide
    bound := fun row mem => by
      rw [List.mem_singleton.mp mem]
      decide
    fits := fun row mem => by
      rw [List.mem_singleton.mp mem]
      exact ⟨by decide, by decide, by decide, by decide⟩ }
  listings := fun listing mem => absurd mem List.not_mem_nil
  accounts := List.nodup_nil

theorem upsertBatchFromSource_same_repeated :
    SameImport plainTexts 3 oneC 9 [(0, leverAt "1200"), (1, leverAt "1200")] (catalogueOf imported) := by
  have named : ∀ entry ∈ [((0 : Instant), leverAt "1200"), (1, leverAt "1200")], ∃ article, entry.2.Named article := by
    intro entry mem
    rcases List.mem_cons.mp mem with rfl | mem
    · exact ⟨_, leverAt_named "1200"⟩
    · rw [List.mem_singleton.mp mem]
      exact ⟨_, leverAt_named "1200"⟩
  refine (upsertBatchFromSource_same catalogueOf_valid named).mpr fun each outcomes _ => ⟨?_, ?_, trivial⟩
  · intro article row before _ _ last
    cases last
  · intro article row before same found _ _ moved
    cases (leverAt_named "1200").named.symm.trans same
    have hash : (sourceRow 3 oneC "A100".toList
        (upsertFromSource plainTexts 3 oneC 0 (leverAt "1200") (catalogueOf imported)).1.shelf).map Product.hash1c =
        some (computeHash plainTexts (leverAt "1200")) := by
      decide +kernel
    rw [found] at hash
    exact absurd (Option.some.inj hash) moved

/-- A price of three digits after the point, and then the price that it is rounded to: one by one the second record
changes nothing, and on a page it changes the price. -/
theorem upsertBatchFromSource_same_rounded : ¬ ∀ (env : Environment Unit) (tenant : ℕ) (datasource : DataSource) (observedAt : Instant)
    (timed : List (Instant × SourceItem)) (s : Catalogue Unit), s.Valid → (∀ entry ∈ timed, ∃ article, entry.2.Named article) →
    SameImport env tenant datasource observedAt timed s := by
  intro always
  have named : ∀ entry ∈ [((0 : Instant), leverAt "10.005"), (1, leverAt "10.01")], ∃ article, entry.2.Named article := by
    intro entry mem
    rcases List.mem_cons.mp mem with rfl | mem
    · exact ⟨_, leverAt_named "10.005"⟩
    · rw [List.mem_singleton.mp mem]
      exact ⟨_, leverAt_named "10.01"⟩
  have same := (always plainTexts 3 oneC 9 _ _ catalogueOf_valid named).same
  have each : (upsertEach plainTexts 3 oneC [(0, leverAt "10.005"), (1, leverAt "10.01")] (catalogueOf imported)).2.toOption =
      some [⟨.updated, some .priceOnly⟩, ⟨.unchanged, none⟩] := by
    decide +kernel
  have page : (upsertBatchFromSource plainTexts 3 oneC 9 [leverAt "10.005", leverAt "10.01"] (catalogueOf imported)).2.toOption =
      some [⟨.updated, some .priceOnly⟩, ⟨.updated, some .priceOnly⟩] := by
    decide +kernel
  obtain ⟨batch, done, -⟩ := same _ _ (of_toOption each)
  have done' : upsertBatchFromSource plainTexts 3 oneC 9 [leverAt "10.005", leverAt "10.01"] (catalogueOf imported) = (batch, _) := done
  rw [done'] at page
  cases page

end MapBackend.Products.Import
