import MapBackend.Products.PageLockstep

/-!
All the records of a page: the page goes through when the records one by one do, with the same writes, and it tells
the same when every record finds the same.
-/

namespace MapBackend.Products.Import
open MapBackend.Library MapBackend.Core MapBackend.Marketplaces

section
variable {Brands : Type} (env : Environment Brands) (tenant : ℕ) (datasource : DataSource)

/-- Every record finds the same change against the records of the page before it as against their columns. -/
def Comparable : List (Instant × SourceItem) → List SourceItem → Catalogue Brands → Prop
  | [], _, _ => True
  | (observedAt, data) :: rest, history, s =>
    Alike env tenant datasource history data s.shelf ∧
      Comparable rest (data :: history) (upsertFromSource env tenant datasource observedAt data s).1

def PreparedPage : List (Instant × SourceItem) → Brands → List (SourceValue × Prepared) → Prop
  | [], _, page => page = []
  | (_, data) :: rest, brands, page =>
    ∃ article prepared later brands', prepareSourceUpsert env datasource data brands = (brands', .ok prepared) ∧
      data.Named article ∧ page = (.text article, prepared) :: later ∧ PreparedPage rest brands' later

end

section
variable {Brands : Type} {env : Environment Brands} {tenant : ℕ} {datasource : DataSource}

variable {s each : Catalogue Brands} {outcomes : List Outcome}

theorem upsertEach_cons {observedAt : Instant} {data : SourceItem} {rest : List (Instant × SourceItem)}
    (imported : upsertEach env tenant datasource ((observedAt, data) :: rest) s = (each, .ok outcomes)) :
    ∃ next outcome others, upsertFromSource env tenant datasource observedAt data s = (next, .ok outcome) ∧
      upsertEach env tenant datasource rest next = (each, .ok others) ∧ outcomes = outcome :: others := by
  rw [upsertEach] at imported
  split at imported
  · cases imported
  · next next outcome first =>
    split at imported
    · cases imported
    · next last others second =>
      cases imported
      exact ⟨next, outcome, others, first, second, rfl⟩

variable {timed : List (Instant × SourceItem)}

theorem preparedPage_of_each
    (named : ∀ entry ∈ timed, ∃ article, entry.2.Named article)
    (imported : upsertEach env tenant datasource timed s = (each, .ok outcomes)) :
    ∃ page, PreparedPage env datasource timed s.brands page := by
  induction timed generalizing s outcomes with
  | nil => exact ⟨[], rfl⟩
  | cons entry _ ih =>
    obtain ⟨_, _⟩ := entry
    obtain ⟨next, _, _, first, second, rfl⟩ := upsertEach_cons imported
    obtain ⟨prepared, -, ready, -, -, -⟩ := upsertFromSource_ok first
    obtain ⟨article, is_named⟩ := named _ List.mem_cons_self
    obtain ⟨page, later⟩ := ih (fun entry mem => named entry (List.mem_cons_of_mem _ mem)) second
    exact ⟨_, article, prepared, page, next.brands, ready, is_named, rfl, later⟩

theorem prepareAll_page {brands : Brands} {page : List (SourceValue × Prepared)}
    (ready : PreparedPage env datasource timed brands page) :
    ∃ later, prepareAll env datasource (timed.map Prod.snd) brands = (later, .ok (page.map Prod.snd)) ∧
      withArticles (page.map Prod.snd) = .ok page ∧ page.all (fun entry => entry.1.hashable) = true := by
  induction timed generalizing brands page with
  | nil =>
    cases ready
    exact ⟨brands, rfl, rfl, rfl⟩
  | cons entry _ ih =>
    obtain ⟨_, _⟩ := entry
    obtain ⟨_, _, _, _, first, named, rfl, second⟩ := ready
    obtain ⟨later, prepares, articles, keys⟩ := ih second
    obtain ⟨same_data, -⟩ := prepareSourceUpsert_ok first
    refine ⟨later, ?_, ?_, ?_⟩
    · rw [List.map_cons, prepareAll, first]
      dsimp only
      rw [prepares]
      rfl
    · rw [List.map_cons, withArticles, same_data, named.named, articles]
      rfl
    · rw [List.all_cons, keys]
      rfl

theorem page_lockstep
    {page : List (SourceValue × Prepared)} {wanted : Text → Prop} {history : List SourceItem} {held : Held}
    (ready : PreparedPage env datasource timed s.brands page) (want : ∀ article, (∃ entry ∈ page, entry.1 = .text article) → wanted article)
    (valid : s.shelf.Valid) (fits : HeldFits env tenant datasource wanted history held s.shelf)
    (imported : upsertEach env tenant datasource timed s = (each, .ok outcomes)) :
    ∃ others, writePage env tenant datasource page held s.shelf = .ok (each.shelf, others) ∧
      (others = outcomes ↔ Comparable env tenant datasource timed history s) := by
  induction timed generalizing s outcomes page history held with
  | nil =>
    cases ready
    cases imported
    exact ⟨[], rfl, fun _ => trivial, fun _ => rfl⟩
  | cons entry _ ih =>
    obtain ⟨_, _⟩ := entry
    obtain ⟨article, _, later, _, first, named, rfl, second⟩ := ready
    obtain ⟨next, _, _, one, more, rfl⟩ := upsertEach_cons imported
    obtain ⟨_, _, ready', named', -, written⟩ := upsertFromSource_ok one
    cases first.symm.trans ready'
    cases named.named.symm.trans named'
    obtain ⟨product, other, applied, fits', valid', same⟩ :=
      record_lockstep valid fits named (want article ⟨_, List.mem_cons_self, rfl⟩) first written
    obtain ⟨others, pages, agrees⟩ := ih second
      (fun name ⟨entry, mem, key⟩ => want name ⟨entry, List.mem_cons_of_mem _ mem, key⟩) valid' fits' more
    refine ⟨other :: others, ?_, ?_⟩
    · rw [writePage, applied]
      change (writePage env tenant datasource later (held.set (.text article) product) next.shelf >>= _) = _
      rw [pages]
      rfl
    · rw [Comparable, ← same, one, ← agrees, List.cons.injEq]

end

end MapBackend.Products.Import
