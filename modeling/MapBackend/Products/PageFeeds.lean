import MapBackend.Products.PageRecords
import Mathlib.Data.List.Dedup

/-!
The feed cursors that an import moves: the records one by one move the cursor of an account when one of them changes
a product of the account, and the first such record changes the product as it was before the page.
-/

namespace MapBackend.Products.Import
open MapBackend.Library MapBackend.Core MapBackend.Marketplaces

/-! ## Cursors -/

def Owns (listings : List ListingRow) (product account : ℕ) : Prop :=
  ∃ listing ∈ listings, listing.product = product ∧ listing.account = account ∧ listing.live = true

def Present (feeds : FeedIntent.FeedStore) (account : ℕ) : Prop := ∃ row, feeds.account? account = some row ∧ row.deleted = false

theorem mem_productFeedAccountIds {ids : List ℕ} {listings : List ListingRow} {feeds : FeedIntent.FeedStore} {account : ℕ} :
    account ∈ productFeedAccountIds ids listings feeds ↔ (∃ product ∈ ids, Owns listings product account) ∧ Present feeds account := by
  unfold productFeedAccountIds
  rw [List.mem_dedup, List.mem_map]
  constructor
  · rintro ⟨listing, mem, rfl⟩
    obtain ⟨there, holds⟩ := List.mem_filter.mp mem
    simp only [Bool.and_eq_true, List.contains_iff_mem] at holds
    obtain ⟨⟨known, live⟩, owner⟩ := holds
    obtain ⟨row, found, present⟩ := (Option.any_eq_true _ _).mp owner
    exact ⟨⟨listing.product, known, listing, there, rfl, rfl, live⟩, row, found, by simpa using present⟩
  · rintro ⟨⟨product, known, listing, there, rfl, rfl, live⟩, row, found, present⟩
    refine ⟨listing, List.mem_filter.mpr ⟨there, ?_⟩, rfl⟩
    simp only [Bool.and_eq_true, List.contains_iff_mem]
    exact ⟨⟨known, live⟩, (Option.any_eq_true _ _).mpr ⟨row, found, by simp [present]⟩⟩

def Movable (row : FeedIntent.FeedAccount) : Prop := row.drifted = false ∧ row.exhausted = false

theorem bump_row (row : FeedIntent.FeedAccount) (observedAt : Instant) :
    (row.bump observedAt).pk = row.pk ∧ (row.bump observedAt).deleted = row.deleted ∧
      (row.exhausted = false → (row.bump observedAt).cursor.revision = row.cursor.revision + 1) := by
  refine ⟨rfl, rfl, fun room => ?_⟩
  have below : row.cursor.revision < FeedIntent.maxFeedIntentRevision := Nat.lt_of_not_le (of_decide_eq_false room)
  change row.cursor.next.revision = _
  rw [FeedIntent.FeedCursor.next, dif_pos below]

section
variable {Brands : Type} {env : Environment Brands} {ids : List ℕ} {observedAt : Instant} {listings : List ListingRow}
  {feeds moved : FeedIntent.FeedStore}

variable {row : FeedIntent.FeedAccount} {account : ℕ}

theorem account?_mem (found : feeds.account? account = some row) :
    row ∈ feeds.accounts ∧ row.pk = account := by
  have same := List.find?_some (show feeds.accounts.find? (fun row => decide (row.pk = account)) = some row from found)
  exact ⟨List.mem_of_find?_eq_some found, of_decide_eq_true same⟩

theorem account?_of_mem (keys : (feeds.accounts.map FeedIntent.FeedAccount.pk).Nodup) (mem : row ∈ feeds.accounts) :
    feeds.account? row.pk = some row := by
  cases found : feeds.account? row.pk with
  | none => exact absurd (decide_eq_true rfl) (List.find?_eq_none.mp found row mem)
  | some =>
    obtain ⟨there, same⟩ := account?_mem found
    exact congrArg some (row_unique keys there mem same)

theorem bumpFeedIntents_account? (bumped : feeds.bumpFeedIntents ids observedAt = .ok (moved, ())) :
    moved.account? account =
      (feeds.account? account).map fun row => if ids.contains row.pk then row.bump observedAt else row := by
  simp only [FeedIntent.FeedStore.bumpFeedIntents, bind_ok, raiseIf_ok] at bumped
  obtain ⟨-, -, -, -, -, -, made⟩ := bumped
  cases made
  unfold FeedIntent.FeedStore.account?
  rw [List.find?_map]
  congr 2
  funext row
  simp only [Function.comp_apply]
  split <;> rfl

theorem bumpFeedIntents_movable (bumped : feeds.bumpFeedIntents ids observedAt = .ok (moved, ()))
    (mem : row ∈ feeds.accounts) (known : row.pk ∈ ids) : Movable row := by
  simp only [FeedIntent.FeedStore.bumpFeedIntents, bind_ok, raiseIf_ok] at bumped
  obtain ⟨-, -, -, drift, -, room, -⟩ := bumped
  have locked : row ∈ feeds.accounts.filter fun account => ids.contains account.pk :=
    List.mem_filter.mpr ⟨mem, List.contains_iff_mem.mpr known⟩
  constructor
  · rw [← Bool.not_eq_true]
    exact fun drifted => drift (List.any_eq_true.mpr ⟨row, locked, drifted⟩)
  · rw [← Bool.not_eq_true]
    exact fun full => room (List.any_eq_true.mpr ⟨row, locked, full⟩)

theorem bumpFeedIntents_goes (there : ∀ account ∈ ids, (feeds.account? account).isSome = true)
    (movable : ∀ row ∈ feeds.accounts, row.pk ∈ ids → Movable row) :
    ∃ moved, feeds.bumpFeedIntents ids observedAt = .ok (moved, ()) := by
  have all : ¬ ids.all (fun pk => (feeds.account? pk).isSome) = false := by
    rw [Bool.not_eq_false, List.all_eq_true]
    exact there
  have drift : ¬ (feeds.accounts.filter fun account => ids.contains account.pk).any FeedIntent.FeedAccount.drifted = true := by
    rw [List.any_eq_true]
    rintro ⟨row, locked, drifted⟩
    obtain ⟨mem, known⟩ := List.mem_filter.mp locked
    rw [(movable row mem (List.contains_iff_mem.mp known)).1] at drifted
    cases drifted
  have room : ¬ (feeds.accounts.filter fun account => ids.contains account.pk).any FeedIntent.FeedAccount.exhausted = true := by
    rw [List.any_eq_true]
    rintro ⟨row, locked, full⟩
    obtain ⟨mem, known⟩ := List.mem_filter.mp locked
    rw [(movable row mem (List.contains_iff_mem.mp known)).2] at full
    cases full
  cases goes : feeds.bumpFeedIntents ids observedAt with
  | ok result => exact ⟨result.1, rfl⟩
  | error =>
    rw [FeedIntent.FeedStore.bumpFeedIntents, raiseIf, if_neg all] at goes
    change (raiseIf _ _ >>= _) = _ at goes
    rw [raiseIf, if_neg drift] at goes
    change (raiseIf _ _ >>= _) = _ at goes
    rw [raiseIf, if_neg room] at goes
    cases goes

theorem bumpProducts_account?
    (bumped : bumpProducts env ids observedAt listings feeds = .ok moved) (found : feeds.account? account = some row) :
    ∃ later, moved.account? account = some later ∧ later.deleted = row.deleted ∧
      ((env.ingressEnabled = true ∧ account ∈ productFeedAccountIds ids listings feeds) →
        Movable row ∧ later.cursor.revision = row.cursor.revision + 1) ∧
      (¬ (env.ingressEnabled = true ∧ account ∈ productFeedAccountIds ids listings feeds) → later = row) := by
  unfold bumpProducts at bumped
  obtain ⟨mem, rfl⟩ := account?_mem found
  split at bumped
  · next ingress =>
    split at bumped
    · next advanced goes =>
      cases bumped
      have after := @bumpFeedIntents_account? _ _ _ _ row.pk goes
      rw [found, Option.map_some] at after
      by_cases known : row.pk ∈ productFeedAccountIds ids listings feeds
      · rw [if_pos (List.contains_iff_mem.mpr known)] at after
        have movable := bumpFeedIntents_movable goes mem known
        exact ⟨_, after, rfl, fun _ => ⟨movable, (bump_row row observedAt).2.2 movable.2⟩, fun out => absurd ⟨ingress, known⟩ out⟩
      · rw [if_neg (fun inside => known (List.contains_iff_mem.mp inside))] at after
        exact ⟨_, after, rfl, fun inside => absurd inside.2 known, fun _ => rfl⟩
    · cases bumped
  · next legacy =>
    cases bumped
    exact ⟨row, found, rfl, fun inside => absurd inside.1 legacy, fun _ => rfl⟩

end


/-! ## The records one by one -/

section
variable {Brands : Type} (env : Environment Brands) (tenant : ℕ) (datasource : DataSource) (account : ℕ)

def MovesNow (data : SourceItem) (s : Catalogue Brands) : Prop :=
  ∃ article row prepared brands, data.article = some (.text article) ∧ sourceRow tenant datasource article s.shelf = some row ∧
    prepareSourceUpsert env datasource data s.brands = (brands, .ok prepared) ∧ sourceChangesFeed row.load prepared = true ∧
    Owns s.listings row.pk account

def Moves : List (Instant × SourceItem) → Catalogue Brands → Prop
  | [], _ => False
  | (observedAt, data) :: rest, s =>
    MovesNow env tenant datasource account data s ∨ Moves rest (upsertFromSource env tenant datasource observedAt data s).1

end

section
variable {Brands : Type} {env : Environment Brands} {tenant : ℕ} {datasource : DataSource} {account : ℕ}

theorem record_account {observedAt : Instant} {data : SourceItem} {s later : Catalogue Brands} {outcome : Outcome} {article : Text}
    {row : FeedIntent.FeedAccount} (named : data.Named article)
    (imported : upsertFromSource env tenant datasource observedAt data s = (later, .ok outcome))
    (found : s.feeds.account? account = some row) :
    ∃ after, later.feeds.account? account = some after ∧ after.deleted = row.deleted ∧
      ((env.ingressEnabled = true ∧ row.deleted = false ∧ MovesNow env tenant datasource account data s) →
        Movable row ∧ after.cursor.revision = row.cursor.revision + 1) ∧
      (¬ (env.ingressEnabled = true ∧ row.deleted = false ∧ MovesNow env tenant datasource account data s) → after = row) := by
  obtain ⟨prepared, _, ready, same, -, written⟩ := upsertFromSource_ok imported
  cases named.named.symm.trans same
  obtain ⟨-, bumped⟩ := writeSource_ok written
  cases there : sourceRow tenant datasource article s.shelf with
  | none =>
    rw [there] at bumped
    refine ⟨row, by rw [bumped, found], rfl, fun inside => ?_, fun _ => rfl⟩
    obtain ⟨-, -, other, product, -, -, own, some_row, -⟩ := inside
    cases named.named.symm.trans own
    rw [there] at some_row
    cases some_row
  | some product =>
    rw [there] at bumped
    have moves : (env.ingressEnabled = true ∧ row.deleted = false ∧ MovesNow env tenant datasource account data s) ↔
        (env.ingressEnabled = true ∧ account ∈ productFeedAccountIds
          (if sourceChangesFeed product.load prepared then [product.pk] else []) s.listings s.feeds) := by
      rw [mem_productFeedAccountIds]
      constructor
      · rintro ⟨ingress, present, other, _, _, _, own, some_row, ready', changes, owns⟩
        cases named.named.symm.trans own
        cases there.symm.trans some_row
        cases ready.symm.trans ready'
        rw [if_pos changes]
        exact ⟨ingress, ⟨product.pk, List.mem_singleton_self _, owns⟩, row, found, present⟩
      · rintro ⟨ingress, ⟨_, listed, owns⟩, other, own, present⟩
        cases found.symm.trans own
        by_cases changes : sourceChangesFeed product.load prepared = true
        · rw [if_pos changes, List.mem_singleton] at listed
          subst listed
          exact ⟨ingress, present, article, product, prepared, later.brands, named.named, there, ready, changes, owns⟩
        · rw [if_neg changes] at listed
          cases listed
    rw [moves]
    exact bumpProducts_account? bumped found

theorem each_account {timed : List (Instant × SourceItem)} {s each : Catalogue Brands} {outcomes : List Outcome}
    {row : FeedIntent.FeedAccount} (named : ∀ entry ∈ timed, ∃ article, entry.2.Named article)
    (imported : upsertEach env tenant datasource timed s = (each, .ok outcomes)) (found : s.feeds.account? account = some row) :
    ∃ after, each.feeds.account? account = some after ∧
      ((env.ingressEnabled = true ∧ row.deleted = false ∧ Moves env tenant datasource account timed s) →
        Movable row ∧ row.cursor.revision < after.cursor.revision) ∧
      (¬ (env.ingressEnabled = true ∧ row.deleted = false ∧ Moves env tenant datasource account timed s) → after = row) := by
  induction timed generalizing s outcomes row with
  | nil =>
    cases imported
    exact ⟨row, found, fun inside => absurd inside.2.2 not_false, fun _ => rfl⟩
  | cons entry rest ih =>
    obtain ⟨observedAt, data⟩ := entry
    obtain ⟨next, _, _, one, more, rfl⟩ := upsertEach_cons imported
    obtain ⟨article, is_named⟩ := named _ List.mem_cons_self
    obtain ⟨_, here, deleted, moved, stays⟩ := record_account is_named one found
    obtain ⟨after, there, advanced, rests⟩ := ih (fun entry mem => named entry (List.mem_cons_of_mem _ mem)) more here
    rw [deleted] at advanced rests
    have later_same : (upsertFromSource env tenant datasource observedAt data s).1 = next := by rw [one]
    refine ⟨after, there, ?_, ?_⟩
    · rintro ⟨ingress, present, moves⟩
      rw [Moves, later_same] at moves
      by_cases now : MovesNow env tenant datasource account data s
      · obtain ⟨movable, _⟩ := moved ⟨ingress, present, now⟩
        refine ⟨movable, ?_⟩
        by_cases again : Moves env tenant datasource account rest next
        · have higher := (advanced ⟨ingress, present, again⟩).2
          omega
        · rw [rests fun inside => again inside.2.2]
          omega
      · cases stays fun inside => now inside.2.2
        exact advanced ⟨ingress, present, moves.resolve_left now⟩
    · intro out
      have not_now : ¬ (env.ingressEnabled = true ∧ row.deleted = false ∧ MovesNow env tenant datasource account data s) :=
        fun inside => out ⟨inside.1, inside.2.1, .inl inside.2.2⟩
      have not_later : ¬ (env.ingressEnabled = true ∧ row.deleted = false ∧ Moves env tenant datasource account rest next) :=
        fun inside => out ⟨inside.1, inside.2.1, .inr (by rw [later_same]; exact inside.2.2)⟩
      rw [rests not_later, stays not_now]

end

/-! ## The first change -/

structure SameView (before after : Product) : Prop where
  name : after.name = before.name
  brand : after.brand = before.brand
  category1c : after.category1c = before.category1c
  condition : after.condition = before.condition
  description1c : after.description1c = before.description1c
  deleted : after.deletedAt.isSome = before.deletedAt.isSome
  syncExcluded : after.syncExcluded = before.syncExcluded

theorem SameView.changes {before after : Product} (view : SameView before after) (prepared : Prepared) :
    sourceChangesFeed after.load prepared = sourceChangesFeed before.load prepared := by
  have load_name : after.load.name = before.load.name := congrArg SourceValue.text view.name
  have load_brand : after.load.brand = before.load.brand := view.brand
  have load_category : after.load.category1c = before.load.category1c := congrArg SourceValue.text view.category1c
  have load_condition : after.load.condition = before.load.condition := congrArg SourceValue.text view.condition
  have load_description : after.load.description1c = before.load.description1c := congrArg SourceValue.text view.description1c
  have load_deleted : after.load.deleted = before.load.deleted := view.deleted
  have load_excluded : after.load.syncExcluded = before.load.syncExcluded := view.syncExcluded
  have brand : (prepared.defaults.keepBrand after.load).brand = (prepared.defaults.keepBrand before.load).brand := by
    unfold Defaults.keepBrand
    rw [load_brand]
    split <;> rfl
  obtain ⟨name, category, condition, -, -, description, -⟩ := keepBrand_rest prepared.defaults after.load
  obtain ⟨name', category', condition', -, -, description', -⟩ := keepBrand_rest prepared.defaults before.load
  unfold sourceChangesFeed
  dsimp only
  rw [brand, name, category, condition, description, name', category', condition', description', load_name, load_brand,
    load_category, load_condition, load_description, load_deleted, load_excluded]

section
variable {Brands : Type} {env : Environment Brands} {tenant : ℕ} {datasource : DataSource} {account : ℕ}

theorem SameView.saved {row : Product} {prepared : Prepared} {columns : Columns} (fits : row.Fits) (included : row.excluded = false)
    (stored : Stored env (prepared.defaults.keepBrand row.load) columns) (quiet : sourceChangesFeed row.load prepared = false) :
    SameView row ((row.restore row.deletedAt.isSome).write columns) := by
  unfold sourceChangesFeed at quiet
  cases deleted : row.deletedAt.isSome with
  | true =>
    rw [show row.load.deleted = true from deleted, if_pos rfl] at quiet
    cases quiet
  | false =>
    have out : row.syncExcluded = false := by
      rw [Product.excluded, deleted] at included
      exact included
    rw [show row.load.deleted = false from deleted, show row.load.syncExcluded = false from out, if_neg (by decide),
      if_neg (by decide)] at quiet
    simp only [Bool.or_eq_false_iff, Bool.not_eq_false', decide_eq_false_iff_not, ne_eq, not_not] at quiet
    obtain ⟨⟨⟨⟨name, brand⟩, category⟩, condition⟩, description⟩ := quiet
    have column {limit : Option ℕ} {old kept : Text} {value : SourceValue} (short : ∀ most ∈ limit, old.length ≤ most)
        (same : (SourceValue.text old).same value = true) (held : charColumn env.texts limit value = .ok kept) : kept = old := by
      rw [SourceValue.same_text] at same
      subst same
      exact (charColumn_text short held).symm
    have loaded : row.load.brand = row.brand := rfl
    refine ⟨column (by simpa using fits.name) name stored.name, ?_, column (by simpa using fits.category1c) category stored.category1c,
      column (by simpa using fits.condition) condition stored.condition,
      column (by rintro most ⟨⟩) description stored.description1c, rfl, rfl⟩
    have kept := stored.brand
    rw [← brand, loaded] at kept
    exact (charColumn_text (by simpa using fits.brand) kept).symm

end

theorem SameView.trans {a b c : Product} (one : SameView a b) (other : SameView b c) : SameView a c where
  name := other.name.trans one.name
  brand := other.brand.trans one.brand
  category1c := other.category1c.trans one.category1c
  condition := other.condition.trans one.condition
  description1c := other.description1c.trans one.description1c
  deleted := other.deleted.trans one.deleted
  syncExcluded := other.syncExcluded.trans one.syncExcluded

/-- The products as they were, as far as the feed of the account shows them. -/
structure Origin (tenant : ℕ) (datasource : DataSource) (listings : List ListingRow) (account : ℕ) (first now : Shelf) : Prop where
  kept : ∀ article row, sourceRow tenant datasource article first = some row →
    ∃ current, sourceRow tenant datasource article now = some current ∧ current.pk = row.pk ∧
      (Owns listings row.pk account → SameView row current)
  made : ∀ article current, sourceRow tenant datasource article first = none →
    sourceRow tenant datasource article now = some current → ¬ Owns listings current.pk account
  fresh : ∀ pk, now.nextPk ≤ pk → ¬ Owns listings pk account

section
variable {Brands : Type} {env : Environment Brands} {tenant : ℕ} {datasource : DataSource} {account : ℕ} {first : Shelf}

variable {data : SourceItem} {article : Text}

theorem movesNow_iff {s : Catalogue Brands} {prepared : Prepared} {brands : Brands}
    (named : data.Named article) (ready : prepareSourceUpsert env datasource data s.brands = (brands, .ok prepared))
    (origin : Origin tenant datasource s.listings account first s.shelf) :
    MovesNow env tenant datasource account data s ↔ ∃ row, sourceRow tenant datasource article first = some row ∧
      sourceChangesFeed row.load prepared = true ∧ Owns s.listings row.pk account := by
  constructor
  · rintro ⟨_, current, _, _, own, there, ready', changes, owns⟩
    cases named.named.symm.trans own
    cases ready.symm.trans ready'
    cases before : sourceRow tenant datasource article first with
    | none => exact absurd owns (origin.made article current before there)
    | some row =>
      obtain ⟨now, found, key, view⟩ := origin.kept article row before
      cases there.symm.trans found
      rw [key] at owns
      exact ⟨row, rfl, (view owns).changes prepared ▸ changes, owns⟩
  · rintro ⟨row, before, changes, owns⟩
    obtain ⟨now, found, key, view⟩ := origin.kept article row before
    exact ⟨article, now, prepared, brands, named.named, found, ready, ((view owns).changes prepared).trans changes, key ▸ owns⟩

theorem record_valid {observedAt : Instant} {s later : Catalogue Brands} {outcome : Outcome}
    (valid : s.shelf.Valid) (named : data.Named article)
    (imported : upsertFromSource env tenant datasource observedAt data s = (later, .ok outcome)) : later.shelf.Valid := by
  obtain ⟨_, _, ready, same, -, written⟩ := upsertFromSource_ok imported
  cases named.named.symm.trans same
  rcases record_shelf named ready written with ⟨-, -, -, -, added, -⟩ | ⟨-, unchanged⟩ | ⟨_, _, -, -, stored, after⟩
  · exact added valid
  · rw [unchanged]
    exact valid
  · rw [after]
    exact valid.saved _ _ stored

theorem Origin.next {observedAt : Instant} {s later : Catalogue Brands} {outcome : Outcome}
    (origin : Origin tenant datasource s.listings account first s.shelf) (valid : s.shelf.Valid) (named : data.Named article)
    (imported : upsertFromSource env tenant datasource observedAt data s = (later, .ok outcome))
    (quiet : ¬ MovesNow env tenant datasource account data s) :
    Origin tenant datasource s.listings account first later.shelf := by
  obtain ⟨prepared, _, ready, same, -, written⟩ := upsertFromSource_ok imported
  cases named.named.symm.trans same
  rcases record_shelf named ready written with ⟨absent, row, after, key, -, rows⟩ | ⟨-, unchanged⟩ |
    ⟨row, columns, found, included, stored, after⟩
  · have no_row : ∀ other row, sourceRow tenant datasource other first = some row → other ≠ article := by
      rintro other old before rfl
      obtain ⟨current, there, -⟩ := origin.kept other old before
      rw [absent] at there
      cases there
    refine ⟨fun other old before => ?_, fun other current before there => ?_, fun pk above => ?_⟩
    · rw [rows, if_neg (no_row other old before)]
      exact origin.kept other old before
    · rw [rows] at there
      by_cases hit : other = article
      · rw [if_pos hit] at there
        cases there
        exact origin.fresh _ (Nat.le_of_eq key.symm)
      · rw [if_neg hit] at there
        exact origin.made other current before there
    · rw [after] at above
      exact origin.fresh pk (Nat.le_of_succ_le above)
  · rw [unchanged]
    exact origin
  · rw [after]
    have rows (other : Text) := @sourceRow_saved tenant datasource s.shelf row.pk row.deletedAt.isSome columns other
    refine ⟨fun other old before => ?_, fun other current before there => ?_, origin.fresh⟩
    · obtain ⟨current, there, same_key, view⟩ := origin.kept other old before
      refine ⟨_, by rw [rows, there, Option.map_some], ?_⟩
      by_cases hit : current.pk = row.pk
      · obtain ⟨mem, -, -, -⟩ := sourceRow_some found
        obtain ⟨mem', -, -, -⟩ := sourceRow_some there
        obtain rfl := row_unique valid.keys mem' mem hit
        rw [if_pos rfl, (write_source current _ columns).1]
        refine ⟨same_key, fun owns => ?_⟩
        have silent : sourceChangesFeed current.load prepared = false := by
          rw [← Bool.not_eq_true]
          exact fun changes => quiet ⟨article, current, prepared, later.brands, named.named, found, ready, changes, same_key ▸ owns⟩
        exact (view owns).trans (SameView.saved (valid.fits current mem) included stored silent)
      · rw [if_neg hit]
        exact ⟨same_key, view⟩
    · rw [rows] at there
      obtain ⟨old, stood, rfl⟩ := Option.map_eq_some_iff.mp there
      have kept := origin.made other old before stood
      split
      · rw [(write_source old _ columns).1]
        exact kept
      · exact kept

theorem moves_account_iff {timed : List (Instant × SourceItem)} {s each : Catalogue Brands} {outcomes : List Outcome}
    {page : List (SourceValue × Prepared)} (ready : PreparedPage env datasource timed s.brands page) (valid : s.shelf.Valid)
    (origin : Origin tenant datasource s.listings account first s.shelf)
    (imported : upsertEach env tenant datasource timed s = (each, .ok outcomes)) :
    Moves env tenant datasource account timed s ↔ ∃ entry ∈ page, ∃ article row, entry.1 = .text article ∧
      sourceRow tenant datasource article first = some row ∧ sourceChangesFeed row.load entry.2 = true ∧
      Owns s.listings row.pk account := by
  induction timed generalizing s outcomes page with
  | nil =>
    cases ready
    exact ⟨fun never => absurd never not_false, fun ⟨entry, mem, _⟩ => absurd mem List.not_mem_nil⟩
  | cons entry _ ih =>
    obtain ⟨observedAt, data⟩ := entry
    obtain ⟨article, _, _, _, prepares, named, rfl, second⟩ := ready
    obtain ⟨next, _, _, one, more, rfl⟩ := upsertEach_cons imported
    have later_same : (upsertFromSource env tenant datasource observedAt data s).1 = next := by rw [one]
    have head := movesNow_iff named prepares origin
    obtain ⟨_, _, ready', _, listings, _⟩ := upsertFromSource_ok one
    cases prepares.symm.trans ready'
    rw [Moves, later_same]
    by_cases now : MovesNow env tenant datasource account data s
    · obtain ⟨row, found, changes, owns⟩ := head.mp now
      exact ⟨fun _ => ⟨_, List.mem_cons_self, article, row, rfl, found, changes, owns⟩, fun _ => .inl now⟩
    · have kept : Origin tenant datasource next.listings account first next.shelf := listings ▸ origin.next valid named one now
      rw [or_iff_right now, ih second (record_valid valid named one) kept more, listings]
      constructor
      · rintro ⟨entry, mem, found⟩
        exact ⟨entry, List.mem_cons_of_mem _ mem, found⟩
      · rintro ⟨entry, mem, other, row, key, found, changes, owns⟩
        rcases List.mem_cons.mp mem with rfl | mem
        · cases key
          exact absurd (head.mpr ⟨row, found, changes, owns⟩) now
        · exact ⟨entry, mem, other, row, key, found, changes, owns⟩

end

end MapBackend.Products.Import
