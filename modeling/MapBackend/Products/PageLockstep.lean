import MapBackend.Products.ImportStatus

/-!
A page of records and the same records one by one, side by side: both make the same writes in the same order, and
a record of an article that came before is compared with what was assigned in the one and with what was stored in
the other.
-/

namespace MapBackend.Products.Import
open MapBackend.Library MapBackend.Core MapBackend.Marketplaces

/-! ## Rows -/

structure Shelf.Valid (shelf : Shelf) : Prop where
  keys : (shelf.products.map Product.pk).Nodup
  bound : ∀ row ∈ shelf.products, row.pk < shelf.nextPk
  fits : ∀ row ∈ shelf.products, row.Fits

section
variable {Brands : Type} {env : Environment Brands} {tenant : ℕ} {datasource : DataSource} {shelf later : Shelf}

theorem sourceRow_some {article : Text} {row : Product} (found : sourceRow tenant datasource article shelf = some row) :
    row ∈ shelf.products ∧ row.tenant = tenant ∧ row.datasource = some datasource.pk ∧ row.article = article := by
  have holds := List.find?_some (show shelf.products.find? (fun row => decide (row.tenant = tenant) &&
    decide (row.datasource = some datasource.pk) && decide (row.article = article)) = some row from found)
  simp only [Bool.and_eq_true, decide_eq_true_iff] at holds
  exact ⟨List.mem_of_find?_eq_some found, holds.1.1, holds.1.2, holds.2⟩

theorem write_source (row : Product) (restoring : Bool) (columns : Columns) :
    ((row.restore restoring).write columns).pk = row.pk ∧ ((row.restore restoring).write columns).tenant = row.tenant ∧
      ((row.restore restoring).write columns).datasource = row.datasource ∧
      ((row.restore restoring).write columns).article = row.article := by
  cases restoring <;> exact ⟨rfl, rfl, rfl, rfl⟩

def Shelf.saved (shelf : Shelf) (pk : ℕ) (restoring : Bool) (columns : Columns) : Shelf :=
  { shelf with products := shelf.products.map fun row => if row.pk = pk then (row.restore restoring).write columns else row }

theorem sourceRow_saved (pk : ℕ) (restoring : Bool) (columns : Columns) (article : Text) :
    sourceRow tenant datasource article (shelf.saved pk restoring columns) =
      (sourceRow tenant datasource article shelf).map fun row =>
        if row.pk = pk then (row.restore restoring).write columns else row := by
  unfold sourceRow Shelf.saved
  rw [List.find?_map]
  congr 2
  funext row
  by_cases hit : row.pk = pk
  · obtain ⟨-, same_tenant, same_source, same_article⟩ := write_source row restoring columns
    simp only [Function.comp_apply, if_pos hit, same_tenant, same_source, same_article]
  · simp only [Function.comp_apply, if_neg hit]

theorem cut_length {limit : ℕ} {text stored : Text} (kept : cut limit text = some stored) : stored.length ≤ limit := by
  unfold cut at kept
  split at kept
  · next short =>
    cases kept
    exact short
  · split at kept
    · cases kept
      exact List.length_take_le _ _
    · cases kept

theorem charColumn_length {limit : ℕ} {value : SourceValue} {stored : Text}
    (kept : charColumn env.texts (some limit) value = .ok stored) : stored.length ≤ limit := by
  unfold charColumn at kept
  split at kept
  · cases kept
  · dsimp only at kept
    split at kept
    · cases kept
    · cases shape : cut limit (env.texts.str value) with
      | none =>
        rw [shape] at kept
        cases kept
      | some =>
        rw [shape] at kept
        cases kept
        exact cut_length shape

theorem Stored.fits {defaults : Defaults} {columns : Columns} (stored : Stored env defaults columns) (row : Product) (restoring : Bool) :
    ((row.restore restoring).write columns).Fits where
  name := charColumn_length stored.name
  category1c := charColumn_length stored.category1c
  condition := charColumn_length stored.condition
  brand := charColumn_length stored.brand

theorem Shelf.Valid.saved (valid : shelf.Valid) (pk : ℕ) (restoring : Bool) {defaults : Defaults} {columns : Columns}
    (stored : Stored env defaults columns) :
    (shelf.saved pk restoring columns).Valid where
  keys := by
    have same : (shelf.saved pk restoring columns).products.map Product.pk = shelf.products.map Product.pk := by
      rw [Shelf.saved, List.map_map]
      refine List.map_congr_left fun row _ => ?_
      by_cases hit : row.pk = pk
      · simp only [Function.comp_apply, if_pos hit, (write_source row restoring columns).1]
      · simp only [Function.comp_apply, if_neg hit]
    rw [same]
    exact valid.keys
  bound := by
    intro row mem
    obtain ⟨old, there, rfl⟩ := List.mem_map.mp mem
    by_cases hit : old.pk = pk
    · rw [if_pos hit, (write_source old restoring columns).1]
      exact valid.bound old there
    · rw [if_neg hit]
      exact valid.bound old there
  fits := by
    intro row mem
    obtain ⟨old, there, rfl⟩ := List.mem_map.mp mem
    by_cases hit : old.pk = pk
    · rw [if_pos hit]
      exact stored.fits old restoring
    · rw [if_neg hit]
      exact valid.fits old there

end

/-! ## Products of a page -/

/-- A stored product whose last record of the page is this one, as memory holds it. -/
def Product.asGiven {Brands : Type} (env : Environment Brands) (row : Product) (before : SourceItem) : Instance :=
  { row.load with
    name := before.nameValue
    category1c := before.categoryValue
    condition := before.conditionValue
    description1c := before.descriptionValue
    price := match priceOf env before with
      | some price => price.val.value
      | none => 0 }

def Product.excluded (row : Product) : Bool := !row.deletedAt.isSome && row.syncExcluded

theorem Product.load_excluded {row : Product} : row.excluded = true ↔ row.load.deleted = false ∧ row.load.syncExcluded = true := by
  rw [Product.excluded, Bool.and_eq_true, Bool.not_eq_true']
  rfl

theorem Product.load_included {row : Product} : row.excluded = false ↔ row.load.deleted = true ∨ row.load.syncExcluded = false := by
  rw [Product.excluded, Bool.and_eq_false_iff, Bool.not_eq_false']
  rfl

def Product.inPage {Brands : Type} (env : Environment Brands) (row : Product) : Option SourceItem → Instance
  | none => row.load
  | some before => if row.excluded then row.load else row.asGiven env before

/-- What a write reads of a product is the same in memory and in the table. -/
structure Reads (held : Instance) (row : Product) : Prop where
  pk : held.pk = row.pk
  brand : held.brand = row.brand
  brandResolution : held.brandResolution = row.brandResolution
  stockQty : held.stockQty = row.stockQty
  hash1c : held.hash1c = row.hash1c
  deleted : held.deleted = row.deletedAt.isSome
  syncExcluded : held.syncExcluded = row.syncExcluded

section
variable {Brands : Type} {env : Environment Brands} {tenant : ℕ} {datasource : DataSource} {shelf later : Shelf}

theorem reads_inPage (row : Product) (before : Option SourceItem) : Reads (row.inPage env before) row := by
  cases before with
  | none => exact ⟨rfl, rfl, rfl, rfl, rfl, rfl, rfl⟩
  | some =>
    unfold Product.inPage
    dsimp only
    split
    · exact ⟨rfl, rfl, rfl, rfl, rfl, rfl, rfl⟩
    · exact ⟨rfl, rfl, rfl, rfl, rfl, rfl, rfl⟩

variable {held : Instance} {row : Product}

theorem keepBrand_reads (reads : Reads held row) (defaults : Defaults) :
    defaults.keepBrand held = defaults.keepBrand row.load := by
  unfold Defaults.keepBrand
  rw [reads.brand, reads.brandResolution]
  rfl

theorem saveProduct_saved {pk : ℕ} {restoring : Bool} {defaults : Defaults} (saved : saveProduct env pk restoring defaults shelf = .ok later) :
    ∃ columns, Stored env defaults columns ∧ later = shelf.saved pk restoring columns := by
  obtain ⟨columns, made, written⟩ := saveProduct_ok saved
  exact ⟨columns, columnsOf_stored made, written⟩

theorem detectChangeType_other {old : Compared ℚ ℤ} (other : Compared ℚ ℤ) {new : Compared SourceValue SourceValue} {change : Option ChangeType}
    (found : detectChangeType env old new = .ok change) : ∃ another, detectChangeType env other new = .ok another := by
  simp only [detectChangeType, bind_ok, orRaise_ok] at found
  obtain ⟨_, given, -⟩ := found
  cases seen : detectChangeType env other new with
  | ok another => exact ⟨another, rfl⟩
  | error =>
    unfold detectChangeType at seen
    rw [given] at seen
    cases seen

theorem foundChange_other {prepared : Prepared} {brand : Text} {change : Option ChangeType}
    (reads : Reads held row) (found : foundChange env row.load prepared brand = .ok change) :
    ∃ another, foundChange env held prepared brand = .ok another ∧
      (another = change ↔ row.hash1c ≠ prepared.hashNew →
        detectChangeType env held.compared (prepared.data.compared brand) =
          detectChangeType env row.load.compared (prepared.data.compared brand)) := by
  unfold foundChange at found ⊢
  have loaded : row.load.hash1c = row.hash1c := rfl
  rw [loaded] at found
  rw [reads.hash1c]
  by_cases again : row.hash1c ≠ prepared.hashNew
  · rw [if_pos again] at found
    obtain ⟨another, seen⟩ := detectChangeType_other held.compared found
    refine ⟨another, by rw [if_pos again, seen], ?_⟩
    rw [seen, found, Except.ok.injEq]
    exact ⟨fun same _ => same, fun same => same again⟩
  · rw [if_neg again] at found
    cases found
    exact ⟨none, by rw [if_neg again], fun _ absent => absurd absent again, fun _ => rfl⟩

theorem assign_asGiven {prepared : Prepared} {columns : Columns} {data : SourceItem}
    {brands rest : Brands} (reads : Reads held row) (short : row.brand.length ≤ 200)
    (ready : prepareSourceUpsert env datasource data brands = (rest, .ok prepared)) (included : row.excluded = false)
    (stored : Stored env (prepared.defaults.keepBrand row.load) columns) :
    held.assign (prepared.defaults.keepBrand row.load) =
      ((row.restore row.deletedAt.isSome).write columns).asGiven env data ∧
    ((row.restore row.deletedAt.isSome).write columns).excluded = false := by
  obtain ⟨-, -, name, brand, category, condition, description, price, -, -⟩ := prepareSourceUpsert_ok ready
  obtain ⟨kept_name, kept_category, kept_condition, kept_price, kept_stock, kept_description, kept_hash⟩ :=
    keepBrand_rest prepared.defaults row.load
  obtain ⟨brand_seen, brand_stored⟩ := brand_written short brand stored.brand
  have stock := stockColumn_ok stored.stockQty
  have present : ((row.restore row.deletedAt.isSome).write columns).deletedAt = none ∧
      ((row.restore row.deletedAt.isSome).write columns).syncExcluded = false ∧
      (if row.deletedAt.isSome then false else row.syncExcluded) = false := by
    cases deleted : row.deletedAt with
    | none =>
      have out : row.syncExcluded = false := by simpa [Product.excluded, deleted] using included
      exact ⟨deleted, out, out⟩
    | some => exact ⟨rfl, rfl, rfl⟩
  obtain ⟨there, out, assigned⟩ := present
  refine ⟨?_, by rw [Product.excluded, there, out]; rfl⟩
  have load_pk : ((row.restore row.deletedAt.isSome).write columns).load.pk = row.pk := (write_source row _ columns).1
  have load_deleted : ((row.restore row.deletedAt.isSome).write columns).load.deleted = false := by
    change ((row.restore row.deletedAt.isSome).write columns).deletedAt.isSome = false
    rw [there]
    rfl
  have load_out : ((row.restore row.deletedAt.isSome).write columns).load.syncExcluded = false := out
  rw [Product.asGiven, load_pk, load_deleted, load_out, price]
  rw [Instance.assign, reads.pk, reads.deleted, reads.syncExcluded, assigned, kept_name, kept_category, kept_condition, kept_price,
    kept_description, name, category, condition, description, stock, brand_seen, ← brand_stored, ← stored.brandResolution,
    ← stored.hash1c]
  rfl

end

/-! ## Articles -/

def SourceItem.isNamed (data : SourceItem) (article : Text) : Bool :=
  match data.article with
  | some (.text name) => decide (name = article)
  | _ => false

/-- The record of the article that came last; the records stand with the last one first. -/
def lastOf (history : List SourceItem) (article : Text) : Option SourceItem := history.find? fun data => data.isNamed article

structure SourceItem.Named (data : SourceItem) (article : Text) : Prop where
  named : data.article = some (.text article)
  whole : ∀ stored, cut 100 article = some stored → stored = article

theorem SourceItem.Named.isNamed {data : SourceItem} {article : Text} (named : data.Named article) (other : Text) :
    data.isNamed other = decide (article = other) := by
  rw [SourceItem.isNamed, named.named]

structure HeldFits {Brands : Type} (env : Environment Brands) (tenant : ℕ) (datasource : DataSource) (wanted : Text → Prop)
    (history : List SourceItem) (held : Held) (shelf : Shelf) : Prop where
  keys : ∀ entry ∈ held, ∃ article, entry.1 = .text article
  gets : ∀ article, wanted article → held.get (.text article) =
    (sourceRow tenant datasource article shelf).map fun row => row.inPage env (lastOf history article)

section
variable {held : Held} {article other : Text} {product : Instance}

theorem Held.keys_set (keys : ∀ entry ∈ held, ∃ article, entry.1 = SourceValue.text article) :
    ∀ entry ∈ held.set (.text article) product, ∃ article, entry.1 = SourceValue.text article := by
  unfold Held.set
  split
  · intro entry mem
    obtain ⟨old, there, rfl⟩ := List.mem_map.mp mem
    obtain ⟨name, same⟩ := keys old there
    refine ⟨name, ?_⟩
    split
    · exact same
    · exact same
  · intro entry mem
    rcases List.mem_append.mp mem with there | last
    · exact keys entry there
    · rw [List.mem_singleton.mp last]
      exact ⟨article, rfl⟩

theorem Held.get_set (keys : ∀ entry ∈ held, ∃ article, entry.1 = SourceValue.text article) :
    (held.set (.text article) product).get (.text other) = if other = article then some product else held.get (.text other) := by
  have text_same (a b : Text) : (SourceValue.text a).same (.text b) = decide (b = a) := by
    rw [Bool.eq_iff_iff, SourceValue.same_text, decide_eq_true_iff, SourceValue.text.injEq]
  unfold Held.set
  by_cases there : (held.get (.text article)).isSome = true
  · rw [if_pos there]
    have keeps : (fun entry : SourceValue × Instance => entry.1.same (.text other)) ∘
        (fun entry : SourceValue × Instance => if entry.1.same (.text article) then (entry.1, product) else entry) =
        fun entry => entry.1.same (.text other) := by
      funext entry
      simp only [Function.comp_apply]
      split <;> rfl
    unfold Held.get
    rw [List.find?_map, keeps]
    by_cases hit : other = article
    · subst hit
      rw [Held.get, Option.isSome_map] at there
      obtain ⟨entry, found⟩ := Option.isSome_iff_exists.mp there
      have same := List.find?_some found
      rw [found, if_pos rfl, Option.map_some, Option.map_some, if_pos same]
    · rw [if_neg hit]
      cases found : held.find? (fun entry => entry.1.same (.text other)) with
      | none => rfl
      | some entry =>
        obtain ⟨_, key⟩ := keys entry (List.mem_of_find?_eq_some found)
        have same := List.find?_some found
        rw [key, text_same, decide_eq_true_iff] at same
        have differs : entry.1.same (.text article) = false := by
          rw [key, text_same, decide_eq_false_iff_not, ← same]
          exact fun again => hit again.symm
        rw [Option.map_some, Option.map_some, Option.map_some, differs]
        rfl
  · rw [if_neg there]
    unfold Held.get at there ⊢
    rw [List.find?_append]
    by_cases hit : other = article
    · subst hit
      have none_there : held.find? (fun entry => entry.1.same (.text other)) = none := by
        cases found : held.find? (fun entry => entry.1.same (.text other)) with
        | none => rfl
        | some =>
          rw [found] at there
          exact absurd rfl there
      rw [none_there, if_pos rfl]
      simp [text_same]
    · rw [if_neg hit]
      simp [text_same, hit]

end

section
variable {Brands : Type} {env : Environment Brands} {tenant : ℕ} {datasource : DataSource} {shelf later : Shelf}
  {article : Text} {data : SourceItem} {prepared : Prepared} {product : Instance} {brands rest : Brands}

theorem createProduct_named (named : data.Named article)
    (ready : prepareSourceUpsert env datasource data brands = (rest, .ok prepared))
    (made : createProduct env tenant datasource (.text article) prepared.defaults shelf = .ok (later, product)) :
    ∃ row, later = ⟨shelf.products ++ [row], shelf.nextPk + 1⟩ ∧ row.pk = shelf.nextPk ∧ row.tenant = tenant ∧
      row.datasource = some datasource.pk ∧ row.article = article ∧ row.Fits ∧ row.excluded = false ∧
      product = row.asGiven env data ∧ sourceRow tenant datasource article shelf = none := by
  simp only [createProduct, bind_ok, raiseIf_ok, not_or] at made
  obtain ⟨stored_article, kept, columns, held, -, ⟨absent, -⟩, made⟩ := made
  cases made
  obtain rfl := named.whole stored_article (charColumn_cut kept)
  obtain ⟨-, -, name, brand, category, condition, description, price, -, -⟩ := prepareSourceUpsert_ok ready
  have stored := columnsOf_stored held
  have stock := stockColumn_ok stored.stockQty
  have same_brand : columns.brand = prepared.defaults.brand := by
    have kept_brand := stored.brand
    rw [brand] at kept_brand ⊢
    exact incomingBrand_kept kept_brand
  refine ⟨(blankProduct shelf.nextPk tenant datasource stored_article).write columns, rfl, rfl, rfl, rfl, rfl,
    stored.fits (blankProduct shelf.nextPk tenant datasource stored_article) false, rfl, ?_, by simpa using absent⟩
  rw [Product.asGiven, price, Instance.assign, name, category, condition, description, stock, ← same_brand,
    ← stored.brandResolution, ← stored.hash1c]
  rfl

theorem sourceRow_added {row : Product} (at_source : row.tenant = tenant ∧ row.datasource = some datasource.pk)
    (absent : sourceRow tenant datasource row.article shelf = none) (other : Text) :
    sourceRow tenant datasource other ⟨shelf.products ++ [row], shelf.nextPk + 1⟩ =
      if other = row.article then some row else sourceRow tenant datasource other shelf := by
  unfold sourceRow at absent ⊢
  dsimp only
  rw [List.find?_append]
  by_cases hit : other = row.article
  · subst hit
    rw [absent, if_pos rfl]
    simp [at_source.1, at_source.2]
  · have miss : ¬ row.article = other := fun same => hit same.symm
    rw [if_neg hit]
    simp [miss]

theorem Shelf.Valid.added {row : Product} (valid : shelf.Valid) (key : row.pk = shelf.nextPk) (short : row.Fits) :
    (⟨shelf.products ++ [row], shelf.nextPk + 1⟩ : Shelf).Valid where
  keys := by
    rw [List.map_append, List.map_cons, List.map_nil]
    refine List.nodup_append.mpr ⟨valid.keys, List.nodup_singleton _, ?_⟩
    intro pk mem new last
    obtain ⟨old, there, rfl⟩ := List.mem_map.mp mem
    have below := valid.bound old there
    rw [List.mem_singleton.mp last, key]
    omega
  bound := by
    intro old mem
    rcases List.mem_append.mp mem with there | last
    · exact Nat.lt_succ_of_lt (valid.bound old there)
    · rw [List.mem_singleton.mp last, key]
      exact Nat.lt_succ_self _
  fits := by
    intro old mem
    rcases List.mem_append.mp mem with there | last
    · exact valid.fits old there
    · rw [List.mem_singleton.mp last]
      exact short

end

/-! ## One record -/

/-- A record of an article that came before on the page finds the same change against the values of that record as
against the columns that hold them. -/
def Alike {Brands : Type} (env : Environment Brands) (tenant : ℕ) (datasource : DataSource) (history : List SourceItem)
    (data : SourceItem) (shelf : Shelf) : Prop :=
  ∀ article row before, data.article = some (.text article) → sourceRow tenant datasource article shelf = some row →
    lastOf history article = some before → row.excluded = false → row.hash1c ≠ computeHash env data →
    detectChangeType env (row.asGiven env before).compared (data.compared (writtenBrand env row data)) =
      detectChangeType env row.load.compared (data.compared (writtenBrand env row data))

section
variable {Brands : Type} {env : Environment Brands} {tenant : ℕ} {datasource : DataSource} {shelf later : Shelf}
  {article : Text} {data : SourceItem} {prepared : Prepared} {product : Instance} {brands rest : Brands}
  {wanted : Text → Prop} {history : List SourceItem} {held : Held} {outcome : Outcome}

variable {feeds moved : FeedIntent.FeedStore} {listings : List ListingRow} {observedAt : Instant}

theorem writeSource_ok
    (written : writeSource env tenant datasource observedAt (.text article) prepared listings shelf feeds =
      .ok (later, moved, outcome)) :
    (∃ product, applySourceUpsert env tenant datasource (.text article) prepared
      ((sourceRow tenant datasource article shelf).map Product.load) shelf = .ok (later, product, outcome)) ∧
    match sourceRow tenant datasource article shelf with
    | none => moved = feeds
    | some row => bumpProducts env (if sourceChangesFeed row.load prepared then [row.pk] else []) observedAt listings feeds =
        .ok moved := by
  unfold writeSource at written
  have given : ¬ (SourceValue.text article).isNull = true := fun never => nomatch never
  rw [if_neg given] at written
  change (match sourceRow tenant datasource article shelf with | none => _ | some row => _) = _ at written
  cases found : sourceRow tenant datasource article shelf with
  | none =>
    rw [found] at written
    simp only [attempts_ok, bind_ok] at written
    obtain ⟨⟨saved, product, told⟩, applied, made⟩ := written
    cases made
    exact ⟨⟨product, applied⟩, rfl⟩
  | some =>
    rw [found] at written
    simp only [attempts_ok, bind_ok] at written
    obtain ⟨_, moves, ⟨saved, product, told⟩, applied, made⟩ := written
    cases made
    exact ⟨⟨product, applied⟩, moves⟩

theorem lastOf_cons (named : data.Named article) (other : Text) :
    lastOf (data :: history) other = if article = other then some data else lastOf history other := by
  rw [lastOf, List.find?_cons, named.isNamed]
  by_cases hit : article = other <;> simp [hit, lastOf]

theorem HeldFits.set {row : Product} (fits : HeldFits env tenant datasource wanted history held shelf) (named : data.Named article)
    (own : sourceRow tenant datasource article later = some row) (given : product = row.inPage env (some data))
    (others : ∀ other, other ≠ article → sourceRow tenant datasource other later = sourceRow tenant datasource other shelf) :
    HeldFits env tenant datasource wanted (data :: history) (held.set (.text article) product) later where
  keys := Held.keys_set fits.keys
  gets := by
    intro other want
    rw [Held.get_set fits.keys, lastOf_cons named]
    by_cases hit : other = article
    · subst hit
      rw [if_pos rfl, if_pos rfl, own, given, Option.map_some]
    · rw [if_neg hit, if_neg fun same => hit same.symm, others other hit]
      exact fits.gets other want

theorem sourceRow_other {row : Product} {restoring : Bool} {columns : Columns} (valid : shelf.Valid)
    (found : sourceRow tenant datasource article shelf = some row) {other : Text} (differs : other ≠ article) :
    sourceRow tenant datasource other (shelf.saved row.pk restoring columns) = sourceRow tenant datasource other shelf := by
  rw [sourceRow_saved]
  cases there : sourceRow tenant datasource other shelf with
  | none => rfl
  | some another =>
    obtain ⟨mem, -, -, own⟩ := sourceRow_some found
    obtain ⟨mem_other, -, -, own_other⟩ := sourceRow_some there
    have miss : another.pk ≠ row.pk := by
      intro same
      have one := row_unique valid.keys mem_other mem same
      exact differs (own_other.symm.trans (one ▸ own))
    rw [Option.map_some, if_neg miss]

theorem record_shelf (named : data.Named article)
    (ready : prepareSourceUpsert env datasource data brands = (rest, .ok prepared))
    (written : writeSource env tenant datasource observedAt (.text article) prepared listings shelf feeds =
      .ok (later, moved, outcome)) :
    (sourceRow tenant datasource article shelf = none ∧ ∃ row, later.nextPk = shelf.nextPk + 1 ∧ row.pk = shelf.nextPk ∧
        (shelf.Valid → later.Valid) ∧
        ∀ other, sourceRow tenant datasource other later =
          if other = article then some row else sourceRow tenant datasource other shelf) ∨
      ((∃ row, sourceRow tenant datasource article shelf = some row ∧ row.excluded = true) ∧ later = shelf) ∨
      ∃ row columns, sourceRow tenant datasource article shelf = some row ∧ row.excluded = false ∧
        Stored env (prepared.defaults.keepBrand row.load) columns ∧ later = shelf.saved row.pk row.deletedAt.isSome columns := by
  obtain ⟨⟨_, applied⟩, -⟩ := writeSource_ok written
  cases found : sourceRow tenant datasource article shelf with
  | none =>
    rw [found, Option.map_none] at applied
    simp only [applySourceUpsert, bind_ok, asImport_ok] at applied
    obtain ⟨⟨_, _⟩, created, told⟩ := applied
    cases told
    obtain ⟨row, rfl, key, of_tenant, of_source, rfl, short, -, -, absent⟩ := createProduct_named named ready created
    exact .inl ⟨rfl, row, rfl, key, fun valid => valid.added key short, sourceRow_added ⟨of_tenant, of_source⟩ absent⟩
  | some row =>
    rw [found, Option.map_some] at applied
    rcases applySourceUpsert_existing applied with ⟨present, out, rfl, -, -⟩ | ⟨open_row, saved, -⟩
    · exact .inr (.inl ⟨⟨row, rfl, Product.load_excluded.mpr ⟨present, out⟩⟩, rfl⟩)
    · obtain ⟨columns, stored, rfl⟩ := saveProduct_saved saved
      exact .inr (.inr ⟨row, columns, rfl, Product.load_included.mpr open_row, stored, rfl⟩)

theorem record_lockstep
    (valid : shelf.Valid) (fits : HeldFits env tenant datasource wanted history held shelf) (named : data.Named article)
    (want : wanted article) (ready : prepareSourceUpsert env datasource data brands = (rest, .ok prepared))
    (written : writeSource env tenant datasource observedAt (.text article) prepared listings shelf feeds =
      .ok (later, moved, outcome)) :
    ∃ product other, applySourceUpsert env tenant datasource (.text article) prepared (held.get (.text article)) shelf =
        .ok (later, product, other) ∧
      HeldFits env tenant datasource wanted (data :: history) (held.set (.text article) product) later ∧ later.Valid ∧
      (other = outcome ↔ Alike env tenant datasource history data shelf) := by
  obtain ⟨⟨product, applied⟩, -⟩ := writeSource_ok written
  rw [fits.gets article want]
  cases found : sourceRow tenant datasource article shelf with
  | none =>
    rw [found, Option.map_none] at applied
    have alike : Alike env tenant datasource history data shelf := by
      intro other row before same there
      cases named.named.symm.trans same
      rw [found] at there
      cases there
    refine ⟨product, outcome, applied, ?_⟩
    simp only [applySourceUpsert, bind_ok, asImport_ok] at applied
    obtain ⟨⟨_, _⟩, created, told⟩ := applied
    cases told
    obtain ⟨row, rfl, key, of_tenant, of_source, own, short, included, given, absent⟩ := createProduct_named named ready created
    have rows := fun other => sourceRow_added ⟨of_tenant, of_source⟩ (own ▸ absent) other
    refine ⟨fits.set named (by rw [rows, own, if_pos rfl]) ?_ (fun other differs => by rw [rows, own, if_neg differs]),
      valid.added key short, fun _ => alike, fun _ => rfl⟩
    rw [given, Product.inPage, included]
    rfl
  | some row =>
    rw [found, Option.map_some] at applied
    obtain ⟨mem, -, -, -⟩ := sourceRow_some found
    have reads : Reads (row.inPage env (lastOf history article)) row := reads_inPage row _
    rcases applySourceUpsert_existing applied with ⟨present, out, rfl, rfl, rfl⟩ | ⟨open_row, saved, -, change, seen, rfl⟩
    · have excluded : row.excluded = true := Product.load_excluded.mpr ⟨present, out⟩
      have loaded : ∀ before, row.inPage env before = row.load := by
        intro before
        cases before with
        | none => rfl
        | some => exact if_pos excluded
      refine ⟨row.load, ⟨.unchanged, none⟩, ?_, ?_, valid, fun _ => ?_, fun _ => rfl⟩
      · rw [Option.map_some, loaded]
        exact applied
      · exact fits.set named found (loaded _).symm fun _ _ => rfl
      · intro other old before same there _ included
        cases named.named.symm.trans same
        cases found.symm.trans there
        rw [excluded] at included
        cases included
    · have included : row.excluded = false := Product.load_included.mpr open_row
      obtain ⟨columns, stored, rfl⟩ := saveProduct_saved saved
      obtain ⟨same_data, hash, _, brand, -⟩ := prepareSourceUpsert_ok ready
      obtain ⟨brand_seen, -⟩ := brand_written (valid.fits row mem).brand brand stored.brand
      obtain ⟨another, finds, agrees⟩ := foundChange_other reads seen
      obtain ⟨assigned, still⟩ := assign_asGiven reads (valid.fits row mem).brand ready included stored
      have own : sourceRow tenant datasource article (shelf.saved row.load.pk row.load.deleted columns) =
          some ((row.restore row.deletedAt.isSome).write columns) := by
        have key : row.pk = row.load.pk := rfl
        rw [sourceRow_saved, found, Option.map_some, if_pos key]
        rfl
      refine ⟨(row.inPage env (lastOf history article)).assign (prepared.defaults.keepBrand row.load), .ofChange another, ?_,
        fits.set named own ?_ (fun other differs => sourceRow_other valid found differs),
        valid.saved _ _ stored, ?_⟩
      · have going : ¬ (!(row.inPage env (lastOf history article)).deleted &&
            (row.inPage env (lastOf history article)).syncExcluded) = true := by
          rw [reads.deleted, reads.syncExcluded]
          exact fun out => by rw [Product.excluded] at included; rw [included] at out; cases out
        rw [Option.map_some, applySourceUpsert, if_neg going, keepBrand_reads reads, reads.pk, reads.deleted]
        have saves : saveProduct env row.pk row.deletedAt.isSome (prepared.defaults.keepBrand row.load) shelf = _ := saved
        dsimp only
        rw [saves]
        change (foundChange env _ _ _ >>= _) = _
        rw [finds]
        rfl
      · rw [assigned, Product.inPage, still]
        rfl
      · have one : Outcome.ofChange another = Outcome.ofChange change ↔ another = change :=
          ⟨fun same => congrArg Outcome.changeType same, congrArg _⟩
        rw [one, agrees, hash, same_data, brand_seen]
        constructor
        · intro finds_same other old before same there last _ moved
          cases named.named.symm.trans same
          cases found.symm.trans there
          have given : row.inPage env (lastOf history article) = row.asGiven env before := by
            rw [last, Product.inPage, included]
            rfl
          rw [← given]
          exact finds_same moved
        · intro alike moved
          cases last : lastOf history article with
          | none => rfl
          | some before =>
            have given : row.inPage env (some before) = row.asGiven env before := by
              rw [Product.inPage, included]
              rfl
            rw [given]
            exact alike article row before named.named found last included moved

end

end MapBackend.Products.Import
