import MapBackend.Products.SourceImports

/-!
What each part of an import of source records can do, once for the import of one record and for that of a page.
-/

namespace MapBackend.Products.Import
open MapBackend.Library MapBackend.Core MapBackend.Marketplaces

section
variable {Brands : Type} {env : Environment Brands} {tenant : ℕ} {datasource : DataSource}

structure Stored (env : Environment Brands) (defaults : Defaults) (columns : Columns) : Prop where
  name : charColumn env.texts (some 500) defaults.name = .ok columns.name
  brand : charColumn env.texts (some 200) (.text defaults.brand) = .ok columns.brand
  category1c : charColumn env.texts (some 300) defaults.category1c = .ok columns.category1c
  condition : charColumn env.texts (some 10) defaults.condition = .ok columns.condition
  price : priceColumn defaults.price = .ok columns.price
  stockQty : stockColumn defaults.stockQty = .ok columns.stockQty
  description1c : charColumn env.texts none defaults.description1c = .ok columns.description1c
  brandResolution : columns.brandResolution = defaults.brandResolution
  hash1c : columns.hash1c = defaults.hash1c

theorem columnsOf_stored {defaults : Defaults} {columns : Columns} (made : columnsOf env defaults = .ok columns) :
    Stored env defaults columns := by
  simp only [columnsOf, bind_ok] at made
  obtain ⟨name, hname, brand, hbrand, category, hcategory, condition, hcondition, price, hprice, stock, hstock, warehouse, -,
    description, hdescription, uuid, -, rest⟩ := made
  cases rest
  exact ⟨hname, hbrand, hcategory, hcondition, hprice, hstock, hdescription, rfl, rfl⟩

theorem asImport_ok {R : Type} {x : Except RowError R} {r : R} : asImport x = .ok r ↔ x = .ok r := by
  cases x <;> simp [asImport]

theorem attempts_ok {R : Type} {again : ImportError → Bool} {body : Except ImportError R} {left : ℕ} {r : R} :
    attempts again body (left + 1) = .ok r ↔ body = .ok r := by
  have fails : ∀ {e : ImportError} (left : ℕ), attempts again (.error e) left ≠ .ok r := by
    intro e left
    induction left with
    | zero => exact fun never => nomatch never
    | succ _ ih =>
      rw [attempts]
      split
      · exact ih
      · exact fun never => nomatch never
  cases body with
  | ok => rfl
  | error => exact ⟨fun made => absurd made (fails (left + 1)), fun never => nomatch never⟩

theorem saveProduct_ok {pk : ℕ} {restoring : Bool} {defaults : Defaults} {shelf later : Shelf}
    (saved : saveProduct env pk restoring defaults shelf = .ok later) :
    ∃ columns, columnsOf env defaults = .ok columns ∧
      later = { shelf with products := shelf.products.map fun row =>
        if row.pk = pk then (row.restore restoring).write columns else row } := by
  simp only [saveProduct, bind_ok, raiseIf_ok] at saved
  obtain ⟨columns, made, -, -, saved⟩ := saved
  exact ⟨columns, made, (Except.ok.inj saved).symm⟩

theorem prepareSourceUpsert_ok {data : SourceItem} {brands later : Brands} {prepared : Prepared}
    (ready : prepareSourceUpsert env datasource data brands = (later, .ok prepared)) :
    prepared.data = data ∧ prepared.hashNew = computeHash env data ∧
      prepared.defaults.name = data.nameValue ∧ prepared.defaults.brand = incomingBrand env data ∧
      prepared.defaults.category1c = data.categoryValue ∧ prepared.defaults.condition = data.conditionValue ∧
      prepared.defaults.description1c = data.descriptionValue ∧ priceOf env data = some prepared.defaults.price ∧
      intValue data.stockValue = some prepared.defaults.stockQty ∧ prepared.defaults.hash1c = computeHash env data := by
  have made := congrArg Prod.snd ready
  simp only [prepareSourceUpsert, bind_ok, orRaise_ok] at made
  obtain ⟨_, -, _, hprice, _, hstock, made⟩ := made
  cases made
  exact ⟨rfl, rfl, rfl, rfl, rfl, rfl, rfl, hprice, hstock, rfl⟩

theorem comparedPrice_of {price : SourceValue} {d : PyDecimal} (read : decimalOf (env.texts.str price) = some d) :
    ∃ compared, comparedPrice env price = some compared ∧ compared.val.value = d.val.value ∧
      compared.val.isFinite = d.val.isFinite := by
  unfold comparedPrice
  by_cases given : price.truthy = true
  · rw [if_pos given]
    exact ⟨d, read, rfl, rfl⟩
  · rw [if_neg given]
    have zero_text : decimalOf "0".toList = some ⟨.finite false 0 0, rfl⟩ := by decide +kernel
    have zero : decimalOf (env.texts.str (.int 0)) = some ⟨.finite false 0 0, rfl⟩ := zero_text
    refine ⟨_, zero, ?_⟩
    have shown_zero : ∀ text : Text, text = "0.0".toList ∨ text = "-0.0".toList → decimalOf text = some d →
        (0 : ℚ) = d.val.value ∧ true = d.val.isFinite := by
      rintro text (rfl | rfl) read
      · have zero : decimalOf "0.0".toList = some ⟨.finite false 0 (-1), rfl⟩ := by decide +kernel
        rw [zero] at read
        cases read
        exact ⟨by decide +kernel, rfl⟩
      · have zero : decimalOf "-0.0".toList = some ⟨.finite true 0 (-1), rfl⟩ := by decide +kernel
        rw [zero] at read
        cases read
        exact ⟨by decide +kernel, rfl⟩
    have none_of : ∀ {text : Text}, decimalOf text = none → decimalOf text = some d → (Decimal.finite false 0 0).value = d.val.value ∧
        (Decimal.finite false 0 0).isFinite = d.val.isFinite := by
      intro text none_there read
      rw [none_there] at read
      cases read
    cases price with
    | null => exact none_of (show decimalOf "None".toList = none by decide +kernel) read
    | bool b =>
      cases b with
      | true => exact absurd rfl given
      | false => exact none_of (show decimalOf "False".toList = none by decide +kernel) read
    | int n =>
      have none_left : n = 0 := by simpa [SourceValue.truthy] using given
      subst none_left
      rw [zero] at read
      cases read
      exact ⟨rfl, rfl⟩
    | float f =>
      have none_left : f.value = 0 := by simpa [SourceValue.truthy] using given
      have value : (Decimal.finite false 0 0).value = 0 := by decide +kernel
      rw [value]
      exact shown_zero f.shown (f.zero none_left) read
    | special => exact absurd rfl given
    | text s =>
      cases s with
      | nil => exact none_of (show decimalOf "".toList = none by decide +kernel) read
      | cons => exact absurd rfl given
    | list items =>
      cases items with
      | nil => exact none_of (show decimalOf "[]".toList = none by decide +kernel) read
      | cons => exact absurd rfl given
    | object entries =>
      cases entries with
      | nil => exact none_of (show decimalOf "\x7b\x7d".toList = none by decide +kernel) read
      | cons => exact absurd rfl given

theorem applySourceUpsert_existing {article : SourceValue} {prepared : Prepared} {existing product : Instance} {shelf later : Shelf}
    {outcome : Outcome}
    (applied : applySourceUpsert env tenant datasource article prepared (some existing) shelf = .ok (later, product, outcome)) :
    (existing.deleted = false ∧ existing.syncExcluded = true ∧ later = shelf ∧ product = existing ∧ outcome = ⟨.unchanged, none⟩) ∨
    ((existing.deleted = true ∨ existing.syncExcluded = false) ∧
      saveProduct env existing.pk existing.deleted (prepared.defaults.keepBrand existing) shelf = .ok later ∧
      product = existing.assign (prepared.defaults.keepBrand existing) ∧
      ∃ change, foundChange env existing prepared (prepared.defaults.keepBrand existing).brand = .ok change ∧
        outcome = .ofChange change) := by
  rw [applySourceUpsert] at applied
  by_cases excluded : (!existing.deleted && existing.syncExcluded) = true
  · rw [if_pos excluded] at applied
    cases applied
    obtain ⟨present, out⟩ := Bool.and_eq_true_iff.mp excluded
    exact .inl ⟨by simpa using present, out, rfl, rfl, rfl⟩
  · rw [if_neg excluded] at applied
    simp only [bind_ok, asImport_ok] at applied
    obtain ⟨_, save, change, found, made⟩ := applied
    cases made
    refine .inr ⟨?_, save, rfl, change, found, rfl⟩
    cases deleted : existing.deleted with
    | true => exact .inl rfl
    | false =>
      rw [deleted] at excluded
      exact .inr (by simpa using excluded)

theorem upsertFromSource_ok {observedAt : Instant} {data : SourceItem} {s later : Catalogue Brands} {outcome : Outcome}
    (imported : upsertFromSource env tenant datasource observedAt data s = (later, .ok outcome)) :
    ∃ prepared article, prepareSourceUpsert env datasource data s.brands = (later.brands, .ok prepared) ∧
      data.article = some article ∧ later.listings = s.listings ∧
      writeSource env tenant datasource observedAt article prepared s.listings s.shelf s.feeds =
        .ok (later.shelf, later.feeds, outcome) := by
  unfold upsertFromSource at imported
  cases ready : prepareSourceUpsert env datasource data s.brands with
  | mk _ prepared =>
    rw [ready] at imported
    dsimp only at imported
    split at imported
    · next shelf feeds told written =>
      cases imported
      simp only [bind_ok, orRaise_ok] at written
      obtain ⟨prepared, rfl, article, named, written⟩ := written
      exact ⟨prepared, article, rfl, named, rfl, written⟩
    · cases imported

end

end MapBackend.Products.Import
