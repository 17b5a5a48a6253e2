import MapBackend.Products.ImportSteps

/-!
The status of an import of one record against what the import did to its product.
-/

namespace MapBackend.Products.Import
open MapBackend.Library MapBackend.Core MapBackend.Marketplaces

/-! ## What the import did -/

def Shelf.product? (shelf : Shelf) (pk : ℕ) : Option Product := shelf.products.find? fun row => decide (row.pk = pk)

structure Product.Fits (row : Product) : Prop where
  name : row.name.length ≤ 500
  category1c : row.category1c.length ≤ 300
  condition : row.condition.length ≤ 10
  brand : row.brand.length ≤ 200

/-- The status of a write by what it changed: the price or the stock alone has a type of its own. -/
def told (price stock category content : Bool) : Outcome :=
  if !price && !stock && !category && !content then ⟨.unchanged, none⟩
  else if category then ⟨.updated, some .category⟩
  else if price && !stock && !content then ⟨.updated, some .priceOnly⟩
  else if stock && !price && !content then ⟨.updated, some .stockOnly⟩
  else ⟨.updated, some .content⟩

def truth (before after : Product) : Outcome :=
  told (decide (before.price ≠ after.price)) (decide (before.stockQty ≠ after.stockQty))
    (decide (before.category1c ≠ after.category1c))
    (decide (before.name ≠ after.name) || decide (before.brand ≠ after.brand) || decide (before.condition ≠ after.condition) ||
      decide (before.description1c ≠ after.description1c))

section
variable {Brands : Type} (env : Environment Brands) (row : Product) (data : SourceItem)

def moves (limit : Option ℕ) (old : Text) (value : SourceValue) : Prop := charColumn env.texts limit value ≠ .ok old

/-- A value that is not the text of the column and is stored as it: a number or a flag that is shown so, or the
text with blanks that are cut off. -/
def restated (limit : Option ℕ) (old : Text) (value : SourceValue) : Prop :=
  value ≠ .text old ∧ charColumn env.texts limit value = .ok old

def writtenBrand : Text := if (incomingBrand env data).isEmpty && !row.brand.isEmpty then row.brand else incomingBrand env data

def priceMoves : Prop := ∃ price ∈ priceOf env data, hundredths price.val.value ≠ row.price

def priceRounds : Prop := ∃ price ∈ priceOf env data, price.val.value ≠ (row.price : ℚ) / 100 ∧ hundredths price.val.value = row.price

def stockMoves : Prop := intValue data.stockValue ≠ some (row.stockQty : ℤ)

def categoryMoves : Prop := moves env (some 300) row.category1c data.categoryValue

def categoryRestated : Prop := restated env (some 300) row.category1c data.categoryValue

def contentMoves : Prop :=
  moves env (some 500) row.name data.nameValue ∨ writtenBrand env row data ≠ row.brand ∨
    moves env (some 10) row.condition data.conditionValue ∨ moves env none row.description1c data.descriptionValue

def contentRestated : Prop :=
  restated env (some 500) row.name data.nameValue ∨ restated env (some 10) row.condition data.conditionValue ∨
    restated env none row.description1c data.descriptionValue

/-- When the status of an import tells the truth: nothing is written; or the record is the one of the last import
and the product still holds it; or the record is another one, and every value that seems to change does change, or a
change with more weight covers it. -/
def StatusHolds : Prop :=
  (row.deletedAt = none ∧ row.syncExcluded = true) ∨
  (row.hash1c = computeHash env data ∧ ¬ priceMoves env row data ∧ ¬ stockMoves row data ∧ ¬ categoryMoves env row data ∧
    ¬ contentMoves env row data) ∨
  (row.hash1c ≠ computeHash env data ∧
    (categoryMoves env row data ∨
      (¬ categoryRestated env row data ∧
        (contentMoves env row data ∨
          (contentRestated env row data ∧ priceMoves env row data ∧ stockMoves row data) ∨
          (¬ contentRestated env row data ∧ ¬ priceRounds env row data)))))

end

/-! ## Comparisons and writes -/

theorem cut_strip {limit : ℕ} {text stored : Text} (kept : cut limit (Url.strip text) = some stored) :
    stored = Url.strip text := by
  unfold cut at kept
  split at kept
  · exact (Option.some.inj kept).symm
  · next long =>
    split at kept
    · next blanks =>
      exfalso
      have blank_all := List.all_eq_true.mp blanks
      unfold Url.strip Url.rstrip at long blank_all
      generalize text.dropWhile Url.isSpace = body at long blank_all
      cases shape : body.reverse.dropWhile Url.isSpace with
      | nil =>
        rw [shape] at long
        exact long (Nat.zero_le _)
      | cons last rest =>
        have solid : Url.isSpace last = false := by
          have head := List.head?_dropWhile_not Url.isSpace body.reverse
          simpa only [shape, List.head?_cons, Bool.not_eq_true'] using head
        rw [shape, List.reverse_cons] at long blank_all
        have inside : last ∈ (rest.reverse ++ [last]).drop limit := by
          rw [List.drop_append_of_le_length (by simp at long ⊢; omega)]
          exact List.mem_append_right _ List.mem_cons_self
        have blank := beq_iff_eq.mp (blank_all last inside)
        rw [blank] at solid
        cases solid
    · cases kept

set_option synthInstance.maxSize 1000 in
theorem seen_told (price rounds stock category restated content restatedContent : Bool)
    (apart : (price && rounds) = false) (other : (category && restated) = false) :
    Outcome.ofChange (changeType (price || rounds) stock (category || restated) (content || restatedContent)) =
        told price stock category content ↔
      (category = true ∨ (restated = false ∧ (content = true ∨ (restatedContent = true ∧ price = true ∧ stock = true) ∨
        (restatedContent = false ∧ rounds = false)))) := by
  cases category with
  | true =>
    have none_restated : restated = false := other
    subst none_restated
    revert price rounds stock content restatedContent
    decide
  | false =>
    cases restated with
    | true =>
      revert price rounds stock content restatedContent
      decide
    | false =>
      revert price rounds stock content restatedContent
      decide

section
variable {Brands : Type} {env : Environment Brands} {limit : Option ℕ} {old stored : Text} {value : SourceValue}

theorem charColumn_text (fits : ∀ most ∈ limit, old.length ≤ most) (kept : charColumn env.texts limit (.text old) = .ok stored) :
    old = stored := by
  unfold charColumn at kept
  dsimp only [Texts.str] at kept
  split at kept
  · cases kept
  · cases limit with
    | none => exact Except.ok.inj kept
    | some most =>
      simp only [cut, if_pos (fits most rfl)] at kept
      exact Except.ok.inj kept

def restates (old stored : Text) (value : SourceValue) : Bool := !(SourceValue.text old).same value && decide (old = stored)

theorem restated_iff (kept : charColumn env.texts limit value = .ok stored) :
    restated env limit old value ↔ restates old stored value = true := by
  have other : (!(SourceValue.text old).same value) = true ↔ value ≠ .text old := by
    rw [Bool.not_eq_true', ← Bool.not_eq_true, SourceValue.same_text]
  rw [restated, restates, Bool.and_eq_true, decide_eq_true_iff, other, kept, Except.ok.injEq, eq_comm (a := stored)]

theorem moves_iff (kept : charColumn env.texts limit value = .ok stored) :
    moves env limit old value ↔ decide (old ≠ stored) = true := by
  rw [moves, kept, decide_eq_true_iff, ne_eq, Except.ok.injEq, eq_comm]

theorem seen_column (fits : ∀ most ∈ limit, old.length ≤ most) (kept : charColumn env.texts limit value = .ok stored) :
    (!(SourceValue.text old).same value) = (decide (old ≠ stored) || restates old stored value) := by
  by_cases moved : old = stored
  · rw [restates, decide_eq_true moved, Bool.and_true, decide_eq_false (not_not_intro moved), Bool.false_or]
  · have seen : (SourceValue.text old).same value = false := by
      rw [← Bool.not_eq_true, SourceValue.same_text]
      rintro rfl
      exact moved (charColumn_text fits kept)
    rw [seen, decide_eq_true moved, Bool.true_or]
    rfl

theorem moved_or_restated : (decide (old ≠ stored) && restates old stored value) = false := by
  by_cases moved : old = stored <;> simp [restates, moved]

end


section
variable {Brands : Type} {env : Environment Brands} {row : Product} {data : SourceItem} {price : PyDecimal} {cents : ℤ}

theorem priceColumn_ok (kept : priceColumn price = .ok cents) : price.val.isFinite = true ∧ cents = hundredths price.val.value := by
  unfold priceColumn at kept
  split at kept
  · cases kept
  · next finite =>
    split at kept
    · exact ⟨by simpa using finite, (Except.ok.inj kept).symm⟩
    · cases kept

theorem stockColumn_ok {stock : ℤ} {stored : ℕ} (kept : stockColumn stock = .ok stored) : stock = stored := by
  unfold stockColumn at kept
  split at kept
  · cases kept
  · split at kept
    · cases kept
    · cases kept
      omega

def rounds (row : Product) (price : PyDecimal) : Bool :=
  decide (price.val.value ≠ (row.price : ℚ) / 100) && decide (row.price = hundredths price.val.value)

theorem priceMoves_iff (read : priceOf env data = some price) :
    priceMoves env row data ↔ decide (row.price ≠ hundredths price.val.value) = true := by
  simp only [priceMoves, read, Option.mem_def, Option.some.injEq, exists_eq_left', decide_eq_true_iff, ne_eq,
    eq_comm (a := row.price)]

theorem priceRounds_iff (read : priceOf env data = some price) : priceRounds env row data ↔ rounds row price = true := by
  simp only [priceRounds, rounds, read, Option.mem_def, Option.some.injEq, exists_eq_left', Bool.and_eq_true, decide_eq_true_iff,
    eq_comm (a := hundredths price.val.value)]

theorem seen_price {compared : PyDecimal} (kept : priceColumn price = .ok cents)
    (value : compared.val.value = price.val.value) (finite : compared.val.isFinite = price.val.isFinite) :
    (!(compared.val.isFinite && decide (compared.val.value = (row.price : ℚ) / 100))) =
      (decide (row.price ≠ cents) || rounds row price) := by
  obtain ⟨number, rfl⟩ := priceColumn_ok kept
  rw [finite, number, Bool.true_and, value]
  by_cases same : price.val.value = (row.price : ℚ) / 100
  · have stays : row.price = hundredths price.val.value := by rw [same, hundredths_stored]
    simp [rounds, same, hundredths_stored]
  · by_cases moved : row.price = hundredths price.val.value <;> simp [rounds, same, moved]

theorem moved_or_rounds : (decide (row.price ≠ hundredths price.val.value) && rounds row price) = false := by
  by_cases moved : row.price = hundredths price.val.value <;> simp [rounds, moved]

end

/-! ## The status -/

section
variable {Brands : Type} {env : Environment Brands} {tenant : ℕ} {datasource : DataSource}

theorem upsertFromSource_existing {observedAt : Instant} {data : SourceItem} {article : SourceValue} {row : Product}
    {s later : Catalogue Brands} {outcome : Outcome} (named : data.article = some article) (given : article.isNull = false)
    (found : sourceRow tenant datasource (env.texts.str article) s.shelf = some row)
    (imported : upsertFromSource env tenant datasource observedAt data s = (later, .ok outcome)) :
    ∃ brands prepared product, prepareSourceUpsert env datasource data s.brands = (brands, .ok prepared) ∧
      applySourceUpsert env tenant datasource article prepared (some row.load) s.shelf = .ok (later.shelf, product, outcome) := by
  obtain ⟨prepared, _, ready, same, -, written⟩ := upsertFromSource_ok imported
  cases named.symm.trans same
  unfold writeSource at written
  rw [if_neg (by rw [given]; decide), found] at written
  simp only [attempts_ok, bind_ok] at written
  obtain ⟨_, -, ⟨_, product, _⟩, applied, made⟩ := written
  cases made
  exact ⟨later.brands, prepared, product, ready, applied⟩

end


section
variable {Brands : Type} {env : Environment Brands} {tenant : ℕ} {datasource : DataSource} {row : Product} {data : SourceItem}

theorem told_unchanged {price stock category content : Bool} :
    ⟨.unchanged, none⟩ = told price stock category content ↔
      price = false ∧ stock = false ∧ category = false ∧ content = false := by
  revert price stock category content
  decide

theorem product?_of_mem {shelf : Shelf} (keys : (shelf.products.map Product.pk).Nodup) (mem : row ∈ shelf.products) :
    shelf.product? row.pk = some row := by
  unfold Shelf.product?
  cases found : shelf.products.find? (fun other => decide (other.pk = row.pk)) with
  | none => exact absurd (decide_eq_true rfl) (List.find?_eq_none.mp found row mem)
  | some other =>
    have same := List.find?_some (show shelf.products.find? (fun other => decide (other.pk = row.pk)) = some other from found)
    exact congrArg some (row_unique keys (List.mem_of_find?_eq_some found) mem (of_decide_eq_true same))

theorem product?_saved {shelf later : Shelf} {restoring : Bool} {columns : Columns}
    (keys : (shelf.products.map Product.pk).Nodup) (mem : row ∈ shelf.products)
    (saved : later = { shelf with products := shelf.products.map fun other =>
      if other.pk = row.pk then (other.restore restoring).write columns else other }) :
    later.product? row.pk = some ((row.restore restoring).write columns) := by
  have restored_pk (other : Product) : ((other.restore restoring).write columns).pk = other.pk := by
    cases restoring <;> rfl
  have same_keys : later.products.map Product.pk = shelf.products.map Product.pk := by
    rw [saved, List.map_map]
    refine List.map_congr_left fun other _ => ?_
    by_cases hit : other.pk = row.pk
    · simp only [Function.comp_apply, if_pos hit, restored_pk]
    · simp only [Function.comp_apply, if_neg hit]
  have there : (row.restore restoring).write columns ∈ later.products := by
    rw [saved]
    exact List.mem_map.mpr ⟨row, mem, if_pos rfl⟩
  have found := product?_of_mem (same_keys ▸ keys) there
  rwa [restored_pk] at found

theorem incomingBrand_stripped (env : Environment Brands) (data : SourceItem) : ∃ text, incomingBrand env data = Url.strip text := by
  unfold incomingBrand
  split
  · exact ⟨[], rfl⟩
  · split
    · exact ⟨_, rfl⟩
    · exact ⟨[], rfl⟩

theorem charColumn_cut {limit : ℕ} {text stored : Text} (kept : charColumn env.texts (some limit) (.text text) = .ok stored) :
    cut limit text = some stored := by
  unfold charColumn at kept
  dsimp only [Texts.str] at kept
  split at kept
  · cases kept
  · cases shape : cut limit text with
    | none =>
      rw [shape] at kept
      cases kept
    | some =>
      rw [shape] at kept
      exact congrArg some (Except.ok.inj kept)

theorem incomingBrand_kept {stored : Text} (kept : charColumn env.texts (some 200) (.text (incomingBrand env data)) = .ok stored) :
    stored = incomingBrand env data := by
  have cut_brand := charColumn_cut kept
  obtain ⟨_, stripped⟩ := incomingBrand_stripped env data
  rw [stripped] at cut_brand ⊢
  exact cut_strip cut_brand

theorem brand_written {defaults : Defaults} {stored : Text} (fits : row.brand.length ≤ 200) (incoming : defaults.brand = incomingBrand env data)
    (kept : charColumn env.texts (some 200) (.text (defaults.keepBrand row.load).brand) = .ok stored) :
    (defaults.keepBrand row.load).brand = writtenBrand env row data ∧ stored = writtenBrand env row data := by
  unfold Defaults.keepBrand at kept ⊢
  unfold writtenBrand
  rw [incoming] at kept ⊢
  have loaded : row.load.brand = row.brand := rfl
  rw [loaded] at kept ⊢
  by_cases stays : ((incomingBrand env data).isEmpty && !row.brand.isEmpty) = true
  · rw [if_pos stays] at kept ⊢
    rw [if_pos stays]
    have short : ∀ most ∈ some 200, row.brand.length ≤ most := by
      rintro most ⟨⟩
      exact fits
    exact ⟨rfl, (charColumn_text short kept).symm⟩
  · rw [if_neg stays] at kept ⊢
    rw [if_neg stays]
    rw [incoming] at kept ⊢
    exact ⟨rfl, incomingBrand_kept kept⟩

theorem keepBrand_rest (defaults : Defaults) (existing : Instance) :
    (defaults.keepBrand existing).name = defaults.name ∧ (defaults.keepBrand existing).category1c = defaults.category1c ∧
      (defaults.keepBrand existing).condition = defaults.condition ∧ (defaults.keepBrand existing).price = defaults.price ∧
      (defaults.keepBrand existing).stockQty = defaults.stockQty ∧
      (defaults.keepBrand existing).description1c = defaults.description1c ∧
      (defaults.keepBrand existing).hash1c = defaults.hash1c := by
  unfold Defaults.keepBrand
  split
  · exact ⟨rfl, rfl, rfl, rfl, rfl, rfl, rfl⟩
  · exact ⟨rfl, rfl, rfl, rfl, rfl, rfl, rfl⟩

end


theorem detected {Brands : Type} {env : Environment Brands} {row : Product} {data : SourceItem} {price : PyDecimal} {stock : ℤ}
    {stored : ℕ} {brand : Text} {priceMoved rounded categoryMoved categoryRestated nameMoved nameRestated conditionMoved
      conditionRestated descriptionMoved descriptionRestated : Bool}
    (read : priceOf env data = some price) (count : intValue data.stockValue = some stock) (kept : stock = stored)
    (hprice : ∀ {compared : PyDecimal}, compared.val.value = price.val.value → compared.val.isFinite = price.val.isFinite →
      (!(compared.val.isFinite && decide (compared.val.value = (row.price : ℚ) / 100))) = (priceMoved || rounded))
    (hcategory : (!(SourceValue.text row.category1c).same data.categoryValue) = (categoryMoved || categoryRestated))
    (hname : (!(SourceValue.text row.name).same data.nameValue) = (nameMoved || nameRestated))
    (hcondition : (!(SourceValue.text row.condition).same data.conditionValue) = (conditionMoved || conditionRestated))
    (hdescription : (!(SourceValue.text row.description1c).same data.descriptionValue) = (descriptionMoved || descriptionRestated)) :
    detectChangeType env row.load.compared (data.compared brand) =
      .ok (changeType (priceMoved || rounded) (decide (row.stockQty ≠ stored)) (categoryMoved || categoryRestated)
        ((nameMoved || decide (row.brand ≠ brand) || conditionMoved || descriptionMoved) ||
          (nameRestated || conditionRestated || descriptionRestated))) := by
  obtain ⟨compared, given, value, finite⟩ := comparedPrice_of read
  have parsed : parseInteger data.stockValue = some stock := by
    unfold parseInteger
    split
    · next none_there =>
      rw [none_there] at count
      cases count
    · exact count
  have stock_seen : decide ((row.stockQty : ℤ) ≠ stock) = decide (row.stockQty ≠ stored) := by
    rw [kept]
    exact decide_eq_decide.mpr (not_congr Nat.cast_inj)
  have content : (nameMoved || nameRestated || decide (row.brand ≠ brand) || (conditionMoved || conditionRestated) ||
      (descriptionMoved || descriptionRestated)) =
      ((nameMoved || decide (row.brand ≠ brand) || conditionMoved || descriptionMoved) ||
        (nameRestated || conditionRestated || descriptionRestated)) := by
    ac_rfl
  rw [← content, ← hprice value finite, ← hcategory, ← hname, ← hcondition, ← hdescription, ← stock_seen]
  unfold detectChangeType
  rw [show comparedPrice env (data.compared brand).price = some compared from given]
  show Except.ok _ = _
  rw [show parseInteger (data.compared brand).stockQty = some stock from parsed]
  rfl

theorem status_written {Brands : Type} {env : Environment Brands} {row : Product} {data : SourceItem} {prepared : Prepared}
    {columns : Columns} {change : Option ChangeType} {restoring : Bool} {datasource : DataSource} {brands later : Brands}
    (fits : row.Fits) (ready : prepareSourceUpsert env datasource data brands = (later, .ok prepared))
    (stored : Stored env (prepared.defaults.keepBrand row.load) columns)
    (found : foundChange env row.load prepared (prepared.defaults.keepBrand row.load).brand = .ok change)
    (written : ¬ (row.deletedAt = none ∧ row.syncExcluded = true)) :
    Outcome.ofChange change = truth row ((row.restore restoring).write columns) ↔ StatusHolds env row data := by
  obtain ⟨same_data, hash, name, brand, category, condition, description, price, stock, -⟩ := prepareSourceUpsert_ok ready
  obtain ⟨kept_name, kept_category, kept_condition, kept_price, kept_stock, kept_description, -⟩ :=
    keepBrand_rest prepared.defaults row.load
  obtain ⟨brand_seen, brand_stored⟩ := brand_written fits.brand brand stored.brand
  have hname := stored.name
  have hcategory := stored.category1c
  have hcondition := stored.condition
  have hdescription := stored.description1c
  have hprice := stored.price
  have hstock := stockColumn_ok stored.stockQty
  rw [kept_name, name] at hname
  rw [kept_category, category] at hcategory
  rw [kept_condition, condition] at hcondition
  rw [kept_description, description] at hdescription
  rw [kept_price] at hprice
  rw [kept_stock] at hstock
  obtain ⟨-, cents⟩ := priceColumn_ok hprice
  -- what the write did
  have done : truth row ((row.restore restoring).write columns) =
      told (decide (row.price ≠ hundredths prepared.defaults.price.val.value)) (decide (row.stockQty ≠ columns.stockQty))
        (decide (row.category1c ≠ columns.category1c))
        (decide (row.name ≠ columns.name) || decide (row.brand ≠ writtenBrand env row data) ||
          decide (row.condition ≠ columns.condition) || decide (row.description1c ≠ columns.description1c)) := by
    rw [← cents, ← brand_stored]
    rfl
  have stock_moves : stockMoves row data ↔ decide (row.stockQty ≠ columns.stockQty) = true := by
    rw [stockMoves, stock, hstock, decide_eq_true_iff, ne_eq, Option.some.injEq, Nat.cast_inj, eq_comm]
  have content_moves : contentMoves env row data ↔
      (decide (row.name ≠ columns.name) || decide (row.brand ≠ writtenBrand env row data) ||
        decide (row.condition ≠ columns.condition) || decide (row.description1c ≠ columns.description1c)) = true := by
    rw [contentMoves, moves_iff hname, moves_iff hcondition, moves_iff hdescription, Bool.or_eq_true, Bool.or_eq_true,
      Bool.or_eq_true, decide_eq_true_iff (p := row.brand ≠ writtenBrand env row data), ne_comm (a := writtenBrand env row data),
      or_assoc, or_assoc]
  have content_restated : contentRestated env row data ↔
      (restates row.name columns.name data.nameValue || restates row.condition columns.condition data.conditionValue ||
        restates row.description1c columns.description1c data.descriptionValue) = true := by
    rw [contentRestated, restated_iff hname, restated_iff hcondition, restated_iff hdescription, Bool.or_eq_true, Bool.or_eq_true,
      or_assoc]
  rw [done, StatusHolds, or_iff_right written, priceMoves_iff price, priceRounds_iff price, stock_moves, categoryMoves,
    categoryRestated, moves_iff hcategory, restated_iff hcategory, content_moves, content_restated]
  have loaded : row.load.hash1c = row.hash1c := rfl
  rw [foundChange, hash, loaded, same_data, brand_seen] at found
  by_cases again : row.hash1c = computeHash env data
  · rw [if_neg (not_not_intro again)] at found
    cases found
    simp only [again, true_and, ne_eq, not_true_eq_false, false_and, or_false]
    exact told_unchanged.trans (by simp only [Bool.not_eq_true])
  · rw [if_pos again, detected price stock hstock (seen_price hprice) (seen_column (by simpa using fits.category1c) hcategory)
      (seen_column (by simpa using fits.name) hname) (seen_column (by simpa using fits.condition) hcondition)
      (seen_column (by rintro most ⟨⟩) hdescription)] at found
    cases found
    rw [cents]
    simp only [again, false_and, false_or, ne_eq, not_false_eq_true, true_and, Bool.not_eq_true]
    exact seen_told _ _ _ _ _ _ _ moved_or_rounds moved_or_restated

/-- The import of a record into a product that is there tells what it did exactly when nothing is written, the record
of the last import finds its own values, or every value that seems to change does. -/
theorem upsertFromSource_tells {Brands : Type} {env : Environment Brands} {tenant : ℕ} {datasource : DataSource}
    {observedAt : Instant} {data : SourceItem} {article : SourceValue} {row : Product} {s later : Catalogue Brands}
    {outcome : Outcome} (keys : (s.shelf.products.map Product.pk).Nodup) (fits : row.Fits)
    (named : data.article = some article) (given : article.isNull = false)
    (found : sourceRow tenant datasource (env.texts.str article) s.shelf = some row)
    (imported : upsertFromSource env tenant datasource observedAt data s = (later, .ok outcome)) :
    ∃ after, later.shelf.product? row.pk = some after ∧ (outcome = truth row after ↔ StatusHolds env row data) := by
  have mem : row ∈ s.shelf.products := List.mem_of_find?_eq_some found
  obtain ⟨_, _, product, ready, applied⟩ := upsertFromSource_existing named given found imported
  rcases applySourceUpsert_existing applied with ⟨present, excluded, same, -, rfl⟩ | ⟨open_row, saved, -, change, seen, rfl⟩
  · refine ⟨row, same ▸ product?_of_mem keys mem, ?_⟩
    have nothing : StatusHolds env row data := .inl ⟨Option.isNone_iff_eq_none.mp (by simpa [Product.load] using present), excluded⟩
    exact ⟨fun _ => nothing, fun _ => by simp [truth, told]⟩
  · obtain ⟨_, made, written⟩ := saveProduct_ok saved
    refine ⟨_, product?_saved keys mem written, ?_⟩
    refine status_written fits ready (columnsOf_stored made) seen ?_
    rintro ⟨present, excluded⟩
    rcases open_row with deleted | included
    · simp [Product.load, present] at deleted
    · simp [Product.load, excluded] at included

/-! A record and the product of its last import. -/

def plainTexts : Environment Unit where
  texts := ⟨fun _ => [], fun _ => []⟩
  digest := fun payload => payload.flatMap fun entry => Texts.str ⟨fun _ => [], fun _ => []⟩ entry.2 ++ ['|']
  resolveOrCreateBrand := fun _ _ brands => (brands, some none)
  uuidOf := fun _ => none
  ingressEnabled := false

def lever : SourceItem where
  article := some (.text "A100".toList)
  uuid := none
  name := some (.text "lever".toList)
  brand := some (.text "Lemforder".toList)
  price := some (.text "1000".toList)
  stockQty := some (.int 5)
  category := some (.text "suspension".toList)
  condition := none
  warehouse := none
  description := none

def oneC : DataSource := ⟨7, "1c_http".toList⟩

def imported : Product where
  pk := 1
  tenant := 3
  datasource := some 7
  article := "A100".toList
  uuid1c := none
  name := "lever".toList
  brand := "Lemforder".toList
  brandResolution := ⟨none, .source, 1, "1c_http".toList, false⟩
  category1c := "suspension".toList
  condition := "new".toList
  description1c := []
  price := 100000
  stockQty := 5
  warehouse := []
  hash1c := computeHash plainTexts lever
  deletedAt := none
  syncExcluded := false

def edited : Product := { imported with brand := "LEMFOERDER".toList, brandResolution := ⟨none, .manual, 1, [], false⟩ }

def catalogueOf (row : Product) : Catalogue Unit := ⟨⟨[row], 2⟩, (), [], ⟨[], [], 1, 1, []⟩⟩

theorem of_toOption {C E R : Type} {x : C × Except E R} {r : R} (done : x.2.toOption = some r) : x = (x.1, .ok r) := by
  obtain ⟨c, answer⟩ := x
  cases answer with
  | error => cases done
  | ok =>
    cases done
    rfl

theorem upsertFromSource_tells_imported :
    ∃ later, upsertFromSource plainTexts 3 oneC 0 lever (catalogueOf imported) = (later, .ok ⟨.unchanged, none⟩) ∧
      ∃ after, later.shelf.product? 1 = some after ∧
        (⟨.unchanged, none⟩ = truth imported after ↔ StatusHolds plainTexts imported lever) := by
  have fits : imported.Fits := ⟨by decide, by decide, by decide, by decide⟩
  have done : (upsertFromSource plainTexts 3 oneC 0 lever (catalogueOf imported)).2.toOption = some ⟨.unchanged, none⟩ := by
    decide +kernel
  have found : sourceRow 3 oneC (plainTexts.texts.str (.text "A100".toList)) (catalogueOf imported).shelf = some imported := by
    decide +kernel
  exact ⟨_, of_toOption done, upsertFromSource_tells (by decide) fits rfl rfl found (of_toOption done)⟩

/-- The import that takes back an edited brand reports no change. -/
theorem upsertFromSource_tells_edited : ¬ ∀ (env : Environment Unit) (tenant : ℕ) (datasource : DataSource) (observedAt : Instant)
    (data : SourceItem) (article : SourceValue) (row : Product) (s later : Catalogue Unit) (outcome : Outcome),
    (s.shelf.products.map Product.pk).Nodup → row.Fits → data.article = some article → article.isNull = false →
    sourceRow tenant datasource (env.texts.str article) s.shelf = some row →
    upsertFromSource env tenant datasource observedAt data s = (later, .ok outcome) →
    ∃ after, later.shelf.product? row.pk = some after ∧ outcome = truth row after := by
  intro always
  have fits : edited.Fits := ⟨by decide, by decide, by decide, by decide⟩
  have done : (upsertFromSource plainTexts 3 oneC 0 lever (catalogueOf edited)).2.toOption = some ⟨.unchanged, none⟩ := by
    decide +kernel
  have found : sourceRow 3 oneC (plainTexts.texts.str (.text "A100".toList)) (catalogueOf edited).shelf = some edited := by
    decide +kernel
  obtain ⟨after, kept, same⟩ := always plainTexts 3 oneC 0 lever _ edited _ _ _ (by decide) fits rfl rfl found (of_toOption done)
  have told_content : ((upsertFromSource plainTexts 3 oneC 0 lever (catalogueOf edited)).1.shelf.product? 1).map (truth edited) =
      some ⟨.updated, some .content⟩ := by
    decide +kernel
  have kept_one : (upsertFromSource plainTexts 3 oneC 0 lever (catalogueOf edited)).1.shelf.product? 1 = some after := kept
  rw [kept_one, Option.map_some, ← same] at told_content
  cases told_content

end MapBackend.Products.Import
