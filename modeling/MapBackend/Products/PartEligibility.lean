import MapBackend.Products.CatalogDomains
import MapBackend.Products.PageFeeds

/-!
What the check of a product for the parser comes to.
-/

namespace MapBackend.Products.Enrichment
open MapBackend.Library MapBackend.Core MapBackend.Marketplaces Inference Program

/-! ## Feeds -/

def FeedsReady (settings : CatalogSettings) (ids : List ℕ) (times : ℕ) (feeds : FeedIntent.FeedStore) : Prop :=
  settings.ingressEnabled = true → ∀ row ∈ feeds.accounts, row.pk ∈ Import.productFeedAccountIds ids settings.listings feeds →
    row.drifted = false ∧ row.cursor.revision + times ≤ FeedIntent.maxFeedIntentRevision

section Feeds

variable {settings : CatalogSettings} {ids : List ℕ} {times : ℕ} {feeds moved : FeedIntent.FeedStore} {observedAt : Instant}

theorem FeedsReady.mono {fewer : ℕ} (ready : FeedsReady settings ids times feeds) (le : fewer ≤ times) :
    FeedsReady settings ids fewer feeds := fun ingress row mem owner => by
  obtain ⟨same, _⟩ := ready ingress row mem owner
  exact ⟨same, by omega⟩

theorem drifted_bump (row : FeedIntent.FeedAccount) (observedAt : Instant) : (row.bump observedAt).drifted = false := by
  change (row.sourceIntentRevision.map fun _ => row.cursor.next.revision).any _ = false
  cases row.sourceIntentRevision with
  | none => rfl
  | some => exact decide_eq_false fun other => other rfl

theorem owners_moved {moving : List ℕ} (bumped : feeds.bumpFeedIntents moving observedAt = .ok (moved, ())) {account : ℕ} :
    account ∈ Import.productFeedAccountIds ids settings.listings moved ↔ account ∈ Import.productFeedAccountIds ids settings.listings feeds := by
  rw [Import.mem_productFeedAccountIds, Import.mem_productFeedAccountIds]
  apply and_congr_right'
  have after := @Import.bumpFeedIntents_account? _ _ _ _ account bumped
  unfold Import.Present
  rw [after]
  cases feeds.account? account with
  | none => simp
  | some row =>
    have kept : (if moving.contains row.pk then row.bump observedAt else row).deleted = row.deleted := by
      split <;> rfl
    simp only [Option.map_some, Option.some.injEq, exists_eq_left', kept]

theorem FeedsReady.step {moving : List ℕ} (ready : FeedsReady settings ids (times + 1) feeds)
    (inside : ∀ account ∈ moving, account ∈ Import.productFeedAccountIds ids settings.listings feeds)
    (bumped : feeds.bumpFeedIntents moving observedAt = .ok (moved, ())) : FeedsReady settings ids times moved := by
  intro ingress later mem owner
  have accounts : moved.accounts = feeds.accounts.map fun row => if moving.contains row.pk then row.bump observedAt else row := by
    simp only [FeedIntent.FeedStore.bumpFeedIntents, Library.bind_ok, raiseIf_ok] at bumped
    obtain ⟨-, -, -, -, -, -, made⟩ := bumped
    cases made
    rfl
  rw [accounts] at mem
  obtain ⟨row, there, rfl⟩ := List.mem_map.mp mem
  have key : (if moving.contains row.pk then row.bump observedAt else row).pk = row.pk := by
    split <;> rfl
  rw [owners_moved bumped, key] at owner
  obtain ⟨same, _⟩ := ready ingress row there owner
  by_cases known : moving.contains row.pk = true
  · rw [if_pos known]
    have free : row.exhausted = false := decide_eq_false (by omega)
    refine ⟨drifted_bump row observedAt, ?_⟩
    rw [(Import.bump_row row observedAt).2.2 free]
    omega
  · rw [if_neg known]
    exact ⟨same, by omega⟩

variable {s : PartStore} {id : ℕ}

theorem lockedProductFeedWrite_ok (observedAt : Instant) (ready : FeedsReady s.settings ids (times + 1) s.feeds) (mem : id ∈ ids) :
    ∃ feeds, lockedProductFeedWrite observedAt id s = .ok () { s with feeds } ∧ FeedsReady s.settings ids times feeds := by
  rw [lockedProductFeedWrite, get_bind]
  by_cases ingress : s.settings.ingressEnabled = true
  · have inside : ∀ account ∈ Import.productFeedAccountIds [id] s.settings.listings s.feeds,
        account ∈ Import.productFeedAccountIds ids s.settings.listings s.feeds := by
      intro account owner
      rw [Import.mem_productFeedAccountIds] at owner ⊢
      obtain ⟨⟨product, one, owns⟩, present⟩ := owner
      exact ⟨⟨product, List.mem_singleton.mp one ▸ mem, owns⟩, present⟩
    have there : ∀ account ∈ Import.productFeedAccountIds [id] s.settings.listings s.feeds, (s.feeds.account? account).isSome = true := by
      intro account owner
      obtain ⟨row, found, -⟩ := (Import.mem_productFeedAccountIds.mp owner).2
      rw [found]
      rfl
    obtain ⟨moved, bumped⟩ := @Import.bumpFeedIntents_goes _ observedAt s.feeds there fun row mem owner => by
      obtain ⟨same, _⟩ := ready ingress row mem (inside row.pk owner)
      exact ⟨same, decide_eq_false (by omega)⟩
    refine ⟨moved, ?_, ready.step inside bumped⟩
    rw [if_pos ingress, bumped]
    rfl
  · rw [if_neg ingress]
    exact ⟨s.feeds, rfl, ready.mono (Nat.le_succ times)⟩

end Feeds

/-! ## Categories and classifications -/

section Classification

variable {lib : CaseLibrary} {s : CatalogSettings} {product : PartProduct}

theorem category?_self {id : ℕ} {category : CatalogCategory} (found : s.category? id = some category) :
    s.category? category.id = some category := by
  have there : s.categories.find? (fun row => row.id == id) = some category := found
  have same : (category.id == id) = true := by simpa using List.find?_some there
  rw [beq_iff_eq.mp same]
  exact found

theorem mappedCategory_self {category : CatalogCategory} (mapped : mappedCategory s product = some category) :
    s.category? category.id = some category := by
  obtain ⟨_, -, found⟩ := List.exists_of_findSome?_eq_some mapped
  exact category?_self (Option.filter_eq_some_iff.mp found).1

theorem inferCategory_cases (lib : CaseLibrary) (s : CatalogSettings) (product : PartProduct) :
    inferCategory lib s product = (product, none) ∨
      ∃ id, inferCategory lib s product = ({ product with catalogCategory := some id }, s.category? id) := by
  unfold inferCategory inferProductTenantCategory
  dsimp only
  split
  · exact .inl rfl
  · split
    · exact .inl rfl
    · next category _ => exact .inr ⟨category.id, rfl⟩

theorem getProductTenantCategoryLocked_saved (lib : CaseLibrary) (s : CatalogSettings) (product : PartProduct) :
    ∃ category, (getProductTenantCategoryLocked lib s product).1 = { product with catalogCategory := category } := by
  have inferred : ∃ category, (inferCategory lib s product).1 = { product with catalogCategory := category } := by
    rcases inferCategory_cases lib s product with same | ⟨id, same⟩
    · exact ⟨product.catalogCategory, by rw [same]⟩
    · exact ⟨some id, by rw [same]⟩
  unfold getProductTenantCategoryLocked
  split
  · exact ⟨product.catalogCategory, rfl⟩
  · split
    · exact ⟨product.catalogCategory, rfl⟩
    · split
      · exact inferred
      · split
        · next category _ => exact ⟨some category.id, rfl⟩
        · exact inferred

theorem getProductTenantCategoryLocked_kept {id : ℕ} (there : product.catalogCategory = some id) :
    getProductTenantCategoryLocked lib s product = (product, s.category? id) := by
  unfold getProductTenantCategoryLocked
  rw [there]

theorem getProductTenantCategoryLocked_reclassified (classification : Option ProductCatalogClassification) :
    (getProductTenantCategoryLocked lib s { product with classification }).2 = (getProductTenantCategoryLocked lib s product).2 := by
  unfold getProductTenantCategoryLocked
  cases product.catalogCategory with
  | some => rfl
  | none =>
    dsimp only
    split
    · rfl
    · split
      · rfl
      · have mapped : mappedCategory s { product with classification } = mappedCategory s product := rfl
        rw [mapped]
        cases mappedCategory s product <;> rfl

theorem getProductTenantCategoryLocked_again (lib : CaseLibrary) (s : CatalogSettings) (product : PartProduct) :
    (getProductTenantCategoryLocked lib s (getProductTenantCategoryLocked lib s product).1).2 =
      (getProductTenantCategoryLocked lib s product).2 := by
  have kept (id : ℕ) (row : PartProduct) (there : row.catalogCategory = some id) :
      (getProductTenantCategoryLocked lib s row).2 = s.category? id := by rw [getProductTenantCategoryLocked_kept there]
  have inferred (result : getProductTenantCategoryLocked lib s product = inferCategory lib s product) :
      (getProductTenantCategoryLocked lib s (getProductTenantCategoryLocked lib s product).1).2 =
        (getProductTenantCategoryLocked lib s product).2 := by
    rcases inferCategory_cases lib s product with same | ⟨id, same⟩
    · rw [same] at result
      simp only [result]
    · rw [result, same]
      exact kept id _ rfl
  cases there : product.catalogCategory with
  | some => simp only [getProductTenantCategoryLocked_kept there]
  | none =>
    by_cases cleared : product.catalogCategoryManuallyCleared = true
    · have same : getProductTenantCategoryLocked lib s product = (product, none) := by
        simp only [getProductTenantCategoryLocked, there, cleared, if_true]
      simp only [same]
    · by_cases bare : product.category1c.isEmpty = true
      · apply inferred
        simp only [getProductTenantCategoryLocked, there, cleared, bare, if_true, if_false, Bool.false_eq_true]
      · cases mapped : mappedCategory s product with
        | some category =>
          have found : getProductTenantCategoryLocked lib s product = ({ product with catalogCategory := some category.id }, some category) := by
            simp only [getProductTenantCategoryLocked, there, cleared, bare, mapped, if_false, Bool.false_eq_true]
          rw [found]
          exact (kept category.id _ rfl).trans (mappedCategory_self mapped)
        | none =>
          apply inferred
          simp only [getProductTenantCategoryLocked, there, cleared, bare, mapped, if_false, Bool.false_eq_true]

theorem classifyLocked_again (new : product.classification = none) :
    (classifyLocked lib s (classifyLocked lib s product).1).2 = (classifyLocked lib s product).2 := by
  obtain ⟨_, saved⟩ := getProductTenantCategoryLocked_saved lib s product
  have again := getProductTenantCategoryLocked_again lib s product
  have first : (classifyLocked lib s product).2 = ruleClassification lib product (getProductTenantCategoryLocked lib s product).2 := by
    simp only [classifyLocked, storedClassification, new]
  have rules : (classifyLocked lib s product).2.source = .rules := by
    rw [first]
    unfold ruleClassification
    dsimp only
    split
    · rfl
    · split
      · rfl
      · split <;> rfl
  have row : (classifyLocked lib s product).1 =
      { (getProductTenantCategoryLocked lib s product).1 with classification := some (classifyLocked lib s product).2 } := rfl
  have texts : ruleClassification lib (classifyLocked lib s product).1 = ruleClassification lib product := by
    rw [row, saved]
    rfl
  have stored : (classifyLocked lib s (classifyLocked lib s product).1).2 = storedClassification (some (classifyLocked lib s product).2)
      (ruleClassification lib (classifyLocked lib s product).1 (getProductTenantCategoryLocked lib s (classifyLocked lib s product).1).2) := rfl
  rw [stored, storedClassification, rules, if_neg (by decide), texts, row, getProductTenantCategoryLocked_reclassified, again, first]

end Classification

/-! ## Writes -/

namespace ProductTable

variable {table : ProductTable} {row old : PartProduct} {id : ℕ}

theorem id_of_product? (found : table.product? id = some row) : row.id = id := by
  have there : table.rows.find? (fun row => row.id == id) = some row := found
  simpa using List.find?_some there

theorem product?_save : (table.save row).product? id = (table.product? id).map fun old => if old.id = row.id then row else old := by
  have same : ((fun row : PartProduct => row.id == id) ∘ fun old => if old.id = row.id then row else old) = fun old => old.id == id := by
    funext old
    by_cases own : old.id = row.id
    · simp [own]
    · simp [own]
  change (table.rows.map fun old => if old.id = row.id then row else old).find? (fun row => row.id == id) = _
  rw [List.find?_map, same]
  rfl

theorem product?_save_self (found : table.product? row.id = some old) : (table.save row).product? row.id = some row := by
  rw [product?_save, found, Option.map_some, if_pos (id_of_product? found)]

theorem product?_save_other (other : id ≠ row.id) : (table.save row).product? id = table.product? id := by
  rw [product?_save]
  cases found : table.product? id with
  | none => rfl
  | some =>
    rw [Option.map_some, if_neg]
    rw [id_of_product? found]
    exact other

end ProductTable

structure Wrote (ids : List ℕ) (times id : ℕ) (s t : PartStore) : Prop where
  settings : t.settings = s.settings
  others : ∀ other ≠ id, t.products.product? other = s.products.product? other
  feeds : FeedsReady t.settings ids times t.feeds

theorem Wrote.trans {ids : List ℕ} {times more id : ℕ} {s m t : PartStore} (first : Wrote ids more id s m) (second : Wrote ids times id m t) :
    Wrote ids times id s t where
  settings := second.settings.trans first.settings
  others other apart := (second.others other apart).trans (first.others other apart)
  feeds := second.feeds

theorem Wrote.refl {ids : List ℕ} {times : ℕ} (id : ℕ) {s : PartStore} (ready : FeedsReady s.settings ids times s.feeds) :
    Wrote ids times id s s := ⟨rfl, fun _ _ => rfl, ready⟩

/-! ## The answer of the check -/

inductive Eligibility where
  | eligible | notAutoPart | disabled
  deriving DecidableEq

def Eligibility.answer (object : PartProduct) (t : PartStore) : Eligibility → EStateM.Result PartError PartStore PartProduct
  | .eligible => .ok object t
  | .notAutoPart => .error .productIsNotAutoPart t
  | .disabled => .error .autoPartsEnrichmentDisabled t

section Answer

variable (lib : CaseLibrary) (settings : CatalogSettings)

def switchedOff (product : PartProduct) : Bool :=
  !settings.autoPartsCatalogCapabilities.1 && !settings.productCatalogSupportsAutoParts product

def checksProduct (product : PartProduct) : Bool :=
  settings.autoPartsCatalogCapabilities.2 || settings.productCatalogSupportsAutoParts product

def eligibility (product row : PartProduct) : Eligibility :=
  if settings.rootSupports product = some false then .notAutoPart
  else if switchedOff settings product then .disabled
  else if checksProduct settings product then
    if (product.classification.getD (classifyLocked lib settings row).2).candidate then .eligible else .notAutoPart
  else .eligible

def classifies (product : PartProduct) : Bool :=
  decide (settings.rootSupports product ≠ some false) && !switchedOff settings product && checksProduct settings product &&
    product.classification.isNone

def checkedObject (product row : PartProduct) : PartProduct :=
  if classifies settings product then { product with catalogCategory := (classifyLocked lib settings row).1.catalogCategory } else product

def checkedRow (product row : PartProduct) : PartProduct :=
  if classifies settings product then (classifyLocked lib settings row).1 else row

variable {lib settings} {s : PartStore} {ids : List ℕ} {times : ℕ} {product row : PartProduct}

theorem classifyLocked_id : (classifyLocked lib settings row).1.id = row.id := by
  obtain ⟨_, saved⟩ := getProductTenantCategoryLocked_saved lib settings row
  have same : (classifyLocked lib settings row).1.id = (getProductTenantCategoryLocked lib settings row).1.id := rfl
  rw [same, saved]

theorem classify_spec (observedAt : Instant) (there : s.products.product? product.id = some row) (alive : row.deleted = false)
    (ready : FeedsReady s.settings ids (times + 1) s.feeds) (mem : product.id ∈ ids) :
    ∃ t, classifyProductCatalogDomain lib observedAt product s =
        .ok ({ product with catalogCategory := (classifyLocked lib s.settings row).1.catalogCategory }, (classifyLocked lib s.settings row).2) t ∧
      Wrote ids times product.id s t ∧ t.products.product? product.id = some (classifyLocked lib s.settings row).1 := by
  obtain ⟨feeds, moved, left⟩ := lockedProductFeedWrite_ok observedAt ready mem
  have own : (classifyLocked lib s.settings row).1.id = product.id := classifyLocked_id.trans (ProductTable.id_of_product? there)
  refine ⟨{ s with feeds, products := s.products.save (classifyLocked lib s.settings row).1 }, ?_, ⟨rfl, fun other apart => ?_, left⟩, ?_⟩
  · rw [classifyProductCatalogDomain, get_bind, there]
    dsimp only
    rw [if_neg (by rw [alive]; decide), bind_of_ok moved, get_bind]
    rfl
  · exact ProductTable.product?_save_other (own ▸ apart)
  · have saved := @ProductTable.product?_save_self s.products (classifyLocked lib s.settings row).1 row (own.symm ▸ there)
    rwa [own] at saved

theorem ensure_eq (observedAt : Instant) (s : PartStore) (product : PartProduct) : ensureProductAutoPartsEligible lib observedAt product s =
    (if s.settings.rootSupports product = some false then (throw .productIsNotAutoPart : PartM PartProduct)
      else if switchedOff s.settings product = true then throw .autoPartsEnrichmentDisabled
      else if checksProduct s.settings product = true then
        isProductAutoPartCandidate lib observedAt product >>= fun checked =>
          if checked.2 = true then pure checked.1 else throw .productIsNotAutoPart
      else pure product) s := rfl

theorem answer_of_candidate (object : PartProduct) (candidate : Bool) (t : PartStore) :
    (if candidate = true then (pure object : PartM PartProduct) else throw .productIsNotAutoPart) t =
      (if candidate = true then Eligibility.eligible else .notAutoPart).answer object t := by
  cases candidate <;> rfl

theorem isProductAutoPartCandidate_known {known : ProductCatalogClassification} (is : product.classification = some known)
    (observedAt : Instant) : isProductAutoPartCandidate lib observedAt product = pure (product, known.candidate) := by
  unfold isProductAutoPartCandidate
  split
  · next other same =>
    rw [is] at same
    rw [Option.some.inj same]
  · next none => rw [is] at none; cases none

theorem isProductAutoPartCandidate_new (new : product.classification = none) (observedAt : Instant) :
    isProductAutoPartCandidate lib observedAt product =
      classifyProductCatalogDomain lib observedAt product >>= fun made => pure (made.1, made.2.candidate) := by
  unfold isProductAutoPartCandidate
  split
  · next other same => rw [new] at same; cases same
  · rfl

theorem ensure_spec (observedAt : Instant) (there : s.products.product? product.id = some row) (alive : row.deleted = false)
    (ready : FeedsReady s.settings ids (times + 1) s.feeds) (mem : product.id ∈ ids) :
    ∃ t, ensureProductAutoPartsEligible lib observedAt product s =
        (eligibility lib s.settings product row).answer (checkedObject lib s.settings product row) t ∧
      Wrote ids times product.id s t ∧ t.products.product? product.id = some (checkedRow lib s.settings product row) := by
  have still := Wrote.refl product.id (ready.mono (Nat.le_succ times))
  rw [ensure_eq]
  by_cases refused : s.settings.rootSupports product = some false
  · have answer : eligibility lib s.settings product row = .notAutoPart := if_pos refused
    have none : classifies s.settings product = false := by simp [classifies, refused]
    refine ⟨s, ?_, still, ?_⟩
    · rw [if_pos refused, answer]
      rfl
    · rw [checkedRow, none]
      exact there
  · rw [if_neg refused]
    by_cases off : switchedOff s.settings product = true
    · have answer : eligibility lib s.settings product row = .disabled := by rw [eligibility, if_neg refused, if_pos off]
      have none : classifies s.settings product = false := by simp [classifies, off]
      refine ⟨s, ?_, still, ?_⟩
      · rw [if_pos off, answer]
        rfl
      · rw [checkedRow, none]
        exact there
    · rw [if_neg off]
      by_cases checks : checksProduct s.settings product = true
      · have answer : eligibility lib s.settings product row =
            if (product.classification.getD (classifyLocked lib s.settings row).2).candidate then .eligible else .notAutoPart := by
          rw [eligibility, if_neg refused, if_neg off, if_pos checks]
        rw [if_pos checks, answer]
        cases classification : product.classification with
        | some known =>
          have none : classifies s.settings product = false := by simp [classifies, classification]
          refine ⟨s, ?_, still, by rw [checkedRow, none]; exact there⟩
          have candidate : isProductAutoPartCandidate lib observedAt product s = .ok (product, known.candidate) s := by
            rw [isProductAutoPartCandidate_known classification]
            rfl
          rw [bind_of_ok candidate, checkedObject, none, Option.getD_some]
          exact answer_of_candidate product known.candidate s
        | none =>
          have made : classifies s.settings product = true := by simp [classifies, classification, refused, off, checks]
          obtain ⟨t, classified, wrote, own⟩ := @classify_spec lib _ _ _ _ _ observedAt there alive ready mem
          refine ⟨t, ?_, wrote, by rw [checkedRow, made]; exact own⟩
          have candidate : isProductAutoPartCandidate lib observedAt product s =
              .ok ({ product with catalogCategory := (classifyLocked lib s.settings row).1.catalogCategory },
                (classifyLocked lib s.settings row).2.candidate) t := by
            rw [isProductAutoPartCandidate_new classification, bind_of_ok classified]
            rfl
          rw [bind_of_ok candidate, checkedObject, made, Option.getD_none]
          exact answer_of_candidate _ (classifyLocked lib s.settings row).2.candidate t
      · have answer : eligibility lib s.settings product row = .eligible := by rw [eligibility, if_neg refused, if_neg off, if_neg checks]
        have none : classifies s.settings product = false := by simp [classifies, checks]
        refine ⟨s, ?_, still, ?_⟩
        · rw [if_neg checks, answer, checkedObject, none]
          rfl
        · rw [checkedRow, none]
          exact there

theorem eligibility_again (eligible : eligibility lib settings product product = .eligible)
    (allowed : settings.rootSupports (checkedObject lib settings product product) ≠ some false) :
    eligibility lib settings (checkedObject lib settings product product) (checkedRow lib settings product product) = .eligible := by
  by_cases made : classifies settings product = true
  · have object : checkedObject lib settings product product =
        { product with catalogCategory := (classifyLocked lib settings product).1.catalogCategory } := by rw [checkedObject, made]; rfl
    have row : checkedRow lib settings product product = (classifyLocked lib settings product).1 := by rw [checkedRow, made]; rfl
    simp only [classifies, Bool.and_eq_true, Option.isNone_iff_eq_none] at made
    obtain ⟨⟨⟨refused, on⟩, checks⟩, new⟩ := made
    have refused : ¬ settings.rootSupports product = some false := of_decide_eq_true refused
    have on : ¬ switchedOff settings product = true := by simpa using on
    have candidate : (classifyLocked lib settings product).2.candidate = true := by
      rw [eligibility, if_neg refused, if_neg on, if_pos checks, new, Option.getD_none] at eligible
      by_contra other
      rw [if_neg other] at eligible
      cases eligible
    rw [object] at allowed ⊢
    have still : ¬ switchedOff settings { product with catalogCategory := (classifyLocked lib settings product).1.catalogCategory } = true := by
      intro off
      obtain ⟨tenant, category⟩ := Bool.and_eq_true_iff.mp off
      rw [switchedOff, tenant, Bool.true_and] at on
      have supports : settings.productCatalogSupportsAutoParts product = true := by simpa using on
      cases there : product.catalogCategory with
      | none => simp [CatalogSettings.productCatalogSupportsAutoParts, CatalogSettings.rootSupports, there] at supports
      | some =>
        have kept : (classifyLocked lib settings product).1.catalogCategory = product.catalogCategory := by
          have same : (classifyLocked lib settings product).1.catalogCategory =
            (getProductTenantCategoryLocked lib settings product).1.catalogCategory := rfl
          rw [same, getProductTenantCategoryLocked_kept there]
        rw [kept] at category
        have equal : settings.productCatalogSupportsAutoParts { product with catalogCategory := product.catalogCategory } =
          settings.productCatalogSupportsAutoParts product := rfl
        rw [equal, supports] at category
        cases category
    rw [eligibility, if_neg allowed, if_neg still]
    split
    · have again : (({ product with catalogCategory := (classifyLocked lib settings product).1.catalogCategory } : PartProduct).classification.getD
          (classifyLocked lib settings (checkedRow lib settings product product)).2).candidate = true := by
        rw [new, Option.getD_none, row, classifyLocked_again new]
        exact candidate
      rw [if_pos again]
    · rfl
  · rw [checkedObject, checkedRow, if_neg made, if_neg made]
    exact eligible

end Answer

end MapBackend.Products.Enrichment
