import MapBackend.Products.BulkActions
import MapBackend.Products.PartEligibility

/-!
Bulk jobs over whole runs.
-/

namespace MapBackend.Products.Enrichment
open MapBackend.Library MapBackend.Core MapBackend.Marketplaces Program

/-! ## Tasks -/

section Tasks

variable {lib : CaseLibrary} {s t : PartStore} {ids : List ℕ} {times : ℕ} {product row : PartProduct} {observedAt : Instant}

structure Idle (s t : PartStore) : Prop where
  settings : t.settings = s.settings
  products : t.products = s.products
  feeds : t.feeds = s.feeds

theorem Idle.wrote (idle : Idle s t) (id : ℕ) (ready : FeedsReady s.settings ids times s.feeds) : Wrote ids times id s t where
  settings := idle.settings
  others other _ := by rw [idle.products]
  feeds := by
    rw [idle.settings, idle.feeds]
    exact ready

theorem enqueue_spec {taskName queue : Text} (known : durableTaskQueues.lookup taskName = some queue) (s : PartStore) (args : List ℕ)
    (key : Option Text) (availableAt : Instant) (attempts : ℕ) :
    ∃ row t, enqueueDurableTask taskName args key availableAt attempts s = .ok row t ∧ Idle s t := by
  unfold enqueueDurableTask
  rw [known]
  dsimp only
  rw [get_bind]
  cases existingDispatch s (key.filter fun key => !key.isEmpty) with
  | some row => exact ⟨row, s, rfl, rfl, rfl, rfl⟩
  | none => exact ⟨_, _, rfl, rfl, rfl, rfl⟩

theorem checkedObject_columns : (checkedObject lib s.settings product row).tenant = product.tenant ∧
    (checkedObject lib s.settings product row).brand = product.brand ∧ (checkedObject lib s.settings product row).article = product.article ∧
    (checkedObject lib s.settings product row).id = product.id ∧ (checkedObject lib s.settings product row).fitments = product.fitments := by
  unfold checkedObject
  split <;> exact ⟨rfl, rfl, rfl, rfl, rfl⟩

def Fits (lib : CaseLibrary) (sourceId : Text) (product : PartProduct) : Prop :=
  parseJobFits product.brand product.article (normalizeCrossCode lib product.article) sourceId = true

theorem createParseJob_ok {tenant : ℕ} {sourceId key : Text} (there : s.products.product? product.id = some row) (alive : row.deleted = false)
    (ready : FeedsReady s.settings ids (times + 1) s.feeds) (mem : product.id ∈ ids) (own : product.tenant = tenant)
    (eligible : eligibility lib s.settings product row = .eligible) (fits : Fits lib sourceId product) :
    ∃ job t, createParseJob lib observedAt tenant product sourceId key s = .ok job t ∧ Wrote ids times product.id s t := by
  obtain ⟨t, checked, wrote, -⟩ := @ensure_spec lib _ _ _ _ _ observedAt there alive ready mem
  rw [eligible] at checked
  have tenants : ¬ (checkedObject lib s.settings product row).tenant ≠ tenant := not_not.mpr (checkedObject_columns.1.trans own)
  have width : ¬ parseJobFits product.brand product.article (normalizeCrossCode lib product.article) sourceId = false := by
    rw [fits]
    decide
  obtain ⟨job, u, made, idle⟩ : ∃ job u, createParseJob lib observedAt tenant product sourceId key s = .ok job u ∧ Idle t u := by
    rw [createParseJob, bind_of_ok checked]
    dsimp only
    rw [if_neg tenants, if_neg width, get_bind]
    exact ⟨_, _, rfl, rfl, rfl, rfl⟩
  exact ⟨job, u, made, wrote.trans (idle.wrote _ wrote.feeds)⟩

theorem createParseJob_refused {tenant : ℕ} {sourceId key : Text} (there : s.products.product? product.id = some row) (alive : row.deleted = false)
    (ready : FeedsReady s.settings ids (times + 1) s.feeds) (mem : product.id ∈ ids)
    (other : eligibility lib s.settings product row = .notAutoPart) :
    ∃ t, createParseJob lib observedAt tenant product sourceId key s = .error .productIsNotAutoPart t ∧ Wrote ids times product.id s t := by
  obtain ⟨t, checked, wrote, -⟩ := @ensure_spec lib _ _ _ _ _ observedAt there alive ready mem
  rw [other] at checked
  exact ⟨t, bind_of_error checked _, wrote⟩

def EnrichClear (lib : CaseLibrary) (settings : CatalogSettings) (sourceId : Text) (product : PartProduct) : Prop :=
  eligibility lib settings product product ≠ .disabled ∧
    (eligibility lib settings product product = .eligible → Fits lib sourceId product)

def DescribeClear (lib : CaseLibrary) (settings : CatalogSettings) (sourceId : Text) (product : PartProduct) : Prop :=
  settings.canGenerateAi = true → product.article ≠ [] → hasTrustedFitments product = false →
    eligibility lib settings product product = .eligible →
      Fits lib sourceId product ∧ settings.rootSupports (checkedObject lib settings product product) ≠ some false

theorem enrichProduct_spec {job : ProductBulkActionJob} (there : s.products.product? product.id = some product) (alive : product.deleted = false)
    (ready : FeedsReady s.settings ids (times + 1) s.feeds) (mem : product.id ∈ ids) (own : product.tenant = job.tenant)
    (clear : EnrichClear lib s.settings job.sourceId product) :
    ∃ handling t, enrichProduct lib observedAt job product s = .ok handling t ∧ Wrote ids times product.id s t := by
  cases answer : eligibility lib s.settings product product with
  | disabled => exact absurd answer clear.1
  | notAutoPart =>
    obtain ⟨t, refused, wrote⟩ := @createParseJob_refused lib _ _ _ _ _ observedAt job.tenant job.sourceId
      (jobKey job ++ ":product:".toList ++ numberText product.id) there alive ready mem answer
    refine ⟨.skipped, t, ?_, wrote⟩
    rw [enrichProduct, bind_of_ok (attempt_error.mpr refused)]
    rfl
  | eligible =>
    obtain ⟨parseJob, t, made, wrote⟩ := @createParseJob_ok lib _ _ _ _ _ observedAt job.tenant job.sourceId
      (jobKey job ++ ":product:".toList ++ numberText product.id) there alive ready mem own answer (clear.2 answer)
    obtain ⟨queue, known⟩ : ∃ queue,
        durableTaskQueues.lookup (if job.action = .enrichThenGenerate then parseThenGenerate else parseSinglePart) = some queue := by
      split <;> exact ⟨_, rfl⟩
    obtain ⟨_, u, sent, idle⟩ := enqueue_spec known t [parseJob.pk] (some ("product-parse-job:".toList ++ numberText parseJob.pk)) observedAt 4
    refine ⟨.queued, u, ?_, wrote.trans (idle.wrote _ wrote.feeds)⟩
    rw [enrichProduct, bind_of_ok (attempt_ok.mpr made)]
    dsimp only
    rw [bind_of_ok sent]
    rfl

theorem shouldEnrichBeforeAi_spec (there : s.products.product? product.id = some product) (alive : product.deleted = false)
    (ready : FeedsReady s.settings ids (times + 1) s.feeds) (mem : product.id ∈ ids) :
    (∃ t, shouldEnrichBeforeAi lib observedAt product s = .ok (product, false) t ∧ Wrote ids times product.id s t) ∨
      ∃ t, shouldEnrichBeforeAi lib observedAt product s =
          .ok (checkedObject lib s.settings product product, !hasTrustedFitments product) t ∧ Wrote ids times product.id s t ∧
        product.article ≠ [] ∧ eligibility lib s.settings product product = .eligible ∧
        t.products.product? product.id = some (checkedRow lib s.settings product product) := by
  by_cases bare : product.article.isEmpty = true
  · refine .inl ⟨s, ?_, Wrote.refl product.id (ready.mono (Nat.le_succ times))⟩
    rw [shouldEnrichBeforeAi, if_pos bare]
    rfl
  · obtain ⟨t, checked, wrote, row⟩ := @ensure_spec lib _ _ _ _ _ observedAt there alive ready mem
    cases answer : eligibility lib s.settings product product with
    | disabled =>
      rw [answer] at checked
      refine .inl ⟨t, ?_, wrote⟩
      rw [shouldEnrichBeforeAi, if_neg bare, bind_of_ok (attempt_error.mpr checked)]
      rfl
    | notAutoPart =>
      rw [answer] at checked
      refine .inl ⟨t, ?_, wrote⟩
      rw [shouldEnrichBeforeAi, if_neg bare, bind_of_ok (attempt_error.mpr checked)]
      rfl
    | eligible =>
      rw [answer] at checked
      have fitments : hasTrustedFitments (checkedObject lib s.settings product product) = hasTrustedFitments product := by
        rw [hasTrustedFitments, hasTrustedFitments, checkedObject_columns.2.2.2.2]
      refine .inr ⟨t, ?_, wrote, fun none => bare (by rw [none]; rfl), rfl, row⟩
      rw [shouldEnrichBeforeAi, if_neg bare, bind_of_ok (attempt_ok.mpr checked), ← fitments]
      rfl

theorem scheduleAiGeneration_spec {tenant : ℕ} {sourceId key : Text} (there : s.products.product? product.id = some product)
    (alive : product.deleted = false) (ready : FeedsReady s.settings ids (times + 2) s.feeds) (mem : product.id ∈ ids)
    (own : product.tenant = tenant) (clear : DescribeClear lib s.settings sourceId product) :
    ∃ t, Wrote ids times product.id s t ∧ ((∃ row, scheduleAiGeneration lib observedAt tenant product sourceId key s = .ok row t) ∨
      scheduleAiGeneration lib observedAt tenant product sourceId key s = .error .quotaExceeded t) := by
  unfold scheduleAiGeneration
  rw [get_bind]
  by_cases quota : s.settings.canGenerateAi = false
  · refine ⟨s, Wrote.refl product.id (ready.mono (Nat.le_add_right times 2)), .inr ?_⟩
    rw [if_pos quota]
    rfl
  · rw [if_neg quota]
    have generated (u : PartStore) (wrote : Wrote ids (times + 1) product.id s u) (taskName : Text) (known : ∃ queue, durableTaskQueues.lookup taskName = some queue)
        (args : List ℕ) : ∃ t, Wrote ids times product.id s t ∧
          ∃ row, enqueueDurableTask taskName args (some key) observedAt 4 u = .ok row t := by
      obtain ⟨queue, known⟩ := known
      obtain ⟨row, t, sent, idle⟩ := enqueue_spec known u args (some key) observedAt 4
      exact ⟨t, wrote.trans (idle.wrote _ (wrote.feeds.mono (Nat.le_succ times))), row, sent⟩
    rcases @shouldEnrichBeforeAi_spec lib _ _ (times + 1) _ observedAt there alive ready mem with
      ⟨u, told, wrote⟩ | ⟨u, told, wrote, written, eligible, row⟩
    · obtain ⟨t, kept, dispatch, sent⟩ := generated u wrote generateDescriptionTask ⟨_, rfl⟩ [product.id]
      refine ⟨t, kept, .inl ⟨dispatch, ?_⟩⟩
      rw [bind_of_ok told]
      exact sent
    · cases trusted : hasTrustedFitments product with
      | true =>
        rw [trusted] at told
        obtain ⟨t, kept, dispatch, sent⟩ := generated u wrote generateDescriptionTask ⟨_, rfl⟩ [(checkedObject lib s.settings product product).id]
        refine ⟨t, kept, .inl ⟨dispatch, ?_⟩⟩
        rw [bind_of_ok told]
        exact sent
      | false =>
        rw [trusted] at told
        obtain ⟨fits, allowed⟩ := clear (by simpa using quota) written trusted eligible
        obtain ⟨tenants, brand, article, same, -⟩ := @checkedObject_columns lib s product product
        have again : eligibility lib u.settings (checkedObject lib s.settings product product) (checkedRow lib s.settings product product) = .eligible := by
          rw [wrote.settings]
          exact eligibility_again eligible allowed
        have rowAlive : (checkedRow lib s.settings product product).deleted = false := by
          unfold checkedRow
          split
          · obtain ⟨_, saved⟩ := getProductTenantCategoryLocked_saved lib s.settings product
            have equal : (classifyLocked lib s.settings product).1.deleted = (getProductTenantCategoryLocked lib s.settings product).1.deleted := rfl
            rw [equal, saved]
            exact alive
          · exact alive
        have wide : Fits lib sourceId (checkedObject lib s.settings product product) := by
          rw [Fits, brand, article]
          exact fits
        obtain ⟨parseJob, v, made, more⟩ := @createParseJob_ok lib u ids times (checkedObject lib s.settings product product) _
          observedAt tenant sourceId key (same.symm ▸ row) rowAlive wrote.feeds (same.symm ▸ mem) (tenants.trans own) again wide
        obtain ⟨queue, known⟩ : ∃ queue, durableTaskQueues.lookup parseThenGenerate = some queue := ⟨_, rfl⟩
        obtain ⟨dispatch, t, sent, idle⟩ := enqueue_spec known v [parseJob.pk] (some key) observedAt 4
        rw [same] at more
        refine ⟨t, (wrote.trans more).trans (idle.wrote _ more.feeds), .inl ⟨dispatch, ?_⟩⟩
        rw [bind_of_ok told]
        exact (bind_of_ok made _).trans sent

theorem describeProduct_spec {job : ProductBulkActionJob} (there : s.products.product? product.id = some product) (alive : product.deleted = false)
    (ready : FeedsReady s.settings ids (times + 2) s.feeds) (mem : product.id ∈ ids) (own : product.tenant = job.tenant)
    (clear : DescribeClear lib s.settings job.sourceId product) :
    ∃ handling t, describeProduct lib observedAt job product s = .ok handling t ∧ Wrote ids times product.id s t := by
  obtain ⟨t, wrote, ⟨_, made⟩ | refused⟩ := @scheduleAiGeneration_spec lib _ _ _ _ observedAt job.tenant job.sourceId
    (jobKey job ++ ":ai-description:".toList ++ numberText product.id) there alive ready mem own clear
  · refine ⟨.queued, t, ?_, wrote⟩
    rw [describeProduct, bind_of_ok (attempt_ok.mpr made)]
    rfl
  · refine ⟨.skipped, t, ?_, wrote⟩
    rw [describeProduct, bind_of_ok (attempt_error.mpr refused)]
    rfl

theorem createImageSearchTask_spec (tenant : ℕ) (product : PartProduct) (s : PartStore) :
    ∃ task t, createImageSearchTask observedAt tenant product s = .ok task t ∧ Idle s t := by
  obtain ⟨queue, known⟩ : ∃ queue, durableTaskQueues.lookup searchImagesForProduct = some queue := ⟨_, rfl⟩
  obtain ⟨_, u, sent, idle⟩ := enqueue_spec known { s with nextPk := s.nextPk + 1 } [product.id, s.nextPk]
    (some ("image-search-request:".toList ++ numberText s.nextPk)) observedAt 5
  rw [createImageSearchTask, get_bind]
  dsimp only
  rw [set_bind, bind_of_ok sent]
  exact ⟨_, _, rfl, idle.settings, idle.products, idle.feeds⟩

end Tasks

/-! ## Batches -/

/-- A batch finds what it expects: the feeds can be moved, the parser is not switched off for a product that asks for it, and
the parse jobs can be written. -/
structure BatchClear (lib : CaseLibrary) (s : BulkStore) : Prop where
  feeds : s.job.action ≠ .findImages →
    FeedsReady s.parts.settings s.job.batchIds (2 * s.job.batchIds.length) s.parts.feeds
  enriches : s.job.action.enriches = true → ∀ product ∈ tenantProducts s.parts s.job.tenant s.job.batchIds,
    EnrichClear lib s.parts.settings s.job.sourceId product
  describes : s.job.action = .generateDescriptions → ∀ product ∈ tenantProducts s.parts s.job.tenant s.job.batchIds,
    DescribeClear lib s.parts.settings s.job.sourceId product

section Batches

variable {lib : CaseLibrary} {observedAt : Instant}

structure BatchRest (job : ProductBulkActionJob) (ids : List ℕ) (start : PartStore) (rest : List ℕ) (s : PartStore) : Prop where
  settings : s.settings = start.settings
  products : ∀ id ∈ rest, s.products.product? id = start.products.product? id
  feeds : job.action ≠ .findImages → FeedsReady start.settings ids (2 * rest.length) s.feeds
  inside : rest ⊆ ids
  distinct : rest.Nodup

theorem ProductTable.product?_of_mem {table : ProductTable} {row : PartProduct} (mem : row ∈ table.rows) : table.product? row.id = some row := by
  cases found : table.product? row.id with
  | none => exact absurd (beq_self_eq_true row.id) (List.find?_eq_none.mp found row mem)
  | some other =>
    have there : other ∈ table.rows := List.mem_of_find?_eq_some found
    exact congrArg some (row_unique table.keys there mem (ProductTable.id_of_product? found))

theorem found_product {start : PartStore} {tenant id : ℕ} {ids : List ℕ} {product : PartProduct}
    (found : (tenantProducts start tenant ids).find? (fun product => product.id == id) = some product) :
    product ∈ tenantProducts start tenant ids ∧ product.id = id ∧ start.products.product? product.id = some product ∧
      product.tenant = tenant ∧ product.deleted = false := by
  have mem := List.mem_of_find?_eq_some found
  obtain ⟨there, holds⟩ := List.mem_filter.mp mem
  simp only [Bool.and_eq_true, beq_iff_eq, Bool.not_eq_true'] at holds
  exact ⟨mem, by simpa using List.find?_some found, ProductTable.product?_of_mem there, holds.1.1, holds.2⟩

theorem BatchRest.step {job : ProductBulkActionJob} {ids rest : List ℕ} {start s t : PartStore} {id : ℕ}
    (before : BatchRest job ids start (id :: rest) s) (settings : t.settings = s.settings)
    (others : ∀ other ≠ id, t.products.product? other = s.products.product? other)
    (feeds : job.action ≠ .findImages → FeedsReady start.settings ids (2 * rest.length) t.feeds) : BatchRest job ids start rest t where
  settings := settings.trans before.settings
  products other mem := by
    have apart : other ≠ id := by
      rintro rfl
      exact (List.nodup_cons.mp before.distinct).1 mem
    rw [others other apart, before.products other (List.mem_cons_of_mem _ mem)]
  feeds := feeds
  inside other mem := before.inside (List.mem_cons_of_mem _ mem)
  distinct := (List.nodup_cons.mp before.distinct).2

theorem handleProduct_spec {job : ProductBulkActionJob} {start : PartStore} (clear : BatchClear lib ⟨job, start⟩) {id : ℕ} {rest : List ℕ}
    {s : PartStore} (before : BatchRest job job.batchIds start (id :: rest) s) :
    ∃ handling t, handleProduct lib observedAt job (tenantProducts start job.tenant job.batchIds) id s = .ok handling t ∧
      BatchRest job job.batchIds start rest t := by
  have room : 2 * (id :: rest).length = 2 * rest.length + 2 := by rw [List.length_cons, Nat.mul_add]
  have still : ∀ handling, ∃ handling' t, (pure handling : PartM Handling) s = .ok handling' t ∧ BatchRest job job.batchIds start rest t :=
    fun handling => ⟨handling, s, rfl, before.step rfl (fun _ _ => rfl) fun other => (before.feeds other).mono (by omega)⟩
  cases found : (tenantProducts start job.tenant job.batchIds).find? (fun product => product.id == id) with
  | none =>
    rw [handleProduct, found]
    exact still .skipped
  | some product =>
    obtain ⟨mem, rfl, there, own, alive⟩ := found_product found
    have inside : product.id ∈ job.batchIds := before.inside List.mem_cons_self
    have now : s.products.product? product.id = some product := (before.products product.id List.mem_cons_self).trans there
    have ready (other : job.action ≠ .findImages) : FeedsReady s.settings job.batchIds (2 * rest.length + 2) s.feeds := by
      rw [before.settings, ← room]
      exact before.feeds other
    have after {t : PartStore} (wrote : Wrote job.batchIds (2 * rest.length) product.id s t) : BatchRest job job.batchIds start rest t :=
      before.step wrote.settings wrote.others fun _ => by
        rw [← before.settings, ← wrote.settings]
        exact wrote.feeds
    have enriched (is : job.action.enriches = true) (other : job.action ≠ .findImages) :
        ∃ handling t, enrichProduct lib observedAt job product s = .ok handling t ∧ BatchRest job job.batchIds start rest t := by
      have allowed : EnrichClear lib s.settings job.sourceId product := before.settings ▸ clear.enriches is product mem
      obtain ⟨handling, t, done, wrote⟩ := @enrichProduct_spec lib _ _ _ _ observedAt job now alive ((ready other).mono (Nat.le_succ _)) inside own allowed
      exact ⟨handling, t, done, after wrote⟩
    rw [handleProduct, found]
    dsimp only
    cases action : job.action with
    | enrichSelected => exact enriched (by rw [action]; rfl) (by rw [action]; decide)
    | enrichMissingData => exact enriched (by rw [action]; rfl) (by rw [action]; decide)
    | enrichThenGenerate => exact enriched (by rw [action]; rfl) (by rw [action]; decide)
    | generateDescriptions =>
      have allowed : DescribeClear lib s.settings job.sourceId product := before.settings ▸ clear.describes action product mem
      obtain ⟨handling, t, done, wrote⟩ := @describeProduct_spec lib _ _ _ _ observedAt job now alive (ready (by rw [action]; decide)) inside own allowed
      exact ⟨handling, t, done, after wrote⟩
    | classifyCatalogDomain =>
      obtain ⟨t, done, wrote, -⟩ := @classify_spec lib _ _ _ _ _ observedAt now alive ((ready (by rw [action]; decide)).mono (Nat.le_succ _)) inside
      refine ⟨.queued, t, ?_, after wrote⟩
      dsimp only
      rw [bind_of_ok done]
      rfl
    | findImages =>
      obtain ⟨_, t, done, idle⟩ := @createImageSearchTask_spec observedAt job.tenant product s
      refine ⟨.queued, t, ?_, before.step idle.settings (fun other _ => by rw [idle.products]) fun other => absurd action other⟩
      dsimp only
      rw [bind_of_ok done]
      rfl
    | other => exact still .skipped

theorem runBatch_ok {s : BulkStore} (clear : BatchClear lib s) (distinct : s.job.batchIds.Nodup) (clock : BatchClock) :
    ∃ job handled t, runBatch lib clock s.job s.job.batchIds s.parts = .ok (job, handled) t := by
  have start : BatchRest s.job s.job.batchIds s.parts s.job.batchIds s.parts := ⟨rfl, fun _ _ => rfl, clear.feeds, fun _ mem => mem, distinct⟩
  obtain ⟨handled, t, done, -⟩ := @mapM_returns PartError PartStore ℕ Handling
    (handleProduct lib clock.current s.job (tenantProducts s.parts s.job.tenant s.job.batchIds)) (BatchRest s.job s.job.batchIds s.parts)
    (fun _ _ _ before => handleProduct_spec clear before) s.job.batchIds s.parts start
  rw [runBatch, get_bind, bind_of_ok done]
  dsimp only
  by_cases more : (countBatch clock s.job handled).status = .coolingDown
  · obtain ⟨queue, known⟩ : ∃ queue, durableTaskQueues.lookup processBulkProductAction = some queue := ⟨_, rfl⟩
    obtain ⟨_, u, sent, -⟩ := enqueue_spec known t [s.job.pk] (some (offsetKey (countBatch clock s.job handled)))
      ((countBatch clock s.job handled).nextBatchAt.getD clock.current) 4
    rw [if_pos more, bind_of_ok sent]
    exact ⟨_, _, _, rfl⟩
  · rw [if_neg more]
    exact ⟨_, _, _, rfl⟩

end Batches

/-! ## New jobs -/

section Creation

variable {lib : CaseLibrary} {observedAt : Instant} {s t : PartStore} {job : ProductBulkActionJob}

structure Fresh (job : ProductBulkActionJob) : Prop where
  distinct : job.productIds.Nodup
  total : job.totalCount = job.productIds.length
  queued : job.queuedCount = 0
  processed : job.processedCount = 0
  size : 0 < job.batchSize
  status : job.status = .pending

theorem selectedProducts_sublist {action : BulkActionName} {products selected : List PartProduct}
    (h : selectedProducts lib observedAt action products s = .ok selected t) : selected.Sublist products := by
  unfold selectedProducts at h
  split at h
  · obtain ⟨verdicts, m, each, last⟩ := Program.bind_ok.mp h
    obtain ⟨rfl, -⟩ := pure_ok.mp last
    have zipped : (products.zip verdicts).map Prod.fst = products := List.map_fst_zip (Nat.le_of_eq (length_of_mapM each).symm)
    calc (((products.zip verdicts).filter Prod.snd).map Prod.fst).Sublist ((products.zip verdicts).map Prod.fst) := List.filter_sublist.map _
      _ = products := zipped
  · obtain ⟨rfl, -⟩ := pure_ok.mp h
    exact List.Sublist.refl _

theorem createJob_fresh {maxProductIds : ℕ} {request : BulkRequest}
    (created : createJob lib maxProductIds observedAt none request s = .ok job t) : Fresh job := by
  unfold createJob at created
  split at created
  · cases created
  · split at created
    · cases created
    · obtain ⟨-, m, -, created⟩ := Program.bind_ok.mp created
      cases policy : getPartSourcePolicy request.sourceId with
      | none =>
        rw [policy] at created
        cases created
      | some =>
        rw [policy] at created
        dsimp only at created
        rw [get_bind] at created
        obtain ⟨products, u, selected, last⟩ := Program.bind_ok.mp created
        have distinct : (products.map PartProduct.id).Nodup := by
          have below := (selectedProducts_sublist selected).map PartProduct.id
          have sorted := ((tenantProducts m m.settings.tenant.id request.productIds).perm_insertionSort fun a b => a.id ≤ b.id).map PartProduct.id
          have filtered : ((tenantProducts m m.settings.tenant.id request.productIds).map PartProduct.id).Nodup :=
            m.products.keys.sublist (List.filter_sublist.map _)
          exact (sorted.nodup_iff.mpr filtered).sublist below
        obtain ⟨rfl, -⟩ := pure_ok.mp last
        exact ⟨distinct, (List.length_map _).symm, rfl, rfl, by simp [newJob], rfl⟩

end Creation

/-! ## Accounts of a run -/

section Accounts

variable {lib : CaseLibrary} {clock : BatchClock} {s u : BulkStore} {made : ProductBulkActionJob} {run : BulkRun}

theorem runBatch_counts {ids : List ℕ} {job : ProductBulkActionJob} {handled : List Handling} {parts t : PartStore}
    (h : runBatch lib clock s.job ids parts = .ok (job, handled) t) : job = countBatch clock s.job handled ∧ handled.length = ids.length := by
  rw [runBatch, get_bind] at h
  obtain ⟨_, m, first, last⟩ := Program.bind_ok.mp h
  have length := length_of_mapM first
  dsimp only at last
  split at last
  · obtain ⟨_, v, -, last⟩ := Program.bind_ok.mp last
    obtain ⟨same, -⟩ := pure_ok.mp last
    obtain ⟨rfl, rfl⟩ := Prod.mk.inj same
    exact ⟨rfl, length⟩
  · obtain ⟨same, -⟩ := pure_ok.mp last
    obtain ⟨rfl, rfl⟩ := Prod.mk.inj same
    exact ⟨rfl, length⟩

theorem processNextBatch_cases {handled : List (ℕ × Handling)} (done : processNextBatch lib clock s = .ok (u, handled)) :
    (u = s ∧ handled = []) ∨ (s.job.batchIds = [] ∧ u.job = s.job.close clock.finished ∧ handled = []) ∨
      ∃ each : List Handling, s.job.batchIds ≠ [] ∧ each.length = s.job.batchIds.length ∧ u.job = countBatch clock s.job each ∧
        handled = s.job.batchIds.zip each := by
  unfold processNextBatch at done
  split at done
  · cases done
    exact .inl ⟨rfl, rfl⟩
  · split at done
    · next none =>
      cases done
      exact .inr (.inl ⟨List.isEmpty_iff.mp none, rfl, rfl⟩)
    · next more =>
      split at done
      · next job each parts ran =>
        cases done
        obtain ⟨counted, length⟩ := runBatch_counts ran
        exact .inr (.inr ⟨each, fun none => more (List.isEmpty_iff.mpr none), length, counted, rfl⟩)
      · cases done

structure Accounted (made : ProductBulkActionJob) (run : BulkRun) : Prop where
  products : run.store.job.productIds = made.productIds
  total : run.store.job.totalCount = made.productIds.length
  size : 0 < run.store.job.batchSize
  order : run.handled.map Prod.fst = made.productIds.take run.store.job.processedCount
  processed : run.handled.length = run.store.job.processedCount
  queued : run.store.job.queuedCount = (run.handled.map Prod.snd).count .queued
  skipped : run.store.job.skippedCount = made.skippedCount + (run.handled.map Prod.snd).count .skipped
  finished : run.store.job.status = .success → run.store.job.processedCount = run.store.job.totalCount

theorem Fresh.accounted (fresh : Fresh made) (parts : PartStore) : Accounted made ⟨⟨made, parts⟩, []⟩ where
  products := rfl
  total := fresh.total
  size := fresh.size
  order := by rw [fresh.processed]; rfl
  processed := fresh.processed.symm
  queued := fresh.queued
  skipped := rfl
  finished success := by
    have pending : made.status = .success := success
    rw [fresh.status] at pending
    cases pending

theorem Accounted.processed_le (accounted : Accounted made run) : run.store.job.processedCount ≤ run.store.job.totalCount := by
  have length := congrArg List.length accounted.order
  rw [List.length_map, accounted.processed, List.length_take] at length
  rw [accounted.total]
  omega

theorem count_handlings (each : List Handling) : each.count .queued + each.count .skipped = each.length := by
  induction each with
  | nil => rfl
  | cons first => cases first <;> simp <;> omega

theorem Accounted.batch (accounted : Accounted made run) {each : List Handling} (length : each.length = run.store.job.batchIds.length)
    (counted : u.job = countBatch clock run.store.job each) :
    Accounted made ⟨u, run.handled ++ run.store.job.batchIds.zip each⟩ := by
  have firsts : (run.store.job.batchIds.zip each).map Prod.fst = run.store.job.batchIds := List.map_fst_zip (Nat.le_of_eq length.symm)
  have seconds : (run.store.job.batchIds.zip each).map Prod.snd = each := List.map_snd_zip (Nat.le_of_eq length)
  have order : (run.handled ++ run.store.job.batchIds.zip each).map Prod.fst =
      made.productIds.take (run.store.job.processedCount + each.length) := by
    have batch : run.store.job.batchIds = (made.productIds.drop run.store.job.processedCount).take each.length := by
      rw [length, ProductBulkActionJob.batchIds, accounted.products, List.length_take]
      apply List.take_eq_take_iff.mpr
      omega
    rw [List.map_append, accounted.order, firsts, List.take_add, ← batch]
  have processed : (run.handled ++ run.store.job.batchIds.zip each).length = run.store.job.processedCount + each.length := by
    rw [List.length_append, accounted.processed, List.length_zip, ← length, Nat.min_self]
  have most : run.store.job.processedCount + each.length ≤ run.store.job.totalCount := by
    have same := congrArg List.length order
    rw [List.length_map, processed, List.length_take] at same
    rw [accounted.total]
    omega
  constructor
  · exact (congrArg ProductBulkActionJob.productIds counted).trans accounted.products
  · exact (congrArg ProductBulkActionJob.totalCount counted).trans accounted.total
  · exact (congrArg ProductBulkActionJob.batchSize counted) ▸ accounted.size
  · rw [counted]
    exact order
  · rw [counted]
    exact processed
  · rw [counted, List.map_append, seconds, List.count_append, ← accounted.queued]
    rfl
  · rw [counted, List.map_append, seconds, List.count_append, ← Nat.add_assoc, ← accounted.skipped]
    rfl
  · rw [counted]
    intro success
    have reached : run.store.job.totalCount ≤ run.store.job.processedCount + each.length := by
      by_contra less
      have cooling : (countBatch clock run.store.job each).status = .coolingDown := by
        simp only [countBatch]
        rw [if_neg (by simpa using less)]
      rw [cooling] at success
      cases success
    exact le_antisymm most reached

theorem Accounted.step (accounted : Accounted made run) (step : BulkStep) : Accounted made (run.next lib step) := by
  cases step with
  | change => exact ⟨accounted.1, accounted.2, accounted.3, accounted.4, accounted.5, accounted.6, accounted.7, accounted.8⟩
  | mark status =>
    exact ⟨accounted.1, accounted.2, accounted.3, accounted.4, accounted.5, accounted.6, accounted.7, fun success => absurd success status.property⟩
  | call =>
    unfold BulkRun.next
    dsimp only
    split
    · next u handled done =>
      rcases processNextBatch_cases done with ⟨rfl, rfl⟩ | ⟨none, closed, rfl⟩ | ⟨_, -, length, counted, rfl⟩
      · rw [List.append_nil]
        exact accounted
      · have most := accounted.processed_le
        rw [List.append_nil]
        refine ⟨?_, ?_, ?_, ?_, ?_, ?_, ?_, fun _ => ?_⟩
        all_goals rw [closed]
        · exact accounted.products
        · exact accounted.total
        · exact accounted.size
        · exact accounted.order
        · exact accounted.processed
        · exact accounted.queued
        · exact accounted.skipped
        · change run.store.job.processedCount = run.store.job.totalCount
          rw [ProductBulkActionJob.batchIds, List.take_eq_nil_iff] at none
          have ended := none.resolve_left (Nat.ne_of_gt accounted.size)
          rw [List.drop_eq_nil_iff, accounted.products, ← accounted.total] at ended
          exact le_antisymm most ended
      · exact accounted.batch length counted
    · exact accounted

/-- Every product is handled at most once, and when the job is finished every one was handled. -/
structure HandledOnce (made : ProductBulkActionJob) (run : BulkRun) : Prop where
  once : ∀ id, (run.handled.map Prod.fst).count id ≤ 1
  only : ∀ entry ∈ run.handled, entry.1 ∈ made.productIds
  all : run.store.job.status = .success → ∀ id ∈ made.productIds, (run.handled.map Prod.fst).count id = 1
  processed : run.store.job.status = .success → run.store.job.processedCount = run.store.job.totalCount
  counted : run.store.job.status = .success → run.store.job.queuedCount + run.store.job.skippedCount =
    run.store.job.totalCount + made.skippedCount

theorem Accounted.handledOnce (accounted : Accounted made run) (distinct : made.productIds.Nodup) : HandledOnce made run := by
  have nodup : (run.handled.map Prod.fst).Nodup := accounted.order ▸ distinct.sublist (List.take_sublist _ _)
  have whole (success : run.store.job.status = .success) : run.handled.map Prod.fst = made.productIds := by
    rw [accounted.order, accounted.finished success, accounted.total, List.take_length]
  refine ⟨fun id => List.nodup_iff_count_le_one.mp nodup id, fun entry mem => ?_, fun success id mem => ?_, accounted.finished, fun success => ?_⟩
  · have there : entry.1 ∈ run.handled.map Prod.fst := List.mem_map_of_mem mem
    rw [accounted.order] at there
    exact List.mem_of_mem_take there
  · rw [whole success]
    exact List.count_eq_one_of_mem distinct mem
  · have counts := count_handlings (run.handled.map Prod.snd)
    rw [List.length_map, accounted.processed, accounted.finished success] at counts
    rw [accounted.queued, accounted.skipped]
    omega

def Due (s : BulkStore) (current : Instant) : Prop := s.job.status.stopped = false ∧ s.job.cooling current = false

def Progresses (lib : CaseLibrary) (clock : BatchClock) (s : BulkStore) : Prop :=
  ∃ u handled, processNextBatch lib clock s = .ok (u, handled) ∧ (u.job.status = .success ∨ s.job.processedCount < u.job.processedCount)

theorem progresses (due : Due s clock.current) (clear : BatchClear lib s) (distinct : s.job.batchIds.Nodup) : Progresses lib clock s := by
  have going : ¬ (s.job.status.stopped || s.job.cooling clock.current) = true := by simp [due.1, due.2]
  unfold Progresses processNextBatch
  rw [if_neg going]
  by_cases none : s.job.batchIds.isEmpty = true
  · rw [if_pos none]
    exact ⟨_, _, rfl, .inl rfl⟩
  · rw [if_neg none]
    obtain ⟨_, each, t, ran⟩ := runBatch_ok clear distinct clock
    obtain ⟨rfl, _⟩ := runBatch_counts ran
    refine ⟨⟨countBatch clock s.job each, t⟩, _, by rw [ran], .inr ?_⟩
    have some : 0 < s.job.batchIds.length := List.length_pos_iff.mpr fun empty => none (List.isEmpty_iff.mpr empty)
    change s.job.processedCount < s.job.processedCount + each.length
    omega

end Accounts

def runOf (lib : CaseLibrary) (job : ProductBulkActionJob) (parts : PartStore) (steps : List BulkStep) : BulkRun :=
  run (BulkRun.next lib) ⟨⟨job, parts⟩, []⟩ steps

def plainCase : CaseLibrary := ⟨⟨id, fun _ => true⟩, fun c => [c]⟩

def filterProduct : PartProduct where
  tenant := 1
  name := "Фильтр".toList
  category1c := []
  description1c := []
  brand := "KYB".toList
  catalogCategory := none
  id := 7
  deleted := false
  article := "A1".toList
  catalogCategoryManuallyCleared := false
  classification := none
  fitments := []

theorem one_product : ([filterProduct].map PartProduct.id).Nodup := List.nodup_singleton 7

def shopOf (catalogDomain : Text) : PartStore where
  settings := ⟨⟨1, catalogDomain⟩, [], [], [], [], [], false, true⟩
  products := ⟨[filterProduct], one_product⟩
  feeds := ⟨[], [], 1, 1, []⟩
  parseJobs := []
  dispatches := []
  imageTasks := []
  nextPk := 1

def enrichRequest : BulkRequest := ⟨.enrichSelected, [7], defaultPartSource, 20, some 60, none, []⟩

def enrichJob : ProductBulkActionJob where
  pk := 1
  tenant := 1
  idempotencyKey := none
  requestFingerprint := []
  action := .enrichSelected
  sourceId := defaultPartSource
  productIds := [7]
  status := .pending
  totalCount := 1
  queuedCount := 0
  processedCount := 0
  successCount := 0
  skippedCount := 0
  batchSize := 20
  pauseSeconds := 60
  nextBatchAt := none
  lastDispatchedAt := none
  startedAt := none
  finishedAt := none

theorem enrichJob_created : createJob plainCase 500 0 none enrichRequest (shopOf autoParts) =
    .ok enrichJob { shopOf autoParts with nextPk := 2 } := rfl

end MapBackend.Products.Enrichment
