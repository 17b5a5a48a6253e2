import MapBackend.Products.CatalogDomains
import MapBackend.WebResearch.SearchContext

/-!
Bulk actions on products: a job with the products that it was created for, worked off in batches that take a pause
between them.
-/

namespace MapBackend.Products.Enrichment
open MapBackend.Library MapBackend.Core MapBackend.Marketplaces Program

/-! ## The outbox -/

def numberText (n : ℕ) : Text := Nat.toDigits 10 n

def parseSinglePart : Text := "apps.products.tasks.parse_single_part".toList

def parseThenGenerate : Text := "apps.products.tasks.parse_single_part_then_generate_description".toList

def processBulkProductAction : Text := "apps.products.tasks.process_bulk_product_action".toList

def generateDescriptionTask : Text := "apps.ai_agent.tasks.generate_description_task".toList

def searchImagesForProduct : Text := "apps.image_search.tasks.search_images_for_product".toList

def durableTaskQueues : List (Text × Text) :=
  [(parseSinglePart, "part_parsing".toList), (parseThenGenerate, "part_parsing".toList),
    (processBulkProductAction, "part_parsing_bulk".toList), (generateDescriptionTask, "ai_generate".toList),
    (searchImagesForProduct, "image_search".toList)]

def existingDispatch (s : PartStore) (key : Option Text) : Option Dispatch :=
  key.bind fun key => s.dispatches.find? fun row => row.deduplicationKey == some key

/-- `enqueue_durable_task`: a row with the same key is the answer, and stays as it is. An empty key is none. -/
def enqueueDurableTask (taskName : Text) (args : List ℕ) (deduplicationKey : Option Text) (availableAt : Instant) (maxRunAttempts : ℕ) :
    PartM Dispatch := do
  match durableTaskQueues.lookup taskName with
  | none => throw .unknownTask
  | some queue =>
    let s ← get
    let key := deduplicationKey.filter fun key => !key.isEmpty
    match existingDispatch s key with
    | some row => return row
    | none =>
      let row : Dispatch := ⟨s.nextPk, taskName, queue, args, key, availableAt, max 1 (min maxRunAttempts 25), 3700⟩
      set { s with dispatches := s.dispatches ++ [row], nextPk := s.nextPk + 1 }
      return row

/-! ## Tasks for a product -/

section Tasks

variable (lib : CaseLibrary) (observedAt : Instant)

def normalizeCrossCode (code : Text) : Text := (code.flatMap lib.upper).filter WebResearch.isCodeChar

def parseJobFits (brand article normalizedArticle sourceId : Text) : Bool :=
  decide (brand.length ≤ 100) && decide (article.length ≤ 100) && decide (normalizedArticle.length ≤ 100) && decide (sourceId.length ≤ 50)

def createParseJob (tenant : ℕ) (product : PartProduct) (sourceId fallbackOriginKey : Text) : PartM ProductParseJob := do
  let checked ← ensureProductAutoPartsEligible lib observedAt product
  let normalizedArticle := normalizeCrossCode lib product.article
  if checked.tenant ≠ tenant then throw .tenantMismatch
  else if parseJobFits product.brand product.article normalizedArticle sourceId = false then throw .dataError
  else
    let s ← get
    let job : ProductParseJob :=
      ⟨s.nextPk, tenant, product.id, product.brand, product.article, normalizedArticle, sourceId, fallbackOriginKey.take 200⟩
    set { s with parseJobs := s.parseJobs ++ [job], nextPk := s.nextPk + 1 }
    return job

def hasTrustedFitments (product : PartProduct) : Bool := product.fitments.any VehicleFitment.accepted

/-- `should_enrich_before_ai`, with the object as it leaves it. -/
def shouldEnrichBeforeAi (product : PartProduct) : PartM (PartProduct × Bool) := do
  if product.article.isEmpty then return (product, false)
  else
    match ← attempt (ensureProductAutoPartsEligible lib observedAt product) with
    | .ok product => return (product, !hasTrustedFitments product)
    | .error .autoPartsEnrichmentDisabled => return (product, false)
    | .error .productIsNotAutoPart => return (product, false)
    | .error e => throw e

def scheduleAiGeneration (tenant : ℕ) (product : PartProduct) (sourceId deduplicationKey : Text) : PartM Dispatch := do
  if (← get).settings.canGenerateAi = false then throw .quotaExceeded
  else
    let (product, enrich) ← shouldEnrichBeforeAi lib observedAt product
    if enrich then
      let job ← createParseJob lib observedAt tenant product sourceId deduplicationKey
      enqueueDurableTask parseThenGenerate [job.pk] (some deduplicationKey) observedAt 4
    else enqueueDurableTask generateDescriptionTask [product.id] (some deduplicationKey) observedAt 4

/-- `create_image_search_task`; the text of a new UUID is the one of the next primary key. -/
def createImageSearchTask (tenant : ℕ) (product : PartProduct) : PartM ImageSearchTask := do
  let s ← get
  let tracking : ImageSearchTask := ⟨s.nextPk, tenant, product.id, numberText s.nextPk, none⟩
  set { s with nextPk := s.nextPk + 1 }
  let dispatch ← enqueueDurableTask searchImagesForProduct [product.id, tracking.pk]
    (some ("image-search-request:".toList ++ tracking.taskId)) observedAt 5
  let saved := { tracking with dispatch := some dispatch.pk }
  modify fun s => { s with imageTasks := s.imageTasks ++ [saved] }
  return saved

end Tasks

/-! ## Jobs -/

inductive BulkActionName where
  | enrichSelected | enrichMissingData | generateDescriptions | enrichThenGenerate | classifyCatalogDomain | findImages
  | other (name : Text)
  deriving DecidableEq

namespace BulkActionName

def allowed : BulkActionName → Bool
  | .other _ => false
  | _ => true

def enriches : BulkActionName → Bool
  | .enrichSelected | .enrichMissingData | .enrichThenGenerate => true
  | _ => false

end BulkActionName

inductive BulkStatus where
  | pending | running | paused | coolingDown | success | failed | cancelled
  deriving DecidableEq, Repr

def BulkStatus.stopped : BulkStatus → Bool
  | .paused | .cancelled | .success | .failed => true
  | .pending | .running | .coolingDown => false

structure ProductBulkActionJob where
  pk : ℕ
  tenant : ℕ
  idempotencyKey : Option ℕ
  requestFingerprint : Text
  action : BulkActionName
  sourceId : Text
  productIds : List ℕ
  status : BulkStatus
  totalCount : ℕ
  queuedCount : ℕ
  processedCount : ℕ
  successCount : ℕ
  skippedCount : ℕ
  batchSize : ℕ
  pauseSeconds : ℕ
  nextBatchAt : Option Instant
  lastDispatchedAt : Option Instant
  startedAt : Option Instant
  finishedAt : Option Instant
  deriving DecidableEq

structure BulkRequest where
  action : BulkActionName
  productIds : List ℕ
  sourceId : Text
  batchSize : ℤ
  pauseSeconds : Option ℤ
  idempotencyKey : Option ℕ
  requestFingerprint : Text

section Creation

variable (lib : CaseLibrary)

def tenantProducts (s : PartStore) (tenant : ℕ) (ids : List ℕ) : List PartProduct :=
  s.products.rows.filter fun row => row.tenant == tenant && ids.contains row.id && !row.deleted

def eligibleAtCreation (observedAt : Instant) (product : PartProduct) : PartM Bool := do
  match ← attempt (ensureProductAutoPartsEligible lib observedAt product) with
  | .ok _ => return true
  | .error .autoPartsEnrichmentDisabled => return false
  | .error .productIsNotAutoPart => return false
  | .error e => throw e

def ensureActionEnabled (action : BulkActionName) : PartM Unit := if action.enriches then ensureAutoPartsEnabled else return

def selectedProducts (observedAt : Instant) (action : BulkActionName) (products : List PartProduct) : PartM (List PartProduct) := do
  if action.enriches then
    let verdicts ← products.mapM (eligibleAtCreation lib observedAt)
    return ((products.zip verdicts).filter Prod.snd).map Prod.fst
  else return products

def maxBulkActionPauseSeconds : ℤ := 3600

def newJob (pk tenant : ℕ) (request : BulkRequest) (policy : PartSourcePolicy) (products : List PartProduct) : ProductBulkActionJob where
  pk := pk
  tenant := tenant
  idempotencyKey := request.idempotencyKey
  requestFingerprint := request.requestFingerprint
  action := request.action
  sourceId := request.sourceId
  productIds := products.map PartProduct.id
  status := .pending
  totalCount := products.length
  queuedCount := 0
  processedCount := 0
  successCount := 0
  skippedCount := request.productIds.dedup.length - products.length
  batchSize := (max 1 (min (if request.batchSize = 0 then (policy.batchSize : ℤ) else request.batchSize) policy.batchSize)).toNat
  pauseSeconds := (min maxBulkActionPauseSeconds
    (max (policy.minPauseSeconds : ℤ) (request.pauseSeconds.getD policy.defaultPauseSeconds))).toNat
  nextBatchAt := none
  lastDispatchedAt := none
  startedAt := none
  finishedAt := none

/-- `create_job` for the tenant of the store; `existing` is the job of the tenant with the key of the request. -/
def createJob (maxProductIds : ℕ) (observedAt : Instant) (existing : Option ProductBulkActionJob) (request : BulkRequest) :
    PartM ProductBulkActionJob := do
  if request.action.allowed = false then throw .unknownBulkAction
  else if maxProductIds < request.productIds.dedup.length then throw .tooManyProducts
  else
    ensureActionEnabled request.action
    match getPartSourcePolicy request.sourceId with
    | none => throw .unknownSource
    | some policy =>
      let s ← get
      let products := (tenantProducts s s.settings.tenant.id request.productIds).insertionSort fun a b => a.id ≤ b.id
      let products ← selectedProducts lib observedAt request.action products
      match existing with
      | some job => if job.requestFingerprint = request.requestFingerprint then return job else throw .idempotencyConflict
      | none =>
        let s ← get
        set { s with nextPk := s.nextPk + 1 }
        return newJob s.nextPk s.settings.tenant.id request policy products

end Creation

/-! ## Batches -/

inductive Handling where
  | queued | skipped
  deriving DecidableEq, Repr

structure BatchClock where
  current : Instant
  finished : Instant
  dispatched : Instant

section Batches

variable (lib : CaseLibrary)

def jobKey (job : ProductBulkActionJob) : Text := "product-bulk:".toList ++ numberText job.pk

def enrichProduct (observedAt : Instant) (job : ProductBulkActionJob) (product : PartProduct) : PartM Handling := do
  match ← attempt (createParseJob lib observedAt job.tenant product job.sourceId (jobKey job ++ ":product:".toList ++ numberText product.id)) with
  | .error .productIsNotAutoPart => return .skipped
  | .error e => throw e
  | .ok parseJob =>
    let taskName := if job.action = .enrichThenGenerate then parseThenGenerate else parseSinglePart
    let _ ← enqueueDurableTask taskName [parseJob.pk] (some ("product-parse-job:".toList ++ numberText parseJob.pk)) observedAt 4
    return .queued

def describeProduct (observedAt : Instant) (job : ProductBulkActionJob) (product : PartProduct) : PartM Handling := do
  match ← attempt (scheduleAiGeneration lib observedAt job.tenant product job.sourceId
    (jobKey job ++ ":ai-description:".toList ++ numberText product.id)) with
  | .error .quotaExceeded => return .skipped
  | .error e => throw e
  | .ok _ => return .queued

def handleProduct (observedAt : Instant) (job : ProductBulkActionJob) (products : List PartProduct) (id : ℕ) : PartM Handling := do
  match products.find? fun product => product.id == id with
  | none => return .skipped
  | some product =>
    match job.action with
    | .enrichSelected | .enrichMissingData | .enrichThenGenerate => enrichProduct lib observedAt job product
    | .generateDescriptions => describeProduct lib observedAt job product
    | .classifyCatalogDomain =>
      let _ ← classifyProductCatalogDomain lib observedAt product
      return .queued
    | .findImages =>
      let _ ← createImageSearchTask observedAt job.tenant product
      return .queued
    | .other _ => return .skipped

def countBatch (clock : BatchClock) (job : ProductBulkActionJob) (handled : List Handling) : ProductBulkActionJob :=
  let queued := handled.count .queued
  let processed := job.processedCount + handled.length
  let finished := decide (job.totalCount ≤ processed)
  { job with
    startedAt := job.startedAt.or (some clock.current)
    skippedCount := job.skippedCount + handled.count .skipped
    processedCount := processed
    queuedCount := job.queuedCount + queued
    successCount := if job.action = .classifyCatalogDomain then job.successCount + queued else job.successCount
    status := if finished then .success else .coolingDown
    finishedAt := if finished then some clock.finished else job.finishedAt
    nextBatchAt := if finished then none else some (clock.finished + job.pauseSeconds * 1000000)
    lastDispatchedAt := some clock.dispatched }

def offsetKey (job : ProductBulkActionJob) : Text := jobKey job ++ ":batch-offset:".toList ++ numberText job.processedCount

def runBatch (clock : BatchClock) (job : ProductBulkActionJob) (batchIds : List ℕ) : PartM (ProductBulkActionJob × List Handling) := do
  let products := tenantProducts (← get) job.tenant batchIds
  let handled ← batchIds.mapM (handleProduct lib clock.current job products)
  let counted := countBatch clock job handled
  if counted.status = .coolingDown then
    let _ ← enqueueDurableTask processBulkProductAction [job.pk] (some (offsetKey counted)) (counted.nextBatchAt.getD clock.current) 4
  return (counted, handled)

structure BulkStore where
  job : ProductBulkActionJob
  parts : PartStore

namespace ProductBulkActionJob

def cooling (job : ProductBulkActionJob) (current : Instant) : Bool :=
  decide (job.status = .coolingDown) && job.nextBatchAt.any fun at_ => decide (current < at_)

def batchIds (job : ProductBulkActionJob) : List ℕ := (job.productIds.drop job.processedCount).take job.batchSize

def close (job : ProductBulkActionJob) (finished : Instant) : ProductBulkActionJob :=
  { job with
    status := .success
    finishedAt := some finished
    nextBatchAt := none
    lastDispatchedAt := none }

end ProductBulkActionJob

/-- `process_next_batch`, with the products that the call has handled. -/
def processNextBatch (clock : BatchClock) (s : BulkStore) : Except PartError (BulkStore × List (ℕ × Handling)) :=
  if s.job.status.stopped || s.job.cooling clock.current then .ok (s, [])
  else if s.job.batchIds.isEmpty then .ok ({ s with job := s.job.close clock.finished }, [])
  else
    match runBatch lib clock s.job s.job.batchIds s.parts with
    | .ok (job, handled) parts => .ok (⟨job, parts⟩, s.job.batchIds.zip handled)
    | .error e _ => .error e

end Batches

/-! ## Runs -/

structure BulkRun where
  store : BulkStore
  handled : List (ℕ × Handling)

/-- A call, or what others do meanwhile: the status may be set, though not to success, and everything but the job may change. -/
inductive BulkStep where
  | change (parts : PartStore)
  | mark (status : { status : BulkStatus // status ≠ .success }) (nextBatchAt : Option Instant)
  | call (clock : BatchClock)

def BulkRun.next (lib : CaseLibrary) (run : BulkRun) : BulkStep → BulkRun
  | .change parts => { run with store := { run.store with parts } }
  | .mark status nextBatchAt => { run with store := { run.store with job := { run.store.job with status := status.val, nextBatchAt } } }
  | .call clock =>
    match processNextBatch lib clock run.store with
    | .ok (store, handled) => ⟨store, run.handled ++ handled⟩
    | .error _ => run

end MapBackend.Products.Enrichment
