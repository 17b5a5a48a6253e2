import MapBackend.WebResearch.OfferExtraction
import MapBackend.AIAgent.ResultRecovery

/-!
The facts that a language model reads from the pages of a run.
-/

namespace MapBackend.WebResearch
open MapBackend.Library MapBackend.Core Products.Import

inductive ClaimType where
  | brand
  | oem
  | fitment
  | fact
  deriving DecidableEq

inductive RecordReview where
  | pending
  | approved
  | rejected
  deriving DecidableEq

structure WebResearchClaim where
  pk : ℕ
  run : ℕ
  claimType : ClaimType
  payload : SourceValue
  confidence : ℚ
  reviewStatus : RecordReview
  evidence : List ℕ
  savedModel : Text
  savedRecordId : Option ℕ

inductive RecordKey where
  | fact (tenant product : ℕ) (sourceId factType name valueHash : Text)
  | fitment (tenant product : ℕ) (sourceId make model generation modification engineCode : Text) (powerHp : Option ℤ)
  deriving DecidableEq

structure ProductEnrichmentFact where
  pk : ℕ
  tenant : ℕ
  product : ℕ
  sourceId : Text
  sourceUrl : Text
  factType : Text
  name : Text
  value : Text
  valueHash : Text
  rawText : Text
  confidence : ℚ
  needsReview : Bool
  reviewStatus : RecordReview
  lastSeenAt : Option Instant

def ProductEnrichmentFact.key (row : ProductEnrichmentFact) : RecordKey :=
  .fact row.tenant row.product row.sourceId row.factType row.name row.valueHash

structure VehicleFitment where
  pk : ℕ
  tenant : ℕ
  product : ℕ
  sourceId : Text
  sourceUrl : Text
  make : Text
  model : Text
  generation : Text
  dateFrom : Text
  dateTo : Text
  modification : Text
  engineCode : Text
  powerHp : Option ℕ
  rawText : Text
  confidence : ℚ
  needsReview : Bool
  reviewStatus : RecordReview
  lastSeenAt : Option Instant

def VehicleFitment.key (row : VehicleFitment) : RecordKey :=
  .fitment row.tenant row.product row.sourceId row.make row.model row.generation row.modification row.engineCode
    (row.powerHp.map Int.ofNat)

inductive ResearchStatus where
  | queued
  | running
  | needReview
  | completed
  | noResults
  | skipped
  | failed
  deriving DecidableEq

structure ResearchRun where
  pk : ℕ
  tenant : ℕ
  product : ℕ
  status : ResearchStatus
  purpose : Purpose
  generateAfter : Bool
  aiProvider : Text
  aiModel : Text
  claimCount : ℕ
  offerCount : ℕ
  errorMessage : Text
  finishedAt : Option Instant

/-- The tables of a research; `dispatches` are the runs whose description is queued. -/
structure ResearchStore where
  evidence : List WebResearchEvidence
  offers : List CompetitorOffer
  runs : List ResearchRun
  claims : List WebResearchClaim
  facts : List ProductEnrichmentFact
  fitments : List VehicleFitment
  dispatches : List ℕ

/-- Why a save raises: a number too large for a float or without an integer, a text that a column refuses, a number that
a column cannot hold or that breaks its check, or two rows where one is looked for. -/
inductive SaveError where
  | overflow
  | value
  | data
  | integrity
  | multipleObjects
  deriving DecidableEq

/-- The library of JSON, and the order that a table gives rows of one rank. -/
structure ResearchLibrary extends PageLibrary where
  loads : Text → Option SourceValue
  dumps : SourceValue → Text
  compact : Json → Text
  rankOrder : List WebResearchEvidence → List WebResearchEvidence
  rankOrder_perm : ∀ rows, (rankOrder rows).Perm rows
  rankOrder_sorted : ∀ rows, (rankOrder rows).Pairwise fun a b => a.rank ≤ b.rank

variable (lib : ResearchLibrary)

/-! ## The answer of the model -/

/-- `[...]` with every item an integer that is no boolean. -/
def isEvidenceIdList : SourceValue → Bool
  | .list items => items.all fun
    | .int _ => true
    | _ => false
  | _ => false

def entriesOf : SourceValue → List (Text × SourceValue)
  | .object entries => entries
  | _ => []

def fieldOf (key : String) (value : SourceValue) : SourceValue := (Dictionary.get key.toList (entriesOf value)).getD .null

def isObjectValue : SourceValue → Bool
  | .object _ => true
  | _ => false

def isTextValue : SourceValue → Bool
  | .text _ => true
  | _ => false

def isCollection : SourceValue → Bool
  | .list items => items.all fun item => isObjectValue item && isEvidenceIdList (fieldOf "evidence_ids" item)
  | _ => false

def requiredFields : List String := ["brand", "brand_evidence_ids", "cross_codes", "fitments", "facts"]

def dropFence (text : Text) : Text :=
  let rest := text.drop 3
  (if (rest.take 4).map Char.toLower = "json".toList then rest.drop 4 else rest).dropWhile Url.isSpace

def dropEndFence (text : Text) : Text :=
  if "```".toList.isSuffixOf text = true then Url.rstrip Url.isSpace (text.take (text.length - 3)) else text

def stripFences (text : Text) : Text := if "```".toList.isPrefixOf text = true then dropEndFence (dropFence text) else text

def checkResponse (parsed : SourceValue) : Except String SourceValue := do
  raiseIf (isObjectValue parsed = false ∨ requiredFields.all (fun key => ((Dictionary.get key.toList (entriesOf parsed)).isSome)) = false)
    "AI вернул неполную структуру исследования."
  raiseIf (isTextValue (fieldOf "brand" parsed) = false) "AI вернул неверный тип бренда."
  raiseIf (isEvidenceIdList (fieldOf "brand_evidence_ids" parsed) = false) "AI вернул неверные ссылки на доказательства."
  raiseIf (isCollection (fieldOf "cross_codes" parsed) = false) "AI вернул неверную структуру поля cross_codes."
  raiseIf (isCollection (fieldOf "fitments" parsed) = false) "AI вернул неверную структуру поля fitments."
  raiseIf (isCollection (fieldOf "facts" parsed) = false) "AI вернул неверную структуру поля facts."
  let offers := (Dictionary.get "offers".toList (entriesOf parsed)).getD (.list [])
  raiseIf (isCollection offers = false) "AI вернул неверную структуру поля offers."
  .ok (.object (Dictionary.set "offers".toList offers (entriesOf parsed)))

def parseResponse (text : Text) : Except String SourceValue :=
  match lib.loads (stripFences (Url.strip text)) with
  | none => .error "AI вернул невалидный JSON."
  | some parsed => checkResponse parsed

/-! ## Numbers -/

def underscoresApart (digitBefore : Bool) : Text → Bool
  | [] => true
  | '_' :: rest => digitBefore && rest.head?.any Products.Sources.isDecimalDigit && underscoresApart false rest
  | c :: rest => underscoresApart (Products.Sources.isDecimalDigit c) rest

/-- `float(text)`: a number too large is an infinity. -/
def floatText (text : Text) : Option Double :=
  let stripped := Url.strip text
  if underscoresApart false stripped = false then none
  else match ((stripped.filter fun c => c != '_').mapM asciiOf).bind Decimal.read with
    | none => none
    | some (.infinity negative) => some (.infinity negative)
    | some (.nan _ signaling _) =>
      if signaling = false ∧ (stripped.filter fun c => c != '+' && c != '-').length = 3 then some .nan else none
    | some number => some (Double.ofRat number.value)

/-- `float(value)`; `none` is a TypeError or a ValueError. -/
def floatOf : SourceValue → Except SaveError (Option Double)
  | .bool b => .ok (some (.finite (if b then 1 else 0)))
  | .int n => match Double.ofRat n with
    | .infinity _ => .error .overflow
    | number => .ok (some number)
  | .float f => .ok (some (.finite f.value))
  | .special shown => .ok (some (if shown = "nan".toList then .nan else .infinity (shown.head? == some '-')))
  | .text s => .ok (floatText s)
  | _ => .ok none

def confidenceCap (twoDomains : Bool) : ℚ := Double.roundSize (if twoDomains then 7 / 10 else 11 / 20)

/-- `max(0.0, min(number, cap))`, where a number that is none is less than nothing. -/
def clampConfidence (cap : ℚ) : Option Double → ℚ
  | some (.finite x) => max 0 (min x cap)
  | some (.infinity negative) => if negative then 0 else cap
  | some .nan => 0
  | none => 0

def normalizedConfidence (cap : ℚ) (value : SourceValue) : Except SaveError ℚ :=
  (floatOf (if value.truthy = true then value else .int 0)).map (clampConfidence cap)

def intText (text : Text) : Option ℤ :=
  if 4300 < (text.filter Products.Sources.isDecimalDigit).length then none else AIAgent.intOf text

def powerOf : SourceValue → Except SaveError (Option ℤ)
  | .bool b => .ok (some (if b then 1 else 0))
  | .int n => .ok (some n)
  | .float f => .ok (some (Double.truncate f.value))
  | .special shown => if shown = "nan".toList then .ok none else .error .overflow
  | .text s => .ok (intText s)
  | _ => .ok none

/-! ## Statements -/

def textField (key : String) (item : SourceValue) : Text := textOr lib.toPageLibrary (fieldOf key item)

structure FitmentFields where
  make : Text
  model : Text
  generation : Text
  dateFrom : Text
  dateTo : Text
  modification : Text
  engineCode : Text
  powerHp : Option ℤ

inductive RecordSpec where
  | fact (factType name value : Text)
  | fitment (fields : FitmentFields)

/-- One thing that the answer says of the product, with the pages that it cites. -/
structure Statement where
  claimType : ClaimType
  payload : SourceValue
  confidence : SourceValue
  evidenceIds : List ℤ
  record : RecordSpec

def idsOf : SourceValue → List ℤ
  | .list items => items.filterMap fun
    | .int n => some n
    | _ => none
  | _ => []

def brandName : Text := "Предполагаемый бренд".toList

def brandStatement (extracted : SourceValue) : Option Statement :=
  let brand := Url.strip (textField lib "brand" extracted)
  if brand = [] then none
  else some ⟨.brand, .object [("brand".toList, .text (brand.take 150))], fieldOf "brand_confidence" extracted,
    idsOf (fieldOf "brand_evidence_ids" extracted), .fact "brand".toList brandName brand⟩

def codeStatement (item : SourceValue) : Option Statement :=
  let code := Url.strip (textField lib "code" item)
  if normalizePartCode lib.toPageLibrary code = [] then none
  else
    let manufacturer := (textField lib "manufacturer" item).take 100
    let codeType := textOrElse lib.toPageLibrary (fieldOf "code_type" item) "Unknown".toList
    some ⟨.oem, .object [("manufacturer".toList, .text manufacturer), ("code".toList, .text (code.take 100)),
        ("code_type".toList, .text codeType)], fieldOf "confidence" item, idsOf (fieldOf "evidence_ids" item),
      .fact "oem".toList (if manufacturer = [] then codeType else manufacturer) (code.take 100)⟩

def powerValue : Option ℤ → SourceValue
  | none => .null
  | some n => .int n

def fitmentPayload (fields : FitmentFields) : SourceValue :=
  .object [("make".toList, .text fields.make), ("model".toList, .text fields.model),
    ("generation".toList, .text fields.generation), ("date_from".toList, .text fields.dateFrom),
    ("date_to".toList, .text fields.dateTo), ("modification".toList, .text fields.modification),
    ("engine_code".toList, .text fields.engineCode), ("power_hp".toList, powerValue fields.powerHp)]

def fitmentFields (item : SourceValue) (powerHp : Option ℤ) : FitmentFields where
  make := (Url.strip (textField lib "make" item)).take 100
  model := (Url.strip (textField lib "model" item)).take 150
  generation := (textField lib "generation" item).take 100
  dateFrom := (textField lib "date_from" item).take 20
  dateTo := (textField lib "date_to" item).take 20
  modification := (textField lib "modification" item).take 255
  engineCode := (textField lib "engine_code" item).take 100
  powerHp := powerHp

/-- A vehicle without a make or a model says nothing, and its power is not looked at. -/
def fitmentStatement (item : SourceValue) : Except SaveError (Option Statement) :=
  if Url.strip (textField lib "make" item) = [] ∨ Url.strip (textField lib "model" item) = [] then .ok none
  else (powerOf (fieldOf "power_hp" item)).map fun powerHp =>
    let fields := fitmentFields lib item powerHp
    some ⟨.fitment, fitmentPayload fields, fieldOf "confidence" item, idsOf (fieldOf "evidence_ids" item), .fitment fields⟩

def allowedFactTypes : List Text := ["technical", "description_hint", "warning"].map String.toList

def factStatement (item : SourceValue) : Option Statement :=
  let factType := textField lib "fact_type" item
  let name := Url.strip (textField lib "name" item)
  let value := Url.strip (textField lib "value" item)
  if allowedFactTypes.contains factType = false ∨ name = [] ∨ value = [] then none
  else some ⟨.fact, .object [("fact_type".toList, .text factType), ("name".toList, .text (name.take 150)),
      ("value".toList, .text (value.take 3000))], fieldOf "confidence" item, idsOf (fieldOf "evidence_ids" item),
    .fact factType (name.take 150) (value.take 3000)⟩

def listField (key : String) (extracted : SourceValue) : List SourceValue :=
  match fieldOf key extracted with
  | .list items => items
  | _ => []

/-- What the answer says, in the order of the loops. A statement that cannot be made raises when the loop comes to it. -/
def responseStatements (extracted : SourceValue) : List (Except SaveError (Option Statement)) :=
  .ok (brandStatement lib extracted) :: (((listField "cross_codes" extracted).take 20).map (fun item => .ok (codeStatement lib item)) ++
    (((listField "fitments" extracted).take 30).map (fitmentStatement lib) ++
      ((listField "facts" extracted).take 30).map fun item => .ok (factStatement lib item)))

/-! ## Saving -/

def sourceId : Text := "web_research".toList

def makeValueHash (value : Text) : Text := lib.sha256 (Url.strip value)

def RecordSpec.key (run : ResearchRun) : RecordSpec → RecordKey
  | .fact factType name value => .fact run.tenant run.product sourceId factType (name.take 150) (makeValueHash lib value)
  | .fitment fields => .fitment run.tenant run.product sourceId fields.make fields.model fields.generation fields.modification
      fields.engineCode fields.powerHp

def citedRows (evidence : List WebResearchEvidence) (ids : List ℤ) : List WebResearchEvidence :=
  (distinct id [] ids).filterMap fun n => evidence.find? fun row => decide ((row.pk : ℤ) = n)

def twoDomains (rows : List WebResearchEvidence) : Bool := decide (2 ≤ (distinct id [] (rows.map WebResearchEvidence.domain)).length)

def noZero (text : Text) : Bool := text.all fun c => c.toNat != 0

def storablePayload (payload : SourceValue) : Bool := (entriesOf payload).all fun entry => noZero (textOr lib.toPageLibrary entry.2)

def freshPk (pks : List ℕ) : ℕ := pks.foldr max 0 + 1

def urlColumn (rows : List WebResearchEvidence) : Except SaveError Text :=
  orRaise .data (cut 200 ((lib.rankOrder rows).head?.elim [] WebResearchEvidence.url))

def powerColumn : Option ℤ → Except SaveError (Option ℕ)
  | none => .ok none
  | some n => if n < 0 then .error .integrity else if 2147483647 < n then .error .data else .ok (some n.toNat)

def evidenceSummary (payload : SourceValue) (rows : List WebResearchEvidence) : Text :=
  lib.dumps (.object [("claim_payload".toList, payload), ("evidence".toList, .list ((lib.rankOrder rows).map fun row =>
    .object [("id".toList, .int row.pk), ("url".toList, .text row.url), ("title".toList, .text row.title)]))])

/-- A record that was found or made, and whether an operator has approved it before. -/
structure SavedRecord where
  model : Text
  pk : ℕ
  approved : Bool

def factModel : Text := "products.productenrichmentfact".toList
def fitmentModel : Text := "products.vehiclefitment".toList

def saveFact (run : ResearchRun) (s : ResearchStore) (claim : WebResearchClaim) (rows : List WebResearchEvidence) (now : Instant)
    (factType name value : Text) : Except SaveError (ResearchStore × SavedRecord) :=
  match s.facts.filter fun row => decide (row.key = RecordSpec.key lib run (.fact factType name value)) with
  | [] => do
    let url ← urlColumn lib rows
    raiseIf (noZero value = false) .value
    let pk := freshPk (s.facts.map ProductEnrichmentFact.pk)
    .ok ({ s with facts := s.facts ++ [⟨pk, run.tenant, run.product, sourceId, url, factType, name.take 150, value,
      makeValueHash lib value, evidenceSummary lib claim.payload rows, claim.confidence, true, .pending, some now⟩] },
      ⟨factModel, pk, false⟩)
  | [row] => .ok (s, ⟨factModel, row.pk, !row.needsReview && row.reviewStatus == .approved⟩)
  | _ => .error .multipleObjects

def saveFitment (run : ResearchRun) (s : ResearchStore) (claim : WebResearchClaim) (rows : List WebResearchEvidence) (now : Instant)
    (fields : FitmentFields) : Except SaveError (ResearchStore × SavedRecord) :=
  match s.fitments.filter fun row => decide (row.key = RecordSpec.key lib run (.fitment fields)) with
  | [] => do
    let url ← urlColumn lib rows
    let power ← powerColumn fields.powerHp
    let pk := freshPk (s.fitments.map VehicleFitment.pk)
    .ok ({ s with fitments := s.fitments ++ [⟨pk, run.tenant, run.product, sourceId, url, fields.make, fields.model,
      fields.generation, fields.dateFrom, fields.dateTo, fields.modification, fields.engineCode, power,
      evidenceSummary lib claim.payload rows, claim.confidence, true, .pending, some now⟩] }, ⟨fitmentModel, pk, false⟩)
  | [row] => .ok (s, ⟨fitmentModel, row.pk, !row.needsReview && row.reviewStatus == .approved⟩)
  | _ => .error .multipleObjects

def saveRecord (run : ResearchRun) (s : ResearchStore) (claim : WebResearchClaim) (rows : List WebResearchEvidence) (now : Instant) :
    RecordSpec → Except SaveError (ResearchStore × SavedRecord)
  | .fact factType name value => saveFact lib run s claim rows now factType name value
  | .fitment fields => saveFitment lib run s claim rows now fields

/-- `_save_claim` of a statement that cites some rows. -/
def newClaim (run : ResearchRun) (s : ResearchStore) (rows : List WebResearchEvidence) (statement : Statement) :
    Except SaveError WebResearchClaim := do
  let confidence ← normalizedConfidence (confidenceCap (twoDomains rows)) statement.confidence
  raiseIf (storablePayload lib statement.payload = false) .value
  .ok ⟨freshPk (s.claims.map WebResearchClaim.pk), run.pk, statement.claimType, statement.payload, confidence, .pending,
    rows.map WebResearchEvidence.pk, [], none⟩

def linked (claim : WebResearchClaim) (record : SavedRecord) : WebResearchClaim :=
  { claim with
    reviewStatus := if record.approved then .approved else claim.reviewStatus
    savedModel := record.model
    savedRecordId := some record.pk }

def saveStatement (run : ResearchRun) (evidence : List WebResearchEvidence) (now : Instant)
    (progress : ResearchStore × List WebResearchClaim) (statement : Statement) :
    Except SaveError (ResearchStore × List WebResearchClaim) :=
  let rows := citedRows evidence statement.evidenceIds
  if rows = [] then .ok progress
  else do
    let claim ← newClaim lib run progress.1 rows statement
    let (s, record) ← saveRecord lib run { progress.1 with claims := progress.1.claims ++ [claim] } claim rows now statement.record
    .ok ({ s with claims := put WebResearchClaim.pk (linked claim record) s.claims }, progress.2 ++ [linked claim record])

def saveNext (run : ResearchRun) (evidence : List WebResearchEvidence) (now : Instant)
    (progress : ResearchStore × List WebResearchClaim) (item : Except SaveError (Option Statement)) :
    Except SaveError (ResearchStore × List WebResearchClaim) :=
  match item with
  | .error error => .error error
  | .ok none => .ok progress
  | .ok (some statement) => saveStatement lib run evidence now progress statement

def saveExtractedClaims (run : ResearchRun) (extracted : SourceValue) (evidence : List WebResearchEvidence) (now : Instant)
    (s : ResearchStore) : Except SaveError (ResearchStore × List WebResearchClaim) :=
  (responseStatements lib extracted).foldlM (saveNext lib run evidence now) (s, [])

/-! ## The paid result -/

def SaveError.raised : SaveError → AIAgent.OperationError
  | .overflow => .value "int too large to convert to float"
  | .value => .value "A string literal cannot contain NUL (0x00) characters."
  | .data => .dataError
  | .integrity => .integrityError
  | .multipleObjects => .value "get() returned more than one row"

def ResearchStore.evidenceOf (s : ResearchStore) (run : ResearchRun) : List WebResearchEvidence :=
  (s.evidence.filter fun row => decide (row.run = run.pk)).insertionSort fun a b =>
    a.rank < b.rank ∨ a.rank = b.rank ∧ a.pk ≤ b.pk

def ResearchStore.offersOf (s : ResearchStore) (run : ResearchRun) : List CompetitorOffer :=
  s.offers.filter fun row => decide (row.run = run.pk)

def finishedStatus (claims : List WebResearchClaim) (offers : List CompetitorOffer) : ResearchStatus :=
  if claims.any (fun claim => claim.reviewStatus == .pending) || offers.any (fun offer => offer.reviewStatus == .pending) then .needReview
  else if claims.isEmpty && offers.isEmpty then .noResults else .completed

def finishedRun (run : ResearchRun) (o : AIAgent.AIProviderOperation) (claims : List WebResearchClaim) (offers : List CompetitorOffer)
    (now : Instant) : ResearchRun :=
  { run with
    aiProvider := o.provider
    aiModel := o.modelId
    claimCount := claims.length
    offerCount := offers.length
    status := finishedStatus claims offers
    errorMessage := []
    finishedAt := some now }

def generateIfUnblocked (run : ResearchRun) (s : ResearchStore) : ResearchStore :=
  if run.generateAfter = false ∨ ¬ (run.status = .completed ∨ run.status = .noResults ∨ run.status = .skipped) ∨
    run.purpose = .pricing then s
  else if run.pk ∈ s.dispatches then s else { s with dispatches := s.dispatches ++ [run.pk] }

def ResearchStore.runOf (s : ResearchStore) (o : AIAgent.AIProviderOperation) (runId : ℤ) : Option ResearchRun :=
  s.runs.find? fun row => decide ((row.pk : ℤ) = runId) && decide (row.tenant = o.tenant)

def writeResult (research : ResearchStore) (o : AIAgent.AIProviderOperation) (run : ResearchRun) (payload : Json) (now : Instant) :
    Except AIAgent.OperationError ResearchStore := do
  let extracted ← (parseResponse lib (lib.compact payload)).mapError AIAgent.OperationError.value
  let (saved, claims) ← (saveExtractedClaims lib run extracted (research.evidenceOf run) now research).mapError SaveError.raised
  let finished := finishedRun run o claims (saved.offersOf run) now
  .ok (generateIfUnblocked finished { saved with runs := put ResearchRun.pk finished saved.runs })

def writtenResult (research : ResearchStore) (o : AIAgent.AIProviderOperation) (now : Instant) :
    Except AIAgent.OperationError ResearchStore := do
  let runId ← orRaise (.state "Некорректная ссылка операции на исследование.") (AIAgent.intOf o.domainReference)
  let run ← orRaise .doesNotExist (research.runOf o runId)
  let payload ← orRaise (.state "Durable AI-результат исследования отсутствует.") (o.validatedResult.filter Json.isObject)
  writeResult lib research o run payload now

def raisedBy {α : Type} : Except AIAgent.OperationError α → Option AIAgent.OperationError
  | .error error => some error
  | .ok _ => none

/-- `apply_ai_provider_operation`: the operation and the tables of the research in one transaction. -/
def applyAiProviderOperation (s : AIAgent.OperationStore) (research : ResearchStore) (id : ℕ) (now : Instant) :
    Except AIAgent.OperationError (AIAgent.OperationStore × ResearchStore) := do
  let o ← s.get id
  let outcome := writtenResult lib research o now
  let (next, _) ← s.applyResearchProviderOperation id (raisedBy outcome) now
  .ok (next, if o.applyState = .applied then research else outcome.toOption.getD research)

end MapBackend.WebResearch
