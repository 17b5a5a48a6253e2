import MapBackend.Products.CategoryInference

/-!
The sources of part data: how far they are trusted, how fast they may be asked, and which records of
theirs are applied without a person.
-/

namespace MapBackend.Products.Enrichment
open MapBackend.Library MapBackend.Core Inference

inductive ReviewStatus where
  | pending | approved | rejected
  deriving DecidableEq, Repr

structure PartSourcePolicy where
  sourceId : Text
  priority : ℤ
  trustScore : ℚ
  defaultPauseSeconds : ℕ
  minPauseSeconds : ℕ
  batchSize : ℕ
  autoApplyMinConfidence : ℚ := double (17 / 20)
  autoApplyMinTrustScore : ℚ := double (3 / 4)

def defaultPartSource : Text := "tachka".toList

def humanReview : Text := "human_review".toList

def partSourcePolicies : List PartSourcePolicy :=
  [{ sourceId := humanReview, priority := 1000, trustScore := 1, defaultPauseSeconds := 0, minPauseSeconds := 0, batchSize := 100 },
    { sourceId := "tachka".toList, priority := 100, trustScore := double (17 / 20), defaultPauseSeconds := 60, minPauseSeconds := 10,
      batchSize := 20 },
    { sourceId := "rossko".toList, priority := 90, trustScore := double (17 / 20), defaultPauseSeconds := 60, minPauseSeconds := 10,
      batchSize := 20 },
    { sourceId := "euroauto".toList, priority := 80, trustScore := double (4 / 5), defaultPauseSeconds := 60, minPauseSeconds := 10,
      batchSize := 10 },
    { sourceId := "web_research".toList, priority := 10, trustScore := double (11 / 20), defaultPauseSeconds := 0, minPauseSeconds := 0,
      batchSize := 1 }]

/-- `get_part_source_policy`; `none` is its `ValueError`. -/
def getPartSourcePolicy (sourceId : Text) : Option PartSourcePolicy := partSourcePolicies.find? fun policy => policy.sourceId == sourceId

def unknownPolicy (sourceId : Text) : PartSourcePolicy where
  sourceId := sourceId
  priority := 0
  trustScore := 0
  defaultPauseSeconds := 60
  minPauseSeconds := 10
  batchSize := 1

def policyOrDefault (sourceId : Text) : PartSourcePolicy :=
  (getPartSourcePolicy (if sourceId.isEmpty then defaultPartSource else sourceId)).getD (unknownPolicy sourceId)

/-- The attributes of a record that the policy reads; a record of the platform has no review. -/
structure SourceRecord where
  sourceId : Text
  confidence : ℚ
  needsReview : Bool
  reviewStatus : Option ReviewStatus
  deriving DecidableEq

def shouldAutoApplyRecord (row : SourceRecord) : Bool :=
  match row.reviewStatus with
  | some .rejected => false
  | some .approved => true
  | some .pending | none =>
    if row.needsReview then false
    else
      let policy := policyOrDefault row.sourceId
      decide (policy.autoApplyMinTrustScore ≤ policy.trustScore) && decide (policy.autoApplyMinConfidence ≤ row.confidence)

def shouldAutoApplyFitment (model : Text) (row : SourceRecord) : Bool :=
  if model.isEmpty then false
  else
    match row.reviewStatus with
    | some .approved => shouldAutoApplyRecord row
    | some .pending | some .rejected => false
    | none => if row.sourceId == humanReview then shouldAutoApplyRecord row else false

theorem shouldAutoApplyFitment_reviewed {model : Text} {row : SourceRecord} {status : ReviewStatus} (reviewed : row.reviewStatus = some status) :
    shouldAutoApplyFitment model row = true ↔ model ≠ [] ∧ status = .approved := by
  unfold shouldAutoApplyFitment shouldAutoApplyRecord
  rw [reviewed]
  cases model <;> cases status <;> simp

/-! ## Fitments -/

/-- A fitment of a product to a vehicle, with the columns that its projection and its review read. -/
structure VehicleFitment where
  id : ℕ
  sourceId : Text
  make : Text
  model : Text
  generation : Text
  dateFrom : Text
  dateTo : Text
  modification : Text
  engineCode : Text
  powerHp : Option ℕ
  confidence : ℚ
  needsReview : Bool
  reviewStatus : ReviewStatus
  deriving DecidableEq

def VehicleFitment.record (fitment : VehicleFitment) : SourceRecord :=
  ⟨fitment.sourceId, fitment.confidence, fitment.needsReview, some fitment.reviewStatus⟩

def VehicleFitment.accepted (fitment : VehicleFitment) : Bool := shouldAutoApplyFitment fitment.model fitment.record

theorem VehicleFitment.accepted_iff {fitment : VehicleFitment} :
    fitment.accepted = true ↔ fitment.model ≠ [] ∧ fitment.reviewStatus = .approved := shouldAutoApplyFitment_reviewed rfl

end MapBackend.Products.Enrichment
