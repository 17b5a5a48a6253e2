import MapBackend.Library.TiedScans
import MapBackend.Products.SourcePolicy

/-!
The columns of a product that its cross codes and its fitments are projected to: the two lists of codes
and the vehicles that marketplaces are told.
-/

namespace MapBackend.Products.Enrichment
open MapBackend.Library MapBackend.Core

/-! ## The rows -/

inductive CodeType where
  | oem | cross | trade | unknown
  deriving DecidableEq

structure ProductCrossCode where
  sourceId : Text
  manufacturer : Text
  code : Text
  normalizedCode : Text
  codeType : CodeType
  deriving DecidableEq

def ProductCrossCode.unique (cross : ProductCrossCode) : Text × Text × Text × CodeType :=
  (cross.sourceId, cross.manufacturer, cross.normalizedCode, cross.codeType)

structure VehicleKey where
  make : Text
  model : Text
  generation : Text
  modification : Text
  engineCode : Text
  powerHp : Option ℕ
  deriving DecidableEq

def VehicleFitment.key (fitment : VehicleFitment) : VehicleKey where
  make := fitment.make
  model := fitment.model
  generation := fitment.generation
  modification := fitment.modification
  engineCode := fitment.engineCode
  powerHp := fitment.powerHp

/-- The rows of a product, as their unique constraints admit them: rows without a power never are the same to the constraint. -/
structure Evidence where
  crossCodes : List ProductCrossCode
  fitments : List VehicleFitment
  crossCodesUnique : (crossCodes.map ProductCrossCode.unique).Nodup
  fitmentsUnique : fitments.Pairwise fun a b => a.sourceId = b.sourceId → a.key = b.key → a.powerHp = none

/-! ## The queries -/

structure Collation (C : Type*) where
  weigh : Text → C
  injective : weigh.Injective

section Queries

variable {C : Type*} [LinearOrder C] (collation : Collation C)

def avitoManual : Text := "avito_manual".toList

def ProductCrossCode.isManual (cross : ProductCrossCode) : Bool := cross.sourceId == avitoManual

def ProductCrossCode.avitoPriority (cross : ProductCrossCode) : ℕ := if cross.isManual then 0 else 1

/-- `order_by('avito_priority', 'source_id', 'manufacturer', 'code')`. -/
def crossCodeRank (cross : ProductCrossCode) : ℕ ×ₗ C ×ₗ C ×ₗ C :=
  toLex (cross.avitoPriority, toLex (collation.weigh cross.sourceId, toLex (collation.weigh cross.manufacturer, collation.weigh cross.code)))

/-- `order_by('source_id', 'make', 'model', 'generation')`. -/
def fitmentRank (fitment : VehicleFitment) : C ×ₗ C ×ₗ C ×ₗ C :=
  toLex (collation.weigh fitment.sourceId,
    toLex (collation.weigh fitment.make, toLex (collation.weigh fitment.model, collation.weigh fitment.generation)))

structure Answers (evidence : Evidence) (crossCodes : List ProductCrossCode) (fitments : List VehicleFitment) : Prop where
  crossCodes : Arranges (notAfter (crossCodeRank collation)) evidence.crossCodes crossCodes
  fitments : Arranges (notAfter (fitmentRank collation)) evidence.fitments fitments

end Queries

/-! ## The projection -/

structure ApplicabilityEntry where
  key : VehicleKey
  dateFrom : Text
  dateTo : Text
  sourceId : Text
  deriving DecidableEq

def VehicleFitment.entry (fitment : VehicleFitment) : ApplicabilityEntry := ⟨fitment.key, fitment.dateFrom, fitment.dateTo, fitment.sourceId⟩

structure EnrichedProduct where
  pk : ℕ
  oemNumbers : List Text
  crossNumbers : List Text
  applicability : List ApplicabilityEntry
  deriving DecidableEq

def ProductCrossCode.value (cross : ProductCrossCode) : Text := if cross.isManual then cross.code else cross.normalizedCode

/-- `if value and value not in target: target.append(value)`. -/
def appendNew (target : List Text) (value : Text) : List Text :=
  if !value.isEmpty && !target.contains value then target ++ [value] else target

def addCrossCode (numbers : List Text × List Text) (cross : ProductCrossCode) : List Text × List Text :=
  if cross.codeType = .oem then (appendNew numbers.1 cross.value, numbers.2) else (numbers.1, appendNew numbers.2 cross.value)

def addFitment (projected : List VehicleKey × List ApplicabilityEntry) (fitment : VehicleFitment) :
    List VehicleKey × List ApplicabilityEntry :=
  if !fitment.accepted then projected
  else if fitment.model.isEmpty || projected.1.contains fitment.key then projected
  else (fitment.key :: projected.1, projected.2 ++ [fitment.entry])

def numbersOf (crossCodes : List ProductCrossCode) : List Text × List Text := crossCodes.foldl addCrossCode ([], [])

def applicabilityOf (fitments : List VehicleFitment) : List ApplicabilityEntry := (fitments.foldl addFitment ([], [])).2

/-- `refresh_product_denormalized_enrichment`, on the answers to its two queries. -/
def refreshProductDenormalizedEnrichment (product : EnrichedProduct) (crossCodes : List ProductCrossCode) (fitments : List VehicleFitment) :
    EnrichedProduct :=
  { product with
    oemNumbers := (numbersOf crossCodes).1.take 50
    crossNumbers := (numbersOf crossCodes).2.take 50
    applicability := (applicabilityOf fitments).take 500 }

end MapBackend.Products.Enrichment
