import Mathlib.Data.Char
import Mathlib.Data.List.Lex
import MapBackend.Products.EnrichmentProjection

/-!
When the projected columns are a function of the evidence, and which rows stand in them.
-/

namespace MapBackend.Products.Enrichment
open MapBackend.Library MapBackend.Core

section Loops

variable {C : Type*} (collation : Collation C)

def targetOf (oem : Bool) (numbers : List Text × List Text) : List Text := if oem then numbers.1 else numbers.2

def ProductCrossCode.isOem (cross : ProductCrossCode) : Bool := decide (cross.codeType = .oem)

def numbersScan (oem : Bool) : Scan ProductCrossCode (ℕ ×ₗ C ×ₗ C ×ₗ C) Text Text where
  rank := crossCodeRank collation
  keep cross := (cross.isOem == oem) && !cross.value.isEmpty
  key := ProductCrossCode.value
  entry := ProductCrossCode.value
  limit := 50

def vehicleScan : Scan VehicleFitment (C ×ₗ C ×ₗ C ×ₗ C) VehicleKey ApplicabilityEntry where
  rank := fitmentRank collation
  keep := VehicleFitment.accepted
  key := VehicleFitment.key
  entry := VehicleFitment.entry
  limit := 500

theorem targetOf_addCrossCode (oem : Bool) (numbers : List Text × List Text) (cross : ProductCrossCode) :
    targetOf oem (addCrossCode numbers cross) =
      if cross.isOem == oem then appendNew (targetOf oem numbers) cross.value else targetOf oem numbers := by
  unfold addCrossCode ProductCrossCode.isOem
  by_cases kind : cross.codeType = .oem <;> cases oem <;> simp [kind, targetOf]

theorem targetOf_foldl (oem : Bool) (crossCodes : List ProductCrossCode) (numbers : List Text × List Text) :
    targetOf oem (crossCodes.foldl addCrossCode numbers) = targetOf oem numbers ++
      (distinct ProductCrossCode.value (targetOf oem numbers) (crossCodes.filter (numbersScan collation oem).keep)).map
        ProductCrossCode.value := by
  induction crossCodes generalizing numbers with
  | nil => simp [distinct]
  | cons cross _ ih =>
    rw [List.foldl_cons, ih, targetOf_addCrossCode]
    by_cases kind : (cross.isOem == oem) = true
    · rw [if_pos kind, appendNew]
      by_cases empty : cross.value.isEmpty = true
      · have skip : ¬ (numbersScan collation oem).keep cross = true := by simp [numbersScan, empty]
        rw [List.filter_cons_of_neg skip, if_neg (by simp [empty])]
      · have keep : (numbersScan collation oem).keep cross = true := by simp [numbersScan, kind, empty]
        rw [List.filter_cons_of_pos keep, distinct]
        by_cases there : cross.value ∈ targetOf oem numbers
        · rw [if_neg (by simp [there]), if_pos there]
        · rw [if_pos (by simp [there, empty]), if_neg there, List.map_cons, List.append_assoc, List.singleton_append]
          have seen (k : Text) : k ∈ targetOf oem numbers ++ [cross.value] ↔ k ∈ cross.value :: targetOf oem numbers := by
            rw [List.mem_append, List.mem_singleton, List.mem_cons, or_comm]
          rw [distinct.congr seen]
    · have skip : ¬ (numbersScan collation oem).keep cross = true := by simp [numbersScan, kind]
      rw [List.filter_cons_of_neg skip, if_neg kind]

theorem targetOf_numbersOf (oem : Bool) (crossCodes : List ProductCrossCode) :
    targetOf oem (numbersOf crossCodes) = (numbersScan collation oem).entries crossCodes := by
  have start : targetOf oem ([], []) = [] := ite_self _
  rw [numbersOf, targetOf_foldl collation, start, List.nil_append]
  rfl

theorem foldl_addFitment (fitments : List VehicleFitment) (seen : List VehicleKey) (applicability : List ApplicabilityEntry) :
    (fitments.foldl addFitment (seen, applicability)).2 =
      applicability ++ (distinct VehicleFitment.key seen (fitments.filter VehicleFitment.accepted)).map VehicleFitment.entry := by
  induction fitments generalizing seen applicability with
  | nil => simp [distinct]
  | cons fitment _ ih =>
    rw [List.foldl_cons, addFitment]
    by_cases accepted : fitment.accepted = true
    · have model : ¬ fitment.model.isEmpty = true := by simpa using (VehicleFitment.accepted_iff.mp accepted).1
      rw [if_neg (by simp [accepted]), List.filter_cons_of_pos accepted, distinct]
      by_cases there : fitment.key ∈ seen
      · rw [if_pos (by simp [there]), if_pos there, ih]
      · rw [if_neg (by simp [there, model]), if_neg there, ih, List.map_cons, List.append_assoc, List.singleton_append]
    · rw [if_pos (by simp [accepted]), List.filter_cons_of_neg accepted, ih]

theorem applicabilityOf_eq (fitments : List VehicleFitment) : applicabilityOf fitments = (vehicleScan collation).entries fitments := by
  rw [applicabilityOf, foldl_addFitment, List.nil_append]
  rfl

end Loops

/-! ## What the columns owe to the evidence -/

section Faithfulness

variable {C : Type*} [LinearOrder C] (collation : Collation C)

def EnrichedProduct.numbers (oem : Bool) (product : EnrichedProduct) : List Text := if oem then product.oemNumbers else product.crossNumbers

structure Projects (crossCodes : List ProductCrossCode) (fitments : List VehicleFitment) (product : EnrichedProduct) : Prop where
  numbersOnce : ∀ oem, (product.numbers oem).Nodup
  vehiclesOnce : product.applicability.Nodup
  codes : ∀ before cross after, crossCodes = before ++ cross :: after → cross.value ≠ [] →
    (targetOf cross.isOem (numbersOf before)).length < 50 → cross.value ∈ product.numbers cross.isOem
  manualFirst : ∀ oem, ((targetOf oem (numbersOf (crossCodes.filter ProductCrossCode.isManual))).take 50) <+: product.numbers oem
  vehicles : ∀ before fitment after, fitments = before ++ fitment :: after → fitment.accepted = true →
    (applicabilityOf before).length < 500 → ∃ entry ∈ product.applicability,
      entry.key = fitment.key ∧ entry.dateFrom = fitment.dateFrom ∧ entry.dateTo = fitment.dateTo
  approved : ∀ entry ∈ product.applicability, ∃ fitment ∈ fitments,
    fitment.accepted = true ∧ fitment.reviewStatus = .approved ∧ fitment.entry = entry

structure Faithful (evidence : Evidence) : Prop where
  same : ∀ product crossCodes crossCodes' fitments fitments',
    Answers collation evidence crossCodes fitments → Answers collation evidence crossCodes' fitments' →
      refreshProductDenormalizedEnrichment product crossCodes fitments = refreshProductDenormalizedEnrichment product crossCodes' fitments'
  idempotent : ∀ product crossCodes crossCodes' fitments fitments',
    Answers collation evidence crossCodes fitments → Answers collation evidence crossCodes' fitments' →
      refreshProductDenormalizedEnrichment (refreshProductDenormalizedEnrichment product crossCodes fitments) crossCodes' fitments' =
        refreshProductDenormalizedEnrichment product crossCodes fitments
  projects : ∀ product crossCodes fitments, Answers collation evidence crossCodes fitments →
    Projects crossCodes fitments (refreshProductDenormalizedEnrichment product crossCodes fitments)

def VehicleFitment.dates (fitment : VehicleFitment) : Text × Text := (fitment.dateFrom, fitment.dateTo)

/-- No two rows of one rank compete for a place in a list, and approved fitments of one vehicle that are reached before the list
is full have the same dates. -/
structure Unambiguous (evidence : Evidence) : Prop where
  numbers : ∀ oem, (numbersScan collation oem).Settled evidence.crossCodes
  vehicles : (vehicleScan collation).Settled evidence.fitments
  dates : (vehicleScan collation).Agrees VehicleFitment.dates evidence.fitments

variable {evidence : Evidence} {crossCodes crossCodes' : List ProductCrossCode} {fitments fitments' : List VehicleFitment}
  {product : EnrichedProduct}

omit [LinearOrder C] in
theorem result_numbers (oem : Bool) (crossCodes : List ProductCrossCode) :
    (numbersScan collation oem).result crossCodes = (targetOf oem (numbersOf crossCodes)).take 50 := by
  rw [Scan.result, ← targetOf_numbersOf]
  rfl

omit [LinearOrder C] in
theorem result_vehicles (fitments : List VehicleFitment) :
    (vehicleScan collation).result fitments = (applicabilityOf fitments).take 500 := by
  rw [Scan.result, ← applicabilityOf_eq]
  rfl

theorem numbers_refresh (oem : Bool) : (refreshProductDenormalizedEnrichment product crossCodes fitments).numbers oem =
    (targetOf oem (numbersOf crossCodes)).take 50 := by
  cases oem <;> rfl

omit [LinearOrder C] in
theorem refresh_eq_iff : refreshProductDenormalizedEnrichment product crossCodes fitments =
      refreshProductDenormalizedEnrichment product crossCodes' fitments' ↔
    (∀ oem, (numbersScan collation oem).result crossCodes = (numbersScan collation oem).result crossCodes') ∧
      (vehicleScan collation).result fitments = (vehicleScan collation).result fitments' := by
  simp only [result_numbers, result_vehicles]
  constructor
  · intro equal
    refine ⟨fun oem => ?_, congrArg EnrichedProduct.applicability equal⟩
    have numbers := congrArg (EnrichedProduct.numbers oem) equal
    rwa [numbers_refresh, numbers_refresh] at numbers
  · rintro ⟨numbers, applicability⟩
    have oem : (numbersOf crossCodes).1.take 50 = (numbersOf crossCodes').1.take 50 := numbers true
    have cross : (numbersOf crossCodes).2.take 50 = (numbersOf crossCodes').2.take 50 := numbers false
    rw [refreshProductDenormalizedEnrichment, refreshProductDenormalizedEnrichment, oem, cross, applicability]

omit [LinearOrder C] in
theorem vehicle_own (a b : VehicleFitment) (same : (vehicleScan collation).entry a = (vehicleScan collation).entry b) :
    (vehicleScan collation).key a = (vehicleScan collation).key b ∧ a.dates = b.dates := by
  have entry : a.entry = b.entry := same
  injection entry with key from_ to_ source
  exact ⟨key, Prod.ext from_ to_⟩

theorem manual_leads (arranged : Arranges (notAfter (crossCodeRank collation)) evidence.crossCodes crossCodes) :
    ∃ rest, crossCodes = crossCodes.filter ProductCrossCode.isManual ++ rest := by
  refine Scan.filter_leads (arranged.2.imp fun {a b} le manual => ?_)
  have rank : crossCodeRank collation a ≤ crossCodeRank collation b := of_decide_eq_true le
  have priority : a.avitoPriority ≤ b.avitoPriority := by
    rcases Prod.Lex.toLex_le_toLex.mp rank with lt | ⟨same, -⟩
    · exact lt.le
    · exact same.le
  by_contra other
  rw [ProductCrossCode.avitoPriority, ProductCrossCode.avitoPriority, if_neg other, if_pos manual] at priority
  omega

theorem projects_refresh (answers : Answers collation evidence crossCodes fitments)
    (vehicles : (vehicleScan collation).Represents VehicleFitment.dates evidence.fitments) :
    Projects crossCodes fitments (refreshProductDenormalizedEnrichment product crossCodes fitments) where
  numbersOnce oem := by
    rw [numbers_refresh, ← result_numbers collation]
    exact Scan.result_nodup (fun a b same => same) crossCodes
  vehiclesOnce := by
    change ((applicabilityOf fitments).take 500).Nodup
    rw [← result_vehicles collation]
    exact Scan.result_nodup (fun a b same => (vehicle_own collation a b same).1) fitments
  codes before cross after split value room := by
    have keep : (numbersScan collation cross.isOem).keep cross = true := by simp [numbersScan, value]
    rw [targetOf_numbersOf collation] at room
    obtain ⟨d, -, key, here⟩ := @Scan.reached _ _ _ _ _ (numbersScan collation cross.isOem) before after cross keep room
    rw [numbers_refresh, ← result_numbers collation, split]
    have same : d.value = cross.value := key
    exact same ▸ here
  manualFirst oem := by
    obtain ⟨_, split⟩ := manual_leads collation answers.crossCodes
    have leads : (numbersScan collation oem).entries (crossCodes.filter ProductCrossCode.isManual) <+:
        (numbersScan collation oem).entries crossCodes := by
      conv_rhs => rw [split]
      exact Scan.entries_append _ _
    rw [numbers_refresh, targetOf_numbersOf collation, targetOf_numbersOf collation]
    exact leads.take 50
  vehicles before fitment after split accepted room := by
    have arranged := answers.fitments
    rw [split] at arranged
    rw [applicabilityOf_eq collation] at room
    obtain ⟨d, -, -, key, dates, here⟩ := vehicles before fitment after arranged accepted room
    rw [← split, result_vehicles] at here
    have from_to : (d.dateFrom, d.dateTo) = (fitment.dateFrom, fitment.dateTo) := dates
    injection from_to with from_ to_
    exact ⟨d.entry, here, key, from_, to_⟩
  approved entry mem := by
    have there : entry ∈ (vehicleScan collation).result fitments := result_vehicles collation fitments ▸ mem
    obtain ⟨d, kept, same⟩ := Scan.of_result there
    obtain ⟨d_mem, accepted⟩ := Scan.mem_of_kept kept
    exact ⟨d, d_mem, accepted, (VehicleFitment.accepted_iff.mp accepted).2, same⟩

/-- The projected columns are a function of the evidence just where the evidence is not ambiguous. -/
theorem enrichment_faithful_iff (evidence : Evidence) : Faithful collation evidence ↔ Unambiguous collation evidence := by
  constructor
  · intro faithful
    obtain ⟨someCodes, codesArranged⟩ := Scan.exists_arranged (numbersScan collation true) evidence.crossCodes
    obtain ⟨someFitments, fitmentsArranged⟩ := Scan.exists_arranged (vehicleScan collation) evidence.fitments
    have settled : (vehicleScan collation).Settled evidence.fitments := by
      refine (Scan.same_result_iff fun a b same => (vehicle_own collation a b same).1).mp fun l l' arranged arranged' => ?_
      exact ((refresh_eq_iff collation).mp (faithful.same ⟨0, [], [], []⟩ someCodes someCodes l l' ⟨codesArranged, arranged⟩
        ⟨codesArranged, arranged'⟩)).2
    refine ⟨fun oem => ?_, settled, ?_⟩
    · refine (Scan.same_result_iff fun a b same => same).mp fun l l' arranged arranged' => ?_
      exact ((refresh_eq_iff collation).mp (faithful.same ⟨0, [], [], []⟩ l l' someFitments someFitments ⟨arranged, fitmentsArranged⟩
        ⟨arranged', fitmentsArranged⟩)).1 oem
    · refine (Scan.represents_iff (vehicle_own collation) settled).mp fun before fitment after arranged accepted room => ?_
      have projects := faithful.projects ⟨0, [], [], []⟩ someCodes _ ⟨codesArranged, arranged⟩
      rw [← applicabilityOf_eq] at room
      obtain ⟨entry, here, key, from_, to_⟩ := projects.vehicles before fitment after rfl accepted room
      obtain ⟨d, d_mem, d_accepted, -, rfl⟩ := projects.approved entry here
      refine ⟨d, arranged.1.mem_iff.mp d_mem, d_accepted, key, Prod.ext from_ to_, ?_⟩
      rw [result_vehicles]
      exact here
  · intro unambiguous
    have numbers (oem : Bool) := (Scan.same_result_iff fun a b same => same).mpr (unambiguous.numbers oem)
    have applicability := (Scan.same_result_iff fun a b same => (vehicle_own collation a b same).1).mpr unambiguous.vehicles
    have same (product : EnrichedProduct) {crossCodes crossCodes' : List ProductCrossCode} {fitments fitments' : List VehicleFitment}
        (first : Answers collation evidence crossCodes fitments) (second : Answers collation evidence crossCodes' fitments') :
        refreshProductDenormalizedEnrichment product crossCodes fitments =
          refreshProductDenormalizedEnrichment product crossCodes' fitments' :=
      (refresh_eq_iff collation).mpr ⟨fun oem => numbers oem _ _ first.crossCodes second.crossCodes,
        applicability _ _ first.fitments second.fitments⟩
    have vehicles := (Scan.represents_iff (vehicle_own collation) unambiguous.vehicles).mpr unambiguous.dates
    exact ⟨fun product _ _ _ _ first second => same product first second,
      fun product _ _ _ _ first second => (same product first second).symm,
      fun product _ _ answers => projects_refresh collation answers vehicles⟩

end Faithfulness

/-! ## Two products whose columns are ambiguous -/

def codePoints : Collation (List Char) := ⟨id, Function.injective_id⟩

def approvedFitment (id : ℕ) (source dateFrom modification : String) : VehicleFitment where
  id := id
  sourceId := source.toList
  make := "BMW".toList
  model := "X5".toList
  generation := "E70".toList
  dateFrom := dateFrom.toList
  dateTo := []
  modification := modification.toList
  engineCode := []
  powerHp := some 306
  confidence := 1
  needsReview := false
  reviewStatus := .approved

def tiedEvidence : Evidence where
  crossCodes := []
  fitments := [approvedFitment 1 "tachka" "2010" "xDrive35i", approvedFitment 2 "tachka" "2010" "xDrive30d"]
  crossCodesUnique := List.nodup_nil
  fitmentsUnique := by decide +kernel

def redatedEvidence : Evidence where
  crossCodes := []
  fitments := [approvedFitment 1 "rossko" "2010" "xDrive35i", approvedFitment 2 "tachka" "2007" "xDrive35i"]
  crossCodesUnique := List.nodup_nil
  fitmentsUnique := by decide +kernel

theorem tied_and_redated_fitments : ¬ Faithful codePoints tiedEvidence ∧ ¬ Faithful codePoints redatedEvidence := by
  constructor
  · intro faithful
    have forth : Answers codePoints tiedEvidence [] tiedEvidence.fitments :=
      ⟨⟨.nil, .nil⟩, .refl _, List.pairwise_pair.mpr (decide_eq_true (le_of_eq rfl))⟩
    have back : Answers codePoints tiedEvidence [] tiedEvidence.fitments.reverse :=
      ⟨⟨.nil, .nil⟩, List.reverse_perm _, List.pairwise_pair.mpr (decide_eq_true (le_of_eq rfl))⟩
    have same := faithful.same ⟨7, [], [], []⟩ _ _ _ _ forth back
    exact absurd same (by decide +kernel)
  · intro faithful
    have rank : fitmentRank codePoints (approvedFitment 1 "rossko" "2010" "xDrive35i") ≤
        fitmentRank codePoints (approvedFitment 2 "tachka" "2007" "xDrive35i") :=
      Prod.Lex.toLex_le_toLex.mpr (.inl (by decide +kernel))
    have answers : Answers codePoints redatedEvidence [] redatedEvidence.fitments :=
      ⟨⟨.nil, .nil⟩, .refl _, List.pairwise_pair.mpr (decide_eq_true rank)⟩
    obtain ⟨entry, here, -, from_, -⟩ := (faithful.projects ⟨7, [], [], []⟩ _ _ answers).vehicles [approvedFitment 1 "rossko" "2010" "xDrive35i"]
      (approvedFitment 2 "tachka" "2007" "xDrive35i") [] rfl (by decide +kernel) (by decide +kernel)
    have only : entry = (approvedFitment 1 "rossko" "2010" "xDrive35i").entry := List.mem_singleton.mp here
    rw [only] at from_
    exact absurd from_ (by decide +kernel)

end MapBackend.Products.Enrichment
