import MapBackend.Library.Distinct
import MapBackend.Core.PublicUrl
import Mathlib.Data.Rat.Defs

/-!
The vehicles that the pages of the part sources list for a part.
-/

namespace MapBackend.Products.Sources
open MapBackend.Library MapBackend.Core

structure ParsedFitment where
  make : Text := []
  model : Text := []
  generation : Text := []
  dateFrom : Text := []
  dateTo : Text := []
  modification : Text := []
  engineCode : Text := []
  powerHp : Option ℤ := none
  rawText : Text := []
  confidence : ℚ := 1
  needsReview : Bool := false
deriving DecidableEq

structure FitmentKey where
  make : Text
  model : Text
  generation : Text
  modification : Text
  engineCode : Text
  powerHp : Option ℤ
deriving DecidableEq

section Dedupe

-- `str.casefold`.
variable (casefold : Text → Text)

def ParsedFitment.key (fitment : ParsedFitment) : FitmentKey where
  make := casefold fitment.make
  model := casefold fitment.model
  generation := casefold fitment.generation
  modification := casefold fitment.modification
  engineCode := casefold fitment.engineCode
  powerHp := fitment.powerHp

def dedupeStep (state : List ParsedFitment × List FitmentKey) (fitment : ParsedFitment) :
    List ParsedFitment × List FitmentKey :=
  if fitment.model = [] ∨ fitment.key casefold ∈ state.2 then state
  else (state.1 ++ [fitment], fitment.key casefold :: state.2)

def dedupeFitments (fitments : List ParsedFitment) : List ParsedFitment :=
  (fitments.foldl (dedupeStep casefold) ([], [])).1.take 500

def named (fitments : List ParsedFitment) : List ParsedFitment :=
  fitments.filter fun fitment => decide (fitment.model ≠ [])

theorem foldl_dedupeStep (fitments kept : List ParsedFitment) (seen : List FitmentKey) :
    (fitments.foldl (dedupeStep casefold) (kept, seen)).1 =
      kept ++ distinct (ParsedFitment.key casefold) seen (named fitments) := by
  induction fitments generalizing kept seen with
  | nil => simp [named, distinct]
  | cons fitment _ ih =>
    rw [List.foldl_cons]
    by_cases nameless : fitment.model = []
    · rw [dedupeStep, if_pos (.inl nameless), ih, named, named,
        List.filter_cons_of_neg (by simpa using nameless)]
    · rw [named, List.filter_cons_of_pos (by simpa using nameless), distinct, dedupeStep]
      by_cases before : fitment.key casefold ∈ seen
      · rw [if_pos (.inr before), if_pos before, ih, named]
      · rw [if_neg (not_or.mpr ⟨nameless, before⟩), if_neg before, ih, named, List.append_assoc,
          List.singleton_append]

theorem dedupeFitments_eq (fitments : List ParsedFitment) :
    dedupeFitments casefold fitments =
      (distinct (ParsedFitment.key casefold) [] (named fitments)).take 500 := by
  rw [dedupeFitments, foldl_dedupeStep, List.nil_append]

variable {casefold} {fitments : List ParsedFitment} {fitment kept : ParsedFitment}

theorem mem_named : fitment ∈ named fitments ↔ fitment ∈ fitments ∧ fitment.model ≠ [] := by
  simp [named]

theorem dedupeFitments_sublist (fitments : List ParsedFitment) :
    (dedupeFitments casefold fitments).Sublist (named fitments) := by
  rw [dedupeFitments_eq]
  exact (List.take_sublist 500 _).trans (distinct.sublist _ _ _)

theorem dedupeFitments_nodup (fitments : List ParsedFitment) :
    ((dedupeFitments casefold fitments).map (ParsedFitment.key casefold)).Nodup := by
  rw [dedupeFitments_eq, List.map_take]
  exact (List.take_sublist 500 _).nodup (distinct.nodup _ _ _)

theorem dedupeFitments_of_nodup (identities : (fitments.map (ParsedFitment.key casefold)).Nodup)
    (models : ∀ fitment ∈ fitments, fitment.model ≠ []) (few : fitments.length ≤ 500) :
    dedupeFitments casefold fitments = fitments := by
  have all : named fitments = fitments := List.filter_eq_self.mpr (by simpa using models)
  rw [dedupeFitments_eq, all, distinct.eq_self identities (by simp), List.take_of_length_le few]

theorem dedupeFitments_covers (mem : fitment ∈ fitments) (model : fitment.model ≠ []) :
    (∃ kept ∈ dedupeFitments casefold fitments, kept.key casefold = fitment.key casefold) ∨
      (dedupeFitments casefold fitments).length = 500 := by
  rw [dedupeFitments_eq]
  rcases Nat.lt_or_ge (distinct (ParsedFitment.key casefold) [] (named fitments)).length 500 with few | _
  · rw [List.take_of_length_le few.le]
    exact .inl ((distinct.covers (mem_named.mpr ⟨mem, model⟩)).resolve_left List.not_mem_nil)
  · exact .inr (by rw [List.length_take]; omega)

def ParsedFitment.SameVehicle (casefold : Text → Text) (first second : ParsedFitment) : Prop :=
  first.key casefold = second.key casefold ∧
    first.dateFrom = second.dateFrom ∧ first.dateTo = second.dateTo

/-- What a pass keeps: in the order of the input, one fitment of each identity, which is the first one
that names a model. The years are no part of the identity, and a page that names more than 500 vehicles
is cut. -/
theorem dedupe_keeps_identities (casefold : Text → Text) (fitments : List ParsedFitment) :
    (dedupeFitments casefold fitments).Sublist fitments ∧
      ((dedupeFitments casefold fitments).map (ParsedFitment.key casefold)).Nodup ∧
      dedupeFitments casefold (dedupeFitments casefold fitments) = dedupeFitments casefold fitments ∧
      (∀ fitment ∈ fitments, fitment.model ≠ [] →
        (∃ kept ∈ dedupeFitments casefold fitments, kept.key casefold = fitment.key casefold) ∨
          (dedupeFitments casefold fitments).length = 500) ∧
      ∀ kept ∈ dedupeFitments casefold fitments,
        (named fitments).find? (fun other => decide (other.key casefold = kept.key casefold)) = some kept := by
  have models : ∀ kept ∈ dedupeFitments casefold fitments, kept.model ≠ [] := fun kept mem =>
    (mem_named.mp ((dedupeFitments_sublist fitments).subset mem)).2
  refine ⟨(dedupeFitments_sublist fitments).trans List.filter_sublist, dedupeFitments_nodup fitments,
    dedupeFitments_of_nodup (dedupeFitments_nodup fitments) models ?_,
    fun fitment mem model => dedupeFitments_covers mem model, fun kept mem => ?_⟩
  · exact List.length_take_le 500 _
  · rw [dedupeFitments_eq] at mem
    exact distinct.first (List.mem_of_mem_take mem)

end Dedupe

def toyotaCamry (dateFrom dateTo : String) : ParsedFitment :=
  { make := "TOYOTA".toList, model := "CAMRY".toList, dateFrom := dateFrom.toList, dateTo := dateTo.toList }

theorem later_years_dropped : ¬ ∀ (casefold : Text → Text) (fitments : List ParsedFitment),
    ∀ fitment ∈ fitments, ∃ kept ∈ dedupeFitments casefold fitments, kept.SameVehicle casefold fitment := by
  intro keeps
  obtain ⟨kept, mem, same⟩ := keeps id [toyotaCamry "2006" "2011", toyotaCamry "2011" "2014"]
    (toyotaCamry "2011" "2014") (by simp)
  have first : kept = toyotaCamry "2006" "2011" := by
    have one : dedupeFitments id [toyotaCamry "2006" "2011", toyotaCamry "2011" "2014"] =
        [toyotaCamry "2006" "2011"] := by decide +kernel
    rw [one] at mem
    exact List.mem_singleton.mp mem
  have years : (toyotaCamry "2006" "2011").dateFrom = (toyotaCamry "2011" "2014").dateFrom := first ▸ same.2.1
  revert years
  decide +kernel

end MapBackend.Products.Sources
