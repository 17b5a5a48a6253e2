import MapBackend.WebResearch.ResearchClaims
import MapBackend.AIAgent.ResultProgress

/-!
When the claims of an answer are stored.
-/

namespace MapBackend.WebResearch
open MapBackend.Library MapBackend.Core Products.Import

variable {lib : ResearchLibrary} {run : ResearchRun} {s t : ResearchStore} {evidence rows : List WebResearchEvidence} {now : Instant}
  {statement : Statement} {statements : List Statement} {claim : WebResearchClaim} {claims : List WebResearchClaim}

/-! ## Numbers -/

def floatLimit : ℕ := 2 ^ 1024 - 2 ^ 970

def tooLarge : SourceValue → Bool
  | .int n => decide (floatLimit ≤ n.natAbs)
  | _ => false

def infinitePower : SourceValue → Bool
  | .special shown => decide (shown ≠ "nan".toList)
  | _ => false

theorem ofRat_finite (n : ℤ) : (∃ x, Double.ofRat n = .finite x) ↔ ¬ floatLimit ≤ n.natAbs := by
  have limit : ((floatLimit : ℕ) : ℚ) = 2 ^ 1024 - 2 ^ 970 := by
    rw [floatLimit, Nat.cast_sub (Nat.pow_le_pow_right (by decide) (by decide)), Nat.cast_pow, Nat.cast_pow, Nat.cast_ofNat]
  rw [Double.ofRat_finite_iff, ← limit, not_le, ← Int.cast_abs, Int.abs_eq_natAbs]
  exact_mod_cast Iff.rfl

theorem ofRat_not_nan (x : ℚ) : Double.ofRat x ≠ .nan := by
  unfold Double.ofRat
  split <;> exact fun same => by cases same

theorem floatOf_ok (value : SourceValue) : (∃ number, floatOf value = .ok number) ↔ tooLarge value = false := by
  cases value with
  | int n =>
    rw [tooLarge, decide_eq_false_iff_not, ← ofRat_finite]
    cases shape : Double.ofRat n with
    | finite => simp [floatOf, shape]
    | infinity => simp [floatOf, shape]
    | nan => exact absurd shape (ofRat_not_nan _)
  | _ => simp [floatOf, tooLarge]

theorem powerOf_ok (value : SourceValue) : (∃ power, powerOf value = .ok power) ↔ infinitePower value = false := by
  cases value with
  | special shown =>
    by_cases nan : shown = "nan".toList
    · simp [powerOf, infinitePower, nan]
    · rw [powerOf, if_neg nan, infinitePower, decide_eq_true nan]
      exact ⟨fun ⟨_, made⟩ => (by cases made), fun never => (by cases never)⟩
  | _ => simp [powerOf, infinitePower]

theorem cap_nonneg (two : Bool) : 0 ≤ confidenceCap two := Double.roundSize_nonneg (by cases two <;> norm_num)

theorem cap_le : confidenceCap false ≤ confidenceCap true := by decide +kernel

theorem clampConfidence_bounds {cap : ℚ} (nonneg : 0 ≤ cap) (number : Option Double) :
    0 ≤ clampConfidence cap number ∧ clampConfidence cap number ≤ cap := by
  cases number with
  | none => exact ⟨le_rfl, nonneg⟩
  | some number =>
    cases number with
    | finite => exact ⟨le_max_left _ _, max_le nonneg (min_le_right _ _)⟩
    | infinity negative =>
      cases negative
      · exact ⟨nonneg, le_rfl⟩
      · exact ⟨le_rfl, nonneg⟩
    | nan => exact ⟨le_rfl, nonneg⟩

theorem map_save_ok {α β : Type} {f : α → β} {x : Except SaveError α} {b : β} : x.map f = .ok b ↔ ∃ a, x = .ok a ∧ f a = b := by
  cases x <;> simp [Except.map]

theorem tooLarge_zero : tooLarge (.int 0) = false := by decide +kernel

theorem tooLarge_truthy (value : SourceValue) : tooLarge (if value.truthy = true then value else .int 0) = tooLarge value := by
  split
  · rfl
  · next empty =>
    cases value with
    | int n =>
      have zero : n = 0 := by simpa [SourceValue.truthy] using empty
      rw [zero]
    | _ => exact tooLarge_zero

theorem normalizedConfidence_ok {cap : ℚ} (value : SourceValue) :
    (∃ confidence, normalizedConfidence cap value = .ok confidence) ↔ tooLarge value = false := by
  rw [← tooLarge_truthy value, ← floatOf_ok]
  constructor
  · rintro ⟨confidence, made⟩
    obtain ⟨number, read, -⟩ := map_save_ok.mp made
    exact ⟨number, read⟩
  · rintro ⟨number, read⟩
    exact ⟨_, map_save_ok.mpr ⟨number, read, rfl⟩⟩

theorem normalizedConfidence_bounds {cap confidence : ℚ} {value : SourceValue} (nonneg : 0 ≤ cap)
    (made : normalizedConfidence cap value = .ok confidence) : 0 ≤ confidence ∧ confidence ≤ cap := by
  obtain ⟨number, -, rfl⟩ := map_save_ok.mp made
  exact clampConfidence_bounds nonneg number

/-! ## Records -/

def copies (s : ResearchStore) (key : RecordKey) : ℕ :=
  (s.facts.filter fun row => decide (row.key = key)).length + (s.fitments.filter fun row => decide (row.key = key)).length

def bump (counts : RecordKey → ℕ) (key other : RecordKey) : ℕ := if other = key ∧ counts other = 0 then 1 else counts other

def powerFits : Option ℤ → Bool
  | none => true
  | some n => decide (0 ≤ n ∧ n ≤ 2147483647)

def insertable (lib : ResearchLibrary) (rows : List WebResearchEvidence) : RecordSpec → Bool
  | .fact _ _ value => (cut 200 ((lib.rankOrder rows).head?.elim [] WebResearchEvidence.url)).isSome && noZero value
  | .fitment fields => (cut 200 ((lib.rankOrder rows).head?.elim [] WebResearchEvidence.url)).isSome && powerFits fields.powerHp

theorem powerColumn_ok (power : Option ℤ) : (∃ stored, powerColumn power = .ok stored) ↔ powerFits power = true := by
  cases power with
  | none => simp [powerColumn, powerFits]
  | some =>
    simp only [powerColumn, powerFits, decide_eq_true_eq]
    split
    · simp; omega
    · split
      · simp; omega
      · simp; omega

theorem powerColumn_value {power : Option ℤ} {stored : Option ℕ} (column : powerColumn power = .ok stored) :
    stored.map Int.ofNat = power := by
  cases power with
  | none =>
    cases column
    rfl
  | some =>
    simp only [powerColumn] at column
    split at column
    · cases column
    · split at column
      · cases column
      · cases column
        exact congrArg some (Int.toNat_of_nonneg (by omega))

theorem copies_fact {tenant product : ℕ} {source factType name hash : Text} : copies s (.fact tenant product source factType name hash) =
    (s.facts.filter fun row => decide (row.key = .fact tenant product source factType name hash)).length := by
  have other : (s.fitments.filter fun row => decide (row.key = .fact tenant product source factType name hash)) = [] :=
    List.filter_eq_nil_iff.mpr fun row _ => by simp [VehicleFitment.key]
  rw [copies, other, List.length_nil, Nat.add_zero]

theorem copies_fitment {tenant product : ℕ} {source make model generation modification engineCode : Text} {power : Option ℤ} :
    copies s (.fitment tenant product source make model generation modification engineCode power) =
      (s.fitments.filter fun row => decide (row.key = .fitment tenant product source make model generation modification engineCode
        power)).length := by
  have other : (s.facts.filter fun row => decide (row.key = .fitment tenant product source make model generation modification
      engineCode power)) = [] := List.filter_eq_nil_iff.mpr fun row _ => by simp [ProductEnrichmentFact.key]
  rw [copies, other, List.length_nil, Nat.zero_add]

theorem saveRecord_ok (spec : RecordSpec) : (∃ result, saveRecord lib run s claim rows now spec = .ok result) ↔
    copies s (spec.key lib run) ≤ 1 ∧ (copies s (spec.key lib run) = 0 → insertable lib rows spec = true) := by
  cases spec with
  | fact =>
    rw [RecordSpec.key, copies_fact, saveRecord, saveFact, RecordSpec.key]
    generalize s.facts.filter _ = found
    match found with
    | [] =>
      simp only [List.length_nil, bind_ok, raiseIf_ok, urlColumn, orRaise_ok, insertable, Bool.and_eq_true, Option.isSome_iff_exists]
      constructor
      · rintro ⟨_, url, fits, _, plain, -⟩
        exact ⟨by omega, fun _ => ⟨⟨url, fits⟩, by simpa using plain⟩⟩
      · rintro ⟨-, need⟩
        obtain ⟨⟨url, fits⟩, plain⟩ := need trivial
        exact ⟨_, url, fits, (), by simpa using plain, rfl⟩
    | [row] => simp
    | first :: second :: rest => simp
  | fitment =>
    rw [RecordSpec.key, copies_fitment, saveRecord, saveFitment, RecordSpec.key]
    generalize s.fitments.filter _ = found
    match found with
    | [] =>
      simp only [List.length_nil, bind_ok, urlColumn, orRaise_ok, insertable, Bool.and_eq_true, Option.isSome_iff_exists,
        ← powerColumn_ok]
      constructor
      · rintro ⟨_, url, fits, power, column, -⟩
        exact ⟨by omega, fun _ => ⟨⟨url, fits⟩, power, column⟩⟩
      · rintro ⟨-, need⟩
        obtain ⟨⟨url, fits⟩, power, column⟩ := need trivial
        exact ⟨_, url, fits, power, column, rfl⟩
    | [row] => simp
    | first :: second :: rest => simp

theorem bump_found {counts : RecordKey → ℕ} {key : RecordKey} (found : counts key ≠ 0) : bump counts key = counts := by
  funext other
  apply if_neg
  rintro ⟨rfl, none⟩
  exact found none

theorem bump_new {counts counts' : RecordKey → ℕ} {key : RecordKey} (none : counts key = 0)
    (more : ∀ other, counts' other = counts other + if key = other then 1 else 0) : counts' = bump counts key := by
  funext other
  rw [more other, bump]
  by_cases same : key = other
  · subst same
    rw [if_pos rfl, if_pos ⟨rfl, none⟩, none]
  · rw [if_neg same, if_neg fun both => same both.1.symm, Nat.add_zero]

theorem copies_add_fact (row : ProductEnrichmentFact) (other : RecordKey) : copies { s with facts := s.facts ++ [row] } other =
    copies s other + if row.key = other then 1 else 0 := by
  simp only [copies, List.filter_append, List.length_append]
  by_cases same : row.key = other
  · simp [same]
    omega
  · simp [same]

theorem copies_add_fitment (row : VehicleFitment) (other : RecordKey) : copies { s with fitments := s.fitments ++ [row] } other =
    copies s other + if row.key = other then 1 else 0 := by
  simp only [copies, List.filter_append, List.length_append]
  by_cases same : row.key = other
  · simp [same]
    omega
  · simp [same]

theorem saveRecord_effect {spec : RecordSpec} {record : SavedRecord} (saved : saveRecord lib run s claim rows now spec = .ok (t, record)) :
    t.claims = s.claims ∧ t.evidence = s.evidence ∧ copies t = bump (copies s) (spec.key lib run) := by
  cases spec with
  | fact factType name value =>
    have count : copies s (RecordSpec.key lib run (.fact factType name value)) = _ := copies_fact
    rw [saveRecord, saveFact] at saved
    rw [RecordSpec.key] at saved ⊢
    rw [RecordSpec.key] at count
    generalize s.facts.filter _ = found at saved count
    match found with
    | [] =>
      obtain ⟨url, -, saved⟩ := bind_ok.mp saved
      obtain ⟨_, -, saved⟩ := bind_ok.mp saved
      cases saved
      exact ⟨rfl, rfl, bump_new count fun other => copies_add_fact _ other⟩
    | [row] =>
      cases saved
      exact ⟨rfl, rfl, (bump_found (by rw [count]; exact Nat.one_ne_zero)).symm⟩
    | first :: second :: rest => cases saved
  | fitment fields =>
    have count : copies s (RecordSpec.key lib run (.fitment fields)) = _ := copies_fitment
    rw [saveRecord, saveFitment] at saved
    rw [RecordSpec.key] at saved ⊢
    rw [RecordSpec.key] at count
    generalize s.fitments.filter _ = found at saved count
    match found with
    | [] =>
      obtain ⟨url, -, saved⟩ := bind_ok.mp saved
      obtain ⟨_, column, saved⟩ := bind_ok.mp saved
      cases saved
      refine ⟨rfl, rfl, bump_new count fun other => ?_⟩
      rw [copies_add_fitment, VehicleFitment.key, powerColumn_value column]
    | [row] =>
      cases saved
      exact ⟨rfl, rfl, (bump_found (by rw [count]; exact Nat.one_ne_zero)).symm⟩
    | first :: second :: rest => cases saved

/-! ## One statement -/

def Cites (evidence : List WebResearchEvidence) (statement : Statement) : Prop := citedRows evidence statement.evidenceIds ≠ []

structure Sayable (lib : ResearchLibrary) (statement : Statement) : Prop where
  number : tooLarge statement.confidence = false
  texts : storablePayload lib statement.payload = true

theorem newClaim_ok : (∃ made, newClaim lib run s rows statement = .ok made) ↔ Sayable lib statement := by
  constructor
  · rintro ⟨made, step⟩
    obtain ⟨confidence, read, step⟩ := bind_ok.mp step
    obtain ⟨_, plain, -⟩ := bind_ok.mp step
    exact ⟨(normalizedConfidence_ok _).mp ⟨confidence, read⟩, by simpa using raiseIf_ok.mp plain⟩
  · rintro ⟨number, texts⟩
    obtain ⟨confidence, read⟩ : ∃ confidence, normalizedConfidence (confidenceCap (twoDomains rows)) statement.confidence =
        .ok confidence := (normalizedConfidence_ok _).mpr number
    have plain : ¬ storablePayload lib statement.payload = false := by rw [texts]; decide
    exact ⟨_, bind_ok.mpr ⟨confidence, read, bind_ok.mpr ⟨(), raiseIf_ok.mpr plain, rfl⟩⟩⟩

theorem newClaim_made {made : WebResearchClaim} (step : newClaim lib run s rows statement = .ok made) :
    ∃ confidence, normalizedConfidence (confidenceCap (twoDomains rows)) statement.confidence = .ok confidence ∧
      made = ⟨freshPk (s.claims.map WebResearchClaim.pk), run.pk, statement.claimType, statement.payload, confidence, .pending,
        rows.map WebResearchEvidence.pk, [], none⟩ := by
  obtain ⟨confidence, read, step⟩ := bind_ok.mp step
  obtain ⟨_, -, step⟩ := bind_ok.mp step
  cases step
  exact ⟨confidence, read, rfl⟩

theorem saveStatement_uncited (silent : ¬ Cites evidence statement) :
    saveStatement lib run evidence now (s, claims) statement = .ok (s, claims) := by
  rw [saveStatement, if_pos (not_not.mp silent)]

theorem saveStatement_cited (cites : Cites evidence statement) :
    (∃ next, saveStatement lib run evidence now (s, claims) statement = .ok next) ↔ Sayable lib statement ∧
      copies s (statement.record.key lib run) ≤ 1 ∧
      (copies s (statement.record.key lib run) = 0 → insertable lib (citedRows evidence statement.evidenceIds) statement.record = true) := by
  have same (claims : List WebResearchClaim) (key : RecordKey) : copies { s with claims } key = copies s key := rfl
  rw [saveStatement, if_neg cites]
  constructor
  · rintro ⟨next, step⟩
    obtain ⟨made, first, step⟩ := bind_ok.mp step
    obtain ⟨⟨t, record⟩, second, -⟩ := bind_ok.mp step
    have room := (saveRecord_ok _).mp ⟨_, second⟩
    rw [same] at room
    exact ⟨newClaim_ok.mp ⟨made, first⟩, room⟩
  · rintro ⟨sayable, room⟩
    obtain ⟨made, first⟩ : ∃ made, newClaim lib run s (citedRows evidence statement.evidenceIds) statement = .ok made :=
      newClaim_ok.mpr sayable
    obtain ⟨⟨t, record⟩, second⟩ : ∃ result, saveRecord lib run { s with claims := s.claims ++ [made] } made
        (citedRows evidence statement.evidenceIds) now statement.record = .ok result := (saveRecord_ok _).mpr room
    exact ⟨_, bind_ok.mpr ⟨made, first, bind_ok.mpr ⟨(t, record), second, rfl⟩⟩⟩

/-- A claim cites rows of the run that the statement names, and is no surer than they allow. -/
structure Grounded (run : ResearchRun) (evidence : List WebResearchEvidence) (statement : Statement) (claim : WebResearchClaim) : Prop where
  run : claim.run = run.pk
  content : claim.claimType = statement.claimType ∧ claim.payload = statement.payload
  cites : claim.evidence ≠ []
  named : ∀ pk ∈ claim.evidence, (pk : ℤ) ∈ statement.evidenceIds ∧ ∃ row ∈ evidence, row.pk = pk
  bounds : 0 ≤ claim.confidence ∧ claim.confidence ≤ confidenceCap true
  alone : (∃ domain, ∀ pk ∈ claim.evidence, ∀ row ∈ evidence, row.pk = pk → row.domain = domain) →
    claim.confidence ≤ confidenceCap false

theorem mem_citedRows {ids : List ℤ} {row : WebResearchEvidence} (mem : row ∈ citedRows evidence ids) :
    row ∈ evidence ∧ (row.pk : ℤ) ∈ ids := by
  obtain ⟨n, listed, found⟩ := List.mem_filterMap.mp mem
  have same : (row.pk : ℤ) = n := of_decide_eq_true (List.find?_some (p := fun row : WebResearchEvidence => decide ((row.pk : ℤ) = n)) found)
  exact ⟨List.mem_of_find?_eq_some found, same ▸ (distinct.sublist _ _ _).subset listed⟩

theorem twoDomains_one {domain : Text} (one : ∀ row ∈ rows, row.domain = domain) : twoDomains rows = false := by
  have sub := distinct.sublist id [] (rows.map WebResearchEvidence.domain)
  have nodup := distinct.nodup id [] (rows.map WebResearchEvidence.domain)
  rw [List.map_id] at nodup
  apply decide_eq_false
  intro two
  match shape : distinct id [] (rows.map WebResearchEvidence.domain), two with
  | first :: second :: rest, _ =>
    rw [shape] at sub nodup
    have each (other : Text) (mem : other ∈ first :: second :: rest) : other = domain := by
      obtain ⟨row, inside, rfl⟩ := List.mem_map.mp (sub.subset mem)
      exact one row inside
    have same : first = second := (each first List.mem_cons_self).trans
      (each second (List.mem_cons_of_mem _ List.mem_cons_self)).symm
    exact (List.nodup_cons.mp nodup).1 (same ▸ List.mem_cons_self)

theorem lt_freshPk {pks : List ℕ} {pk : ℕ} (mem : pk ∈ pks) : pk < freshPk pks := by
  have le : pk ≤ pks.foldr max 0 := by
    induction pks with
    | nil => cases mem
    | cons _ _ ih =>
      rcases List.mem_cons.mp mem with rfl | later
      · exact le_max_left _ _
      · exact (ih later).trans (le_max_right _ _)
  exact Nat.lt_succ_of_le le

theorem put_last {new : WebResearchClaim} (fresh : ∀ old ∈ claims, old.pk ≠ new.pk) (same : claim.pk = new.pk) :
    put WebResearchClaim.pk new (claims ++ [claim]) = claims ++ [new] := by
  rw [put, List.map_append, List.map_singleton, if_pos same]
  congr 1
  calc claims.map (fun old => if old.pk = new.pk then new else old) = claims.map id := List.map_congr_left fun old mem => if_neg (fresh old mem)
    _ = claims := List.map_id _

theorem saveStatement_effect {claims' : List WebResearchClaim} (cites : Cites evidence statement)
    (step : saveStatement lib run evidence now (s, claims) statement = .ok (t, claims')) :
    copies t = bump (copies s) (statement.record.key lib run) ∧ ∃ claim, claims' = claims ++ [claim] ∧ t.claims = s.claims ++ [claim] ∧
      Grounded run evidence statement claim := by
  rw [saveStatement, if_neg cites] at step
  obtain ⟨_, first, step⟩ := bind_ok.mp step
  obtain ⟨⟨u, record⟩, second, step⟩ := bind_ok.mp step
  cases step
  obtain ⟨kept, -, counts⟩ := saveRecord_effect second
  obtain ⟨_, read, rfl⟩ := newClaim_made first
  obtain ⟨nonneg, bound⟩ := normalizedConfidence_bounds (cap_nonneg _) read
  refine ⟨counts, linked _ record, rfl, ?_, rfl, ⟨rfl, rfl⟩, ?_, ?_, ⟨nonneg, ?_⟩, ?_⟩
  · dsimp only at kept ⊢
    rw [kept]
    exact put_last (fun old mem => ne_of_lt (lt_freshPk (List.mem_map_of_mem mem))) rfl
  · exact fun none => cites (List.map_eq_nil_iff.mp none)
  · intro pk mem
    obtain ⟨row, inside, rfl⟩ := List.mem_map.mp mem
    obtain ⟨known, listed⟩ := mem_citedRows inside
    exact ⟨listed, row, known, rfl⟩
  · cases two : twoDomains (citedRows evidence statement.evidenceIds) with
    | false => exact (two ▸ bound).trans cap_le
    | true => exact two ▸ bound
  · rintro ⟨_, one⟩
    have alone : twoDomains (citedRows evidence statement.evidenceIds) = false := twoDomains_one fun row mem =>
      one row.pk (List.mem_map_of_mem mem) row (mem_citedRows mem).1 rfl
    exact alone ▸ bound

end MapBackend.WebResearch
