import MapBackend.WebResearch.ResearchDelivery

/-!
When a paid result can be applied.
-/

namespace MapBackend.WebResearch
open MapBackend.Library MapBackend.Core Products.Import

/-! ## The loops -/

/-- The statements in a row can be stored over tables with so many rows of each key: what is cited can be said, no record is
there twice, and one that is not there when it is first mentioned can be made. -/
structure Accepts (lib : ResearchLibrary) (run : ResearchRun) (evidence : List WebResearchEvidence) (counts : RecordKey → ℕ)
    (statements : List Statement) : Prop where
  sayable : ∀ statement ∈ statements, Cites evidence statement → Sayable lib statement
  single : ∀ statement ∈ statements, Cites evidence statement → counts (statement.record.key lib run) ≤ 1
  records : ∀ before statement after, statements = before ++ statement :: after → Cites evidence statement →
    counts (statement.record.key lib run) = 0 →
    (∀ other ∈ before, Cites evidence other → other.record.key lib run ≠ statement.record.key lib run) →
    insertable lib (citedRows evidence statement.evidenceIds) statement.record = true

variable {lib : ResearchLibrary} {run : ResearchRun} {s t : ResearchStore} {evidence : List WebResearchEvidence} {now : Instant}
  {statement : Statement} {statements : List Statement} {claims claims' : List WebResearchClaim} {counts : RecordKey → ℕ}

theorem accepts_uncited (silent : ¬ Cites evidence statement) :
    Accepts lib run evidence counts (statement :: statements) ↔ Accepts lib run evidence counts statements := by
  constructor
  · intro all
    refine ⟨fun other mem => all.sayable other (List.mem_cons_of_mem _ mem), fun other mem => all.single other (List.mem_cons_of_mem _ mem), ?_⟩
    rintro before other after rfl cites none first
    refine all.records (statement :: before) other after rfl cites none ?_
    exact List.forall_mem_cons.mpr ⟨fun cited => absurd cited silent, first⟩
  · intro rest
    refine ⟨List.forall_mem_cons.mpr ⟨fun cited => absurd cited silent, rest.sayable⟩,
      List.forall_mem_cons.mpr ⟨fun cited => absurd cited silent, rest.single⟩, ?_⟩
    intro before other after parts cites none first
    cases before with
    | nil =>
      obtain ⟨rfl, -⟩ := List.cons.inj parts
      exact absurd cites silent
    | cons _ before =>
      obtain ⟨rfl, later⟩ := List.cons.inj parts
      exact rest.records before other after later cites none (List.forall_mem_cons.mp first).2

theorem bump_le_one {key : RecordKey} (single : counts key ≤ 1) {other : RecordKey} : bump counts key other ≤ 1 ↔ counts other ≤ 1 := by
  unfold bump
  split
  · next new =>
    rw [new.1]
    exact iff_of_true le_rfl single
  · exact Iff.rfl

theorem bump_eq_zero {key other : RecordKey} : bump counts key other = 0 ↔ counts other = 0 ∧ key ≠ other := by
  unfold bump
  split
  · next new => exact ⟨fun never => absurd never Nat.one_ne_zero, fun both => absurd new.1.symm both.2⟩
  · next old =>
    constructor
    · exact fun none => ⟨none, fun same => old ⟨same.symm, none⟩⟩
    · exact fun both => both.1

theorem accepts_cited (cites : Cites evidence statement) : Accepts lib run evidence counts (statement :: statements) ↔
    (Sayable lib statement ∧ counts (statement.record.key lib run) ≤ 1 ∧
      (counts (statement.record.key lib run) = 0 →
        insertable lib (citedRows evidence statement.evidenceIds) statement.record = true)) ∧
      Accepts lib run evidence (bump counts (statement.record.key lib run)) statements := by
  constructor
  · intro all
    have single := all.single statement List.mem_cons_self cites
    refine ⟨⟨all.sayable statement List.mem_cons_self cites, single, fun none => ?_⟩, ?_, ?_, ?_⟩
    · exact all.records [] statement statements rfl cites none (List.forall_mem_nil _)
    · exact fun other mem => all.sayable other (List.mem_cons_of_mem _ mem)
    · exact fun other mem cited => (bump_le_one single).mpr (all.single other (List.mem_cons_of_mem _ mem) cited)
    · rintro before other after rfl cited none first
      obtain ⟨none, apart⟩ := bump_eq_zero.mp none
      exact all.records (statement :: before) other after rfl cited none (List.forall_mem_cons.mpr ⟨fun _ => apart, first⟩)
  · rintro ⟨⟨sayable, single, record⟩, rest⟩
    refine ⟨List.forall_mem_cons.mpr ⟨fun _ => sayable, rest.sayable⟩, List.forall_mem_cons.mpr ⟨fun _ => single, ?_⟩, ?_⟩
    · exact fun other mem cited => (bump_le_one single).mp (rest.single other mem cited)
    · intro before other after parts cited none first
      cases before with
      | nil =>
        obtain ⟨rfl, -⟩ := List.cons.inj parts
        exact record none
      | cons _ before =>
        obtain ⟨rfl, later⟩ := List.cons.inj parts
        obtain ⟨apart, first⟩ := List.forall_mem_cons.mp first
        exact rest.records before other after later cited (bump_eq_zero.mpr ⟨none, apart cites⟩) first

def said : Except SaveError (Option Statement) → Option Statement
  | .ok (some statement) => some statement
  | _ => none

theorem saves_iff {items : List (Except SaveError (Option Statement))} :
    (∃ result, items.foldlM (saveNext lib run evidence now) (s, claims) = .ok result) ↔
      (∀ item ∈ items, ∃ made, item = .ok made) ∧ Accepts lib run evidence (copies s) (items.filterMap said) := by
  induction items generalizing s claims with
  | nil =>
    refine iff_of_true ⟨_, rfl⟩ ⟨List.forall_mem_nil _, ⟨List.forall_mem_nil _, List.forall_mem_nil _, ?_⟩⟩
    intro before statement after parts
    exact absurd parts.symm (List.append_ne_nil_of_right_ne_nil _ (List.cons_ne_nil _ _))
  | cons item rest ih =>
    rw [List.foldlM_cons, List.forall_mem_cons]
    match item with
    | .error error =>
      constructor
      · rintro ⟨result, step⟩
        obtain ⟨_, first, -⟩ := bind_ok.mp step
        cases first
      · rintro ⟨⟨⟨made, same⟩, -⟩, -⟩
        cases same
    | .ok none =>
      rw [List.filterMap_cons_none rfl]
      have made : (∃ made, (.ok none : Except SaveError (Option Statement)) = .ok made) := ⟨none, rfl⟩
      constructor
      · rintro ⟨result, step⟩
        obtain ⟨_, first, step⟩ := bind_ok.mp step
        cases first
        obtain ⟨items, accepts⟩ := ih.mp ⟨result, step⟩
        exact ⟨⟨made, items⟩, accepts⟩
      · rintro ⟨⟨-, items⟩, accepts⟩
        obtain ⟨result, step⟩ := ih.mpr ⟨items, accepts⟩
        exact ⟨result, bind_ok.mpr ⟨(s, claims), rfl, step⟩⟩
    | .ok (some statement) =>
      have shape : ((.ok (some statement) : Except SaveError (Option Statement)) :: rest).filterMap said =
        statement :: rest.filterMap said := rfl
      have made : (∃ made, (.ok (some statement) : Except SaveError (Option Statement)) = .ok made) := ⟨_, rfl⟩
      rw [shape]
      by_cases cites : Cites evidence statement
      · rw [accepts_cited cites, ← @saveStatement_cited lib run s evidence now statement claims cites]
        constructor
        · rintro ⟨result, step⟩
          obtain ⟨⟨t, claims'⟩, first, step⟩ := bind_ok.mp step
          obtain ⟨items, accepts⟩ := ih.mp ⟨result, step⟩
          rw [(saveStatement_effect cites first).1] at accepts
          exact ⟨⟨made, items⟩, ⟨_, first⟩, accepts⟩
        · rintro ⟨⟨-, items⟩, ⟨⟨t, claims'⟩, first⟩, accepts⟩
          rw [← (saveStatement_effect cites first).1] at accepts
          obtain ⟨result, step⟩ := ih.mpr ⟨items, accepts⟩
          exact ⟨result, bind_ok.mpr ⟨(t, claims'), first, step⟩⟩
      · rw [accepts_uncited cites]
        constructor
        · rintro ⟨result, step⟩
          obtain ⟨_, first, step⟩ := bind_ok.mp step
          obtain rfl := Except.ok.inj ((saveStatement_uncited cites).symm.trans first)
          obtain ⟨items, accepts⟩ := ih.mp ⟨result, step⟩
          exact ⟨⟨made, items⟩, accepts⟩
        · rintro ⟨⟨-, items⟩, accepts⟩
          obtain ⟨result, step⟩ := ih.mpr ⟨items, accepts⟩
          exact ⟨result, bind_ok.mpr ⟨(s, claims), saveStatement_uncited cites, step⟩⟩

theorem saves_grounded {items : List (Except SaveError (Option Statement))}
    (step : items.foldlM (saveNext lib run evidence now) (s, claims) = .ok (t, claims')) :
    ∃ new, claims' = claims ++ new ∧ t.claims = s.claims ++ new ∧
      ∀ claim ∈ new, ∃ statement ∈ items.filterMap said, Grounded run evidence statement claim := by
  induction items generalizing s claims with
  | nil =>
    cases step
    exact ⟨[], (List.append_nil _).symm, (List.append_nil _).symm, List.forall_mem_nil _⟩
  | cons item rest ih =>
    rw [List.foldlM_cons] at step
    obtain ⟨⟨u, _⟩, first, step⟩ := bind_ok.mp step
    obtain ⟨new, told, stored, grounded⟩ := ih step
    have later {claim : WebResearchClaim} (mem : claim ∈ new) : ∃ statement ∈ (item :: rest).filterMap said,
        Grounded run evidence statement claim := by
      obtain ⟨statement, inside, ground⟩ := grounded claim mem
      obtain ⟨other, known, same⟩ := List.mem_filterMap.mp inside
      exact ⟨statement, List.mem_filterMap.mpr ⟨other, List.mem_cons_of_mem _ known, same⟩, ground⟩
    match item with
    | .error error => cases first
    | .ok none =>
      cases first
      exact ⟨new, told, stored, fun claim mem => later mem⟩
    | .ok (some statement) =>
      by_cases cites : Cites evidence statement
      · obtain ⟨-, claim, rfl, kept, ground⟩ := saveStatement_effect cites first
        refine ⟨claim :: new, told.trans (List.append_assoc _ _ _), ?_, ?_⟩
        · rw [stored, kept, List.append_assoc, List.singleton_append]
        · exact List.forall_mem_cons.mpr ⟨⟨statement, List.mem_filterMap.mpr ⟨_, List.mem_cons_self, rfl⟩, ground⟩, fun claim mem => later mem⟩
      · obtain ⟨rfl, rfl⟩ := Prod.mk.inj (Except.ok.inj ((saveStatement_uncited cites).symm.trans first))
        exact ⟨new, told, stored, fun claim mem => later mem⟩

/-! ## The answer -/

def statementsOf (lib : ResearchLibrary) (extracted : SourceValue) : List Statement := (responseStatements lib extracted).filterMap said

/-- No vehicle of the answer, of those that are looked at, has a power without an integer. -/
def PowersFinite (lib : ResearchLibrary) (extracted : SourceValue) : Prop :=
  ∀ item ∈ (listField "fitments" extracted).take 30, Url.strip (textField lib "make" item) ≠ [] →
    Url.strip (textField lib "model" item) ≠ [] → infinitePower (fieldOf "power_hp" item) = false

structure Deliverable (lib : ResearchLibrary) (run : ResearchRun) (extracted : SourceValue) (research : ResearchStore) : Prop where
  powers : PowersFinite lib extracted
  accepts : Accepts lib run (research.evidenceOf run) (copies research) (statementsOf lib extracted)

theorem fitmentStatement_made (item : SourceValue) : (∃ made, fitmentStatement lib item = .ok made) ↔
    (Url.strip (textField lib "make" item) ≠ [] → Url.strip (textField lib "model" item) ≠ [] →
      infinitePower (fieldOf "power_hp" item) = false) := by
  unfold fitmentStatement
  split
  · next silent =>
    refine iff_of_true ⟨_, rfl⟩ fun make model => ?_
    exact absurd silent (not_or.mpr ⟨make, model⟩)
  · next named =>
    obtain ⟨make, model⟩ := not_or.mp named
    rw [← powerOf_ok]
    constructor
    · rintro ⟨made, step⟩ - -
      obtain ⟨power, read, -⟩ := map_save_ok.mp step
      exact ⟨power, read⟩
    · intro finite
      obtain ⟨power, read⟩ := finite make model
      exact ⟨_, map_save_ok.mpr ⟨power, read, rfl⟩⟩

theorem responseStatements_made (extracted : SourceValue) :
    (∀ item ∈ responseStatements lib extracted, ∃ made, item = .ok made) ↔ PowersFinite lib extracted := by
  constructor
  · intro all item mem
    refine (fitmentStatement_made item).mp (all _ (List.mem_cons_of_mem _ (List.mem_append_right _ (List.mem_append_left _ ?_))))
    exact List.mem_map_of_mem mem
  · intro finite item mem
    rcases List.mem_cons.mp mem with rfl | mem
    · exact ⟨_, rfl⟩
    rcases List.mem_append.mp mem with code | mem
    · obtain ⟨item, -, rfl⟩ := List.mem_map.mp code
      exact ⟨_, rfl⟩
    rcases List.mem_append.mp mem with vehicle | fact
    · obtain ⟨item, inside, rfl⟩ := List.mem_map.mp vehicle
      exact (fitmentStatement_made item).mpr (finite item inside)
    · obtain ⟨item, -, rfl⟩ := List.mem_map.mp fact
      exact ⟨_, rfl⟩

theorem saveExtractedClaims_ok {extracted : SourceValue} {research : ResearchStore} :
    (∃ result, saveExtractedClaims lib run extracted (research.evidenceOf run) now research = .ok result) ↔
      Deliverable lib run extracted research := by
  rw [saveExtractedClaims, saves_iff, responseStatements_made]
  exact ⟨fun both => ⟨both.1, both.2⟩, fun both => ⟨both.powers, both.accepts⟩⟩

/-! ## The operation -/

/-- A settled operation whose stored result, which the check accepts as this answer, waits for the run. -/
structure AwaitsRun (lib : ResearchLibrary) (ops : AIAgent.OperationStore) (o : AIAgent.AIProviderOperation) (run : ResearchRun)
    (extracted : SourceValue) (research : ResearchStore) : Prop where
  keys : ops.ids.Nodup
  mem : o ∈ ops.operations
  settled : o.status = .settled
  pending : o.applyState = .pending
  task : o.taskType = .webResearch
  domain : o.domainType = .webResearchRun
  reference : AIAgent.intOf o.domainReference = some (run.pk : ℤ)
  known : research.runOf o run.pk = some run
  listed : ⟨run.pk, o.tenant⟩ ∈ ops.runs
  result : ∃ payload, o.validatedResult = some payload ∧ payload.isObject = true ∧ parseResponse lib (lib.compact payload) = .ok extracted

/-- What is promised of an answer that was accepted: its claims are stored, each is grounded, and a settled operation that
waits with it ends applied. -/
structure Delivered (lib : ResearchLibrary) (run : ResearchRun) (extracted : SourceValue) (research : ResearchStore) (now : Instant) :
    Prop where
  saved : ∃ result, saveExtractedClaims lib run extracted (research.evidenceOf run) now research = .ok result
  grounded : ∀ t claims, saveExtractedClaims lib run extracted (research.evidenceOf run) now research = .ok (t, claims) →
    t.claims = research.claims ++ claims ∧ ∀ claim ∈ claims, ∃ statement ∈ statementsOf lib extracted,
      Grounded run (research.evidenceOf run) statement claim
  applied : ∀ ops o later, AwaitsRun lib ops o run extracted research → ∃ ops' research',
    applyAiProviderOperation lib ops research o.id later = .ok (ops', research') ∧
      ∃ row ∈ ops'.operations, row.id = o.id ∧ row.applyState = .applied

theorem mapError_ok {ε ε' α : Type} {f : ε → ε'} {x : Except ε α} {a : α} (made : x = .ok a) : x.mapError f = .ok a := by
  rw [made]
  rfl

variable {extracted : SourceValue} {research : ResearchStore} {ops : AIAgent.OperationStore} {o : AIAgent.AIProviderOperation}

theorem Deliverable.written (deliverable : Deliverable lib run extracted research) (awaits : AwaitsRun lib ops o run extracted research)
    (now : Instant) : ∃ next, writtenResult lib research o now = .ok next := by
  obtain ⟨payload, stored, object, parsed⟩ := awaits.result
  obtain ⟨⟨saved, claims⟩, step⟩ :
      ∃ result, saveExtractedClaims lib run extracted (research.evidenceOf run) now research = .ok result :=
    saveExtractedClaims_ok.mpr deliverable
  obtain ⟨next, written⟩ : ∃ next, writeResult lib research o run payload now = .ok next :=
    ⟨_, bind_ok.mpr ⟨extracted, mapError_ok parsed, bind_ok.mpr ⟨(saved, claims), mapError_ok step, rfl⟩⟩⟩
  exact ⟨next, bind_ok.mpr ⟨run.pk, orRaise_ok.mpr awaits.reference, bind_ok.mpr ⟨run, orRaise_ok.mpr awaits.known,
    bind_ok.mpr ⟨payload, orRaise_ok.mpr (Option.filter_eq_some_iff.mpr ⟨stored, object⟩), written⟩⟩⟩⟩

theorem Deliverable.applied (deliverable : Deliverable lib run extracted research) (awaits : AwaitsRun lib ops o run extracted research)
    (now : Instant) : ∃ ops' research', applyAiProviderOperation lib ops research o.id now = .ok (ops', research') ∧
      ∃ row ∈ ops'.operations, row.id = o.id ∧ row.applyState = .applied := by
  obtain ⟨_, written⟩ := deliverable.written awaits now
  obtain ⟨_, stored, object, -⟩ := awaits.result
  have pending : o.isPending = true := AIAgent.OperationStore.isPending_iff.mpr ⟨awaits.settled, awaits.pending⟩
  have applicable : ops.applicable o none = true := by
    simp only [AIAgent.OperationStore.applicable, awaits.domain, awaits.task, stored, object, awaits.reference, Option.any_some,
      Option.isNone_none, decide_true, Bool.true_and]
    exact List.any_eq_true.mpr ⟨_, awaits.listed, by simp⟩
  obtain ⟨ops', step⟩ := AIAgent.OperationStore.applyResearch_works awaits.keys awaits.mem pending awaits.domain applicable now
  obtain ⟨-, -, changed⟩ := AIAgent.OperationStore.applyResearch_ok awaits.keys awaits.mem pending step
  have raised : raisedBy (writtenResult lib research o now) = none := by
    rw [written]
    rfl
  have here : ops.get o.id = .ok o := AIAgent.OperationStore.get_of_mem awaits.keys awaits.mem
  refine ⟨ops', _, bind_ok.mpr ⟨o, here, bind_ok.mpr ⟨(ops', ()), ?_, rfl⟩⟩,
    AIAgent.OperationStore.AppliedRow o now, ?_, rfl, rfl⟩
  · rw [raised]
    exact step
  · rw [changed.rows]
    exact mem_put.mpr (.inl ⟨rfl, o, awaits.mem, rfl⟩)

def plainResearch (answer : SourceValue) : ResearchLibrary where
  toPageLibrary := plainLibrary
  loads := fun _ => some answer
  dumps := fun _ => []
  compact := fun _ => []
  rankOrder := fun rows => rows.insertionSort fun a b => a.rank ≤ b.rank
  rankOrder_perm := fun rows => List.perm_insertionSort _ rows
  rankOrder_sorted := fun rows => by
    have total : Std.Total fun a b : WebResearchEvidence => a.rank ≤ b.rank := ⟨fun a b => Nat.le_total a.rank b.rank⟩
    have trans : IsTrans WebResearchEvidence fun a b => a.rank ≤ b.rank := ⟨fun a b c => Nat.le_trans⟩
    exact List.pairwise_insertionSort _ rows

def hugeAnswer : Text :=
  "\x7b\"brand\":\"Bosch\",\"brand_evidence_ids\":[1],\"brand_confidence\":1".toList ++ (List.replicate 400 '0' ++
    ",\"cross_codes\":[],\"fitments\":[],\"facts\":[]\x7d".toList)

end MapBackend.WebResearch
