import MapBackend.AIAgent.ProviderOperations
import MapBackend.Library.Scans

/-!
The recovery of paid results whose worker died.
-/

namespace MapBackend.AIAgent
open MapBackend.Library MapBackend.Billing MapBackend.Core

def AIProviderOperation.isPending (o : AIProviderOperation) : Bool :=
  decide (o.status = .settled) && decide (o.applyState = .pending)

namespace OperationStore

/-- `WebResearchService.apply_ai_provider_operation`. What the parsing of the payload and the writes to
the research tables raise is an answer of the environment. -/
def applyResearchProviderOperation (s : OperationStore) (id : ℕ) (raised : Option OperationError) (now : Instant) :
    Except OperationError (OperationStore × Unit) := do
  let o ← s.get id
  raiseIf (o.status ≠ .settled ∨ o.taskType ≠ .webResearch ∨ o.domainType ≠ .webResearchRun)
    (.state "Операция не содержит завершённый результат исследования.")
  let runId ← orRaise (.state "Некорректная ссылка операции на исследование.") (intOf o.domainReference)
  let _ ← orRaise .doesNotExist
    (s.runs.find? fun row => decide ((row.pk : ℤ) = runId) && decide (row.tenant = o.tenant))
  if o.applyState = .applied then .ok (s, ())
  else do
    raiseIf (o.applyState ≠ .pending) (.state "Результат исследования не ожидает применения.")
    let _ ← orRaise (.state "Durable AI-результат исследования отсутствует.") (o.validatedResult.filter Json.isObject)
    match raised with
    | some error => .error error
    | none => .ok (s.save { o with applyState := .applied, appliedAt := some now }, ())

/-- What a run reads outside the store: the answers of the research tables and the clock. -/
structure RecoveryRequest where
  research : ℕ → Option OperationError
  now : ℕ → Instant

/-- The attempt that a run makes on one operation. A domain type outside the choices raises. -/
def applyResult (s : OperationStore) (r : RecoveryRequest) (id : ℕ) : Except OperationError (OperationStore × Unit) := do
  let o ← s.get id
  match o.domainType with
  | .product => do
    let (s, _) ← s.applyDescriptionProviderOperation id (r.now id)
    .ok (s, ())
  | .webResearchRun => s.applyResearchProviderOperation id (r.research id) (r.now id)

def pendingResults (s : OperationStore) (limit : ℕ) : List ℕ :=
  (((s.operations.filter AIProviderOperation.isPending).insertionSort fun a b => a.createdAt ≤ b.createdAt).take limit).map
    AIProviderOperation.id

structure RecoverySummary where
  selected : ℕ
  applied : ℕ
  failed : ℕ

def recoverOne (r : RecoveryRequest) (progress : OperationStore × ℕ × ℕ) (id : ℕ) : OperationStore × ℕ × ℕ :=
  match progress.1.applyResult r id with
  | .ok (s, _) => (s, progress.2.1 + 1, progress.2.2)
  | .error _ => (progress.1, progress.2.1, progress.2.2 + 1)

def applyPendingAiProviderResults (s : OperationStore) (limit : ℕ) (r : RecoveryRequest) :
    Except OperationError (OperationStore × RecoverySummary) := do
  raiseIf (¬ (1 ≤ limit ∧ limit ≤ 1000)) (.value "limit must be between 1 and 1000")
  let operationIds := s.pendingResults limit
  let (s, applied, failed) := operationIds.foldl (recoverOne r) (s, 0, 0)
  .ok (s, ⟨operationIds.length, applied, failed⟩)

/-! ## Unbounded runs -/

inductive RecoveryAction where
  | recover (request : RecoveryRequest)
  | step (step : OperationStep)
  /-- The worker of a research run applies its own result. -/
  | applyResearch (id : ℕ) (raised : Option OperationError) (now : Instant)

def RecoveryAction.Recovers : RecoveryAction → Prop
  | .recover _ => True
  | _ => False

def recovery (limit : ℕ) (s : OperationStore) : RecoveryAction → OperationStore
  | .recover r => commit s (s.applyPendingAiProviderResults limit r)
  | .step step => s.perform step
  | .applyResearch id raised now => commit s (s.applyResearchProviderOperation id raised now)

def ids (s : OperationStore) : List ℕ := s.operations.map AIProviderOperation.id

def waits (s : OperationStore) (id : ℕ) : Bool := s.operations.any fun o => decide (o.id = id) && o.isPending

def applied (s : OperationStore) (id : ℕ) : Bool := s.operations.any fun o => decide (o.id = id) && decide (o.applyState = .applied)

/-- The payload is valid and its owner is there: an attempt on the pending operation succeeds. -/
def applicable (s : OperationStore) (o : AIProviderOperation) (raised : Option OperationError) : Bool :=
  match o.domainType with
  | .product =>
    decide (o.taskType = .descriptionGeneration) && (descriptionResult o.validatedResult).toOption.isSome &&
      (intOf o.domainReference).any fun productId => s.products.any fun row =>
        decide ((row.pk : ℤ) = productId) && decide (row.tenant = o.tenant) && row.deletedAt.isNone
  | .webResearchRun =>
    decide (o.taskType = .webResearch) && o.validatedResult.any Json.isObject && raised.isNone &&
      (intOf o.domainReference).any fun runId => s.runs.any fun row =>
        decide ((row.pk : ℤ) = runId) && decide (row.tenant = o.tenant)

/-- An attempt on the operation in this state would succeed: one that a run makes or that its worker does. -/
def Succeeds (s : OperationStore) (action : RecoveryAction) (id : ℕ) : Prop :=
  match action with
  | .recover r => ∃ o ∈ s.operations, o.id = id ∧ s.applicable o (r.research id) = true
  | .step (.applyDescription target _) =>
    target = id ∧ ∃ o ∈ s.operations, o.id = id ∧ o.domainType = .product ∧ s.applicable o none = true
  | .step _ => False
  | .applyResearch target raised _ =>
    target = id ∧ ∃ o ∈ s.operations, o.id = id ∧ o.domainType = .webResearchRun ∧ s.applicable o raised = true

/-- A run of the system without end: the recovery comes back, and the clock does not run backward while
new operations are begun. The table is listed in the order of creation. -/
structure RecoverySchedule where
  limit : ℕ
  start : OperationStore
  actions : ℕ → RecoveryAction
  valid : 1 ≤ limit ∧ limit ≤ 1000
  keys : start.ids.Nodup
  ordered : start.operations.Pairwise fun a b => a.createdAt ≤ b.createdAt
  recurs : ∀ t, ∃ u, t ≤ u ∧ (actions u).Recovers
  forward : ∀ t r, actions t = .step (.begin r) → ∀ o ∈ (trace (recovery limit) start actions t).operations, o.createdAt ≤ r.now

namespace RecoverySchedule

variable (h : RecoverySchedule)

def state (t : ℕ) : OperationStore := trace (recovery h.limit) h.start h.actions t

def Attempts (t id : ℕ) : Prop := (h.actions t).Recovers ∧ id ∈ (h.state t).pendingResults h.limit

def older (t id : ℕ) : List ℕ := (h.state t).ids.takeWhile fun other => other != id

def Orphaned (t id : ℕ) : Prop :=
  (h.state t).waits id = true ∧ ∀ u, t ≤ u → (h.state u).Succeeds (h.actions u) id → (h.actions u).Recovers

/-- Every paid result that the recovery has to apply is attempted, and one whose attempts succeed is applied. -/
structure Served : Prop where
  attempted : ∀ t id, h.Orphaned t id → ∃ u, t ≤ u ∧ h.Attempts u id
  applied : ∀ t id, (h.state t).waits id = true → (∀ u, t ≤ u → h.Attempts u id → (h.state u).Succeeds (h.actions u) id) →
    ∃ u, t ≤ u ∧ (h.state u).applied id = true

def Unblocked : Prop := ∀ t id, h.Orphaned t id →
  (blockers (fun u => (h.state u).waits) (fun u => (h.state u).Succeeds (h.actions u)) (h.older t id) t).length < h.limit

end RecoverySchedule

end OperationStore

end MapBackend.AIAgent
