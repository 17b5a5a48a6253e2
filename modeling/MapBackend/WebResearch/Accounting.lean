import MapBackend.Core.PublicUrl
import MapBackend.Library.Json
import MapBackend.Library.Tables

/-!
The workflows of paid web search and their attempts.
-/

namespace MapBackend.WebResearch
open MapBackend.Library MapBackend.Core

abbrev Instant := ℤ

def second : Instant := 1000000

inductive WorkflowStatus where
  | inProgress
  | applyPending
  | uncertain
  | applied
  | reconciled
  deriving DecidableEq

def WorkflowStatus.active : WorkflowStatus → Bool
  | .inProgress | .applyPending | .uncertain => true
  | .applied | .reconciled => false

def WorkflowStatus.isOpen (status : WorkflowStatus) : Bool := status == .inProgress || status == .applyPending

inductive AttemptStatus where
  | started
  | success
  | empty
  | failed
  | outcomeUncertain
  | skipped
  deriving DecidableEq

def AttemptStatus.answered (status : AttemptStatus) : Bool := status == .success || status == .empty

inductive ReconciliationState where
  | notRequired
  | pending
  | resolved
  deriving DecidableEq

inductive ApplyState where
  | pending
  | applied
  deriving DecidableEq

inductive ReconciliationAction where
  | accepted
  | notAccepted
  deriving DecidableEq

structure WebSearchWorkflow where
  pk : ℕ
  tenant : ℕ
  product : Option ℕ
  run : Option ℕ
  operation : Text
  domainReference : Text
  workflowKey : Text
  inputFingerprint : Text
  /-- The canonical text of the immutable plan. -/
  inputSnapshot : Text
  status : WorkflowStatus
  reconciliationAction : Option ReconciliationAction
  deriving DecidableEq

structure WebSearchAttempt where
  pk : ℕ
  tenant : ℕ
  workflow : ℕ
  run : Option ℕ
  connection : Option ℕ
  providerId : Text
  operation : Text
  callKind : Text
  domainReference : Text
  callKey : Text
  requestFingerprint : Text
  query : Text
  status : AttemptStatus
  retryable : Bool
  errorCode : Text
  errorMessage : Text
  applyState : ApplyState
  checkpoint : Option Text
  reconciliationState : ReconciliationState
  reconciliationAction : Option ReconciliationAction
  createdAt : Instant
  updatedAt : Instant
  deriving DecidableEq

structure WebSearchStore where
  workflows : List WebSearchWorkflow
  attempts : List WebSearchAttempt
  nextWorkflow : ℕ
  nextAttempt : ℕ

namespace WebSearchStore

def workflow (s : WebSearchStore) (pk : ℕ) : Option WebSearchWorkflow := s.workflows.find? fun row => decide (row.pk = pk)

def attempt (s : WebSearchStore) (pk : ℕ) : Option WebSearchAttempt := s.attempts.find? fun row => decide (row.pk = pk)

def attemptsOf (s : WebSearchStore) (workflow : ℕ) : List WebSearchAttempt :=
  s.attempts.filter fun row => decide (row.workflow = workflow)

def saveWorkflow (s : WebSearchStore) (row : WebSearchWorkflow) : WebSearchStore :=
  { s with workflows := put WebSearchWorkflow.pk row s.workflows }

def saveAttempt (s : WebSearchStore) (row : WebSearchAttempt) : WebSearchStore :=
  { s with attempts := put WebSearchAttempt.pk row s.attempts }

def updateAttempts (s : WebSearchStore) (cond : WebSearchAttempt → Bool) (change : WebSearchAttempt → WebSearchAttempt) :
    WebSearchStore := { s with attempts := s.attempts.map fun row => if cond row then change row else row }

end WebSearchStore

structure OwnedRow where
  pk : ℕ
  tenant : ℕ
  deriving DecidableEq

inductive AccountingError where
  | valueError
  | doesNotExist
  | conflict
  | reconciliationRequired
  | limitExceeded
  | provider (code : Text) (retryable outcomeUncertain : Bool)
  deriving DecidableEq

/-- Settings, codecs and the clock. `decode` decrypts a checkpoint and checks its version. -/
structure AccountingEnv where
  now : Instant
  workflowInputMaxBytes : ℕ
  checkpointMaxBytes : ℕ
  startedStaleSeconds : ℕ
  lower : Text → Text
  sha256 : Text → Text
  encrypt : Text → Option Text
  decode : Text → Option Text

structure WebSearchExecution where
  result : Text
  attemptId : ℕ
  workflowId : ℕ
  replayed : Bool
  deriving DecidableEq

/-! ## Workflows -/

structure AcquireRequest where
  tenant : ℕ
  operation : Text
  domainReference : Text
  workflowKey : Text
  /-- The canonical text of the snapshot; what JSON cannot show has none. -/
  inputSnapshot : Option Text
  product : Option OwnedRow
  run : Option OwnedRow

def WebSearchWorkflow.linked (workflow : WebSearchWorkflow) (request : AcquireRequest) : WebSearchWorkflow :=
  { workflow with
    run := workflow.run.orElse fun _ => request.run.map OwnedRow.pk
    product := if workflow.status.active then workflow.product.orElse fun _ => request.product.map OwnedRow.pk
      else workflow.product }

def acquireWebSearchWorkflow (env : AccountingEnv) (request : AcquireRequest) (s : WebSearchStore) :
    Except AccountingError (WebSearchStore × WebSearchWorkflow) := do
  let operation := (env.lower (Url.strip request.operation)).take 50
  let domainReference := (Url.strip request.domainReference).take 160
  let workflowKey := (Url.strip request.workflowKey).take 160
  raiseIf (operation = [] ∨ domainReference = [] ∨ workflowKey = []) .valueError
  raiseIf (∃ run ∈ request.run, run.tenant ≠ request.tenant) .valueError
  raiseIf (∃ product ∈ request.product, product.tenant ≠ request.tenant) .valueError
  let inputSnapshot ← orRaise .valueError request.inputSnapshot
  raiseIf (env.workflowInputMaxBytes < utf8Length inputSnapshot) .valueError
  let inputFingerprint := env.sha256 inputSnapshot
  match s.workflows.find? fun row =>
      decide (row.tenant = request.tenant) && decide (row.operation = operation) && decide (row.workflowKey = workflowKey) with
  | some canonical =>
    raiseIf (canonical.domainReference ≠ domainReference ∨ canonical.inputFingerprint ≠ inputFingerprint ∨
      canonical.inputSnapshot ≠ inputSnapshot ∨
      (∃ run ∈ request.run, canonical.run ≠ none ∧ canonical.run ≠ some run.pk) ∨
      ∃ product ∈ request.product, canonical.product ≠ none ∧ canonical.product ≠ some product.pk) .conflict
    .ok (s.saveWorkflow (canonical.linked request), canonical.linked request)
  | none =>
    raiseIf ((s.workflows.any fun row => decide (row.tenant = request.tenant) && decide (row.operation = operation) &&
      decide (row.domainReference = domainReference) && row.status.active) = true) .reconciliationRequired
    let workflow : WebSearchWorkflow :=
      { pk := s.nextWorkflow, tenant := request.tenant, product := request.product.map OwnedRow.pk
        run := request.run.map OwnedRow.pk, operation, domainReference, workflowKey, inputFingerprint, inputSnapshot
        status := .inProgress, reconciliationAction := none }
    .ok ({ s with workflows := s.workflows ++ [workflow], nextWorkflow := s.nextWorkflow + 1 }, workflow)

def WebSearchWorkflow.observing (workflow : WebSearchWorkflow) (attempt : WebSearchAttempt) : WebSearchWorkflow :=
  if attempt.status = .started ∧ attempt.reconciliationState = .pending ∧ workflow.status ≠ .uncertain then
    { workflow with status := .uncertain }
  else workflow

/-! ## Replay -/

def codecError : Text := "provider_checkpoint_codec_error".toList

def durableProviderError (attempt : WebSearchAttempt) : AccountingError :=
  .provider (if attempt.errorCode = [] then "provider_error".toList else attempt.errorCode) attempt.retryable
    (decide (attempt.reconciliationState = .pending))

/-- `_decode_checkpoint`, with the code of its error. -/
def decodeCheckpoint (env : AccountingEnv) (attempt : WebSearchAttempt) : Except Text Text :=
  match attempt.checkpoint with
  | none => .error "provider_checkpoint_missing".toList
  | some checkpoint => orRaise "provider_checkpoint_invalid".toList (env.decode checkpoint)

def markCheckpointReplayUncertain (env : AccountingEnv) (attemptId : ℕ) (errorCode : Text) (s : WebSearchStore) :
    Except AccountingError (WebSearchStore × WebSearchAttempt) := do
  let attempt ← orRaise .doesNotExist (s.attempt attemptId)
  let workflow ← orRaise .doesNotExist (s.workflow attempt.workflow)
  if attempt.status.answered = true ∧ attempt.applyState = .pending ∧ attempt.reconciliationState = .notRequired ∧
      workflow.status.active = true then
    let marked : WebSearchAttempt :=
      { attempt with
        status := .outcomeUncertain
        retryable := false
        errorCode := errorCode.take 80
        errorMessage := "Paid provider checkpoint could not be restored safely.".toList
        reconciliationState := .pending
        updatedAt := env.now }
    .ok ((s.saveAttempt marked).saveWorkflow { workflow with status := .uncertain }, marked)
  else .ok (s, attempt)

/-- `_restore_execution`: an error that is raised after its mark has been committed is the result. -/
def restoreExecution (env : AccountingEnv) (restore : Text → Except Text Text) (attempt : WebSearchAttempt)
    (requestFingerprint : Text) (s : WebSearchStore) :
    Except AccountingError (WebSearchStore × Except AccountingError WebSearchExecution) :=
  if attempt.requestFingerprint ≠ requestFingerprint then .ok (s, .error .conflict)
  else if attempt.status.answered = true then
    match (decodeCheckpoint env attempt).bind restore with
    | .ok result => .ok (s, .ok ⟨result, attempt.pk, attempt.workflow, true⟩)
    | .error code => do
      let (s, _) ← markCheckpointReplayUncertain env attempt.pk code s
      .ok (s, .error (.provider code false true))
  else .ok (s, .error (durableProviderError attempt))

def replayRecordedWebSearch (env : AccountingEnv) (restore : Text → Except Text Text) (workflowId : ℕ)
    (callKey requestFingerprint : Text) (s : WebSearchStore) :
    Except AccountingError (WebSearchStore × Option (Except AccountingError WebSearchExecution)) := do
  let locked ← orRaise .doesNotExist (s.workflow workflowId)
  match (s.attemptsOf locked.pk).find? fun row => decide (row.callKey = callKey) with
  | none => .ok (s, none)
  | some attempt =>
    let (s, outcome) ← restoreExecution env restore attempt requestFingerprint (s.saveWorkflow (locked.observing attempt))
    .ok (s, some outcome)

/-! ## Reservation -/

structure WebSearchConnection where
  pk : ℕ
  providerId : Text
  requestsPerMinute : ℕ
  monthlyRequestLimit : Option ℕ
  deriving DecidableEq

/-- The local calendar: the month of an instant, counted from some first month. -/
structure Calendar where
  month : Instant → ℕ
  mono : ∀ {a b : Instant}, a ≤ b → month a ≤ month b

structure SearchSettings where
  globalRequestsPerMinute : ℕ
  globalMonthlyRequestLimit : ℕ
  braveMonthlyRequestLimit : ℕ
  tavilyMonthlyRequestLimit : ℕ
  connections : List WebSearchConnection
  calendar : Calendar

def SearchSettings.connection (settings : SearchSettings) (pk : ℕ) : Option WebSearchConnection :=
  settings.connections.find? fun row => decide (row.pk = pk)

def SearchSettings.providerMonthlyLimit (settings : SearchSettings) (providerId : Text) : ℕ :=
  if providerId = "brave".toList then settings.braveMonthlyRequestLimit
  else if providerId = "tavily".toList then settings.tavilyMonthlyRequestLimit
  else settings.globalMonthlyRequestLimit

structure SearchCall where
  workflow : ℕ
  providerId : Text
  query : Text
  callKey : Text
  requestFingerprint : Text
  callKind : Text
  connection : Option ℕ
  run : Option OwnedRow
  deriving DecidableEq

namespace SearchCall

def normalizedProvider (env : AccountingEnv) (call : SearchCall) : Text := env.lower (Url.strip call.providerId)

def normalizedKey (call : SearchCall) : Text := (Url.strip call.callKey).take 160

def normalizedKind (env : AccountingEnv) (call : SearchCall) : Text :=
  let kind := (env.lower (Url.strip call.callKind)).take 30
  if kind = [] then "search".toList else kind

def normalizedQuery (call : SearchCall) : Text := (Url.strip call.query).take 500

def Differs (env : AccountingEnv) (call : SearchCall) (workflow : WebSearchWorkflow) (existing : WebSearchAttempt) : Prop :=
  existing.requestFingerprint ≠ call.requestFingerprint ∨ existing.providerId ≠ call.normalizedProvider env ∨
    existing.callKind ≠ call.normalizedKind env ∨ existing.query ≠ call.normalizedQuery ∨
    existing.connection ≠ call.connection ∨ existing.run ≠ (call.run.map OwnedRow.pk).orElse fun _ => workflow.run

instance (env : AccountingEnv) (call : SearchCall) (workflow : WebSearchWorkflow) (existing : WebSearchAttempt) :
    Decidable (call.Differs env workflow existing) := inferInstanceAs (Decidable (_ ∨ _))

def newAttempt (env : AccountingEnv) (call : SearchCall) (workflow : WebSearchWorkflow) (pk : ℕ) (createdAt : Instant) :
    WebSearchAttempt :=
  { pk, tenant := workflow.tenant, workflow := workflow.pk
    run := (call.run.map OwnedRow.pk).orElse fun _ => workflow.run
    connection := call.connection, providerId := call.normalizedProvider env, operation := workflow.operation
    callKind := call.normalizedKind env, domainReference := workflow.domainReference, callKey := call.normalizedKey
    requestFingerprint := call.requestFingerprint, query := call.normalizedQuery, status := .started, retryable := false
    errorCode := [], errorMessage := [], applyState := .pending, checkpoint := none, reconciliationState := .pending
    reconciliationAction := none, createdAt, updatedAt := createdAt }

end SearchCall

/-- `_counted_attempts`: all but the skipped ones and those that were never sent. -/
def WebSearchAttempt.counted (row : WebSearchAttempt) : Bool :=
  !(row.status == .skipped || row.status == .failed && decide (row.errorCode = "pre_send_failure".toList))

/-- A bound on the counted attempts of a scope and a window; the bound zero is none. -/
structure Quota where
  scope : WebSearchAttempt → Bool
  window : Instant → Bool
  limit : ℕ

def Quota.count (quota : Quota) (attempts : List WebSearchAttempt) : ℕ :=
  attempts.countP fun row => row.counted && quota.scope row && quota.window row.createdAt

def Quota.Exhausted (quota : Quota) (attempts : List WebSearchAttempt) : Prop :=
  quota.limit ≠ 0 ∧ quota.limit ≤ quota.count attempts

instance (quota : Quota) (attempts : List WebSearchAttempt) : Decidable (quota.Exhausted attempts) :=
  inferInstanceAs (Decidable (_ ∧ _))

def anyExhausted (quotas : List Quota) (attempts : List WebSearchAttempt) : Bool :=
  quotas.any fun quota => decide (quota.Exhausted attempts)

/-- `created_at__gte=current - timedelta(minutes=1)`. -/
def lastMinute (current createdAt : Instant) : Bool := decide (current - 60 * second ≤ createdAt)

def sameMonth (calendar : Calendar) (current createdAt : Instant) : Bool :=
  decide (calendar.month createdAt = calendar.month current)

namespace SearchSettings

def platformQuotas (settings : SearchSettings) (providerId : Text) (current : Instant) : List Quota :=
  [⟨fun _ => true, lastMinute current, settings.globalRequestsPerMinute⟩,
    ⟨fun _ => true, sameMonth settings.calendar current, settings.globalMonthlyRequestLimit⟩,
    ⟨fun row => decide (row.providerId = providerId), sameMonth settings.calendar current,
      settings.providerMonthlyLimit providerId⟩]

def connectionQuotas (settings : SearchSettings) (providerId : Text) (connection : WebSearchConnection) (current : Instant) :
    List Quota :=
  let scope := fun row : WebSearchAttempt => decide (row.providerId = providerId) && decide (row.connection = some connection.pk)
  [⟨scope, lastMinute current, connection.requestsPerMinute⟩,
    ⟨scope, sameMonth settings.calendar current, connection.monthlyRequestLimit.getD 0⟩]

def ownQuotas (settings : SearchSettings) (providerId : Text) (connection : Option ℕ) (current : Instant) : List Quota :=
  match connection.bind settings.connection with
  | none => []
  | some row => settings.connectionQuotas providerId row current

end SearchSettings

inductive Admission where
  | existing (attempt : WebSearchAttempt)
  | fresh (workflow : WebSearchWorkflow)

def admitCall (env : AccountingEnv) (call : SearchCall) (s : WebSearchStore) :
    Except AccountingError (WebSearchStore × Admission) := do
  raiseIf (call.normalizedProvider env = [] ∨ call.normalizedKey = []) .valueError
  raiseIf (call.requestFingerprint.length ≠ 64) .valueError
  let locked ← orRaise .doesNotExist (s.workflow call.workflow)
  match (s.attemptsOf locked.pk).find? fun row => decide (row.callKey = call.normalizedKey) with
  | some existing =>
    raiseIf (call.Differs env locked existing) .conflict
    .ok (s.saveWorkflow (locked.observing existing), .existing existing)
  | none =>
    raiseIf (locked.status.isOpen = false) .reconciliationRequired
    raiseIf (∃ run ∈ call.run, run.tenant ≠ locked.tenant) .valueError
    .ok (s, .fresh locked)

def lockedConnection (settings : SearchSettings) (call : SearchCall) (isActive : Bool) : Except AccountingError Unit :=
  match call.connection with
  | none => .ok ()
  | some pk => do
    let _ ← orRaise .doesNotExist (settings.connection pk)
    raiseIf (isActive = false) .limitExceeded

def WebSearchStore.create (s : WebSearchStore) (row : WebSearchAttempt) : WebSearchStore :=
  { s with attempts := s.attempts ++ [row], nextAttempt := s.nextAttempt + 1 }

/-- `reserve_web_search_attempt`. The clock is read for the counts and again for the new row. -/
def reserveWebSearchAttempt (env : AccountingEnv) (settings : SearchSettings) (call : SearchCall) (createdAt : Instant)
    (isActive : Bool) (s : WebSearchStore) : Except AccountingError (WebSearchStore × WebSearchAttempt × Bool) := do
  let (s, admission) ← admitCall env call s
  match admission with
  | .existing attempt => .ok (s, attempt, false)
  | .fresh workflow =>
    let provider := call.normalizedProvider env
    raiseIf (anyExhausted (settings.platformQuotas provider env.now) s.attempts = true) .limitExceeded
    lockedConnection settings call isActive
    raiseIf (anyExhausted (settings.ownQuotas provider call.connection env.now) s.attempts = true) .limitExceeded
    let attempt := call.newAttempt env workflow s.nextAttempt createdAt
    .ok (s.create attempt, attempt, true)

/-! ## Outcomes -/

/-- The statuses with which `execute_recorded_web_search` finalizes an attempt. -/
inductive ProviderOutcome where
  | success
  | empty
  | failed
  | outcomeUncertain
  deriving DecidableEq

def ProviderOutcome.status : ProviderOutcome → AttemptStatus
  | .success => .success
  | .empty => .empty
  | .failed => .failed
  | .outcomeUncertain => .outcomeUncertain

structure Finalization where
  outcome : ProviderOutcome
  retryable : Bool
  errorCode : Text
  errorMessage : Text
  /-- The canonical text of the payload with the normalized result. -/
  payload : Option Text

def checkpointOf (env : AccountingEnv) (payload : Option Text) : Option Text := do
  let plaintext ← payload
  if env.checkpointMaxBytes < utf8Length plaintext then none else env.encrypt plaintext

namespace WebSearchAttempt

def ownershipLost (attempt : WebSearchAttempt) (now : Instant) : WebSearchAttempt :=
  { attempt with
    status := .outcomeUncertain
    retryable := false
    errorCode := "provider_call_ownership_lost".toList
    errorMessage := "Provider response arrived after execution ownership was lost.".toList
    checkpoint := none
    reconciliationState := .pending
    updatedAt := now }

def reported (attempt : WebSearchAttempt) (f : Finalization) (now : Instant) : WebSearchAttempt :=
  { attempt with
    status := f.outcome.status
    retryable := f.retryable
    errorCode := f.errorCode.take 80
    errorMessage := f.errorMessage.take 500
    updatedAt := now }

def checkpointFailed (attempt : WebSearchAttempt) : WebSearchAttempt :=
  { attempt with
    status := .outcomeUncertain
    errorCode := "provider_checkpoint_failed".toList
    errorMessage := "Provider result checkpoint could not be persisted.".toList
    reconciliationState := .pending }

end WebSearchAttempt

def waitsForApply (attempts : List WebSearchAttempt) : Bool :=
  attempts.any fun row => row.applyState == .pending && row.status.answered

/-- What `finalize_web_search_attempt` writes for an outcome while the workflow is not uncertain. -/
def finalized (env : AccountingEnv) (f : Finalization) (others : List WebSearchAttempt) (attempt : WebSearchAttempt) :
    WebSearchAttempt × WorkflowStatus :=
  let attempt := attempt.reported f env.now
  match f.outcome with
  | .success | .empty =>
    match checkpointOf env f.payload with
    | some checkpoint => ({ attempt with checkpoint := some checkpoint, reconciliationState := .notRequired }, .applyPending)
    | none => (attempt.checkpointFailed, .uncertain)
  | .outcomeUncertain => (attempt, .uncertain)
  | .failed =>
    ({ attempt with reconciliationState := .notRequired }, if waitsForApply others then .applyPending else .inProgress)

def finalizeWebSearchAttempt (env : AccountingEnv) (attemptId : ℕ) (f : Finalization) (s : WebSearchStore) :
    Except AccountingError (WebSearchStore × WebSearchAttempt) := do
  let attempt ← orRaise .doesNotExist (s.attempt attemptId)
  let workflow ← orRaise .doesNotExist (s.workflow attempt.workflow)
  if attempt.status ≠ .started ∨ attempt.reconciliationState = .resolved then .ok (s, attempt)
  else if workflow.status = .uncertain then
    let lost := attempt.ownershipLost env.now
    .ok (s.saveAttempt lost, lost)
  else
    let others := (s.attemptsOf workflow.pk).filter fun row => !decide (row.pk = attempt.pk)
    let (attempt, status) := finalized env f others attempt
    .ok ((s.saveAttempt attempt).saveWorkflow { workflow with status }, attempt)

def WebSearchAttempt.applied (row : WebSearchAttempt) (now : Instant) : WebSearchAttempt :=
  { row with applyState := .applied, updatedAt := now }

def WebSearchWorkflow.closed (workflow : WebSearchWorkflow) : WebSearchWorkflow :=
  { workflow with status := .applied, product := none }

def acknowledgeWebSearchWorkflow (env : AccountingEnv) (workflowId : ℕ) (consumed : List ℕ) (s : WebSearchStore) :
    Except AccountingError (WebSearchStore × WebSearchWorkflow) := do
  let workflow ← orRaise .doesNotExist (s.workflow workflowId)
  let attempts := s.attemptsOf workflow.pk
  let expected := attempts.map WebSearchAttempt.pk
  raiseIf (attempts.isEmpty = true) .valueError
  raiseIf ((consumed.all expected.contains && expected.all consumed.contains) = false) .valueError
  if workflow.status = .applied then .ok (s, workflow)
  else do
    raiseIf (workflow.status.isOpen = false) .valueError
    raiseIf ((attempts.any fun row => row.reconciliationState == .pending) = true) .valueError
    let s := s.updateAttempts (fun row => expected.contains row.pk) fun row => row.applied env.now
    .ok (s.saveWorkflow workflow.closed, workflow.closed)

def releaseEmptyWebSearchWorkflow (workflowId : ℕ) (s : WebSearchStore) :
    Except AccountingError (WebSearchStore × WebSearchWorkflow) := do
  let workflow ← orRaise .doesNotExist (s.workflow workflowId)
  raiseIf ((s.attemptsOf workflow.pk).isEmpty = false) .valueError
  if workflow.status = .applied then .ok (s, workflow)
  else do
    raiseIf (workflow.status ≠ .inProgress) .valueError
    .ok (s.saveWorkflow workflow.closed, workflow.closed)

def WebSearchAttempt.decided (attempt : WebSearchAttempt) (action : ReconciliationAction) (now : Instant) : WebSearchAttempt :=
  { attempt with
    reconciliationState := .resolved
    reconciliationAction := some action
    applyState := .applied
    updatedAt := now }

def WebSearchAttempt.rejected (row : WebSearchAttempt) : Bool :=
  row.reconciliationState == .notRequired && (row.status == .failed || row.status == .skipped)

def WebSearchAttempt.unresolved (row : WebSearchAttempt) : Bool :=
  !(row.reconciliationState == .resolved) && (row.status == .started || row.status == .outcomeUncertain ||
    row.reconciliationState == .pending || row.applyState == .pending)

def WebSearchWorkflow.resettled (workflow : WebSearchWorkflow) (action : ReconciliationAction) (attempts : List WebSearchAttempt) :
    WebSearchWorkflow :=
  if attempts.any WebSearchAttempt.unresolved = false then
    { workflow with status := .reconciled, reconciliationAction := some action, product := none }
  else
    { workflow with
      status := if attempts.any (fun row => row.reconciliationState == .pending) then .uncertain
        else if waitsForApply attempts then .applyPending else .inProgress }

def resolveWebSearchAttempt (env : AccountingEnv) (attemptId : ℕ) (action : ReconciliationAction) (operatorNote : Text)
    (s : WebSearchStore) : Except AccountingError (WebSearchStore × WebSearchAttempt) := do
  raiseIf (Url.strip operatorNote = []) .valueError
  let attempt ← orRaise .doesNotExist (s.attempt attemptId)
  let workflow ← orRaise .doesNotExist (s.workflow attempt.workflow)
  if attempt.reconciliationState = .resolved then do
    raiseIf (attempt.reconciliationAction ≠ some action) .valueError
    .ok (s, attempt)
  else do
    raiseIf (attempt.reconciliationState ≠ .pending) .valueError
    raiseIf (attempt.status = .started ∧ env.now - env.startedStaleSeconds * second < attempt.updatedAt) .valueError
    raiseIf (attempt.status ≠ .started ∧ attempt.status ≠ .outcomeUncertain) .valueError
    let decided := attempt.decided action env.now
    let s := (s.saveAttempt decided).updateAttempts (fun row => decide (row.workflow = workflow.pk) && row.rejected)
      fun row => row.applied env.now
    .ok (s.saveWorkflow (workflow.resettled action (s.attemptsOf workflow.pk)), decided)

/-! ## Runs -/

/-- The calls that hold no gate. `restore` is what the caller makes of a checkpoint. -/
inductive WorkflowOperation where
  | acquire (request : AcquireRequest)
  | replay (restore : Text → Except Text Text) (workflow : ℕ) (callKey requestFingerprint : Text)
  | markUncertain (attempt : ℕ) (errorCode : Text)
  | finalize (attempt : ℕ) (f : Finalization)
  | acknowledge (workflow : ℕ) (consumed : List ℕ)
  | releaseEmpty (workflow : ℕ)
  | resolve (attempt : ℕ) (action : ReconciliationAction) (operatorNote : Text)

def WebSearchStore.operate (env : AccountingEnv) (s : WebSearchStore) : WorkflowOperation → WebSearchStore
  | .acquire request => commit s (acquireWebSearchWorkflow env request s)
  | .replay restore workflow callKey requestFingerprint =>
    commit s (replayRecordedWebSearch env restore workflow callKey requestFingerprint s)
  | .markUncertain attempt errorCode => commit s (markCheckpointReplayUncertain env attempt errorCode s)
  | .finalize attempt f => commit s (finalizeWebSearchAttempt env attempt f s)
  | .acknowledge workflow consumed => commit s (acknowledgeWebSearchWorkflow env workflow consumed s)
  | .releaseEmpty workflow => commit s (releaseEmptyWebSearchWorkflow workflow s)
  | .resolve attempt action operatorNote => commit s (resolveWebSearchAttempt env attempt action operatorNote s)

inductive AccountingAction where
  | operation (env : AccountingEnv) (operation : WorkflowOperation)
  | reserve (env : AccountingEnv) (call : SearchCall) (createdAt : Instant) (isActive : Bool)

def WebSearchStore.next (settings : SearchSettings) (s : WebSearchStore) : AccountingAction → WebSearchStore
  | .operation env operation => s.operate env operation
  | .reserve env call createdAt isActive => commit s (reserveWebSearchAttempt env settings call createdAt isActive s)

def WebSearchStore.start : WebSearchStore := { workflows := [], attempts := [], nextWorkflow := 1, nextAttempt := 1 }

end MapBackend.WebResearch
