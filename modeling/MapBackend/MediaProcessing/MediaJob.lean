import MapBackend.Library.Transactions
import MapBackend.Library.Workers

/-!
One media job and its deliveries to the task queue.
-/

namespace MapBackend.MediaProcessing
open MapBackend.Library

abbrev Text := List Char

abbrev Instant := ℤ

inductive JobStatus where
  | queued
  | processing
  | submitted
  | succeeded
  | failed
  | cancelled
  deriving DecidableEq

/-- `ProviderResponseState`; `none` is the empty text. -/
inductive ResponseState where
  | none
  | recorded
  | applying
  | applied
  | accountingResolved
  deriving DecidableEq

/-- The status of a stored response. A status that the provider's result does not have is stored as invalid. -/
inductive ResponseStatus where
  | pending
  | succeeded
  | failed
  | invalid
  deriving DecidableEq

/-- The payload of a checkpoint: its status, its error code of at most 100 characters, and the canonical text of its
other entries. -/
structure ProviderResponse where
  status : ResponseStatus
  errorCode : Text
  content : Text
  short : errorCode.length ≤ 100
  deriving DecidableEq

structure MediaProcessingJob where
  status : JobStatus
  errorCode : Text
  errorMessage : Text
  startedAt : Option Instant
  finishedAt : Option Instant
  responseState : ResponseState
  responseEnc : Option ProviderResponse
  responseDigest : Text
  /-- The column of the status; an invalid one leaves it empty. -/
  responseStatus : Option ResponseStatus
  recordedAt : Option Instant
  applyToken : Option ℕ
  applyClaimedAt : Option Instant
  resolvedAt : Option Instant
  deriving DecidableEq

/-- The job, the number of the tokens drawn before, the calls of the provider and the response that was recorded.
No function reads the last two. -/
structure MediaStore where
  job : MediaProcessingJob
  nextToken : ℕ
  providerCalls : ℕ
  recorded : Option ProviderResponse

inductive MediaException where
  | checkpointApplyInProgress
  | providerOutcomeUncertain
  | other
  deriving DecidableEq

namespace MediaJob

def applyLease : Instant := 10 * 60 * 1000000

def submissionFailed : Text := "submission_failed".toList
def outcomeUncertain : Text := "outcome_uncertain".toList
def providerError : Text := "provider_error".toList
def submissionMessage : Text := "Не удалось безопасно отправить задачу медиа-провайдеру.".toList
def uncertainMessage : Text := "Результат провайдера не применён автоматически; требуется сверка.".toList
def genericProviderFailure : Text := "Медиа-провайдер не смог обработать изображение.".toList

end MediaJob

namespace MediaProcessingJob
open MediaJob

def Claimable (job : MediaProcessingJob) : Prop :=
  job.status = .queued ∨ (job.status = .failed ∧ job.errorCode = submissionFailed) ∨ job.responseState = .recorded ∨
    job.responseState = .applying

instance (job : MediaProcessingJob) : Decidable job.Claimable :=
  inferInstanceAs (Decidable (job.status = .queued ∨ (job.status = .failed ∧ job.errorCode = submissionFailed) ∨
    job.responseState = .recorded ∨ job.responseState = .applying))

def ApplyInProgress (job : MediaProcessingJob) (now : Instant) : Prop :=
  job.responseState = .applying ∧ ∃ claimedAt ∈ job.applyClaimedAt, now - applyLease < claimedAt

instance (job : MediaProcessingJob) (now : Instant) : Decidable (job.ApplyInProgress now) :=
  inferInstanceAs (Decidable (job.responseState = .applying ∧ ∃ claimedAt ∈ job.applyClaimedAt, now - applyLease < claimedAt))

def AppliedBy (job : MediaProcessingJob) (token : ℕ) : Prop := job.responseState = .applying ∧ job.applyToken = some token

instance (job : MediaProcessingJob) (token : ℕ) : Decidable (job.AppliedBy token) :=
  inferInstanceAs (Decidable (job.responseState = .applying ∧ job.applyToken = some token))

/-- `fail_job`. The messages have no URL and no control character. -/
def fail (job : MediaProcessingJob) (errorCode errorMessage : Text) (now : Instant) : MediaProcessingJob :=
  { job with status := .failed, errorCode := errorCode.take 100, errorMessage := errorMessage.take 1000, finishedAt := some now }

def claimed (job : MediaProcessingJob) (now : Instant) : MediaProcessingJob :=
  { job with status := .processing, startedAt := some now, errorCode := [], errorMessage := [] }

def submitting (job : MediaProcessingJob) (now : Instant) : MediaProcessingJob :=
  { job with status := .processing, startedAt := some (job.startedAt.getD now), errorCode := [], errorMessage := [] }

/-- `_checkpoint_provider_result` on a job without a response. -/
def recorded (job : MediaProcessingJob) (response : ProviderResponse) (digest : Text) (now : Instant) : MediaProcessingJob :=
  { job with
    responseEnc := some response
    responseDigest := digest
    responseStatus := if response.status = .invalid then none else some response.status
    responseState := .recorded
    recordedAt := some now
    applyToken := none
    applyClaimedAt := none
    resolvedAt := none }

/-- The status that the last write of `apply_provider_result` saves, and nothing for a status without a meaning. -/
def outcome (response : ProviderResponse) : Option (JobStatus × Text) :=
  match response.status with
  | .pending => some (.submitted, [])
  | .succeeded => some (.succeeded, [])
  | .failed => some (.failed, if response.errorCode = [] then providerError else response.errorCode)
  | .invalid => none

def applyOutcome (job : MediaProcessingJob) (response : ProviderResponse) (now : Instant) : MediaProcessingJob :=
  match response.status with
  | .pending => { job with status := .submitted, errorCode := [], errorMessage := [] }
  | .succeeded => { job with status := .succeeded, finishedAt := some now, errorCode := [], errorMessage := [] }
  | .failed => job.fail (if response.errorCode = [] then providerError else response.errorCode) genericProviderFailure now
  | .invalid => job

/-- The condition of `fail_job_if_checkpoint_unresolved` to leave the job as it is. -/
def Resolved (job : MediaProcessingJob) : Prop :=
  job.responseState = .applying ∨ job.responseState = .applied ∨ job.responseState = .accountingResolved ∨
    job.status = .submitted ∨ job.status = .succeeded ∨ job.status = .cancelled

instance (job : MediaProcessingJob) : Decidable job.Resolved :=
  inferInstanceAs (Decidable (job.responseState = .applying ∨ job.responseState = .applied ∨
    job.responseState = .accountingResolved ∨ job.status = .submitted ∨ job.status = .succeeded ∨ job.status = .cancelled))

end MediaProcessingJob

/-- What becomes of `provider.process`: an exception before the call, an exception of the call, or a result. -/
inductive ProviderCall where
  | notSent
  | raised
  | answered (response : ProviderResponse)
  deriving DecidableEq

/-- What a move reads outside the store. A failure is an exception of the step: of a database write, of the storage, of
the wallet or of a check of the stored payload. -/
structure MediaInput where
  now : Instant
  failure : Option MediaException
  call : ProviderCall

/-- A delivery between its writes. `direct` tells the apply step of the worker that called the provider from the apply
step of a stored response; `fresh` records that the claimed job had no response, and is not read. -/
inductive MediaWorker where
  | claim
  | submit (fresh : Bool)
  | prepare
  | process
  | checkpoint (response : ProviderResponse)
  | claimApply (direct : Bool)
  | apply (direct : Bool) (token : ℕ) (stored : Option ProviderResponse)
  | release (direct : Bool) (token : ℕ) (raised : MediaException)
  | commit (direct : Bool) (token : ℕ)
  | failUnresolved
  | failSubmission (fresh : Bool)
  | done
  deriving DecidableEq

namespace MediaStore
open MediaJob

def withJob (s : MediaStore) (job : MediaProcessingJob) : MediaStore := { s with job }

@[simp] theorem withJob_job (s : MediaStore) (job : MediaProcessingJob) : (s.withJob job).job = job := rfl

@[simp] theorem withJob_recorded (s : MediaStore) (job : MediaProcessingJob) : (s.withJob job).recorded = s.recorded := rfl

@[simp] theorem withJob_nextToken (s : MediaStore) (job : MediaProcessingJob) : (s.withJob job).nextToken = s.nextToken := rfl

@[simp] theorem withJob_providerCalls (s : MediaStore) (job : MediaProcessingJob) :
    (s.withJob job).providerCalls = s.providerCalls := rfl

end MediaStore

namespace MediaWorker
open MediaJob

/-- The handler that an exception of the apply step reaches: `submit_job` wraps the ones after its own call. -/
def raised (direct : Bool) (exception : MediaException) : MediaWorker :=
  if direct then .failUnresolved
  else match exception with
    | .checkpointApplyInProgress => .done
    | .providerOutcomeUncertain => .failUnresolved
    | .other => .failSubmission false

variable (digestOf : ProviderResponse → Text)

def recordResponse (s : MediaStore) (response : ProviderResponse) (now : Instant) : MediaStore × MediaWorker :=
  if s.job.responseState ≠ .none then
    (s, if s.job.responseDigest = digestOf response then .claimApply true else .failUnresolved)
  else ({ s with job := s.job.recorded response (digestOf response) now, recorded := some response }, .claimApply true)

def claimCheckpoint (s : MediaStore) (direct : Bool) (now : Instant) : MediaStore × MediaWorker :=
  if s.job.responseState = .applied ∨ s.job.responseState = .accountingResolved then (s, .done)
  else if s.job.ApplyInProgress now then (s, raised direct .checkpointApplyInProgress)
  else if s.job.responseState = .none then (s, raised direct .other)
  else
    ({ s with
      job := { s.job with responseState := .applying, applyToken := some s.nextToken, applyClaimedAt := some now }
      nextToken := s.nextToken + 1 }, .apply direct s.nextToken s.job.responseEnc)

/-- The last write of `apply_provider_result`. A checkpoint without a known status is not applicable. -/
def applyStored (s : MediaStore) (direct : Bool) (token : ℕ) (stored : Option ProviderResponse) (now : Instant) :
    MediaStore × MediaWorker :=
  match stored with
  | none => (s, .release direct token .other)
  | some response =>
    if response.status = .invalid then (s, .release direct token .other)
    else (s.withJob (s.job.applyOutcome response now), .commit direct token)

def releaseClaim (s : MediaStore) (token : ℕ) : MediaStore :=
  if s.job.AppliedBy token then
    s.withJob { s.job with responseState := .recorded, applyToken := none, applyClaimedAt := none }
  else s

def commitApplied (s : MediaStore) (direct : Bool) (token : ℕ) (now : Instant) : MediaStore × MediaWorker :=
  if s.job.AppliedBy token then
    (s.withJob { s.job with
      responseEnc := none, responseState := .applied, applyToken := none, applyClaimedAt := none, resolvedAt := some now }, .done)
  else (s, raised direct .providerOutcomeUncertain)

def advance : MediaWorker → MediaInput → MediaStore → MediaStore × MediaWorker
  | .claim, input, s =>
    if s.job.Claimable then (s.withJob (s.job.claimed input.now), .submit (decide (s.job.responseState = .none)))
    else (s, .done)
  | .submit fresh, input, s =>
    if input.failure.isSome then (s, .failSubmission fresh)
    else if s.job.responseState = .none then (s, .prepare) else (s, .claimApply false)
  | .prepare, input, s =>
    if input.failure.isSome then (s, .failSubmission true)
    else (s.withJob (s.job.submitting input.now), .process)
  | .process, input, s =>
    match input.call with
    | .notSent => (s, .failSubmission true)
    | .raised => ({ s with providerCalls := s.providerCalls + 1 }, .failUnresolved)
    | .answered response => ({ s with providerCalls := s.providerCalls + 1 }, .checkpoint response)
  | .checkpoint response, input, s =>
    if input.failure.isSome then (s, .failUnresolved) else recordResponse digestOf s response input.now
  | .claimApply direct, input, s =>
    if input.failure.isSome then (s, raised direct .other) else claimCheckpoint s direct input.now
  | .apply direct token stored, input, s =>
    match input.failure with
    | some exception => (s, .release direct token exception)
    | none => applyStored s direct token stored input.now
  | .release direct token exception, input, s =>
    if input.failure.isSome then (s, raised direct .other) else (releaseClaim s token, raised direct exception)
  | .commit direct token, input, s =>
    if input.failure.isSome then (s, raised direct .other) else commitApplied s direct token input.now
  | .failUnresolved, input, s =>
    if input.failure.isSome ∨ s.job.Resolved then (s, .done)
    else (s.withJob (s.job.fail outcomeUncertain uncertainMessage input.now), .done)
  | .failSubmission _, input, s =>
    if input.failure.isSome then (s, .done)
    else (s.withJob (s.job.fail submissionFailed submissionMessage input.now), .done)
  | .done, _, s => (s, .done)

end MediaWorker

/-- A delivery of the task. The resumption of stale claims of the apply step is one as well. -/
inductive MediaTask where
  | processMediaJob

def MediaTask.worker : MediaTask → MediaWorker
  | .processMediaJob => .claim

abbrev MediaCrew := Crew MediaStore MediaWorker

abbrev MediaAction := CrewAction MediaTask MediaInput Empty

namespace MediaCrew

def next (digestOf : ProviderResponse → Text) (c : MediaCrew) (a : MediaAction) : MediaCrew :=
  Crew.act (fun _ (event : Empty) => event.elim) (MediaWorker.advance digestOf) MediaTask.worker c a

end MediaCrew

def MediaCrew.queued : MediaCrew where
  store :=
    { job :=
        { status := .queued
          errorCode := []
          errorMessage := []
          startedAt := none
          finishedAt := none
          responseState := .none
          responseEnc := none
          responseDigest := []
          responseStatus := none
          recordedAt := none
          applyToken := none
          applyClaimedAt := none
          resolvedAt := none }
      nextToken := 0
      providerCalls := 0
      recorded := none }
  workers := []

end MapBackend.MediaProcessing
