import MapBackend.Billing.Models
import MapBackend.Library.Json
import MapBackend.Library.Workers

/-!
One event of the billing outbox and the runs of its dispatcher.
-/

namespace MapBackend.Billing
open MapBackend.Library

inductive OutboxStatus where
  | pending
  | processing
  | dispatched
  | dead
  deriving DecidableEq

inductive OutboxEventType where
  | notification
  | requeueLimitReached
  | unknown
  deriving DecidableEq

/-- A row of the events. The token is the number of the random token that it holds. -/
structure OutboxRow where
  eventType : OutboxEventType
  payload : Json
  status : OutboxStatus
  attempts : ℕ
  nextAttemptAt : Option Instant
  processingToken : Option ℕ
  processingStartedAt : Option Instant
  dispatchedAt : Option Instant
  deadLetteredAt : Option Instant

structure OutboxSettings where
  baseDelaySeconds : ℕ
  maxDelaySeconds : ℕ
  processingTimeoutSeconds : ℕ
  maxAttempts : ℕ
  delays : 1 ≤ baseDelaySeconds ∧ baseDelaySeconds ≤ maxDelaySeconds
  timeout : 30 ≤ processingTimeoutSeconds
  attempts : 1 ≤ maxAttempts

namespace OutboxSettings

def microseconds (seconds : ℕ) : Instant := seconds * 1000000

def delaySeconds (settings : OutboxSettings) (attempt : ℕ) : ℕ :=
  min settings.maxDelaySeconds (settings.baseDelaySeconds * 2 ^ min (attempt - 1) 16)

def staleBefore (settings : OutboxSettings) (now : Instant) : Instant :=
  now - microseconds settings.processingTimeoutSeconds

end OutboxSettings

namespace OutboxRow

def notificationLevels : List (List Char) :=
  ["billing".toList, "critical".toList, "error".toList, "success".toList]

def isOne : Json → Bool
  | .int n => n == 1
  | .float value _ => value == 1
  | .bool b => b
  | _ => false

def publishable (row : OutboxRow) : Bool :=
  match row.eventType with
  | .notification =>
    ((row.payload.get "schema".toList).any isOne) &&
      ((row.payload.get "level".toList).any fun
        | .text level => notificationLevels.contains level
        | _ => false) &&
      ((row.payload.get "message".toList).any fun
        | .text _ => true
        | _ => false) &&
      ((row.payload.get "payload".toList).any Json.isObject)
  | .requeueLimitReached =>
    match row.payload with
    | .object [(key, value)] => key == "schema".toList && isOne value
    | _ => false
  | .unknown => false

def Reclaimable (settings : OutboxSettings) (row : OutboxRow) (now : Instant) : Prop :=
  row.status = .processing ∧ ∀ startedAt ∈ row.processingStartedAt, startedAt < settings.staleBefore now

instance (settings : OutboxSettings) (row : OutboxRow) (now : Instant) : Decidable (row.Reclaimable settings now) :=
  inferInstanceAs (Decidable (row.status = .processing ∧
    ∀ startedAt ∈ row.processingStartedAt, startedAt < settings.staleBefore now))

def Due (row : OutboxRow) (now : Instant) : Prop :=
  row.status = .pending ∧ ∀ next ∈ row.nextAttemptAt, next ≤ now

instance (row : OutboxRow) (now : Instant) : Decidable (row.Due now) :=
  inferInstanceAs (Decidable (row.status = .pending ∧ ∀ next ∈ row.nextAttemptAt, next ≤ now))

def Candidate (settings : OutboxSettings) (row : OutboxRow) (named : Bool) (now : Instant) : Prop :=
  named = true ∨ row.Due now ∨ row.Reclaimable settings now

instance (settings : OutboxSettings) (row : OutboxRow) (named : Bool) (now : Instant) :
    Decidable (row.Candidate settings named now) :=
  inferInstanceAs (Decidable (named = true ∨ row.Due now ∨ row.Reclaimable settings now))

def Owned (row : OutboxRow) (token : ℕ) : Prop := row.status = .processing ∧ row.processingToken = some token

instance (row : OutboxRow) (token : ℕ) : Decidable (row.Owned token) :=
  inferInstanceAs (Decidable (row.status = .processing ∧ row.processingToken = some token))

def dispatch (row : OutboxRow) (now : Instant) : OutboxRow :=
  { row with
    status := .dispatched
    processingToken := none
    processingStartedAt := none
    nextAttemptAt := none
    dispatchedAt := some now
    deadLetteredAt := none }

def reschedule (settings : OutboxSettings) (row : OutboxRow) (now : Instant) : OutboxRow :=
  let exhausted := settings.maxAttempts ≤ row.attempts
  { row with
    status := if exhausted then .dead else .pending
    processingToken := none
    processingStartedAt := none
    nextAttemptAt :=
      if exhausted then none else some (now + OutboxSettings.microseconds (settings.delaySeconds row.attempts))
    deadLetteredAt := if exhausted then some now else none }

def enqueued (eventType : OutboxEventType) (payload : Json) : OutboxRow where
  eventType
  payload
  status := .pending
  attempts := 0
  nextAttemptAt := none
  processingToken := none
  processingStartedAt := none
  dispatchedAt := none
  deadLetteredAt := none

end OutboxRow

/-- The row, the number of the tokens drawn before, and the number of its automatic claims, which no function reads. -/
structure OutboxStore where
  row : OutboxRow
  nextToken : ℕ
  automaticClaims : ℕ

/-- What a move reads outside the store. Other events may fill the batch, and the broker may raise. -/
structure OutboxInput where
  now : Instant
  selected : Bool
  accepted : Bool

inductive OutboxWorker where
  | select (named force : Bool)
  | claim (force : Bool)
  | publish (token : ℕ)
  | mark (token : ℕ)
  | fail (token : ℕ)
  | done
  deriving DecidableEq

namespace OutboxStore

/-- `_claim_event`. A forced claim takes a dead event and does not wait for the backoff. -/
def claimEvent (settings : OutboxSettings) (s : OutboxStore) (force : Bool) (now : Instant) : OutboxStore × Option ℕ :=
  if s.row.status = .dispatched then (s, none)
  else if s.row.status = .dead ∧ force = false then (s, none)
  else if s.row.status = .processing ∧ ∃ startedAt ∈ s.row.processingStartedAt, settings.staleBefore now ≤ startedAt then (s, none)
  else if s.row.status = .pending ∧ force = false ∧ ∃ next ∈ s.row.nextAttemptAt, now < next then (s, none)
  else
    ({ row := { s.row with
        status := .processing, processingToken := some s.nextToken, processingStartedAt := some now, attempts := s.row.attempts + 1 }
       nextToken := s.nextToken + 1
       automaticClaims := if force then s.automaticClaims else s.automaticClaims + 1 }, some s.nextToken)

def markDispatched (s : OutboxStore) (token : ℕ) (now : Instant) : OutboxStore :=
  if s.row.Owned token then { s with row := s.row.dispatch now } else s

def reschedule (settings : OutboxSettings) (s : OutboxStore) (token : ℕ) (now : Instant) : OutboxStore :=
  if s.row.Owned token then { s with row := s.row.reschedule settings now } else s

end OutboxStore

namespace OutboxWorker

variable (settings : OutboxSettings)

def advance : OutboxWorker → OutboxInput → OutboxStore → OutboxStore × OutboxWorker
  | .select named force, input, s =>
    (s, if s.row.Candidate settings named input.now ∧ input.selected = true then .claim force else .done)
  | .claim force, input, s =>
    let (s, token) := s.claimEvent settings force input.now
    (s, token.elim .done .publish)
  | .publish token, input, s => (s, if s.row.publishable && input.accepted then .mark token else .fail token)
  | .mark token, input, s => (s.markDispatched token input.now, .done)
  | .fail token, input, s => (s.reschedule settings token input.now, .done)
  | .done, _, s => (s, .done)

def token? : OutboxWorker → Option ℕ
  | .publish token | .mark token | .fail token => some token
  | _ => none

end OutboxWorker

/-- A run of `dispatch_due_billing_outbox` over all due events or over named ones. -/
inductive OutboxTask where
  | dispatchDue (named force : Bool)

def OutboxTask.worker : OutboxTask → OutboxWorker
  | .dispatchDue named force => if force && !named then .done else .select named force

abbrev OutboxCrew := Crew OutboxStore OutboxWorker

abbrev OutboxAction := CrewAction OutboxTask OutboxInput Empty

namespace OutboxCrew

def next (settings : OutboxSettings) (c : OutboxCrew) (a : OutboxAction) : OutboxCrew :=
  Crew.act (fun _ (event : Empty) => event.elim) (OutboxWorker.advance settings) OutboxTask.worker c a

def enqueued (eventType : OutboxEventType) (payload : Json) : OutboxCrew where
  store := { row := .enqueued eventType payload, nextToken := 0, automaticClaims := 0 }
  workers := []

end OutboxCrew

end MapBackend.Billing
