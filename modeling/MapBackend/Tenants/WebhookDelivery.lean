import MapBackend.Tenants.SessionTokens

/-!
One delivery of a webhook event.
-/

namespace MapBackend.Tenants
open MapBackend.Library

inductive WebhookStatus where
  | pending
  | queued
  | delivering
  | retry
  | delivered
  | failed
  deriving DecidableEq

def WebhookStatus.terminal (status : WebhookStatus) : Prop := status = .delivered ∨ status = .failed

instance (status : WebhookStatus) : Decidable status.terminal :=
  inferInstanceAs (Decidable (status = .delivered ∨ status = .failed))

/-- A row of the deliveries. The claim token is the number of the random token that it holds. -/
structure WebhookDelivery where
  eventId : ℕ
  status : WebhookStatus
  attempts : ℕ
  maxAttempts : ℕ
  nextAttemptAt : Option Instant
  lastAttemptAt : Option Instant
  claimToken : Option ℕ
  claimedAt : Option Instant
  deliveredAt : Option Instant
  responseStatus : Option ℕ
  lastError : String
  updatedAt : Instant
  deriving DecidableEq

structure SafeWebhookDeliveryError where
  code : String
  message : String
  deriving DecidableEq

def SafeWebhookDeliveryError.persistedMessage (error : SafeWebhookDeliveryError) : String :=
  error.code ++ ": " ++ error.message

inductive DeliveryEvent where
  | started (token : ℕ)
  | posted (token : ℕ)
  | recovered (token : ℕ) (claimedAt now : Instant)
  deriving DecidableEq

/-- A random token does not repeat: it is the number of the tokens drawn before it. -/
structure WebhookStore where
  delivery : WebhookDelivery
  nextToken : ℕ
  history : List DeliveryEvent

/-- The token of a message: none in the messages of an older dispatcher, or no UUID at all. -/
inductive ClaimArgument where
  | absent
  | malformed
  | token (value : ℕ)
  deriving DecidableEq

def ClaimArgument.token? : ClaimArgument → Option ℕ
  | .token value => some value
  | _ => none

/-- The token of an attempt and the number of the next random token: a message without one draws it. -/
def ClaimArgument.claim (next : ℕ) : ClaimArgument → ℕ × ℕ
  | .token value => (value, next)
  | _ => (next, next + 1)

inductive WebhookResult where
  | queued (count : ℕ)
  | terminal (status : WebhookStatus)
  | alreadyDelivering
  | staleClaim
  | retryScheduled
  | delivered (httpStatus : ℕ)
  | finished (status : WebhookStatus) (attempts : ℕ)
  | raised
  deriving DecidableEq

namespace Webhooks

def claimTimeout : Instant := 15 * 60 * second
def positiveSmallIntegerMax : ℕ := 2 ^ 15 - 1

def retryDelays : List Instant := [60, 300, 900, 3600, 6 * 3600, 12 * 3600, 24 * 3600]

def webhookRetryDelay (attempt : ℕ) : Instant :=
  retryDelays.getD (min (attempt - 1) (retryDelays.length - 1)) 0 * second

def queuePublishError : String := "queue_publish_error: Не удалось поставить webhook delivery в очередь."
def staleClaimRecovered : String := "stale_claim_recovered: Предыдущая попытка webhook была безопасно перезапущена."
def endpointUnavailable : SafeWebhookDeliveryError := ⟨"endpoint_unavailable", "Webhook endpoint удалён или отключён."⟩
def httpError (status : ℕ) : SafeWebhookDeliveryError := ⟨"http_error", s!"Webhook endpoint вернул HTTP {status}."⟩

end Webhooks

namespace WebhookDelivery
open Webhooks

def Stale (d : WebhookDelivery) (now : Instant) : Prop :=
  (∃ claimedAt ∈ d.claimedAt, claimedAt < now - claimTimeout) ∨ (d.claimedAt = none ∧ d.updatedAt < now - claimTimeout)

instance (d : WebhookDelivery) (now : Instant) : Decidable (d.Stale now) :=
  inferInstanceAs (Decidable ((∃ claimedAt ∈ d.claimedAt, claimedAt < now - claimTimeout) ∨
    (d.claimedAt = none ∧ d.updatedAt < now - claimTimeout)))

def Due (d : WebhookDelivery) (now : Instant) (eventId : Option ℕ) : Prop :=
  (d.status = .pending ∨ (d.status = .retry ∧ ∃ next ∈ d.nextAttemptAt, next ≤ now)) ∧ ∀ id ∈ eventId, d.eventId = id

instance (d : WebhookDelivery) (now : Instant) (eventId : Option ℕ) : Decidable (d.Due now eventId) :=
  inferInstanceAs (Decidable ((d.status = .pending ∨ (d.status = .retry ∧ ∃ next ∈ d.nextAttemptAt, next ≤ now)) ∧
    ∀ id ∈ eventId, d.eventId = id))

def Claimed (d : WebhookDelivery) (status : WebhookStatus) (token : ℕ) : Prop :=
  d.status = status ∧ d.claimToken = some token

instance (d : WebhookDelivery) (status : WebhookStatus) (token : ℕ) : Decidable (d.Claimed status token) :=
  inferInstanceAs (Decidable (d.status = status ∧ d.claimToken = some token))

def created (eventId maxAttempts : ℕ) (now : Instant) : WebhookDelivery where
  eventId
  status := .pending
  attempts := 0
  maxAttempts
  nextAttemptAt := none
  lastAttemptAt := none
  claimToken := none
  claimedAt := none
  deliveredAt := none
  responseStatus := none
  lastError := ""
  updatedAt := now

end WebhookDelivery

namespace WebhookStore
open Webhooks

def recoverStale (s : WebhookStore) (now : Instant) : WebhookStore :=
  let d := s.delivery
  if (d.status = .queued ∨ d.status = .delivering) ∧ d.Stale now then
    { s with
      delivery := { d with
        status := .retry, nextAttemptAt := some now, claimToken := none, claimedAt := none
        lastError := staleClaimRecovered, updatedAt := now }
      history := s.history ++ (d.claimToken.toList.map fun token => .recovered token (d.claimedAt.getD 0) now) }
  else s

/-- `_claim_due_webhook_deliveries`: other rows may fill the batch, and a locked row is skipped. -/
def claimDue (s : WebhookStore) (now : Instant) (eventId : Option ℕ) (selected : Bool) : WebhookStore × Option ℕ :=
  if s.delivery.Due now eventId ∧ selected = true then
    ({ s with
      delivery := { s.delivery with
        status := .queued, claimToken := some s.nextToken, claimedAt := some now, nextAttemptAt := none, updatedAt := now }
      nextToken := s.nextToken + 1 }, some s.nextToken)
  else (s, none)

def releaseUnpublished (s : WebhookStore) (token : ℕ) (now : Instant) : WebhookStore :=
  if s.delivery.Claimed .queued token then
    { s with delivery := { s.delivery with
        status := .retry, nextAttemptAt := some (now + webhookRetryDelay 1), claimToken := none, claimedAt := none
        lastError := queuePublishError, updatedAt := now } }
  else s

def startDelivery (s : WebhookStore) (expected : ClaimArgument) (now : Instant) : Except WebhookResult (WebhookStore × ℕ) := do
  let d := s.delivery
  raiseIf (expected = .malformed) .staleClaim
  raiseIf d.status.terminal (.terminal d.status)
  raiseIf (d.status = .delivering) .alreadyDelivering
  raiseIf (∃ token ∈ expected.token?, ¬ d.Claimed .queued token) .staleClaim
  raiseIf (expected = .absent ∧ d.status = .queued) .staleClaim
  raiseIf (d.status = .retry ∧ ∃ next ∈ d.nextAttemptAt, now < next) .retryScheduled
  raiseIf (positiveSmallIntegerMax < d.attempts + 1) .raised
  let (token, nextToken) := expected.claim s.nextToken
  pure ({ s with
    delivery := { d with
      status := .delivering, claimToken := some token, claimedAt := some now, attempts := d.attempts + 1
      lastAttemptAt := some now, updatedAt := now }
    nextToken
    history := s.history ++ [.started token] }, token)

def finishSuccess (s : WebhookStore) (token responseStatus : ℕ) (now : Instant) : WebhookStore × WebhookResult :=
  if s.delivery.Claimed .delivering token then
    ({ s with delivery := { s.delivery with
        status := .delivered, deliveredAt := some now, nextAttemptAt := none, claimToken := none, claimedAt := none
        responseStatus := some responseStatus, lastError := "", updatedAt := now } }, .delivered responseStatus)
  else (s, .staleClaim)

def finishFailure (s : WebhookStore) (token : ℕ) (error : SafeWebhookDeliveryError) (permanent : Bool)
    (responseStatus : Option ℕ) (now : Instant) : WebhookStore × WebhookResult :=
  let d := s.delivery
  if d.Claimed .delivering token then
    let exhausted := permanent = true ∨ d.maxAttempts ≤ d.attempts
    let status : WebhookStatus := if exhausted then .failed else .retry
    ({ s with delivery := { d with
        status, nextAttemptAt := if exhausted then none else some (now + webhookRetryDelay d.attempts)
        lastError := String.ofList (error.persistedMessage.toList.take 2000), responseStatus
        claimToken := none, claimedAt := none, updatedAt := now } }, .finished status d.attempts)
  else (s, .staleClaim)

end WebhookStore

/-- The request of an attempt: an exception before it is sent, or the answer of the endpoint. -/
inductive WebhookRequest where
  | notSent (error : SafeWebhookDeliveryError)
  | sent (answer : Except SafeWebhookDeliveryError ℕ)

structure WebhookInput where
  now : Instant
  selected : Bool
  published : Bool
  endpointAvailable : Bool
  request : WebhookRequest
  /-- An exception of the finishing write. -/
  failure : Option SafeWebhookDeliveryError

inductive WebhookWorker where
  | dispatchEvent (eventId : Option ℕ)
  | dispatchPending
  | claimPending (now : Instant)
  | publish (token : ℕ)
  | release (token : ℕ)
  | deliver (expected : ClaimArgument)
  | attempt (token : ℕ)
  | post (token : ℕ)
  | succeed (token responseStatus : ℕ)
  | refuse (token responseStatus : ℕ)
  | fail (token : ℕ) (error : SafeWebhookDeliveryError) (permanent : Bool)
  | done (result : WebhookResult)

namespace WebhookWorker
open Webhooks

def publishing : Option ℕ → WebhookWorker
  | none => .done (.queued 0)
  | some token => .publish token

def advance : WebhookWorker → WebhookInput → WebhookStore → WebhookStore × WebhookWorker
  | .dispatchEvent none, _, s => (s, .done (.queued 0))
  | .dispatchEvent (some eventId), input, s =>
    let (s, token) := s.claimDue input.now (some eventId) input.selected
    (s, publishing token)
  | .dispatchPending, input, s => (s.recoverStale input.now, .claimPending input.now)
  | .claimPending now, input, s =>
    let (s, token) := s.claimDue now none input.selected
    (s, publishing token)
  | .publish token, input, s => (s, if input.published then .done (.queued 1) else .release token)
  | .release token, input, s => (s.releaseUnpublished token input.now, .done (.queued 0))
  | .deliver expected, input, s =>
    match s.startDelivery expected input.now with
    | .error result => (s, .done result)
    | .ok (s, token) => (s, .attempt token)
  | .attempt token, input, s => (s, if input.endpointAvailable then .post token else .fail token endpointUnavailable true)
  | .post token, input, s =>
    match input.request with
    | .notSent error => (s, .fail token error false)
    | .sent answer =>
      ({ s with history := s.history ++ [.posted token] },
        match answer with
        | .error error => .fail token error false
        | .ok status => if 200 ≤ status ∧ status < 300 then .succeed token status else .refuse token status)
  | .succeed token status, input, s =>
    match input.failure with
    | some error => (s, .fail token error false)
    | none =>
      let (s, result) := s.finishSuccess token status input.now
      (s, .done result)
  | .refuse token status, input, s =>
    match input.failure with
    | some error => (s, .fail token error false)
    | none =>
      let (s, result) := s.finishFailure token (httpError status) false (some status) input.now
      (s, .done result)
  | .fail token error permanent, input, s =>
    match input.failure with
    | some _ => (s, .done .raised)
    | none =>
      let (s, result) := s.finishFailure token error permanent none input.now
      (s, .done result)
  | .done result, _, s => (s, .done result)

def token? : WebhookWorker → Option ℕ
  | .attempt token | .post token | .succeed token _ | .refuse token _ | .fail token _ _ => some token
  | _ => none

end WebhookWorker

/-- The tasks that are called: by the periodic schedule, with an event, or by a message. -/
inductive WebhookTask where
  | dispatchWebhookEvent (eventId : Option ℕ)
  | dispatchPendingWebhooks
  | deliverWebhook (expected : ClaimArgument)

def WebhookTask.worker : WebhookTask → WebhookWorker
  | .dispatchWebhookEvent eventId => .dispatchEvent eventId
  | .dispatchPendingWebhooks => .dispatchPending
  | .deliverWebhook expected => .deliver expected

abbrev WebhookCrew := Crew WebhookStore WebhookWorker

abbrev WebhookAction := CrewAction WebhookTask WebhookInput Empty

namespace WebhookCrew

def created (eventId maxAttempts : ℕ) (now : Instant) : WebhookCrew := ⟨⟨.created eventId maxAttempts now, 0, []⟩, []⟩

def next (c : WebhookCrew) (a : WebhookAction) : WebhookCrew :=
  c.act (fun s (_ : Empty) => s) WebhookWorker.advance WebhookTask.worker a

end WebhookCrew

end MapBackend.Tenants
