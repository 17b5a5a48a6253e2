import MapBackend.Billing.WebhookProcessing

/-!
The row of one payment webhook event and the workers on it: deliveries and the reconciler.
-/

namespace MapBackend.Billing
open MapBackend.Library

inductive WebhookDecision where
  | received
  | applied
  | ignored
  | rejected
  | manualReview
  | error
  deriving DecidableEq

def WebhookDecision.final (decision : WebhookDecision) : Prop :=
  decision = .applied ∨ decision = .ignored ∨ decision = .rejected ∨ decision = .manualReview

instance (decision : WebhookDecision) : Decidable decision.final :=
  inferInstanceAs (Decidable (decision = .applied ∨ decision = .ignored ∨ decision = .rejected ∨ decision = .manualReview))

/-- A row of the events. The token is the number of the random token that it holds. -/
structure BillingWebhookEvent where
  eventType : String
  objectId : String
  paymentId : String
  invoice : Option ℕ
  decision : WebhookDecision
  reason : String
  deliveryCount : ℕ
  processingToken : Option ℕ
  processingStartedAt : Option Instant
  processedAt : Option Instant
  reconciliationAttempts : ℕ
  nextReconciliationAt : Option Instant
  lastReconciliationAt : Option Instant
  deriving DecidableEq

/-- The settings of the webhook processing, in seconds, within their bounds. -/
structure WebhookSettings where
  processingTimeoutSeconds : ℕ
  maxAttempts : ℕ
  baseDelaySeconds : ℕ
  maxDelaySeconds : ℕ
  timeout : 30 ≤ processingTimeoutSeconds
  attempts : 1 ≤ maxAttempts

def WebhookSettings.staleBefore (settings : WebhookSettings) (now : Instant) : Instant :=
  now - (settings.processingTimeoutSeconds : ℤ) * 1000000

def WebhookSettings.reconciler (settings : WebhookSettings) (now : Instant) : ReconcilerEnv where
  now
  maxAttempts := settings.maxAttempts
  baseDelaySeconds := settings.baseDelaySeconds
  maxDelaySeconds := settings.maxDelaySeconds

def YooKassaEvent.ofType (eventType : String) : YooKassaEvent :=
  if eventType = "payment.succeeded" then .paymentSucceeded
  else if eventType = "payment.canceled" then .paymentCanceled
  else if eventType = "refund.succeeded" then .refundSucceeded
  else .unsupported

namespace BillingWebhookEvent

def Busy (settings : WebhookSettings) (row : BillingWebhookEvent) (now : Instant) : Prop :=
  row.processingToken.isSome ∧ ∃ startedAt ∈ row.processingStartedAt, settings.staleBefore now < startedAt

instance (settings : WebhookSettings) (row : BillingWebhookEvent) (now : Instant) : Decidable (row.Busy settings now) :=
  inferInstanceAs (Decidable (row.processingToken.isSome ∧ ∃ startedAt ∈ row.processingStartedAt, settings.staleBefore now < startedAt))

def Waiting (row : BillingWebhookEvent) (now : Instant) : Prop := ∃ next ∈ row.nextReconciliationAt, now < next

instance (row : BillingWebhookEvent) (now : Instant) : Decidable (row.Waiting now) :=
  inferInstanceAs (Decidable (∃ next ∈ row.nextReconciliationAt, now < next))

def Candidate (settings : WebhookSettings) (row : BillingWebhookEvent) (named force : Bool) (now : Instant) : Prop :=
  named = true ∨
    ((row.decision = .error ∨
      (row.decision = .received ∧ ∀ startedAt ∈ row.processingStartedAt, startedAt < settings.staleBefore now)) ∧
      (force = true ∨ ¬ row.Waiting now))

instance (settings : WebhookSettings) (row : BillingWebhookEvent) (named force : Bool) (now : Instant) :
    Decidable (row.Candidate settings named force now) :=
  inferInstanceAs (Decidable (named = true ∨
    ((row.decision = .error ∨
      (row.decision = .received ∧ ∀ startedAt ∈ row.processingStartedAt, startedAt < settings.staleBefore now)) ∧
      (force = true ∨ ¬ row.Waiting now))))

def created (eventType objectId : String) : BillingWebhookEvent where
  eventType
  objectId
  paymentId := ""
  invoice := none
  decision := .received
  reason := ""
  deliveryCount := 1
  processingToken := none
  processingStartedAt := none
  processedAt := none
  reconciliationAttempts := 0
  nextReconciliationAt := none
  lastReconciliationAt := none

/-- The payment of an exhausted event: the recorded one, else the object of a payment event. -/
def lookupPaymentId (row : BillingWebhookEvent) : String :=
  if row.paymentId = "" ∧ "payment.".toList.isPrefixOf row.eventType.toList = true then row.objectId else row.paymentId

def exhaustedInvoice (row : BillingWebhookEvent) (billing : BillingStore) : Option Invoice :=
  BillingService.exhaustedInvoice billing row.invoice row.lookupPaymentId

end BillingWebhookEvent

/-- The row of the event, once it is delivered, the billing rows, and the number of the tokens drawn before. -/
structure WebhookEventStore where
  event : Option BillingWebhookEvent
  billing : BillingStore
  nextToken : ℕ

structure WebhookOutcome where
  decision : WebhookDecision
  reason : String
  invoice : Option ℕ
  paymentId : String

/-- What a move reads outside the store. Other events may fill the batch of a reconciler. -/
structure WebhookEventInput where
  now : Instant
  selected : Bool
  billing : BillingInput
  outcome : WebhookOutcome

/-- A worker between its transactions. The processing of the event ends with an outcome. -/
inductive WebhookEventWorker where
  | deliver
  | select (named force : Bool)
  | claim (force : Bool)
  | process (token : ℕ) (step : WebhookStep)
  | finalize (token : ℕ)
  | close
  | done

namespace WebhookEventStore

def exhaustedReason : String := "Исчерпан лимит автоматической сверки YooKassa."

def claimed (s : WebhookEventStore) (row : BillingWebhookEvent) (now : Instant) : WebhookEventStore :=
  { s with
    event := some { row with
      decision := .received, reason := "", processingToken := some s.nextToken, processingStartedAt := some now, processedAt := none }
    nextToken := s.nextToken + 1 }

/-- `claim_webhook_event`, with the token of a claim. -/
def claimWebhookEvent (settings : WebhookSettings) (eventType objectId : String) (s : WebhookEventStore) (now : Instant) :
    WebhookEventStore × Option ℕ :=
  match s.event with
  | none => (s.claimed (.created eventType objectId) now, some s.nextToken)
  | some old =>
    let row := { old with deliveryCount := old.deliveryCount + 1 }
    if row.decision.final ∨ row.Busy settings now then ({ s with event := some row }, none)
    else (s.claimed row now, some s.nextToken)

inductive ReconcilerClaim where
  | final
  | busy
  | notDue
  | exhausted
  | claimed (token : ℕ)
  deriving DecidableEq

def reconciled (s : WebhookEventStore) (row : BillingWebhookEvent) (now : Instant) : WebhookEventStore :=
  { s with
    event := some { row with
      reconciliationAttempts := row.reconciliationAttempts + 1, lastReconciliationAt := some now, decision := .received
      processingToken := some s.nextToken, processingStartedAt := some now, processedAt := none }
    nextToken := s.nextToken + 1 }

/-- `claim_webhook_event_for_reconciliation` on the row of the event. -/
def claimForReconciliation (settings : WebhookSettings) (s : WebhookEventStore) (row : BillingWebhookEvent) (force : Bool)
    (now : Instant) : WebhookEventStore × ReconcilerClaim :=
  if row.decision.final then (s, .final)
  else if row.Busy settings now then (s, .busy)
  else if force = false ∧ row.Waiting now then (s, .notDue)
  else if settings.maxAttempts ≤ row.reconciliationAttempts then (s, .exhausted)
  else (s.reconciled row now, .claimed s.nextToken)

/-- `finalize_webhook_event` on the row of the event. -/
def finalizeWebhookEvent (settings : WebhookSettings) (s : WebhookEventStore) (row : BillingWebhookEvent) (token : ℕ)
    (outcome : WebhookOutcome) (now : Instant) : WebhookEventStore :=
  if row.decision.final ∨ row.processingToken ≠ some token then s
  else
    { s with event := some { row with
        invoice := outcome.invoice
        paymentId := outcome.paymentId
        decision := outcome.decision
        reason := String.ofList (outcome.reason.toList.take 500)
        processingToken := none
        processingStartedAt := none
        processedAt := some now
        nextReconciliationAt :=
          if outcome.decision = .error then
            some (now + 1000000 * BillingService.reconciliationDelaySeconds (settings.reconciler now) (max 1 row.reconciliationAttempts))
          else none } }

/-- `_finalize_exhausted_event` on the row of the event: one transaction for the row and its invoice. -/
def finalizeExhaustedEvent (settings : WebhookSettings) (s : WebhookEventStore) (row : BillingWebhookEvent) (now : Instant) :
    WebhookEventStore :=
  if row.decision.final then s
  else if row.reconciliationAttempts < settings.maxAttempts ∨ row.Busy settings now then s
  else
    match BillingService.finalizeExhaustedEvent (.ofType row.eventType) row.invoice row.lookupPaymentId s.billing with
    | .error _ => s
    | .ok (billing, _) =>
      { s with
        billing
        event := some { row with
          invoice := (row.exhaustedInvoice s.billing).map Invoice.pk
          decision := .manualReview
          reason := exhaustedReason
          processingToken := none
          processingStartedAt := none
          nextReconciliationAt := none
          processedAt := some now } }

end WebhookEventStore

namespace WebhookEventWorker
open WebhookEventStore

def reconciling (event : YooKassaEvent) : ReconcilerClaim → WebhookEventWorker
  | .claimed token => .process token (.read event)
  | .exhausted => .close
  | _ => .done

variable (settings : WebhookSettings) (eventType objectId : String)

def advance : WebhookEventWorker → WebhookEventInput → WebhookEventStore → WebhookEventStore × WebhookEventWorker
  | .deliver, input, s =>
    let (s, token) := s.claimWebhookEvent settings eventType objectId input.now
    (s, token.elim .done fun token => .process token (.read (.ofType eventType)))
  | .select named force, input, s =>
    (s, if (s.event.any fun row => decide (row.Candidate settings named force input.now)) && input.selected then .claim force
      else .done)
  | .claim force, input, s =>
    match s.event with
    | none => (s, .done)
    | some row =>
      let (s, answer) := s.claimForReconciliation settings row force input.now
      (s, reconciling (.ofType eventType) answer)
  | .process token .finished, _, s => (s, .finalize token)
  | .process token step, input, s =>
    let (billing, step) := step.advance input.billing s.billing
    ({ s with billing }, .process token step)
  | .finalize token, input, s =>
    match s.event with
    | none => (s, .done)
    | some row => (s.finalizeWebhookEvent settings row token input.outcome input.now, .done)
  | .close, input, s =>
    match s.event with
    | none => (s, .done)
    | some row => (s.finalizeExhaustedEvent settings row input.now, .done)
  | .done, _, s => (s, .done)

def token? : WebhookEventWorker → Option ℕ
  | .process token _ | .finalize token => some token
  | _ => none

end WebhookEventWorker

/-- A delivery by the provider or by the poll of an invoice, or a run of the reconciler over due or named events. -/
inductive WebhookEventTask where
  | deliver
  | reconcile (named force : Bool)

def WebhookEventTask.worker : WebhookEventTask → WebhookEventWorker
  | .deliver => .deliver
  | .reconcile named force => .select named force

abbrev WebhookEventCrew := Crew WebhookEventStore WebhookEventWorker

/-- A worker starts, moves or crashes, or another transaction writes the billing rows. -/
abbrev WebhookEventAction := CrewAction WebhookEventTask WebhookEventInput BillingStore

namespace WebhookEventCrew

def next (settings : WebhookSettings) (eventType objectId : String) (c : WebhookEventCrew) (a : WebhookEventAction) : WebhookEventCrew :=
  Crew.act (fun s billing => { s with billing }) (WebhookEventWorker.advance settings eventType objectId) WebhookEventTask.worker c a

def undelivered (billing : BillingStore) : WebhookEventCrew where
  store := { event := none, billing, nextToken := 0 }
  workers := []

end WebhookEventCrew

end MapBackend.Billing
