import MapBackend.Billing.PaymentRun
import MapBackend.Library.Workers

/-!
Workers that deliver an outcome: `process_claimed_yookassa_event` of a webhook delivery or
its replay, and `_process_payment_state` of the reconciler.
-/

namespace MapBackend.Billing
open MapBackend.Library BillingService

inductive PaymentStatus where
  | pending | waitingForCapture | succeeded | canceled
  deriving DecidableEq, Repr

inductive RefundStatus where
  | pending | succeeded | canceled
  deriving DecidableEq, Repr

structure PaymentSnapshot where
  id : String
  status : PaymentStatus
  amount : ℚ
  currency : String
  test : Bool

structure RefundSnapshot where
  id : String
  status : RefundStatus
  paymentId : String
  amount : ℚ
  currency : String

inductive ClaimState where
  | final | busy | claimed
  deriving DecidableEq, Repr

/-- What one move of a worker reads outside the billing rows; a fetch that raised is `none`. -/
structure BillingInput where
  env : BillingEnv
  reconciler : ReconcilerEnv
  allowTestPayments : Bool
  validProviderId : Bool
  payment : Option PaymentSnapshot
  refund : Option RefundSnapshot
  claim : ClaimState
  acknowledged : Bool

inductive WebhookStep where
  | read (event : YooKassaEvent)
  | success (invoice : ℕ) (payment : PaymentSnapshot)
  | canceled (invoice : ℕ) (payment : PaymentSnapshot)
  | refund (invoice : ℕ) (returned : RefundSnapshot)
  /-- The handler answered `False`; without a reason the invoice's last error is the reason. -/
  | refused (invoice : ℕ) (reason : Option String)
  | review (invoice : ℕ) (reason : String) (refundReview : Bool)
  | finished

namespace WebhookStep

/-- The confirmed provider objects of the event, when their statuses are those it announces. -/
def confirmed (event : YooKassaEvent) (input : BillingInput) :
    Option (PaymentSnapshot × Option RefundSnapshot) :=
  match event, input.payment, input.refund with
  | .paymentSucceeded, some payment, _ =>
    if payment.status = .succeeded then some (payment, none) else none
  | .paymentCanceled, some payment, _ =>
    if payment.status = .canceled then some (payment, none) else none
  | .refundSucceeded, some payment, some returned =>
    if returned.status = .succeeded ∧ payment.status = .succeeded then some (payment, some returned)
    else none
  | _, _, _ => none

/-- The handler call the event asks for on its invoice, after the checks of the provider objects. -/
def dispatch (event : YooKassaEvent) (input : BillingInput) (invoice : Invoice)
    (payment : PaymentSnapshot) (returned : Option RefundSnapshot) : WebhookStep :=
  let providerCurrency := (returned.map RefundSnapshot.currency).getD payment.currency
  if payment.test = true ∧ input.allowTestPayments = false then
    .review invoice.pk "Тестовый платёж не активирует товары или баланс." false
  else if providerCurrency ≠ invoice.currency ∨ payment.currency ≠ invoice.currency ∨
      payment.amount ≠ invoice.amount.value then
    .review invoice.pk "Сумма или валюта авторитетного объекта не совпадает с Invoice."
      (event == .refundSucceeded)
  else
    match event, returned with
    | .paymentSucceeded, _ => .success invoice.pk payment
    | .paymentCanceled, _ => .canceled invoice.pk payment
    | .refundSucceeded, some returned => .refund invoice.pk returned
    | _, _ => .finished

def start (event : YooKassaEvent) (input : BillingInput) (s : BillingStore) : WebhookStep :=
  if event = .unsupported ∨ input.validProviderId = false then .finished
  else
    match confirmed event input with
    | none => .finished
    | some (payment, returned) =>
      let paymentId := (returned.map RefundSnapshot.paymentId).getD payment.id
      match s.invoices.filter fun invoice => decide (invoice.yookassaPaymentId = paymentId) with
      | [invoice] => dispatch event input invoice payment returned
      | _ => .finished

def afterHandler (invoice : ℕ) (reason : Option String) :
    Except BillingError (BillingStore × Bool) → WebhookStep
  | .ok (_, false) => .refused invoice reason
  | _ => .finished

def afterReversal (invoice : ℕ) : Except BillingError (BillingStore × Option PaymentReversal) → WebhookStep
  | .ok (_, none) => .review invoice "Подтверждённый возврат не удалось применить." true
  | _ => .finished

def reread (invoice : ℕ) (reason : Option String) (s : BillingStore) : WebhookStep :=
  match getInvoice s invoice with
  | none => .finished
  | some row =>
    if row.status = .manualReview then .finished
    else .review invoice (reason.getD (if row.checkoutLastError = "" then
      "Оплаченный Invoice не прошёл повторную проверку." else row.checkoutLastError)) false

def advance (input : BillingInput) (s : BillingStore) : WebhookStep → BillingStore × WebhookStep
  | .read event => (s, start event input s)
  | .success invoice payment =>
    let outcome := handlePaymentSuccessWebhook input.env invoice payment.id (some payment.amount)
      payment.currency s
    (commit s outcome, afterHandler invoice none outcome)
  | .canceled invoice payment =>
    let outcome := handlePaymentFailedWebhook invoice payment.id s
    (commit s outcome,
      afterHandler invoice (some "Статус Invoice не согласуется с отменённым платежом.") outcome)
  | .refund invoice returned =>
    let outcome := handleReversalSuccess input.env invoice
      { providerReference := returned.id, paymentId := returned.paymentId, amount := some returned.amount,
        currency := returned.currency, kind := .refund } s
    (commit s outcome, afterReversal invoice outcome)
  | .refused invoice reason => (s, reread invoice reason s)
  | .review invoice reason refundReview =>
    (commit s (markInvoiceManualReview invoice reason refundReview s), .finished)
  | .finished => (s, .finished)

end WebhookStep

/-- A webhook delivery, or the reconciler on one invoice or one exhausted event. -/
inductive BillingWorker where
  /-- After the step is finished the reconciler looks at the invoice it polled. -/
  | webhook (step : WebhookStep) (polled : Option ℕ)
  | reconcile (invoice : ℕ) (force : Bool)
  | poll (invoice : Invoice)
  | recover (invoice : ℕ) (payment : PaymentSnapshot)
  | pollError (invoice : ℕ) (message : String)
  | stillPending (invoice : ℕ) (reason : String)
  | exhausted (event : YooKassaEvent) (invoice : Option ℕ) (paymentId : String)
  | finished

namespace BillingWorker

def review (invoice : ℕ) (reason : String) : BillingWorker := .webhook (.review invoice reason false) none

/-- `_process_payment_state` up to its next transaction, on the invoice as the claim read it. -/
def processPaymentState (input : BillingInput) (invoice : Invoice) : BillingWorker :=
  match input.payment with
  | none => .pollError invoice.pk "Не удалось сверить платёж YooKassa."
  | some snapshot =>
    if snapshot.amount ≠ invoice.amount.value ∨ snapshot.currency ≠ invoice.currency then
      review invoice.pk ("Сверка YooKassa обнаружила несовпадение суммы или валюты: ожидалось " ++
        input.env.decimalText invoice.amount.value ++ " " ++ invoice.currency ++ ", получено " ++
        input.env.decimalText snapshot.amount ++ " " ++ snapshot.currency ++ ".")
    else if snapshot.test = true ∧ input.allowTestPayments = false then
      review invoice.pk "Тестовый платёж YooKassa не может активировать entitlement."
    else if isUnsettledCheckoutManual invoice = true ∧
        (snapshot.status = .succeeded ∨ snapshot.status = .canceled) then
      .recover invoice.pk snapshot
    else
      match snapshot.status with
      | .pending => .pollError invoice.pk "Платёж YooKassa пока находится в статусе pending."
      | .waitingForCapture =>
        .pollError invoice.pk "Платёж YooKassa пока находится в статусе waiting_for_capture."
      | settled =>
        match input.claim with
        | .final => .stillPending invoice.pk
          "Авторитетное событие YooKassa уже завершено, но Invoice остался pending."
        | .busy => .finished
        | .claimed => .webhook
          (.read (if settled = .succeeded then .paymentSucceeded else .paymentCanceled)) (some invoice.pk)

def recoverOutcome (input : BillingInput) (invoice : ℕ) (payment : PaymentSnapshot) (s : BillingStore) :
    Except BillingError (BillingStore × Bool) :=
  if payment.status = .succeeded then
    handlePaymentSuccessWebhook input.env invoice payment.id (some payment.amount) payment.currency s
  else handlePaymentFailedWebhook invoice payment.id s

def afterClaim : Except BillingError (BillingStore × Invoice × PollClaim) → BillingWorker
  | .ok (_, invoice, .claimed) => .poll invoice
  | _ => .finished

def recheck (invoice : ℕ) (reason : String) (s : BillingStore) : BillingWorker :=
  match getInvoice s invoice with
  | none => .finished
  | some row => if row.status = .pending then review invoice reason else .finished

def advance : BillingWorker → BillingInput → BillingStore → BillingStore × BillingWorker
  | .webhook .finished (some invoice), input, s =>
    (s, if input.acknowledged then
        .stillPending invoice "Авторитетное событие обработано, но Invoice остался pending."
      else .finished)
  | .webhook step polled, input, s =>
    let (s, step) := step.advance input s
    (s, .webhook step polled)
  | .reconcile invoice force, input, s =>
    let outcome := claimProviderInvoice input.reconciler force invoice s
    (commit s outcome, afterClaim outcome)
  | .poll invoice, input, s => (s, processPaymentState input invoice)
  | .recover invoice payment, input, s => (commit s (recoverOutcome input invoice payment s), .finished)
  | .pollError invoice message, _, s => (commit s (recordInvoicePollError invoice message s), .finished)
  | .stillPending invoice reason, _, s => (s, recheck invoice reason s)
  | .exhausted event invoice paymentId, _, s =>
    (commit s (finalizeExhaustedEvent event invoice paymentId s), .finished)
  | .finished, _, s => (s, .finished)

end BillingWorker

theorem WebhookStep.advance_serial (step : WebhookStep) (input : BillingInput) (s : BillingStore) :
    (step.advance input s).1 = s ∨ ∃ e, (step.advance input s).1 = s.next e := by
  cases step with
  | read => exact .inl rfl
  | success invoice payment =>
    exact .inr ⟨.paymentSuccess input.env invoice payment.id (some payment.amount) payment.currency, rfl⟩
  | canceled invoice payment => exact .inr ⟨.paymentFailed invoice payment.id, rfl⟩
  | refund invoice => exact .inr ⟨.reversal input.env invoice _, rfl⟩
  | refused => exact .inl rfl
  | review invoice reason refundReview => exact .inr ⟨.manualReview invoice reason refundReview, rfl⟩
  | finished => exact .inl rfl

theorem BillingWorker.advance_serial : Serial BillingStore.next BillingWorker.advance := by
  intro w input s
  cases w with
  | webhook step polled =>
    have moved := WebhookStep.advance_serial step input s
    cases step <;> cases polled <;> exact moved
  | reconcile invoice force => exact .inr ⟨.claimPoll input.reconciler force invoice, rfl⟩
  | poll => exact .inl rfl
  | recover invoice payment =>
    by_cases paid : payment.status = .succeeded
    · refine .inr ⟨.paymentSuccess input.env invoice payment.id (some payment.amount) payment.currency, ?_⟩
      simp [advance, recoverOutcome, paid, BillingStore.next]
    · refine .inr ⟨.paymentFailed invoice payment.id, ?_⟩
      simp [advance, recoverOutcome, paid, BillingStore.next]
  | pollError invoice message => exact .inr ⟨.pollError invoice message, rfl⟩
  | stillPending => exact .inl rfl
  | exhausted event invoice paymentId => exact .inr ⟨.exhausted event invoice paymentId, rfl⟩
  | finished => exact .inl rfl

/-- The deliveries in progress on the billing rows, and their moves together with direct calls. -/
abbrev BillingCrew := Crew BillingStore BillingWorker

abbrev BillingAction := CrewAction BillingWorker BillingInput BillingEvent

def BillingCrew.next (c : BillingCrew) (a : BillingAction) : BillingCrew :=
  Crew.step BillingStore.next BillingWorker.advance c a

end MapBackend.Billing
