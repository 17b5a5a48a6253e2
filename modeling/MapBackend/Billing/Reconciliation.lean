import MapBackend.Billing.Services

/-!
The transactions of the YooKassa reconciler on an invoice row.
-/

namespace MapBackend.Billing
open MapBackend.Library

inductive YooKassaEvent where
  | paymentSucceeded | paymentCanceled | refundSucceeded | unsupported
  deriving DecidableEq, Repr

structure ReconcilerEnv where
  now : Instant
  maxAttempts : ℕ
  baseDelaySeconds : ℕ
  maxDelaySeconds : ℕ

inductive PollClaim where
  | final | missingPaymentId | notDue | exhausted | claimed
  deriving DecidableEq, Repr

namespace BillingService

def reconciliationDelaySeconds (env : ReconcilerEnv) (attempt : ℕ) : ℕ :=
  min env.maxDelaySeconds (env.baseDelaySeconds * 2 ^ min (attempt - 1) 16)

/-- The invoice row of a claimed poll; an operator's recovery neither counts nor schedules. -/
def polledInvoice (env : ReconcilerEnv) (invoice : Invoice) (recovering : Bool) : Invoice :=
  if recovering then { invoice with nextReconciliationAt := none }
  else { invoice with
    reconciliationAttempts := invoice.reconciliationAttempts + 1
    nextReconciliationAt := some (env.now +
      1000000 * reconciliationDelaySeconds env (invoice.reconciliationAttempts + 1)) }

def claimProviderInvoice (env : ReconcilerEnv) (force : Bool) (invoiceId : ℕ) (s : BillingStore) :
    Except BillingError (BillingStore × Invoice × PollClaim) := do
  let invoice ← orRaise .doesNotExist (getInvoice s invoiceId)
  let recovering := force && isUnsettledCheckoutManual invoice
  if invoice.status ≠ .pending ∧ recovering = false then .ok (s, invoice, .final)
  else if invoice.yookassaPaymentId = "" then .ok (s, invoice, .missingPaymentId)
  else if force = false ∧ (invoice.nextReconciliationAt.any fun due => decide (env.now < due)) = true then
    .ok (s, invoice, .notDue)
  else if env.maxAttempts ≤ invoice.reconciliationAttempts ∧ recovering = false then
    let reason := "Исчерпан лимит автоматической сверки состояния платежа YooKassa."
    .ok (markManualReviewLocked s invoice reason false, reviewedInvoice invoice reason false, .exhausted)
  else
    let polled := polledInvoice env invoice recovering
    .ok (saveInvoice s polled, polled, .claimed)

def recordInvoicePollError (invoiceId : ℕ) (message : String) (s : BillingStore) :
    Except BillingError (BillingStore × Unit) := do
  let invoice ← orRaise .doesNotExist (getInvoice s invoiceId)
  if invoice.status ≠ .pending ∧ isUnsettledCheckoutManual invoice = false then .ok (s, ())
  else .ok (saveInvoice s { invoice with checkoutLastError := String.ofList (message.toList.take 500) }, ())

def compatibleStatuses : YooKassaEvent → List InvoiceStatus
  | .paymentSucceeded => [.paid, .partiallyRefunded, .refunded]
  | .paymentCanceled => [.failed]
  | .refundSucceeded => [.partiallyRefunded, .refunded]
  | .unsupported => []

def findByPayment (s : BillingStore) (paymentId : String) : Option Invoice :=
  s.invoices.find? fun invoice => decide (invoice.yookassaPaymentId = paymentId)

/-- The invoice of an exhausted event: the recorded one, else the one of its payment. -/
def exhaustedInvoice (s : BillingStore) (invoiceId : Option ℕ) (paymentId : String) : Option Invoice :=
  match invoiceId with
  | some pk => getInvoice s pk
  | none => if paymentId = "" then none else findByPayment s paymentId

/-- The invoice part of `_finalize_exhausted_event`: an incompatible invoice goes to an operator. -/
def finalizeExhaustedEvent (event : YooKassaEvent) (invoiceId : Option ℕ) (paymentId : String)
    (s : BillingStore) : Except BillingError (BillingStore × Bool) :=
  match exhaustedInvoice s invoiceId paymentId with
  | none => .ok (s, false)
  | some invoice =>
    if invoice.status ∈ compatibleStatuses event then .ok (s, false)
    else .ok (markManualReviewLocked s invoice "Исчерпан лимит автоматической сверки YooKassa."
      (event == .refundSucceeded), true)

end BillingService

end MapBackend.Billing
