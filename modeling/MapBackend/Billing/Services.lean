import MapBackend.Billing.Invoices

/-!
The payment handlers of the billing service.
-/

namespace MapBackend.Billing
open MapBackend.Library

namespace BillingService

def getInvoice (s : BillingStore) (invoiceId : ℕ) : Option Invoice :=
  s.invoices.find? fun invoice => decide (invoice.pk = invoiceId)

def saveInvoice (s : BillingStore) (invoice : Invoice) : BillingStore :=
  { s with invoices := s.invoices.map fun row => if row.pk = invoice.pk then invoice else row }

def liftWallet {R : Type} : Except WalletError R → Except BillingError R
  | .ok r => .ok r
  | .error e => .error (.wallet e)

def withCredits {R : Type} (s : BillingStore) (operation : WalletStore → Except WalletError (WalletStore × R)) :
    Except BillingError (BillingStore × R) := do
  let (credits, result) ← liftWallet (operation s.credits)
  .ok ({ s with credits }, result)

/-- `_enqueue` of the outbox: `get_or_create` by key, a different event under the key raises. -/
def enqueue (s : BillingStore) (event : BillingOutboxEvent) : Except BillingError BillingStore := do
  raiseIf (event.idempotencyKey = "" ∨ 200 < event.idempotencyKey.length) .valueError
  match s.outbox.find? fun row => decide (row.idempotencyKey = event.idempotencyKey) with
  | some existing => if existing = event then .ok s else .error .outboxConflict
  | none => .ok { s with outbox := s.outbox ++ [event] }

def enqueueNotification (s : BillingStore) (invoice : Invoice) (level message key : String) :
    Except BillingError BillingStore := do
  raiseIf (message = "" ∨ 2000 < message.length) .valueError
  enqueue s { idempotencyKey := key, invoice := some invoice.pk, payload := .notification level message }

def paidKey (invoice : Invoice) (purpose : String) : String :=
  "invoice:" ++ toString invoice.pk ++ ":paid:" ++ purpose ++ ":v1"

def reviewedInvoice (invoice : Invoice) (reason : String) (refundReview : Bool) : Invoice :=
  { invoice with
    status := .manualReview
    checkoutState :=
      if invoice.checkoutClientKey.isSome then .manualReview else invoice.checkoutState
    checkoutLastError := String.ofList (reason.toList.take 500)
    nextReconciliationAt := none
    refundReviewRequired := invoice.refundReviewRequired || refundReview }

def markManualReviewLocked (s : BillingStore) (invoice : Invoice) (reason : String)
    (refundReview : Bool) : BillingStore :=
  saveInvoice s (reviewedInvoice invoice reason refundReview)

def markInvoiceManualReview (invoiceId : ℕ) (reason : String) (refundReview : Bool)
    (s : BillingStore) : Except BillingError (BillingStore × Unit) := do
  let invoice ← orRaise .doesNotExist (getInvoice s invoiceId)
  .ok (markManualReviewLocked s invoice reason refundReview, ())

def refuse (s : BillingStore) (invoice : Invoice) (reason : String) :
    Except BillingError (BillingStore × Bool) :=
  .ok (markManualReviewLocked s invoice reason false, false)

def fulfilTopup (env : BillingEnv) (invoice : Invoice) (credits : ℚ) (snapshot : EntitlementSnapshot)
    (s : BillingStore) : Except BillingError (BillingStore × Bool) := do
  let paid := { paidInvoice env invoice with entitlementSnapshot := some snapshot }
  let s := { saveInvoice s paid with applied := .topup invoice.pk credits :: s.applied }
  let (s, ()) ← withCredits s (AIWalletService.topup env.toWalletEnv s.tenant credits
    (topupKey invoice.yookassaPaymentId) invoice.yookassaPaymentId)
  let s ← enqueueNotification s invoice "billing"
    ("AI-баланс пополнен на " ++ env.decimalText credits ++ " кредитов.")
    (paidKey invoice "notification")
  .ok (s, true)

/-- The included package of a newly paid term; a legacy status-only payment grants none. -/
def grantPaidTerm (env : BillingEnv) (sub : Subscription) (purchase : SubscriptionPurchase)
    (s : BillingStore) : Except BillingError (BillingStore × Unit) :=
  if purchase.legacyStatusOnly then .ok (s, ())
  else
    let tenant := s.tenant
    withCredits { s with tenant := { tenant with aiCreditsUsed := 0 } }
      (AIWalletService.grantIncluded env.toWalletEnv tenant (some (AIWalletService.effectiveLimit tenant))
        sub.aiPeriodEnd
        ("subscription-grant:" ++ toString sub.pk ++ ":v" ++ toString sub.billingVersion))

def fulfilSubscription (env : BillingEnv) (invoice : Invoice) (sub : Subscription)
    (purchase : SubscriptionPurchase) (s : BillingStore) :
    Except BillingError (BillingStore × Bool) := do
  let extended ← orRaise .valueError (extendSubscription env sub purchase)
  let paid := paidInvoice env invoice
  let paid := match invoice.entitlementSnapshot with
    | some _ => paid
    | none => { paid with
        entitlementSnapshot := some (backfilledSubscription invoice sub purchase)
        entitlementPlan := some purchase.plan.pk }
  let s := { saveInvoice s paid with
    tenant := { s.tenant with subscription := some extended }
    applied := .subscription invoice.pk (!purchase.legacyStatusOnly) :: s.applied }
  let (s, ()) ← grantPaidTerm env extended purchase s
  let s ← enqueueNotification s invoice "billing"
    ("Оплата " ++ env.decimalText invoice.amount.value ++ "₽ прошла успешно. Подписка активирована.")
    (paidKey invoice "notification")
  let s ← enqueue s
    { idempotencyKey := paidKey invoice "requeue", invoice := some invoice.pk,
      payload := .requeueLimitReached }
  .ok (s, true)

def fulfil (env : BillingEnv) (invoice : Invoice) (s : BillingStore) :
    Except BillingError (BillingStore × Bool) :=
  match invoice.purchaseType with
  | .aiTopup =>
    match aiEntitlementFromInvoice s invoice with
    | none => refuse s invoice "Нельзя определить купленное число AI-кредитов."
    | some (credits, snapshot) => fulfilTopup env invoice credits snapshot s
  | .subscription =>
    match s.tenant.subscription with
    | none => refuse s invoice "Подписка тенанта не найдена."
    | some sub =>
      match subscriptionPurchase s sub invoice with
      | .error reason => refuse s invoice reason
      | .ok purchase => fulfilSubscription env invoice sub purchase s

def awaitsOutcome (invoice : Invoice) : Bool :=
  invoice.status == .pending || isUnsettledCheckoutManual invoice

def alreadyPaid (invoice : Invoice) : Bool :=
  invoice.status == .paid || invoice.status == .partiallyRefunded || invoice.status == .refunded

/-- `currency` is the normalised text `str(currency or '').upper()`. -/
def handlePaymentSuccessWebhook (env : BillingEnv) (invoiceId : ℕ) (paymentId : String)
    (amount : Option ℚ) (currency : String) (s : BillingStore) :
    Except BillingError (BillingStore × Bool) :=
  match getInvoice s invoiceId with
  | none => .ok (s, false)
  | some invoice =>
    if paymentId = "" ∨ invoice.yookassaPaymentId ≠ paymentId then
      refuse s invoice ("Invoice не принадлежит payment_id=" ++ paymentId ++ ".")
    else
      match parseAmount amount with
      | none => refuse s invoice "Авторитетный платёж содержит некорректную сумму."
      | some received =>
        if isCurrencyCode env (env.upper currency) = false ∨ received ≠ invoice.amount.value ∨
            env.upper currency ≠ invoice.currency then
          refuse s invoice ("Платёж " ++ paymentId ++ ": ожидалось " ++
            env.decimalText invoice.amount.value ++ " " ++ invoice.currency ++ ", получено " ++
            env.decimalText received ++ " " ++
            (if env.upper currency = "" then "<empty>" else env.upper currency) ++ ".")
        else if alreadyPaid invoice then .ok (s, true)
        else if awaitsOutcome invoice = false then .ok (s, false)
        else fulfil env invoice s

def handlePaymentFailedWebhook (invoiceId : ℕ) (paymentId : String) (s : BillingStore) :
    Except BillingError (BillingStore × Bool) :=
  match getInvoice s invoiceId with
  | none => .ok (s, false)
  | some invoice =>
    if paymentId = "" ∨ invoice.yookassaPaymentId ≠ paymentId then .ok (s, false)
    else if invoice.status = .failed then .ok (s, true)
    else if awaitsOutcome invoice = false then .ok (s, false)
    else
      .ok (saveInvoice s { invoice with
        status := .failed
        checkoutLastError := ""
        nextReconciliationAt := none
        checkoutState :=
          if isUnsettledCheckoutManual invoice then .providerCreated else invoice.checkoutState }, true)

structure ReversalNotice where
  providerReference : String
  paymentId : String
  amount : Option ℚ
  currency : String
  kind : ReversalKind
  deriving DecidableEq

/-- `_reversal_matches`: the stored row is a repetition of the same notice. -/
def reversalMatches (reversal : PaymentReversal) (invoice : Invoice) (notice : ReversalNotice)
    (amount : ℚ) (currency : String) : Bool :=
  decide (reversal.providerReference = notice.providerReference ∧ reversal.invoice = invoice.pk ∧
    reversal.paymentId = notice.paymentId ∧ reversal.amount.value = amount ∧
    reversal.currency = currency ∧ reversal.kind = notice.kind)

def findReversal (s : BillingStore) (reference : String) : Option PaymentReversal :=
  s.reversals.find? fun reversal => decide (reversal.providerReference = reference)

/-- A manual-review row without credits. The reference is still unused here: the lookup ran
under the invoice lock, and a racing insert of another invoice ends like an earlier one. -/
def newReversal (invoice : Invoice) (notice : ReversalNotice) (amount : ℚ) (currency reason : String) :
    Except BillingError PaymentReversal := do
  let stored ← orRaise .dataError (Numeric.store 10 2 amount)
  .ok { invoice := invoice.pk, kind := notice.kind, providerReference := notice.providerReference,
        paymentId := notice.paymentId, amount := stored, currency,
        creditsRequested := 0, creditsReversed := 0, creditShortfall := 0,
        status := .manualReview, reason }

def addReversal (s : BillingStore) (reversal : PaymentReversal) (invoice : Invoice) : BillingStore :=
  { saveInvoice s invoice with reversals := s.reversals ++ [reversal] }

def quarantined (invoice : Invoice) : Invoice :=
  { invoice with refundReviewRequired := true, status := .manualReview }

def requestedUnits (s : BillingStore) (invoice : Invoice) : ℤ :=
  ((s.reversals.filter fun reversal => reversal.invoice = invoice.pk).map
    fun reversal => reversal.creditsRequested.units).sum

def previousRequested (s : BillingStore) (invoice : Invoice) : ℚ := requestedUnits s invoice / 10 ^ 4

def reversalTransactionKind : ReversalKind → TransactionKind
  | .refund => .refund
  | .chargeback => .chargeback

def reversalPrefix : ReversalKind → String
  | .refund => "refund:"
  | .chargeback => "chargeback:"

def reversalKey (notice : ReversalNotice) : String := reversalPrefix notice.kind ++ notice.providerReference

/-- Refuse a new notice but keep it: a row without credits, the invoice under review. -/
def keepForReview (s : BillingStore) (invoice : Invoice) (notice : ReversalNotice) (amount : ℚ)
    (currency reason : String) : Except BillingError (BillingStore × Option PaymentReversal) := do
  let reversal ← newReversal invoice notice amount currency reason
  .ok (addReversal s reversal (quarantined invoice), some reversal)

def reverseTopup (env : BillingEnv) (invoice : Invoice) (notice : ReversalNotice)
    (refunded : Rubles) (reversal : PaymentReversal) (credits : ℚ) (snapshot : EntitlementSnapshot)
    (s : BillingStore) : Except BillingError (BillingStore × Option PaymentReversal) := do
  let requested := max 0 (creditTarget invoice credits refunded.value - previousRequested s invoice)
  let (s, reversed, shortfall) ← withCredits s (AIWalletService.reversePurchased env.toWalletEnv s.tenant
    requested (reversalKey notice) notice.providerReference (reversalTransactionKind notice.kind))
  let creditsRequested ← liftWallet (AIWalletService.writeCredits requested)
  let creditsReversed ← liftWallet (AIWalletService.writeCredits reversed)
  let creditShortfall ← liftWallet (AIWalletService.writeCredits shortfall)
  let invoice := { invoice with refundedAmount := refunded, entitlementSnapshot := some snapshot }
  let reversal := { reversal with creditsRequested, creditsReversed, creditShortfall }
  if shortfall = 0 then
    let status := if refunded = invoice.amount then .refunded else .partiallyRefunded
    let reversal := { reversal with status := .applied }
    .ok (addReversal s reversal { invoice with status }, some reversal)
  else
    let reversal := { reversal with reason :=
      "Не удалось отозвать " ++ env.decimalText shortfall ++ " уже потраченных или зарезервированных кредитов." }
    .ok (addReversal s reversal (quarantined invoice), some reversal)

def acceptReversal (env : BillingEnv) (invoice : Invoice) (notice : ReversalNotice) (amount : ℚ)
    (currency : String) (s : BillingStore) :
    Except BillingError (BillingStore × Option PaymentReversal) := do
  let refunded ← orRaise .dataError (Numeric.store 10 2 (invoice.refundedAmount.value + amount))
  let reversal ← newReversal invoice notice amount currency ""
  match invoice.purchaseType with
  | .subscription =>
    let reversal := { reversal with reason :=
      "Возврат подписки требует ручной проверки периода и объёма оказанной услуги." }
    .ok (addReversal s reversal (quarantined { invoice with refundedAmount := refunded }), some reversal)
  | .aiTopup =>
    match aiEntitlementFromInvoice s invoice with
    | none =>
      let reversal := { reversal with reason := "Нельзя определить исходно купленные кредиты." }
      .ok (addReversal s reversal (quarantined { invoice with refundedAmount := refunded }), some reversal)
    | some (credits, snapshot) => reverseTopup env invoice notice refunded reversal credits snapshot s

def refundable (invoice : Invoice) : Bool :=
  invoice.status == .paid || invoice.status == .partiallyRefunded || invoice.status == .manualReview

def handleReversalSuccess (env : BillingEnv) (invoiceId : ℕ) (notice : ReversalNotice)
    (s : BillingStore) : Except BillingError (BillingStore × Option PaymentReversal) :=
  if notice.providerReference = "" ∨ 200 < notice.providerReference.length then .ok (s, none)
  else
    match getInvoice s invoiceId with
    | none => .ok (s, none)
    | some invoice =>
      if notice.paymentId = "" ∨ invoice.yookassaPaymentId ≠ notice.paymentId then .ok (s, none)
      else
        match parseAmount notice.amount with
        | none => .ok (s, none)
        | some amount =>
          if isCurrencyCode env (env.upper notice.currency) = false then .ok (s, none)
          else
            match findReversal s notice.providerReference with
            | some existing =>
              if reversalMatches existing invoice notice amount (env.upper notice.currency) then
                .ok (s, some existing)
              else .ok (s, none)
            | none =>
              if refundable invoice = false then
                keepForReview s invoice notice amount (env.upper notice.currency)
                  "Исходный Invoice не находился в оплачиваемом статусе."
              else if env.upper notice.currency ≠ invoice.currency then
                keepForReview s invoice notice amount (env.upper notice.currency)
                  "Некорректная сумма или валюта возврата."
              else if invoice.amount.value - invoice.refundedAmount.value < amount then
                keepForReview s invoice notice amount (env.upper notice.currency)
                  "Сумма возвратов превышает сумму исходного платежа."
              else acceptReversal env invoice notice amount (env.upper notice.currency) s

end BillingService

end MapBackend.Billing
