import MapBackend.Billing.AIWallet

/-!
Invoices and payment reversals of one tenant, and the pure decisions of the billing
service on them: parsing of an authoritative amount, the entitlement of a top-up, the
purchase a subscription invoice stands for and the new term it buys.
-/

namespace MapBackend.Billing
open MapBackend.Library

inductive InvoiceStatus where
  | pending | paid | failed | partiallyRefunded | refunded | manualReview
  deriving DecidableEq, Repr

inductive PurchaseType where
  | subscription | aiTopup
  deriving DecidableEq, Repr

inductive CheckoutState where
  | legacy | intentCreated | providerPending | providerCreated | manualReview
  deriving DecidableEq, Repr

inductive JsonDecimal where
  | invalid
  | nonFinite
  | finite (q : ℚ)
  deriving DecidableEq

/-- The non-empty JSON snapshot of a purchase, as the service reads it. `planId` is the
result of `int(str(..))`, absent when that raises. -/
structure EntitlementSnapshot where
  schema : Option ℤ
  purchaseType : Option PurchaseType
  amount : JsonDecimal
  currency : Option String
  packageCredits : JsonDecimal
  packagePriceRub : JsonDecimal
  period : Option String
  planId : Option ℤ
  planSlug : Option String
  expectedSubscriptionVersion : Option ℕ
  deriving DecidableEq

structure InvoiceMetadata where
  planSlug : Option String
  period : Option String
  deriving DecidableEq

structure Invoice where
  pk : ℕ
  amount : Rubles
  currency : String
  purchaseType : PurchaseType
  metadata : InvoiceMetadata
  status : InvoiceStatus
  yookassaPaymentId : String
  paidAt : Option Instant
  refundedAmount : Rubles
  refundReviewRequired : Bool
  checkoutClientKey : Option String
  checkoutState : CheckoutState
  checkoutLastError : String
  entitlementSnapshot : Option EntitlementSnapshot
  entitlementPlan : Option ℕ
  expectedSubscriptionVersion : Option ℕ
  reconciliationAttempts : ℕ
  nextReconciliationAt : Option Instant
  deriving DecidableEq

inductive ReversalKind where
  | refund | chargeback
  deriving DecidableEq, Repr

inductive ReversalStatus where
  | applied | manualReview | rejected
  deriving DecidableEq, Repr

structure PaymentReversal where
  invoice : ℕ
  kind : ReversalKind
  providerReference : String
  paymentId : String
  amount : Rubles
  currency : String
  creditsRequested : Credits
  creditsReversed : Credits
  creditShortfall : Credits
  status : ReversalStatus
  reason : String
  deriving DecidableEq

inductive OutboxPayload where
  | notification (level message : String)
  | requeueLimitReached
  deriving DecidableEq

structure BillingOutboxEvent where
  idempotencyKey : String
  invoice : Option ℕ
  payload : OutboxPayload
  deriving DecidableEq

inductive Entitlement where
  | topup (invoice : ℕ) (credits : ℚ)
  | subscription (invoice : ℕ) (granted : Bool)
  deriving DecidableEq

def Entitlement.invoice : Entitlement → ℕ
  | .topup invoice _ => invoice
  | .subscription invoice _ => invoice

/-- The billing rows of one tenant. `applied` is the history of the entitlement writes. -/
structure BillingStore where
  tenant : Tenant
  plans : List Plan
  invoices : List Invoice
  reversals : List PaymentReversal
  credits : WalletStore
  outbox : List BillingOutboxEvent
  applied : List Entitlement

inductive BillingError where
  | wallet (error : WalletError)
  | doesNotExist
  | valueError
  | dataError
  | integrityError
  | outboxConflict
  deriving DecidableEq

/-- The Python and Unicode tables the handlers consult, next to the wallet's surroundings. -/
structure BillingEnv extends WalletEnv where
  upper : String → String
  isLetter : Char → Bool
  decimalText : ℚ → String

namespace BillingService

def blocksSubscriptionCheckout (invoice : Invoice) : Bool :=
  invoice.status == .manualReview && invoice.paidAt.isNone

def isUnsettledCheckoutManual (invoice : Invoice) : Bool :=
  blocksSubscriptionCheckout invoice && !invoice.refundReviewRequired

def parseAmount (raw : Option ℚ) : Option ℚ :=
  match raw with
  | none => none
  | some q => if 0 < q ∧ q < 10 ^ 26 ∧ (⌊q * 100⌋ : ℚ) = q * 100 then some q else none

def isCurrencyCode (env : BillingEnv) (currency : String) : Bool :=
  currency.length == 3 && currency.toList.all env.isLetter

def topupKey (paymentId : String) : String := "yookassa-topup:" ++ paymentId

/-- The credits of a snapshot, when it is an untampered top-up snapshot of this invoice. -/
def snapshotCredits (invoice : Invoice) (snapshot : EntitlementSnapshot) : Option ℚ :=
  match snapshot.packageCredits, snapshot.amount, snapshot.packagePriceRub with
  | .finite credits, .finite amount, .finite price =>
    if snapshot.schema = some 1 ∧ snapshot.purchaseType = some .aiTopup ∧
        snapshot.currency = some invoice.currency ∧ 0 < credits ∧
        amount = invoice.amount.value ∧ price = invoice.amount.value then
      some credits
    else none
  | _, _, _ => none

/-- The top-up rows the journal holds for the payment of the invoice, at most two of them. -/
def topupRows (s : BillingStore) (invoice : Invoice) : List AICreditTransaction :=
  (s.credits.transactions.filter fun row =>
    row.kind = .topup ∧ (row.idempotencyKey = topupKey invoice.yookassaPaymentId ∨
      row.reference = invoice.yookassaPaymentId)).take 2

def backfilledTopup (invoice : Invoice) (credits : ℚ) : EntitlementSnapshot :=
  { schema := some 1, purchaseType := some .aiTopup, amount := .finite invoice.amount.value,
    currency := some invoice.currency, packageCredits := .finite credits,
    packagePriceRub := .finite invoice.amount.value, period := none, planId := none,
    planSlug := none, expectedSubscriptionVersion := none }

/-- `_ai_entitlement_from_invoice`: the snapshot decides when there is one, else the journal. -/
def aiEntitlementFromInvoice (s : BillingStore) (invoice : Invoice) :
    Option (ℚ × EntitlementSnapshot) :=
  match invoice.entitlementSnapshot with
  | some snapshot => (snapshotCredits invoice snapshot).map fun credits => (credits, snapshot)
  | none =>
    match topupRows s invoice with
    | [row] =>
      if 0 < row.amount.value then some (row.amount.value, backfilledTopup invoice row.amount.value)
      else none
    | _ => none

def periodText : BillingPeriod → String
  | .monthly => "monthly"
  | .yearly => "yearly"

def parsePeriod (text : String) : Option BillingPeriod :=
  if text = "monthly" then some .monthly else if text = "yearly" then some .yearly else none

structure SubscriptionPurchase where
  plan : Plan
  period : BillingPeriod
  legacyStatusOnly : Bool

/-- Consistency of a subscription snapshot with its invoice; the error is the review reason. -/
def checkSubscriptionSnapshot (invoice : Invoice) (snapshot : EntitlementSnapshot) :
    Except String ℤ :=
  match snapshot.amount, snapshot.planId with
  | .invalid, _ => .error "Неизменяемый snapshot подписки повреждён."
  | _, none => .error "Неизменяемый snapshot подписки повреждён."
  | amount, some planId =>
    if snapshot.schema = some 1 ∧ snapshot.purchaseType = some .subscription ∧
        snapshot.currency = some invoice.currency ∧ amount = .finite invoice.amount.value ∧
        (invoice.entitlementPlan.all fun plan => (plan : ℤ) == planId) = true ∧
        snapshot.expectedSubscriptionVersion = invoice.expectedSubscriptionVersion then
      .ok planId
    else .error "Неизменяемый snapshot подписки не совпадает с Invoice."

def nonEmpty (text : Option String) : Option String := text.filter (· ≠ "")

/-- The plan and period the invoice bought; the error is the manual review reason. -/
def subscriptionPurchase (s : BillingStore) (sub : Subscription) (invoice : Invoice) : Except String SubscriptionPurchase := do
  let snapshot := invoice.entitlementSnapshot
  let metadataSlug := nonEmpty invoice.metadata.planSlug
  let legacyStatusOnly := snapshot.isNone && invoice.entitlementPlan.isNone && metadataSlug.isNone
  let period := ((snapshot.bind fun snapshot => nonEmpty snapshot.period).orElse
    fun _ => invoice.metadata.period).getD "monthly"
  let snapshotPlanId ← match snapshot with
    | none => .ok none
    | some snapshot => (checkSubscriptionSnapshot invoice snapshot).map some
  let planId : Option ℤ := (invoice.entitlementPlan.map fun pk => (pk : ℤ)).orElse fun _ => snapshotPlanId
  let planSlug := (nonEmpty (snapshot.bind fun snapshot => snapshot.planSlug)).orElse
    fun _ => metadataSlug
  let plan : Option Plan := match planId, planSlug with
    | some planId, _ => s.plans.find? fun plan => decide ((plan.pk : ℤ) = planId)
    | none, some slug => s.plans.find? fun plan => decide (plan.slug = slug)
    | none, none => some sub.plan
  match plan, parsePeriod period with
  | some plan, some period =>
    if snapshot.any fun frozen : EntitlementSnapshot =>
        decide (snapshotPlanId ≠ some (plan.pk : ℤ) ∨ plan.slug ≠ frozen.planSlug.getD "") then
      .error "Купленный тариф не совпадает с неизменяемым snapshot."
    else
      match invoice.expectedSubscriptionVersion with
      | some expected =>
        if sub.billingVersion ≠ expected then
          .error ("Подписка изменилась после checkout: expected_version=" ++ toString expected ++
            ", actual_version=" ++ toString sub.billingVersion ++ ".")
        else .ok { plan, period, legacyStatusOnly }
      | none => .ok { plan, period, legacyStatusOnly }
  | _, _ => .error "Нельзя однозначно определить купленный тариф и период."

/-- The subscription row after the payment; `none` is the ValueError of a date past year 9999. -/
def extendSubscription (env : BillingEnv) (sub : Subscription) (purchase : SubscriptionPurchase) :
    Option Subscription :=
  if purchase.legacyStatusOnly then
    some { sub with status := .active, billingVersion := sub.billingVersion + 1 }
  else do
    let today := env.zone.localdate env.now
    let termBase := if sub.status = .trial then today else max today sub.currentPeriodEnd
    let fin ← match purchase.period with
      | .yearly => termBase.addYear
      | .monthly => termBase.addMonths 1
    let month ← today.addMonths 1
    some { sub with
      plan := purchase.plan
      billingPeriod := purchase.period
      status := .active
      currentPeriodStart := today
      currentPeriodEnd := fin
      aiPeriodStart := some today
      aiPeriodEnd := some (min month fin)
      cancelledAt := none
      billingVersion := sub.billingVersion + 1 }

def backfilledSubscription (invoice : Invoice) (sub : Subscription) (purchase : SubscriptionPurchase) :
    EntitlementSnapshot :=
  { schema := some 1, purchaseType := some .subscription, amount := .finite invoice.amount.value,
    currency := some invoice.currency, packageCredits := .invalid, packagePriceRub := .invalid,
    period := some (periodText (if purchase.legacyStatusOnly then sub.billingPeriod else purchase.period)),
    planId := some purchase.plan.pk, planSlug := some purchase.plan.slug,
    expectedSubscriptionVersion := none }

def paidInvoice (env : BillingEnv) (invoice : Invoice) : Invoice :=
  { invoice with
    status := .paid
    paidAt := some env.now
    checkoutLastError := ""
    nextReconciliationAt := none
    checkoutState :=
      if isUnsettledCheckoutManual invoice then .providerCreated else invoice.checkoutState }

/-- `ROUND_DOWN` to four decimals of a nonnegative amount. -/
def roundDown (x : ℚ) : ℚ := (⌊x * 10 ^ 4⌋ : ℚ) / 10 ^ 4

def creditTarget (invoice : Invoice) (credits refunded : ℚ) : ℚ :=
  if refunded = invoice.amount.value then credits
  else roundDown (credits * refunded / invoice.amount.value)

end BillingService

end MapBackend.Billing
