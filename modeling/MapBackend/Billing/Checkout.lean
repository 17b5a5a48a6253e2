import MapBackend.Billing.WebhookProcessing

/-!
Checkout of a subscription: `create_payment` with the browser keys of an intent, and
`_resume_checkout_intent`, which the reconciler calls too.
-/

namespace MapBackend.Billing
open MapBackend.Library BillingService

/-- The checkout columns of an invoice; `snapshotProduct` is the plan or the package of its snapshot. -/
structure CheckoutIntent where
  invoice : ℕ
  providerIdempotencyKey : String
  checkoutPayloadHash : String
  checkoutReturnUrl : String
  checkoutConfirmationUrl : String
  checkoutAttemptCount : ℕ
  checkoutFirstAttemptAt : Option Instant
  checkoutLastAttemptAt : Option Instant
  snapshotProduct : Option (ℕ × String)
  deriving DecidableEq

structure CheckoutIntentKey where
  clientKey : String
  invoice : ℕ
  checkoutPayloadHash : String
  deriving DecidableEq

structure ProviderCall where
  invoice : ℕ
  idempotencyKey : String
  amount : Rubles
  description : String
  returnUrl : String
  metadata : List (String × String)
  deriving DecidableEq

/-- The billing rows of one tenant with their checkout, and the requests sent to the provider. -/
structure CheckoutStore where
  billing : BillingStore
  intents : List CheckoutIntent
  keys : List CheckoutIntentKey
  calls : List ProviderCall
  nextPk : ℕ

structure PlanOffer where
  plan : Plan
  isActive : Bool
  priceMonthly : Rubles
  priceYearly : Rubles

/-- The arguments of `create_payment`; the client key is a normalised UUID. -/
structure CheckoutRequest where
  planSlug : String
  period : String
  returnUrl : String
  clientKey : String
  deriving DecidableEq

inductive CheckoutError where
  | billingDisabled
  | conflict (invoice : ℕ)
  | keyLimit (invoice : ℕ)
  | pending (invoice retryAfter : ℕ)
  | manualReview (invoice : ℕ) (reason : String)
  | terminal (invoice : ℕ) (status : InvoiceStatus)
  | activeSubscription (planSlug : String) (billingPeriod : BillingPeriod) (currentPeriodEnd : CivilDate)
  | inProgress (invoice : ℕ)
  | doesNotExist
  | integrityError
  deriving DecidableEq

/-- The hash of a checkout payload, the key derived for the provider, and `urlsplit` of an answer. -/
structure CheckoutCodec where
  payloadHash : CheckoutRequest → String
  providerKey : String → String
  safeConfirmationUrl : String → Bool

/-- What a move of the checkout reads besides; a request that raised answers with the exception's name. -/
structure CheckoutInput extends BillingInput where
  billingEnabled : Bool
  maxKeysPerInvoice : ℕ
  plans : List PlanOffer
  created : Except String (String × String)
  /-- Another tenant has an invoice with the created payment. -/
  foreignPayment : Bool

namespace CheckoutInput

def now (input : CheckoutInput) : Instant := input.env.now

def today (input : CheckoutInput) : CivilDate := input.env.zone.localdate input.now

def nextAttemptAt (input : CheckoutInput) (attempt : ℕ) : Instant :=
  input.now + 1000000 * reconciliationDelaySeconds input.reconciler attempt

end CheckoutInput

namespace Subscription

def effectiveStatus (sub : Subscription) (today : CivilDate) : SubscriptionStatus :=
  if (sub.status = .trial ∨ sub.status = .active) ∧ sub.currentPeriodEnd < today then .pastDue else sub.status

def isActive (sub : Subscription) (today : CivilDate) : Prop :=
  sub.effectiveStatus today = .trial ∨ sub.effectiveStatus today = .active

instance (sub : Subscription) (today : CivilDate) : Decidable (sub.isActive today) :=
  inferInstanceAs (Decidable (_ ∨ _))

def paidTerm (sub : Subscription) (today : CivilDate) : Prop :=
  sub.effectiveStatus today = .active ∧ sub.isActive today

instance (sub : Subscription) (today : CivilDate) : Decidable (sub.paidTerm today) :=
  inferInstanceAs (Decidable (_ ∧ _))

end Subscription

namespace Invoice

def unresolved (invoice : Invoice) : Prop :=
  invoice.purchaseType = .subscription ∧
    (blocksSubscriptionCheckout invoice = true ∨ (invoice.status = .pending ∧
      invoice.checkoutState ∈ [.legacy, .manualReview, .intentCreated, .providerPending, .providerCreated]))

instance (invoice : Invoice) : Decidable invoice.unresolved := inferInstanceAs (Decidable (_ ∧ _))

def needsReview (invoice : Invoice) : Prop :=
  blocksSubscriptionCheckout invoice = true ∨ invoice.checkoutState ∈ [.legacy, .manualReview]

instance (invoice : Invoice) : Decidable invoice.needsReview := inferInstanceAs (Decidable (_ ∨ _))

def inProgress (invoice : Invoice) : Prop :=
  invoice.status = .pending ∧ invoice.checkoutState ∈ [.intentCreated, .providerPending, .providerCreated]

instance (invoice : Invoice) : Decidable invoice.inProgress := inferInstanceAs (Decidable (_ ∧ _))

end Invoice

namespace CheckoutStore

def intent? (s : CheckoutStore) (invoice : ℕ) : Option CheckoutIntent :=
  s.intents.find? fun intent => intent.invoice = invoice

def payloadHash? (s : CheckoutStore) (invoice : ℕ) : Option String := (s.intent? invoice).map (·.checkoutPayloadHash)

def saveInvoice (s : CheckoutStore) (invoice : Invoice) : CheckoutStore :=
  { s with billing := BillingService.saveInvoice s.billing invoice }

def saveIntent (s : CheckoutStore) (intent : CheckoutIntent) : CheckoutStore :=
  { s with intents := s.intents.map fun row => if row.invoice = intent.invoice then intent else row }

def taken (s : CheckoutStore) (invoice : Invoice) (intent : CheckoutIntent) : Prop :=
  (∃ row ∈ s.billing.invoices, row.checkoutClientKey = invoice.checkoutClientKey ∨
    (row.inProgress ∧ (row.purchaseType = .subscription ∨
      (intent.checkoutPayloadHash ≠ "" ∧ s.payloadHash? row.pk = some intent.checkoutPayloadHash)))) ∨
  ∃ row ∈ s.intents, row.providerIdempotencyKey = intent.providerIdempotencyKey

instance (s : CheckoutStore) (invoice : Invoice) (intent : CheckoutIntent) : Decidable (s.taken invoice intent) :=
  inferInstanceAs (Decidable (_ ∨ _))

end CheckoutStore

def isSpace (c : Char) : Bool :=
  (9 ≤ c.val && c.val ≤ 13) || (28 ≤ c.val && c.val ≤ 32) || c.val == 133 || c.val == 160 || c.val == 5760 ||
    (8192 ≤ c.val && c.val ≤ 8202) || c.val == 8232 || c.val == 8233 || c.val == 8239 || c.val == 8287 ||
    c.val == 12288

def strip (text : String) : String :=
  String.ofList ((text.toList.dropWhile isSpace).reverse.dropWhile isSpace).reverse

def isValidProviderId (id : String) : Bool :=
  id ≠ "" && id.length ≤ 200 && id.toList.all fun c => c.isAlphanum || c == '_' || c == '-'

namespace Checkout

def providerIdempotencyHorizon : Instant := 23 * 3600 * 1000000

def orElseText (text fallback : String) : String := if text = "" then fallback else text

def newInvoice (pk : ℕ) (request : CheckoutRequest) (offer : PlanOffer) (sub : Subscription) : Invoice :=
  let amount := if request.period = "yearly" then offer.priceYearly else offer.priceMonthly
  { pk, amount, currency := "RUB", purchaseType := .subscription,
    metadata := { planSlug := some offer.plan.slug, period := some request.period }, status := .pending,
    yookassaPaymentId := "", paidAt := none, refundedAmount := 0, refundReviewRequired := false,
    checkoutClientKey := some request.clientKey, checkoutState := .intentCreated, checkoutLastError := "",
    entitlementSnapshot := some
      { schema := some 1, purchaseType := some .subscription, amount := .finite amount.value,
        currency := some "RUB", packageCredits := .invalid, packagePriceRub := .invalid,
        period := some request.period, planId := some offer.plan.pk, planSlug := some offer.plan.slug,
        expectedSubscriptionVersion := some sub.billingVersion },
    entitlementPlan := some offer.plan.pk, expectedSubscriptionVersion := some sub.billingVersion,
    reconciliationAttempts := 0, nextReconciliationAt := none }

def newIntent (codec : CheckoutCodec) (pk : ℕ) (request : CheckoutRequest) (offer : PlanOffer) : CheckoutIntent :=
  { invoice := pk, providerIdempotencyKey := codec.providerKey request.clientKey,
    checkoutPayloadHash := codec.payloadHash request, checkoutReturnUrl := request.returnUrl,
    checkoutConfirmationUrl := "", checkoutAttemptCount := 0, checkoutFirstAttemptAt := none,
    checkoutLastAttemptAt := none, snapshotProduct := some (offer.plan.pk, offer.plan.name) }

/-- `_checkout_intent_for_client_key` with `bind_legacy_key=False`. -/
def intentForClientKey (codec : CheckoutCodec) (request : CheckoutRequest) (s : CheckoutStore) :
    Except CheckoutError (Option ℕ) :=
  match s.keys.find? fun record => record.clientKey = request.clientKey with
  | some record => do
    raiseIf (record.checkoutPayloadHash ≠ codec.payloadHash request ∨
      s.payloadHash? record.invoice ≠ some (codec.payloadHash request)) (.conflict record.invoice)
    pure (some record.invoice)
  | none =>
    match s.billing.invoices.find? fun row => row.checkoutClientKey = some request.clientKey with
    | none => pure none
    | some invoice => do
      raiseIf (s.payloadHash? invoice.pk ≠ some (codec.payloadHash request)) (.conflict invoice.pk)
      pure (some invoice.pk)

def createIntent (codec : CheckoutCodec) (request : CheckoutRequest) (sub : Subscription) (input : CheckoutInput)
    (s : CheckoutStore) : Except CheckoutError (CheckoutStore × ℕ) := do
  let offer ← orRaise .doesNotExist
    (input.plans.find? fun offer => offer.plan.slug = request.planSlug ∧ offer.isActive = true)
  let invoice := newInvoice s.nextPk request offer sub
  let intent := newIntent codec s.nextPk request offer
  raiseIf (s.taken invoice intent) .integrityError
  pure ({ s with
    billing := { s.billing with invoices := s.billing.invoices ++ [invoice] }
    intents := s.intents ++ [intent]
    nextPk := s.nextPk + 1 }, s.nextPk)

/-- `_subscription_checkout_intent` once the client key was looked up. The lookup is a move of its own,
since a binding takes no lock of the subscription. -/
def selectIntent (codec : CheckoutCodec) (request : CheckoutRequest) (found : Option ℕ) (input : CheckoutInput)
    (s : CheckoutStore) : Except CheckoutError (CheckoutStore × ℕ) := do
  let sub ← orRaise .doesNotExist s.billing.tenant.subscription
  let unresolved := s.billing.invoices.filter fun row => row.unresolved
  match unresolved.find? fun row => row.needsReview with
  | some invoice => .error (.manualReview invoice.pk
      (orElseText invoice.checkoutLastError "Незавершённый платёж подписки требует ручной проверки."))
  | none =>
    match found with
    | some invoice => pure (s, invoice)
    | none => do
      raiseIf (sub.paidTerm input.today)
        (.activeSubscription sub.plan.slug sub.billingPeriod sub.currentPeriodEnd)
      match unresolved.find? fun row => row.inProgress with
      | some invoice =>
        if s.payloadHash? invoice.pk = some (codec.payloadHash request) then pure (s, invoice.pk)
        else .error (.inProgress invoice.pk)
      | none => createIntent codec request sub input s

def bindClientKey (codec : CheckoutCodec) (request : CheckoutRequest) (pk : ℕ) (input : CheckoutInput)
    (s : CheckoutStore) : Except CheckoutError (CheckoutStore × ℕ) := do
  let invoice ← orRaise .doesNotExist (getInvoice s.billing pk)
  match s.billing.invoices.find? fun row => row.checkoutClientKey = some request.clientKey ∧ row.pk ≠ pk with
  | some canonical => .error (.conflict canonical.pk)
  | none =>
    match s.keys.find? fun record => record.clientKey = request.clientKey with
    | some record => do
      raiseIf (record.invoice ≠ pk ∨ record.checkoutPayloadHash ≠ codec.payloadHash request)
        (.conflict record.invoice)
      pure (s, pk)
    | none => do
      let aliases := s.keys.countP fun record => record.invoice = pk
      let reserved := invoice.checkoutClientKey.isSome = true ∧ ∀ record ∈ s.keys,
        record.invoice = pk → some record.clientKey ≠ invoice.checkoutClientKey
      raiseIf (invoice.checkoutClientKey ≠ some request.clientKey ∧
        input.maxKeysPerInvoice ≤ aliases + if reserved then 1 else 0) (.keyLimit pk)
      pure ({ s with keys := s.keys ++ [⟨request.clientKey, pk, codec.payloadHash request⟩] }, pk)

def periodLabel : BillingPeriod → String
  | .monthly => "месяц"
  | .yearly => "год"

/-- The description of `_provider_payment_parameters`; the error is the review reason. -/
def paymentDescription (invoice : Invoice) (intent : CheckoutIntent) : Except String String :=
  let name := strip ((intent.snapshotProduct.map Prod.snd).getD "")
  match invoice.purchaseType with
  | .aiTopup =>
    if name = "" then .error "В checkout intent отсутствует snapshot AI-пакета."
    else .ok (String.ofList (("MAP — " ++ name).toList.take 128))
  | .subscription =>
    match (invoice.entitlementSnapshot.bind (·.period)).bind parsePeriod with
    | none => .error "В checkout intent отсутствует snapshot тарифа."
    | some period =>
      if name = "" then .error "В checkout intent отсутствует snapshot тарифа."
      else .ok (String.ofList (("MAP " ++ name ++ " (" ++ periodLabel period ++ ")").toList.take 128))

def paymentMetadata (tenant : ℕ) (invoice : Invoice) (intent : CheckoutIntent) : List (String × String) :=
  let purchase := match invoice.purchaseType with
    | .aiTopup => [("purchase_type", "ai_topup"),
        ("package_id", (intent.snapshotProduct.map fun product => toString product.1).getD "None")]
    | .subscription => [("plan_slug", (invoice.entitlementSnapshot.bind (·.planSlug)).getD "None"),
        ("period", (invoice.entitlementSnapshot.bind (·.period)).getD "None")]
  ("tenant_id", toString tenant) :: purchase ++
    [("checkout_intent_id", toString invoice.pk), ("checkout_client_key", invoice.checkoutClientKey.getD "None")]

def quarantine (invoice : Invoice) (reason : String) : Invoice :=
  { invoice with
    status := .manualReview
    checkoutState := .manualReview
    checkoutLastError := reason
    nextReconciliationAt := none }

def staleTerm (invoice : Invoice) (sub : Option Subscription) (today : CivilDate) : Option String :=
  match invoice.purchaseType, sub with
  | .aiTopup, _ => none
  | .subscription, none => some "Подписка тенанта не найдена до оплаты."
  | .subscription, some sub =>
    if sub.paidTerm today then
      some "Подписка стала активной после создания checkout; платёж требует ручной сверки."
    else none

def spentIntent (invoice : Invoice) (intent : CheckoutIntent) (input : CheckoutInput) : Option String :=
  if intent.providerIdempotencyKey = "" ∨ invoice.checkoutClientKey = none then
    some "Checkout intent не содержит устойчивый provider key."
  else if input.reconciler.maxAttempts ≤ intent.checkoutAttemptCount then
    some "Исчерпан лимит повторов создания платежа."
  else if ∃ first ∈ intent.checkoutFirstAttemptAt, first < input.now - providerIdempotencyHorizon then
    some "Истёк безопасный срок provider idempotency; автоповтор может создать дубль платежа."
  else none

def retryAfter (invoice : Invoice) (respectBackoff : Bool) (now : Instant) : Option ℕ :=
  if respectBackoff = true then
    (invoice.nextReconciliationAt.filter fun due => now < due).map fun due => max 1 ((due - now) / 1000000).toNat
  else none

end Checkout

inductive CheckoutWorker where
  | createPayment (request : CheckoutRequest)
  | selectIntent (request : CheckoutRequest) (found : Option ℕ)
  | bindKey (request : CheckoutRequest) (invoice : ℕ)
  | resume (invoice : ℕ) (respectBackoff : Bool)
  | callProvider (call : ProviderCall) (attempt : ℕ)
  | storePayment (invoice : ℕ) (paymentId confirmationUrl : String)
  | storeFailure (invoice : ℕ) (exception : String) (attempt : ℕ)
  | collision (invoice : ℕ) (paymentId reason : String)
  | billing (worker : BillingWorker)
  | done (result : Except CheckoutError String)

/-- A transaction of a call: it commits and moves the call on, or raises and ends it. -/
abbrev CheckoutTransaction := Except CheckoutError (CheckoutStore × CheckoutWorker)

namespace Checkout

/-- The first transaction of `_resume_checkout_intent` past its guards: the attempt is counted. -/
def countAttempt (invoice : Invoice) (intent : CheckoutIntent) (input : CheckoutInput) (s : CheckoutStore) :
    CheckoutStore × CheckoutWorker :=
  let attempt := intent.checkoutAttemptCount + 1
  let tried := { invoice with
    checkoutState := .providerPending
    nextReconciliationAt := some (input.nextAttemptAt attempt) }
  let counted := s.saveIntent { intent with
    checkoutAttemptCount := attempt
    checkoutFirstAttemptAt := some (intent.checkoutFirstAttemptAt.getD input.now)
    checkoutLastAttemptAt := some input.now }
  match paymentDescription invoice intent with
  | .error reason =>
    (counted.saveInvoice (quarantine tried reason), .done (.error (.manualReview invoice.pk reason)))
  | .ok description =>
    (counted.saveInvoice tried, .callProvider
      { invoice := invoice.pk, idempotencyKey := intent.providerIdempotencyKey, amount := invoice.amount,
        description, returnUrl := intent.checkoutReturnUrl,
        metadata := paymentMetadata s.billing.tenant.pk invoice intent } attempt)

/-- `_resume_checkout_intent` up to the request to the provider. -/
def resumeCheckoutIntent (pk : ℕ) (respectBackoff : Bool) (input : CheckoutInput) (s : CheckoutStore) :
    CheckoutTransaction := do
  let invoice ← orRaise .doesNotExist (getInvoice s.billing pk)
  let intent ← orRaise .doesNotExist (s.intent? pk)
  raiseIf (invoice.checkoutState = .manualReview ∨ invoice.status = .manualReview)
    (.manualReview pk (orElseText invoice.checkoutLastError "Invoice требует ручной проверки."))
  raiseIf (invoice.status ≠ .pending) (.terminal pk invoice.status)
  match staleTerm invoice s.billing.tenant.subscription input.today with
  | some reason => pure (s.saveInvoice (quarantine invoice reason), .done (.error (.manualReview pk reason)))
  | none =>
    if intent.checkoutConfirmationUrl ≠ "" then pure (s, .done (.ok intent.checkoutConfirmationUrl))
    else
      match spentIntent invoice intent input with
      | some reason => pure (s.saveInvoice (quarantine invoice reason), .done (.error (.manualReview pk reason)))
      | none =>
        match retryAfter invoice respectBackoff input.now with
        | some seconds => .error (.pending pk seconds)
        | none => pure (countAttempt invoice intent input s)

/-- What the answer of the provider leads to; an invalid one counts as a failed request. -/
def answered (codec : CheckoutCodec) (call : ProviderCall) (attempt : ℕ) :
    Except String (String × String) → CheckoutWorker
  | .ok (paymentId, confirmationUrl) =>
    if isValidProviderId paymentId ∧ codec.safeConfirmationUrl confirmationUrl then
      .storePayment call.invoice paymentId confirmationUrl
    else .storeFailure call.invoice "ValueError" attempt
  | .error exception => .storeFailure call.invoice exception attempt

def storeFailure (pk : ℕ) (exception : String) (attempt : ℕ) (input : CheckoutInput) (s : CheckoutStore) :
    CheckoutTransaction := do
  let invoice ← orRaise .doesNotExist (getInvoice s.billing pk)
  let intent ← orRaise .doesNotExist (s.intent? pk)
  let failed := { invoice with
    checkoutState := .providerPending
    checkoutLastError := String.ofList (("Неопределённый результат YooKassa: " ++ exception).toList.take 500)
    nextReconciliationAt := some (input.nextAttemptAt attempt) }
  pure (if intent.checkoutConfirmationUrl = "" then s.saveInvoice failed else s,
    .done (.error (.pending pk (reconciliationDelaySeconds input.reconciler attempt))))

def storePayment (pk : ℕ) (paymentId confirmationUrl : String) (input : CheckoutInput) (s : CheckoutStore) :
    CheckoutTransaction := do
  let invoice ← orRaise .doesNotExist (getInvoice s.billing pk)
  let intent ← orRaise .doesNotExist (s.intent? pk)
  if invoice.yookassaPaymentId ≠ "" ∧ invoice.yookassaPaymentId ≠ paymentId then
    pure (s, .collision pk paymentId "Provider key вернул другой payment_id.")
  else if input.foreignPayment = true ∨ ∃ row ∈ s.billing.invoices, row.pk ≠ pk ∧ row.yookassaPaymentId = paymentId then
    pure (s, .collision pk paymentId "payment_id уже связан с другим Invoice; оба счёта заблокированы.")
  else
    pure ((s.saveIntent { intent with checkoutConfirmationUrl := confirmationUrl }).saveInvoice
      { invoice with
        yookassaPaymentId := paymentId
        checkoutState := .providerCreated
        checkoutLastError := ""
        nextReconciliationAt := some (input.now + 1000000 * input.reconciler.baseDelaySeconds) },
      .done (.ok confirmationUrl))

def markCollision (pk : ℕ) (paymentId reason : String) (s : CheckoutStore) : CheckoutStore :=
  { s with billing := { s.billing with invoices := s.billing.invoices.map fun row =>
    if row.pk = pk ∨ row.yookassaPaymentId = paymentId then reviewedInvoice row reason false else row } }

end Checkout

namespace CheckoutWorker
open Checkout

def settle (s : CheckoutStore) : CheckoutTransaction → CheckoutStore × CheckoutWorker
  | .ok moved => moved
  | .error error => (s, .done (.error error))

/-- `create_payment` up to the selection of its intent. -/
def start (codec : CheckoutCodec) (request : CheckoutRequest) (input : CheckoutInput) (s : CheckoutStore) :
    CheckoutTransaction := do
  raiseIf (input.billingEnabled = false) .billingDisabled
  let _ ← orRaise .doesNotExist s.billing.tenant.subscription
  let found ← intentForClientKey codec request s
  pure (s, .selectIntent request found)

def advance (codec : CheckoutCodec) : CheckoutWorker → CheckoutInput → CheckoutStore →
    CheckoutStore × CheckoutWorker
  | .createPayment request, input, s => settle s (start codec request input s)
  | .selectIntent request found, input, s =>
    settle s ((Checkout.selectIntent codec request found input s).map fun (s, invoice) => (s, .bindKey request invoice))
  | .bindKey request invoice, input, s =>
    settle s ((bindClientKey codec request invoice input s).map fun (s, invoice) => (s, .resume invoice true))
  | .resume invoice respectBackoff, input, s => settle s (resumeCheckoutIntent invoice respectBackoff input s)
  | .callProvider call attempt, input, s =>
    ({ s with calls := s.calls ++ [call] }, answered codec call attempt input.created)
  | .storePayment invoice paymentId confirmationUrl, input, s =>
    settle s (Checkout.storePayment invoice paymentId confirmationUrl input s)
  | .storeFailure invoice exception attempt, input, s =>
    settle s (Checkout.storeFailure invoice exception attempt input s)
  | .collision invoice paymentId reason, _, s =>
    (markCollision invoice paymentId reason s, .done (.error (.manualReview invoice reason)))
  | .billing worker, input, s =>
    let (rows, moved) := worker.advance input.toBillingInput s.billing
    ({ s with billing := rows }, .billing moved)
  | .done result, _, s => (s, .done result)

end CheckoutWorker

inductive CheckoutEvent where
  | billing (event : BillingEvent)
  | subscriptionSaved (subscription : Option Subscription)

def CheckoutStore.next (s : CheckoutStore) : CheckoutEvent → CheckoutStore
  | .billing event => { s with billing := s.billing.next event }
  | .subscriptionSaved subscription =>
    { s with billing := { s.billing with tenant := { s.billing.tenant with subscription } } }

inductive CheckoutAction where
  | createPayment (request : CheckoutRequest)
  /-- The reconciler resumes an invoice that has no payment yet. -/
  | reconcile (invoice : ℕ) (force : Bool)
  /-- A webhook delivery, or the reconciler on an invoice with a payment. -/
  | deliver (worker : BillingWorker)
  | move (k : ℕ) (input : CheckoutInput)
  | crash (k : ℕ)
  | direct (event : CheckoutEvent)

def CheckoutAction.crewAction : CheckoutAction → CrewAction CheckoutWorker CheckoutInput CheckoutEvent
  | createPayment request => .start (.createPayment request)
  | reconcile invoice force => .start (.resume invoice !force)
  | deliver worker => .start (.billing worker)
  | move k input => .move k input
  | crash k => .crash k
  | direct event => .direct event

abbrev CheckoutCrew := Crew CheckoutStore CheckoutWorker

def CheckoutCrew.next (codec : CheckoutCodec) (c : CheckoutCrew) (a : CheckoutAction) : CheckoutCrew :=
  Crew.step CheckoutStore.next (CheckoutWorker.advance codec) c a.crewAction

end MapBackend.Billing
