import MapBackend.Billing.Services
import MapBackend.Library.Runs

/-!
The operations that move the AI period of a subscription: the trial and its extension, a change of the plan,
a paid term and the monthly refresh.
-/

namespace MapBackend.Billing
open MapBackend.Library

abbrev AIPeriod := Option CivilDate × Option CivilDate

def Subscription.aiPeriod (sub : Subscription) : AIPeriod := (sub.aiPeriodStart, sub.aiPeriodEnd)

def monthFrom (today : CivilDate) : AIPeriod := (some today, today.addMonths 1)

/-- `ai_credit_period_for_date`: the anchored month of the term around the day. The outer `none` is the ValueError of a date
past year 9999. -/
def aiCreditPeriodForDate (sub : Subscription) (target : CivilDate) : Option (Option (CivilDate × CivilDate)) :=
  let start := sub.currentPeriodStart
  let fin := sub.currentPeriodEnd
  if target < start ∨ fin ≤ target then some none
  else do
    let monthIndex := (target.year * 12 + target.month) - (start.year * 12 + start.month)
    let periodStart ← start.addMonths monthIndex
    let monthIndex := if target < periodStart then monthIndex - 1 else monthIndex
    let periodStart ← start.addMonths monthIndex
    let nextMonthIndex := monthIndex + 1
    if fin.year * 12 + fin.month < nextMonthIndex + (start.year * 12 + start.month) then some (some (periodStart, fin))
    else (start.addMonths nextMonthIndex).map fun month => some (periodStart, min month fin)

namespace BillingService

def versionGrantKey (sub : Subscription) : String :=
  "subscription-grant:" ++ toString sub.pk ++ ":v" ++ toString sub.billingVersion

def periodGrantKey (sub : Subscription) (start fin : CivilDate) : String :=
  "subscription-grant:" ++ toString sub.pk ++ ":" ++ start.text ++ ":" ++ fin.text

def grantPeriod (env : BillingEnv) (sub : Subscription) (tenant : Tenant) (key : String) (s : BillingStore) :
    Except BillingError (BillingStore × Unit) :=
  let tenant := { tenant with subscription := some sub }
  withCredits { s with tenant } (AIWalletService.grantIncluded env.toWalletEnv tenant
    (some (AIWalletService.effectiveLimit tenant)) sub.aiPeriodEnd key)

def trialSubscription (pk : ℕ) (plan : Plan) (today fin : CivilDate) : Subscription :=
  { pk, plan, status := .trial, billingPeriod := .monthly, currentPeriodStart := today, currentPeriodEnd := fin,
    aiPeriodStart := some today, aiPeriodEnd := some fin, cancelledAt := none, billingVersion := 1 }

/-- `start_trial`; the primary key is the next one of the table. -/
def startTrial (env : BillingEnv) (trialDays pk : ℕ) (s : BillingStore) : Except BillingError (BillingStore × Unit) := do
  let plan ← orRaise .doesNotExist (s.plans.find? fun plan => decide (plan.slug = "business"))
  let today := env.zone.localdate env.now
  let fin ← orRaise .valueError (today.addDays trialDays)
  raiseIf (s.tenant.subscription.isSome = true) .integrityError
  let sub := trialSubscription pk plan today fin
  grantPeriod env sub s.tenant (periodGrantKey sub today fin) s

def extendedTrial (today fin : CivilDate) (sub : Subscription) : Subscription :=
  { sub with
    status := .trial
    currentPeriodStart := today
    currentPeriodEnd := fin
    aiPeriodStart := some today
    aiPeriodEnd := some fin
    cancelledAt := none
    billingVersion := sub.billingVersion + 1 }

def extendTrial (env : BillingEnv) (trialDays : ℕ) (days : Option ℤ) (s : BillingStore) :
    Except BillingError (BillingStore × Unit) := do
  let extensionDays := days.getD trialDays
  raiseIf (extensionDays ≤ 0) .valueError
  let sub ← orRaise .doesNotExist s.tenant.subscription
  raiseIf (sub.status = .active) .valueError
  let today := env.zone.localdate env.now
  let fin ← orRaise .valueError ((max sub.currentPeriodEnd today).addDays extensionDays.toNat)
  .ok ({ s with tenant := { s.tenant with subscription := some (extendedTrial today fin sub) } }, ())

/-- The subscription after a change of the plan; `none` is the ValueError of a date past year 9999. -/
def upgradedSubscription (env : BillingEnv) (sub : Subscription) (plan : Plan) (period : BillingPeriod) : Option Subscription := do
  let today := env.zone.localdate env.now
  let fin ← match period with
    | .yearly => today.addYear
    | .monthly => today.addMonths 1
  let aiEnd ← match period with
    | .yearly => (today.addMonths 1).map fun month => min month fin
    | .monthly => some fin
  some { sub with
    plan
    billingPeriod := period
    status := .active
    currentPeriodStart := today
    currentPeriodEnd := fin
    aiPeriodStart := some today
    aiPeriodEnd := some aiEnd
    cancelledAt := none
    billingVersion := sub.billingVersion + 1 }

def upgradePlan (env : BillingEnv) (isActive : Plan → Bool) (planSlug : String) (period : BillingPeriod) (s : BillingStore) :
    Except BillingError (BillingStore × Unit) := do
  let plan ← orRaise .doesNotExist (s.plans.find? fun plan => decide (plan.slug = planSlug) && isActive plan)
  let sub ← orRaise .doesNotExist s.tenant.subscription
  let upgraded ← orRaise .valueError (upgradedSubscription env sub plan period)
  grantPeriod env upgraded { s.tenant with aiCreditsUsed := 0 } (versionGrantKey upgraded) s

def refreshedSubscription (sub : Subscription) (start fin : CivilDate) : Subscription :=
  { sub with aiPeriodStart := some start, aiPeriodEnd := some fin, billingVersion := sub.billingVersion + 1 }

def refreshAiCreditPeriod (env : BillingEnv) (targetDate : Option CivilDate) (s : BillingStore) :
    Except BillingError (BillingStore × Bool) := do
  let sub ← orRaise .doesNotExist s.tenant.subscription
  if sub.status ≠ .active then .ok (s, false)
  else do
    let period ← orRaise .valueError (aiCreditPeriodForDate sub (targetDate.getD (env.zone.localdate env.now)))
    match period with
    | none => .ok (s, false)
    | some (start, fin) =>
      if sub.aiPeriodStart = some start ∧ sub.aiPeriodEnd = some fin then .ok (s, false)
      else do
        let refreshed := refreshedSubscription sub start fin
        let (s, ()) ← grantPeriod env refreshed { s.tenant with aiCreditsUsed := 0 } (periodGrantKey refreshed start fin) s
        .ok (s, true)

def purchasedTerm (env : BillingEnv) (s : BillingStore) (invoiceId : ℕ) (paymentId : String) (amount : Option ℚ)
    (currency : String) : Option Subscription := do
  let invoice ← getInvoice s invoiceId
  let received ← parseAmount amount
  let sub ← s.tenant.subscription
  let purchase ← (subscriptionPurchase s sub invoice).toOption
  if (paymentId ≠ "" ∧ invoice.yookassaPaymentId = paymentId) ∧
      (isCurrencyCode env (env.upper currency) = true ∧ received = invoice.amount.value ∧ env.upper currency = invoice.currency) ∧
      awaitsOutcome invoice = true ∧ invoice.purchaseType = .subscription ∧ purchase.legacyStatusOnly = false then
    extendSubscription env sub purchase
  else none

end BillingService

/-! ## Runs -/

inductive SubscriptionAction where
  | startTrial (pk : ℕ)
  | extendTrial (days : Option ℤ)
  | upgradePlan (isActive : Plan → Bool) (planSlug : String) (period : BillingPeriod)
  | paymentSuccess (invoiceId : ℕ) (paymentId : String) (amount : Option ℚ) (currency : String)
  | refreshAiCreditPeriod (targetDate : Option CivilDate)

structure SubscriptionCall where
  now : Instant
  action : SubscriptionAction

structure SubscriptionSettings where
  env : BillingEnv
  trialDays : ℕ

def SubscriptionSettings.surroundings (settings : SubscriptionSettings) (now : Instant) : BillingEnv := { settings.env with now }

open BillingService in
def BillingStore.call (settings : SubscriptionSettings) (s : BillingStore) (call : SubscriptionCall) : BillingStore :=
  let env := settings.surroundings call.now
  match call.action with
  | .startTrial pk => commit s (startTrial env settings.trialDays pk s)
  | .extendTrial days => commit s (extendTrial env settings.trialDays days s)
  | .upgradePlan isActive planSlug period => commit s (upgradePlan env isActive planSlug period s)
  | .paymentSuccess invoiceId paymentId amount currency =>
    commit s (handlePaymentSuccessWebhook env invoiceId paymentId amount currency s)
  | .refreshAiCreditPeriod targetDate => commit s (refreshAiCreditPeriod env targetDate s)

def isPackage (row : AICreditTransaction) : Bool := row.kind == .grant && row.reference == "subscription-period"

def BillingStore.packages (s : BillingStore) : ℕ := s.credits.transactions.countP isPackage

/-- The rows of a tenant, the AI periods that its subscription has had and the period of each package in the journal. -/
structure SubscriptionRun where
  store : BillingStore
  periods : List AIPeriod
  granted : List AIPeriod

namespace SubscriptionRun

def record (r : SubscriptionRun) (store : BillingStore) : SubscriptionRun :=
  let period := store.tenant.subscription.map Subscription.aiPeriod
  { store
    periods := (period.filter fun period => !r.periods.contains period).toList ++ r.periods
    granted := if store.packages = r.store.packages then r.granted else period.toList ++ r.granted }

def next (settings : SubscriptionSettings) (r : SubscriptionRun) (call : SubscriptionCall) : SubscriptionRun :=
  r.record (r.store.call settings call)

structure NewTenant where
  pk : ℕ
  aiCreditLimitOverride : Option ℕ
  plans : List Plan
  invoices : List Invoice

def start (tenant : NewTenant) : SubscriptionRun where
  store :=
    { tenant := { pk := tenant.pk, aiCreditsUsed := 0, aiCreditLimitOverride := tenant.aiCreditLimitOverride, subscription := none }
      plans := tenant.plans
      invoices := tenant.invoices
      reversals := []
      credits := { wallet := none, transactions := [] }
      outbox := []
      applied := [] }
  periods := []
  granted := []

end SubscriptionRun

end MapBackend.Billing
