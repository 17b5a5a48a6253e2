import MapBackend.Billing.Reconciliation
import MapBackend.Billing.AIWalletRun

/-!
What the payment handlers did when they committed, and runs of them.
-/

namespace MapBackend.Billing
open MapBackend.Library

namespace BillingService

variable {invoiceId : ℕ} {invoice : Invoice}

theorem getInvoice_some {s : BillingStore}
    (found : getInvoice s invoiceId = some invoice) : invoice ∈ s.invoices ∧ invoice.pk = invoiceId :=
  ⟨List.mem_of_find?_eq_some found, by simpa using List.find?_some found⟩

theorem liftWallet_ok {R : Type} {x : Except WalletError R} {r : R} :
    liftWallet x = .ok r ↔ x = .ok r := by
  cases x <;> simp [liftWallet]

theorem withCredits_ok {R : Type} {s next : BillingStore} {result : R}
    {operation : WalletStore → Except WalletError (WalletStore × R)}
    (step : withCredits s operation = .ok (next, result)) :
    ∃ credits, operation s.credits = .ok (credits, result) ∧ next = { s with credits } := by
  simp only [withCredits, bind_ok, liftWallet_ok] at step
  obtain ⟨⟨credits, r⟩, performed, made⟩ := step
  cases made
  exact ⟨credits, performed, rfl⟩

theorem enqueue_ok {s next : BillingStore} {event : BillingOutboxEvent}
    (step : enqueue s event = .ok next) : ∃ outbox, next = { s with outbox } := by
  simp only [enqueue, bind_ok, raiseIf_ok] at step
  obtain ⟨_, _, step⟩ := step
  split at step
  · split at step
    · cases step
      exact ⟨_, rfl⟩
    · cases step
  · cases step
    exact ⟨_, rfl⟩

theorem enqueueNotification_ok {s next : BillingStore} {level message key : String}
    (step : enqueueNotification s invoice level message key = .ok next) :
    ∃ outbox, next = { s with outbox } := by
  simp only [enqueueNotification, bind_ok, raiseIf_ok] at step
  obtain ⟨_, _, step⟩ := step
  exact enqueue_ok step

structure SameInvoice (old new : Invoice) : Prop where
  pk : new.pk = old.pk
  amount : new.amount = old.amount
  currency : new.currency = old.currency
  purchaseType : new.purchaseType = old.purchaseType
  paymentId : new.yookassaPaymentId = old.yookassaPaymentId

def toppedInvoice (env : BillingEnv) (invoice : Invoice) (snapshot : EntitlementSnapshot) : Invoice :=
  { paidInvoice env invoice with entitlementSnapshot := some snapshot }

variable {env : BillingEnv}

theorem fulfilTopup_ok {credits : ℚ}
    {snapshot : EntitlementSnapshot} {s next : BillingStore} {result : Bool}
    (step : fulfilTopup env invoice credits snapshot s = .ok (next, result)) :
    ∃ store outbox, AIWalletService.topup env.toWalletEnv s.tenant credits
        (topupKey invoice.yookassaPaymentId) invoice.yookassaPaymentId s.credits = .ok (store, ()) ∧
      next = { saveInvoice s (toppedInvoice env invoice snapshot) with
        credits := store, outbox, applied := .topup invoice.pk credits :: s.applied } := by
  simp only [fulfilTopup, bind_ok] at step
  obtain ⟨⟨_, ⟨⟩⟩, topped, _, noted, made⟩ := step
  cases made
  obtain ⟨store, performed, rfl⟩ := withCredits_ok topped
  obtain ⟨outbox, rfl⟩ := enqueueNotification_ok noted
  exact ⟨store, outbox, performed, rfl⟩

theorem toppedInvoice_same (env : BillingEnv) (old : Invoice) (snapshot : EntitlementSnapshot) :
    SameInvoice old (toppedInvoice env old snapshot) :=
  ⟨rfl, rfl, rfl, rfl, rfl⟩

def subscribedInvoice (env : BillingEnv) (invoice : Invoice) (sub : Subscription)
    (purchase : SubscriptionPurchase) : Invoice :=
  match invoice.entitlementSnapshot with
  | some _ => paidInvoice env invoice
  | none => { paidInvoice env invoice with
      entitlementSnapshot := some (backfilledSubscription invoice sub purchase)
      entitlementPlan := some purchase.plan.pk }

theorem grantPaidTerm_ok {sub : Subscription} {purchase : SubscriptionPurchase}
    {s next : BillingStore} (step : grantPaidTerm env sub purchase s = .ok (next, ())) :
    ∃ store aiCreditsUsed, next = { s with credits := store, tenant := { s.tenant with aiCreditsUsed } } ∧
      (store = s.credits ∨ AIWalletService.grantIncluded env.toWalletEnv s.tenant
        (some (AIWalletService.effectiveLimit s.tenant)) sub.aiPeriodEnd
        ("subscription-grant:" ++ toString sub.pk ++ ":v" ++ toString sub.billingVersion) s.credits =
          .ok (store, ())) := by
  unfold grantPaidTerm at step
  split at step
  · cases step
    exact ⟨_, _, rfl, .inl rfl⟩
  · obtain ⟨store, performed, rfl⟩ := withCredits_ok step
    exact ⟨store, 0, rfl, .inr performed⟩

theorem fulfilSubscription_ok {sub : Subscription}
    {purchase : SubscriptionPurchase} {s next : BillingStore} {result : Bool}
    (step : fulfilSubscription env invoice sub purchase s = .ok (next, result)) :
    ∃ extended store aiCreditsUsed outbox, extendSubscription env sub purchase = some extended ∧
      next = { saveInvoice s (subscribedInvoice env invoice sub purchase) with
        tenant := { s.tenant with subscription := some extended, aiCreditsUsed }
        credits := store
        outbox
        applied := .subscription invoice.pk (!purchase.legacyStatusOnly) :: s.applied } ∧
      (store = s.credits ∨ ∃ tenant, AIWalletService.grantIncluded env.toWalletEnv tenant
        (some (AIWalletService.effectiveLimit tenant)) extended.aiPeriodEnd
        ("subscription-grant:" ++ toString extended.pk ++ ":v" ++ toString extended.billingVersion)
        s.credits = .ok (store, ())) := by
  simp only [fulfilSubscription, bind_ok, orRaise_ok] at step
  obtain ⟨extended, extends_, ⟨_, ⟨⟩⟩, granted, _, noted, _, queued, made⟩ := step
  cases made
  obtain ⟨store, used, rfl, outcome⟩ := grantPaidTerm_ok granted
  obtain ⟨outbox, rfl⟩ := enqueueNotification_ok noted
  obtain ⟨outbox', rfl⟩ := enqueue_ok queued
  refine ⟨extended, store, used, outbox', extends_, ?_, ?_⟩
  · cases h : invoice.entitlementSnapshot <;> simp [subscribedInvoice, h, saveInvoice]
  · exact outcome.imp_right fun performed => ⟨_, performed⟩

variable {paymentId : String}

theorem handlePaymentSuccessWebhook_ok
    {amount : Option ℚ} {currency : String} {s next : BillingStore} {result : Bool}
    (step : handlePaymentSuccessWebhook env invoiceId paymentId amount currency s = .ok (next, result)) :
    next = s ∨ ∃ old, getInvoice s invoiceId = some old ∧
      ((∃ reason, next = markManualReviewLocked s old reason false) ∨
        (awaitsOutcome old = true ∧ paymentId ≠ "" ∧ old.yookassaPaymentId = paymentId ∧
          ((∃ credits snapshot, old.purchaseType = .aiTopup ∧
              aiEntitlementFromInvoice s old = some (credits, snapshot) ∧
              fulfilTopup env old credits snapshot s = .ok (next, result)) ∨
            (∃ sub purchase, old.purchaseType = .subscription ∧ s.tenant.subscription = some sub ∧
              fulfilSubscription env old sub purchase s = .ok (next, result))))) := by
  unfold handlePaymentSuccessWebhook at step
  cases found : getInvoice s invoiceId with
  | none =>
    simp only [found] at step
    cases step
    exact .inl rfl
  | some old =>
    have reviewed (reason : String) (refused : refuse s old reason = .ok (next, result)) :
        ∃ reason, next = markManualReviewLocked s old reason false := by
      cases refused
      exact ⟨reason, rfl⟩
    simp only [found] at step
    split at step
    · exact .inr ⟨old, rfl, .inl (reviewed _ step)⟩
    next owned =>
    rw [not_or, not_not] at owned
    split at step
    · exact .inr ⟨old, rfl, .inl (reviewed _ step)⟩
    split at step
    · exact .inr ⟨old, rfl, .inl (reviewed _ step)⟩
    split at step
    · cases step
      exact .inl rfl
    split at step
    · cases step
      exact .inl rfl
    next awaits =>
    rw [Bool.not_eq_false] at awaits
    refine .inr ⟨old, rfl, ?_⟩
    unfold fulfil at step
    cases kind : old.purchaseType with
    | aiTopup =>
      simp only [kind] at step
      cases entitled : aiEntitlementFromInvoice s old with
      | none =>
        simp only [entitled] at step
        exact .inl (reviewed _ step)
      | some =>
        simp only [entitled] at step
        exact .inr ⟨awaits, owned.1, owned.2, .inl ⟨_, _, rfl, rfl, step⟩⟩
    | subscription =>
      simp only [kind] at step
      cases subscribed : s.tenant.subscription with
      | none =>
        simp only [subscribed] at step
        exact .inl (reviewed _ step)
      | some =>
        simp only [subscribed] at step
        split at step
        · exact .inl (reviewed _ step)
        · exact .inr ⟨awaits, owned.1, owned.2, .inr ⟨_, _, rfl, rfl, step⟩⟩

def failedInvoice (invoice : Invoice) : Invoice :=
  { invoice with
    status := .failed
    checkoutLastError := ""
    nextReconciliationAt := none
    checkoutState :=
      if isUnsettledCheckoutManual invoice then .providerCreated else invoice.checkoutState }

theorem handlePaymentFailedWebhook_ok {s next : BillingStore}
    {result : Bool} (step : handlePaymentFailedWebhook invoiceId paymentId s = .ok (next, result)) :
    next = s ∨ ∃ old, getInvoice s invoiceId = some old ∧ awaitsOutcome old = true ∧
      next = saveInvoice s (failedInvoice old) := by
  unfold handlePaymentFailedWebhook at step
  cases found : getInvoice s invoiceId with
  | none =>
    simp only [found] at step
    cases step
    exact .inl rfl
  | some old =>
    simp only [found] at step
    split at step
    · cases step
      exact .inl rfl
    split at step
    · cases step
      exact .inl rfl
    split at step
    · cases step
      exact .inl rfl
    next awaits =>
    cases step
    exact .inr ⟨old, rfl, by simpa using awaits, rfl⟩

theorem markInvoiceManualReview_ok {reason : String} {refundReview : Bool}
    {s next : BillingStore}
    (step : markInvoiceManualReview invoiceId reason refundReview s = .ok (next, ())) :
    ∃ old, getInvoice s invoiceId = some old ∧
      next = markManualReviewLocked s old reason refundReview := by
  simp only [markInvoiceManualReview, bind_ok, orRaise_ok] at step
  obtain ⟨old, found, made⟩ := step
  cases made
  exact ⟨old, found, rfl⟩

theorem claimProviderInvoice_ok {env : ReconcilerEnv} {force : Bool} {s next : BillingStore}
    {result : Invoice × PollClaim} (step : claimProviderInvoice env force invoiceId s = .ok (next, result)) :
    next = s ∨ ∃ old, getInvoice s invoiceId = some old ∧
      ((∃ reason, next = markManualReviewLocked s old reason false) ∨
        ∃ recovering, next = saveInvoice s (polledInvoice env old recovering)) := by
  simp only [claimProviderInvoice, bind_ok, orRaise_ok] at step
  obtain ⟨old, found, step⟩ := step
  split at step
  · cases step
    exact .inl rfl
  split at step
  · cases step
    exact .inl rfl
  split at step
  · cases step
    exact .inl rfl
  split at step
  · cases step
    exact .inr ⟨old, found, .inl ⟨_, rfl⟩⟩
  · cases step
    exact .inr ⟨old, found, .inr ⟨_, rfl⟩⟩

theorem recordInvoicePollError_ok {message : String} {s next : BillingStore}
    (step : recordInvoicePollError invoiceId message s = .ok (next, ())) :
    next = s ∨ ∃ old checkoutLastError, getInvoice s invoiceId = some old ∧
      next = saveInvoice s { old with checkoutLastError } := by
  simp only [recordInvoicePollError, bind_ok, orRaise_ok] at step
  obtain ⟨old, found, step⟩ := step
  split at step
  · cases step
    exact .inl rfl
  · cases step
    exact .inr ⟨old, _, found, rfl⟩

variable {old : Invoice}

theorem exhaustedInvoice_mem {s : BillingStore} {invoiceId : Option ℕ} (found : exhaustedInvoice s invoiceId paymentId = some old) : old ∈ s.invoices := by
  unfold exhaustedInvoice at found
  split at found
  · exact (getInvoice_some found).1
  · split at found
    · cases found
    · exact List.mem_of_find?_eq_some found

theorem finalizeExhaustedEvent_ok {event : YooKassaEvent} {invoiceId : Option ℕ}
    {s next : BillingStore} {result : Bool}
    (step : finalizeExhaustedEvent event invoiceId paymentId s = .ok (next, result)) :
    next = s ∨ ∃ old reason refundReview, old ∈ s.invoices ∧
      next = markManualReviewLocked s old reason refundReview := by
  unfold finalizeExhaustedEvent at step
  split at step
  · cases step
    exact .inl rfl
  next old found =>
  split at step
  · cases step
    exact .inl rfl
  · cases step
    exact .inr ⟨old, _, _, exhaustedInvoice_mem found, rfl⟩

structure BareReversal (reversal : PaymentReversal) (old : Invoice) (notice : ReversalNotice) : Prop where
  invoice : reversal.invoice = old.pk
  reference : reversal.providerReference = notice.providerReference
  requested : reversal.creditsRequested = 0
  reversed : reversal.creditsReversed = 0

variable {notice : ReversalNotice}

theorem BareReversal.withReason {reversal : PaymentReversal}
    (bare : BareReversal reversal old notice) (reason : String) :
    BareReversal { reversal with reason } old notice :=
  ⟨bare.invoice, bare.reference, bare.requested, bare.reversed⟩

variable {amount : ℚ}

theorem newReversal_ok {currency reason : String}
    {reversal : PaymentReversal}
    (step : newReversal old notice amount currency reason = .ok reversal) :
    BareReversal reversal old notice := by
  simp only [newReversal, bind_ok, orRaise_ok] at step
  obtain ⟨_, _, made⟩ := step
  cases made
  exact ⟨rfl, rfl, rfl, rfl⟩

variable {result : Option PaymentReversal}

theorem keepForReview_ok {s next : BillingStore}
    {currency reason : String}
    (step : keepForReview s old notice amount currency reason = .ok (next, result)) :
    ∃ reversal refunded, BareReversal reversal old notice ∧
      (refunded = old.refundedAmount ∨
        Numeric.store 10 2 (old.refundedAmount.value + amount) = some refunded) ∧
      next = addReversal s reversal (quarantined { old with refundedAmount := refunded }) := by
  simp only [keepForReview, bind_ok] at step
  obtain ⟨reversal, created, made⟩ := step
  cases made
  exact ⟨reversal, old.refundedAmount, newReversal_ok created, .inl rfl, rfl⟩

theorem acceptReversal_ok {s next : BillingStore} {currency : String}
    (step : acceptReversal env old notice amount currency s = .ok (next, result)) :
    (∃ reversal refunded, BareReversal reversal old notice ∧
        Numeric.store 10 2 (old.refundedAmount.value + amount) = some refunded ∧
        next = addReversal s reversal (quarantined { old with refundedAmount := refunded })) ∨
      (old.purchaseType = .aiTopup ∧
        ∃ credits snapshot refunded reversal, aiEntitlementFromInvoice s old = some (credits, snapshot) ∧
          Numeric.store 10 2 (old.refundedAmount.value + amount) = some refunded ∧
          BareReversal reversal old notice ∧
          reverseTopup env old notice refunded reversal credits snapshot s = .ok (next, result)) := by
  simp only [acceptReversal, bind_ok, orRaise_ok] at step
  obtain ⟨refunded, fits, reversal, created, step⟩ := step
  have bare := newReversal_ok created
  cases kind : old.purchaseType with
  | subscription =>
    simp only [kind] at step
    cases step
    exact .inl ⟨_, refunded, bare.withReason _, fits, rfl⟩
  | aiTopup =>
    simp only [kind] at step
    cases entitled : aiEntitlementFromInvoice s old with
    | none =>
      simp only [entitled] at step
      cases step
      exact .inl ⟨_, refunded, bare.withReason _, fits, rfl⟩
    | some pair =>
      simp only [entitled] at step
      exact .inr ⟨rfl, pair.1, pair.2, refunded, reversal, rfl, fits, bare, step⟩

/-- The guards a notice has passed when it is new and belongs to the invoice. -/
structure NewNotice (env : BillingEnv) (s : BillingStore) (old : Invoice) (notice : ReversalNotice)
    (amount : ℚ) : Prop where
  reference : notice.providerReference ≠ "" ∧ notice.providerReference.length ≤ 200
  payment : notice.paymentId ≠ "" ∧ old.yookassaPaymentId = notice.paymentId
  amount : parseAmount notice.amount = some amount
  currency : isCurrencyCode env (env.upper notice.currency) = true
  unused : findReversal s notice.providerReference = none

structure Accepts (env : BillingEnv) (old : Invoice) (notice : ReversalNotice) (amount : ℚ) : Prop where
  status : refundable old = true
  currency : env.upper notice.currency = old.currency
  remaining : amount ≤ old.amount.value - old.refundedAmount.value

theorem handleReversalSuccess_steps
    {s next : BillingStore}
    (step : handleReversalSuccess env invoiceId notice s = .ok (next, result)) :
    next = s ∨ ∃ old amount, getInvoice s invoiceId = some old ∧ NewNotice env s old notice amount ∧
      ((∃ reason, keepForReview s old notice amount (env.upper notice.currency) reason = .ok (next, result)) ∨
        (Accepts env old notice amount ∧
          acceptReversal env old notice amount (env.upper notice.currency) s = .ok (next, result))) := by
  unfold handleReversalSuccess at step
  have idle (r : Option PaymentReversal)
      (unchanged : (.ok (s, r) : Except BillingError _) = .ok (next, result)) : next = s := by
    cases unchanged
    rfl
  split at step
  · exact .inl (idle _ step)
  next reference =>
  cases found : getInvoice s invoiceId with
  | none =>
    simp only [found] at step
    exact .inl (idle _ step)
  | some old =>
    simp only [found] at step
    split at step
    · exact .inl (idle _ step)
    next payment =>
    cases parsed : parseAmount notice.amount with
    | none =>
      simp only [parsed] at step
      exact .inl (idle _ step)
    | some amount =>
      simp only [parsed] at step
      split at step
      · exact .inl (idle _ step)
      next currency =>
      cases used : findReversal s notice.providerReference with
      | some =>
        simp only [used] at step
        split at step
        · exact .inl (idle _ step)
        · exact .inl (idle _ step)
      | none =>
        simp only [used] at step
        rw [not_or, not_not] at payment
        rw [not_or, not_lt] at reference
        rw [Bool.not_eq_false] at currency
        refine .inr ⟨old, amount, rfl, ⟨reference, payment, parsed, currency, used⟩, ?_⟩
        split at step
        · exact .inl ⟨_, step⟩
        next status =>
        split at step
        · exact .inl ⟨_, step⟩
        next sameCurrency =>
        split at step
        · exact .inl ⟨_, step⟩
        next remaining =>
        rw [Bool.not_eq_false] at status
        rw [not_not] at sameCurrency
        rw [not_lt] at remaining
        exact .inr ⟨⟨status, sameCurrency, remaining⟩, step⟩

/-- A committed reversal notice changes nothing, keeps a row without credits and puts the invoice
under review, or is accepted and takes credits back. -/
theorem handleReversalSuccess_ok
    {s next : BillingStore}
    (step : handleReversalSuccess env invoiceId notice s = .ok (next, result)) :
    next = s ∨ ∃ old amount, getInvoice s invoiceId = some old ∧ NewNotice env s old notice amount ∧
      ((∃ reversal refunded, BareReversal reversal old notice ∧
          (refunded = old.refundedAmount ∨
            Numeric.store 10 2 (old.refundedAmount.value + amount) = some refunded) ∧
          next = addReversal s reversal (quarantined { old with refundedAmount := refunded })) ∨
        (Accepts env old notice amount ∧ old.purchaseType = .aiTopup ∧
          ∃ credits snapshot refunded reversal, aiEntitlementFromInvoice s old = some (credits, snapshot) ∧
            Numeric.store 10 2 (old.refundedAmount.value + amount) = some refunded ∧
            BareReversal reversal old notice ∧
            reverseTopup env old notice refunded reversal credits snapshot s = .ok (next, result))) := by
  rcases handleReversalSuccess_steps step with same | ⟨old, amount, found, noticed, ⟨_, kept⟩ | ⟨accepts, accepted⟩⟩
  · exact .inl same
  · exact .inr ⟨old, amount, found, noticed, .inl (keepForReview_ok kept)⟩
  · refine .inr ⟨old, amount, found, noticed, ?_⟩
    rcases acceptReversal_ok accepted with ⟨reversal, refunded, bare, fits, made⟩ | ⟨kind, took⟩
    · exact .inl ⟨reversal, refunded, bare, .inr fits, made⟩
    · exact .inr ⟨accepts, kind, took⟩

end BillingService

open BillingService

/-- One committed or rolled back transaction on the billing rows of the tenant. -/
inductive BillingEvent where
  | paymentSuccess (env : BillingEnv) (invoice : ℕ) (paymentId : String) (amount : Option ℚ)
      (currency : String)
  | paymentFailed (invoice : ℕ) (paymentId : String)
  | reversal (env : BillingEnv) (invoice : ℕ) (notice : ReversalNotice)
  | manualReview (invoice : ℕ) (reason : String) (refundReview : Bool)
  | claimPoll (env : ReconcilerEnv) (force : Bool) (invoice : ℕ)
  | pollError (invoice : ℕ) (message : String)
  | exhausted (event : YooKassaEvent) (invoice : Option ℕ) (paymentId : String)
  /-- A reversal of another tenant's invoice takes a provider reference. -/
  | foreignReversal (reversal : PaymentReversal)

def BillingStore.next (s : BillingStore) : BillingEvent → BillingStore
  | .paymentSuccess env invoice paymentId amount currency =>
    commit s (handlePaymentSuccessWebhook env invoice paymentId amount currency s)
  | .paymentFailed invoice paymentId => commit s (handlePaymentFailedWebhook invoice paymentId s)
  | .reversal env invoice notice => commit s (handleReversalSuccess env invoice notice s)
  | .manualReview invoice reason refundReview =>
    commit s (markInvoiceManualReview invoice reason refundReview s)
  | .claimPoll env force invoice => commit s (claimProviderInvoice env force invoice s)
  | .pollError invoice message => commit s (recordInvoicePollError invoice message s)
  | .exhausted event invoice paymentId => commit s (finalizeExhaustedEvent event invoice paymentId s)
  | .foreignReversal reversal =>
    if findReversal s reversal.providerReference = none ∧ ∀ i ∈ s.invoices, i.pk ≠ reversal.invoice then
      { s with reversals := s.reversals ++ [reversal] }
    else s

/-- A change of an invoice that leaves its payment and its entitlement alone. -/
structure Reworded (old new : Invoice) : Prop extends SameInvoice old new where
  paidAt : new.paidAt = old.paidAt
  refundedAmount : new.refundedAmount = old.refundedAmount
  entitlementSnapshot : new.entitlementSnapshot = old.entitlementSnapshot
  status : new.status = .pending → old.status = .pending
  refundReview : old.refundReviewRequired = true → new.refundReviewRequired = true

theorem reviewedInvoice_reworded (old : Invoice) (reason : String) (refundReview : Bool) :
    Reworded old (reviewedInvoice old reason refundReview) :=
  ⟨⟨rfl, rfl, rfl, rfl, rfl⟩, rfl, rfl, rfl, by simp [reviewedInvoice],
    fun marked => by simp [reviewedInvoice, marked]⟩

theorem failedInvoice_reworded (old : Invoice) : Reworded old (failedInvoice old) :=
  ⟨⟨rfl, rfl, rfl, rfl, rfl⟩, rfl, rfl, rfl, by simp [failedInvoice], fun marked => marked⟩

theorem polledInvoice_reworded (env : ReconcilerEnv) (old : Invoice) (recovering : Bool) :
    Reworded old (polledInvoice env old recovering) := by
  cases recovering with
  | true => exact ⟨⟨rfl, rfl, rfl, rfl, rfl⟩, rfl, rfl, rfl, fun pending => pending, fun marked => marked⟩
  | false => exact ⟨⟨rfl, rfl, rfl, rfl, rfl⟩, rfl, rfl, rfl, fun pending => pending, fun marked => marked⟩

theorem subscribedInvoice_paid (env : BillingEnv) (old : Invoice) (sub : Subscription)
    (purchase : SubscriptionPurchase) :
    SameInvoice old (subscribedInvoice env old sub purchase) ∧
      (subscribedInvoice env old sub purchase).paidAt = some env.now ∧
      (subscribedInvoice env old sub purchase).status = .paid := by
  unfold subscribedInvoice
  split
  · exact ⟨⟨rfl, rfl, rfl, rfl, rfl⟩, rfl, rfl⟩
  · exact ⟨⟨rfl, rfl, rfl, rfl, rfl⟩, rfl, rfl⟩

theorem reverseTopup_ok {env : BillingEnv} {old : Invoice} {notice : ReversalNotice} {refunded : Rubles}
    {reversal : PaymentReversal} {credits : ℚ} {snapshot : EntitlementSnapshot} {s next : BillingStore}
    {result : Option PaymentReversal}
    (step : reverseTopup env old notice refunded reversal credits snapshot s = .ok (next, result)) :
    ∃ store reversed shortfall, AIWalletService.reversePurchased env.toWalletEnv s.tenant
        (max 0 (creditTarget old credits refunded.value - previousRequested s old)) (reversalKey notice)
        notice.providerReference (reversalTransactionKind notice.kind) s.credits =
          .ok (store, reversed, shortfall) ∧
      ∃ creditsRequested creditsReversed : Credits,
        Numeric.store 16 4 (max 0 (creditTarget old credits refunded.value - previousRequested s old)) =
          some creditsRequested ∧
        Numeric.store 16 4 reversed = some creditsReversed ∧
        ∃ row new, row.invoice = reversal.invoice ∧ row.kind = reversal.kind ∧
          row.providerReference = reversal.providerReference ∧
          row.creditsRequested = creditsRequested ∧ row.creditsReversed = creditsReversed ∧
          SameInvoice old new ∧ new.paidAt = old.paidAt ∧ new.status ≠ .pending ∧
          new.refundedAmount = refunded ∧ new.entitlementSnapshot = some snapshot ∧
          (old.refundReviewRequired = true ∨ shortfall ≠ 0 → new.refundReviewRequired = true) ∧
          (row.amount = reversal.amount ∧ Numeric.store 16 4 shortfall = some row.creditShortfall ∧
            (row.status = .applied ∨ shortfall ≠ 0)) ∧
          next = { addReversal s row new with credits := store } := by
  simp only [reverseTopup, bind_ok, liftWallet_ok, AIWalletService.writeCredits_ok] at step
  obtain ⟨⟨s₁, reversed, shortfall⟩, taken, requestedStored, requestedFits, reversedStored, reversedFits,
    shortfallStored, shortfallFits, step⟩ := step
  obtain ⟨store, performed, rfl⟩ := withCredits_ok taken
  refine ⟨store, reversed, shortfall, performed, requestedStored, reversedStored, requestedFits,
    reversedFits, ?_⟩
  split at step
  next whole =>
    cases step
    refine ⟨{ reversal with
        creditsRequested := requestedStored, creditsReversed := reversedStored,
        creditShortfall := shortfallStored, status := .applied },
      { old with
        refundedAmount := refunded, entitlementSnapshot := some snapshot,
        status := if refunded = old.amount then .refunded else .partiallyRefunded },
      rfl, rfl, rfl, rfl, rfl, ⟨rfl, rfl, rfl, rfl, rfl⟩, rfl, ?_, rfl, rfl,
      fun marked => marked.resolve_right fun short => short whole, ⟨rfl, shortfallFits, .inl rfl⟩, rfl⟩
    show (if refunded = old.amount then InvoiceStatus.refunded else .partiallyRefunded) ≠ .pending
    split <;> decide
  next short =>
    cases step
    exact ⟨{ reversal with
        creditsRequested := requestedStored, creditsReversed := reversedStored,
        creditShortfall := shortfallStored, reason := _ },
      quarantined { old with refundedAmount := refunded, entitlementSnapshot := some snapshot },
      rfl, rfl, rfl, rfl, rfl, ⟨rfl, rfl, rfl, rfl, rfl⟩, rfl, by simp [quarantined], rfl, rfl,
      fun _ => rfl, ⟨rfl, shortfallFits, .inr short⟩, rfl⟩

inductive Effect (s : BillingStore) (e : BillingEvent) (next : BillingStore) : Prop where
  | unchanged (same : next = s)
  | foreign (reversal : PaymentReversal) (unused : findReversal s reversal.providerReference = none)
      (elsewhere : ∀ i ∈ s.invoices, i.pk ≠ reversal.invoice)
      (made : next = { s with reversals := s.reversals ++ [reversal] })
  | saved (old new : Invoice) (found : old ∈ s.invoices) (reworded : Reworded old new)
      (made : next = saveInvoice s new)
  | kept (env : BillingEnv) (old : Invoice) (notice : ReversalNotice) (amount : ℚ)
      (reversal : PaymentReversal) (refunded : Rubles) (found : old ∈ s.invoices)
      (noticed : NewNotice env s old notice amount) (bare : BareReversal reversal old notice)
      (fits : refunded = old.refundedAmount ∨
        Numeric.store 10 2 (old.refundedAmount.value + amount) = some refunded)
      (made : next = addReversal s reversal (quarantined { old with refundedAmount := refunded }))
      (event : e = .reversal env old.pk notice)
  | taken (env : BillingEnv) (old : Invoice) (notice : ReversalNotice) (amount : ℚ) (credits : ℚ)
      (snapshot : EntitlementSnapshot) (refunded : Rubles) (reversal : PaymentReversal)
      (result : Option PaymentReversal) (event : e = .reversal env old.pk notice)
      (found : getInvoice s old.pk = some old) (noticed : NewNotice env s old notice amount)
      (accepts : Accepts env old notice amount) (topup : old.purchaseType = .aiTopup)
      (entitled : aiEntitlementFromInvoice s old = some (credits, snapshot))
      (fits : Numeric.store 10 2 (old.refundedAmount.value + amount) = some refunded)
      (bare : BareReversal reversal old notice)
      (took : reverseTopup env old notice refunded reversal credits snapshot s = .ok (next, result))
  | topped (env : BillingEnv) (old : Invoice) (credits : ℚ) (snapshot : EntitlementSnapshot)
      (result : Bool) (found : old ∈ s.invoices) (awaits : awaitsOutcome old = true)
      (payment : old.yookassaPaymentId ≠ "") (topup : old.purchaseType = .aiTopup)
      (entitled : aiEntitlementFromInvoice s old = some (credits, snapshot))
      (gave : fulfilTopup env old credits snapshot s = .ok (next, result))
  | extended (env : BillingEnv) (old : Invoice) (sub : Subscription) (purchase : SubscriptionPurchase)
      (result : Bool) (found : old ∈ s.invoices) (awaits : awaitsOutcome old = true)
      (kind : old.purchaseType = .subscription) (subscribed : s.tenant.subscription = some sub)
      (gave : fulfilSubscription env old sub purchase s = .ok (next, result))

theorem next_effect (s : BillingStore) (e : BillingEvent) : Effect s e (s.next e) := by
  have reviewed {old : Invoice} {next : BillingStore} {reason : String} {refundReview : Bool}
      (found : old ∈ s.invoices) (made : next = markManualReviewLocked s old reason refundReview) :
      Effect s e next :=
    .saved old _ found (reviewedInvoice_reworded old reason refundReview) made
  cases e with
  | paymentSuccess env invoiceId paymentId amount currency =>
    simp only [BillingStore.next]
    cases step : handlePaymentSuccessWebhook env invoiceId paymentId amount currency s with
    | error => exact .unchanged rfl
    | ok pair =>
      rcases handlePaymentSuccessWebhook_ok step with same | ⟨old, found, ⟨reason, made⟩ | paid⟩
      · exact .unchanged same
      · exact reviewed (getInvoice_some found).1 made
      · obtain ⟨awaits, given, owned, outcome⟩ := paid
        rcases outcome with ⟨credits, snapshot, topup, entitled, gave⟩ | ⟨sub, purchase, kind, subscribed, gave⟩
        · exact .topped env old credits snapshot pair.2 (getInvoice_some found).1 awaits (owned ▸ given) topup
            entitled gave
        · exact .extended env old sub purchase pair.2 (getInvoice_some found).1 awaits kind subscribed gave
  | paymentFailed invoiceId paymentId =>
    simp only [BillingStore.next]
    cases step : handlePaymentFailedWebhook invoiceId paymentId s with
    | error => exact .unchanged rfl
    | ok =>
      rcases handlePaymentFailedWebhook_ok step with same | ⟨old, found, _, made⟩
      · exact .unchanged same
      · exact .saved old _ (getInvoice_some found).1 (failedInvoice_reworded old) made
  | reversal env invoiceId notice =>
    simp only [BillingStore.next]
    cases step : handleReversalSuccess env invoiceId notice s with
    | error => exact .unchanged rfl
    | ok pair =>
      rcases handleReversalSuccess_ok step with same | ⟨old, amount, found, noticed, kept | accepted⟩
      · exact .unchanged same
      · obtain ⟨reversal, refunded, bare, fits, made⟩ := kept
        obtain ⟨member, rfl⟩ := getInvoice_some found
        exact .kept env old notice amount reversal refunded member noticed bare fits made rfl
      · obtain ⟨accepts, topup, credits, snapshot, refunded, reversal, entitled, fits, bare, took⟩ := accepted
        obtain ⟨_, rfl⟩ := getInvoice_some found
        exact .taken env old notice amount credits snapshot refunded reversal pair.2 rfl found noticed accepts
          topup entitled fits bare took
  | manualReview invoiceId reason refundReview =>
    simp only [BillingStore.next]
    cases step : markInvoiceManualReview invoiceId reason refundReview s with
    | error => exact .unchanged rfl
    | ok =>
      obtain ⟨old, found, made⟩ := markInvoiceManualReview_ok step
      exact reviewed (getInvoice_some found).1 made
  | claimPoll env force invoiceId =>
    simp only [BillingStore.next]
    cases step : claimProviderInvoice env force invoiceId s with
    | error => exact .unchanged rfl
    | ok =>
      rcases claimProviderInvoice_ok step with same | ⟨old, found, ⟨reason, made⟩ | ⟨recovering, made⟩⟩
      · exact .unchanged same
      · exact reviewed (getInvoice_some found).1 made
      · exact .saved old _ (getInvoice_some found).1 (polledInvoice_reworded env old recovering) made
  | pollError invoiceId message =>
    simp only [BillingStore.next]
    cases step : recordInvoicePollError invoiceId message s with
    | error => exact .unchanged rfl
    | ok =>
      rcases recordInvoicePollError_ok step with same | ⟨old, text, found, made⟩
      · exact .unchanged same
      · exact .saved old { old with checkoutLastError := text } (getInvoice_some found).1
          ⟨⟨rfl, rfl, rfl, rfl, rfl⟩, rfl, rfl, rfl, fun pending => pending, fun marked => marked⟩ made
  | exhausted event invoiceId paymentId =>
    simp only [BillingStore.next]
    cases step : finalizeExhaustedEvent event invoiceId paymentId s with
    | error => exact .unchanged rfl
    | ok =>
      rcases finalizeExhaustedEvent_ok step with same | ⟨old, reason, refundReview, found, made⟩
      · exact .unchanged same
      · exact reviewed found made
  | foreignReversal reversal =>
    simp only [BillingStore.next]
    split
    next fresh => exact .foreign reversal fresh.1 fresh.2 rfl
    · exact .unchanged rfl

def TookBack (s next : BillingStore) : Prop :=
  ∃ env tenant amount key reference kind result,
    AIWalletService.reversePurchased env tenant amount key reference kind s.credits =
      .ok (next.credits, result)

/-- No entitlement was applied: the subscription is the same and no credits were given. -/
structure Idle (s next : BillingStore) : Prop where
  applied : next.applied = s.applied
  tenant : next.tenant = s.tenant
  credits : next.credits = s.credits ∨ TookBack s next

theorem Idle.refl (s : BillingStore) : Idle s s := ⟨rfl, rfl, .inl rfl⟩

structure Revised (s next : BillingStore) (old new : Invoice) : Prop where
  found : old ∈ s.invoices
  invoices : next.invoices = (saveInvoice s new).invoices
  same : SameInvoice old new
  paidAt : new.paidAt = old.paidAt
  status : new.status = .pending → old.status = .pending
  idle : Idle s next

/-- The invoice was fulfilled: one entitlement was applied and the payment recorded. -/
structure Fulfilled (s next : BillingStore) (old new : Invoice) : Prop where
  found : old ∈ s.invoices
  awaits : awaitsOutcome old = true
  invoices : next.invoices = (saveInvoice s new).invoices
  same : SameInvoice old new
  paidAt : new.paidAt.isSome
  status : new.status = .paid
  applied : ∃ entitlement, entitlement.invoice = old.pk ∧ next.applied = entitlement :: s.applied

theorem next_cases (s : BillingStore) (e : BillingEvent) :
    ((s.next e).invoices = s.invoices ∧ Idle s (s.next e)) ∨
      (∃ old new, Revised s (s.next e) old new) ∨ (∃ old new, Fulfilled s (s.next e) old new) := by
  generalize made : s.next e = next
  have effect : Effect s e next := made ▸ next_effect s e
  clear made
  cases effect with
  | unchanged same =>
    rw [same]
    exact .inl ⟨rfl, Idle.refl s⟩
  | foreign _ _ _ made =>
    rw [made]
    exact .inl ⟨rfl, rfl, rfl, .inl rfl⟩
  | saved old new found reworded made =>
    rw [made]
    exact .inr (.inl ⟨old, new, found, rfl, reworded.toSameInvoice, reworded.paidAt, reworded.status,
      rfl, rfl, .inl rfl⟩)
  | kept _ old _ _ _ _ found _ _ _ made =>
    rw [made]
    exact .inr (.inl ⟨old, _, found, rfl, ⟨rfl, rfl, rfl, rfl, rfl⟩, rfl, by simp [quarantined],
      rfl, rfl, .inl rfl⟩)
  | taken env old notice amount credits snapshot refunded reversal result event found noticed accepts topup
      entitled fits bare took =>
    obtain ⟨store, reversed, shortfall, performed, _, _, _, _, row, new, _, _, _, _, _, same, paidAt,
      status, _, _, _, _, made⟩ := reverseTopup_ok took
    rw [made]
    exact .inr (.inl ⟨old, new, (getInvoice_some found).1, rfl, same, paidAt,
      fun pending => absurd pending status, rfl, rfl, .inr ⟨_, _, _, _, _, _, _, performed⟩⟩)
  | topped env old _ snapshot _ found awaits _ _ _ gave =>
    obtain ⟨store, outbox, _, made⟩ := fulfilTopup_ok gave
    rw [made]
    exact .inr (.inr ⟨old, _, found, awaits, rfl, toppedInvoice_same env old snapshot, rfl, rfl, _, rfl, rfl⟩)
  | extended env old sub purchase _ found awaits _ _ gave =>
    obtain ⟨extended, store, _, outbox, _, made, _⟩ := fulfilSubscription_ok gave
    obtain ⟨same, paidAt, status⟩ := subscribedInvoice_paid env old sub purchase
    rw [made]
    exact .inr (.inr ⟨old, _, found, awaits, rfl, same, by simp [paidAt], status, _, rfl, rfl⟩)

/-- The surroundings of concrete runs, with a top-up of fifty credits for a hundred rubles. -/
def billingEnv : BillingEnv :=
  { walletEnv "" with upper := fun text => text, isLetter := Char.isAlpha, decimalText := fun _ => "50" }

def topupSnapshot : EntitlementSnapshot :=
  { schema := some 1, purchaseType := some .aiTopup, amount := .finite 100, currency := some "RUB",
    packageCredits := .finite 50, packagePriceRub := .finite 100, period := none, planId := none,
    planSlug := none, expectedSubscriptionVersion := none }

def topupInvoice (pk : ℕ) (yookassaPaymentId : String) : Invoice :=
  { pk, amount := ⟨10000, by decide⟩, currency := "RUB", purchaseType := .aiTopup,
    metadata := { planSlug := none, period := none }, status := .pending, yookassaPaymentId,
    paidAt := none, refundedAmount := 0, refundReviewRequired := false, checkoutClientKey := none,
    checkoutState := .providerCreated, checkoutLastError := "", entitlementSnapshot := some topupSnapshot,
    entitlementPlan := none, expectedSubscriptionVersion := none, reconciliationAttempts := 0,
    nextReconciliationAt := none }

def billingStore (invoices : List Invoice) : BillingStore :=
  { tenant := bareTenant, plans := [], invoices, reversals := [],
    credits := { wallet := none, transactions := [] }, outbox := [], applied := [] }

end MapBackend.Billing
