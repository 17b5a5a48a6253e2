import MapBackend.Billing.Checkout
import MapBackend.Billing.PaymentReversals
import MapBackend.Library.Tables

/-!
What one move of the checkout does to the rows.
-/

namespace MapBackend.Billing
open MapBackend.Library BillingService Checkout

/-- What no move takes from an invoice: what its payment is for, and that it is no longer pending. -/
structure InvoiceKept (old new : Invoice) : Prop where
  pk : new.pk = old.pk
  amount : new.amount = old.amount
  purchaseType : new.purchaseType = old.purchaseType
  snapshot : ∀ snapshot, old.entitlementSnapshot = some snapshot → new.entitlementSnapshot = some snapshot
  pending : new.status = .pending → old.status = .pending

theorem InvoiceKept.refl (invoice : Invoice) : InvoiceKept invoice invoice :=
  ⟨rfl, rfl, rfl, fun _ stored => stored, fun pending => pending⟩

structure IntentKept (old new : CheckoutIntent) : Prop where
  invoice : new.invoice = old.invoice
  providerIdempotencyKey : new.providerIdempotencyKey = old.providerIdempotencyKey
  checkoutReturnUrl : new.checkoutReturnUrl = old.checkoutReturnUrl
  snapshotProduct : new.snapshotProduct = old.snapshotProduct

theorem IntentKept.refl (intent : CheckoutIntent) : IntentKept intent intent := ⟨rfl, rfl, rfl, rfl⟩

theorem BillingService.SameInvoice.kept {old new : Invoice} (same : SameInvoice old new)
    (snapshot : ∀ snapshot, old.entitlementSnapshot = some snapshot → new.entitlementSnapshot = some snapshot)
    (pending : new.status = .pending → old.status = .pending) : InvoiceKept old new :=
  ⟨same.pk, same.amount, same.purchaseType, snapshot, pending⟩

section Handlers

variable {s next : BillingStore} {old new : Invoice}

theorem saveInvoice_rewrites (keys : (s.invoices.map Invoice.pk).Nodup) (found : old ∈ s.invoices)
    (kept : InvoiceKept old new) (saved : next.invoices = (saveInvoice s new).invoices) :
    Rewrites InvoiceKept s.invoices next.invoices := by
  rw [saved]
  exact Rewrites.put InvoiceKept.refl keys found kept.pk kept

theorem BillingStore.next_rewrites (s : BillingStore) (e : BillingEvent) (keys : (s.invoices.map Invoice.pk).Nodup) :
    Rewrites InvoiceKept s.invoices (s.next e).invoices := by
  generalize made : s.next e = next
  have effect : Effect s e next := made ▸ next_effect s e
  clear made
  cases effect with
  | unchanged same =>
    rw [same]
    exact Rewrites.refl InvoiceKept.refl _
  | foreign _ _ _ made =>
    rw [made]
    exact Rewrites.refl InvoiceKept.refl _
  | saved _ _ found reworded made =>
    have kept := reworded.toSameInvoice.kept (fun _ stored => reworded.entitlementSnapshot.trans stored) reworded.status
    exact saveInvoice_rewrites keys found kept (by rw [made])
  | kept _ old _ _ _ refunded found _ _ _ made =>
    have kept : InvoiceKept old (quarantined { old with refundedAmount := refunded }) :=
      ⟨rfl, rfl, rfl, fun _ stored => stored, by simp [quarantined]⟩
    exact saveInvoice_rewrites keys found kept (by rw [made]; rfl)
  | taken env old notice amount credits snapshot refunded reversal result event found noticed accepts topup
      entitled fits bare took =>
    obtain ⟨store, reversed, shortfall, performed, _, _, _, _, row, new, _, _, _, _, _, same, paidAt,
      status, _, stored, _, _, made⟩ := reverseTopup_ok took
    have kept : InvoiceKept old new := by
      refine same.kept (fun frozen before => ?_) fun pending => absurd pending status
      rw [stored, (aiEntitlementFromInvoice_some entitled).2 frozen before]
    exact saveInvoice_rewrites keys (getInvoice_some found).1 kept (by rw [made]; rfl)
  | topped env old _ snapshot _ found _ _ _ entitled gave =>
    obtain ⟨store, outbox, _, made⟩ := fulfilTopup_ok gave
    have kept : InvoiceKept old (toppedInvoice env old snapshot) := by
      refine (toppedInvoice_same env old snapshot).kept (fun frozen before => ?_) fun pending => by cases pending
      rw [(aiEntitlementFromInvoice_some entitled).2 frozen before]
      rfl
    exact saveInvoice_rewrites keys found kept (by rw [made])
  | extended env old sub purchase _ found _ _ _ gave =>
    obtain ⟨extended, store, _, outbox, _, made, _⟩ := fulfilSubscription_ok gave
    obtain ⟨same, paidAt, status⟩ := subscribedInvoice_paid env old sub purchase
    have kept : InvoiceKept old (subscribedInvoice env old sub purchase) := by
      refine same.kept (fun frozen before => ?_) fun pending => ?_
      · rw [subscribedInvoice, before]
        exact before
      · rw [status] at pending
        cases pending
    exact saveInvoice_rewrites keys found kept (by rw [made])

end Handlers

structure CheckoutStore.Sound (s : CheckoutStore) : Prop where
  invoices : (s.billing.invoices.map Invoice.pk).Nodup
  intents : (s.intents.map CheckoutIntent.invoice).Nodup
  invoiceUsed : ∀ row ∈ s.billing.invoices, row.pk < s.nextPk
  intentUsed : ∀ row ∈ s.intents, row.invoice < s.nextPk

structure CheckoutKept (s next : CheckoutStore) : Prop where
  invoices : Rewrites InvoiceKept s.billing.invoices next.billing.invoices
  intents : Rewrites IntentKept s.intents next.intents
  nextPk : next.nextPk = s.nextPk

/-- An intent was added while no subscription payment was unresolved and no paid term was running. -/
structure CheckoutCreated (today : CivilDate) (s next : CheckoutStore) : Prop where
  invoices : ∃ row, row.pk = s.nextPk ∧ row.purchaseType = .subscription ∧
    next.billing.invoices = s.billing.invoices ++ [row]
  intents : ∃ row, row.invoice = s.nextPk ∧ next.intents = s.intents ++ [row]
  nextPk : next.nextPk = s.nextPk + 1
  resolved : ∀ row ∈ s.billing.invoices, ¬ row.unresolved
  term : ∃ sub, s.billing.tenant.subscription = some sub ∧ ¬ sub.paidTerm today

theorem CheckoutKept.refl (s : CheckoutStore) : CheckoutKept s s :=
  ⟨Rewrites.refl InvoiceKept.refl _, Rewrites.refl IntentKept.refl _, rfl⟩

namespace CheckoutStore

variable {s next : CheckoutStore}

theorem Sound.kept (sound : s.Sound) (kept : CheckoutKept s next) : next.Sound where
  invoices := by
    rw [kept.invoices.keys fun _ _ row => row.pk]
    exact sound.invoices
  intents := by
    rw [kept.intents.keys fun _ _ row => row.invoice]
    exact sound.intents
  invoiceUsed row mem := by
    obtain ⟨old, old_mem, same⟩ := kept.invoices.source mem
    rw [same.pk, kept.nextPk]
    exact sound.invoiceUsed old old_mem
  intentUsed row mem := by
    obtain ⟨old, old_mem, same⟩ := kept.intents.source mem
    rw [same.invoice, kept.nextPk]
    exact sound.intentUsed old old_mem

theorem Sound.created {today : CivilDate} (sound : s.Sound) (created : CheckoutCreated today s next) : next.Sound := by
  obtain ⟨⟨row, _, -, invoices⟩, ⟨intent, _, intents⟩, _, -, -⟩ := created
  refine ⟨?_, ?_, ?_, ?_⟩
  · rw [invoices, List.map_append, List.nodup_append]
    refine ⟨sound.invoices, by simp, fun a old b new => ?_⟩
    obtain ⟨before, mem, rfl⟩ := List.mem_map.mp old
    obtain rfl : b = row.pk := by simpa using new
    have used := sound.invoiceUsed before mem
    omega
  · rw [intents, List.map_append, List.nodup_append]
    refine ⟨sound.intents, by simp, fun a old b new => ?_⟩
    obtain ⟨before, mem, rfl⟩ := List.mem_map.mp old
    obtain rfl : b = intent.invoice := by simpa using new
    have used := sound.intentUsed before mem
    omega
  · intro other mem
    rw [invoices] at mem
    rcases List.mem_append.mp mem with old | new
    · have used := sound.invoiceUsed other old
      omega
    · obtain rfl := List.mem_singleton.mp new
      omega
  · intro other mem
    rw [intents] at mem
    rcases List.mem_append.mp mem with old | new
    · have used := sound.intentUsed other old
      omega
    · obtain rfl := List.mem_singleton.mp new
      omega

variable {pk : ℕ}

theorem intent?_some {intent : CheckoutIntent} (found : s.intent? pk = some intent) :
    intent ∈ s.intents ∧ intent.invoice = pk :=
  ⟨List.mem_of_find?_eq_some found, by simpa using List.find?_some found⟩

theorem saveInvoice_kept (sound : s.Sound) {old new : Invoice} (found : getInvoice s.billing pk = some old)
    (kept : InvoiceKept old new) : CheckoutKept s (s.saveInvoice new) :=
  ⟨saveInvoice_rewrites sound.invoices (getInvoice_some found).1 kept rfl, Rewrites.refl IntentKept.refl _, rfl⟩

theorem saveIntent_kept (sound : s.Sound) {old new : CheckoutIntent} (found : s.intent? pk = some old)
    (kept : IntentKept old new) : Rewrites IntentKept s.intents (s.saveIntent new).intents :=
  Rewrites.put IntentKept.refl sound.intents (intent?_some found).1 kept.invoice kept

theorem saved_kept (sound : s.Sound) {old new : Invoice} {before after : CheckoutIntent}
    (found : getInvoice s.billing pk = some old) (stored : s.intent? pk = some before) (kept : InvoiceKept old new)
    (same : IntentKept before after) : CheckoutKept s ((s.saveIntent after).saveInvoice new) :=
  ⟨saveInvoice_rewrites sound.invoices (getInvoice_some found).1 kept rfl, saveIntent_kept sound stored same, rfl⟩

end CheckoutStore

theorem quarantine_kept (invoice : Invoice) (reason : String) : InvoiceKept invoice (quarantine invoice reason) :=
  ⟨rfl, rfl, rfl, fun _ stored => stored, fun pending => by cases pending⟩

theorem Invoice.unresolved.inProgress {invoice : Invoice} (unresolved : invoice.unresolved) (clear : ¬ invoice.needsReview) :
    invoice.inProgress := by
  obtain ⟨-, blocks | ⟨pending, _⟩⟩ := unresolved
  · exact absurd (.inl blocks) clear
  · refine ⟨pending, ?_⟩
    have other : invoice.checkoutState ∉ [.legacy, .manualReview] := fun marked => clear (.inr marked)
    cases known : invoice.checkoutState <;> simp [known] at other ⊢

theorem Invoice.unresolved_of_pending {invoice : Invoice} (kind : invoice.purchaseType = .subscription)
    (pending : invoice.status = .pending) : invoice.unresolved := by
  refine ⟨kind, .inr ⟨pending, ?_⟩⟩
  cases invoice.checkoutState <;> decide

namespace Checkout

variable {codec : CheckoutCodec} {request : CheckoutRequest} {input : CheckoutInput} {s next : CheckoutStore}

theorem createIntent_ok {sub : Subscription} {pk : ℕ}
    (step : createIntent codec request sub input s = .ok (next, pk)) :
    ∃ offer, next = { s with
      billing := { s.billing with invoices := s.billing.invoices ++ [newInvoice s.nextPk request offer sub] }
      intents := s.intents ++ [newIntent codec s.nextPk request offer]
      nextPk := s.nextPk + 1 } := by
  simp only [createIntent, bind_ok, orRaise_ok, pure_ok] at step
  obtain ⟨offer, -, -, -, made⟩ := step
  cases made
  exact ⟨offer, rfl⟩

theorem selectIntent_ok {found : Option ℕ} {pk : ℕ}
    (step : selectIntent codec request found input s = .ok (next, pk)) :
    (∀ row ∈ s.billing.invoices, row.unresolved → ¬ row.needsReview) ∧
      (next = s ∨ (CheckoutCreated input.today s next ∧ next.calls = s.calls)) := by
  simp only [selectIntent, bind_ok, orRaise_ok] at step
  obtain ⟨sub, subscribed, step⟩ := step
  split at step
  · cases step
  next clear =>
  have unreviewed : ∀ row ∈ s.billing.invoices, row.unresolved → ¬ row.needsReview := by
    intro row mem unresolved review
    have absent := List.find?_eq_none.mp clear row (List.mem_filter.mpr ⟨mem, decide_eq_true unresolved⟩)
    exact absent (decide_eq_true review)
  refine ⟨unreviewed, ?_⟩
  split at step
  · cases step
    exact .inl rfl
  · simp only [bind_ok, raiseIf_ok] at step
    obtain ⟨-, term, step⟩ := step
    split at step
    · split at step
      · cases step
        exact .inl rfl
      · cases step
    next idle =>
    have resolved : ∀ row ∈ s.billing.invoices, ¬ row.unresolved := by
      intro row mem unresolved
      have absent := List.find?_eq_none.mp idle row (List.mem_filter.mpr ⟨mem, decide_eq_true unresolved⟩)
      exact absent (decide_eq_true (unresolved.inProgress (unreviewed row mem unresolved)))
    obtain ⟨_, rfl⟩ := createIntent_ok step
    exact .inr ⟨⟨⟨_, rfl, rfl, rfl⟩, ⟨_, rfl, rfl⟩, rfl, resolved, sub, subscribed, term⟩, rfl⟩

theorem bindClientKey_ok {invoice pk : ℕ} (step : bindClientKey codec request invoice input s = .ok (next, pk)) :
    ∃ keys, next = { s with keys } := by
  simp only [bindClientKey, bind_ok, orRaise_ok] at step
  obtain ⟨_, -, step⟩ := step
  split at step
  · cases step
  · split at step
    · simp only [bind_ok, raiseIf_ok] at step
      obtain ⟨-, -, made⟩ := step
      cases made
      exact ⟨_, rfl⟩
    · simp only [bind_ok, raiseIf_ok] at step
      obtain ⟨-, -, made⟩ := step
      cases made
      exact ⟨_, rfl⟩

end Checkout

def CheckoutStore.Describes (s : CheckoutStore) (call : ProviderCall) : Prop :=
  ∃ invoice ∈ s.billing.invoices, ∃ intent ∈ s.intents, invoice.pk = call.invoice ∧ intent.invoice = call.invoice ∧
    intent.providerIdempotencyKey = call.idempotencyKey ∧ invoice.amount = call.amount ∧
    intent.checkoutReturnUrl = call.returnUrl ∧ paymentDescription invoice intent = .ok call.description

def CheckoutStore.Payable (s : CheckoutStore) (today : CivilDate) (pk : ℕ) : Prop :=
  ∃ invoice ∈ s.billing.invoices, invoice.pk = pk ∧ invoice.status = .pending ∧
    (invoice.purchaseType = .subscription → ∃ sub, s.billing.tenant.subscription = some sub ∧ ¬ sub.paidTerm today)

namespace Checkout

variable {codec : CheckoutCodec} {input : CheckoutInput} {s next : CheckoutStore} {moved : CheckoutWorker}

theorem paymentDescription_kept {old new : Invoice} {before after : CheckoutIntent} {description : String}
    (described : paymentDescription old before = .ok description) (invoice : InvoiceKept old new)
    (intent : IntentKept before after) : paymentDescription new after = .ok description := by
  rw [← described]
  unfold paymentDescription
  rw [invoice.purchaseType, intent.snapshotProduct]
  cases kind : old.purchaseType with
  | aiTopup => rfl
  | subscription =>
    cases stored : old.entitlementSnapshot with
    | none =>
      unfold paymentDescription at described
      rw [kind, stored] at described
      cases described
    | some snapshot => rw [invoice.snapshot snapshot stored]

end Checkout

structure CheckoutMove (input : CheckoutInput) (s : CheckoutStore) (w : CheckoutWorker) (next : CheckoutStore)
    (moved : CheckoutWorker) : Prop where
  rows : CheckoutKept s next ∨ CheckoutCreated input.today s next
  calls : next.calls = s.calls ∨
    ∃ call attempt, w = .callProvider call attempt ∧ CheckoutKept s next ∧ next.calls = s.calls ++ [call]
  prepared : ∀ call attempt, moved = .callProvider call attempt → s.Describes call ∧ s.Payable input.today call.invoice
  selected : ∀ request invoice, moved = .bindKey request invoice →
    ∀ row ∈ s.billing.invoices, row.unresolved → ¬ row.needsReview

namespace CheckoutMove

variable {codec : CheckoutCodec} {input : CheckoutInput} {s next : CheckoutStore} {w moved : CheckoutWorker}

theorem quiet (kept : CheckoutKept s next) (calls : next.calls = s.calls)
    (idle : ∀ call attempt, moved ≠ .callProvider call attempt) (away : ∀ request invoice, moved ≠ .bindKey request invoice) :
    CheckoutMove input s w next moved where
  rows := .inl kept
  calls := .inl calls
  prepared call attempt made := absurd made (idle call attempt)
  selected request invoice made := absurd made (away request invoice)

theorem finished {result : Except CheckoutError String} (kept : CheckoutKept s next) (calls : next.calls = s.calls) :
    CheckoutMove input s w next (.done result) :=
  quiet kept calls (fun _ _ other => by cases other) fun _ _ other => by cases other

theorem settled {step : CheckoutTransaction}
    (committed : ∀ next moved, step = .ok (next, moved) → CheckoutMove input s w next moved) :
    CheckoutMove input s w (CheckoutWorker.settle s step).1 (CheckoutWorker.settle s step).2 := by
  cases made : step with
  | ok pair => exact committed pair.1 pair.2 made
  | error => exact finished (CheckoutKept.refl s) rfl

theorem countAttempt_move {invoice : Invoice} {intent : CheckoutIntent} {pk : ℕ} (sound : s.Sound)
    (found : getInvoice s.billing pk = some invoice) (stored : s.intent? pk = some intent)
    (pending : invoice.status = .pending)
    (term : invoice.purchaseType = .subscription → ∃ sub, s.billing.tenant.subscription = some sub ∧
      ¬ sub.paidTerm input.today) :
    CheckoutMove input s w (countAttempt invoice intent input s).1 (countAttempt invoice intent input s).2 := by
  obtain ⟨mem, here⟩ := getInvoice_some found
  obtain ⟨intent_mem, intent_pk⟩ := CheckoutStore.intent?_some stored
  unfold countAttempt
  cases described : paymentDescription invoice intent with
  | error =>
    refine finished (CheckoutStore.saved_kept sound found stored ?_ ⟨rfl, rfl, rfl, rfl⟩) rfl
    exact ⟨rfl, rfl, rfl, fun _ frozen => frozen, fun pending => by cases pending⟩
  | ok =>
    refine ⟨.inl (CheckoutStore.saved_kept sound found stored ?_ ⟨rfl, rfl, rfl, rfl⟩), .inl rfl, ?_, ?_⟩
    · exact ⟨rfl, rfl, rfl, fun _ frozen => frozen, fun pending => pending⟩
    · intro call attempt made
      cases made
      exact ⟨⟨invoice, mem, intent, intent_mem, rfl, intent_pk.trans here.symm, rfl, rfl, rfl, described⟩,
        invoice, mem, rfl, pending, term⟩
    · intro request other made
      cases made

theorem resume_move {pk : ℕ} {respectBackoff : Bool} (sound : s.Sound)
    (step : resumeCheckoutIntent pk respectBackoff input s = .ok (next, moved)) : CheckoutMove input s w next moved := by
  simp only [resumeCheckoutIntent, bind_ok, orRaise_ok, raiseIf_ok, not_not] at step
  obtain ⟨invoice, found, _, stored, -, -, -, pending, step⟩ := step
  have reviewed (reason : String) : CheckoutKept s (s.saveInvoice (quarantine invoice reason)) :=
    CheckoutStore.saveInvoice_kept sound found (quarantine_kept invoice reason)
  split at step
  · cases step
    exact finished (reviewed _) rfl
  next fitting =>
  split at step
  · cases step
    exact finished (CheckoutKept.refl s) rfl
  split at step
  · cases step
    exact finished (reviewed _) rfl
  split at step
  · cases step
  · have term : invoice.purchaseType = .subscription → ∃ sub, s.billing.tenant.subscription = some sub ∧
        ¬ sub.paidTerm input.today := by
      intro kind
      unfold staleTerm at fitting
      rw [kind] at fitting
      cases subscribed : s.billing.tenant.subscription with
      | none =>
        rw [subscribed] at fitting
        cases fitting
      | some sub =>
        refine ⟨sub, rfl, fun running => ?_⟩
        rw [subscribed] at fitting
        simp only [if_pos running] at fitting
        cases fitting
    have counted := countAttempt_move (w := w) sound found stored pending term
    rw [pure_ok.mp step] at counted
    exact counted

theorem storeFailure_move {pk attempt : ℕ} {exception : String} (sound : s.Sound)
    (step : Checkout.storeFailure pk exception attempt input s = .ok (next, moved)) :
    CheckoutMove input s w next moved := by
  simp only [Checkout.storeFailure, bind_ok, orRaise_ok] at step
  obtain ⟨_, found, intent, -, made⟩ := step
  cases made
  by_cases unknown : intent.checkoutConfirmationUrl = ""
  · rw [if_pos unknown]
    refine finished (CheckoutStore.saveInvoice_kept sound found ?_) rfl
    exact ⟨rfl, rfl, rfl, fun _ frozen => frozen, fun pending => pending⟩
  · rw [if_neg unknown]
    exact finished (CheckoutKept.refl s) rfl

theorem storePayment_move {pk : ℕ} {paymentId confirmationUrl : String} (sound : s.Sound)
    (step : Checkout.storePayment pk paymentId confirmationUrl input s = .ok (next, moved)) :
    CheckoutMove input s w next moved := by
  simp only [Checkout.storePayment, bind_ok, orRaise_ok] at step
  obtain ⟨_, found, _, stored, step⟩ := step
  split at step
  · cases step
    exact quiet (CheckoutKept.refl s) rfl (fun _ _ other => by cases other) fun _ _ other => by cases other
  split at step
  · cases step
    exact quiet (CheckoutKept.refl s) rfl (fun _ _ other => by cases other) fun _ _ other => by cases other
  · cases step
    refine finished (CheckoutStore.saved_kept sound found stored ?_ ⟨rfl, rfl, rfl, rfl⟩) rfl
    exact ⟨rfl, rfl, rfl, fun _ frozen => frozen, fun pending => pending⟩

theorem markCollision_kept (pk : ℕ) (paymentId reason : String) (s : CheckoutStore) :
    CheckoutKept s (markCollision pk paymentId reason s) := by
  refine ⟨⟨_, rfl, fun row _ => ?_⟩, Rewrites.refl IntentKept.refl _, rfl⟩
  split
  · exact ⟨rfl, rfl, rfl, fun _ frozen => frozen, fun pending => by cases pending⟩
  · exact InvoiceKept.refl row

theorem billing_kept (sound : s.Sound) (worker : BillingWorker) (read : BillingInput) :
    CheckoutKept s { s with billing := (worker.advance read s.billing).1 } := by
  refine ⟨?_, Rewrites.refl IntentKept.refl _, rfl⟩
  rcases BillingWorker.advance_serial worker read s.billing with same | ⟨event, performed⟩
  · dsimp only
    rw [same]
    exact Rewrites.refl InvoiceKept.refl _
  · dsimp only
    rw [performed]
    exact s.billing.next_rewrites event sound.invoices

theorem of_advance (codec : CheckoutCodec) (w : CheckoutWorker) (input : CheckoutInput) (sound : s.Sound) :
    CheckoutMove input s w (w.advance codec input s).1 (w.advance codec input s).2 := by
  cases w with
  | createPayment =>
    apply settled
    intro next moved step
    simp only [CheckoutWorker.start, bind_ok, pure_ok] at step
    obtain ⟨-, -, -, -, found, -, made⟩ := step
    cases made
    exact quiet (CheckoutKept.refl s) rfl (fun _ _ other => by cases other) fun _ _ other => by cases other
  | selectIntent request found =>
    apply settled
    intro next moved step
    cases chosen : Checkout.selectIntent codec request found input s with
    | error =>
      rw [chosen] at step
      cases step
    | ok =>
      rw [chosen] at step
      cases step
      obtain ⟨unreviewed, same | ⟨created, calls⟩⟩ := selectIntent_ok chosen
      · refine ⟨.inl ?_, .inl (congrArg CheckoutStore.calls same), fun _ _ other => ?_, fun _ _ _ => unreviewed⟩
        · rw [same]
          exact CheckoutKept.refl s
        · cases other
      · refine ⟨.inr created, .inl calls, fun _ _ other => ?_, fun _ _ _ => unreviewed⟩
        cases other
  | bindKey request invoice =>
    apply settled
    intro next moved step
    cases bound : bindClientKey codec request invoice input s with
    | error =>
      rw [bound] at step
      cases step
    | ok =>
      rw [bound] at step
      cases step
      obtain ⟨_, same⟩ := bindClientKey_ok bound
      rw [same]
      refine quiet ⟨Rewrites.refl InvoiceKept.refl _, Rewrites.refl IntentKept.refl _, rfl⟩ rfl ?_ ?_
      · exact fun _ _ other => by cases other
      · exact fun _ _ other => by cases other
  | resume => exact settled fun next moved step => resume_move sound step
  | callProvider call attempt =>
    have kept : CheckoutKept s { s with calls := s.calls ++ [call] } :=
      ⟨Rewrites.refl InvoiceKept.refl _, Rewrites.refl IntentKept.refl _, rfl⟩
    refine ⟨.inl kept, .inr ⟨call, attempt, rfl, kept, rfl⟩, fun other count made => ?_, fun request invoice made => ?_⟩
    all_goals
      simp only [CheckoutWorker.advance, answered] at made
      split at made
      · split at made <;> cases made
      · cases made
  | storePayment => exact settled fun next moved step => storePayment_move sound step
  | storeFailure => exact settled fun next moved step => storeFailure_move sound step
  | collision invoice paymentId reason => exact finished (markCollision_kept invoice paymentId reason s) rfl
  | billing worker =>
    exact quiet (billing_kept sound worker input.toBillingInput) rfl (fun _ _ other => by cases other)
      fun _ _ other => by cases other
  | done => exact finished (CheckoutKept.refl s) rfl

end CheckoutMove

end MapBackend.Billing
