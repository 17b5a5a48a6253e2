import MapBackend.Billing.CheckoutIntents

/-!
Late answers of the provider.
-/

namespace MapBackend.Billing
open MapBackend.Library BillingService Checkout

structure Invoice.Undisturbed (old new : Invoice) : Prop where
  status : new.status = old.status
  checkoutState : new.checkoutState = old.checkoutState
  checkoutLastError : new.checkoutLastError = old.checkoutLastError
  nextReconciliationAt : new.nextReconciliationAt = old.nextReconciliationAt

def CheckoutWorker.persists : CheckoutWorker → Option ℕ
  | .storePayment invoice _ _ => some invoice
  | .storeFailure invoice _ _ => some invoice
  | .collision invoice _ _ => some invoice
  | _ => none

def AnswerSpares (codec : CheckoutCodec) (c : CheckoutCrew) (a : CheckoutAction) : Prop :=
  ∀ k input worker pk old, a = .move k input → c.workers[k]? = some worker → worker.persists = some pk →
    getInvoice c.store.billing pk = some old → old.status ≠ .pending →
      ∃ new, getInvoice (c.next codec a).store.billing pk = some new ∧ old.Undisturbed new

/-- The payment of the answer belongs to another invoice, or the invoice to another payment. -/
def Collides (s : CheckoutStore) (input : CheckoutInput) (invoice : Invoice) (paymentId : String) : Prop :=
  (invoice.yookassaPaymentId ≠ "" ∧ invoice.yookassaPaymentId ≠ paymentId) ∨ input.foreignPayment = true ∨
    ∃ row ∈ s.billing.invoices, row.pk ≠ invoice.pk ∧ row.yookassaPaymentId = paymentId

def Invoice.Holds (invoice : Invoice) (state : CheckoutState) (lastError : String) (due : Option Instant) : Prop :=
  invoice.checkoutState = state ∧ invoice.checkoutLastError = lastError ∧ invoice.nextReconciliationAt = due

/-- What the transaction of the worker would write into the invoice is nothing or already there. -/
def CheckoutWorker.Idle (s : CheckoutStore) (input : CheckoutInput) (invoice : Invoice) : CheckoutWorker → Prop
  | .storePayment pk paymentId _ => ∀ intent, s.intent? pk = some intent → Collides s input invoice paymentId ∨
      invoice.Holds .providerCreated "" (some (input.now + 1000000 * input.reconciler.baseDelaySeconds))
  | .storeFailure pk exception attempt => ∀ intent, s.intent? pk = some intent → intent.checkoutConfirmationUrl ≠ "" ∨
      invoice.Holds .providerPending (String.ofList (("Неопределённый результат YooKassa: " ++ exception).toList.take 500))
        (some (input.nextAttemptAt attempt))
  | .collision _ _ reason => invoice.status = .manualReview ∧
      invoice.Holds (if invoice.checkoutClientKey.isSome then .manualReview else invoice.checkoutState)
        (String.ofList (reason.toList.take 500)) none
  | _ => True

/-- Where the answer of a resolved invoice is persisted, nothing is left to write. -/
def AnswerIdle (c : CheckoutCrew) (a : CheckoutAction) : Prop :=
  ∀ k input worker pk old, a = .move k input → c.workers[k]? = some worker → worker.persists = some pk →
    getInvoice c.store.billing pk = some old → old.status ≠ .pending → worker.Idle c.store input old

section Steps

variable {s : CheckoutStore} {input : CheckoutInput} {pk : ℕ} {old : Invoice}

theorem getInvoice_map (s : BillingStore) (f : Invoice → Invoice) (keeps : ∀ row, (f row).pk = row.pk) (pk : ℕ) :
    getInvoice { s with invoices := s.invoices.map f } pk = (getInvoice s pk).map f := by
  have same : (fun row : Invoice => decide (row.pk = pk)) ∘ f = fun row => decide (row.pk = pk) := by
    funext row
    simp [keeps]
  rw [getInvoice, List.find?_map, same, getInvoice]

theorem getInvoice_saved {s : BillingStore} {new : Invoice} (found : getInvoice s pk = some old) (same : new.pk = pk) :
    getInvoice (saveInvoice s new) pk = some new := by
  have keeps (row : Invoice) : (if row.pk = new.pk then new else row).pk = row.pk := by
    split
    · next here => exact here.symm
    · rfl
  rw [saveInvoice, getInvoice_map s _ keeps, found, Option.map_some, if_pos ((getInvoice_some found).2.trans same.symm)]

theorem undisturbed_written {after : BillingStore} {new : Invoice} (written : getInvoice after pk = some new) :
    (∃ row, getInvoice after pk = some row ∧ old.Undisturbed row) ↔
      new.status = old.status ∧ old.Holds new.checkoutState new.checkoutLastError new.nextReconciliationAt := by
  constructor
  · rintro ⟨row, found, same⟩
    cases written.symm.trans found
    exact ⟨same.status, same.checkoutState.symm, same.checkoutLastError.symm, same.nextReconciliationAt.symm⟩
  · rintro ⟨status, state, lastError, due⟩
    exact ⟨new, written, status, state.symm, lastError.symm, due.symm⟩

theorem undisturbed_same {after : BillingStore} (same : getInvoice after pk = some old) :
    ∃ row, getInvoice after pk = some row ∧ old.Undisturbed row :=
  ⟨old, same, rfl, rfl, rfl, rfl⟩

theorem storePayment_spares (codec : CheckoutCodec) (paymentId url : String) (found : getInvoice s.billing pk = some old) :
    (∃ row, getInvoice ((CheckoutWorker.storePayment pk paymentId url).advance codec input s).1.billing pk = some row ∧
      old.Undisturbed row) ↔ (CheckoutWorker.storePayment pk paymentId url).Idle s input old := by
  have own : old.pk = pk := (getInvoice_some found).2
  simp only [CheckoutWorker.advance, CheckoutWorker.Idle, Checkout.storePayment, found, orRaise, bind, Except.bind]
  cases stored : s.intent? pk with
  | none => exact iff_of_true (undisturbed_same found) fun intent none' => by cases none'
  | some =>
    simp only [Option.some.injEq, forall_eq']
    by_cases different : old.yookassaPaymentId ≠ "" ∧ old.yookassaPaymentId ≠ paymentId
    · rw [if_pos different]
      exact iff_of_true (undisturbed_same found) (.inl (.inl different))
    rw [if_neg different]
    by_cases taken : input.foreignPayment = true ∨ ∃ row ∈ s.billing.invoices, row.pk ≠ pk ∧ row.yookassaPaymentId = paymentId
    · rw [if_pos taken]
      exact iff_of_true (undisturbed_same found) (.inl (.inr (own ▸ taken)))
    rw [if_neg taken]
    have clear : ¬ Collides s input old paymentId := by
      rintro (clash | clash)
      · exact different clash
      · exact taken (own ▸ clash)
    rw [or_iff_right clear]
    refine (undisturbed_written (getInvoice_saved found ?_)).trans (and_iff_right rfl)
    exact own

theorem storeFailure_spares (codec : CheckoutCodec) (exception : String) (attempt : ℕ) (found : getInvoice s.billing pk = some old) :
    (∃ row, getInvoice ((CheckoutWorker.storeFailure pk exception attempt).advance codec input s).1.billing pk = some row ∧
      old.Undisturbed row) ↔ (CheckoutWorker.storeFailure pk exception attempt).Idle s input old := by
  have own : old.pk = pk := (getInvoice_some found).2
  simp only [CheckoutWorker.advance, CheckoutWorker.Idle, Checkout.storeFailure, found, orRaise, bind, Except.bind]
  cases stored : s.intent? pk with
  | none => exact iff_of_true (undisturbed_same found) fun intent none' => by cases none'
  | some intent =>
    simp only [Option.some.injEq, forall_eq']
    by_cases unknown : intent.checkoutConfirmationUrl = ""
    · simp only [if_pos unknown]
      rw [or_iff_right (not_not.mpr unknown)]
      refine (undisturbed_written (getInvoice_saved found ?_)).trans (and_iff_right rfl)
      exact own
    · simp only [if_neg unknown]
      exact iff_of_true (undisturbed_same found) (.inl unknown)

theorem collision_spares (codec : CheckoutCodec) (paymentId reason : String) (found : getInvoice s.billing pk = some old) :
    (∃ row, getInvoice ((CheckoutWorker.collision pk paymentId reason).advance codec input s).1.billing pk = some row ∧
      old.Undisturbed row) ↔ (CheckoutWorker.collision pk paymentId reason).Idle s input old := by
  have own : old.pk = pk := (getInvoice_some found).2
  have written : getInvoice (markCollision pk paymentId reason s).billing pk = some (reviewedInvoice old reason false) := by
    rw [markCollision, getInvoice_map, found, Option.map_some, if_pos (.inl own)]
    intro row
    split
    · rfl
    · rfl
  refine (undisturbed_written written).trans (and_congr_left' ?_)
  exact eq_comm

end Steps

theorem answerSpares_iff (codec : CheckoutCodec) (c : CheckoutCrew) (a : CheckoutAction) : AnswerSpares codec c a ↔ AnswerIdle c a := by
  unfold AnswerSpares AnswerIdle
  refine forall_congr' fun k => forall_congr' fun input => forall_congr' fun worker => forall_congr' fun pk => forall_congr' fun old =>
    forall_congr' fun moved => forall_congr' fun there => forall_congr' fun persists => forall_congr' fun found => forall_congr' fun _ => ?_
  have after : (c.next codec a).store = (worker.advance codec input c.store).1 := by
    rw [moved]
    simp only [CheckoutCrew.next, CheckoutAction.crewAction, Crew.step, there]
  rw [after]
  cases worker with
  | storePayment _ paymentId url =>
    cases persists
    exact storePayment_spares codec paymentId url found
  | storeFailure _ exception attempt =>
    cases persists
    exact storeFailure_spares codec exception attempt found
  | collision _ paymentId reason =>
    cases persists
    exact collision_spares codec paymentId reason found
  | createPayment => cases persists
  | selectIntent => cases persists
  | bindKey => cases persists
  | resume => cases persists
  | callProvider => cases persists
  | billing => cases persists
  | done => cases persists

section Runs

/-- A checkout up to the answer of the provider, and meanwhile an operator puts the invoice under review. -/
def reviewedMeanwhile : List CheckoutAction :=
  .createPayment ⟨"basic", "monthly", "https://app", "key-1"⟩ :: List.replicate 5 (.move 0 (creates "pay-1")) ++
    [.direct (.billing (.manualReview 1 "operator" false))]

end Runs

end MapBackend.Billing
