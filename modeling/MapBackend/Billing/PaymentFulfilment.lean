import MapBackend.Billing.WebhookProcessing
import Mathlib.Data.List.Nodup

/-!
Exactly-once fulfilment.
-/

namespace MapBackend.Billing
open MapBackend.Library BillingService

def appliedCount (s : BillingStore) (invoice : ℕ) : ℕ :=
  (s.applied.filter fun e => e.invoice = invoice).length

theorem appliedCount_same {s next : BillingStore} (same : next.applied = s.applied) (invoice : ℕ) :
    appliedCount next invoice = appliedCount s invoice := by
  rw [appliedCount, same, appliedCount]

theorem appliedCount_cons {s next : BillingStore} {e : Entitlement} (one : next.applied = e :: s.applied)
    (invoice : ℕ) :
    appliedCount next invoice = appliedCount s invoice + if e.invoice = invoice then 1 else 0 := by
  rw [appliedCount, one, appliedCount, List.filter_cons]
  split <;> simp_all

variable {s : BillingStore}

theorem appliedCount_eq_zero {invoice : ℕ} (absent : ∀ e ∈ s.applied, e.invoice ≠ invoice) :
    appliedCount s invoice = 0 := by
  rw [appliedCount, List.length_eq_zero_iff, List.filter_eq_nil_iff]
  intro e member
  simpa using absent e member

structure BillingStore.Fresh (s : BillingStore) : Prop where
  keys : (s.invoices.map Invoice.pk).Nodup
  unpaid : ∀ i ∈ s.invoices, i.paidAt = none
  applied : s.applied = []

structure BillingStore.Fulfilment (s : BillingStore) : Prop where
  keys : (s.invoices.map Invoice.pk).Nodup
  pending : ∀ i ∈ s.invoices, i.status = .pending → i.paidAt = none
  counted : ∀ i ∈ s.invoices, appliedCount s i.pk = if i.paidAt.isSome then 1 else 0
  known : ∀ e ∈ s.applied, ∃ i ∈ s.invoices, i.pk = e.invoice

theorem BillingStore.Fresh.fulfilment (h : s.Fresh) : s.Fulfilment where
  keys := h.keys
  pending i member _ := h.unpaid i member
  counted i member := by
    simp [appliedCount, h.applied, h.unpaid i member]
  known e member := by
    rw [h.applied] at member
    cases member

section Saving

variable {s next : BillingStore} {old new : Invoice}

theorem saved_pks (saved : next.invoices = (saveInvoice s new).invoices) :
    next.invoices.map Invoice.pk = s.invoices.map Invoice.pk := by
  rw [saved]
  simp only [saveInvoice, List.map_map]
  apply List.map_congr_left
  intro row _
  simp only [Function.comp]
  split
  next here => exact here.symm
  · rfl

theorem mem_saved {row : Invoice} (saved : next.invoices = (saveInvoice s new).invoices)
    (member : row ∈ next.invoices) : row = new ∨ (row ∈ s.invoices ∧ row.pk ≠ new.pk) := by
  rw [saved] at member
  simp only [saveInvoice, List.mem_map] at member
  obtain ⟨_, present, made⟩ := member
  split at made
  · exact .inl made.symm
  next elsewhere =>
    subst made
    exact .inr ⟨present, elsewhere⟩

theorem saved_mem_new (found : old ∈ s.invoices) (same : new.pk = old.pk)
    (saved : next.invoices = (saveInvoice s new).invoices) : new ∈ next.invoices := by
  rw [saved]
  exact List.mem_map.mpr ⟨old, found, by simp [same]⟩

theorem saved_mem_other {row : Invoice} (present : row ∈ s.invoices) (elsewhere : row.pk ≠ new.pk)
    (saved : next.invoices = (saveInvoice s new).invoices) : row ∈ next.invoices := by
  rw [saved]
  exact List.mem_map.mpr ⟨row, present, by simp [elsewhere]⟩

theorem BillingStore.Fulfilment.unique (h : s.Fulfilment) {a b : Invoice} (ha : a ∈ s.invoices)
    (hb : b ∈ s.invoices) (same : a.pk = b.pk) : a = b :=
  List.inj_on_of_nodup_map h.keys ha hb same

theorem BillingStore.Fulfilment.revised (h : s.Fulfilment) (change : Revised s next old new) :
    next.Fulfilment := by
  have pk := change.same.pk
  have count := appliedCount_same change.idle.applied
  refine ⟨?_, ?_, ?_, ?_⟩
  · rw [saved_pks change.invoices]
    exact h.keys
  · intro i member pending
    rcases mem_saved change.invoices member with rfl | ⟨present, _⟩
    · rw [change.paidAt]
      exact h.pending old change.found (change.status pending)
    · exact h.pending i present pending
  · intro i member
    rw [count]
    rcases mem_saved change.invoices member with rfl | ⟨present, _⟩
    · rw [pk, change.paidAt]
      exact h.counted old change.found
    · exact h.counted i present
  · intro e member
    rw [change.idle.applied] at member
    obtain ⟨i, present, same⟩ := h.known e member
    by_cases here : i.pk = new.pk
    · exact ⟨new, saved_mem_new change.found pk change.invoices, here.symm.trans same⟩
    · exact ⟨i, saved_mem_other present here change.invoices, same⟩

theorem BillingStore.Fulfilment.awaiting_unpaid (h : s.Fulfilment) (found : old ∈ s.invoices)
    (awaits : awaitsOutcome old = true) : old.paidAt = none := by
  simp only [awaitsOutcome, isUnsettledCheckoutManual, blocksSubscriptionCheckout, Bool.or_eq_true,
    Bool.and_eq_true, beq_iff_eq, Option.isNone_iff_eq_none] at awaits
  rcases awaits with pending | ⟨⟨_, unpaid⟩, _⟩
  · exact h.pending old found pending
  · exact unpaid

theorem BillingStore.Fulfilment.fulfilled (h : s.Fulfilment) (change : Fulfilled s next old new) :
    next.Fulfilment := by
  have pk := change.same.pk
  have unpaid := h.awaiting_unpaid change.found change.awaits
  obtain ⟨e, mine, one⟩ := change.applied
  have count := appliedCount_cons one
  refine ⟨?_, ?_, ?_, ?_⟩
  · rw [saved_pks change.invoices]
    exact h.keys
  · intro i member pending
    rcases mem_saved change.invoices member with rfl | ⟨present, _⟩
    · rw [change.status] at pending
      cases pending
    · exact h.pending i present pending
  · intro i member
    rw [count]
    rcases mem_saved change.invoices member with rfl | ⟨present, elsewhere⟩
    · rw [pk, mine, h.counted old change.found, unpaid]
      simp [change.paidAt]
    · have other : ¬ e.invoice = i.pk := by
        rw [mine, ← pk]
        exact fun same => elsewhere same.symm
      rw [if_neg other]
      exact h.counted i present
  · intro entry member
    rw [one, List.mem_cons] at member
    rcases member with rfl | earlier
    · exact ⟨new, saved_mem_new change.found pk change.invoices, pk.trans mine.symm⟩
    · obtain ⟨i, present, same⟩ := h.known entry earlier
      by_cases here : i.pk = new.pk
      · exact ⟨new, saved_mem_new change.found pk change.invoices, here.symm.trans same⟩
      · exact ⟨i, saved_mem_other present here change.invoices, same⟩

end Saving

theorem BillingStore.next_fulfilment (s : BillingStore) (e : BillingEvent) (h : s.Fulfilment) :
    (s.next e).Fulfilment := by
  rcases next_cases s e with ⟨invoices, idle⟩ | ⟨old, new, revised⟩ | ⟨old, new, fulfilled⟩
  · refine ⟨by rw [invoices]; exact h.keys, by rw [invoices]; exact h.pending, ?_, ?_⟩
    · intro i member
      rw [invoices] at member
      rw [appliedCount_same idle.applied]
      exact h.counted i member
    · rw [invoices, idle.applied]
      exact h.known
  · exact h.revised revised
  · exact h.fulfilled fulfilled

/-- The payment of an invoice is recorded, and no more of its entitlements were applied. -/
def KeepsPaid (s next : BillingStore) : Prop :=
  ∀ i ∈ s.invoices, ∀ t, i.paidAt = some t →
    (∃ j ∈ next.invoices, j.pk = i.pk ∧ j.paidAt = some t) ∧
      appliedCount next i.pk = appliedCount s i.pk

theorem KeepsPaid.refl (s : BillingStore) : KeepsPaid s s :=
  fun i member _ paid => ⟨⟨i, member, rfl, paid⟩, rfl⟩

theorem KeepsPaid.trans {a b c : BillingStore} (first : KeepsPaid a b) (second : KeepsPaid b c) :
    KeepsPaid a c := by
  intro i member t paid
  obtain ⟨⟨j, there, same, paid'⟩, count⟩ := first i member t paid
  obtain ⟨⟨k, later, same', paid''⟩, count'⟩ := second j there t paid'
  refine ⟨⟨k, later, same'.trans same, paid''⟩, ?_⟩
  rw [same] at count'
  exact count'.trans count

theorem BillingStore.next_keepsPaid (s : BillingStore) (e : BillingEvent) (h : s.Fulfilment) :
    KeepsPaid s (s.next e) := by
  intro i member t paid
  rcases next_cases s e with ⟨invoices, idle⟩ | ⟨old, new, revised⟩ | ⟨old, new, fulfilled⟩
  · exact ⟨⟨i, by rwa [invoices], rfl, paid⟩, appliedCount_same idle.applied _⟩
  · refine ⟨?_, appliedCount_same revised.idle.applied _⟩
    have pk := revised.same.pk
    by_cases here : i.pk = new.pk
    · have same := h.unique member revised.found (here.trans pk)
      subst same
      exact ⟨new, saved_mem_new revised.found pk revised.invoices, pk, revised.paidAt.trans paid⟩
    · exact ⟨i, saved_mem_other member here revised.invoices, rfl, paid⟩
  · have pk := fulfilled.same.pk
    have unpaid := h.awaiting_unpaid fulfilled.found fulfilled.awaits
    have elsewhere : i.pk ≠ old.pk := by
      intro same
      rw [h.unique member fulfilled.found same, unpaid] at paid
      cases paid
    obtain ⟨_, mine, one⟩ := fulfilled.applied
    refine ⟨⟨i, saved_mem_other member (by rwa [pk]) fulfilled.invoices, rfl, paid⟩, ?_⟩
    rw [appliedCount_cons one, mine, if_neg (Ne.symm elsewhere), Nat.add_zero]

theorem BillingStore.next_gives (s : BillingStore) (e : BillingEvent) :
    Idle s (s.next e) ∨ ∃ entitlement, (s.next e).applied = entitlement :: s.applied := by
  rcases next_cases s e with ⟨_, idle⟩ | ⟨_, _, revised⟩ | ⟨_, _, fulfilled⟩
  · exact .inl idle
  · exact .inl revised.idle
  · obtain ⟨entitlement, _, one⟩ := fulfilled.applied
    exact .inr ⟨entitlement, one⟩

theorem appliedCount_le_one (h : s.Fulfilment) (invoice : ℕ) :
    appliedCount s invoice ≤ 1 := by
  by_cases known : ∃ i ∈ s.invoices, i.pk = invoice
  · obtain ⟨i, member, rfl⟩ := known
    rw [h.counted i member]
    split <;> omega
  · rw [appliedCount_eq_zero]
    · omega
    · intro e member same
      obtain ⟨i, present, pk⟩ := h.known e member
      exact known ⟨i, present, pk.trans same⟩

theorem BillingCrew.next_store (c : BillingCrew) (a : BillingAction) :
    (c.next a).store = c.store ∨ ∃ e, (c.next a).store = c.store.next e :=
  Crew.step_store BillingWorker.advance_serial c a

theorem BillingCrew.next_fulfilment (c : BillingCrew) (a : BillingAction) (h : c.store.Fulfilment) :
    (c.next a).store.Fulfilment := by
  rcases c.next_store a with same | ⟨e, moved⟩
  · rwa [same]
  · rw [moved]
    exact c.store.next_fulfilment e h

theorem BillingCrew.next_keepsPaid (c : BillingCrew) (a : BillingAction) (h : c.store.Fulfilment) :
    KeepsPaid c.store (c.next a).store := by
  rcases c.next_store a with same | ⟨e, moved⟩
  · rw [same]
    exact KeepsPaid.refl c.store
  · rw [moved]
    exact c.store.next_keepsPaid e h

/-- In every interleaving of webhook deliveries, replays, the reconciler and direct handler calls
an invoice is fulfilled at most once; its payment date stays once it is set, and from then on
nothing is applied for it any more. A move that applies nothing gives no credits and leaves the
subscription as it is. -/
theorem fulfilled_at_most_once (c : BillingCrew) (fresh : c.store.Fresh)
    (before after : List BillingAction) :
    let reached := run BillingCrew.next c before
    (∀ invoice, appliedCount reached.store invoice ≤ 1) ∧
      KeepsPaid reached.store (run BillingCrew.next reached after).store ∧
      ∀ a, Idle reached.store (reached.next a).store ∨
        ∃ entitlement, (reached.next a).store.applied = entitlement :: reached.store.applied := by
  intro reached
  let inv (c : BillingCrew) : Prop := c.store.Fulfilment
  let rel (a b : BillingCrew) : Prop := KeepsPaid a.store b.store
  have fulfilment : inv reached :=
    run_always BillingCrew.next BillingCrew.next_fulfilment fresh.fulfilment before
  have kept : rel reached (run BillingCrew.next reached after) := by
    apply run_relates BillingCrew.next ?_ ?_ BillingCrew.next_fulfilment BillingCrew.next_keepsPaid fulfilment
    · exact fun c => KeepsPaid.refl c.store
    · exact fun _ _ _ first second => first.trans second
  refine ⟨appliedCount_le_one fulfilment, kept, ?_⟩
  intro a
  rcases reached.next_store a with same | ⟨e, moved⟩
  · rw [same]
    exact .inl (Idle.refl reached.store)
  · rw [moved]
    exact reached.store.next_gives e

section Runs

def paidAnswer : BillingInput :=
  { env := billingEnv, reconciler := ⟨0, 5, 60, 3600⟩, allowTestPayments := false, validProviderId := true,
    payment := some ⟨"pay-1", .succeeded, 100, "RUB", false⟩, refund := none, claim := .claimed,
    acknowledged := true }

def deliverSuccess (k : ℕ) : List BillingAction :=
  [.start (.webhook (.read .paymentSucceeded) none), .move k paidAnswer, .move k paidAnswer]

/-- The first delivery pays the invoice; a refund notice, an operator's mark and a second delivery follow. -/
def laterEvents : List BillingAction :=
  [.direct (.reversal billingEnv 1 ⟨"refund-1", "pay-1", some 40, "RUB", .refund⟩),
    .direct (.manualReview 1 "operator" false)] ++ deliverSuccess 1

theorem fulfilled_once_after_refund_and_review :
    let paid := run BillingCrew.next ⟨billingStore [topupInvoice 1 "pay-1"], []⟩ (deliverSuccess 0)
    paid.store.invoices.map Invoice.paidAt = [some 0] ∧ appliedCount paid.store 1 ≤ 1 ∧
      KeepsPaid paid.store (run BillingCrew.next paid laterEvents).store := by
  have once := fulfilled_at_most_once ⟨billingStore [topupInvoice 1 "pay-1"], []⟩
    ⟨by decide, by decide, rfl⟩ (deliverSuccess 0) laterEvents
  exact ⟨by decide +kernel, once.1 1, once.2.1⟩

end Runs

end MapBackend.Billing
