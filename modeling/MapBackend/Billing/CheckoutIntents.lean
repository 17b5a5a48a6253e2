import MapBackend.Billing.CheckoutMoves
import Mathlib.Data.List.Induction

/-!
One checkout at a time.
-/

namespace MapBackend.Billing
open MapBackend.Library BillingService Checkout

/-- A subscription payment that needs nothing any more: it failed, was paid, or its money was returned. -/
def Invoice.settled (invoice : Invoice) : Prop := invoice.purchaseType = .subscription ∧ ¬ invoice.unresolved

def Invoice.awaited (invoice : Invoice) : Prop := invoice.purchaseType = .subscription ∧ invoice.status = .pending

namespace CheckoutStore

variable {s next : CheckoutStore}

theorem Describes.kept {call : ProviderCall} (describes : s.Describes call) (kept : CheckoutKept s next) :
    next.Describes call := by
  obtain ⟨_, mem, _, intent_mem, pk, here, key, amount, url, described⟩ := describes
  obtain ⟨row, row_mem, same⟩ := kept.invoices.kept mem
  obtain ⟨later, later_mem, still⟩ := kept.intents.kept intent_mem
  refine ⟨row, row_mem, later, later_mem, same.pk.trans pk, still.invoice.trans here, ?_, ?_, ?_, ?_⟩
  · exact still.providerIdempotencyKey.trans key
  · exact same.amount.trans amount
  · exact still.checkoutReturnUrl.trans url
  · exact paymentDescription_kept described same still

theorem Describes.created {call : ProviderCall} {today : CivilDate} (describes : s.Describes call)
    (created : CheckoutCreated today s next) : next.Describes call := by
  obtain ⟨invoice, mem, intent, intent_mem, rest⟩ := describes
  obtain ⟨_, -, -, invoices⟩ := created.invoices
  obtain ⟨_, -, intents⟩ := created.intents
  refine ⟨invoice, ?_, intent, ?_, rest⟩
  · rw [invoices]
    exact List.mem_append_left _ mem
  · rw [intents]
    exact List.mem_append_left _ intent_mem

theorem Describes.unique (sound : s.Sound) {a b : ProviderCall} (first : s.Describes a) (later : s.Describes b)
    (same : a.invoice = b.invoice) : a.idempotencyKey = b.idempotencyKey ∧ a.amount = b.amount ∧
      a.description = b.description ∧ a.returnUrl = b.returnUrl := by
  obtain ⟨invoice, mem, intent, intent_mem, pk, here, key, amount, url, described⟩ := first
  obtain ⟨row, row_mem, other, other_mem, row_pk, there, row_key, row_amount, row_url, again⟩ := later
  obtain rfl : invoice = row := row_unique sound.invoices mem row_mem (by rw [pk, row_pk, same])
  obtain rfl : intent = other := row_unique sound.intents intent_mem other_mem (by rw [here, there, same])
  refine ⟨key.symm.trans row_key, amount.symm.trans row_amount, ?_, url.symm.trans row_url⟩
  exact Except.ok.inj (described.symm.trans again)

structure Steady (s : CheckoutStore) : Prop where
  sound : s.Sound
  described : ∀ call ∈ s.calls, s.Describes call
  one : ∀ i ∈ s.billing.invoices, ∀ j ∈ s.billing.invoices, i.awaited → j.awaited → i = j

theorem awaited_before (kept : CheckoutKept s next) {new : Invoice} (mem : new ∈ next.billing.invoices)
    (awaited : new.awaited) : ∃ old ∈ s.billing.invoices, InvoiceKept old new ∧ old.awaited := by
  obtain ⟨old, old_mem, same⟩ := kept.invoices.source mem
  exact ⟨old, old_mem, same, same.purchaseType ▸ awaited.1, same.pending awaited.2⟩

theorem Steady.kept (steady : s.Steady) (kept : CheckoutKept s next)
    (calls : ∀ call ∈ next.calls, s.Describes call) : next.Steady where
  sound := steady.sound.kept kept
  described call mem := (calls call mem).kept kept
  one i i_mem j j_mem first second := by
    obtain ⟨old, old_mem, same, before⟩ := awaited_before kept i_mem first
    obtain ⟨other, other_mem, still, also⟩ := awaited_before kept j_mem second
    have one := steady.one old old_mem other other_mem before also
    apply row_unique (steady.sound.kept kept).invoices i_mem j_mem
    rw [same.pk, still.pk, one]

theorem Steady.created {today : CivilDate} (steady : s.Steady) (created : CheckoutCreated today s next)
    (calls : next.calls = s.calls) : next.Steady where
  sound := steady.sound.created created
  described call mem := by
    rw [calls] at mem
    exact (steady.described call mem).created created
  one i i_mem j j_mem first second := by
    obtain ⟨row, -, -, invoices⟩ := created.invoices
    have lone {k : Invoice} (mem : k ∈ next.billing.invoices) (awaited : k.awaited) : k = row := by
      rw [invoices] at mem
      rcases List.mem_append.mp mem with old | new
      · exact absurd (Invoice.unresolved_of_pending awaited.1 awaited.2) (created.resolved k old)
      · exact List.mem_singleton.mp new
    rw [lone i_mem first, lone j_mem second]

end CheckoutStore

def CheckoutWorker.Informed (s : CheckoutStore) : CheckoutWorker → Prop
  | .callProvider call _ => s.Describes call
  | _ => True

theorem CheckoutWorker.Informed.mono {s next : CheckoutStore} {w : CheckoutWorker} (informed : w.Informed s)
    (stays : ∀ call, s.Describes call → next.Describes call) : w.Informed next := by
  cases w with
  | callProvider call => exact stays call informed
  | _ => trivial

theorem CheckoutStore.next_kept {s : CheckoutStore} (sound : s.Sound) (event : CheckoutEvent) :
    CheckoutKept s (s.next event) ∧ (s.next event).calls = s.calls := by
  cases event with
  | billing event =>
    exact ⟨⟨s.billing.next_rewrites event sound.invoices, Rewrites.refl IntentKept.refl _, rfl⟩, rfl⟩
  | subscriptionSaved =>
    exact ⟨⟨Rewrites.refl InvoiceKept.refl _, Rewrites.refl IntentKept.refl _, rfl⟩, rfl⟩

/-- A new account: nothing was sent, and at most one payment of the subscription is unresolved. -/
structure CheckoutCrew.Fresh (c : CheckoutCrew) : Prop where
  workers : c.workers = []
  calls : c.store.calls = []
  sound : c.store.Sound
  single : ∀ i ∈ c.store.billing.invoices, ∀ j ∈ c.store.billing.invoices, i.unresolved → j.unresolved → i = j

def CheckoutCrew.Kept (c : CheckoutCrew) : Prop :=
  c.Keeps CheckoutStore.Steady fun s w => w.Informed s

namespace CheckoutCrew

variable {codec : CheckoutCodec} {c : CheckoutCrew}

theorem Fresh.kept (fresh : c.Fresh) : c.Kept := by
  refine ⟨⟨fresh.sound, ?_, ?_⟩, ?_⟩
  · rw [fresh.calls]
    exact fun _ mem => absurd mem List.not_mem_nil
  · intro i i_mem j j_mem first second
    exact fresh.single i i_mem j j_mem (Invoice.unresolved_of_pending first.1 first.2)
      (Invoice.unresolved_of_pending second.1 second.2)
  · rw [fresh.workers]
    exact fun _ mem => absurd mem List.not_mem_nil

theorem move_steady {input : CheckoutInput} {s next : CheckoutStore} {w moved : CheckoutWorker}
    (move : CheckoutMove input s w next moved) (steady : s.Steady) (informed : w.Informed s) :
    next.Steady ∧ moved.Informed next ∧ ∀ call, s.Describes call → next.Describes call := by
  have stays : ∀ call, s.Describes call → next.Describes call := by
    intro call describes
    rcases move.rows with kept | created
    · exact describes.kept kept
    · exact describes.created created
  have own : moved.Informed next := by
    cases moved with
    | callProvider call attempt => exact stays call (move.prepared call attempt rfl).1
    | _ => trivial
  refine ⟨?_, own, stays⟩
  rcases move.calls with same | ⟨call, attempt, rfl, kept, more⟩
  · rcases move.rows with kept | created
    · refine steady.kept kept fun call mem => ?_
      rw [same] at mem
      exact steady.described call mem
    · exact steady.created created same
  · refine steady.kept kept fun other mem => ?_
    rw [more] at mem
    rcases List.mem_append.mp mem with old | new
    · exact steady.described other old
    · rw [List.mem_singleton.mp new]
      exact informed

theorem Kept.next (kept : c.Kept) (a : CheckoutAction) : (c.next codec a).Kept := by
  refine Crew.Keeps.step kept a.crewAction (fun w started => ?_) (fun event performed => ?_) ?_
  · cases a <;> cases started <;> trivial
  · have ⟨same, calls⟩ := CheckoutStore.next_kept kept.store.sound event
    refine ⟨kept.store.kept same fun call mem => ?_, fun v informed => informed.mono fun call describes => ?_⟩
    · rw [calls] at mem
      exact kept.store.described call mem
    · exact describes.kept same
  · intro k input w _ found
    obtain ⟨steady, own, stays⟩ := move_steady (CheckoutMove.of_advance codec w input kept.store.sound) kept.store
      (kept.workers w (List.mem_of_getElem? found))
    exact ⟨steady, own, fun j v _ at_j informed => informed.mono stays⟩

theorem Kept.run (kept : c.Kept) (actions : List CheckoutAction) : (run (CheckoutCrew.next codec) c actions).Kept :=
  run_always _ (fun _ a kept => kept.next a) kept actions

theorem next_rows (kept : c.Kept) (a : CheckoutAction) :
    CheckoutKept c.store (c.next codec a).store ∨
      ∃ k input, a = .move k input ∧ CheckoutCreated input.today c.store (c.next codec a).store := by
  cases a with
  | move k input =>
    cases found : c.workers[k]? with
    | none =>
      have same : (c.next codec (.move k input)).store = c.store := by
        simp [CheckoutCrew.next, CheckoutAction.crewAction, Crew.step, found]
      rw [same]
      exact .inl (CheckoutKept.refl _)
    | some w =>
      have moved : (c.next codec (.move k input)).store = (w.advance codec input c.store).1 := by
        simp [CheckoutCrew.next, CheckoutAction.crewAction, Crew.step, found]
      rw [moved]
      exact (CheckoutMove.of_advance codec w input kept.store.sound).rows.imp_right fun created => ⟨k, input, rfl, created⟩
  | direct event => exact .inl (CheckoutStore.next_kept kept.store.sound event).1
  | _ => exact .inl (CheckoutKept.refl _)

theorem next_workers {w : CheckoutWorker} {a : CheckoutAction} (mem : w ∈ (c.next codec a).workers) :
    w ∈ c.workers ∨ a.crewAction = .start w ∨
      ∃ k input v, a = .move k input ∧ v ∈ c.workers ∧ w = (v.advance codec input c.store).2 := by
  cases a with
  | move k input =>
    cases found : c.workers[k]? with
    | none =>
      simp only [CheckoutCrew.next, CheckoutAction.crewAction, Crew.step, found] at mem
      exact .inl mem
    | some v =>
      simp only [CheckoutCrew.next, CheckoutAction.crewAction, Crew.step, found] at mem
      rcases List.mem_or_eq_of_mem_set mem with old | own
      · exact .inl old
      · exact .inr (.inr ⟨k, input, v, rfl, List.mem_of_getElem? found, own⟩)
  | crash => exact .inl (List.mem_of_mem_eraseIdx mem)
  | direct => exact .inl mem
  | createPayment =>
    rcases List.mem_append.mp mem with old | new
    · exact .inl old
    · exact .inr (.inl (by rw [List.mem_singleton.mp new]; rfl))
  | reconcile =>
    rcases List.mem_append.mp mem with old | new
    · exact .inl old
    · exact .inr (.inl (by rw [List.mem_singleton.mp new]; rfl))
  | deliver =>
    rcases List.mem_append.mp mem with old | new
    · exact .inl old
    · exact .inr (.inl (by rw [List.mem_singleton.mp new]; rfl))

theorem row_before (kept : c.Kept) (a : CheckoutAction) {new : Invoice} (mem : new ∈ (c.next codec a).store.billing.invoices) :
    (∃ old ∈ c.store.billing.invoices, InvoiceKept old new) ∨
      (new.pk = c.store.nextPk ∧ ∃ k input, a = .move k input ∧ CheckoutCreated input.today c.store (c.next codec a).store) := by
  rcases next_rows kept a with same | ⟨k, input, rfl, created⟩
  · exact .inl (same.invoices.source mem)
  · obtain ⟨_, pk, -, invoices⟩ := created.invoices
    rw [invoices] at mem
    rcases List.mem_append.mp mem with old | last
    · exact .inl ⟨new, old, InvoiceKept.refl new⟩
    · rw [List.mem_singleton.mp last]
      exact .inr ⟨pk, k, input, rfl, created⟩

theorem unresolved_before (kept : c.Kept) (a : CheckoutAction) {i j : Invoice}
    (i_mem : i ∈ (c.next codec a).store.billing.invoices) (j_mem : j ∈ (c.next codec a).store.billing.invoices)
    (first : i.unresolved) (second : j.unresolved) (other : i ≠ j) :
    (∃ x ∈ c.store.billing.invoices, ∃ y ∈ c.store.billing.invoices, x.pk = i.pk ∧ y.pk = j.pk ∧
      x.unresolved ∧ y.unresolved ∧ x ≠ y) ∨
    ∃ row ∈ c.store.billing.invoices, row.settled ∧ (row.pk = i.pk ∨ row.pk = j.pk) := by
  have apart : i.pk ≠ j.pk := fun same => other (row_unique (kept.next a).store.sound.invoices i_mem j_mem same)
  have beside {x y : Invoice} {k : ℕ} {input : CheckoutInput} (x_mem : x ∈ c.store.billing.invoices)
      (same : InvoiceKept x y) (unresolved : y.unresolved) (created : CheckoutCreated input.today c.store (c.next codec a).store) :
      x.settled := ⟨same.purchaseType ▸ unresolved.1, created.resolved x x_mem⟩
  rcases row_before kept a i_mem with ⟨x, x_mem, x_kept⟩ | ⟨i_new, k, input, -, created⟩
  · rcases row_before kept a j_mem with ⟨y, y_mem, y_kept⟩ | ⟨-, k, input, -, created⟩
    · by_cases x_open : x.unresolved
      · by_cases y_open : y.unresolved
        · refine .inl ⟨x, x_mem, y, y_mem, x_kept.pk.symm, y_kept.pk.symm, x_open, y_open, fun same => apart ?_⟩
          rw [x_kept.pk, y_kept.pk, same]
        · exact .inr ⟨y, y_mem, ⟨y_kept.purchaseType ▸ second.1, y_open⟩, .inr y_kept.pk.symm⟩
      · exact .inr ⟨x, x_mem, ⟨x_kept.purchaseType ▸ first.1, x_open⟩, .inl x_kept.pk.symm⟩
    · exact .inr ⟨x, x_mem, beside (k := k) x_mem x_kept first created, .inl x_kept.pk.symm⟩
  · rcases row_before kept a j_mem with ⟨y, y_mem, y_kept⟩ | ⟨j_new, -⟩
    · exact .inr ⟨y, y_mem, beside (k := k) y_mem y_kept second created, .inr y_kept.pk.symm⟩
    · exact absurd (i_new.trans j_new.symm) apart

theorem second_reopened (fresh : c.Fresh) (actions : List CheckoutAction) {i j : Invoice}
    (i_mem : i ∈ (run (CheckoutCrew.next codec) c actions).store.billing.invoices)
    (j_mem : j ∈ (run (CheckoutCrew.next codec) c actions).store.billing.invoices)
    (first : i.unresolved) (second : j.unresolved) (other : i ≠ j) :
    ∃ before, before <+: actions ∧ ∃ row ∈ (run (CheckoutCrew.next codec) c before).store.billing.invoices,
      row.settled ∧ (row.pk = i.pk ∨ row.pk = j.pk) := by
  induction actions using List.reverseRecOn generalizing i j with
  | nil => exact absurd (fresh.single i i_mem j j_mem first second) other
  | append_singleton rest a ih =>
    rw [run_append] at i_mem j_mem
    rcases unresolved_before (fresh.kept.run rest) a i_mem j_mem first second other with
      ⟨x, x_mem, y, y_mem, x_pk, y_pk, x_open, y_open, apart⟩ | ⟨row, row_mem, settled, here⟩
    · obtain ⟨before, earlier, row, row_mem, settled, here⟩ := ih x_mem y_mem x_open y_open apart
      refine ⟨before, earlier.trans (List.prefix_append rest [a]), row, row_mem, settled, ?_⟩
      rw [← x_pk, ← y_pk]
      exact here
    · exact ⟨rest, List.prefix_append rest [a], row, row_mem, settled, here⟩

end CheckoutCrew

/-- In every interleaving of checkout calls, crashes, resumptions, webhooks and reviews: two payments of the subscription
are unresolved at once only after one of them was settled; at most one awaits the provider; an intent is created only
while nothing is unresolved and no paid term is running; a selection goes on only when no payment is under review; a
request is prepared only for a pending payment outside a paid term; and all requests for an intent are the same. -/
theorem single_checkout_intent (codec : CheckoutCodec) {c : CheckoutCrew} (fresh : c.Fresh)
    (actions : List CheckoutAction) :
    let reached := run (CheckoutCrew.next codec) c actions
    (∀ i ∈ reached.store.billing.invoices, ∀ j ∈ reached.store.billing.invoices, i.unresolved → j.unresolved → i ≠ j →
      ∃ before, before <+: actions ∧ ∃ row ∈ (run (CheckoutCrew.next codec) c before).store.billing.invoices,
        row.settled ∧ (row.pk = i.pk ∨ row.pk = j.pk)) ∧
    (∀ i ∈ reached.store.billing.invoices, ∀ j ∈ reached.store.billing.invoices, i.awaited → j.awaited → i = j) ∧
    (∀ a, ∀ new ∈ (reached.next codec a).store.billing.invoices,
      (∀ old ∈ reached.store.billing.invoices, old.pk ≠ new.pk) →
        (∀ old ∈ reached.store.billing.invoices, ¬ old.unresolved) ∧ ∃ k input sub, a = .move k input ∧
          reached.store.billing.tenant.subscription = some sub ∧ ¬ sub.paidTerm input.today) ∧
    (∀ a request invoice, .bindKey request invoice ∈ (reached.next codec a).workers →
      .bindKey request invoice ∈ reached.workers ∨
        ∀ row ∈ reached.store.billing.invoices, row.unresolved → ¬ row.needsReview) ∧
    (∀ a call attempt, .callProvider call attempt ∈ (reached.next codec a).workers →
      .callProvider call attempt ∈ reached.workers ∨
        ∃ k input, a = .move k input ∧ reached.store.Payable input.today call.invoice) ∧
    ∀ first ∈ reached.store.calls, ∀ later ∈ reached.store.calls, first.invoice = later.invoice →
      first.idempotencyKey = later.idempotencyKey ∧ first.amount = later.amount ∧
        first.description = later.description ∧ first.returnUrl = later.returnUrl := by
  intro reached
  have kept : reached.Kept := fresh.kept.run actions
  refine ⟨fun i i_mem j j_mem => CheckoutCrew.second_reopened fresh actions i_mem j_mem, kept.store.one, ?_, ?_, ?_, ?_⟩
  · intro a new mem unused
    rcases CheckoutCrew.row_before kept a mem with ⟨old, old_mem, same⟩ | ⟨-, k, input, rfl, created⟩
    · exact absurd same.pk.symm (unused old old_mem)
    · obtain ⟨sub, subscribed, term⟩ := created.term
      exact ⟨created.resolved, k, input, sub, rfl, subscribed, term⟩
  · intro a request invoice mem
    rcases CheckoutCrew.next_workers mem with old | started | ⟨k, input, v, -, v_mem, moved⟩
    · exact .inl old
    · cases a <;> cases started
    · exact .inr ((CheckoutMove.of_advance codec v input kept.store.sound).selected request invoice moved.symm)
  · intro a call attempt mem
    rcases CheckoutCrew.next_workers mem with old | started | ⟨k, input, v, rfl, v_mem, moved⟩
    · exact .inl old
    · cases a <;> cases started
    · exact .inr ⟨k, input, rfl,
        ((CheckoutMove.of_advance codec v input kept.store.sound).prepared call attempt moved.symm).2⟩
  · intro first first_mem later later_mem same
    exact (kept.store.described first first_mem).unique kept.store.sound (kept.store.described later later_mem) same

section Runs

def checkoutCodec : CheckoutCodec :=
  { payloadHash := fun request => request.planSlug ++ "|" ++ request.period ++ "|" ++ request.returnUrl,
    providerKey := fun key => "map:" ++ key, safeConfirmationUrl := fun _ => true }

def basicPlan : Plan := { pk := 1, slug := "basic", name := "Basic", limitAiCredits := none }

def endedTrial : Subscription :=
  { pk := 1, plan := basicPlan, status := .trial, billingPeriod := .monthly,
    currentPeriodStart := ⟨1970, 1, 1, by decide⟩, currentPeriodEnd := ⟨1970, 1, 1, by decide⟩,
    aiPeriodStart := none, aiPeriodEnd := none, cancelledAt := none, billingVersion := 0 }

def checkoutStart : CheckoutCrew :=
  { store := { billing := { billingStore [] with tenant := { bareTenant with subscription := some endedTrial } },
               intents := [], keys := [], calls := [], nextPk := 1 },
    workers := [] }

def creates (paymentId : String) : CheckoutInput :=
  { paidAnswer with
    billingEnabled := true, maxKeysPerInvoice := 5, plans := [⟨basicPlan, true, ⟨100000, by decide⟩, ⟨1000000, by decide⟩⟩],
    created := .ok (paymentId, "https://pay"), foreignPayment := false }

/-- A call of `create_payment` by the worker at this place, up to the stored payment. -/
def pays (k : ℕ) (key paymentId : String) : List CheckoutAction :=
  .createPayment ⟨"basic", "monthly", "https://app", key⟩ :: List.replicate 6 (.move k (creates paymentId))

def retried : List CheckoutAction :=
  .createPayment ⟨"basic", "monthly", "https://app", "key-1"⟩ ::
    List.replicate 6 (.move 0 { creates "pay-1" with created := .error "Timeout" }) ++
    .reconcile 1 true :: List.replicate 3 (.move 1 (creates "pay-1"))

theorem retried_request_same :
    let reached := run (CheckoutCrew.next checkoutCodec) checkoutStart retried
    reached.store.calls.map ProviderCall.idempotencyKey = ["map:key-1", "map:key-1"] ∧
      ∀ first ∈ reached.store.calls, ∀ later ∈ reached.store.calls, first.invoice = later.invoice →
        first.idempotencyKey = later.idempotencyKey ∧ first.amount = later.amount ∧
          first.description = later.description ∧ first.returnUrl = later.returnUrl := by
  have fresh : checkoutStart.Fresh := ⟨rfl, rfl, ⟨by decide, by decide, by decide, by decide⟩, by decide⟩
  exact ⟨by decide +kernel, (single_checkout_intent checkoutCodec fresh retried).2.2.2.2.2⟩

/-- The first payment is cancelled, a second one is created, and then a success notice for the first
that could never be confirmed is given up. -/
def reopened : List CheckoutAction :=
  pays 0 "key-1" "pay-1" ++ [.direct (.billing (.paymentFailed 1 "pay-1"))] ++ pays 1 "key-2" "pay-2" ++
    [.direct (.billing (.exhausted .paymentSucceeded (some 1) "pay-1"))]

theorem reopened_unresolved :
    checkoutStart.Fresh ∧ ¬ (∀ i ∈ (run (CheckoutCrew.next checkoutCodec) checkoutStart reopened).store.billing.invoices,
      ∀ j ∈ (run (CheckoutCrew.next checkoutCodec) checkoutStart reopened).store.billing.invoices,
        i.unresolved ∧ (∃ call ∈ (run (CheckoutCrew.next checkoutCodec) checkoutStart reopened).store.calls,
          call.invoice = i.pk) →
        j.unresolved ∧ (∃ call ∈ (run (CheckoutCrew.next checkoutCodec) checkoutStart reopened).store.calls,
          call.invoice = j.pk) → i = j) := by
  refine ⟨⟨rfl, rfl, ⟨by decide, by decide, by decide, by decide⟩, by decide⟩, ?_⟩
  decide +kernel

end Runs

end MapBackend.Billing
