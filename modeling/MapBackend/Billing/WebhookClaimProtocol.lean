import MapBackend.Billing.WebhookClaims
import MapBackend.Library.Tokens

/-!
The claim protocol of a webhook event.
-/

namespace MapBackend.Billing
open MapBackend.Library

inductive WebhookEventMove (settings : WebhookSettings) (s : WebhookEventStore) :
    WebhookEventWorker → WebhookEventInput → WebhookEventStore → WebhookEventWorker → Prop where
  | quiet {w w' : WebhookEventWorker} {input : WebhookEventInput} (token : w'.token? = none ∨ w'.token? = w.token?) :
      WebhookEventMove settings s w input s w'
  | applied {token : ℕ} {step step' : WebhookStep} {billing : BillingStore} {input : WebhookEventInput} :
      WebhookEventMove settings s (.process token step) input { s with billing } (.process token step')
  | counted {row : BillingWebhookEvent} {input : WebhookEventInput} (found : s.event = some row) :
      WebhookEventMove settings s .deliver input { s with event := some { row with deliveryCount := row.deliveryCount + 1 } } .done
  | claimed {w : WebhookEventWorker} {row : BillingWebhookEvent} {step : WebhookStep} {input : WebhookEventInput}
      (free : ∀ old ∈ s.event, ¬ old.decision.final ∧ ¬ old.Busy settings input.now) (open_ : ¬ row.decision.final) :
      WebhookEventMove settings s w input { s with event := some row, nextToken := s.nextToken + 1 } (.process s.nextToken step)
  | finalized {token : ℕ} {old row : BillingWebhookEvent} {input : WebhookEventInput} (found : s.event = some old)
      (open_ : ¬ old.decision.final) (own : old.processingToken = some token) :
      WebhookEventMove settings s (.finalize token) input { s with event := some row } .done
  | closed {old row : BillingWebhookEvent} {billing : BillingStore} {marked : Bool} {input : WebhookEventInput}
      (found : s.event = some old) (open_ : ¬ old.decision.final) (exhausted : settings.maxAttempts ≤ old.reconciliationAttempts)
      (idle : ¬ old.Busy settings input.now)
      (made : BillingService.finalizeExhaustedEvent (.ofType old.eventType) old.invoice old.lookupPaymentId s.billing =
        .ok (billing, marked))
      (closes : row.decision = .manualReview) :
      WebhookEventMove settings s .close input { s with billing, event := some row } .done

theorem received_open : ¬ WebhookDecision.final .received := by decide

namespace BillingWebhookEvent

theorem busy_stale {settings : WebhookSettings} {row : BillingWebhookEvent} {now : Instant}
    (stale : ∀ startedAt ∈ row.processingStartedAt, startedAt < settings.staleBefore now) : ¬ row.Busy settings now := by
  rintro ⟨-, startedAt, held, fresh⟩
  exact absurd (stale startedAt held) (Int.not_lt.mpr (Int.le_of_lt fresh))

theorem settles (settings : WebhookSettings) (row : BillingWebhookEvent) : ∃ earliest : Instant, ∀ now, earliest ≤ now →
    (∀ startedAt ∈ row.processingStartedAt, startedAt < settings.staleBefore now) ∧ ¬ row.Waiting now := by
  refine ⟨max (row.processingStartedAt.getD 0 + (settings.processingTimeoutSeconds : ℤ) * 1000000 + 1)
    (row.nextReconciliationAt.getD 0), fun now late => ⟨fun startedAt held => ?_, ?_⟩⟩
  · have after := (le_max_left _ _).trans late
    rw [Option.mem_def.mp held] at after
    exact lt_sub_iff_add_lt.mpr (Int.add_one_le_iff.mp after)
  · rintro ⟨_, scheduled, early⟩
    have after := (le_max_right _ _).trans late
    rw [Option.mem_def.mp scheduled] at after
    exact absurd early (Int.not_lt.mpr after)

theorem open_decision {decision : WebhookDecision} (open_ : ¬ decision.final) : decision = .received ∨ decision = .error := by
  cases decision with
  | received => exact .inl rfl
  | error => exact .inr rfl
  | _ => exact absurd (by decide) open_

theorem candidate {settings : WebhookSettings} {row : BillingWebhookEvent} {force : Bool} {now : Instant}
    (open_ : ¬ row.decision.final) (stale : ∀ startedAt ∈ row.processingStartedAt, startedAt < settings.staleBefore now)
    (due : ¬ row.Waiting now) : row.Candidate settings false force now := by
  refine .inr ⟨?_, .inr due⟩
  rcases open_decision open_ with received | error
  · exact .inr ⟨received, stale⟩
  · exact .inl error

end BillingWebhookEvent

namespace WebhookEventMove

variable {settings : WebhookSettings} {s later : WebhookEventStore} {w w' : WebhookEventWorker} {input : WebhookEventInput}
  {eventType objectId : String}

theorem ofDelivery (input : WebhookEventInput) (s : WebhookEventStore) :
    WebhookEventMove settings s .deliver input (WebhookEventWorker.deliver.advance settings eventType objectId input s).1
      (WebhookEventWorker.deliver.advance settings eventType objectId input s).2 := by
  simp only [WebhookEventWorker.advance, WebhookEventStore.claimWebhookEvent]
  split
  next none => exact .claimed (by simp [none]) received_open
  next old found =>
    split
    next => exact .counted found
    next free =>
      refine .claimed ?_ received_open
      intro row mem
      obtain rfl : old = row := Option.some.inj (found.symm.trans mem)
      exact ⟨fun final => free (.inl final), fun busy => free (.inr busy)⟩

theorem ofReconciliation (force : Bool) (input : WebhookEventInput) (s : WebhookEventStore) :
    WebhookEventMove settings s (.claim force) input
      ((WebhookEventWorker.claim force).advance settings eventType objectId input s).1
      ((WebhookEventWorker.claim force).advance settings eventType objectId input s).2 := by
  simp only [WebhookEventWorker.advance]
  split
  next => exact .quiet (.inl rfl)
  next row found =>
    simp only [WebhookEventStore.claimForReconciliation]
    split
    next => exact .quiet (.inl rfl)
    next open_ =>
      split
      next => exact .quiet (.inl rfl)
      next idle =>
        split
        next => exact .quiet (.inl rfl)
        next =>
          split
          next => exact .quiet (.inl rfl)
          next =>
            refine .claimed ?_ received_open
            intro old mem
            obtain rfl : row = old := Option.some.inj (found.symm.trans mem)
            exact ⟨open_, idle⟩

theorem ofClosing (input : WebhookEventInput) (s : WebhookEventStore) :
    WebhookEventMove settings s .close input (WebhookEventWorker.close.advance settings eventType objectId input s).1
      (WebhookEventWorker.close.advance settings eventType objectId input s).2 := by
  simp only [WebhookEventWorker.advance]
  split
  next => exact .quiet (.inl rfl)
  next row found =>
    simp only [WebhookEventStore.finalizeExhaustedEvent]
    split
    next => exact .quiet (.inl rfl)
    next open_ =>
      split
      next => exact .quiet (.inl rfl)
      next closable =>
        rw [not_or, not_lt] at closable
        split
        next => exact .quiet (.inl rfl)
        next made => exact .closed found open_ closable.1 closable.2 made rfl

theorem of_advance (w : WebhookEventWorker) (input : WebhookEventInput) (s : WebhookEventStore) :
    WebhookEventMove settings s w input (w.advance settings eventType objectId input s).1
      (w.advance settings eventType objectId input s).2 := by
  cases w with
  | deliver => exact ofDelivery input s
  | claim force => exact ofReconciliation force input s
  | close => exact ofClosing input s
  | done => exact .quiet (.inl rfl)
  | select =>
    simp only [WebhookEventWorker.advance]
    split <;> exact .quiet (.inl rfl)
  | process _ step =>
    cases step with
    | finished => exact .quiet (.inr rfl)
    | _ => exact .applied
  | finalize =>
    simp only [WebhookEventWorker.advance]
    split
    next => exact .quiet (.inl rfl)
    next row found =>
      simp only [WebhookEventStore.finalizeWebhookEvent]
      split
      next => exact .quiet (.inl rfl)
      next own =>
        rw [not_or, not_not] at own
        exact .finalized found own.1 own.2

theorem draws (move : WebhookEventMove settings s w input later w') :
    Draws WebhookEventWorker.token? WebhookEventStore.nextToken s w later w' := by
  cases move with
  | quiet token => exact ⟨le_rfl, token.imp_right .inl⟩
  | applied => exact ⟨le_rfl, .inr (.inl rfl)⟩
  | claimed => exact ⟨Nat.le_succ _, .inr (.inr ⟨rfl, Nat.lt_succ_self _⟩)⟩
  | _ => exact ⟨le_rfl, .inl rfl⟩

theorem absorbs (move : WebhookEventMove settings s w input later w') {row : BillingWebhookEvent} (found : s.event = some row)
    (final : row.decision.final) : ∃ count, later.event = some { row with deliveryCount := count } := by
  have kept : s.event = some { row with deliveryCount := row.deliveryCount } := found
  have same {old : BillingWebhookEvent} (other : s.event = some old) : old = row := Option.some.inj (other.symm.trans found)
  cases move with
  | quiet => exact ⟨_, kept⟩
  | applied => exact ⟨_, kept⟩
  | counted other =>
    cases same other
    exact ⟨_, rfl⟩
  | claimed free => exact absurd final (free row found).1
  | finalized other open_ => exact absurd final (same other ▸ open_)
  | closed other open_ => exact absurd final (same other ▸ open_)

end WebhookEventMove

/-- The closing of an exhausted event marks its invoice, unless the status of that one agrees with the event. -/
def BillingWebhookEvent.Marks (row : BillingWebhookEvent) (before after : BillingStore) : Prop :=
  match row.exhaustedInvoice before with
  | none => after = before
  | some invoice =>
    if invoice.status ∈ BillingService.compatibleStatuses (.ofType row.eventType) then after = before
    else
      after = BillingService.markManualReviewLocked before invoice WebhookEventStore.exhaustedReason
          (YooKassaEvent.ofType row.eventType == .refundSucceeded) ∧
        ∃ marked ∈ after.invoices, marked.pk = invoice.pk ∧ marked.status = .manualReview

theorem exhaustedInvoice_mem {s : BillingStore} {invoiceId : Option ℕ} {paymentId : String} {invoice : Invoice}
    (found : BillingService.exhaustedInvoice s invoiceId paymentId = some invoice) : invoice ∈ s.invoices := by
  unfold BillingService.exhaustedInvoice at found
  cases invoiceId with
  | some => exact List.mem_of_find?_eq_some found
  | none =>
    dsimp only at found
    split at found
    · cases found
    · exact List.mem_of_find?_eq_some found

theorem BillingWebhookEvent.marks_of_made {row : BillingWebhookEvent} {before after : BillingStore} {marked : Bool}
    (made : BillingService.finalizeExhaustedEvent (.ofType row.eventType) row.invoice row.lookupPaymentId before =
      .ok (after, marked)) : row.Marks before after := by
  unfold BillingService.finalizeExhaustedEvent at made
  unfold BillingWebhookEvent.Marks BillingWebhookEvent.exhaustedInvoice
  cases found : BillingService.exhaustedInvoice before row.invoice row.lookupPaymentId with
  | none =>
    rw [found] at made
    exact (congrArg Prod.fst (Except.ok.inj made)).symm
  | some invoice =>
    rw [found] at made
    dsimp only at made ⊢
    by_cases compatible : invoice.status ∈ BillingService.compatibleStatuses (.ofType row.eventType)
    · rw [if_pos compatible] at made ⊢
      exact (congrArg Prod.fst (Except.ok.inj made)).symm
    · rw [if_neg compatible] at made ⊢
      have saved : BillingService.markManualReviewLocked before invoice WebhookEventStore.exhaustedReason
          (YooKassaEvent.ofType row.eventType == .refundSucceeded) = after := congrArg Prod.fst (Except.ok.inj made)
      refine ⟨saved.symm, ?_⟩
      rw [← saved]
      refine ⟨BillingService.reviewedInvoice invoice WebhookEventStore.exhaustedReason
        (YooKassaEvent.ofType row.eventType == .refundSucceeded), ?_, rfl, rfl⟩
      exact List.mem_map.mpr ⟨invoice, exhaustedInvoice_mem found, if_pos rfl⟩

namespace WebhookEventStore

variable {settings : WebhookSettings} {eventType objectId : String} {s : WebhookEventStore} {row : BillingWebhookEvent} {now : Instant}

def Claimed (s : WebhookEventStore) (token : ℕ) : Prop :=
  ∃ row, s.event = some row ∧ row.processingToken = some token ∧ ¬ row.decision.final

theorem claimWebhookEvent_open (found : s.event = some row) (open_ : ¬ row.decision.final) (idle : ¬ row.Busy settings now) :
    (s.claimWebhookEvent settings eventType objectId now).1.Claimed s.nextToken := by
  unfold claimWebhookEvent
  rw [found]
  dsimp only
  rw [if_neg]
  · exact ⟨_, rfl, rfl, received_open⟩
  · rintro (final | busy)
    · exact open_ final
    · exact idle busy

theorem claimForReconciliation_open {force : Bool} (open_ : ¬ row.decision.final) (idle : ¬ row.Busy settings now)
    (due : ¬ row.Waiting now) : s.claimForReconciliation settings row force now =
      if settings.maxAttempts ≤ row.reconciliationAttempts then (s, .exhausted) else (s.reconciled row now, .claimed s.nextToken) := by
  unfold claimForReconciliation
  rw [if_neg open_, if_neg idle, if_neg fun waiting => due waiting.2]

theorem finalizeExhaustedEvent_closes (open_ : ¬ row.decision.final) (idle : ¬ row.Busy settings now)
    (exhausted : settings.maxAttempts ≤ row.reconciliationAttempts) :
    ∃ closed, (s.finalizeExhaustedEvent settings row now).event = some closed ∧ closed.decision = .manualReview ∧
      row.Marks s.billing (s.finalizeExhaustedEvent settings row now).billing := by
  have closable : ¬ (row.reconciliationAttempts < settings.maxAttempts ∨ row.Busy settings now) :=
    fun either => either.elim (Nat.not_lt.mpr exhausted) idle
  unfold finalizeExhaustedEvent
  rw [if_neg open_, if_neg closable]
  cases made : BillingService.finalizeExhaustedEvent (.ofType row.eventType) row.invoice row.lookupPaymentId s.billing with
  | ok => exact ⟨_, rfl, rfl, row.marks_of_made made⟩
  | error =>
    unfold BillingService.finalizeExhaustedEvent at made
    split at made
    · cases made
    · split at made <;> cases made

theorem finalizeExhaustedEvent_together (row : BillingWebhookEvent) : s.finalizeExhaustedEvent settings row now = s ∨
    ((∃ closed, (s.finalizeExhaustedEvent settings row now).event = some closed ∧ closed.decision = .manualReview) ∧
      row.Marks s.billing (s.finalizeExhaustedEvent settings row now).billing) := by
  by_cases final : row.decision.final
  · exact .inl (if_pos final)
  · by_cases open_ : row.reconciliationAttempts < settings.maxAttempts ∨ row.Busy settings now
    · refine .inl ?_
      unfold finalizeExhaustedEvent
      rw [if_neg final, if_pos open_]
    · rw [not_or, not_lt] at open_
      obtain ⟨closed, event, decision, marks⟩ := finalizeExhaustedEvent_closes (s := s) final open_.2 open_.1
      exact .inr ⟨⟨closed, event, decision⟩, marks⟩

end WebhookEventStore

namespace WebhookEventCrew

variable {settings : WebhookSettings} {eventType objectId : String}

abbrev Tokens (c : WebhookEventCrew) : Prop := Crew.Tokens WebhookEventWorker.token? WebhookEventStore.nextToken c

theorem Tokens.next {c : WebhookEventCrew} (tokens : c.Tokens) (a : WebhookEventAction) :
    (c.next settings eventType objectId a).Tokens := by
  refine Crew.Tokens.act tokens a (fun task => ?_) (fun _ => rfl) fun k input w found => ?_
  · cases task <;> rfl
  · exact (WebhookEventMove.of_advance w input c.store).draws

theorem next_move (c : WebhookEventCrew) (a : WebhookEventAction) :
    (c.next settings eventType objectId a).store.event = c.store.event ∨
      ∃ k input w, a = .move k input ∧ c.workers[k]? = some w ∧
        WebhookEventMove settings c.store w input (c.next settings eventType objectId a).store
          (w.advance settings eventType objectId input c.store).2 := by
  rcases c.act_store a with same | ⟨_, acts, stored⟩ | ⟨k, input, w, acts, found, moved⟩
  · exact .inl (congrArg WebhookEventStore.event same)
  · refine .inl ?_
    rw [WebhookEventCrew.next, stored]
  · refine .inr ⟨k, input, w, acts, found, ?_⟩
    rw [WebhookEventCrew.next, moved]
    exact .of_advance w input c.store

def delivering (c : WebhookEventCrew) (claimed : WebhookEventInput) : List WebhookEventAction :=
  [.start .deliver, .move c.workers.length claimed]

/-- A run of the reconciler over the due events that starts now, with one move for each input. -/
def reconciling (c : WebhookEventCrew) (inputs : List WebhookEventInput) : List WebhookEventAction :=
  .start (.reconcile false false) :: inputs.map (CrewAction.move c.workers.length)

structure Protocol (settings : WebhookSettings) (eventType objectId : String) (c : WebhookEventCrew) : Prop where
  /-- A final row never changes again, but for the number of its deliveries. -/
  absorbing : ∀ row, c.store.event = some row → row.decision.final → ∀ a, ∃ count,
    (c.next settings eventType objectId a).store.event = some { row with deliveryCount := count }
  /-- A row becomes final by the worker that holds its claim token, or by the closing of an exhausted row without a lease. -/
  finalizing : ∀ row, c.store.event = some row → ¬ row.decision.final → ∀ a row',
    (c.next settings eventType objectId a).store.event = some row' → row'.decision.final →
      ∃ (k : ℕ) (input : WebhookEventInput) (w : WebhookEventWorker), a = .move k input ∧ c.workers[k]? = some w ∧
        ((w.token?.isSome ∧ w.token? = row.processingToken) ∨
          (w = .close ∧ settings.maxAttempts ≤ row.reconciliationAttempts ∧ ¬ row.Busy settings input.now))
  single : ∀ (j k : ℕ) (v w : WebhookEventWorker), j ≠ k → c.workers[j]? = some v → c.workers[k]? = some w →
    ∀ token ∈ v.token?, w.token? ≠ some token
  /-- The closing changes nothing, or makes the row final and marks its invoice in one transaction. -/
  together : ∀ (k : ℕ) (input : WebhookEventInput) (row : BillingWebhookEvent), c.workers[k]? = some .close →
    c.store.event = some row → (c.next settings eventType objectId (.move k input)).store = c.store ∨
      ((∃ row', (c.next settings eventType objectId (.move k input)).store.event = some row' ∧ row'.decision = .manualReview) ∧
        row.Marks c.store.billing (c.next settings eventType objectId (.move k input)).store.billing)
  /-- From some time on, an open row is claimed by any delivery. -/
  deliverable : ∀ row, c.store.event = some row → ¬ row.decision.final → ∃ earliest, ∀ claimed : WebhookEventInput,
    earliest ≤ claimed.now →
      (run (next settings eventType objectId) c (c.delivering claimed)).store.Claimed c.store.nextToken
  /-- From some time on, the reconciler finds an open row and claims it, or closes it when its attempts are used up. -/
  reconcilable : ∀ row, c.store.event = some row → ¬ row.decision.final → ∃ earliest, ∀ found claimed closed : WebhookEventInput,
    earliest ≤ found.now → earliest ≤ claimed.now → earliest ≤ closed.now → found.selected = true →
      (row.reconciliationAttempts < settings.maxAttempts →
        (run (next settings eventType objectId) c (c.reconciling [found, claimed])).store.Claimed c.store.nextToken) ∧
      (settings.maxAttempts ≤ row.reconciliationAttempts →
        (∃ row', (run (next settings eventType objectId) c (c.reconciling [found, claimed, closed])).store.event = some row' ∧
          row'.decision = .manualReview) ∧
        row.Marks c.store.billing (run (next settings eventType objectId) c (c.reconciling [found, claimed, closed])).store.billing)

theorem delivering_run (c : WebhookEventCrew) (claimed : WebhookEventInput) :
    (run (next settings eventType objectId) c (c.delivering claimed)).store =
      (c.store.claimWebhookEvent settings eventType objectId claimed.now).1 := by
  simp [delivering, WebhookEventCrew.next, Crew.act, CrewAction.enter, Crew.step, WebhookEventTask.worker, WebhookEventWorker.advance]

variable {c : WebhookEventCrew} {row : BillingWebhookEvent}

theorem reconciling_run {found claimed : WebhookEventInput} (event : c.store.event = some row)
    (candidate : row.Candidate settings false false found.now) (selected : found.selected = true) :
    run (next settings eventType objectId) c (c.reconciling [found, claimed]) =
      { store := (c.store.claimForReconciliation settings row false claimed.now).1
        workers := c.workers ++ [WebhookEventWorker.reconciling (.ofType eventType)
          (c.store.claimForReconciliation settings row false claimed.now).2] } := by
  simp [reconciling, WebhookEventCrew.next, Crew.act, CrewAction.enter, Crew.step, WebhookEventTask.worker,
    WebhookEventWorker.advance, event, candidate, selected]

theorem reconciling_close {found claimed closed : WebhookEventInput} (event : c.store.event = some row)
    (candidate : row.Candidate settings false false found.now) (selected : found.selected = true)
    (exhausted : c.store.claimForReconciliation settings row false claimed.now = (c.store, .exhausted)) :
    (run (next settings eventType objectId) c (c.reconciling [found, claimed, closed])).store =
      c.store.finalizeExhaustedEvent settings row closed.now := by
  have claims := @reconciling_run settings eventType objectId c row found claimed event candidate selected
  have split : c.reconciling [found, claimed, closed] = c.reconciling [found, claimed] ++ [.move c.workers.length closed] := rfl
  rw [split, run_append, claims, exhausted]
  simp [WebhookEventCrew.next, Crew.act, CrewAction.enter, Crew.step, WebhookEventWorker.reconciling, WebhookEventWorker.advance, event]

theorem reconcilable (event : c.store.event = some row) (open_ : ¬ row.decision.final) :
    ∃ earliest, ∀ found claimed closed : WebhookEventInput, earliest ≤ found.now → earliest ≤ claimed.now → earliest ≤ closed.now →
      found.selected = true → (row.reconciliationAttempts < settings.maxAttempts →
        (run (next settings eventType objectId) c (c.reconciling [found, claimed])).store.Claimed c.store.nextToken) ∧
      (settings.maxAttempts ≤ row.reconciliationAttempts →
        (∃ row', (run (next settings eventType objectId) c (c.reconciling [found, claimed, closed])).store.event = some row' ∧
          row'.decision = .manualReview) ∧
        row.Marks c.store.billing (run (next settings eventType objectId) c (c.reconciling [found, claimed, closed])).store.billing) := by
  obtain ⟨earliest, settled⟩ := row.settles settings
  refine ⟨earliest, fun found claimed closed early late last selected => ?_⟩
  obtain ⟨stale, due⟩ := settled found.now early
  have candidate : row.Candidate settings false false found.now := BillingWebhookEvent.candidate open_ stale due
  obtain ⟨idle, passed⟩ := settled claimed.now late
  have claim := @WebhookEventStore.claimForReconciliation_open settings c.store row claimed.now false open_ (BillingWebhookEvent.busy_stale idle) passed
  constructor
  · intro left
    rw [if_neg (Nat.not_le.mpr left)] at claim
    rw [reconciling_run event candidate selected, claim]
    exact ⟨_, rfl, rfl, received_open⟩
  · intro exhausted
    rw [if_pos exhausted] at claim
    rw [reconciling_close event candidate selected claim]
    obtain ⟨closed', event', decision, marks⟩ :=
      WebhookEventStore.finalizeExhaustedEvent_closes (s := c.store) open_ (BillingWebhookEvent.busy_stale (settled closed.now last).1) exhausted
    exact ⟨⟨closed', event', decision⟩, marks⟩

theorem Tokens.protocol (tokens : c.Tokens) : c.Protocol settings eventType objectId := by
  refine ⟨?_, ?_, tokens.apart, ?_, ?_, fun row event open_ => reconcilable event open_⟩
  · intro row event final a
    rcases next_move c a with same | ⟨_, _, _, -, -, move⟩
    · exact ⟨row.deliveryCount, same.trans event⟩
    · exact move.absorbs event final
  · intro row event open_ a row' event' final
    have changed : (c.next settings eventType objectId a).store.event ≠ c.store.event := by
      intro same
      obtain rfl : row' = row := Option.some.inj (event'.symm.trans (same.trans event))
      exact open_ final
    rcases next_move c a with same | ⟨k, input, w, acts, found, move⟩
    · exact absurd same changed
    · refine ⟨k, input, w, acts, found, ?_⟩
      generalize (c.next settings eventType objectId a).store = later at *
      generalize (w.advance settings eventType objectId input c.store).2 = w' at move
      have same {old : BillingWebhookEvent} (other : c.store.event = some old) : old = row := Option.some.inj (other.symm.trans event)
      cases move with
      | quiet => exact absurd rfl changed
      | applied => exact absurd rfl changed
      | counted other =>
        cases same other
        cases event'
        exact absurd final open_
      | claimed _ received =>
        cases event'
        exact absurd final received
      | finalized other _ own =>
        cases same other
        exact .inl ⟨rfl, own.symm⟩
      | closed other _ exhausted idle =>
        cases same other
        exact .inr ⟨rfl, exhausted, idle⟩
  · intro k input row found event
    have closing : (c.next settings eventType objectId (.move k input)).store =
        c.store.finalizeExhaustedEvent settings row input.now := by
      simp [WebhookEventCrew.next, Crew.act, CrewAction.enter, Crew.step, found, WebhookEventWorker.advance, event]
    rw [closing]
    exact WebhookEventStore.finalizeExhaustedEvent_together row
  · intro row event open_
    obtain ⟨earliest, settled⟩ := row.settles settings
    refine ⟨earliest, fun claimed late => ?_⟩
    rw [delivering_run]
    exact WebhookEventStore.claimWebhookEvent_open event open_ (BillingWebhookEvent.busy_stale (settled claimed.now late).1)

/-- Every run of deliveries, reconcilers and other transactions keeps to the claim protocol of the event. -/
theorem webhook_event_protocol (settings : WebhookSettings) (eventType objectId : String) (billing : BillingStore)
    (actions : List WebhookEventAction) :
    Protocol settings eventType objectId (run (next settings eventType objectId) (undelivered billing) actions) := by
  have start : (undelivered billing).Tokens :=
    ⟨fun w mem => absurd mem List.not_mem_nil, fun j k v w _ at_j => (by cases at_j)⟩
  have tokens : (run (next settings eventType objectId) (undelivered billing) actions).Tokens :=
    run_always (next settings eventType objectId) (fun _ a tokens => tokens.next a) start actions
  exact tokens.protocol

def singleReconciliation : WebhookSettings where
  processingTimeoutSeconds := 30
  maxAttempts := 1
  baseDelaySeconds := 60
  maxDelaySeconds := 3600
  timeout := le_rfl
  attempts := le_rfl

def at_ (k : ℕ) (now : Instant) : WebhookEventAction :=
  .move k
    { now
      selected := true
      billing :=
        { env := billingEnv, reconciler := singleReconciliation.reconciler now, allowTestPayments := false, validProviderId := true,
          payment := none, refund := none, claim := .claimed, acknowledged := false }
      outcome := ⟨.error, "", none, ""⟩ }

/-- A delivery crashes, a reconciler claims the event and is slow, and another one finds it exhausted. -/
def overtaken : WebhookEventCrew :=
  run (next singleReconciliation "payment.succeeded" "pay-1") (undelivered (billingStore []))
    [.start .deliver, at_ 0 0, .crash 0, .start (.reconcile false false), at_ 0 31000000, at_ 0 31000000,
      .start (.reconcile false false), at_ 1 62000000, at_ 1 62000000]

/-- The event is made final by a worker without a token, while another worker holds the claim token. -/
theorem webhook_event_overtaken :
    overtaken.workers.map WebhookEventWorker.token? = [some 1, none] ∧
      overtaken.store.event.map (fun row => (row.processingToken, decide row.decision.final)) = some (some 1, false) ∧
      (overtaken.next singleReconciliation "payment.succeeded" "pay-1" (at_ 1 62000000)).store.event.map
        (fun row => decide row.decision.final) = some true := by
  decide +kernel

end WebhookEventCrew

end MapBackend.Billing
