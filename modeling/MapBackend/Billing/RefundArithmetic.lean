import MapBackend.Billing.AIWalletLedger
import MapBackend.Billing.PaymentReversals
import MapBackend.Billing.WalletActions

/-!
Refund arithmetic of a paid top-up.
-/

namespace MapBackend.Billing
open MapBackend.Library BillingService AIWalletService

/-- A transaction of the billing service, or an operation on the wallet by another caller. -/
inductive CreditEvent where
  | billing (event : BillingEvent)
  | wallet (action : WalletAction)

def BillingStore.move (s : BillingStore) : CreditEvent → BillingStore
  | .billing event => s.next event
  | .wallet action => { s with credits := s.credits.next action }

def OffReversals (key : String) : Prop :=
  ∀ suffix kind reference, key ++ suffix ≠ reversalPrefix kind ++ reference

theorem OffReversals.self {key : String} (off : OffReversals key) (kind : ReversalKind) (reference : String) :
    key ≠ reversalPrefix kind ++ reference := by
  have apart := off "" kind reference
  rwa [String.append_empty] at apart

theorem OffReversals.of_initial {key : String} {c : Char} (begins : initial key = some c) (other : c ≠ 'r' ∧ c ≠ 'c') :
    OffReversals key := by
  intro suffix kind reference same
  have first := congrArg initial same
  rw [initial_append begins] at first
  cases kind with
  | refund =>
    rw [initial_append (c := 'r') (by decide), Option.some.injEq] at first
    exact other.1 first
  | chargeback =>
    rw [initial_append (c := 'c') (by decide), Option.some.injEq] at first
    exact other.2 first

/-- The operations of the other callers: only the billing service tops up and reverses. -/
def WalletAction.Ordinary : WalletAction → Prop
  | .ensureWallet _ _ => True
  | .reserve env _ _ key => OffReversals (reservationKey env key)
  | .release reservation => OffReversals reservation.key
  | .settle reservation _ => OffReversals reservation.key
  | .grantIncluded _ _ _ _ key => OffReversals key
  | .syncIncludedLimit _ _ => True
  | .topup _ _ _ _ _ => False
  | .reversePurchased _ _ _ _ _ _ => False

def CreditEvent.Ordinary : CreditEvent → Prop
  | .billing _ => True
  | .wallet action => action.Ordinary

structure Quiet (row : AICreditTransaction) : Prop where
  kind : row.kind ≠ .topup
  reversal : ∀ kind reference, row.idempotencyKey ≠ reversalPrefix kind ++ reference

theorem Plain.quiet (row : AICreditTransaction) (plain : Plain row) : Quiet row := ⟨plain.kind, plain.reversal⟩

section Wallet

variable {env : WalletEnv} {tenant : Tenant} {s next : WalletStore}

theorem ensureWallet_quiet {wallet : AIWallet} (step : ensureWallet env tenant s = .ok (next, wallet)) : Grows Quiet s next :=
  (ensureWallet_grows step).mono Plain.quiet

theorem reserve_quiet {amount : ℚ} {key : Option String} {receipt : AIReservation} (off : OffReversals (reservationKey env key))
    (step : reserve env tenant amount key s = .ok (next, receipt)) : Grows Quiet s next := by
  obtain ⟨_, s₁, w₁, s₂, _, ensured, lapsed, _, _, _, _, _, _, appended⟩ := reserve_ok step
  have begins : initial (includedExpireKey env w₁) = some 'i' :=
    initial_append (initial_append (initial_append (by decide) _) _) _
  have expired : Grows Quiet s₁ s₂ := by
    rcases expireIncludedIfNeeded_ok lapsed with ⟨_, rfl, _⟩ | ⟨_, _, _, _, _, row⟩
    · exact .of_same rfl
    · exact .of_row row ⟨by simp, (OffReversals.of_initial begins (by decide)).self⟩
  exact (ensureWallet_quiet ensured).trans (expired.trans (.of_row appended ⟨by simp, off.self⟩))

theorem release_quiet {reservation : AIReservation} (off : OffReversals reservation.key)
    (step : release reservation s = .ok (next, ())) : Grows Quiet s next := by
  cases limited : reservation.unlimited with
  | true =>
    rw [release, if_pos limited] at step
    cases step
    exact .of_same rfl
  | false =>
    obtain ⟨w, _, _, _, _, ⟨_, same⟩ | ⟨_, _, _, appended⟩⟩ := release_ok limited step
    · exact .of_same same
    · exact .of_row appended ⟨by simp, off _⟩

theorem createCharge_quiet {balanceType : BalanceType} {charged : ℚ} {key reference : String}
    (off : ∀ kind reference, key ≠ reversalPrefix kind ++ reference)
    (step : createCharge s balanceType charged key reference = .ok next) : Grows Quiet s next := by
  rcases (createCharge_ok step).2 with ⟨_, same⟩ | ⟨_, _, _, appended⟩
  · exact .of_same same
  · exact .of_row appended ⟨by simp, off⟩

theorem settle_quiet {reservation : AIReservation} {actualAmount charged : ℚ} (off : OffReversals reservation.key)
    (step : settle reservation actualAmount s = .ok (next, charged)) : Grows Quiet s next := by
  by_cases done : reservation.unlimited = true ∨ hasKey s (settledKey reservation)
  · exact .of_same (by rw [(settle_same done step).1])
  · rw [not_or, Bool.not_eq_true] at done
    obtain ⟨w, _, _, _, _, _, s₀, s₁, s₂, _, _, _, saved, first, second, _, _, _, appended⟩ :=
      settle_first done.1 done.2 step
    have started : Grows Quiet s s₀ := .of_same (by rw [saved]; rfl)
    exact started.trans ((createCharge_quiet (off _) first).trans
      ((createCharge_quiet (off _) second).trans (.of_row appended ⟨by simp, off _⟩)))

theorem grantIncluded_quiet {amount : Option ℚ} {periodEnd : Option CivilDate} {key : String} (off : OffReversals key)
    (step : grantIncluded env tenant amount periodEnd key s = .ok (next, ())) : Grows Quiet s next := by
  obtain ⟨s₁, _, ensured, ⟨_, rfl⟩ | ⟨_, s₂, replaced, _, _, _, appended⟩⟩ := grantIncluded_ok step
  · exact ensureWallet_quiet ensured
  · have lapsed : Grows Quiet s₁ s₂ := by
      rcases (expireReplaced_ok replaced).2 with ⟨_, same⟩ | ⟨_, _, row⟩
      · exact .of_same same
      · exact .of_row row ⟨by simp, off _⟩
    exact (ensureWallet_quiet ensured).trans (lapsed.trans (.of_row appended ⟨by simp, off.self⟩))

theorem syncIncludedLimit_quiet (step : syncIncludedLimit env tenant s = .ok (next, ())) : Grows Quiet s next := by
  obtain ⟨_, _, ensured, _, _, _, _, _, ⟨_, same⟩ | ⟨_, _, appended⟩⟩ := syncIncludedLimit_ok step
  · exact (ensureWallet_quiet ensured).trans (.of_same same)
  · have begins : initial ("limit-sync:" ++ toString tenant.pk ++ ":" ++ env.uuid) = some 'l' :=
      initial_append (initial_append (initial_append (by decide) _) _) _
    exact (ensureWallet_quiet ensured).trans
      (.of_row appended ⟨by simp, (OffReversals.of_initial begins (by decide)).self⟩)

theorem WalletStore.next_quiet (s : WalletStore) (a : WalletAction) (ordinary : a.Ordinary) : Grows Quiet s (s.next a) := by
  cases a with
  | ensureWallet => exact commit_relates (Grows Quiet) s _ (.of_same rfl) fun _ _ step => ensureWallet_quiet step
  | reserve => exact commit_relates (Grows Quiet) s _ (.of_same rfl) fun _ _ step => reserve_quiet ordinary step
  | release => exact commit_relates (Grows Quiet) s _ (.of_same rfl) fun _ _ step => release_quiet ordinary step
  | settle => exact commit_relates (Grows Quiet) s _ (.of_same rfl) fun _ _ step => settle_quiet ordinary step
  | grantIncluded => exact commit_relates (Grows Quiet) s _ (.of_same rfl) fun _ _ step => grantIncluded_quiet ordinary step
  | syncIncludedLimit => exact commit_relates (Grows Quiet) s _ (.of_same rfl) fun _ _ step => syncIncludedLimit_quiet step
  | topup => exact ordinary.elim
  | reversePurchased => exact ordinary.elim

end Wallet

section Amounts

variable {i : Invoice} {credits a b : ℚ}

theorem parseAmount_whole {raw : Option ℚ} {amount : ℚ} (parsed : parseAmount raw = some amount) : Numeric.Whole 2 amount := by
  unfold parseAmount at parsed
  split at parsed
  · cases parsed
  · split at parsed
    next guards =>
      cases parsed
      refine ⟨⌊amount * 100⌋, ?_⟩
      rw [guards.2.2]
      norm_num
    · cases parsed

theorem creditTarget_whole (whole : Numeric.Whole 4 credits) (refunded : ℚ) : Numeric.Whole 4 (creditTarget i credits refunded) := by
  unfold creditTarget
  split
  · exact whole
  · exact ⟨⌊credits * refunded / i.amount.value * 10 ^ 4⌋, by rw [roundDown, div_mul_cancel₀ _ (by positivity)]⟩

theorem roundDown_mono (le : a ≤ b) : roundDown a ≤ roundDown b := by
  have floors : ⌊a * 10 ^ 4⌋ ≤ ⌊b * 10 ^ 4⌋ := Int.floor_le_floor (mul_le_mul_of_nonneg_right le (by positivity))
  exact div_le_div_of_nonneg_right (by exact_mod_cast floors) (by positivity)

theorem creditTarget_mono (nonneg : 0 ≤ credits) (le : a ≤ b) (within : b ≤ i.amount.value) (worth : 0 < i.amount.value) :
    creditTarget i credits a ≤ creditTarget i credits b := by
  by_cases all : b = i.amount.value
  · calc creditTarget i credits a
        ≤ credits := creditTarget_le nonneg (le.trans within) worth
      _ = creditTarget i credits b := by rw [creditTarget, if_pos all]
  · have less : a ≠ i.amount.value := fun same => all (le_antisymm within (same ▸ le))
    rw [creditTarget, if_neg less, creditTarget, if_neg all]
    exact roundDown_mono (div_le_div_of_nonneg_right (mul_le_mul_of_nonneg_left le nonneg) worth.le)

theorem creditTarget_zero (worth : 0 < i.amount.value) : creditTarget i credits 0 = 0 := by
  rw [creditTarget, if_neg worth.ne, mul_zero, zero_div, roundDown, zero_mul, Int.floor_zero, Int.cast_zero, zero_div]

theorem creditTarget_same {old : Invoice} (same : SameInvoice old i) : creditTarget i credits = creditTarget old credits := by
  funext refunded
  rw [creditTarget, creditTarget, same.amount]

end Amounts

namespace PaymentReversal

/-- The reversal took effect: it was applied, or is under review for the credits it could not take. -/
def accepted (r : PaymentReversal) : Bool := r.status == .applied || r.creditShortfall != 0

structure Refused (r : PaymentReversal) : Prop where
  accepted : r.accepted = false
  requested : r.creditsRequested = 0
  reversed : r.creditsReversed = 0
  shortfall : r.creditShortfall = 0

structure Balanced (r : PaymentReversal) : Prop where
  requested : 0 ≤ r.creditsRequested.value
  split : r.creditsReversed.value + r.creditShortfall.value = r.creditsRequested.value

theorem Refused.balanced {r : PaymentReversal} (refused : r.Refused) : r.Balanced :=
  ⟨by rw [refused.requested, Numeric.value_zero],
    by rw [refused.reversed, refused.shortfall, refused.requested, Numeric.value_zero, add_zero]⟩

end PaymentReversal

def reversalsOf (s : BillingStore) (i : Invoice) : List PaymentReversal := s.reversals.filter fun r => r.invoice = i.pk

def acceptedAmounts (s : BillingStore) (i : Invoice) : List ℚ :=
  ((reversalsOf s i).filter PaymentReversal.accepted).map fun r => r.amount.value

def creditsRequested (s : BillingStore) (i : Invoice) : ℚ := ((reversalsOf s i).map fun r => r.creditsRequested.value).sum

section Rows

variable {s next : BillingStore} {old i : Invoice}

theorem previousRequested_eq (s : BillingStore) (i : Invoice) : previousRequested s i = creditsRequested s i := by
  rw [creditsRequested, sum_values, previousRequested, requestedUnits, reversalsOf]

theorem reversalsOf_append {more : List PaymentReversal} (reversals : next.reversals = s.reversals ++ more) (same : i.pk = old.pk) :
    reversalsOf next i = reversalsOf s old ++ more.filter fun r => r.invoice = old.pk := by
  rw [reversalsOf, reversals, List.filter_append, same, reversalsOf]

theorem reversalsOf_one {r : PaymentReversal} (reversals : next.reversals = s.reversals ++ [r]) (same : i.pk = old.pk)
    (mine : r.invoice = old.pk) : reversalsOf next i = reversalsOf s old ++ [r] := by
  rw [reversalsOf_append reversals same, List.filter_cons_of_pos (by simpa using mine), List.filter_nil]

theorem refused_sums {more : List PaymentReversal} (reversals : next.reversals = s.reversals ++ more) (same : i.pk = old.pk)
    (refused : ∀ r ∈ more, r.invoice = old.pk → r.Refused) :
    acceptedAmounts next i = acceptedAmounts s old ∧ creditsRequested next i = creditsRequested s old := by
  have mine (r : PaymentReversal) (mem : r ∈ more.filter fun r => r.invoice = old.pk) : r.Refused := by
    obtain ⟨added, own⟩ := List.mem_filter.mp mem
    exact refused r added (of_decide_eq_true own)
  have rows := reversalsOf_append reversals same
  constructor
  · have none' : (more.filter fun r => r.invoice = old.pk).filter PaymentReversal.accepted = [] :=
      List.filter_eq_nil_iff.mpr fun r mem => by rw [(mine r mem).accepted]; exact Bool.false_ne_true
    rw [acceptedAmounts, rows, List.filter_append, none', List.append_nil, acceptedAmounts]
  · rw [creditsRequested, rows, List.map_append, List.sum_append, creditsRequested, add_eq_left]
    refine List.sum_eq_zero fun value mem => ?_
    obtain ⟨r, own, rfl⟩ := List.mem_map.mp mem
    rw [(mine r own).requested, Numeric.value_zero]

theorem accepted_sums {r : PaymentReversal} (reversals : next.reversals = s.reversals ++ [r]) (same : i.pk = old.pk)
    (mine : r.invoice = old.pk) (accepted : r.accepted = true) :
    acceptedAmounts next i = acceptedAmounts s old ++ [r.amount.value] ∧
      creditsRequested next i = creditsRequested s old + r.creditsRequested.value := by
  have rows := reversalsOf_one reversals same mine
  constructor
  · rw [acceptedAmounts, rows, List.filter_append, List.map_append, List.filter_cons_of_pos accepted, acceptedAmounts]
    rfl
  · rw [creditsRequested, rows, List.map_append, List.sum_append, creditsRequested, List.map_singleton, List.sum_singleton]

end Rows

section Invariant

structure Refunding (s : BillingStore) (start : Invoice) (credits : ℚ) (i : Invoice) : Prop where
  found : i ∈ s.invoices
  same : SameInvoice start i
  topup : i.purchaseType = .aiTopup
  paid : i.paidAt.isSome = true
  active : i.status ≠ .pending
  entitled : ∃ snapshot, aiEntitlementFromInvoice s i = some (credits, snapshot)
  refunded : i.refundedAmount.value = (acceptedAmounts s i).sum
  nonneg : 0 ≤ i.refundedAmount.value
  within : i.refundedAmount.value ≤ i.amount.value
  requested : creditsRequested s i = creditTarget i credits i.refundedAmount.value
  rows : ∀ r ∈ s.reversals, r.invoice = i.pk → r.Balanced

/-- The unique keys of the invoices, and reversal keys in the journal only for stored reversals. -/
structure BillingStore.Booked (s : BillingStore) : Prop where
  keys : (s.invoices.map Invoice.pk).Nodup
  payments : ∀ i ∈ s.invoices, ∀ j ∈ s.invoices,
    i.yookassaPaymentId = j.yookassaPaymentId → i.yookassaPaymentId ≠ "" → i.pk = j.pk
  linked : Linked s

structure BillingStore.Refunds (s : BillingStore) (start : Invoice) (credits : ℚ) : Prop extends s.Booked where
  invoice : ∃ i, Refunding s start credits i

def ForeignTopup (i : Invoice) (row : AICreditTransaction) : Prop :=
  row.kind = .topup → row.idempotencyKey ≠ topupKey i.yookassaPaymentId ∧ row.reference ≠ i.yookassaPaymentId

/-- The invoice was spared: nothing was refunded, asked for or topped up for it. -/
structure Unrefunded (s next : BillingStore) (i new : Invoice) : Prop where
  found : new ∈ next.invoices
  same : SameInvoice i new
  paidAt : new.paidAt = i.paidAt
  active : new.status ≠ .pending
  refunded : new.refundedAmount = i.refundedAmount
  snapshot : new.entitlementSnapshot = i.entitlementSnapshot
  reversals : ∃ more, next.reversals = s.reversals ++ more ∧ ∀ r ∈ more, r.invoice = i.pk → r.Refused
  journal : Grows (ForeignTopup i) s.credits next.credits

variable {s next : BillingStore} {start i new : Invoice} {credits : ℚ}

theorem topupRows_grow (same : SameInvoice i new) (grows : Grows (ForeignTopup i) s.credits next.credits) :
    topupRows next new = topupRows s i := by
  obtain ⟨rows, appended, foreign⟩ := grows
  rw [topupRows, topupRows, appended, same.paymentId, List.filter_append]
  have none' : (rows.filter fun row => row.kind = .topup ∧
      (row.idempotencyKey = topupKey i.yookassaPaymentId ∨ row.reference = i.yookassaPaymentId)) = [] := by
    refine List.filter_eq_nil_iff.mpr fun row mem own => ?_
    obtain ⟨kind, named⟩ := of_decide_eq_true own
    obtain ⟨key, reference⟩ := foreign row mem kind
    exact named.elim key reference
  rw [none', List.append_nil]

theorem aiEntitlementFromInvoice_grow (same : SameInvoice i new) (snapshot : new.entitlementSnapshot = i.entitlementSnapshot)
    (grows : Grows (ForeignTopup i) s.credits next.credits) : aiEntitlementFromInvoice next new = aiEntitlementFromInvoice s i := by
  have backfilled (amount : ℚ) : backfilledTopup new amount = backfilledTopup i amount := by
    rw [backfilledTopup, backfilledTopup, same.amount, same.currency]
  unfold aiEntitlementFromInvoice
  rw [snapshot, topupRows_grow same grows]
  simp only [snapshotCredits_same same, backfilled]

theorem Refunding.spare (h : Refunding s start credits i) (spared : Unrefunded s next i new) : Refunding next start credits new := by
  obtain ⟨_, reversals, refused⟩ := spared.reversals
  have same := spared.same
  obtain ⟨amounts, requested⟩ := refused_sums (i := new) reversals same.pk refused
  refine ⟨spared.found, ?_, same.purchaseType.trans h.topup, by rw [spared.paidAt]; exact h.paid, spared.active, ?_,
    by rw [spared.refunded, amounts]; exact h.refunded, by rw [spared.refunded]; exact h.nonneg,
    by rw [spared.refunded, same.amount]; exact h.within,
    by rw [requested, creditTarget_same same, spared.refunded]; exact h.requested, ?_⟩
  · exact ⟨same.pk.trans h.same.pk, same.amount.trans h.same.amount, same.currency.trans h.same.currency,
      same.purchaseType.trans h.same.purchaseType, same.paymentId.trans h.same.paymentId⟩
  · rw [aiEntitlementFromInvoice_grow same spared.snapshot spared.journal]
    exact h.entitled
  · intro r mem mine
    rw [same.pk] at mine
    rw [reversals] at mem
    rcases List.mem_append.mp mem with earlier | added
    · exact h.rows r earlier mine
    · exact (refused r added mine).balanced

theorem BillingStore.Refunds.move (h : s.Refunds start credits) (keys : next.invoices.map Invoice.pk = s.invoices.map Invoice.pk)
    (origin : ∀ row ∈ next.invoices, ∃ before ∈ s.invoices, before.pk = row.pk ∧ before.yookassaPaymentId = row.yookassaPaymentId)
    (linked : Linked next) (invoice : ∃ i, Refunding next start credits i) : next.Refunds start credits where
  keys := by
    rw [keys]
    exact h.keys
  payments := by
    intro a a_mem b b_mem payment given
    obtain ⟨a', a_before, a_pk, a_id⟩ := origin a a_mem
    obtain ⟨b', b_before, b_pk, b_id⟩ := origin b b_mem
    rw [← a_pk, ← b_pk]
    exact h.payments a' a_before b' b_before (by rw [a_id, b_id, payment]) (by rwa [a_id])
  linked := linked
  invoice := invoice

theorem BillingStore.Refunds.rewrite {old : Invoice} (h : s.Refunds start credits) (found : old ∈ s.invoices) (same : SameInvoice old new)
    (invoices : next.invoices = (saveInvoice s new).invoices) (linked : Linked next) (invoice : ∃ i, Refunding next start credits i) :
    next.Refunds start credits :=
  h.move (saved_pks invoices) (fun _ mem => saved_origin found same invoices mem) linked invoice

end Invariant

section Steps

variable {env : BillingEnv} {s next : BillingStore} {start i old new : Invoice} {notice : ReversalNotice} {amount credits : ℚ}
  {snapshot : EntitlementSnapshot} {refunded : Rubles} {reversal : PaymentReversal} {result : Option PaymentReversal}

theorem keepForReview_refused {currency reason : String}
    (step : keepForReview s old notice amount currency reason = .ok (next, result)) :
    ∃ r, r.invoice = old.pk ∧ r.providerReference = notice.providerReference ∧ r.Refused ∧
      next = addReversal s r (quarantined old) := by
  simp only [keepForReview, newReversal, bind_ok, orRaise_ok] at step
  obtain ⟨r, ⟨_, _, row⟩, made⟩ := step
  cases made
  cases row
  exact ⟨_, rfl, rfl, ⟨rfl, rfl, rfl, rfl⟩, rfl⟩

theorem newReversal_stored {currency reason : String} (step : newReversal old notice amount currency reason = .ok reversal) :
    Numeric.store 10 2 amount = some reversal.amount := by
  simp only [newReversal, bind_ok, orRaise_ok] at step
  obtain ⟨_, fits, made⟩ := step
  cases made
  exact fits

theorem reverseTopup_grows (linked : Linked s) (unused : findReversal s notice.providerReference = none)
    (took : reverseTopup env old notice refunded reversal credits snapshot s = .ok (next, result)) :
    Grows (fun row => row.kind ≠ .topup) s.credits next.credits := by
  obtain ⟨_, _, _, performed, _, _, _, _, r, _, _, _, _, _, _, _, _, _, _, _, _, _, made⟩ := reverseTopup_ok took
  obtain ⟨s₁, w, row, ensured, _, appended, kind, _⟩ := reversePurchased_grows (linked.unused_key unused notice.kind) performed
  have quiet : Grows (fun row => row.kind ≠ .topup) s.credits s₁ := (ensureWallet_grows ensured).mono fun _ plain => plain.kind
  rw [made]
  exact quiet.trans (.of_row appended kind)

structure TopupAccepted (s next : BillingStore) (old new : Invoice) (reversal r : PaymentReversal) (requested : ℚ) (refunded : Rubles)
    (snapshot : EntitlementSnapshot) : Prop where
  invoices : next.invoices = (saveInvoice s new).invoices
  same : SameInvoice old new
  paidAt : new.paidAt = old.paidAt
  active : new.status ≠ .pending
  refunded : new.refundedAmount = refunded
  snapshot : new.entitlementSnapshot = some snapshot
  reversals : next.reversals = s.reversals ++ [r]
  mine : r.invoice = reversal.invoice
  amount : r.amount = reversal.amount
  accepted : r.accepted = true
  asked : r.creditsRequested.value = requested
  split : r.creditsReversed.value + r.creditShortfall.value = requested
  linked : Linked next
  journal : Grows (fun row => row.kind ≠ .topup) s.credits next.credits

theorem reverseTopup_accepted (linked : Linked s) (noticed : NewNotice env s old notice amount) (bare : BareReversal reversal old notice)
    (whole : Numeric.Whole 4 (creditTarget old credits refunded.value - previousRequested s old))
    (took : reverseTopup env old notice refunded reversal credits snapshot s = .ok (next, result)) :
    ∃ new r, TopupAccepted s next old new reversal r
      (max 0 (creditTarget old credits refunded.value - previousRequested s old)) refunded snapshot := by
  obtain ⟨_, _, _, taken, _⟩ := reverseTopup_reversed linked noticed.unused bare rfl took
  obtain ⟨store, reversed, shortfall, performed, asked, reversedRow, askedFits, reversedFits, r, new, mine, _, _, requestedRow,
    takenRow, same, paidAt, active, refundedNow, frozen, _, ⟨amount, shortFits, outcome⟩, made⟩ := reverseTopup_ok took
  generalize requests : max 0 (creditTarget old credits refunded.value - previousRequested s old) = requested at *
  have requested_whole : Numeric.Whole 4 requested := requests ▸ .max .zero whole
  have nonneg : 0 ≤ requested := requests ▸ le_max_left _ _
  obtain ⟨_, w, _, _, parts, _⟩ :=
    reversePurchased_grows (linked.unused_key noticed.unused notice.kind) performed
  rw [max_eq_right nonneg, Prod.mk.injEq] at parts
  obtain ⟨reversed_eq, short_eq⟩ := parts
  have reversed_whole : Numeric.Whole 4 reversed := by
    rw [reversed_eq, reversedAmount, max_eq_right nonneg]
    exact requested_whole.min (reversible_whole w)
  have short_whole : Numeric.Whole 4 shortfall := by
    rw [short_eq, ← reversed_eq]
    exact requested_whole.sub reversed_whole
  have shortValue : r.creditShortfall.value = shortfall := short_whole.stored shortFits
  refine ⟨new, r, by rw [made]; rfl, same, paidAt, active, refundedNow, frozen, by rw [made]; rfl, mine, amount, ?_, ?_, ?_,
    taken.linked, ?_⟩
  · rw [PaymentReversal.accepted, Bool.or_eq_true, beq_iff_eq, bne_iff_ne]
    refine outcome.imp_right fun short none' => short ?_
    rw [← shortValue, none', Numeric.value_zero]
  · rw [requestedRow]
    exact requested_whole.stored askedFits
  · rw [takenRow, reversed_whole.stored reversedFits, shortValue, short_eq, ← reversed_eq, add_sub_cancel]
  · exact reverseTopup_grows linked noticed.unused took

theorem acceptReversal_entitled {currency : String} (topup : old.purchaseType = .aiTopup)
    (entitled : aiEntitlementFromInvoice s old = some (credits, snapshot))
    (step : acceptReversal env old notice amount currency s = .ok (next, result)) :
    ∃ refunded reversal, Numeric.store 10 2 (old.refundedAmount.value + amount) = some refunded ∧
      newReversal old notice amount currency "" = .ok reversal ∧
      reverseTopup env old notice refunded reversal credits snapshot s = .ok (next, result) := by
  simp only [acceptReversal, bind_ok, orRaise_ok, topup, entitled] at step
  obtain ⟨refunded, fits, reversal, created, took⟩ := step
  exact ⟨refunded, reversal, fits, created, took⟩

theorem Refunding.accept {currency : String} (h : Refunding s start credits i) (linked : Linked s) (whole : Numeric.Whole 4 credits)
    (noticed : NewNotice env s i notice amount) (accepts : Accepts env i notice amount)
    (step : acceptReversal env i notice amount currency s = .ok (next, result)) :
    ∃ new, SameInvoice i new ∧ next.invoices = (saveInvoice s new).invoices ∧ Linked next ∧ Refunding next start credits new := by
  obtain ⟨snapshot, entitled⟩ := h.entitled
  obtain ⟨refunded, _, fits, created, took⟩ := acceptReversal_entitled h.topup entitled step
  have bare := newReversal_ok created
  have positive := parseAmount_pos noticed.amount
  have kopecks := parseAmount_whole noticed.amount
  have total : refunded.value = i.refundedAmount.value + amount := by
    refine Numeric.Whole.stored ?_ fits
    obtain ⟨a, first⟩ := Numeric.Whole.value i.refundedAmount
    obtain ⟨b, second⟩ := kopecks
    exact ⟨a + b, by rw [add_mul, first, second]; push_cast; rfl⟩
  have within : refunded.value ≤ i.amount.value := by
    have remaining := accepts.remaining
    linarith
  have worth : 0 < i.amount.value := by linarith [h.nonneg]
  have granted := (snapshotCredits_pos (aiEntitlementFromInvoice_some entitled).1).le
  have previous : previousRequested s i = creditTarget i credits i.refundedAmount.value :=
    (previousRequested_eq s i).trans h.requested
  have grows : creditTarget i credits i.refundedAmount.value ≤ creditTarget i credits refunded.value :=
    creditTarget_mono granted (by linarith) within worth
  obtain ⟨new, r, accepted⟩ := reverseTopup_accepted linked noticed bare
    ((creditTarget_whole whole _).sub (previous ▸ creditTarget_whole whole _)) took
  rw [previous, max_eq_right (sub_nonneg.mpr grows)] at accepted
  have same := accepted.same
  obtain ⟨amounts, requested⟩ := accepted_sums accepted.reversals same.pk (accepted.mine.trans bare.invoice) accepted.accepted
  have paid : r.amount.value = amount := by
    rw [accepted.amount]
    exact kopecks.stored (newReversal_stored created)
  refine ⟨new, same, accepted.invoices, accepted.linked, saved_mem_new h.found same.pk accepted.invoices, ?_,
    same.purchaseType.trans h.topup, by rw [accepted.paidAt]; exact h.paid, accepted.active, ⟨snapshot, ?_⟩, ?_, ?_, ?_, ?_, ?_⟩
  · exact ⟨same.pk.trans h.same.pk, same.amount.trans h.same.amount, same.currency.trans h.same.currency,
      same.purchaseType.trans h.same.purchaseType, same.paymentId.trans h.same.paymentId⟩
  · rw [aiEntitlementFromInvoice, accepted.snapshot]
    simp only [snapshotCredits_same same, (aiEntitlementFromInvoice_some entitled).1, Option.map_some]
  · rw [accepted.refunded, total, amounts, List.sum_append, List.sum_singleton, paid, h.refunded]
  · rw [accepted.refunded, total]
    exact add_nonneg h.nonneg positive.le
  · rw [accepted.refunded, same.amount]
    exact within
  · rw [requested, accepted.asked, h.requested, accepted.refunded, creditTarget_same same, add_sub_cancel]
  · intro r' mem mine
    rw [same.pk] at mine
    rw [accepted.reversals, List.mem_append, List.mem_singleton] at mem
    rcases mem with earlier | rfl
    · exact h.rows r' earlier mine
    · exact ⟨by rw [accepted.asked]; exact sub_nonneg.mpr grows, by rw [accepted.split, accepted.asked]⟩

theorem Refunding.settled (h : Refunding s start credits i) : awaitsOutcome i = false := by
  obtain ⟨_, paid⟩ := Option.isSome_iff_exists.mp h.paid
  simp [awaitsOutcome, isUnsettledCheckoutManual, blocksSubscriptionCheckout, paid, h.active]

theorem Refunding.spared {r : PaymentReversal} (h : Refunding s start credits i) (present : new ∈ next.invoices) (same : SameInvoice i new)
    (paidAt : new.paidAt = i.paidAt) (active : new.status ≠ .pending) (refunded : new.refundedAmount = i.refundedAmount)
    (snapshot : new.entitlementSnapshot = i.entitlementSnapshot) (reversals : next.reversals = s.reversals ++ [r])
    (refused : r.invoice = i.pk → r.Refused) (journal : Grows (ForeignTopup i) s.credits next.credits) :
    Refunding next start credits new :=
  h.spare ⟨present, same, paidAt, active, refunded, snapshot,
    ⟨[r], reversals, fun _ only => by rw [List.mem_singleton.mp only]; exact refused⟩, journal⟩

theorem BillingStore.Refunds.reverse (h : s.Refunds start credits) (whole : Numeric.Whole 4 credits) (own : Refunding s start credits i) :
    (s.next (.reversal env i.pk notice)).Refunds start credits := by
  simp only [BillingStore.next]
  cases step : handleReversalSuccess env i.pk notice s with
  | error => exact h
  | ok pair =>
    show pair.1.Refunds start credits
    rcases handleReversalSuccess_steps step with same | ⟨old, _, found, noticed, outcome⟩
    · rwa [same]
    obtain ⟨member, pk⟩ := getInvoice_some found
    obtain rfl : old = i := List.inj_on_of_nodup_map h.keys member own.found pk
    rcases outcome with ⟨_, kept⟩ | ⟨accepts, accepted⟩
    · obtain ⟨r, _, reference, refused, made⟩ := keepForReview_refused kept
      have same : SameInvoice old (quarantined old) := ⟨rfl, rfl, rfl, rfl, rfl⟩
      have reversals : pair.1.reversals = s.reversals ++ [r] := by rw [made, addReversal]
      have credits' : pair.1.credits.transactions = s.credits.transactions := by rw [made, addReversal, saveInvoice]
      have invoices : pair.1.invoices = (saveInvoice s (quarantined old)).invoices := by rw [made, addReversal]
      have unused : findReversal s r.providerReference = none := by
        rw [reference]
        exact noticed.unused
      refine h.rewrite member same invoices (h.linked.grow [r] reversals (by simpa using unused) (.of_same credits')) ⟨quarantined old, ?_⟩
      exact own.spared (saved_mem_new member same.pk invoices) same rfl (by simp [quarantined]) rfl rfl reversals (fun _ => refused)
        (.of_same credits')
    · obtain ⟨new, same, invoices, linked, refunding⟩ := own.accept h.linked whole noticed accepts accepted
      exact h.rewrite member same invoices linked ⟨new, refunding⟩

theorem BillingStore.next_refunds (s : BillingStore) (e : BillingEvent) (whole : Numeric.Whole 4 credits) (h : s.Refunds start credits) :
    (s.next e).Refunds start credits := by
  obtain ⟨i, own⟩ := h.invoice
  have self {a : Invoice} (found : a ∈ s.invoices) (same : a.pk = i.pk) : a = i :=
    List.inj_on_of_nodup_map h.keys found own.found same
  have idle : SameInvoice i i := ⟨rfl, rfl, rfl, rfl, rfl⟩
  generalize performed : s.next e = next
  have effect : Effect s e next := performed ▸ next_effect s e
  cases effect with
  | unchanged same => rwa [same]
  | foreign reversal unused elsewhere made =>
    have reversals : next.reversals = s.reversals ++ [reversal] := by rw [made]
    have journal : next.credits.transactions = s.credits.transactions := by rw [made]
    have invoices : next.invoices = s.invoices := by rw [made]
    refine h.move (by rw [invoices]) (fun row mem => ⟨row, invoices ▸ mem, rfl, rfl⟩)
      (h.linked.grow [reversal] reversals (by simpa using unused) (.of_same journal)) ⟨i, ?_⟩
    exact own.spared (invoices ▸ own.found) idle rfl own.active rfl rfl reversals
      (fun mine => absurd mine.symm (elsewhere i own.found)) (.of_same journal)
  | saved old new found reworded made =>
    have reversals : next.reversals = s.reversals ++ [] := by rw [made, saveInvoice, List.append_nil]
    have journal : next.credits.transactions = s.credits.transactions := by rw [made, saveInvoice]
    have invoices : next.invoices = (saveInvoice s new).invoices := by rw [made]
    refine h.rewrite found reworded.toSameInvoice invoices (h.linked.grow [] reversals (by simp) (.of_same journal)) ?_
    by_cases mine : old.pk = i.pk
    · obtain rfl := self found mine
      exact ⟨new, own.spare ⟨saved_mem_new found reworded.pk invoices, reworded.toSameInvoice, reworded.paidAt,
        fun pending => own.active (reworded.status pending), reworded.refundedAmount, reworded.entitlementSnapshot,
        ⟨[], reversals, by simp⟩, .of_same journal⟩⟩
    · have apart : i.pk ≠ new.pk := fun same => mine (reworded.pk.symm.trans same.symm)
      exact ⟨i, own.spare ⟨saved_mem_other own.found apart invoices, idle, rfl, own.active, rfl, rfl, ⟨[], reversals, by simp⟩,
        .of_same journal⟩⟩
  | kept _ old _ _ reversal refunded found noticed bare _ made event =>
    by_cases mine : old.pk = i.pk
    · rw [← performed, event, mine]
      exact h.reverse whole own
    · have reversals : next.reversals = s.reversals ++ [reversal] := by rw [made, addReversal]
      have journal : next.credits.transactions = s.credits.transactions := by rw [made, addReversal, saveInvoice]
      have same : SameInvoice old (quarantined { old with refundedAmount := refunded }) := ⟨rfl, rfl, rfl, rfl, rfl⟩
      have invoices : next.invoices = (saveInvoice s (quarantined { old with refundedAmount := refunded })).invoices := by
        rw [made, addReversal]
      have unused : findReversal s reversal.providerReference = none := by
        rw [bare.reference]
        exact noticed.unused
      refine h.rewrite found same invoices (h.linked.grow [reversal] reversals (by simpa using unused) (.of_same journal)) ⟨i, ?_⟩
      have apart : i.pk ≠ (quarantined { old with refundedAmount := refunded }).pk := fun clash => mine clash.symm
      exact own.spared (saved_mem_other own.found apart invoices) idle rfl own.active rfl rfl reversals
        (fun theirs => absurd (bare.invoice.symm.trans theirs) mine) (.of_same journal)
  | taken _ old _ _ _ _ _ _ _ event found noticed _ topup _ _ bare took =>
    by_cases mine : old.pk = i.pk
    · rw [← performed, event, mine]
      exact h.reverse whole own
    · obtain ⟨new, r, _, took', _⟩ := reverseTopup_reversed h.linked noticed.unused bare rfl took
      have apart : i.pk ≠ new.pk := fun same => mine (took'.same.pk.symm.trans same.symm)
      refine h.rewrite (getInvoice_some found).1 took'.same took'.invoices took'.linked ⟨i, ?_⟩
      refine own.spared (saved_mem_other own.found apart took'.invoices) idle rfl own.active rfl rfl took'.reversals
        (fun theirs => absurd (took'.invoice.symm.trans theirs) mine) ?_
      exact (reverseTopup_grows h.linked noticed.unused took).mono fun _ quiet topup => absurd topup quiet
  | topped env old _ snapshot _ found awaits payment topup _ gave =>
    have mine : old.pk ≠ i.pk := by
      intro same
      obtain rfl := self found same
      rw [own.settled] at awaits
      cases awaits
    obtain ⟨store, outbox, topped, made⟩ := fulfilTopup_ok gave
    obtain ⟨s₁, _, ensured, outcome⟩ := topup_ok topped
    have reversals : next.reversals = s.reversals ++ [] := by rw [made, saveInvoice, List.append_nil]
    have invoices : next.invoices = (saveInvoice s (toppedInvoice env old snapshot)).invoices := by rw [made]
    have credited : next.credits = store := by rw [made]
    have other : old.yookassaPaymentId ≠ i.yookassaPaymentId := fun same => mine (h.payments old found i own.found same payment)
    -- The one top-up row names the payment of the other invoice.
    have grows : Grows (fun row => ForeignTopup i row ∧ ∀ kind reference, row.idempotencyKey ≠ reversalPrefix kind ++ reference)
        s.credits next.credits := by
      have bootstrap : Grows (fun row => ForeignTopup i row ∧ ∀ kind reference, row.idempotencyKey ≠ reversalPrefix kind ++ reference)
          s.credits s₁ :=
        (ensureWallet_quiet ensured).mono fun _ quiet => ⟨fun topup => absurd topup quiet.kind, quiet.reversal⟩
      rw [credited]
      rcases outcome with ⟨_, same⟩ | ⟨_, _, _, _, _, _, appended⟩
      · exact bootstrap.trans (.of_same (by rw [same]))
      · refine bootstrap.trans (.of_row appended ⟨fun _ => ⟨fun same => other (topupKey_injective same), other⟩, ?_⟩)
        exact (OffReversals.of_initial (initial_topupKey _) (by decide)).self
    have apart : i.pk ≠ (toppedInvoice env old snapshot).pk := fun clash => mine clash.symm
    refine h.rewrite found (toppedInvoice_same env old snapshot) invoices
      (h.linked.grow [] reversals (by simp) (grows.mono fun _ off => off.2)) ⟨i, ?_⟩
    exact own.spare ⟨saved_mem_other own.found apart invoices, idle, rfl, own.active, rfl, rfl,
      ⟨[], reversals, by simp⟩, grows.mono fun _ off => off.1⟩
  | extended env old sub purchase _ found _ kind _ gave =>
    have mine : old.pk ≠ i.pk := by
      intro same
      obtain rfl := self found same
      rw [own.topup] at kind
      cases kind
    obtain ⟨extended, store, _, outbox, _, made, journal⟩ := fulfilSubscription_ok gave
    obtain ⟨same, _, _⟩ := subscribedInvoice_paid env old sub purchase
    have reversals : next.reversals = s.reversals ++ [] := by
      rw [made, List.append_nil]
      rfl
    have invoices : next.invoices = (saveInvoice s (subscribedInvoice env old sub purchase)).invoices := by rw [made]
    have grows : Grows Plain s.credits next.credits := by
      rw [made]
      rcases journal with idle | ⟨_, granted⟩
      · exact .of_same (by rw [idle])
      · exact grantIncluded_grows (initial_append (initial_append (initial_append (by decide) _) _) _) granted
    have apart : i.pk ≠ (subscribedInvoice env old sub purchase).pk := fun clash => mine (same.pk.symm.trans clash.symm)
    refine h.rewrite found same invoices (h.linked.grow [] reversals (by simp) (grows.mono fun _ plain => plain.reversal)) ⟨i, ?_⟩
    exact own.spare ⟨saved_mem_other own.found apart invoices, idle, rfl, own.active, rfl, rfl, ⟨[], reversals, by simp⟩,
      grows.mono fun _ plain topup => absurd topup plain.kind⟩

theorem BillingStore.move_refunds (s : BillingStore) (e : CreditEvent) (whole : Numeric.Whole 4 credits) (h : s.Refunds start credits)
    (ordinary : e.Ordinary) : (s.move e).Refunds start credits := by
  cases e with
  | billing event => exact s.next_refunds event whole h
  | wallet action =>
    obtain ⟨i, own⟩ := h.invoice
    have grows := s.credits.next_quiet action ordinary
    have reversals : (s.move (.wallet action)).reversals = s.reversals ++ [] := (List.append_nil _).symm
    refine h.move rfl (fun row mem => ⟨row, mem, rfl, rfl⟩)
      (h.linked.grow [] reversals (by simp) (grows.mono fun _ quiet => quiet.reversal)) ⟨i, ?_⟩
    exact own.spare ⟨own.found, ⟨rfl, rfl, rfl, rfl, rfl⟩, rfl, own.active, rfl, rfl, ⟨[], reversals, by simp⟩,
      grows.mono fun _ quiet topup => absurd topup quiet.kind⟩

end Steps

/-- A paid top-up that entitles to so many credits and of which nothing was refunded yet. -/
structure PaidTopup (s : BillingStore) (i : Invoice) (credits : ℚ) : Prop where
  found : i ∈ s.invoices
  topup : i.purchaseType = .aiTopup
  paid : i.paidAt.isSome = true
  active : i.status ≠ .pending
  priced : 0 < i.amount.value
  entitled : ∃ snapshot, aiEntitlementFromInvoice s i = some (credits, snapshot)
  unrefunded : i.refundedAmount = 0
  refused : ∀ r ∈ s.reversals, r.invoice = i.pk → r.Refused

theorem PaidTopup.refunding {s : BillingStore} {i : Invoice} {credits : ℚ} (h : PaidTopup s i credits) : Refunding s i credits i := by
  have nothing : i.refundedAmount.value = 0 := by rw [h.unrefunded, Numeric.value_zero]
  have refused (r : PaymentReversal) (mem : r ∈ reversalsOf s i) : r.Refused := by
    obtain ⟨stored, mine⟩ := List.mem_filter.mp mem
    exact h.refused r stored (of_decide_eq_true mine)
  have unaccepted : acceptedAmounts s i = [] := by
    rw [acceptedAmounts, List.map_eq_nil_iff, List.filter_eq_nil_iff]
    exact fun r mem => by rw [(refused r mem).accepted]; exact Bool.false_ne_true
  have unasked : creditsRequested s i = 0 := by
    refine List.sum_eq_zero fun value mem => ?_
    obtain ⟨r, own, rfl⟩ := List.mem_map.mp mem
    rw [(refused r own).requested, Numeric.value_zero]
  exact ⟨h.found, ⟨rfl, rfl, rfl, rfl, rfl⟩, h.topup, h.paid, h.active, h.entitled, by rw [nothing, unaccepted, List.sum_nil],
    nothing.ge, nothing.trans_le h.priced.le, by rw [unasked, nothing, creditTarget_zero h.priced],
    fun r mem mine => (h.refused r mem mine).balanced⟩

/-- However a paid top-up is refunded, the refunded amount is the sum of the accepted reversals and stays within the price, their
credits add up to the share of that sum, and every row splits what it asked for. -/
theorem refunds_split_independent (s : BillingStore) (booked : s.Booked) (i : Invoice) (credits : ℚ) (paid : PaidTopup s i credits)
    (whole : Numeric.Whole 4 credits) (events : List CreditEvent) (ordinary : ∀ e ∈ events, e.Ordinary) :
    let reached := run BillingStore.move s events
    let total := (acceptedAmounts reached i).sum
    (∃ now ∈ reached.invoices, now.pk = i.pk ∧ now.refundedAmount.value = total) ∧ 0 ≤ total ∧ total ≤ i.amount.value ∧
      creditsRequested reached i =
        (if total = i.amount.value then credits else roundDown (credits * total / i.amount.value)) ∧
      ∀ r ∈ reached.reversals, r.invoice = i.pk → 0 ≤ r.creditsRequested.value ∧
        r.creditsReversed.value + r.creditShortfall.value = r.creditsRequested.value := by
  intro reached total
  have kept : reached.Refunds i credits :=
    run_invariant BillingStore.move (fun s e h allowed => s.move_refunds e whole h allowed)
      ⟨booked, i, paid.refunding⟩ (meets_of_mem BillingStore.move ordinary s)
  obtain ⟨now, own⟩ := kept.invoice
  have pk := own.same.pk
  have sums : now.refundedAmount.value = total := by
    rw [own.refunded, acceptedAmounts, reversalsOf, pk]
    rfl
  refine ⟨⟨now, own.found, pk, sums⟩, sums ▸ own.nonneg, ?_, ?_, ?_⟩
  · rw [← sums, ← own.same.amount]
    exact own.within
  · have asked := own.requested
    rw [creditsRequested, reversalsOf, pk, sums, creditTarget_same own.same] at asked
    exact asked
  · intro r mem mine
    have balanced := own.rows r mem (mine.trans pk.symm)
    exact ⟨balanced.requested, balanced.split⟩

def paidTopup : BillingStore := twoTopups.next (.paymentSuccess billingEnv 1 "pay-1" (some 100) "RUB")

theorem paidTopup_booked : paidTopup.Booked := by
  have backed := twoTopups.next_reversalsBacked (.paymentSuccess billingEnv 1 "pay-1" (some 100) "RUB") twoTopups_unbilled.backed trivial
  exact ⟨backed.keys, backed.payments, backed.linked⟩

def paidInvoiceRow : Invoice := toppedInvoice billingEnv (topupInvoice 1 "pay-1") topupSnapshot

theorem paidInvoiceRow_paid : PaidTopup paidTopup paidInvoiceRow 50 where
  found := by decide +kernel
  topup := rfl
  paid := rfl
  active := by decide
  priced := by decide +kernel
  entitled := ⟨topupSnapshot, by decide +kernel⟩
  unrefunded := rfl
  refused := by
    have none' : paidTopup.reversals = [] := by decide +kernel
    rw [none']
    exact fun r mem => (List.not_mem_nil mem).elim

/-- A third and the rest, with a reservation in between that leaves too few credits. -/
def refundInThirds : List CreditEvent :=
  [.billing (.reversal billingEnv 1 ⟨"refund-1", "pay-1", some (3333 / 100), "RUB", .refund⟩),
    .wallet (.reserve (walletEnv "") bareTenant 20 (some "media-job:1:credits:1")),
    .billing (.reversal billingEnv 1 ⟨"refund-2", "pay-1", some (6667 / 100), "RUB", .refund⟩)]

theorem refundInThirds_ordinary : ∀ e ∈ refundInThirds, e.Ordinary := by
  intro e mem
  simp only [refundInThirds, List.mem_cons, List.not_mem_nil, or_false] at mem
  rcases mem with rfl | rfl | rfl
  · trivial
  · exact OffReversals.of_initial (c := 'm') (by decide) (by decide)
  · trivial

theorem refunds_split_independent_thirds :
    acceptedAmounts (run BillingStore.move paidTopup refundInThirds) paidInvoiceRow = [3333 / 100, 6667 / 100] ∧
      creditsRequested (run BillingStore.move paidTopup refundInThirds) paidInvoiceRow = 50 := by
  have amounts : acceptedAmounts (run BillingStore.move paidTopup refundInThirds) paidInvoiceRow = [3333 / 100, 6667 / 100] := by
    decide +kernel
  obtain ⟨-, -, -, asked, -⟩ := refunds_split_independent paidTopup paidTopup_booked paidInvoiceRow 50 paidInvoiceRow_paid
    ⟨500000, by norm_num⟩ refundInThirds refundInThirds_ordinary
  have all : (acceptedAmounts (run BillingStore.move paidTopup refundInThirds) paidInvoiceRow).sum = paidInvoiceRow.amount.value := by
    rw [amounts]
    decide +kernel
  rw [if_pos all] at asked
  exact ⟨amounts, asked⟩

end MapBackend.Billing
