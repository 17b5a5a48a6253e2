import MapBackend.Billing.AIWalletSolvency
import MapBackend.Billing.PaymentFulfilment

/-!
Reversals against the credits that were topped up.
-/

namespace MapBackend.Billing
open MapBackend.Library BillingService AIWalletService

section Keys

def initial (key : String) : Option Char := key.toList.head?

theorem initial_append {a : String} {c : Char} (begins : initial a = some c) (b : String) :
    initial (a ++ b) = some c := by
  simp only [initial] at begins ⊢
  rw [String.toList_append, List.head?_append, begins, Option.some_or]

theorem initial_topupKey (paymentId : String) : initial (topupKey paymentId) = some 'y' :=
  initial_append (by decide) paymentId

theorem initial_reversal (kind : ReversalKind) (reference : String) :
    initial (reversalPrefix kind ++ reference) ≠ some 'y' ∧
      initial (reversalPrefix kind ++ reference) ≠ some 'w' ∧
      initial (reversalPrefix kind ++ reference) ≠ some 's' := by
  cases kind with
  | refund =>
    rw [initial_append (c := 'r') (by decide)]
    decide
  | chargeback =>
    rw [initial_append (c := 'c') (by decide)]
    decide

theorem reversalPrefix_injective {kind other : ReversalKind} {reference another : String}
    (same : reversalPrefix kind ++ reference = reversalPrefix other ++ another) :
    kind = other ∧ reference = another := by
  cases kind with
  | refund =>
    cases other with
    | refund => exact ⟨rfl, String.append_right_inj _ |>.mp same⟩
    | chargeback =>
      have first := congrArg initial same
      rw [initial_append (c := 'r') (by decide), initial_append (c := 'c') (by decide)] at first
      cases first
  | chargeback =>
    cases other with
    | chargeback => exact ⟨rfl, String.append_right_inj _ |>.mp same⟩
    | refund =>
      have first := congrArg initial same
      rw [initial_append (c := 'c') (by decide), initial_append (c := 'r') (by decide)] at first
      cases first

theorem topupKey_injective {a b : String} (same : topupKey a = topupKey b) : a = b :=
  (String.append_right_inj _).mp same

end Keys

section Journal

structure Plain (row : AICreditTransaction) : Prop where
  kind : row.kind ≠ .topup
  topup : ∀ paymentId, row.idempotencyKey ≠ topupKey paymentId
  reversal : ∀ kind reference, row.idempotencyKey ≠ reversalPrefix kind ++ reference

variable {row : AICreditTransaction}

theorem Plain.of_initial {c : Char} (kind : row.kind ≠ .topup)
    (begins : initial row.idempotencyKey = some c) (plain : c = 'w' ∨ c = 's') : Plain row where
  kind := kind
  topup paymentId same := by
    rw [same, initial_topupKey] at begins
    cases begins
    rcases plain with clash | clash <;> cases clash
  reversal kind reference same := by
    rw [same] at begins
    have apart := initial_reversal kind reference
    rw [begins] at apart
    rcases plain with rfl | rfl
    · exact apart.2.1 rfl
    · exact apart.2.2 rfl

def Grows (fresh : AICreditTransaction → Prop) (s next : WalletStore) : Prop :=
  ∃ rows, next.transactions = s.transactions ++ rows ∧ ∀ row ∈ rows, fresh row

variable {fresh : AICreditTransaction → Prop} {s next : WalletStore}

theorem Grows.of_same
    (same : next.transactions = s.transactions) : Grows fresh s next :=
  ⟨[], by simpa using same, by simp⟩

theorem Grows.of_row (appended : next.transactions = s.transactions ++ [row])
    (holds : fresh row) : Grows fresh s next :=
  ⟨[row], appended, by simpa using holds⟩

theorem Grows.trans {a b c : WalletStore} (first : Grows fresh a b)
    (second : Grows fresh b c) : Grows fresh a c := by
  obtain ⟨rows, one, all⟩ := first
  obtain ⟨more, two, alsoAll⟩ := second
  refine ⟨rows ++ more, by rw [two, one, List.append_assoc], ?_⟩
  intro row member
  rcases List.mem_append.mp member with early | late
  · exact all row early
  · exact alsoAll row late

theorem Grows.mono {fresh wider : AICreditTransaction → Prop}
    (grows : Grows fresh s next) (le : ∀ row, fresh row → wider row) : Grows wider s next := by
  obtain ⟨rows, appended, all⟩ := grows
  exact ⟨rows, appended, fun row member => le row (all row member)⟩

theorem Grows.mem (grows : Grows fresh s next) (member : row ∈ next.transactions) : row ∈ s.transactions ∨ fresh row := by
  obtain ⟨_, appended, all⟩ := grows
  rw [appended] at member
  rcases List.mem_append.mp member with old | new
  · exact .inl old
  · exact .inr (all row new)

variable {env : WalletEnv} {tenant : Tenant} {s next : WalletStore}

variable {w : AIWallet}

theorem ensureWallet_grows (step : ensureWallet env tenant s = .ok (next, w)) :
    Grows Plain s next := by
  rcases (ensureWallet_ok step).2 with ⟨_, rfl⟩ | ⟨_, _, ⟨_, same⟩ | appended⟩
  · exact .of_same rfl
  · exact .of_same same
  · exact .of_row appended (.of_initial (by simp)
      (initial_append (by decide) _ : initial ("wallet-bootstrap:" ++ toString tenant.pk) = some 'w') (.inl rfl))

theorem expireReplaced_grows {key : String} (begins : initial key = some 's')
    (step : expireReplaced s w key = .ok next) : Grows Plain s next := by
  rcases (expireReplaced_ok step).2 with ⟨_, same⟩ | ⟨_, _, appended⟩
  · exact .of_same same
  · exact .of_row appended (.of_initial (by simp) (initial_append begins _) (.inr rfl))

theorem grantIncluded_grows {amount : Option ℚ} {periodEnd : Option CivilDate} {key : String}
    (begins : initial key = some 's') (step : grantIncluded env tenant amount periodEnd key s = .ok (next, ())) :
    Grows Plain s next := by
  obtain ⟨_, _, ensured, ⟨_, rfl⟩ | ⟨_, _, expired, _, _, _, appended⟩⟩ := grantIncluded_ok step
  · exact ensureWallet_grows ensured
  · exact ((ensureWallet_grows ensured).trans (expireReplaced_grows begins expired)).trans
      (.of_row appended (.of_initial (by simp) begins (.inr rfl)))

theorem topup_grows {amount : ℚ} {paymentId reference : String} (fresh : ¬ hasKey s (topupKey paymentId))
    (nonneg : 0 ≤ amount) (step : topup env tenant amount (topupKey paymentId) reference s = .ok (next, ())) :
    ∃ middle row, Grows Plain s middle ∧ next.transactions = middle.transactions ++ [row] ∧
      row.kind = .topup ∧ row.idempotencyKey = topupKey paymentId ∧ row.amount.units = storedUnits amount := by
  obtain ⟨s₁, _, ensured, ⟨used, _⟩ | ⟨_, _, row, _, fits, _, appended⟩⟩ := topup_ok step
  · obtain ⟨row, member, key⟩ := used
    rcases (ensureWallet_grows ensured).mem member with old | plain
    · exact absurd ⟨row, old, key⟩ fresh
    · exact absurd key (plain.topup paymentId)
  · rw [max_eq_right nonneg] at fits
    exact ⟨s₁, _, ensureWallet_grows ensured, appended, rfl, rfl, storedUnits_of_store fits⟩

theorem reversePurchased_grows {amount : ℚ} {kind : ReversalKind} {reference : String}
    {result : ℚ × ℚ} (fresh : ¬ hasKey s (reversalPrefix kind ++ reference))
    (step : reversePurchased env tenant amount (reversalPrefix kind ++ reference) reference
      (reversalTransactionKind kind) s = .ok (next, result)) :
    ∃ s₁ w₁ row, ensureWallet env tenant s = .ok (s₁, w₁) ∧
      result = (reversedAmount w₁ amount, max 0 amount - reversedAmount w₁ amount) ∧
      next.transactions = s₁.transactions ++ [row] ∧ row.kind ≠ .topup ∧
      row.idempotencyKey = reversalPrefix kind ++ reference ∧
      row.amount.units = -storedUnits (reversedAmount w₁ amount) ∧
      (reversalPrefix kind ++ reference).length ≤ 160 ∧ reference.length ≤ 160 := by
  obtain ⟨s₁, w₁, ensured, ⟨used, _⟩ | ⟨unused, taken, purchased, row, _, fits, _, appended⟩⟩ :=
    reversePurchased_ok step
  · obtain ⟨row, member, key⟩ := used
    rcases (ensureWallet_grows ensured).mem member with old | plain
    · exact absurd ⟨row, old, key⟩ fresh
    · exact absurd key (plain.reversal kind reference)
  · refine ⟨s₁, w₁, _, ensured, taken, appended, ?_, rfl, ?_, reversePurchased_narrow ensured unused step⟩
    · cases kind <;> simp [reversalTransactionKind]
    · show row.units = _
      rw [Numeric.store_neg fits]
      rfl

theorem ensureWallet_reversible (step : ensureWallet env tenant s = .ok (next, w)) :
    s.wallet = some w ∨ reversible w = 0 := by
  rcases (ensureWallet_ok step).2 with ⟨found, _⟩ | ⟨_, boot, _⟩
  · exact .inl found
  · refine .inr ?_
    rw [reversible, boot.purchased, Numeric.value_zero, zero_sub]
    exact max_eq_left (neg_nonpos.mpr (le_max_left _ _))

end Journal

section Amounts

def toppedUnits (s : BillingStore) (i : Invoice) : ℤ :=
  ((s.credits.transactions.filter fun row =>
    row.kind = .topup ∧ row.idempotencyKey = topupKey i.yookassaPaymentId).map fun row => row.amount.units).sum

theorem roundDown_le {x : ℚ} : roundDown x ≤ x := by
  rw [roundDown, div_le_iff₀ (by positivity)]
  exact Int.floor_le _

variable {i : Invoice}

theorem creditTarget_le {credits refunded : ℚ} (nonneg : 0 ≤ credits)
    (le : refunded ≤ i.amount.value) (positive : 0 < i.amount.value) :
    creditTarget i credits refunded ≤ credits := by
  unfold creditTarget
  split
  · exact le_rfl
  · refine roundDown_le.trans ?_
    rw [div_le_iff₀ positive]
    exact mul_le_mul_of_nonneg_left le nonneg

theorem requested_le {units : ℤ} {target credits : ℚ} (base : 0 ≤ units) (covered : units ≤ storedUnits credits)
    (le : target ≤ credits) :
    units + storedUnits (max 0 (target - units / 10 ^ 4)) ≤ storedUnits credits := by
  by_cases reached : target ≤ (units : ℚ) / 10 ^ 4
  · rw [max_eq_left (sub_nonpos.mpr reached)]
    simpa [storedUnits] using covered
  · have rest : 0 ≤ target - (units : ℚ) / 10 ^ 4 := sub_nonneg.mpr (not_le.mp reached).le
    rw [max_eq_right rest]
    calc units + storedUnits (target - units / 10 ^ 4)
        = storedUnits target := by
          have whole : target * 10 ^ 4 = units + (target - units / 10 ^ 4) * 10 ^ 4 := by ring
          rw [storedUnits, storedUnits, whole, roundHalfAway_add base (Numeric.scaled_nonneg rest)]
      _ ≤ storedUnits credits := storedUnits_mono le

theorem parseAmount_pos {raw : Option ℚ} {amount : ℚ} (parsed : parseAmount raw = some amount) : 0 < amount := by
  unfold parseAmount at parsed
  split at parsed
  · cases parsed
  · split at parsed
    next guards =>
      cases parsed
      exact guards.1
    · cases parsed

theorem snapshotCredits_pos {snapshot : EntitlementSnapshot} {credits : ℚ}
    (read : snapshotCredits i snapshot = some credits) : 0 < credits := by
  unfold snapshotCredits at read
  split at read
  · split at read
    next guards =>
      cases read
      exact guards.2.2.2.1
    · cases read
  · cases read

theorem aiEntitlementFromInvoice_some {s : BillingStore} {credits : ℚ}
    {snapshot : EntitlementSnapshot} (entitled : aiEntitlementFromInvoice s i = some (credits, snapshot)) :
    snapshotCredits i snapshot = some credits ∧
      ∀ stored, i.entitlementSnapshot = some stored → stored = snapshot := by
  unfold aiEntitlementFromInvoice at entitled
  cases frozen : i.entitlementSnapshot with
  | some =>
    simp only [frozen, Option.map_eq_some_iff, Prod.mk.injEq] at entitled
    obtain ⟨_, read, rfl, rfl⟩ := entitled
    exact ⟨read, fun other same => (Option.some.inj same).symm⟩
  | none =>
    simp only [frozen] at entitled
    split at entitled
    next row _ =>
      split at entitled
      next positive =>
        cases entitled
        refine ⟨?_, fun other same => by cases same⟩
        simp [snapshotCredits, backfilledTopup, positive]
      · cases entitled
    · cases entitled

end Amounts

section Invariant

/-- What was taken back for a top-up invoice is covered by what was topped up for it. -/
structure Backed (s : BillingStore) (i : Invoice) : Prop where
  pending : i.status = .pending → i.paidAt = none
  refunded : 0 ≤ i.refundedAmount.units
  rows : ∀ r ∈ s.reversals, r.invoice = i.pk →
    0 ≤ r.creditsReversed.units ∧ r.creditsReversed.units ≤ r.creditsRequested.units
  keyless : i.paidAt = none → ¬ hasKey s.credits (topupKey i.yookassaPaymentId)
  untouched : i.paidAt = none → ∀ r ∈ s.reversals, r.invoice = i.pk → r.creditsReversed.units = 0
  settled : i.paidAt = none → requestedUnits s i ≠ 0 → i.refundReviewRequired = true ∧ i.status ≠ .pending
  covered : i.paidAt.isSome → ∃ snapshot credits, i.entitlementSnapshot = some snapshot ∧
    snapshotCredits i snapshot = some credits ∧ storedUnits credits ≤ toppedUnits s i ∧
    requestedUnits s i ≤ storedUnits credits

/-- Journal rows under a reversal key belong to a stored reversal and carry what it took back. -/
structure Linked (s : BillingStore) : Prop where
  referenced : ∀ row ∈ s.credits.transactions, ∀ kind reference,
    row.idempotencyKey = reversalPrefix kind ++ reference →
      ∃ r ∈ s.reversals, r.providerReference = reference
  taken : ∀ r ∈ s.reversals, ∀ row ∈ s.credits.transactions, ∀ kind,
    row.idempotencyKey = reversalPrefix kind ++ r.providerReference →
      row.amount.units = -r.creditsReversed.units

structure BillingStore.ReversalsBacked (s : BillingStore) : Prop where
  keys : (s.invoices.map Invoice.pk).Nodup
  payments : ∀ i ∈ s.invoices, ∀ j ∈ s.invoices,
    i.yookassaPaymentId = j.yookassaPaymentId → i.yookassaPaymentId ≠ "" → i.pk = j.pk
  linked : Linked s
  backed : ∀ i ∈ s.invoices, i.purchaseType = .aiTopup → Backed s i

variable {s next : BillingStore} {old new : Invoice}

theorem findReversal_none {reference : String} (unused : findReversal s reference = none) :
    ∀ r ∈ s.reversals, r.providerReference ≠ reference := by
  simpa [findReversal] using unused

theorem Linked.unused_key (h : Linked s) {reference : String} (unused : findReversal s reference = none)
    (kind : ReversalKind) : ¬ hasKey s.credits (reversalPrefix kind ++ reference) := by
  rintro ⟨row, member, key⟩
  obtain ⟨r, stored, same⟩ := h.referenced row member kind reference key
  exact findReversal_none unused r stored same

theorem Linked.grow (h : Linked s) (more : List PaymentReversal)
    (reversals : next.reversals = s.reversals ++ more)
    (unused : ∀ r ∈ more, findReversal s r.providerReference = none)
    (grows : Grows (fun row => ∀ kind reference, row.idempotencyKey ≠ reversalPrefix kind ++ reference)
      s.credits next.credits) : Linked next where
  referenced row member kind reference key := by
    rcases grows.mem member with earlier | fresh
    · obtain ⟨r, stored, same⟩ := h.referenced row earlier kind reference key
      exact ⟨r, by rw [reversals]; exact List.mem_append_left _ stored, same⟩
    · exact absurd key (fresh kind reference)
  taken r stored row member kind key := by
    rcases grows.mem member with earlier | fresh
    · rw [reversals] at stored
      rcases List.mem_append.mp stored with before | added
      · exact h.taken r before row earlier kind key
      · exact absurd ⟨row, earlier, key⟩ (h.unused_key (unused r added) kind)
    · exact absurd key (fresh kind _)

theorem Linked.take (h : Linked s) {r : PaymentReversal} {row : AICreditTransaction} {kind : ReversalKind}
    {middle : WalletStore} (reversals : next.reversals = s.reversals ++ [r])
    (unused : findReversal s r.providerReference = none) (grows : Grows Plain s.credits middle)
    (appended : next.credits.transactions = middle.transactions ++ [row])
    (key : row.idempotencyKey = reversalPrefix kind ++ r.providerReference)
    (amount : row.amount.units = -r.creditsReversed.units) : Linked next := by
  have cases_row (other : AICreditTransaction) (member : other ∈ next.credits.transactions) :
      other ∈ s.credits.transactions ∨ Plain other ∨ other = row := by
    rw [appended, List.mem_append, List.mem_singleton] at member
    rcases member with earlier | last
    · exact (grows.mem earlier).imp_right .inl
    · exact .inr (.inr last)
  have cases_reversal (other : PaymentReversal) (stored : other ∈ next.reversals) :
      other ∈ s.reversals ∨ other = r := by
    rwa [reversals, List.mem_append, List.mem_singleton] at stored
  refine ⟨?_, ?_⟩
  · intro other member kind' reference same
    rcases cases_row other member with earlier | plain | rfl
    · obtain ⟨r', stored, named⟩ := h.referenced other earlier kind' reference same
      exact ⟨r', by rw [reversals]; exact List.mem_append_left _ stored, named⟩
    · exact absurd same (plain.reversal kind' reference)
    · obtain ⟨_, named⟩ := reversalPrefix_injective (key.symm.trans same)
      exact ⟨r, by rw [reversals]; exact List.mem_append_right _ (List.mem_singleton_self r), named⟩
  · intro r' stored other member kind' same
    rcases cases_row other member with earlier | plain | rfl
    · rcases cases_reversal r' stored with before | rfl
      · exact h.taken r' before other earlier kind' same
      · exact absurd ⟨other, earlier, same⟩ (h.unused_key unused kind')
    · exact absurd same (plain.reversal kind' _)
    · obtain ⟨_, named⟩ := reversalPrefix_injective (key.symm.trans same)
      rcases cases_reversal r' stored with before | rfl
      · exact absurd named.symm (findReversal_none unused r' before)
      · exact amount

/-- The event took nothing back for the invoice and topped up nothing for an unpaid one. -/
structure Spares (s next : BillingStore) (i : Invoice) : Prop where
  reversals : ∀ r ∈ next.reversals, r.invoice = i.pk →
    r ∈ s.reversals ∨ r.creditsRequested = 0 ∧ r.creditsReversed = 0
  requested : requestedUnits next i = requestedUnits s i
  topped : toppedUnits s i ≤ toppedUnits next i
  keyless : i.paidAt = none → ¬ hasKey s.credits (topupKey i.yookassaPaymentId) →
    ¬ hasKey next.credits (topupKey i.yookassaPaymentId)

theorem requestedUnits_pk (same : new.pk = old.pk) : requestedUnits s new = requestedUnits s old := by
  rw [requestedUnits, same, requestedUnits]

theorem toppedUnits_payment (same : new.yookassaPaymentId = old.yookassaPaymentId) :
    toppedUnits s new = toppedUnits s old := by
  rw [toppedUnits, same, toppedUnits]

theorem snapshotCredits_same (same : SameInvoice old new) (snapshot : EntitlementSnapshot) :
    snapshotCredits new snapshot = snapshotCredits old snapshot := by
  simp only [snapshotCredits, same.amount, same.currency]

theorem Backed.spare (h : Backed s old) (spares : Spares s next old) (same : SameInvoice old new)
    (paidAt : new.paidAt = old.paidAt) (snapshot : new.entitlementSnapshot = old.entitlementSnapshot)
    (refunded : 0 ≤ new.refundedAmount.units) (status : new.status = .pending → old.status = .pending)
    (review : old.refundReviewRequired = true → new.refundReviewRequired = true) : Backed next new := by
  have requested := (requestedUnits_pk same.pk).trans spares.requested
  have topped := spares.topped.trans_eq (toppedUnits_payment (s := next) same.paymentId).symm
  refine ⟨?_, refunded, ?_, ?_, ?_, ?_, ?_⟩
  · intro pending
    exact paidAt.trans (h.pending (status pending))
  · intro r stored mine
    rcases spares.reversals r stored (mine.trans same.pk) with before | ⟨none', nothing⟩
    · exact h.rows r before (mine.trans same.pk)
    · rw [none', nothing]
      exact ⟨le_rfl, le_rfl⟩
  · intro unpaid
    rw [paidAt] at unpaid
    rw [same.paymentId]
    exact spares.keyless unpaid (h.keyless unpaid)
  · intro unpaid r stored mine
    rw [paidAt] at unpaid
    rcases spares.reversals r stored (mine.trans same.pk) with before | ⟨_, nothing⟩
    · exact h.untouched unpaid r before (mine.trans same.pk)
    · rw [nothing]
      rfl
  · intro unpaid asked
    rw [paidAt] at unpaid
    rw [requested] at asked
    obtain ⟨marked, active⟩ := h.settled unpaid asked
    exact ⟨review marked, fun pending => active (status pending)⟩
  · intro paid
    rw [paidAt] at paid
    obtain ⟨frozen, credits, stored, read, granted, bounded⟩ := h.covered paid
    refine ⟨frozen, credits, snapshot.trans stored, ?_, granted.trans topped, requested.trans_le bounded⟩
    rw [snapshotCredits_same same, read]

theorem requestedUnits_append {more : List PaymentReversal} (reversals : next.reversals = s.reversals ++ more)
    (i : Invoice) : requestedUnits next i = requestedUnits s i +
      ((more.filter fun r => r.invoice = i.pk).map fun r => r.creditsRequested.units).sum := by
  simp [requestedUnits, reversals]

theorem toppedUnits_append {rows : List AICreditTransaction}
    (appended : next.credits.transactions = s.credits.transactions ++ rows) (i : Invoice) :
    toppedUnits next i = toppedUnits s i + ((rows.filter fun row =>
      row.kind = .topup ∧ row.idempotencyKey = topupKey i.yookassaPaymentId).map
        fun row => row.amount.units).sum := by
  simp [toppedUnits, appended]

variable {i : Invoice}

theorem toppedUnits_other (grows : Grows
    (fun row => row.kind = .topup → row.idempotencyKey ≠ topupKey i.yookassaPaymentId)
      s.credits next.credits) : toppedUnits next i = toppedUnits s i := by
  obtain ⟨rows, appended, all⟩ := grows
  have none' : (rows.filter fun row =>
      row.kind = .topup ∧ row.idempotencyKey = topupKey i.yookassaPaymentId) = [] := by
    rw [List.filter_eq_nil_iff]
    intro row member
    simpa using all row member
  rw [toppedUnits_append appended, none', List.map_nil, List.sum_nil, add_zero]

theorem toppedUnits_keyless (absent : ¬ hasKey s.credits (topupKey i.yookassaPaymentId)) :
    toppedUnits s i = 0 := by
  rw [toppedUnits, List.filter_eq_nil_iff.mpr]
  · rfl
  · intro row member
    simpa using fun _ clash => absent ⟨row, member, clash⟩

theorem toppedUnits_topup {middle : WalletStore} {row : AICreditTransaction}
    (grows : Grows Plain s.credits middle) (appended : next.credits.transactions = middle.transactions ++ [row])
    (kind : row.kind = .topup) (key : row.idempotencyKey = topupKey i.yookassaPaymentId) :
    toppedUnits next i = toppedUnits s i + row.amount.units := by
  obtain ⟨rows, first, plain⟩ := grows
  have journal : next.credits.transactions = s.credits.transactions ++ (rows ++ [row]) := by
    rw [appended, first, List.append_assoc]
  have nothing : (rows.filter fun row =>
      row.kind = .topup ∧ row.idempotencyKey = topupKey i.yookassaPaymentId) = [] := by
    rw [List.filter_eq_nil_iff]
    intro row' member
    simpa using fun topup => absurd topup (plain row' member).kind
  rw [toppedUnits_append journal, List.filter_append, nothing, List.nil_append]
  simp [kind, key]

theorem Spares.of_growth (more : List PaymentReversal)
    (reversals : next.reversals = s.reversals ++ more)
    (bare : ∀ r ∈ more, r.invoice = i.pk → r.creditsRequested = 0 ∧ r.creditsReversed = 0)
    (grows : Grows (fun row => row.idempotencyKey ≠ topupKey i.yookassaPaymentId) s.credits next.credits) :
    Spares s next i where
  reversals r stored mine := by
    rw [reversals] at stored
    rcases List.mem_append.mp stored with before | added
    · exact .inl before
    · exact .inr (bare r added mine)
  requested := by
    rw [requestedUnits_append reversals, add_eq_left]
    apply List.sum_eq_zero
    intro units member
    obtain ⟨r, kept, rfl⟩ := List.mem_map.mp member
    obtain ⟨added, mine⟩ := List.mem_filter.mp kept
    rw [(bare r added (of_decide_eq_true mine)).1]
    rfl
  topped := (toppedUnits_other (grows.mono fun _ other _ => other)).ge
  keyless _ absent := by
    rintro ⟨row, member, key⟩
    rcases grows.mem member with earlier | fresh
    · exact absent ⟨row, earlier, key⟩
    · exact fresh key

theorem saved_origin (found : old ∈ s.invoices) (same : SameInvoice old new)
    (invoices : next.invoices = (saveInvoice s new).invoices) {row : Invoice} (member : row ∈ next.invoices) :
    ∃ before ∈ s.invoices, before.pk = row.pk ∧ before.yookassaPaymentId = row.yookassaPaymentId := by
  rcases mem_saved invoices member with rfl | ⟨present, _⟩
  · exact ⟨old, found, same.pk.symm, same.paymentId.symm⟩
  · exact ⟨row, present, rfl, rfl⟩

theorem BillingStore.ReversalsBacked.rewrite (h : s.ReversalsBacked) (found : old ∈ s.invoices)
    (same : SameInvoice old new) (invoices : next.invoices = (saveInvoice s new).invoices)
    (linked : Linked next) (spares : ∀ i ∈ s.invoices, i.pk ≠ old.pk → Spares s next i)
    (mine : old.purchaseType = .aiTopup → Backed s old → Backed next new) : next.ReversalsBacked where
  keys := by
    rw [saved_pks invoices]
    exact h.keys
  payments i member j other payment given := by
    obtain ⟨i', present, pk, id⟩ := saved_origin found same invoices member
    obtain ⟨j', present', pk', id'⟩ := saved_origin found same invoices other
    rw [← pk, ← pk']
    exact h.payments i' present j' present' (by rw [id, id', payment]) (by rwa [id])
  linked := linked
  backed i member topup := by
    rcases mem_saved invoices member with rfl | ⟨present, _⟩
    · rw [same.purchaseType] at topup
      exact mine topup (h.backed old found topup)
    · have kept := h.backed i present topup
      have apart : i.pk ≠ old.pk := by rwa [← same.pk]
      exact kept.spare (spares i present apart) ⟨rfl, rfl, rfl, rfl, rfl⟩ rfl rfl kept.refunded
        (fun pending => pending) (fun marked => marked)

end Invariant

section Steps

/-- The notice passes every guard of a new reversal of an unpaid top-up invoice and finds credits of
other purchases to take. -/
structure TakesUnpaid (env : BillingEnv) (s : BillingStore) (old : Invoice) (notice : ReversalNotice)
    (amount credits : ℚ) (refunded : Rubles) (w : AIWallet) : Prop where
  unpaid : old.paidAt = none
  topup : old.purchaseType = .aiTopup
  noticed : NewNotice env s old notice amount
  accepts : Accepts env old notice amount
  refunds : Numeric.store 10 2 (old.refundedAmount.value + amount) = some refunded
  entitled : (aiEntitlementFromInvoice s old).map Prod.fst = some credits
  wallet : s.credits.wallet = some w
  widths : (reversalKey notice).length ≤ 160 ∧ notice.providerReference.length ≤ 160
  stores : (Numeric.store 16 4
    (max 0 (creditTarget old credits refunded.value - previousRequested s old))).isSome
  positive : storedUnits (min (max 0 (creditTarget old credits refunded.value - previousRequested s old))
    (reversible w)) ≠ 0

def ReversalSafe (s : BillingStore) : BillingEvent → Prop
  | .reversal env invoiceId notice => ∀ old, getInvoice s invoiceId = some old →
    ∀ amount credits refunded w, ¬ TakesUnpaid env s old notice amount credits refunded w
  | _ => True

variable {s next : BillingStore} {old : Invoice}

variable {refunded : Rubles}

theorem refunded_units_nonneg {amount : ℚ} (before : 0 ≤ old.refundedAmount.units)
    (positive : 0 < amount) (fits : Numeric.store 10 2 (old.refundedAmount.value + amount) = some refunded) :
    0 ≤ refunded.units :=
  Numeric.store_nonneg (add_nonneg ((Numeric.units_nonneg_iff _).mpr before) positive.le) fits

theorem refunded_le {amount : ℚ} (le : old.refundedAmount.value + amount ≤ old.amount.value)
    (fits : Numeric.store 10 2 (old.refundedAmount.value + amount) = some refunded) :
    refunded.value ≤ old.amount.value := by
  rw [Numeric.value_le_iff, Numeric.store_units fits]
  calc roundHalfAway ((old.refundedAmount.value + amount) * 10 ^ 2)
      ≤ roundHalfAway (old.amount.value * 10 ^ 2) :=
        roundHalfAway_mono (mul_le_mul_of_nonneg_right le (by positivity))
    _ = old.amount.units := by rw [Numeric.value_scaled, roundHalfAway_intCast]

theorem Backed.requested_nonneg (h : Backed s old) : 0 ≤ requestedUnits s old := by
  apply List.sum_nonneg
  intro units member
  obtain ⟨r, kept, rfl⟩ := List.mem_map.mp member
  obtain ⟨stored, mine⟩ := List.mem_filter.mp kept
  have bounds := h.rows r stored (of_decide_eq_true mine)
  exact bounds.1.trans bounds.2

theorem reversedAmount_requested {w : AIWallet} {requested : ℚ} (nonneg : 0 ≤ requested) :
    reversedAmount w requested ≤ requested := by
  rw [reversedAmount, max_eq_right nonneg]
  exact min_le_left _ _

structure TopupReversed (s next : BillingStore) (old new : Invoice) (r : PaymentReversal)
    (requested reversed : ℚ) : Prop where
  invoices : next.invoices = (saveInvoice s new).invoices
  same : SameInvoice old new
  paidAt : new.paidAt = old.paidAt
  active : new.status ≠ .pending
  reversals : next.reversals = s.reversals ++ [r]
  invoice : r.invoice = old.pk
  linked : Linked next
  growth : ∀ paymentId, Grows (fun row => row.idempotencyKey ≠ topupKey paymentId) s.credits next.credits
  asked : r.creditsRequested.units = storedUnits requested
  taken : r.creditsReversed.units = storedUnits reversed
  nonneg : 0 ≤ reversed
  le : reversed ≤ requested
  wallet : (∃ w, s.credits.wallet = some w ∧ reversed = min requested (reversible w)) ∨ reversed = 0
  review : old.refundReviewRequired = true ∨ reversed ≠ requested → new.refundReviewRequired = true

variable {snapshot : EntitlementSnapshot}

theorem reverseTopup_reversed {env : BillingEnv} {notice : ReversalNotice} {credits requested : ℚ} {reversal : PaymentReversal}
    {result : Option PaymentReversal} (linked : Linked s)
    (unused : findReversal s notice.providerReference = none) (bare : BareReversal reversal old notice)
    (asks : requested = max 0 (creditTarget old credits refunded.value - previousRequested s old))
    (took : reverseTopup env old notice refunded reversal credits snapshot s = .ok (next, result)) :
    ∃ new r reversed, TopupReversed s next old new r requested reversed ∧ new.refundedAmount = refunded ∧
      new.entitlementSnapshot = some snapshot ∧ (Numeric.store 16 4 requested).isSome ∧
      (reversalKey notice).length ≤ 160 ∧ notice.providerReference.length ≤ 160 := by
  obtain ⟨store, reversed, shortfall, performed, asked, reversedRow, askedFits, reversedFits, r, new,
    mine, _, reference, requestedRow, takenRow, same, paidAt, active, refundedNow, frozen, review, _, made⟩ :=
    reverseTopup_ok took
  rw [← asks] at performed askedFits
  have nonneg : 0 ≤ requested := asks ▸ le_max_left _ _
  obtain ⟨s₁, w, row, ensured, taken, appended, kind, key, units, narrow⟩ :=
    reversePurchased_grows (linked.unused_key unused notice.kind) performed
  rw [max_eq_right nonneg, Prod.mk.injEq] at taken
  obtain ⟨taken, short⟩ := taken
  have grows := ensureWallet_grows ensured
  have named : r.providerReference = notice.providerReference := reference.trans bare.reference
  have reversals : next.reversals = s.reversals ++ [r] := by
    rw [made]
    rfl
  have journal : next.credits.transactions = s₁.transactions ++ [row] := by
    rw [made]
    exact appended
  have takenUnits : r.creditsReversed.units = storedUnits reversed := by
    rw [takenRow]
    exact storedUnits_of_store reversedFits
  have keyed : row.idempotencyKey = reversalPrefix notice.kind ++ r.providerReference := by rw [key, named]
  refine ⟨new, r, reversed, ?_, refundedNow, frozen, by rw [askedFits]; rfl, narrow⟩
  refine ⟨by rw [made]; rfl, same, paidAt, active, reversals, mine.trans bare.invoice, ?_, ?_, ?_,
    takenUnits, ?_, ?_, ?_, ?_⟩
  · exact linked.take reversals (by rwa [named]) grows journal keyed (by rw [units, takenUnits, taken])
  · intro paymentId
    refine (grows.mono fun _ plain => plain.topup _).trans (.of_row journal ?_)
    intro clash
    have first := (initial_reversal notice.kind r.providerReference).1
    rw [← keyed, clash, initial_topupKey] at first
    exact first rfl
  · rw [requestedRow]
    exact storedUnits_of_store askedFits
  · rw [taken]
    exact reversedAmount_nonneg
  · rw [taken]
    exact reversedAmount_requested nonneg
  · rw [taken, reversedAmount, max_eq_right nonneg]
    rcases ensureWallet_reversible ensured with found | empty
    · exact .inl ⟨w, found, rfl⟩
    · exact .inr (by rw [empty, min_eq_right nonneg])
  · intro reason
    apply review
    refine reason.imp_right fun apart whole => apart ?_
    rw [whole, ← taken] at short
    linarith

theorem TopupReversed.backed {new : Invoice} {r : PaymentReversal}
    {credits requested reversed : ℚ} (took : TopupReversed s next old new r requested reversed)
    (h : Backed s old) (entitled : aiEntitlementFromInvoice s old = some (credits, snapshot))
    (frozen : new.entitlementSnapshot = some snapshot) (refunded : 0 ≤ new.refundedAmount.units)
    (untaken : old.paidAt = none → storedUnits reversed = 0)
    (bounded : requestedUnits s old ≤ storedUnits credits →
      requestedUnits s old + storedUnits requested ≤ storedUnits credits) : Backed next new := by
  have same := took.same
  have total : requestedUnits next new = requestedUnits s old + storedUnits requested := by
    rw [requestedUnits_append took.reversals, requestedUnits_pk same.pk, ← took.asked]
    simp [took.invoice, same.pk]
  have rows (r' : PaymentReversal) (stored : r' ∈ next.reversals) : r' ∈ s.reversals ∨ r' = r := by
    rwa [took.reversals, List.mem_append, List.mem_singleton] at stored
  refine ⟨fun pending => absurd pending took.active, refunded, ?_, ?_, ?_, ?_, ?_⟩
  · intro r' stored belongs
    rcases rows r' stored with before | rfl
    · exact h.rows r' before (belongs.trans same.pk)
    · rw [took.asked, took.taken]
      exact ⟨storedUnits_nonneg took.nonneg, storedUnits_mono took.le⟩
  · intro unpaid
    rw [took.paidAt] at unpaid
    rw [same.paymentId]
    rintro ⟨row, present, clash⟩
    rcases (took.growth old.yookassaPaymentId).mem present with earlier | fresh
    · exact h.keyless unpaid ⟨row, earlier, clash⟩
    · exact fresh clash
  · intro unpaid r' stored belongs
    rw [took.paidAt] at unpaid
    rcases rows r' stored with before | rfl
    · exact h.untouched unpaid r' before (belongs.trans same.pk)
    · rw [took.taken, untaken unpaid]
  · intro unpaid asks
    rw [took.paidAt] at unpaid
    refine ⟨took.review ?_, took.active⟩
    by_cases all : reversed = requested
    · rw [total, ← all, untaken unpaid, add_zero] at asks
      exact .inl (h.settled unpaid asks).1
    · exact .inr all
  · intro paid
    rw [took.paidAt] at paid
    obtain ⟨stored, granted, frozenOld, read, topped, covered⟩ := h.covered paid
    obtain ⟨read', sameSnapshot⟩ := aiEntitlementFromInvoice_some entitled
    obtain rfl := sameSnapshot stored frozenOld
    obtain rfl := Option.some.inj (read.symm.trans read')
    refine ⟨stored, granted, frozen, by rw [snapshotCredits_same same, read], ?_, total.trans_le (bounded covered)⟩
    rw [toppedUnits_payment same.paymentId,
      toppedUnits_other ((took.growth old.yookassaPaymentId).mono fun _ other _ => other)]
    exact topped

theorem Backed.of_paid {i : Invoice} (paid : i.paidAt ≠ none) (active : i.status ≠ .pending)
    (refunded : 0 ≤ i.refundedAmount.units)
    (rows : ∀ r ∈ s.reversals, r.invoice = i.pk →
      0 ≤ r.creditsReversed.units ∧ r.creditsReversed.units ≤ r.creditsRequested.units)
    (covered : ∃ snapshot credits, i.entitlementSnapshot = some snapshot ∧
      snapshotCredits i snapshot = some credits ∧ storedUnits credits ≤ toppedUnits s i ∧
      requestedUnits s i ≤ storedUnits credits) : Backed s i where
  pending status := absurd status active
  refunded := refunded
  rows := rows
  keyless unpaid := absurd unpaid paid
  untouched unpaid := absurd unpaid paid
  settled unpaid := absurd unpaid paid
  covered _ := covered

theorem fulfilTopup_backed {env : BillingEnv} {credits : ℚ} {result : Bool}
    (h : Backed s old) (awaits : awaitsOutcome old = true)
    (entitled : aiEntitlementFromInvoice s old = some (credits, snapshot))
    (gave : fulfilTopup env old credits snapshot s = .ok (next, result)) :
    next.invoices = (saveInvoice s (toppedInvoice env old snapshot)).invoices ∧
      next.reversals = s.reversals ∧ Backed next (toppedInvoice env old snapshot) ∧
      Grows (fun row => Plain row ∨ row.idempotencyKey = topupKey old.yookassaPaymentId)
        s.credits next.credits := by
  obtain ⟨_, _, topped, made⟩ := fulfilTopup_ok gave
  have same := toppedInvoice_same env old snapshot
  obtain ⟨read, _⟩ := aiEntitlementFromInvoice_some entitled
  have positive := snapshotCredits_pos read
  have unpaid : old.paidAt = none ∧ requestedUnits s old = 0 := by
    simp only [awaitsOutcome, isUnsettledCheckoutManual, blocksSubscriptionCheckout, Bool.or_eq_true,
      Bool.and_eq_true, beq_iff_eq, Option.isNone_iff_eq_none, Bool.not_eq_true'] at awaits
    rcases awaits with pending | ⟨⟨_, unpaid⟩, clear⟩
    · have unpaid := h.pending pending
      exact ⟨unpaid, by_contra fun asked => (h.settled unpaid asked).2 pending⟩
    · refine ⟨unpaid, by_contra fun asked => ?_⟩
      rw [(h.settled unpaid asked).1] at clear
      cases clear
  have absent := h.keyless unpaid.1
  obtain ⟨middle, row, grows, appended, kind, key, units⟩ := topup_grows absent positive.le topped
  have journal : next.credits.transactions = middle.transactions ++ [row] := by
    rw [made]
    exact appended
  have reversals : next.reversals = s.reversals := by rw [made, saveInvoice]
  refine ⟨by rw [made], reversals, ?_, ?_⟩
  · refine .of_paid (by simp [toppedInvoice, paidInvoice]) (by simp [toppedInvoice, paidInvoice])
      h.refunded ?_ ?_
    · rw [reversals]
      exact h.rows
    · refine ⟨snapshot, credits, rfl, by rw [snapshotCredits_same same, read], ?_, ?_⟩
      · rw [toppedUnits_payment same.paymentId, toppedUnits_topup grows journal kind key,
          toppedUnits_keyless absent, units, zero_add]
      · have zero : requestedUnits next (toppedInvoice env old snapshot) = 0 := by
          rw [requestedUnits, reversals]
          exact unpaid.2
        rw [zero]
        exact storedUnits_nonneg positive.le
  · exact (grows.mono fun _ plain => .inl plain).trans (.of_row journal (.inr key))

theorem Reworded.backed {new : Invoice} (reworded : Reworded old new) (spares : Spares s next old)
    (h : Backed s old) : Backed next new :=
  h.spare spares reworded.toSameInvoice reworded.paidAt reworded.entitlementSnapshot
    (by rw [reworded.refundedAmount]; exact h.refunded) reworded.status reworded.refundReview

theorem BillingStore.next_reversalsBacked (s : BillingStore) (e : BillingEvent) (h : s.ReversalsBacked)
    (safe : ReversalSafe s e) : (s.next e).ReversalsBacked := by
  generalize performed : s.next e = next
  have effect : Effect s e next := performed ▸ next_effect s e
  clear performed
  cases effect with
  | unchanged same => rwa [same]
  | foreign reversal unused elsewhere made =>
    have reversals : next.reversals = s.reversals ++ [reversal] := by rw [made]
    have credits : next.credits.transactions = s.credits.transactions := by rw [made]
    have invoices : next.invoices = s.invoices := by rw [made]
    refine ⟨by rw [invoices]; exact h.keys, by rw [invoices]; exact h.payments,
      h.linked.grow [reversal] reversals (by simpa using unused) (.of_same credits), ?_⟩
    intro i member topup
    rw [invoices] at member
    have kept := h.backed i member topup
    refine kept.spare (.of_growth [reversal] reversals ?_ (.of_same credits)) ⟨rfl, rfl, rfl, rfl, rfl⟩
      rfl rfl kept.refunded (fun pending => pending) (fun marked => marked)
    intro r only belongs
    rw [List.mem_singleton.mp only] at belongs
    exact absurd belongs.symm (elsewhere i member)
  | saved old _ found reworded made =>
    have reversals : next.reversals = s.reversals ++ [] := by rw [made, saveInvoice, List.append_nil]
    have credits : next.credits.transactions = s.credits.transactions := by rw [made, saveInvoice]
    have spares (i : Invoice) : Spares s next i := .of_growth [] reversals (by simp) (.of_same credits)
    exact h.rewrite found reworded.toSameInvoice (by rw [made])
      (h.linked.grow [] reversals (by simp) (.of_same credits)) (fun i _ _ => spares i)
      fun _ backed => reworded.backed (spares old) backed
  | kept _ old _ _ reversal refunded found noticed bare fits made =>
    have reversals : next.reversals = s.reversals ++ [reversal] := by rw [made, addReversal]
    have credits : next.credits.transactions = s.credits.transactions := by rw [made, addReversal, saveInvoice]
    have unused : findReversal s reversal.providerReference = none := by
      rw [bare.reference]
      exact noticed.unused
    have spares (i : Invoice) : Spares s next i := by
      refine .of_growth [reversal] reversals ?_ (.of_same credits)
      intro r only _
      rw [List.mem_singleton.mp only]
      exact ⟨bare.requested, bare.reversed⟩
    have same : SameInvoice old (quarantined { old with refundedAmount := refunded }) :=
      ⟨rfl, rfl, rfl, rfl, rfl⟩
    refine h.rewrite found same (by rw [made, addReversal])
      (h.linked.grow [reversal] reversals (by simpa using unused) (.of_same credits)) (fun i _ _ => spares i) ?_
    intro _ backed
    refine backed.spare (spares old) same rfl rfl ?_ (by simp [quarantined]) (fun _ => rfl)
    rcases fits with unchanged | stored
    · show 0 ≤ refunded.units
      rw [unchanged]
      exact backed.refunded
    · exact refunded_units_nonneg backed.refunded (parseAmount_pos noticed.amount) stored
  | taken env old notice amount credits snapshot refunded reversal result event found noticed accepts topup
      entitled fits bare took =>
    have member := (getInvoice_some found).1
    obtain ⟨new, r, reversed, took, refundedNow, frozen, stores, widths⟩ :=
      reverseTopup_reversed h.linked noticed.unused bare rfl took
    refine h.rewrite member took.same took.invoices took.linked ?_ ?_
    · intro i _ elsewhere
      refine .of_growth [r] took.reversals ?_ (took.growth _)
      intro r' only belongs
      rw [List.mem_singleton.mp only, took.invoice] at belongs
      exact absurd belongs.symm elsewhere
    · intro _ backed
      have room : old.refundedAmount.value + amount ≤ old.amount.value := by
        have remaining := accepts.remaining
        linarith
      have worth : 0 < old.amount.value := by
        have before := (Numeric.units_nonneg_iff old.refundedAmount).mpr backed.refunded
        have positive := parseAmount_pos noticed.amount
        linarith
      apply took.backed backed entitled frozen
      · rw [refundedNow]
        exact refunded_units_nonneg backed.refunded (parseAmount_pos noticed.amount) fits
      · intro unpaid
        by_contra some'
        rcases took.wallet with ⟨w, found', amount'⟩ | nothing
        · rw [event] at safe
          refine safe old found amount credits refunded w ⟨unpaid, topup, noticed, accepts, fits,
            by rw [entitled]; rfl, found', widths, stores, ?_⟩
          rwa [← amount']
        · rw [nothing] at some'
          exact some' (by simp [storedUnits])
      · intro covered
        obtain ⟨read, _⟩ := aiEntitlementFromInvoice_some entitled
        exact requested_le backed.requested_nonneg covered
          (creditTarget_le (snapshotCredits_pos read).le (refunded_le room fits) worth)
  | topped env old _ snapshot _ found awaits payment topup entitled gave =>
    obtain ⟨invoices, reversals, backed, grows⟩ :=
      fulfilTopup_backed (h.backed old found topup) awaits entitled gave
    have same : next.reversals = s.reversals ++ [] := by rw [reversals, List.append_nil]
    refine h.rewrite found (toppedInvoice_same env old snapshot) invoices ?_ ?_ fun _ _ => backed
    · refine h.linked.grow [] same (by simp) (grows.mono ?_)
      rintro row (plain | key) kind reference clash
      · exact plain.reversal kind reference clash
      · have first := (initial_reversal kind reference).1
        rw [← clash, key, initial_topupKey] at first
        exact first rfl
    · intro i member elsewhere
      refine .of_growth [] same (by simp) (grows.mono ?_)
      rintro row (plain | key) clash
      · exact plain.topup _ clash
      · have payments := topupKey_injective (key.symm.trans clash)
        exact elsewhere (h.payments old found i member payments payment).symm
  | extended env old sub purchase _ found _ kind _ gave =>
    obtain ⟨extended, _, _, _, _, made, journal⟩ := fulfilSubscription_ok gave
    obtain ⟨same, _, _⟩ := subscribedInvoice_paid env old sub purchase
    have reversals : next.reversals = s.reversals ++ [] := by
      rw [made, List.append_nil]
      rfl
    have grows : Grows Plain s.credits next.credits := by
      rw [made]
      rcases journal with idle | ⟨_, granted⟩
      · exact .of_same (by rw [idle])
      · exact grantIncluded_grows (initial_append (initial_append (initial_append (by decide) _) _) _) granted
    refine h.rewrite found same (by rw [made]) ?_ ?_ ?_
    · exact h.linked.grow [] reversals (by simp) (grows.mono fun _ plain => plain.reversal)
    · intro i _ _
      exact .of_growth [] reversals (by simp) (grows.mono fun _ plain => plain.topup _)
    · intro topup _
      rw [kind] at topup
      cases topup

end Steps

def creditsReversed (s : BillingStore) (i : Invoice) : ℚ :=
  ((s.reversals.filter fun r => r.invoice = i.pk).map fun r => r.creditsReversed.value).sum

def creditsTopped (s : BillingStore) (i : Invoice) : ℚ :=
  ((s.credits.transactions.filter fun row =>
    row.kind = .topup ∧ row.idempotencyKey = topupKey i.yookassaPaymentId).map fun row => row.amount.value).sum

theorem sum_values {A : Type} (credits : A → Credits) (rows : List A) :
    (rows.map fun row => (credits row).value).sum =
      ((rows.map fun row => (credits row).units).sum : ℤ) / 10 ^ 4 := by
  induction rows with
  | nil => simp
  | cons _ _ ih =>
    rw [List.map_cons, List.sum_cons, ih, List.map_cons, List.sum_cons, Numeric.value]
    push_cast
    ring

theorem Backed.reversed_le_topped {s : BillingStore} {i : Invoice} (h : Backed s i) :
    creditsReversed s i ≤ creditsTopped s i := by
  rw [creditsReversed, sum_values, creditsTopped, sum_values]
  apply div_le_div_of_nonneg_right _ (by positivity)
  rw [Int.cast_le]
  change _ ≤ toppedUnits s i
  cases paid : i.paidAt with
  | none =>
    rw [toppedUnits_keyless (h.keyless paid)]
    apply le_of_eq
    apply List.sum_eq_zero
    intro units member
    obtain ⟨r, kept, rfl⟩ := List.mem_map.mp member
    obtain ⟨stored, mine⟩ := List.mem_filter.mp kept
    exact h.untouched paid r stored (of_decide_eq_true mine)
  | some =>
    obtain ⟨_, _, _, _, granted, bounded⟩ := h.covered (by rw [paid]; rfl)
    refine le_trans ?_ (bounded.trans granted)
    apply List.sum_le_sum
    intro r kept
    obtain ⟨stored, mine⟩ := List.mem_filter.mp kept
    exact (h.rows r stored (of_decide_eq_true mine)).2

/-- Invoices before any payment or reversal, with the journal rows that other operations left. -/
structure BillingStore.Unbilled (s : BillingStore) : Prop where
  keys : (s.invoices.map Invoice.pk).Nodup
  payments : ∀ i ∈ s.invoices, ∀ j ∈ s.invoices,
    i.yookassaPaymentId = j.yookassaPaymentId → i.yookassaPaymentId ≠ "" → i.pk = j.pk
  unpaid : ∀ i ∈ s.invoices, i.paidAt = none ∧ i.refundedAmount = 0 ∧
    ¬ hasKey s.credits (topupKey i.yookassaPaymentId)
  reversals : ∀ r ∈ s.reversals, ∀ i ∈ s.invoices, r.invoice ≠ i.pk
  journal : ∀ row ∈ s.credits.transactions, ∀ kind reference,
    row.idempotencyKey ≠ reversalPrefix kind ++ reference

theorem BillingStore.Unbilled.backed {s : BillingStore} (h : s.Unbilled) : s.ReversalsBacked where
  keys := h.keys
  payments := h.payments
  linked :=
    ⟨fun row member kind reference clash => absurd clash (h.journal row member kind reference),
      fun _ _ row member kind clash => absurd clash (h.journal row member kind _)⟩
  backed i member _ := by
    obtain ⟨unpaid, refunded, keyless⟩ := h.unpaid i member
    have none' (r : PaymentReversal) (stored : r ∈ s.reversals) (mine : r.invoice = i.pk) : False :=
      h.reversals r stored i member mine
    refine ⟨fun _ => unpaid, by rw [refunded]; rfl, fun r stored mine => (none' r stored mine).elim,
      fun _ => keyless, fun _ r stored mine => (none' r stored mine).elim, ?_, ?_⟩
    · intro _ asked
      refine absurd ?_ asked
      rw [requestedUnits, List.filter_eq_nil_iff.mpr]
      · rfl
      · intro r stored
        simpa using none' r stored
    · intro paid
      rw [unpaid] at paid
      cases paid

/-- In a run without a reversal that takes credits for an unpaid invoice, the reversals of a top-up
invoice take back at most what its payment topped up, and an unpaid invoice takes nothing. -/
theorem reversed_within_topup_of_safe_run (s : BillingStore) (unbilled : s.Unbilled) (events : List BillingEvent)
    (safe : Meets BillingStore.next ReversalSafe s events) :
    let reached := run BillingStore.next s events
    ∀ i ∈ reached.invoices, i.purchaseType = .aiTopup →
      creditsReversed reached i ≤ creditsTopped reached i ∧
        (i.paidAt = none → ∀ r ∈ reached.reversals, r.invoice = i.pk → r.creditsReversed = 0 ∧
          ∀ row ∈ reached.credits.transactions, ∀ kind,
            row.idempotencyKey = reversalPrefix kind ++ r.providerReference → row.amount = 0) := by
  intro reached i member topup
  have kept : reached.ReversalsBacked :=
    run_invariant BillingStore.next BillingStore.next_reversalsBacked unbilled.backed safe
  have backed := kept.backed i member topup
  refine ⟨backed.reversed_le_topped, ?_⟩
  intro unpaid r stored mine
  have nothing := backed.untouched unpaid r stored mine
  refine ⟨Numeric.ext nothing, ?_⟩
  intro row present kind key
  apply Numeric.ext
  rw [kept.linked.taken r stored row present kind key, nothing]
  rfl

section Runs

def twoTopups : BillingStore := billingStore [topupInvoice 1 "pay-1", topupInvoice 2 "pay-2"]

theorem twoTopups_unbilled : twoTopups.Unbilled where
  keys := by decide
  payments := by decide
  unpaid := by decide +kernel
  reversals := by decide
  journal row member := by cases member

def refundNotice : ReversalNotice := ⟨"refund-1", "pay-1", some 100, "RUB", .refund⟩

/-- The other top-up is paid, this one goes to an operator unpaid, and its payment is returned. -/
def refundOfUnpaid : List BillingEvent :=
  [.paymentSuccess billingEnv 2 "pay-2" (some 100) "RUB", .manualReview 1 "operator" false,
    .reversal billingEnv 1 refundNotice]

theorem refund_of_unpaid_takes_credits :
    ¬ ∀ s : BillingStore, s.Unbilled → ∀ events, ∀ i ∈ (run BillingStore.next s events).invoices,
      i.purchaseType = .aiTopup →
        creditsReversed (run BillingStore.next s events) i ≤ creditsTopped (run BillingStore.next s events) i := by
  intro always
  have broken : ¬ ∀ i ∈ (run BillingStore.next twoTopups refundOfUnpaid).invoices,
      i.purchaseType = .aiTopup →
        creditsReversed (run BillingStore.next twoTopups refundOfUnpaid) i ≤
          creditsTopped (run BillingStore.next twoTopups refundOfUnpaid) i := by
    decide +kernel
  exact broken (always twoTopups twoTopups_unbilled refundOfUnpaid)

def refundOfPaid : List BillingEvent :=
  [.paymentSuccess billingEnv 1 "pay-1" (some 100) "RUB", .manualReview 1 "operator" false,
    .reversal billingEnv 1 refundNotice]

theorem refundOfPaid_safe : Meets BillingStore.next ReversalSafe twoTopups refundOfPaid := by
  refine ⟨trivial, trivial, ?_, trivial⟩
  intro old found amount credits refunded w takes
  have paid : ∀ i ∈ getInvoice (run BillingStore.next twoTopups
      [.paymentSuccess billingEnv 1 "pay-1" (some 100) "RUB", .manualReview 1 "operator" false]) 1,
      i.paidAt ≠ none := by
    decide +kernel
  exact paid old found takes.unpaid

theorem reversed_within_topup_refundOfPaid :
    ∃ i ∈ (run BillingStore.next twoTopups refundOfPaid).invoices,
      creditsReversed (run BillingStore.next twoTopups refundOfPaid) i = 50 ∧
        creditsReversed (run BillingStore.next twoTopups refundOfPaid) i ≤
          creditsTopped (run BillingStore.next twoTopups refundOfPaid) i := by
  have returned : ∃ i ∈ (run BillingStore.next twoTopups refundOfPaid).invoices,
      i.purchaseType = .aiTopup ∧ creditsReversed (run BillingStore.next twoTopups refundOfPaid) i = 50 := by
    decide +kernel
  obtain ⟨i, member, topup, all⟩ := returned
  have within := reversed_within_topup_of_safe_run twoTopups twoTopups_unbilled refundOfPaid refundOfPaid_safe
  exact ⟨i, member, all, (within i member topup).1⟩

end Runs

end MapBackend.Billing
