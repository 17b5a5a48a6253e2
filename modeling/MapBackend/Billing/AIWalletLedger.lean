import MapBackend.Billing.AIWalletRun

/-!
The journal and the balances.
-/

namespace MapBackend.Billing
open MapBackend.Library AIWalletService

def AIWallet.balance (w : AIWallet) : BalanceType → Credits
  | .included => w.includedBalance
  | .purchased => w.purchasedBalance
  | .reserved => w.reservedBalance

def ledgerSum (rows : List AICreditTransaction) (b : BalanceType) : ℚ :=
  ((rows.filter fun row => row.balanceType = b).map fun row => row.amount.value).sum

def LedgerMatches (s : WalletStore) : Prop :=
  ∀ w ∈ s.wallet,
    w.includedBalance.value = ledgerSum s.transactions .included ∧
      w.purchasedBalance.value = ledgerSum s.transactions .purchased ∧
      w.reservedBalance.value = ledgerSum s.transactions .reserved

instance (s : WalletStore) : Decidable (LedgerMatches s) := inferInstanceAs (Decidable (∀ w ∈ s.wallet, _))

def ledgerUnits (rows : List AICreditTransaction) (b : BalanceType) : ℤ :=
  ((rows.filter fun row => row.balanceType = b).map fun row => row.amount.units).sum

@[simp] theorem ledgerUnits_nil (b : BalanceType) : ledgerUnits [] b = 0 := rfl

@[simp] theorem ledgerUnits_append (rows more : List AICreditTransaction) (b : BalanceType) :
    ledgerUnits (rows ++ more) b = ledgerUnits rows b + ledgerUnits more b := by
  simp [ledgerUnits]

@[simp] theorem ledgerUnits_cons (row : AICreditTransaction) (rest : List AICreditTransaction)
    (b : BalanceType) :
    ledgerUnits (row :: rest) b = (if row.balanceType = b then row.amount.units else 0) +
      ledgerUnits rest b := by
  by_cases h : row.balanceType = b <;> simp [ledgerUnits, h]

theorem ledgerSum_units (rows : List AICreditTransaction) (b : BalanceType) :
    ledgerSum rows b = ledgerUnits rows b / 10 ^ 4 := by
  induction rows with
  | nil => simp [ledgerSum]
  | cons row _ ih =>
    rw [ledgerUnits_cons]
    by_cases h : row.balanceType = b
    · simp only [ledgerSum, List.filter_cons, h, decide_true, if_true, List.map_cons,
        List.sum_cons] at ih ⊢
      rw [ih, Numeric.value]
      push_cast
      ring
    · simp only [ledgerSum, List.filter_cons, h, decide_false, if_false, Bool.false_eq_true] at ih ⊢
      rw [ih]
      push_cast
      ring

structure LedgerExact (s : WalletStore) : Prop where
  balances : ∀ w, s.wallet = some w → ∀ b, (w.balance b).units = ledgerUnits s.transactions b
  bare : s.wallet = none → s.transactions = []

variable {s : WalletStore}

theorem LedgerExact.matches (h : LedgerExact s) : LedgerMatches s := by
  intro w found
  simp only [ledgerSum_units, ← h.balances w found, AIWallet.balance]
  exact ⟨rfl, rfl, rfl⟩

theorem ledgerExact_of_some {w : AIWallet} (found : s.wallet = some w)
    (included : w.includedBalance.units = ledgerUnits s.transactions .included)
    (purchased : w.purchasedBalance.units = ledgerUnits s.transactions .purchased)
    (reserved : w.reservedBalance.units = ledgerUnits s.transactions .reserved) : LedgerExact s := by
  refine ⟨?_, by simp [found]⟩
  intro w' found' b
  cases found.symm.trans found'
  cases b with
  | included => exact included
  | purchased => exact purchased
  | reserved => exact reserved

theorem LedgerExact.parts (h : LedgerExact s) {w : AIWallet}
    (found : s.wallet = some w) :
    w.includedBalance.units = ledgerUnits s.transactions .included ∧
      w.purchasedBalance.units = ledgerUnits s.transactions .purchased ∧
      w.reservedBalance.units = ledgerUnits s.transactions .reserved :=
  ⟨h.balances w found .included, h.balances w found .purchased, h.balances w found .reserved⟩

section Operations

variable {env : WalletEnv} {tenant : Tenant} {s next : WalletStore}

variable {w : AIWallet}

theorem ensureWallet_exact (h : LedgerExact s)
    (step : ensureWallet env tenant s = .ok (next, w)) : LedgerExact next := by
  obtain ⟨found, ⟨_, rfl⟩ | ⟨missing, fresh, rows⟩⟩ := ensureWallet_ok step
  · exact h
  · have bare := h.bare missing
    rcases rows with ⟨empty, rows⟩ | rows
    · refine ledgerExact_of_some found ?_ ?_ ?_
      · simp [rows, bare, empty]
      · simp [rows, bare, fresh.purchased]
      · simp [rows, bare, fresh.reserved]
    · refine ledgerExact_of_some found ?_ ?_ ?_
      · simp [rows, bare]
      · simp [rows, bare, fresh.purchased]
      · simp [rows, bare, fresh.reserved]

theorem expireIncludedIfNeeded_exact {before after : AIWallet} (h : LedgerExact s)
    (found : s.wallet = some before)
    (step : expireIncludedIfNeeded env s before = .ok (next, after)) :
    next.wallet = some after ∧ LedgerExact next := by
  obtain ⟨_, rfl, rfl⟩ | ⟨_, rfl, same, _, units, rows⟩ := expireIncludedIfNeeded_ok step
  · exact ⟨found, h⟩
  · obtain ⟨included, purchased, reserved⟩ := h.parts found
    refine ⟨same, ledgerExact_of_some same ?_ ?_ ?_⟩
    · simp [rows, units, included]
    · simp [rows, purchased]
    · simp [rows, reserved]

variable {amount : ℚ}

theorem reserve_exact {key : Option String} {receipt : AIReservation}
    (nonneg : s.Nonneg) (h : LedgerExact s)
    (step : reserve env tenant amount key s = .ok (next, receipt)) : LedgerExact next := by
  obtain ⟨_, s₁, w₁, s₂, w₂, ensured, expired, _, stored, row, fits, rowFits, same, rows⟩ :=
    reserve_ok step
  obtain ⟨found, exact₂⟩ :=
    expireIncludedIfNeeded_exact (ensureWallet_exact h ensured) (ensureWallet_ok ensured).1 expired
  have base := expireIncludedIfNeeded_nonneg (ensureWallet_nonneg nonneg ensured) expired
  obtain ⟨included, purchased, _⟩ := exact₂.parts found
  have added := Numeric.store_add base.reserved (le_max_left 0 amount) fits
  have journaled := Numeric.store_units rowFits
  refine ledgerExact_of_some same ?_ ?_ ?_
  · simpa [rows] using included
  · simpa [rows] using purchased
  · simp only [rows, ledgerUnits_append, ledgerUnits_cons, ledgerUnits_nil, if_true]
    omega

variable {reservation : AIReservation}

theorem release_exact (nonneg : s.Nonneg) (h : LedgerExact s)
    (positive : 0 ≤ reservation.amount) (limited : reservation.unlimited = false)
    (repeated : hasKey s (releaseKey reservation) → ∀ w ∈ s.wallet,
      released w reservation * 10 ^ 4 ≤ 1 / 2)
    (untied : ¬ hasKey s (releaseKey reservation) → ∀ w ∈ s.wallet,
      ¬ IsTie (released w reservation * 10 ^ 4))
    (step : release reservation s = .ok (next, ())) : LedgerExact next := by
  obtain ⟨w, found, stored, fits, same, outcome⟩ := release_ok limited step
  obtain ⟨included, purchased, _⟩ := h.parts found
  have amount := released_nonneg (nonneg w found) positive
  have covered : released w reservation ≤ w.reservedBalance.value := released_le
  rcases outcome with ⟨used, rows⟩ | ⟨unused, _, rowFits, rows⟩
  · have kept : stored.units = w.reservedBalance.units := by
      rw [Numeric.store_units fits, sub_mul, Numeric.value_scaled]
      refine roundHalfAway_sub_small (Numeric.scaled_nonneg amount) ?_ (repeated used w found)
      rw [← Numeric.value_scaled]
      exact mul_le_mul_of_nonneg_right covered (by positivity)
    refine ledgerExact_of_some same ?_ ?_ ?_
    · simpa [rows] using included
    · simpa [rows] using purchased
    · simp only [rows]
      omega
  · have taken := Numeric.store_sub amount covered (untied unused w found) fits
    have journaled := Numeric.store_neg rowFits
    refine ledgerExact_of_some same ?_ ?_ ?_
    · simpa [rows] using included
    · simpa [rows] using purchased
    · simp only [rows, ledgerUnits_append, ledgerUnits_cons, ledgerUnits_nil, if_true]
      omega

variable {key reference : String}

theorem createCharge_ledger {balanceType b : BalanceType} {charged : ℚ}
    (step : createCharge s balanceType charged key reference = .ok next) :
    ledgerUnits next.transactions b = ledgerUnits s.transactions b -
      if balanceType = b then roundHalfAway (charged * 10 ^ 4) else 0 := by
  obtain ⟨_, ⟨nothing, rows⟩ | ⟨_, _, fits, rows⟩⟩ := createCharge_ok step
  · simp [rows, nothing]
  · have journaled := Numeric.store_neg fits
    by_cases same : balanceType = b
    · simp only [rows, ledgerUnits_append, ledgerUnits_cons, ledgerUnits_nil, same, if_true]
      omega
    · simp [rows, same]

theorem isTie_sub_int {x : ℚ} (n : ℤ) : IsTie (x - n) ↔ IsTie x := by simp [IsTie]

theorem settledReserve_units {stored : Credits}
    (positive : 0 ≤ reservation.amount)
    (covered : roundHalfAway (reservation.amount * 10 ^ 4) ≤ w.reservedBalance.units)
    (untied : ¬ IsTie (reservation.amount * 10 ^ 4))
    (fits : Numeric.store 16 4 (settledReserve w reservation) = some stored) :
    stored.units = w.reservedBalance.units - roundHalfAway (reservation.amount * 10 ^ 4) := by
  rcases le_total reservation.amount w.reservedBalance.value with enough | short
  · rw [settledReserve, max_eq_right (by linarith)] at fits
    exact Numeric.store_sub positive enough untied fits
  · rw [settledReserve, max_eq_left (by linarith)] at fits
    have empty : stored.units = 0 := Numeric.store_whole (u := 0) (by simp) fits
    have least : w.reservedBalance.units ≤ roundHalfAway (reservation.amount * 10 ^ 4) := by
      calc w.reservedBalance.units
          = roundHalfAway (w.reservedBalance.value * 10 ^ 4) := by
            rw [Numeric.value_scaled, roundHalfAway_intCast]
        _ ≤ _ := roundHalfAway_mono (mul_le_mul_of_nonneg_right short (by positivity))
    omega

theorem availableForCharge_untied
    (untied : ¬ IsTie (reservation.amount * 10 ^ 4)) :
    ¬ IsTie (availableForCharge w reservation * 10 ^ 4) := by
  unfold availableForCharge
  rcases max_choice 0 (w.includedBalance.value + w.purchasedBalance.value -
    settledReserve w reservation) with same | same
  · simp [same, IsTie]
  · rw [same, settledReserve]
    rcases max_choice 0 (w.reservedBalance.value - reservation.amount) with none | rest
    · rw [none, sub_zero, add_mul, Numeric.value_scaled, Numeric.value_scaled, IsTie,
        ← Int.cast_add, Int.fract_intCast]
      norm_num
    · have shifted : (w.includedBalance.value + w.purchasedBalance.value -
          (w.reservedBalance.value - reservation.amount)) * 10 ^ 4 =
          reservation.amount * 10 ^ 4 -
            ((w.reservedBalance.units - w.includedBalance.units - w.purchasedBalance.units : ℤ) : ℚ) := by
        push_cast
        rw [← Numeric.value_scaled, ← Numeric.value_scaled, ← Numeric.value_scaled]
        ring
      rw [rest, shifted, isTie_sub_int]
      exact untied

theorem charge_units {actualAmount : ℚ}
    {included purchased : Credits} (nonneg : w.Nonneg)
    (untied : ¬ IsTie (chargedAmount w reservation actualAmount * 10 ^ 4))
    (includedFits : Numeric.store 16 4
      (w.includedBalance.value - chargedIncluded w reservation actualAmount) = some included)
    (purchasedFits : Numeric.store 16 4
      (w.purchasedBalance.value - chargedPurchased w reservation actualAmount) = some purchased) :
    included.units = w.includedBalance.units -
        roundHalfAway (chargedIncluded w reservation actualAmount * 10 ^ 4) ∧
      purchased.units = w.purchasedBalance.units -
        roundHalfAway (chargedPurchased w reservation actualAmount * 10 ^ 4) := by
  have split : ¬ IsTie (chargedIncluded w reservation actualAmount * 10 ^ 4) ∧
      ¬ IsTie (chargedPurchased w reservation actualAmount * 10 ^ 4) := by
    unfold chargedPurchased chargedIncluded
    rcases min_choice w.includedBalance.value (chargedAmount w reservation actualAmount) with same | same
    · rw [same, sub_mul, Numeric.value_scaled, isTie_sub_int]
      exact ⟨by simp [IsTie], untied⟩
    · rw [same, sub_self]
      exact ⟨untied, by simp [IsTie]⟩
  exact ⟨Numeric.store_sub (chargedIncluded_nonneg nonneg) chargedIncluded_le split.1 includedFits,
    Numeric.store_sub chargedPurchased_nonneg (chargedPurchased_le nonneg) split.2 purchasedFits⟩

theorem settle_exact {actualAmount result : ℚ} (nonneg : s.Nonneg)
    (h : LedgerExact s) (positive : 0 ≤ reservation.amount) (limited : reservation.unlimited = false)
    (untied : ¬ hasKey s (settledKey reservation) → ∀ w ∈ s.wallet,
      roundHalfAway (reservation.amount * 10 ^ 4) ≤ w.reservedBalance.units ∧
        ¬ IsTie (reservation.amount * 10 ^ 4) ∧
        (¬ IsTie (max 0 actualAmount * 10 ^ 4) ∨ availableForCharge w reservation ≤ max 0 actualAmount))
    (step : settle reservation actualAmount s = .ok (next, result)) : LedgerExact next := by
  by_cases used : hasKey s (settledKey reservation)
  · rw [(settle_again limited used step).1]
    exact h
  obtain ⟨w, found, _, included, purchased, reserved, s₀, s₁, s₂, includedFits, purchasedFits,
    reservedFits, rfl, first, second, same, row, rowFits, rows⟩ := settle_first limited used step
  obtain ⟨covered, whole, charge⟩ := untied used w found
  have base := nonneg w found
  have charged : ¬ IsTie (chargedAmount w reservation actualAmount * 10 ^ 4) := by
    unfold chargedAmount
    rcases charge with actual | capped
    · rcases min_choice (max 0 actualAmount) (availableForCharge w reservation) with least | least
      · rwa [least]
      · rw [least]
        exact availableForCharge_untied whole
    · rw [min_eq_right capped]
      exact availableForCharge_untied whole
  obtain ⟨includedUnits, purchasedUnits⟩ := charge_units base charged includedFits purchasedFits
  have reservedUnits := settledReserve_units positive covered whole reservedFits
  have journaled := Numeric.store_neg rowFits
  obtain ⟨oldIncluded, oldPurchased, oldReserved⟩ := h.parts found
  rw [(createCharge_ok second).1, (createCharge_ok first).1] at same
  refine ledgerExact_of_some same ?_ ?_ ?_
  · simp [rows, createCharge_ledger second, createCharge_ledger first, includedUnits, oldIncluded]
  · simp [rows, createCharge_ledger second, createCharge_ledger first, purchasedUnits, oldPurchased]
  · simp [rows, createCharge_ledger second, createCharge_ledger first, reservedUnits, oldReserved,
      journaled, sub_eq_add_neg]

theorem grantIncluded_exact {amount : Option ℚ} {periodEnd : Option CivilDate} {key : String}
    (h : LedgerExact s) (step : grantIncluded env tenant amount periodEnd key s = .ok (next, ())) :
    LedgerExact next := by
  obtain ⟨s₁, w₁, ensured, ⟨_, rfl⟩ | ⟨_, s₂, expired, granted, fits, same, rows⟩⟩ :=
    grantIncluded_ok step
  · exact ensureWallet_exact h ensured
  · obtain ⟨included, purchased, reserved⟩ :=
      (ensureWallet_exact h ensured).parts (ensureWallet_ok ensured).1
    rcases (expireReplaced_ok expired).2 with ⟨empty, lapsed⟩ | ⟨_, units, lapsed⟩
    · refine ledgerExact_of_some same ?_ ?_ ?_
      · simp [rows, lapsed, ← included, empty]
      · simp [rows, lapsed, purchased]
      · simp [rows, lapsed, reserved]
    · refine ledgerExact_of_some same ?_ ?_ ?_
      · simp [rows, lapsed, ← included, units]
      · simp [rows, lapsed, purchased]
      · simp [rows, lapsed, reserved]

theorem syncedBalance_whole (w : AIWallet) (tenant : Tenant) :
    ∃ u : ℤ, syncedBalance w (effectiveLimit tenant) * 10 ^ 4 = u := by
  obtain ⟨limit, same⟩ := effectiveLimit_whole tenant
  refine ⟨max (max 0 (limit * 10 ^ 4 - max 0 (w.includedLimit.units - w.includedBalance.units)))
    (max 0 (w.reservedBalance.units - w.purchasedBalance.units)), ?_⟩
  have scale (x y : ℚ) : max x y * 10 ^ 4 = max (x * 10 ^ 4) (y * 10 ^ 4) :=
    max_mul_of_nonneg x y (by positivity)
  rw [syncedBalance, reservedFromIncluded, same]
  simp only [scale, sub_mul, zero_mul, Numeric.value_scaled]
  push_cast
  rfl

theorem syncIncludedLimit_exact (h : LedgerExact s)
    (step : syncIncludedLimit env tenant s = .ok (next, ())) : LedgerExact next := by
  obtain ⟨_, w₁, ensured, _, _, _, fits, same, outcome⟩ := syncIncludedLimit_ok step
  obtain ⟨included, purchased, reserved⟩ :=
    (ensureWallet_exact h ensured).parts (ensureWallet_ok ensured).1
  obtain ⟨u, whole⟩ := syncedBalance_whole w₁ tenant
  have balanceUnits := Numeric.store_whole whole fits
  rcases outcome with ⟨unchanged, rows⟩ | ⟨row, rowFits, rows⟩
  · have kept : w₁.includedBalance.units = u := by
      rw [unchanged, Numeric.value_scaled] at whole
      exact_mod_cast whole
    refine ledgerExact_of_some same ?_ ?_ ?_
    · simp only [rows]
      omega
    · simpa [rows] using purchased
    · simpa [rows] using reserved
  · have adjusted : row.units = u - w₁.includedBalance.units := by
      refine Numeric.store_whole ?_ rowFits
      rw [sub_mul, whole, Numeric.value_scaled]
      push_cast
      rfl
    refine ledgerExact_of_some same ?_ ?_ ?_
    · simp only [rows, ledgerUnits_append, ledgerUnits_cons, ledgerUnits_nil, if_true]
      omega
    · simpa [rows] using purchased
    · simpa [rows] using reserved

theorem topup_exact (nonneg : s.Nonneg) (h : LedgerExact s)
    (step : topup env tenant amount key reference s = .ok (next, ())) : LedgerExact next := by
  obtain ⟨_, _, ensured, ⟨_, rfl⟩ | ⟨_, _, _, fits, rowFits, same, rows⟩⟩ := topup_ok step
  · exact ensureWallet_exact h ensured
  · obtain ⟨included, purchased, reserved⟩ :=
      (ensureWallet_exact h ensured).parts (ensureWallet_ok ensured).1
    have base := ensureWallet_nonneg nonneg ensured
    have added := Numeric.store_add base.purchased (le_max_left 0 amount) fits
    have journaled := Numeric.store_units rowFits
    refine ledgerExact_of_some same ?_ ?_ ?_
    · simpa [rows] using included
    · simp only [rows, ledgerUnits_append, ledgerUnits_cons, ledgerUnits_nil, if_true]
      omega
    · simpa [rows] using reserved

theorem reversible_whole (w : AIWallet) : ∃ u : ℤ, reversible w * 10 ^ 4 = u := by
  refine ⟨max 0 (w.purchasedBalance.units - max 0 (w.reservedBalance.units - w.includedBalance.units)), ?_⟩
  have scale (x y : ℚ) : max x y * 10 ^ 4 = max (x * 10 ^ 4) (y * 10 ^ 4) :=
    max_mul_of_nonneg x y (by positivity)
  rw [reversible]
  simp only [scale, sub_mul, zero_mul, Numeric.value_scaled]
  push_cast
  rfl

theorem reversedAmount_untied
    (untied : ¬ IsTie (max 0 amount * 10 ^ 4) ∨ reversible w ≤ max 0 amount) :
    ¬ IsTie (reversedAmount w amount * 10 ^ 4) := by
  have whole : ¬ IsTie (reversible w * 10 ^ 4) := by
    obtain ⟨u, same⟩ := reversible_whole w
    simp [same, IsTie]
  rw [reversedAmount]
  rcases untied with requested | capped
  · rcases min_choice (max 0 amount) (reversible w) with least | least
    · rwa [least]
    · rwa [least]
  · rwa [min_eq_right capped]

theorem reversePurchased_exact {kind : TransactionKind}
    {result : ℚ × ℚ} (nonneg : s.Nonneg) (h : LedgerExact s)
    (untied : ¬ hasKey s key → ¬ IsTie (max 0 amount * 10 ^ 4) ∨
      ∀ w ∈ s.wallet, reversible w ≤ max 0 amount)
    (step : reversePurchased env tenant amount key reference kind s = .ok (next, result)) :
    LedgerExact next := by
  obtain ⟨s₁, w₁, ensured, ⟨_, rfl⟩ | ⟨unused, _, stored, row, fits, rowFits, same, rows⟩⟩ :=
    reversePurchased_ok step
  · exact ensureWallet_exact h ensured
  · obtain ⟨included, purchased, reserved⟩ :=
      (ensureWallet_exact h ensured).parts (ensureWallet_ok ensured).1
    have base := ensureWallet_nonneg nonneg ensured
    have charged : ¬ IsTie (reversedAmount w₁ amount * 10 ^ 4) := by
      apply reversedAmount_untied
      obtain ⟨_, ⟨found, rfl⟩ | ⟨_, fresh, _⟩⟩ := ensureWallet_ok ensured
      · exact (untied unused).imp_right fun capped => capped w₁ found
      · right
        have empty : w₁.purchasedBalance.value = 0 := by simp [fresh.purchased]
        exact (reversible_le base).trans (empty.le.trans (le_max_left 0 amount))
    have taken := Numeric.store_sub reversedAmount_nonneg (reversedAmount_le base) charged fits
    have journaled := Numeric.store_neg rowFits
    refine ledgerExact_of_some same ?_ ?_ ?_
    · simpa [rows] using included
    · simp only [rows, ledgerUnits_append, ledgerUnits_cons, ledgerUnits_nil, if_true]
      omega
    · simpa [rows] using reserved

end Operations

/-- The steps after which the journal still matches the balances: a release whose row is not
there yet, or that takes nothing; a first settle of no more than is reserved; and no amount
halfway between two units taken off a balance. -/
def LedgerSafe (s : WalletRun) : WalletAction → Prop
  | .release r =>
    (hasKey s.store (releaseKey r) → ∀ w ∈ s.store.wallet,
      min w.reservedBalance.value r.amount * 10 ^ 4 ≤ 1 / 2) ∧
    (¬ hasKey s.store (releaseKey r) → ∀ w ∈ s.store.wallet,
      ¬ IsTie (min w.reservedBalance.value r.amount * 10 ^ 4))
  | .settle r actualAmount =>
    ¬ hasKey s.store (settledKey r) → ∀ w ∈ s.store.wallet,
      roundHalfAway (r.amount * 10 ^ 4) ≤ w.reservedBalance.units ∧ ¬ IsTie (r.amount * 10 ^ 4) ∧
        (¬ IsTie (max 0 actualAmount * 10 ^ 4) ∨ availableForCharge w r ≤ max 0 actualAmount)
  | .reversePurchased _ _ amount key _ _ =>
    ¬ hasKey s.store key → ¬ IsTie (max 0 amount * 10 ^ 4) ∨
      ∀ w ∈ s.store.wallet, reversible w ≤ max 0 amount
  | _ => True

instance (s : WalletRun) : (a : WalletAction) → Decidable (LedgerSafe s a)
  | .release _ => inferInstanceAs (Decidable (_ ∧ _))
  | .settle _ _ => inferInstanceAs (Decidable (_ → _))
  | .reversePurchased _ _ _ _ _ _ => inferInstanceAs (Decidable (_ → _))
  | .ensureWallet _ _ => .isTrue trivial
  | .reserve _ _ _ _ => .isTrue trivial
  | .grantIncluded _ _ _ _ _ => .isTrue trivial
  | .syncIncludedLimit _ _ => .isTrue trivial
  | .topup _ _ _ _ _ => .isTrue trivial

structure WalletRun.Exact (s : WalletRun) : Prop where
  receipts : s.Receipts
  nonneg : s.store.Nonneg
  exact : LedgerExact s.store

theorem WalletRun.next_exact (s : WalletRun) (a : WalletAction) (h : s.Exact) (safe : LedgerSafe s a) :
    (s.next a).Exact := by
  have kept : (s.next a).store.Nonneg ∧ LedgerExact (s.next a).store := by
    have before : s.store.Nonneg ∧ LedgerExact s.store := ⟨h.nonneg, h.exact⟩
    cases a with
    | ensureWallet =>
      exact commit_preserves (fun store => store.Nonneg ∧ LedgerExact store) _ _ before
        fun _ _ step => ⟨ensureWallet_store_nonneg h.nonneg step, ensureWallet_exact h.exact step⟩
    | reserve env tenant amount key =>
      simp only [next]
      cases step : AIWalletService.reserve env tenant amount key s.store with
      | error => exact before
      | ok => exact ⟨reserve_nonneg h.nonneg step, reserve_exact h.nonneg h.exact step⟩
    | release reservation =>
      simp only [next]
      split
      · next member =>
        obtain ⟨positive, limited⟩ := h.receipts reservation member
        rw [give_store]
        exact commit_preserves (fun store => store.Nonneg ∧ LedgerExact store) _ _ before
          fun _ _ step => ⟨release_nonneg h.nonneg limited step,
            release_exact h.nonneg h.exact positive limited safe.1 safe.2 step⟩
      · exact before
    | settle reservation =>
      simp only [next]
      split
      · next member =>
        obtain ⟨positive, limited⟩ := h.receipts reservation member
        rw [give_store]
        exact commit_preserves (fun store => store.Nonneg ∧ LedgerExact store) _ _ before
          fun _ _ step => ⟨settle_nonneg h.nonneg limited step,
            settle_exact h.nonneg h.exact positive limited safe step⟩
      · exact before
    | grantIncluded =>
      exact commit_preserves (fun store => store.Nonneg ∧ LedgerExact store) _ _ before
        fun _ _ step => ⟨grantIncluded_nonneg h.nonneg step, grantIncluded_exact h.exact step⟩
    | syncIncludedLimit =>
      exact commit_preserves (fun store => store.Nonneg ∧ LedgerExact store) _ _ before
        fun _ _ step => ⟨syncIncludedLimit_nonneg h.nonneg step, syncIncludedLimit_exact h.exact step⟩
    | topup =>
      exact commit_preserves (fun store => store.Nonneg ∧ LedgerExact store) _ _ before
        fun _ _ step => ⟨topup_nonneg h.nonneg step, topup_exact h.nonneg h.exact step⟩
    | reversePurchased =>
      exact commit_preserves (fun store => store.Nonneg ∧ LedgerExact store) _ _ before
        fun _ _ step => ⟨reversePurchased_nonneg h.nonneg step,
          reversePurchased_exact h.nonneg h.exact safe step⟩
  exact ⟨s.next_receipts a h.receipts, kept.1, kept.2⟩

theorem WalletRun.start_exact : WalletRun.start.Exact :=
  ⟨by simp [Receipts, start], by simp [WalletStore.Nonneg, start], ⟨by simp [start], fun _ => rfl⟩⟩

section Runs

def repeatedRelease : List WalletAction :=
  [.topup (walletEnv "") bareTenant 20 "order-1" "", .reserve (walletEnv "") bareTenant 10 (some "a"),
    .reserve (walletEnv "") bareTenant 10 (some "b"), .release { key := "a", amount := 10 },
    .release { key := "a", amount := 10 }]

def orderlyRun : List WalletAction :=
  [.topup (walletEnv "") bareTenant 20 "order-1" "", .reserve (walletEnv "") bareTenant 10 (some "a"),
    .reserve (walletEnv "") bareTenant 10 (some "b"), .release { key := "a", amount := 10 },
    .settle { key := "b", amount := 10 } 4]

end Runs

end MapBackend.Billing
