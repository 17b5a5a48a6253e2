import MapBackend.Billing.AIWalletEffects
import MapBackend.Library.Runs

/-!
Runs of the wallet service of one tenant.
-/

namespace MapBackend.Billing
open MapBackend.Library AIWalletService

structure WalletRun where
  store : WalletStore
  issued : List AIReservation
  held : List AIReservation

def WalletRun.start : WalletRun := { store := { wallet := none, transactions := [] }, issued := [], held := [] }

inductive WalletAction where
  | ensureWallet (env : WalletEnv) (tenant : Tenant)
  | reserve (env : WalletEnv) (tenant : Tenant) (amount : ℚ) (key : Option String)
  | release (reservation : AIReservation)
  | settle (reservation : AIReservation) (actualAmount : ℚ)
  | grantIncluded (env : WalletEnv) (tenant : Tenant) (amount : Option ℚ)
      (periodEnd : Option CivilDate) (idempotencyKey : String)
  | syncIncludedLimit (env : WalletEnv) (tenant : Tenant)
  | topup (env : WalletEnv) (tenant : Tenant) (amount : ℚ) (idempotencyKey reference : String)
  | reversePurchased (env : WalletEnv) (tenant : Tenant) (amount : ℚ)
      (idempotencyKey reference : String) (kind : TransactionKind)

def WalletRun.give {R : Type} (s : WalletRun) (reservation : AIReservation)
    (outcome : Except WalletError (WalletStore × R)) : WalletRun :=
  match outcome with
  | .ok (store, _) => { s with store, held := s.held.erase reservation }
  | .error _ => s

def WalletRun.next (s : WalletRun) : WalletAction → WalletRun
  | .ensureWallet env tenant => { s with store := commit s.store (ensureWallet env tenant s.store) }
  | .reserve env tenant amount key =>
    match reserve env tenant amount key s.store with
    | .ok (store, receipt) => { store, issued := receipt :: s.issued, held := receipt :: s.held }
    | .error _ => s
  | .release reservation =>
    if reservation ∈ s.issued then s.give reservation (release reservation s.store) else s
  | .settle reservation actualAmount =>
    if reservation ∈ s.issued then s.give reservation (settle reservation actualAmount s.store) else s
  | .grantIncluded env tenant amount periodEnd key =>
    { s with store := commit s.store (grantIncluded env tenant amount periodEnd key s.store) }
  | .syncIncludedLimit env tenant =>
    { s with store := commit s.store (syncIncludedLimit env tenant s.store) }
  | .topup env tenant amount key reference =>
    { s with store := commit s.store (topup env tenant amount key reference s.store) }
  | .reversePurchased env tenant amount key reference kind =>
    { s with store := commit s.store (reversePurchased env tenant amount key reference kind s.store) }

/-- The surroundings of concrete runs: a UTC calendar and a tenant without a plan. -/
def utcZone : Zone :=
  { endOfDay := fun day => day.index * 86400000000
    localdate := fun _ => ⟨2026, 1, 1, by decide⟩
    isoformat := toString }

def walletEnv (uuid : String) : WalletEnv := { zone := utcZone, now := 0, walletPk := 1, uuid }

def bareTenant : Tenant := { pk := 7, aiCreditsUsed := 0, aiCreditLimitOverride := none, subscription := none }

def WalletRun.Receipts (s : WalletRun) : Prop :=
  ∀ reservation ∈ s.issued, 0 ≤ reservation.amount ∧ reservation.unlimited = false

theorem WalletRun.give_issued {R : Type} (s : WalletRun) (reservation : AIReservation)
    (outcome : Except WalletError (WalletStore × R)) : (s.give reservation outcome).issued = s.issued := by
  cases outcome <;> rfl

theorem WalletRun.give_store {R : Type} (s : WalletRun) (reservation : AIReservation)
    (outcome : Except WalletError (WalletStore × R)) :
    (s.give reservation outcome).store = commit s.store outcome := by
  cases outcome <;> rfl

theorem WalletRun.next_receipts (s : WalletRun) (a : WalletAction) (receipts : s.Receipts) :
    (s.next a).Receipts := by
  cases a with
  | reserve env tenant amount key =>
    simp only [next]
    cases h : AIWalletService.reserve env tenant amount key s.store with
    | error => exact receipts
    | ok =>
      intro reservation member
      rcases List.mem_cons.mp member with rfl | old
      · rw [(reserve_ok h).1]
        exact ⟨le_max_left _ _, rfl⟩
      · exact receipts reservation old
  | release =>
    simp only [next]
    split
    · simpa only [Receipts, give_issued] using receipts
    · exact receipts
  | settle =>
    simp only [next]
    split
    · simpa only [Receipts, give_issued] using receipts
    · exact receipts
  | _ => exact receipts

structure AIWallet.Nonneg (w : AIWallet) : Prop where
  included : 0 ≤ w.includedBalance.units
  purchased : 0 ≤ w.purchasedBalance.units
  reserved : 0 ≤ w.reservedBalance.units

def WalletStore.Nonneg (s : WalletStore) : Prop := ∀ w, s.wallet = some w → w.Nonneg

section Amounts

variable {w : AIWallet} {r : AIReservation} {a : ℚ}

theorem AIWallet.Nonneg.values (h : w.Nonneg) :
    0 ≤ w.includedBalance.value ∧ 0 ≤ w.purchasedBalance.value ∧ 0 ≤ w.reservedBalance.value :=
  ⟨(Numeric.units_nonneg_iff _).mpr h.included, (Numeric.units_nonneg_iff _).mpr h.purchased,
    (Numeric.units_nonneg_iff _).mpr h.reserved⟩

theorem settledReserve_nonneg : 0 ≤ settledReserve w r := le_max_left _ _

theorem chargedAmount_nonneg : 0 ≤ chargedAmount w r a :=
  le_min (le_max_left _ _) (le_max_left _ _)

theorem chargedAmount_le (h : w.Nonneg) :
    chargedAmount w r a ≤ w.includedBalance.value + w.purchasedBalance.value := by
  obtain ⟨_, _, _⟩ := h.values
  refine (min_le_right _ _).trans (max_le (by linarith) ?_)
  have := settledReserve_nonneg (w := w) (r := r)
  linarith

theorem chargedIncluded_nonneg (h : w.Nonneg) : 0 ≤ chargedIncluded w r a :=
  le_min h.values.1 chargedAmount_nonneg

theorem chargedIncluded_le : chargedIncluded w r a ≤ w.includedBalance.value := min_le_left _ _

theorem chargedPurchased_nonneg : 0 ≤ chargedPurchased w r a := by
  have := min_le_right w.includedBalance.value (chargedAmount w r a)
  simp only [chargedPurchased, chargedIncluded]
  linarith

theorem chargedPurchased_le (h : w.Nonneg) : chargedPurchased w r a ≤ w.purchasedBalance.value := by
  have total := chargedAmount_le (r := r) (a := a) h
  have purchased := h.values.2.1
  simp only [chargedPurchased, chargedIncluded]
  rcases min_cases w.includedBalance.value (chargedAmount w r a) with ⟨same, _⟩ | ⟨same, _⟩
  · rw [same]
    linarith
  · rw [same]
    linarith

theorem reversible_le (h : w.Nonneg) : reversible w ≤ w.purchasedBalance.value := by
  have guard := le_max_left (0 : ℚ) (w.reservedBalance.value - w.includedBalance.value)
  exact max_le h.values.2.1 (by linarith)

theorem reversedAmount_nonneg : 0 ≤ reversedAmount w a := le_min (le_max_left _ _) (le_max_left _ _)

theorem reversedAmount_le (h : w.Nonneg) : reversedAmount w a ≤ w.purchasedBalance.value :=
  (min_le_right _ _).trans (reversible_le h)

theorem released_le : released w r ≤ w.reservedBalance.value := min_le_left _ _

theorem released_nonneg (h : w.Nonneg) (nonneg : 0 ≤ r.amount) : 0 ≤ released w r :=
  le_min h.values.2.2 nonneg

end Amounts

section Nonneg

variable {env : WalletEnv} {tenant : Tenant} {s next : WalletStore}

theorem ensureWallet_nonneg {w : AIWallet} (h : s.Nonneg)
    (step : ensureWallet env tenant s = .ok (next, w)) : w.Nonneg := by
  obtain ⟨_, ⟨found, _⟩ | ⟨_, fresh, _⟩⟩ := ensureWallet_ok step
  · exact h w found
  · exact ⟨Numeric.store_nonneg (le_max_left _ _) fresh.included, by simp [fresh.purchased],
      by simp [fresh.reserved]⟩

theorem ensureWallet_store_nonneg {w : AIWallet} (h : s.Nonneg)
    (step : ensureWallet env tenant s = .ok (next, w)) : next.Nonneg := by
  intro w' found
  cases (ensureWallet_ok step).1.symm.trans found
  exact ensureWallet_nonneg h step

theorem expireIncludedIfNeeded_nonneg {before after : AIWallet} (h : before.Nonneg)
    (step : expireIncludedIfNeeded env s before = .ok (next, after)) : after.Nonneg := by
  obtain ⟨_, _, rfl⟩ | ⟨_, rfl, _⟩ := expireIncludedIfNeeded_ok step
  · exact h
  · exact ⟨by simp, h.purchased, h.reserved⟩

variable {amount : ℚ}

theorem reserve_nonneg {key : Option String} {receipt : AIReservation} (h : s.Nonneg)
    (step : reserve env tenant amount key s = .ok (next, receipt)) : next.Nonneg := by
  obtain ⟨_, _, _, _, _, ensured, expired, _, _, _, fits, _, same, _⟩ := reserve_ok step
  have base := expireIncludedIfNeeded_nonneg (ensureWallet_nonneg h ensured) expired
  intro w found
  cases same.symm.trans found
  have nonneg := le_max_left 0 amount
  exact ⟨base.included, base.purchased,
    Numeric.store_nonneg (add_nonneg base.values.2.2 nonneg) fits⟩

theorem release_nonneg {reservation : AIReservation} (h : s.Nonneg)
    (limited : reservation.unlimited = false) (step : release reservation s = .ok (next, ())) :
    next.Nonneg := by
  obtain ⟨w₀, found₀, _, fits, same, _⟩ := release_ok limited step
  intro w found
  cases same.symm.trans found
  exact ⟨(h w₀ found₀).included, (h w₀ found₀).purchased,
    Numeric.store_nonneg (sub_nonneg.mpr released_le) fits⟩

theorem settle_nonneg {reservation : AIReservation} {actualAmount result : ℚ} (h : s.Nonneg)
    (limited : reservation.unlimited = false)
    (step : settle reservation actualAmount s = .ok (next, result)) : next.Nonneg := by
  by_cases used : hasKey s (settledKey reservation)
  · rw [(settle_again limited used step).1]
    exact h
  · obtain ⟨w₀, found₀, _, included, purchased, reserved, s₀, s₁, s₂, includedFits, purchasedFits,
      reservedFits, rfl, first, second, same, _⟩ := settle_first limited used step
    intro w found
    rw [same, (createCharge_ok second).1, (createCharge_ok first).1] at found
    cases found
    exact ⟨Numeric.store_nonneg (sub_nonneg.mpr chargedIncluded_le) includedFits,
      Numeric.store_nonneg (sub_nonneg.mpr (chargedPurchased_le (h w₀ found₀))) purchasedFits,
      Numeric.store_nonneg settledReserve_nonneg reservedFits⟩

theorem grantIncluded_nonneg {amount : Option ℚ} {periodEnd : Option CivilDate} {key : String}
    (h : s.Nonneg) (step : grantIncluded env tenant amount periodEnd key s = .ok (next, ())) :
    next.Nonneg := by
  obtain ⟨_, _, ensured, ⟨_, rfl⟩ | ⟨_, _, _, _, fits, same, _⟩⟩ := grantIncluded_ok step
  · exact ensureWallet_store_nonneg h ensured
  · have base := ensureWallet_nonneg h ensured
    intro w found
    cases same.symm.trans found
    exact ⟨Numeric.store_nonneg (le_max_left _ _) fits, base.purchased, base.reserved⟩

theorem syncIncludedLimit_nonneg (h : s.Nonneg)
    (step : syncIncludedLimit env tenant s = .ok (next, ())) : next.Nonneg := by
  obtain ⟨_, w₁, ensured, _, _, _, fits, same, _⟩ := syncIncludedLimit_ok step
  have base := ensureWallet_nonneg h ensured
  intro w found
  cases same.symm.trans found
  have nonneg : 0 ≤ syncedBalance w₁ (effectiveLimit tenant) :=
    le_max_of_le_left (le_max_left _ _)
  exact ⟨Numeric.store_nonneg nonneg fits, base.purchased, base.reserved⟩

theorem topup_nonneg {key reference : String} (h : s.Nonneg)
    (step : topup env tenant amount key reference s = .ok (next, ())) : next.Nonneg := by
  obtain ⟨_, _, ensured, ⟨_, rfl⟩ | ⟨_, _, _, fits, _, same, _⟩⟩ := topup_ok step
  · exact ensureWallet_store_nonneg h ensured
  · have base := ensureWallet_nonneg h ensured
    have nonneg := le_max_left 0 amount
    intro w found
    cases same.symm.trans found
    exact ⟨base.included, Numeric.store_nonneg (add_nonneg base.values.2.1 nonneg) fits,
      base.reserved⟩

theorem reversePurchased_nonneg {key reference : String} {kind : TransactionKind}
    {result : ℚ × ℚ} (h : s.Nonneg)
    (step : reversePurchased env tenant amount key reference kind s = .ok (next, result)) :
    next.Nonneg := by
  obtain ⟨s₁, w₁, ensured, ⟨_, rfl⟩ | ⟨_, _, purchased, row, fits, _, same, _⟩⟩ :=
    reversePurchased_ok step
  · exact ensureWallet_store_nonneg h ensured
  · have base := ensureWallet_nonneg h ensured
    intro w found
    cases same.symm.trans found
    exact ⟨base.included, Numeric.store_nonneg (sub_nonneg.mpr (reversedAmount_le base)) fits,
      base.reserved⟩

end Nonneg

end MapBackend.Billing
