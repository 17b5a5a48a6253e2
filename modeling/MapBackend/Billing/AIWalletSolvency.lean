import MapBackend.Billing.AIWalletRun
import Mathlib.Algebra.BigOperators.Group.List.Basic
import Mathlib.Algebra.Order.Group.MinMax

/-!
Confirmed reserves.
-/

namespace MapBackend.Billing
open MapBackend.Library AIWalletService

structure AIWallet.Solvent (w : AIWallet) : Prop where
  nonneg : w.Nonneg
  covered : w.reservedBalance.units ≤ w.includedBalance.units + w.purchasedBalance.units

def WalletStore.Solvent (s : WalletStore) : Prop := ∀ w ∈ s.wallet, w.Solvent

instance (w : AIWallet) : Decidable w.Nonneg :=
  decidable_of_iff (0 ≤ w.includedBalance.units ∧ 0 ≤ w.purchasedBalance.units ∧
    0 ≤ w.reservedBalance.units) ⟨fun h => ⟨h.1, h.2.1, h.2.2⟩, fun h => ⟨h.1, h.2, h.3⟩⟩

instance (w : AIWallet) : Decidable w.Solvent :=
  decidable_of_iff (w.Nonneg ∧
    w.reservedBalance.units ≤ w.includedBalance.units + w.purchasedBalance.units)
    ⟨fun h => ⟨h.1, h.2⟩, fun h => ⟨h.1, h.2⟩⟩

instance (s : WalletStore) : Decidable s.Solvent := inferInstanceAs (Decidable (∀ w ∈ s.wallet, _))

variable {s : WalletStore}

theorem WalletStore.Solvent.nonneg (h : s.Solvent) : s.Nonneg :=
  fun w found => (h w found).nonneg

def storedUnits (amount : ℚ) : ℤ := roundHalfAway (amount * 10 ^ 4)

theorem storedUnits_nonneg {amount : ℚ} (nonneg : 0 ≤ amount) : 0 ≤ storedUnits amount :=
  roundHalfAway_nonneg (Numeric.scaled_nonneg nonneg)

theorem storedUnits_mono {a b : ℚ} (le : a ≤ b) : storedUnits a ≤ storedUnits b :=
  roundHalfAway_mono (mul_le_mul_of_nonneg_right le (by positivity))

@[simp] theorem storedUnits_value (n : Credits) : storedUnits n.value = n.units := by
  rw [storedUnits, Numeric.value_scaled, roundHalfAway_intCast]

theorem storedUnits_of_store {amount : ℚ} {stored : Credits}
    (fits : Numeric.store 16 4 amount = some stored) : stored.units = storedUnits amount :=
  Numeric.store_units fits

theorem storedUnits_add (a b : Credits) : storedUnits (a.value + b.value) = a.units + b.units := by
  rw [storedUnits, add_mul, Numeric.value_scaled, Numeric.value_scaled, ← Int.cast_add,
    roundHalfAway_intCast]

theorem storedUnits_value_add {n : Credits} {x : ℚ} (base : 0 ≤ n.units) (nonneg : 0 ≤ x) :
    storedUnits (n.value + x) = n.units + storedUnits x := by
  rw [storedUnits, add_mul, Numeric.value_scaled]
  exact roundHalfAway_add base (Numeric.scaled_nonneg nonneg)

theorem sub_le_storedUnits {a b : Credits} {x : ℚ} (le : a.value - b.value ≤ x) :
    a.units - b.units ≤ storedUnits x := by
  have whole : storedUnits (a.value - b.value) = a.units - b.units := by
    rw [storedUnits, sub_mul, Numeric.value_scaled, Numeric.value_scaled, ← Int.cast_sub,
      roundHalfAway_intCast]
  exact whole ▸ storedUnits_mono le

section Operations

variable {env : WalletEnv} {tenant : Tenant} {s next : WalletStore}

variable {w : AIWallet}

theorem ensureWallet_solvent (h : s.Solvent)
    (step : ensureWallet env tenant s = .ok (next, w)) : w.Solvent := by
  have nonneg := ensureWallet_nonneg h.nonneg step
  obtain ⟨_, ⟨found, _⟩ | ⟨_, fresh, _⟩⟩ := ensureWallet_ok step
  · exact h w found
  · refine ⟨nonneg, ?_⟩
    have included := nonneg.included
    simp only [fresh.reserved, fresh.purchased, Numeric.units_zero]
    omega

theorem ensureWallet_store_solvent (h : s.Solvent)
    (step : ensureWallet env tenant s = .ok (next, w)) : next.Solvent := by
  intro w' found
  cases (ensureWallet_ok step).1.symm.trans found
  exact ensureWallet_solvent h step

variable {amount : ℚ}

theorem reserve_solvent {key : Option String} {receipt : AIReservation}
    (h : s.Solvent)
    (protects : ∀ w ∈ s.wallet, includedExpired env.now w → amount ≤ 0 →
      w.reservedBalance.units ≤ w.purchasedBalance.units)
    (step : reserve env tenant amount key s = .ok (next, receipt)) : next.Solvent := by
  obtain ⟨_, s₁, w₁, s₂, w₂, ensured, expired, room, reserved, row, fits, _, same, _⟩ :=
    reserve_ok step
  have base₁ := ensureWallet_solvent h ensured
  have nonneg₂ := expireIncludedIfNeeded_nonneg base₁.nonneg expired
  have nonneg : (0 : ℚ) ≤ max 0 amount := le_max_left 0 amount
  have total : reserved.units = w₂.reservedBalance.units + storedUnits (max 0 amount) :=
    Numeric.store_add nonneg₂.reserved nonneg fits
  intro w found
  cases same.symm.trans found
  refine ⟨⟨nonneg₂.included, nonneg₂.purchased,
    Numeric.store_nonneg (add_nonneg nonneg₂.values.2.2 nonneg) fits⟩, ?_⟩
  show reserved.units ≤ w₂.includedBalance.units + w₂.purchasedBalance.units
  rcases le_or_gt (w₂.totalBalance - w₂.reservedBalance.value) 0 with short | free
  · have zero : max 0 amount = 0 := by
      rw [AIWallet.availableBalance, max_eq_left short] at room
      linarith
    rw [zero] at total
    have nothing : storedUnits 0 = 0 := by simp [storedUnits]
    obtain ⟨_, _, rfl⟩ | ⟨lapsed, rfl, _⟩ := expireIncludedIfNeeded_ok expired
    · have covered := base₁.covered
      omega
    · obtain ⟨_, ⟨found₁, _⟩ | ⟨_, fresh, _⟩⟩ := ensureWallet_ok ensured
      · have covered := protects w₁ found₁ lapsed (max_eq_left_iff.mp zero)
        simp only [Numeric.units_zero] at total ⊢
        omega
      · simp only [fresh.reserved, fresh.purchased, Numeric.units_zero] at total ⊢
        omega
  · rw [AIWallet.availableBalance, max_eq_right free.le] at room
    have below := storedUnits_mono (show w₂.reservedBalance.value + max 0 amount ≤
      w₂.includedBalance.value + w₂.purchasedBalance.value by
        rw [AIWallet.totalBalance] at room
        linarith)
    rw [storedUnits_value_add nonneg₂.reserved nonneg, storedUnits_add] at below
    omega

variable {reservation : AIReservation}

theorem release_solvent (h : s.Solvent)
    (positive : 0 ≤ reservation.amount) (limited : reservation.unlimited = false)
    (step : release reservation s = .ok (next, ())) : next.Solvent := by
  obtain ⟨w₀, found₀, _, fits, same, _⟩ := release_ok limited step
  have base := h w₀ found₀
  have taken := released_nonneg base.nonneg positive
  have less := storedUnits_mono (show w₀.reservedBalance.value - released w₀ reservation ≤
    w₀.reservedBalance.value by linarith)
  rw [storedUnits_value, ← storedUnits_of_store fits] at less
  intro w found
  cases same.symm.trans found
  exact ⟨⟨base.nonneg.included, base.nonneg.purchased,
    Numeric.store_nonneg (sub_nonneg.mpr released_le) fits⟩, less.trans base.covered⟩

theorem settledReserve_le (h : w.Solvent)
    (positive : 0 ≤ reservation.amount) :
    settledReserve w reservation ≤ w.includedBalance.value + w.purchasedBalance.value := by
  obtain ⟨_, _, _⟩ := h.nonneg.values
  have covered : w.reservedBalance.value ≤ w.includedBalance.value + w.purchasedBalance.value := by
    have units : (w.reservedBalance.units : ℚ) ≤ w.includedBalance.units + w.purchasedBalance.units := by
      exact_mod_cast h.covered
    simp only [Numeric.value]
    linarith
  exact max_le (by linarith) (by linarith)

theorem availableForCharge_solvent (h : w.Solvent)
    (positive : 0 ≤ reservation.amount) :
    availableForCharge w reservation =
      w.includedBalance.value + w.purchasedBalance.value - settledReserve w reservation :=
  max_eq_right (sub_nonneg.mpr (settledReserve_le h positive))

theorem settle_solvent {actualAmount result : ℚ} (h : s.Solvent)
    (positive : 0 ≤ reservation.amount) (limited : reservation.unlimited = false)
    (step : settle reservation actualAmount s = .ok (next, result)) : next.Solvent := by
  by_cases used : hasKey s (settledKey reservation)
  · rw [(settle_again limited used step).1]
    exact h
  have after := settle_nonneg h.nonneg limited step
  obtain ⟨w₀, found₀, _, included, purchased, reserved, s₀, s₁, s₂, includedFits, purchasedFits,
    reservedFits, rfl, first, second, same, _⟩ := settle_first limited used step
  have base := h w₀ found₀
  rw [(createCharge_ok second).1, (createCharge_ok first).1] at same
  intro w found
  refine ⟨after w found, ?_⟩
  cases same.symm.trans found
  show reserved.units ≤ included.units + purchased.units
  have left : settledReserve w₀ reservation ≤ w₀.includedBalance.value + w₀.purchasedBalance.value -
      chargedAmount w₀ reservation actualAmount := by
    have charged : chargedAmount w₀ reservation actualAmount ≤ availableForCharge w₀ reservation :=
      min_le_right _ _
    rw [availableForCharge_solvent base positive] at charged
    linarith
  have below := storedUnits_mono left
  rw [storedUnits_of_store includedFits, storedUnits_of_store purchasedFits,
    storedUnits_of_store reservedFits]
  unfold chargedPurchased chargedIncluded
  rcases le_total w₀.includedBalance.value (chargedAmount w₀ reservation actualAmount) with all | some
  · rw [min_eq_left all]
    have none : storedUnits (w₀.includedBalance.value - w₀.includedBalance.value) = 0 := by
      simp [storedUnits]
    rw [none]
    have rest : w₀.purchasedBalance.value -
        (chargedAmount w₀ reservation actualAmount - w₀.includedBalance.value) =
        w₀.includedBalance.value + w₀.purchasedBalance.value -
          chargedAmount w₀ reservation actualAmount := by ring
    rw [rest]
    omega
  · rw [min_eq_right some]
    have rest : w₀.includedBalance.value + w₀.purchasedBalance.value -
        chargedAmount w₀ reservation actualAmount = w₀.purchasedBalance.value +
          (w₀.includedBalance.value - chargedAmount w₀ reservation actualAmount) := by ring
    rw [rest, storedUnits_value_add base.nonneg.purchased (sub_nonneg.mpr some)] at below
    have kept : storedUnits (w₀.purchasedBalance.value - (chargedAmount w₀ reservation actualAmount -
        chargedAmount w₀ reservation actualAmount)) = w₀.purchasedBalance.units := by
      rw [sub_self, sub_zero, storedUnits_value]
    rw [kept]
    omega

theorem grantIncluded_solvent {amount : Option ℚ} {periodEnd : Option CivilDate} {key : String}
    (h : s.Solvent)
    (protects : ¬ hasKey s key → ∀ w ∈ s.wallet, w.reservedBalance.units ≤
      storedUnits (max 0 (amount.getD 0)) + w.purchasedBalance.units)
    (step : grantIncluded env tenant amount periodEnd key s = .ok (next, ())) : next.Solvent := by
  have after := grantIncluded_nonneg h.nonneg step
  obtain ⟨_, w₁, ensured, ⟨_, rfl⟩ | ⟨unused, _, _, granted, fits, same, _⟩⟩ := grantIncluded_ok step
  · exact ensureWallet_store_solvent h ensured
  · intro w found
    refine ⟨after w found, ?_⟩
    cases same.symm.trans found
    show w₁.reservedBalance.units ≤ granted.units + w₁.purchasedBalance.units
    have stored := storedUnits_of_store fits
    obtain ⟨_, ⟨found₁, rfl⟩ | ⟨_, fresh, _⟩⟩ := ensureWallet_ok ensured
    · have covered := protects unused w₁ found₁
      omega
    · have nonneg := storedUnits_nonneg (le_max_left 0 (amount.getD 0))
      simp only [fresh.reserved, fresh.purchased, Numeric.units_zero]
      omega

theorem syncIncludedLimit_solvent (h : s.Solvent)
    (step : syncIncludedLimit env tenant s = .ok (next, ())) : next.Solvent := by
  have after := syncIncludedLimit_nonneg h.nonneg step
  obtain ⟨_, w₁, _, _, balance, _, fits, same, _⟩ := syncIncludedLimit_ok step
  intro w found
  refine ⟨after w found, ?_⟩
  cases same.symm.trans found
  have preserved : w₁.reservedBalance.value - w₁.purchasedBalance.value ≤
      syncedBalance w₁ (effectiveLimit tenant) :=
    le_max_of_le_right (le_max_right _ _)
  have covered := sub_le_storedUnits preserved
  rw [← storedUnits_of_store fits] at covered
  show w₁.reservedBalance.units ≤ balance.units + w₁.purchasedBalance.units
  omega

theorem topup_solvent {key reference : String} (h : s.Solvent)
    (step : topup env tenant amount key reference s = .ok (next, ())) : next.Solvent := by
  have after := topup_nonneg h.nonneg step
  obtain ⟨_, w₁, ensured, ⟨_, rfl⟩ | ⟨_, purchased, _, fits, _, same, _⟩⟩ := topup_ok step
  · exact ensureWallet_store_solvent h ensured
  · have base := ensureWallet_solvent h ensured
    have added : purchased.units = w₁.purchasedBalance.units + storedUnits (max 0 amount) :=
      Numeric.store_add base.nonneg.purchased (le_max_left 0 amount) fits
    have more := storedUnits_nonneg (le_max_left 0 amount)
    have covered := base.covered
    intro w found
    refine ⟨after w found, ?_⟩
    cases same.symm.trans found
    show w₁.reservedBalance.units ≤ w₁.includedBalance.units + purchased.units
    omega

theorem reversePurchased_solvent {key reference : String} {kind : TransactionKind}
    {result : ℚ × ℚ} (h : s.Solvent)
    (step : reversePurchased env tenant amount key reference kind s = .ok (next, result)) :
    next.Solvent := by
  have after := reversePurchased_nonneg h.nonneg step
  obtain ⟨s₁, w₁, ensured, ⟨_, rfl⟩ | ⟨_, _, purchased, row, fits, _, same, _⟩⟩ :=
    reversePurchased_ok step
  · exact ensureWallet_store_solvent h ensured
  · have base := ensureWallet_solvent h ensured
    have stored := storedUnits_of_store fits
    intro w found
    refine ⟨after w found, ?_⟩
    cases same.symm.trans found
    show w₁.reservedBalance.units ≤ w₁.includedBalance.units + purchased.units
    have taken : reversedAmount w₁ amount ≤ reversible w₁ := min_le_right _ _
    have guard := le_max_right (0 : ℚ) (w₁.reservedBalance.value - w₁.includedBalance.value)
    rcases le_total (w₁.purchasedBalance.value -
      max 0 (w₁.reservedBalance.value - w₁.includedBalance.value)) 0 with bound | free
    · rw [reversible, max_eq_left bound] at taken
      have nothing : reversedAmount w₁ amount = 0 := le_antisymm taken reversedAmount_nonneg
      rw [nothing, sub_zero, storedUnits_value] at stored
      have covered := base.covered
      omega
    · rw [reversible, max_eq_right free] at taken
      have left : w₁.reservedBalance.value - w₁.includedBalance.value ≤
          w₁.purchasedBalance.value - reversedAmount w₁ amount := by linarith
      have covered := sub_le_storedUnits left
      omega

end Operations

def heldUnits (held : List AIReservation) : ℤ := (held.map fun r => storedUnits r.amount).sum

@[simp] theorem heldUnits_cons (r : AIReservation) (held : List AIReservation) :
    heldUnits (r :: held) = storedUnits r.amount + heldUnits held := by simp [heldUnits]

variable {r : AIReservation} {held : List AIReservation}

theorem heldUnits_erase (member : r ∈ held) :
    heldUnits (held.erase r) = heldUnits held - storedUnits r.amount := by
  have split := ((List.perm_cons_erase member).map fun r => storedUnits r.amount).sum_eq
  simp only [List.map_cons, List.sum_cons] at split
  simp only [heldUnits]
  omega

theorem heldUnits_nonneg (positive : ∀ r ∈ held, 0 ≤ r.amount) :
    0 ≤ heldUnits held := by
  induction held with
  | nil => simp [heldUnits]
  | cons r _ ih =>
    have first := storedUnits_nonneg (positive r (by simp))
    have others := ih fun r' member => positive r' (by simp [member])
    rw [heldUnits_cons]
    omega

theorem storedUnits_le_heldUnits (member : r ∈ held)
    (positive : ∀ r ∈ held, 0 ≤ r.amount) : storedUnits r.amount ≤ heldUnits held := by
  have rest : 0 ≤ heldUnits (held.erase r) :=
    heldUnits_nonneg fun r' inside => positive r' (List.mem_of_mem_erase inside)
  rw [heldUnits_erase member] at rest
  omega

def reservedUnits (s : WalletStore) : ℤ := (s.wallet.map fun w => w.reservedBalance.units).getD 0

theorem reservedUnits_of_some {w : AIWallet} (found : s.wallet = some w) :
    reservedUnits s = w.reservedBalance.units := by simp [reservedUnits, found]

section Reserves

variable {env : WalletEnv} {tenant : Tenant} {s next : WalletStore}

variable {w : AIWallet}

theorem ensureWallet_reserved (step : ensureWallet env tenant s = .ok (next, w)) :
    w.reservedBalance.units = reservedUnits s := by
  obtain ⟨_, ⟨found, _⟩ | ⟨missing, fresh, _⟩⟩ := ensureWallet_ok step
  · rw [reservedUnits_of_some found]
  · simp [reservedUnits, missing, fresh.reserved]

theorem expireIncludedIfNeeded_reserved {before after : AIWallet}
    (step : expireIncludedIfNeeded env s before = .ok (next, after)) :
    after.reservedBalance = before.reservedBalance := by
  obtain ⟨_, _, rfl⟩ | ⟨_, rfl, _⟩ := expireIncludedIfNeeded_ok step <;> rfl

structure KeepsReserve (s next : WalletStore) : Prop where
  wallet : next.wallet.isSome
  reserved : reservedUnits next = reservedUnits s

theorem KeepsReserve.of_some (found : next.wallet = some w)
    (same : w.reservedBalance.units = reservedUnits s) : KeepsReserve s next :=
  ⟨by simp [found], by rw [reservedUnits_of_some found, same]⟩

theorem ensureWallet_keeps (step : ensureWallet env tenant s = .ok (next, w)) :
    KeepsReserve s next :=
  .of_some (ensureWallet_ok step).1 (ensureWallet_reserved step)

theorem grantIncluded_keeps {amount : Option ℚ} {periodEnd : Option CivilDate} {key : String}
    (step : grantIncluded env tenant amount periodEnd key s = .ok (next, ())) : KeepsReserve s next := by
  obtain ⟨_, w₁, ensured, ⟨_, rfl⟩ | ⟨_, _, _, _, _, same, _⟩⟩ := grantIncluded_ok step
  · exact ensureWallet_keeps ensured
  · exact .of_some same (show w₁.reservedBalance.units = _ from ensureWallet_reserved ensured)

theorem syncIncludedLimit_keeps (step : syncIncludedLimit env tenant s = .ok (next, ())) :
    KeepsReserve s next := by
  obtain ⟨_, w₁, ensured, _, _, _, _, same, _⟩ := syncIncludedLimit_ok step
  exact .of_some same (show w₁.reservedBalance.units = _ from ensureWallet_reserved ensured)

variable {amount : ℚ}

theorem topup_keeps {key reference : String}
    (step : topup env tenant amount key reference s = .ok (next, ())) : KeepsReserve s next := by
  obtain ⟨_, w₁, ensured, ⟨_, rfl⟩ | ⟨_, _, _, _, _, same, _⟩⟩ := topup_ok step
  · exact ensureWallet_keeps ensured
  · exact .of_some same (show w₁.reservedBalance.units = _ from ensureWallet_reserved ensured)

theorem reversePurchased_keeps {key reference : String} {kind : TransactionKind}
    {result : ℚ × ℚ}
    (step : reversePurchased env tenant amount key reference kind s = .ok (next, result)) :
    KeepsReserve s next := by
  obtain ⟨_, w₁, ensured, ⟨_, rfl⟩ | ⟨_, _, _, _, _, _, same, _⟩⟩ := reversePurchased_ok step
  · exact ensureWallet_keeps ensured
  · exact .of_some same (show w₁.reservedBalance.units = _ from ensureWallet_reserved ensured)

theorem reserve_adds {key : Option String} {receipt : AIReservation} (h : s.Solvent)
    (step : reserve env tenant amount key s = .ok (next, receipt)) :
    next.wallet.isSome ∧ reservedUnits next = reservedUnits s + storedUnits receipt.amount := by
  obtain ⟨rfl, _, _, _, w₂, ensured, expired, _, reserved, _, fits, _, same, _⟩ := reserve_ok step
  have nonneg := expireIncludedIfNeeded_nonneg (ensureWallet_solvent h ensured).nonneg expired
  have total : reserved.units = w₂.reservedBalance.units + storedUnits (max 0 amount) :=
    Numeric.store_add nonneg.reserved (le_max_left 0 amount) fits
  refine ⟨by simp [same], ?_⟩
  rw [reservedUnits_of_some same, ← ensureWallet_reserved ensured,
    ← expireIncludedIfNeeded_reserved expired]
  exact total

theorem rest_le_storedUnits {reserved : Credits}
    (exact : amount * 10 ^ 4 ≤ storedUnits amount) :
    reserved.units - storedUnits amount ≤ storedUnits (max 0 (reserved.value - amount)) := by
  have rest : ((reserved.units - storedUnits amount : ℤ) : ℚ) ≤
      max 0 (reserved.value - amount) * 10 ^ 4 := by
    have scaled := Numeric.value_scaled reserved
    have above := mul_le_mul_of_nonneg_right (le_max_right 0 (reserved.value - amount))
      (show (0 : ℚ) ≤ 10 ^ 4 by positivity)
    push_cast
    linarith
  have rounded := roundHalfAway_mono rest
  rwa [roundHalfAway_intCast] at rounded

theorem all_le_storedUnits {reserved : Credits} (nothing : min reserved.value amount ≤ 0) :
    reserved.units ≤ storedUnits (max 0 (reserved.value - amount)) := by
  have kept : reserved.value ≤ max 0 (reserved.value - amount) := by
    rcases min_le_iff.mp nothing with empty | _
    · exact empty.trans (le_max_left _ _)
    · exact (by linarith : reserved.value ≤ reserved.value - amount).trans (le_max_right _ _)
  simpa using storedUnits_mono kept

theorem release_reserved {r : AIReservation} (limited : r.unlimited = false)
    (step : release r s = .ok (next, ())) :
    ∃ w ∈ s.wallet, next.wallet.isSome ∧
      reservedUnits next = storedUnits (max 0 (w.reservedBalance.value - r.amount)) := by
  obtain ⟨w, found, _, fits, same, _⟩ := release_ok limited step
  refine ⟨w, found, by simp [same], ?_⟩
  rw [reservedUnits_of_some same]
  have rest : w.reservedBalance.value - released w r = max 0 (w.reservedBalance.value - r.amount) := by
    rw [released, ← max_sub_sub_left, sub_self]
  rw [← rest]
  exact storedUnits_of_store fits

theorem settle_reserved {r : AIReservation} {actualAmount result : ℚ} (limited : r.unlimited = false)
    (fresh : ¬ hasKey s (settledKey r)) (step : settle r actualAmount s = .ok (next, result)) :
    ∃ w ∈ s.wallet, next.wallet.isSome ∧
      reservedUnits next = storedUnits (max 0 (w.reservedBalance.value - r.amount)) := by
  obtain ⟨w, found, _, included, purchased, reserved, s₀, s₁, s₂, _, _, fits, rfl, first, second,
    same, _⟩ := settle_first limited fresh step
  rw [(createCharge_ok second).1, (createCharge_ok first).1] at same
  refine ⟨w, found, by simp [same], ?_⟩
  rw [reservedUnits_of_some same]
  exact storedUnits_of_store fits

end Reserves

/-- The reserved balance covers every held receipt, and no receipt is worth more than it stored. -/
structure WalletRun.Covers (s : WalletRun) : Prop where
  issued : ∀ r ∈ s.held, r ∈ s.issued
  exact : ∀ r ∈ s.held, r.amount * 10 ^ 4 ≤ storedUnits r.amount
  covered : heldUnits s.held ≤ reservedUnits s.store
  bare : s.store.wallet = none → s.held = []

theorem WalletRun.Covers.of_keeps {s : WalletRun} {store : WalletStore} (h : s.Covers)
    (keeps : KeepsReserve s.store store) : Covers { s with store } :=
  ⟨h.issued, h.exact, by simpa only [keeps.reserved] using h.covered, fun missing =>
    absurd keeps.wallet (by simp [show store.wallet = none from missing])⟩

theorem WalletRun.Covers.give {s : WalletRun} {store : WalletStore} (h : s.Covers)
    (wallet : store.wallet = none → s.store.wallet = none)
    (left : r ∈ s.held → reservedUnits s.store - storedUnits r.amount ≤ reservedUnits store)
    (kept : r ∉ s.held → reservedUnits s.store ≤ reservedUnits store) :
    Covers { s with store, held := s.held.erase r } := by
  refine ⟨fun r' member => h.issued r' (List.mem_of_mem_erase member),
    fun r' member => h.exact r' (List.mem_of_mem_erase member), ?_, fun missing => by
      simp [h.bare (wallet missing)]⟩
  have covered := h.covered
  by_cases member : r ∈ s.held
  · have rest := left member
    simp only [heldUnits_erase member]
    omega
  · have same := kept member
    simp only [List.erase_of_not_mem member]
    omega

/-- The steps that keep the reserves covered: a reserve takes an amount that is not rounded down
and, when it takes nothing, does not lapse a package the reserves depend on; a receipt is given
back once, or takes nothing; a new package with the purchased credits covers the reserves. -/
def SolvencySafe (s : WalletRun) : WalletAction → Prop
  | .reserve env _ amount _ =>
    max 0 amount * 10 ^ 4 ≤ storedUnits (max 0 amount) ∧
      ∀ w ∈ s.store.wallet, includedExpired env.now w → amount ≤ 0 →
        w.reservedBalance.units ≤ w.purchasedBalance.units
  | .release r => r ∈ s.held ∨ ∀ w ∈ s.store.wallet, min w.reservedBalance.value r.amount ≤ 0
  | .settle r _ =>
    r ∈ s.held ∨ hasKey s.store (settledKey r) ∨
      ∀ w ∈ s.store.wallet, min w.reservedBalance.value r.amount ≤ 0
  | .grantIncluded _ _ amount _ key =>
    ¬ hasKey s.store key → ∀ w ∈ s.store.wallet,
      w.reservedBalance.units ≤ storedUnits (max 0 (amount.getD 0)) + w.purchasedBalance.units
  | _ => True

instance (s : WalletRun) : (a : WalletAction) → Decidable (SolvencySafe s a)
  | .reserve _ _ _ _ => inferInstanceAs (Decidable (_ ∧ _))
  | .release _ => inferInstanceAs (Decidable (_ ∨ _))
  | .settle _ _ => inferInstanceAs (Decidable (_ ∨ _ ∨ _))
  | .grantIncluded _ _ _ _ _ => inferInstanceAs (Decidable (_ → _))
  | .ensureWallet _ _ => .isTrue trivial
  | .syncIncludedLimit _ _ => .isTrue trivial
  | .topup _ _ _ _ _ => .isTrue trivial
  | .reversePurchased _ _ _ _ _ _ => .isTrue trivial

structure WalletRun.Kept (s : WalletRun) : Prop where
  receipts : s.Receipts
  solvent : s.store.Solvent
  covers : s.Covers

theorem WalletRun.next_kept (s : WalletRun) (a : WalletAction) (h : s.Kept) (safe : SolvencySafe s a) :
    (s.next a).Kept := by
  have receipts := s.next_receipts a h.receipts
  have unchanged (store : WalletStore) (solvent : store.Solvent)
      (keeps : KeepsReserve s.store store) : Kept { s with store } :=
    ⟨h.receipts, solvent, h.covers.of_keeps keeps⟩
  cases a with
  | ensureWallet env tenant =>
    simp only [next] at receipts ⊢
    cases step : AIWalletService.ensureWallet env tenant s.store with
    | error => exact h
    | ok =>
      exact unchanged _ (ensureWallet_store_solvent h.solvent step) (ensureWallet_keeps step)
  | reserve env tenant amount key =>
    simp only [next] at receipts ⊢
    cases step : AIWalletService.reserve env tenant amount key s.store with
    | error => exact h
    | ok pair =>
      obtain ⟨store, _⟩ := pair
      simp only [step] at receipts ⊢
      obtain ⟨wallet, _⟩ := reserve_adds h.solvent step
      have amounts := (reserve_ok step).1
      refine ⟨receipts, reserve_solvent h.solvent safe.2 step, ?_, ?_, ?_, ?_⟩
      · intro r member
        rcases List.mem_cons.mp member with rfl | old
        · exact List.mem_cons_self
        · exact List.mem_cons_of_mem _ (h.covers.issued r old)
      · intro r member
        rcases List.mem_cons.mp member with rfl | old
        · rw [amounts]
          exact safe.1
        · exact h.covers.exact r old
      · have covered := h.covers.covered
        simp only [heldUnits_cons]
        omega
      · intro missing
        exact absurd wallet (by simp [show store.wallet = none from missing])
  | release r =>
    simp only [next] at receipts ⊢
    split
    · next member =>
      obtain ⟨nonneg, limited⟩ := h.receipts r member
      cases step : AIWalletService.release r s.store with
      | error => exact h
      | ok pair =>
        obtain ⟨store, ⟨⟩⟩ := pair
        obtain ⟨w, found, wallet, left⟩ := release_reserved limited step
        have before := reservedUnits_of_some found
        refine ⟨h.receipts, release_solvent h.solvent nonneg limited step,
          h.covers.give (fun missing => by simp [missing] at wallet) ?_ ?_⟩
        · intro held
          rw [left, before]
          exact rest_le_storedUnits (h.covers.exact r held)
        · intro given
          rw [left, before]
          exact all_le_storedUnits (safe.resolve_left given w found)
    · exact h
  | settle r actualAmount =>
    simp only [next] at receipts ⊢
    split
    · next member =>
      obtain ⟨nonneg, limited⟩ := h.receipts r member
      cases step : AIWalletService.settle r actualAmount s.store with
      | error => exact h
      | ok pair =>
        obtain ⟨store, _⟩ := pair
        have solvent := settle_solvent h.solvent nonneg limited step
        by_cases used : hasKey s.store (settledKey r)
        · obtain ⟨rfl, _⟩ := settle_again limited used step
          refine ⟨h.receipts, solvent, h.covers.give id ?_ fun _ => le_rfl⟩
          intro held
          have units := storedUnits_nonneg nonneg
          omega
        · obtain ⟨w, found, wallet, left⟩ := settle_reserved limited used step
          have before := reservedUnits_of_some found
          refine ⟨h.receipts, solvent, h.covers.give (fun missing => by simp [missing] at wallet) ?_ ?_⟩
          · intro held
            rw [left, before]
            exact rest_le_storedUnits (h.covers.exact r held)
          · intro given
            rw [left, before]
            exact all_le_storedUnits (((safe.resolve_left given).resolve_left used) w found)
    · exact h
  | grantIncluded env tenant amount periodEnd key =>
    simp only [next] at receipts ⊢
    cases step : AIWalletService.grantIncluded env tenant amount periodEnd key s.store with
    | error => exact h
    | ok =>
      exact unchanged _ (grantIncluded_solvent h.solvent safe step) (grantIncluded_keeps step)
  | syncIncludedLimit env tenant =>
    simp only [next] at receipts ⊢
    cases step : AIWalletService.syncIncludedLimit env tenant s.store with
    | error => exact h
    | ok =>
      exact unchanged _ (syncIncludedLimit_solvent h.solvent step)
        (syncIncludedLimit_keeps step)
  | topup env tenant amount key reference =>
    simp only [next] at receipts ⊢
    cases step : AIWalletService.topup env tenant amount key reference s.store with
    | error => exact h
    | ok => exact unchanged _ (topup_solvent h.solvent step) (topup_keeps step)
  | reversePurchased env tenant amount key reference kind =>
    simp only [next] at receipts ⊢
    cases step : AIWalletService.reversePurchased env tenant amount key reference kind s.store with
    | error => exact h
    | ok =>
      exact unchanged _ (reversePurchased_solvent h.solvent step)
        (reversePurchased_keeps step)

theorem WalletRun.start_kept : WalletRun.start.Kept :=
  ⟨by simp [Receipts, start], by simp [WalletStore.Solvent, start],
    by simp [start], by simp [start], by simp [start, heldUnits, reservedUnits], fun _ => rfl⟩

/-- The journal keys of a first settle fit their column and are not taken by other rows. -/
structure SettleRowsFree (s : WalletStore) (r : AIReservation) : Prop where
  short : (chargePurchasedKey r).length ≤ 160
  included : ¬ hasKey s (chargeIncludedKey r)
  purchased : ¬ hasKey s (chargePurchasedKey r)

theorem SettleRowsFree.lengths (h : SettleRowsFree s r) :
    (chargeIncludedKey r).length ≤ 160 ∧ (settledKey r).length ≤ 160 ∧ r.key.length ≤ 160 := by
  have short := h.short
  have purchased : (":charge:purchased" : String).length = 17 := by decide
  have included : (":charge:included" : String).length = 16 := by decide
  have settled : (":settled" : String).length = 8 := by decide
  simp only [chargePurchasedKey, chargeIncludedKey, settledKey, String.length_append] at short ⊢
  omega

section Totality

variable {s : WalletStore} {w : AIWallet} {r : AIReservation} {actualAmount : ℚ}

theorem chargedAmount_full (h : w.Solvent) (nonneg : 0 ≤ actualAmount) (le : actualAmount ≤ r.amount)
    (backed : r.amount ≤ w.reservedBalance.value) :
    chargedAmount w r actualAmount = actualAmount := by
  have covered := settledReserve_le h (nonneg.trans le)
  have solvent : w.reservedBalance.value ≤ w.includedBalance.value + w.purchasedBalance.value := by
    have units : (w.reservedBalance.units : ℚ) ≤ w.includedBalance.units + w.purchasedBalance.units := by
      exact_mod_cast h.covered
    simp only [Numeric.value]
    linarith
  rw [chargedAmount, max_eq_right nonneg, availableForCharge_solvent h (nonneg.trans le),
    settledReserve, max_eq_right (sub_nonneg.mpr backed)]
  exact min_eq_left (by linarith)

theorem createCharge_total (s : WalletStore) (b : BalanceType) (reference : String) {charged : ℚ}
    {balance : Credits} {key : String} (nonneg : 0 ≤ charged) (le : charged ≤ balance.value) (fresh : ¬ hasKey s key)
    (narrow : key.length ≤ 160) (short : reference.length ≤ 160) :
    ∃ next, createCharge s b charged key reference = .ok next ∧
      ∀ other, other ≠ key → ¬ hasKey s other → ¬ hasKey next other := by
  by_cases nothing : charged = 0
  · exact ⟨s, by simp [createCharge, nothing], fun _ _ absent => absent⟩
  · obtain ⟨row, fits⟩ := Numeric.store_neg_of_le nonneg le
    refine ⟨{ s with transactions := s.transactions ++ [⟨.charge, b, row, key, reference⟩] }, ?_, ?_⟩
    · rw [createCharge, if_neg nothing, createTransaction_total .charge b fits fresh narrow short]
    · intro other different absent
      simp only [hasKey, List.mem_append, List.mem_singleton, not_exists, not_and] at absent ⊢
      rintro row (old | rfl) same
      · exact absent row old same
      · exact different same.symm

theorem settle_fresh (limited : r.unlimited = false) (found : s.wallet = some w)
    (fresh : ¬ hasKey s (settledKey r)) :
    settle r actualAmount s = (do
      let includedBalance ← writeCredits (w.includedBalance.value - chargedIncluded w r actualAmount)
      let purchasedBalance ← writeCredits (w.purchasedBalance.value - chargedPurchased w r actualAmount)
      let reservedBalance ← writeCredits (settledReserve w r)
      let s₀ := saveWallet s { w with includedBalance, purchasedBalance, reservedBalance }
      let s₁ ← createCharge s₀ .included (chargedIncluded w r actualAmount) (chargeIncludedKey r) r.key
      let s₂ ← createCharge s₁ .purchased (chargedPurchased w r actualAmount) (chargePurchasedKey r) r.key
      let s₃ ← createTransaction s₂ .release .reserved (-r.amount) (settledKey r) r.key
      .ok (s₃, chargedAmount w r actualAmount)) := by
  simp only [settle, limited, lockWallet, found, orRaise, fresh, Bool.false_eq_true, if_false]
  rfl

theorem settle_total (h : w.Solvent) (found : s.wallet = some w) (limited : r.unlimited = false)
    (nonneg : 0 ≤ actualAmount) (le : actualAmount ≤ r.amount)
    (backed : r.amount ≤ w.reservedBalance.value)
    (free : ¬ hasKey s (settledKey r) → SettleRowsFree s r) :
    ∃ next, settle r actualAmount s = .ok (next, actualAmount) := by
  by_cases used : hasKey s (settledKey r)
  · refine ⟨s, ?_⟩
    simp [settle, limited, lockWallet, found, orRaise, used, bind, Except.bind, max_eq_right nonneg]
  · have rows := free used
    obtain ⟨includedShort, settledShort, keyShort⟩ := rows.lengths
    have full := chargedAmount_full h nonneg le backed
    obtain ⟨included, includedFits⟩ := Numeric.store_of_le
      (sub_nonneg.mpr chargedIncluded_le : 0 ≤ w.includedBalance.value - chargedIncluded w r actualAmount)
      (sub_le_self _ (chargedIncluded_nonneg h.nonneg))
    obtain ⟨purchased, purchasedFits⟩ := Numeric.store_of_le
      (sub_nonneg.mpr (chargedPurchased_le h.nonneg) :
        0 ≤ w.purchasedBalance.value - chargedPurchased w r actualAmount)
      (sub_le_self _ chargedPurchased_nonneg)
    have less : settledReserve w r ≤ w.reservedBalance.value :=
      max_le h.nonneg.values.2.2 (sub_le_self _ (nonneg.trans le))
    obtain ⟨reserved, reservedFits⟩ := Numeric.store_of_le settledReserve_nonneg less
    obtain ⟨row, rowFits⟩ := Numeric.store_neg_of_le (nonneg.trans le) backed
    let s₀ := saveWallet s { w with
      includedBalance := included, purchasedBalance := purchased, reservedBalance := reserved }
    have apart : chargePurchasedKey r ≠ chargeIncludedKey r ∧ settledKey r ≠ chargeIncludedKey r ∧
        settledKey r ≠ chargePurchasedKey r := by
      simp only [chargePurchasedKey, chargeIncludedKey, settledKey, ne_eq, String.append_right_inj]
      decide
    obtain ⟨s₁, first, absent₁⟩ := createCharge_total s₀ .included r.key
      (chargedIncluded_nonneg h.nonneg : 0 ≤ chargedIncluded w r actualAmount) chargedIncluded_le
      rows.included includedShort keyShort
    obtain ⟨s₂, second, absent₂⟩ := createCharge_total s₁ .purchased r.key
      (chargedPurchased_nonneg : 0 ≤ chargedPurchased w r actualAmount) (chargedPurchased_le h.nonneg)
      (absent₁ _ apart.1 rows.purchased) rows.short keyShort
    have third := createTransaction_total .release .reserved rowFits
      (absent₂ _ apart.2.2 (absent₁ _ apart.2.1 used)) settledShort keyShort
    refine ⟨{ s₂ with transactions :=
      s₂.transactions ++ [⟨.release, .reserved, row, settledKey r, r.key⟩] }, ?_⟩
    rw [settle_fresh limited found used]
    simp only [writeCredits, orRaise, includedFits, purchasedFits, reservedFits, bind, Except.bind]
    rw [first]
    simp only []
    rw [second]
    simp only [third, full]

end Totality

section Runs

def confirmedReserve : List WalletAction :=
  [.grantIncluded (walletEnv "") bareTenant (some 10) none "period-1",
    .reserve (walletEnv "") bareTenant 10 (some "request")]

def smallerPackage : WalletAction := .grantIncluded (walletEnv "") bareTenant (some 5) none "period-2"

def coveredReplacement : List WalletAction :=
  [.topup (walletEnv "") bareTenant 10 "order" "",
    .grantIncluded (walletEnv "") bareTenant (some 10) none "period-1",
    .reserve (walletEnv "") bareTenant 10 (some "request"), smallerPackage]

end Runs

end MapBackend.Billing
