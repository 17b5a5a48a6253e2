import MapBackend.Billing.AIWalletSolvency

/-!
What the wallet operations write for one reservation: the rows of the journal under the keys of the
reservation and the reserved balance in units.
-/

namespace MapBackend.Billing
open MapBackend.Library AIWalletService

def rowsUnder (s : WalletStore) (key : String) : ℕ :=
  (s.transactions.filter fun row => decide (row.idempotencyKey = key)).length

theorem rowsUnder_eq_zero {s : WalletStore} {key : String} : rowsUnder s key = 0 ↔ ¬ hasKey s key := by
  rw [rowsUnder, List.length_eq_zero_iff, List.filter_eq_nil_iff, hasKey]
  simp

theorem rowsUnder_append {s next : WalletStore} {added : List AICreditTransaction} (rows : next.transactions = s.transactions ++ added)
    {key : String} : rowsUnder next key = rowsUnder s key + (added.filter fun row => decide (row.idempotencyKey = key)).length := by
  rw [rowsUnder, rows, List.filter_append, List.length_append]
  rfl

theorem storedUnits_sub (a b : Credits) : storedUnits (a.value - b.value) = a.units - b.units := by
  rw [storedUnits, sub_mul, Numeric.value_scaled, Numeric.value_scaled, ← Int.cast_sub, roundHalfAway_intCast]

theorem storedUnits_rest {reserved amount : Credits} (covered : amount.units ≤ reserved.units) :
    storedUnits (max 0 (reserved.value - amount.value)) = reserved.units - amount.units := by
  have rest : 0 ≤ reserved.value - amount.value := sub_nonneg.mpr ((Numeric.value_le_iff _ _).mpr covered)
  rw [max_eq_right rest, storedUnits_sub]

section Reservations

variable {env : WalletEnv} {tenant : Tenant} {s next : WalletStore}

theorem reserve_rows {amount : ℚ} {key : Option String} {receipt : AIReservation} (named : reservationKey env key ≠ "")
    (step : reserve env tenant amount key s = .ok (next, receipt)) :
    ∃ earlier row, next.transactions = s.transactions ++ (earlier ++ [row]) ∧ row.idempotencyKey = receipt.key ∧
      ¬ hasKey s receipt.key ∧ (∀ other ∈ earlier, other.idempotencyKey ≠ receipt.key) ∧
      ∀ other ∈ earlier, other.idempotencyKey = "wallet-bootstrap:" ++ toString tenant.pk ∨
        ∃ wallet, other.idempotencyKey = includedExpireKey env wallet := by
  have fresh : ∃ between, ¬ hasKey between receipt.key ∧ ∃ row, next.transactions = between.transactions ++ [row] ∧
      row.idempotencyKey = receipt.key ∧ ∃ earlier, between.transactions = s.transactions ++ earlier ∧
        ∀ other ∈ earlier, other.idempotencyKey = "wallet-bootstrap:" ++ toString tenant.pk ∨
          ∃ wallet, other.idempotencyKey = includedExpireKey env wallet := by
    simp only [reserve, bind_ok, raiseIf_ok, writeCredits_ok] at step
    obtain ⟨⟨s₁, w₁⟩, ensured, ⟨s₂, _⟩, expired, _, _, _, _, _, created, made⟩ := step
    cases made
    obtain ⟨_, _, unused, _, _, _, rows⟩ := createTransaction_ok created
    refine ⟨s₂, unused.resolve_left ?_, _, rows, rfl, ?_⟩
    · cases key <;> exact named
    have first : ∃ earlier, s₁.transactions = s.transactions ++ earlier ∧
        ∀ other ∈ earlier, other.idempotencyKey = "wallet-bootstrap:" ++ toString tenant.pk := by
      obtain ⟨_, ⟨_, rfl⟩ | ⟨_, _, ⟨_, same⟩ | same⟩⟩ := ensureWallet_ok ensured
      · exact ⟨[], by simp, by simp⟩
      · exact ⟨[], by simp [same], by simp⟩
      · exact ⟨_, same, by simp⟩
    obtain ⟨earlier, rows₁, bootstraps⟩ := first
    obtain ⟨_, rfl, _⟩ | ⟨_, _, _, _, _, rows₂⟩ := expireIncludedIfNeeded_ok expired
    · exact ⟨earlier, rows₁, fun other mem => .inl (bootstraps other mem)⟩
    · refine ⟨earlier ++ [_], by rw [rows₂, rows₁, List.append_assoc], fun other mem => ?_⟩
      rcases List.mem_append.mp mem with old | new
      · exact .inl (bootstraps other old)
      · exact .inr ⟨w₁, by rw [List.mem_singleton.mp new]⟩
  obtain ⟨between, unused, row, rows, named_row, earlier, before, shapes⟩ := fresh
  have mentions : ∀ other ∈ between.transactions, other.idempotencyKey ≠ receipt.key :=
    fun other mem same => unused ⟨other, mem, same⟩
  refine ⟨earlier, row, by rw [rows, before, List.append_assoc], named_row, ?_, ?_, shapes⟩
  · rintro ⟨other, mem, same⟩
    exact mentions other (before ▸ List.mem_append_left _ mem) same
  · exact fun other mem => mentions other (before ▸ List.mem_append_right _ mem)

theorem reserve_units {amount : ℚ} {key : Option String} {receipt : AIReservation} (nonneg : 0 ≤ reservedUnits s)
    (step : reserve env tenant amount key s = .ok (next, receipt)) :
    reservedUnits next = reservedUnits s + storedUnits receipt.amount := by
  obtain ⟨rfl, _, _, _, w₂, ensured, expired, _, reserved, _, fits, _, same, _⟩ := reserve_ok step
  have base : w₂.reservedBalance.units = reservedUnits s := by
    rw [expireIncludedIfNeeded_reserved expired, ensureWallet_reserved ensured]
  have total : reserved.units = w₂.reservedBalance.units + storedUnits (max 0 amount) :=
    Numeric.store_add (base ▸ nonneg) (le_max_left 0 amount) fits
  rw [reservedUnits_of_some same, ← base]
  exact total

variable {reservation : AIReservation} {amount : Credits}

theorem release_units (limited : reservation.unlimited = false) (exact_amount : reservation.amount = amount.value)
    (covered : amount.units ≤ reservedUnits s) (step : release reservation s = .ok (next, ())) :
    reservedUnits next = reservedUnits s - amount.units := by
  obtain ⟨w, found, _, rest⟩ := release_reserved limited step
  rw [reservedUnits_of_some found] at covered ⊢
  rw [rest, exact_amount, storedUnits_rest covered]

theorem release_rows (limited : reservation.unlimited = false) (fresh : ¬ hasKey s (releaseKey reservation))
    (step : release reservation s = .ok (next, ())) :
    ∃ row, next.transactions = s.transactions ++ [row] ∧ row.idempotencyKey = releaseKey reservation := by
  obtain ⟨w, _, _, _, _, ⟨used, _⟩ | ⟨_, row, _, rows⟩⟩ := release_ok limited step
  · exact absurd used fresh
  · exact ⟨_, rows, rfl⟩

theorem settle_units {actualAmount charged : ℚ} (limited : reservation.unlimited = false)
    (exact_amount : reservation.amount = amount.value) (fresh : ¬ hasKey s (settledKey reservation))
    (covered : amount.units ≤ reservedUnits s) (step : settle reservation actualAmount s = .ok (next, charged)) :
    reservedUnits next = reservedUnits s - amount.units := by
  obtain ⟨w, found, _, rest⟩ := settle_reserved limited fresh step
  rw [reservedUnits_of_some found] at covered ⊢
  rw [rest, exact_amount, storedUnits_rest covered]

theorem settle_rows {actualAmount charged : ℚ} (limited : reservation.unlimited = false)
    (fresh : ¬ hasKey s (settledKey reservation)) (step : settle reservation actualAmount s = .ok (next, charged)) :
    ∃ charges row, next.transactions = s.transactions ++ (charges ++ [row]) ∧ row.idempotencyKey = settledKey reservation ∧
      ∀ charge ∈ charges, charge.idempotencyKey = chargeIncludedKey reservation ∨
        charge.idempotencyKey = chargePurchasedKey reservation := by
  obtain ⟨w, found, _, included, purchased, reserved, s₀, s₁, s₂, _, _, _, rfl, first, second, _, row, _, rows⟩ :=
    settle_first limited fresh step
  have one {before after : WalletStore} {balanceType : BalanceType} {amount : ℚ} {key reference : String}
      (made : createCharge before balanceType amount key reference = .ok after) :
      ∃ charges, after.transactions = before.transactions ++ charges ∧ ∀ charge ∈ charges, charge.idempotencyKey = key := by
    obtain ⟨_, ⟨_, same⟩ | ⟨_, _, _, more⟩⟩ := createCharge_ok made
    · exact ⟨[], by simp [same], by simp⟩
    · exact ⟨_, more, by simp⟩
  obtain ⟨charges₁, rows₁, keys₁⟩ := one first
  obtain ⟨charges₂, rows₂, keys₂⟩ := one second
  refine ⟨charges₁ ++ charges₂, ⟨.release, .reserved, row, settledKey reservation, reservation.key⟩, ?_, rfl, fun charge mem => ?_⟩
  · rw [rows, rows₂, rows₁, saveWallet_transactions]
    simp only [List.append_assoc]
  · rcases List.mem_append.mp mem with mem | mem
    · exact .inl (keys₁ charge mem)
    · exact .inr (keys₂ charge mem)

end Reservations

end MapBackend.Billing
