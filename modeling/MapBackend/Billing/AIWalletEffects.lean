import MapBackend.Billing.AIWallet

/-!
What a successful wallet operation did: one inversion theorem for each operation,
in terms of the wallet row it read, the columns it wrote and the rows it appended.
-/

namespace MapBackend.Billing
open MapBackend.Library

namespace AIWalletService

theorem writeCredits_ok {x : ℚ} {stored : Credits} :
    writeCredits x = .ok stored ↔ Numeric.store 16 4 x = some stored := by
  simp [writeCredits, orRaise_ok]

theorem lockWallet_ok {s : WalletStore} {wallet : AIWallet} :
    lockWallet s = .ok wallet ↔ s.wallet = some wallet := by
  simp [lockWallet, orRaise_ok]

theorem effectiveLimit_whole (tenant : Tenant) : ∃ limit : ℕ, effectiveLimit tenant = limit := by
  unfold effectiveLimit
  split
  · exact ⟨_, rfl⟩
  · split
    · exact ⟨0, by simp⟩
    · split
      · exact ⟨0, by simp⟩
      · exact ⟨_, rfl⟩

/-- A wallet made by the bootstrap: the unspent limit is included, nothing else is there. -/
structure Bootstrapped (env : WalletEnv) (tenant : Tenant) (wallet : AIWallet) : Prop where
  pk : wallet.pk = env.walletPk
  included : Numeric.store 16 4 (max 0 (effectiveLimit tenant - tenant.aiCreditsUsed)) =
    some wallet.includedBalance
  limit : Numeric.store 16 4 (effectiveLimit tenant) = some wallet.includedLimit
  purchased : wallet.purchasedBalance = 0
  reserved : wallet.reservedBalance = 0

variable {s next : WalletStore} {env : WalletEnv} {tenant : Tenant}

theorem ensureWallet_ok
    {wallet : AIWallet} (step : ensureWallet env tenant s = .ok (next, wallet)) :
    next.wallet = some wallet ∧
      ((s.wallet = some wallet ∧ next = s) ∨
        (s.wallet = none ∧ Bootstrapped env tenant wallet ∧
          (wallet.includedBalance.units = 0 ∧ next.transactions = s.transactions ∨
            next.transactions = s.transactions ++
              [⟨.grant, .included, wallet.includedBalance,
                "wallet-bootstrap:" ++ toString tenant.pk, "legacy-ai-credits"⟩]))) := by
  unfold ensureWallet at step
  cases found : s.wallet with
  | some =>
    simp only [found] at step
    cases step
    exact ⟨found, .inl ⟨rfl, rfl⟩⟩
  | none =>
    simp only [found, bind_ok, writeCredits_ok] at step
    obtain ⟨_, storedLimit, _, storedBalance, step⟩ := step
    split at step
    · next empty =>
      cases step
      refine ⟨rfl, .inr ⟨rfl, ⟨rfl, storedBalance, storedLimit, rfl, rfl⟩, .inl ⟨?_, rfl⟩⟩⟩
      rw [empty] at storedBalance
      exact Numeric.store_whole (u := 0) (by simp) storedBalance
    · simp only [bind_ok] at step
      obtain ⟨_, created, made⟩ := step
      cases made
      obtain ⟨_, fits, _, _, _, same, rows⟩ := createTransaction_ok created
      cases storedBalance.symm.trans fits
      exact ⟨same, .inr ⟨rfl, ⟨rfl, storedBalance, storedLimit, rfl, rfl⟩, .inr rows⟩⟩

theorem expireIncludedIfNeeded_ok {before after : AIWallet}
    (step : expireIncludedIfNeeded env s before = .ok (next, after)) :
    (¬ includedExpired env.now before ∧ next = s ∧ after = before) ∨
      (includedExpired env.now before ∧ after = { before with includedBalance := 0 } ∧
        next.wallet = some after ∧
        ∃ stored : Credits, stored.units = -before.includedBalance.units ∧
          next.transactions = s.transactions ++
            [⟨.expire, .included, stored, includedExpireKey env before, ""⟩]) := by
  unfold expireIncludedIfNeeded at step
  split at step
  · next expired =>
    simp only [bind_ok] at step
    obtain ⟨_, created, done⟩ := step
    cases done
    obtain ⟨stored, fits, _, _, _, same, rows⟩ := createTransaction_ok created
    refine .inr ⟨expired, rfl, same, stored, ?_, rows⟩
    rw [Numeric.store_neg fits, Numeric.value_scaled, roundHalfAway_intCast]
  · next alive =>
    cases step
    exact .inl ⟨alive, rfl, rfl⟩

def reservationKey (env : WalletEnv) : Option String → String
  | none => "ai-reserve:" ++ env.uuid
  | some key => if key = "" then "ai-reserve:" ++ env.uuid else key

variable {amount : ℚ}

theorem reserve_ok {key : Option String} {receipt : AIReservation}
    (step : reserve env tenant amount key s = .ok (next, receipt)) :
    receipt = { key := reservationKey env key, amount := max 0 amount } ∧
      ∃ s₁ w₁ s₂ w₂, ensureWallet env tenant s = .ok (s₁, w₁) ∧
        expireIncludedIfNeeded env s₁ w₁ = .ok (s₂, w₂) ∧ max 0 amount ≤ w₂.availableBalance ∧
        ∃ reserved row : Credits,
          Numeric.store 16 4 (w₂.reservedBalance.value + max 0 amount) = some reserved ∧
          Numeric.store 16 4 (max 0 amount) = some row ∧
          next.wallet = some { w₂ with reservedBalance := reserved } ∧
          next.transactions = s₂.transactions ++
            [⟨.reserve, .reserved, row, reservationKey env key, ""⟩] := by
  simp only [reserve, bind_ok, raiseIf_ok, writeCredits_ok, not_lt] at step
  obtain ⟨⟨s₁, w₁⟩, ensured, ⟨s₂, w₂⟩, expired, _, covered, reserved, fits, _, created, made⟩ := step
  cases made
  obtain ⟨row, rowFits, _, _, _, same, rows⟩ := createTransaction_ok created
  refine ⟨?_, s₁, w₁, s₂, w₂, ensured, expired, covered, reserved, row, fits, rowFits, same, ?_⟩
  · cases key <;> rfl
  · rw [rows]
    cases key <;> rfl

def released (wallet : AIWallet) (reservation : AIReservation) : ℚ :=
  min wallet.reservedBalance.value reservation.amount

variable {reservation : AIReservation}

theorem release_ok
    (limited : reservation.unlimited = false) (step : release reservation s = .ok (next, ())) :
    ∃ w, s.wallet = some w ∧ ∃ reserved : Credits,
      Numeric.store 16 4 (w.reservedBalance.value - released w reservation) = some reserved ∧
      next.wallet = some { w with reservedBalance := reserved } ∧
      ((hasKey s (releaseKey reservation) ∧ next.transactions = s.transactions) ∨
        (¬ hasKey s (releaseKey reservation) ∧ ∃ row : Credits,
          Numeric.store 16 4 (-released w reservation) = some row ∧
          next.transactions = s.transactions ++
            [⟨.release, .reserved, row, releaseKey reservation, reservation.key⟩])) := by
  simp only [release, limited, Bool.false_eq_true, if_false, bind_ok, lockWallet_ok,
    writeCredits_ok] at step
  obtain ⟨w, found, reserved, fits, step⟩ := step
  refine ⟨w, found, reserved, fits, ?_⟩
  split at step
  · next used =>
    cases step
    exact ⟨rfl, .inl ⟨used, rfl⟩⟩
  · next unused =>
    simp only [bind_ok] at step
    obtain ⟨_, created, made⟩ := step
    cases made
    obtain ⟨row, rowFits, _, _, _, same, rows⟩ := createTransaction_ok created
    exact ⟨same, .inr ⟨unused, row, rowFits, rows⟩⟩

def chargedAmount (wallet : AIWallet) (reservation : AIReservation) (actualAmount : ℚ) : ℚ :=
  min (max 0 actualAmount) (availableForCharge wallet reservation)

def chargedIncluded (wallet : AIWallet) (reservation : AIReservation) (actualAmount : ℚ) : ℚ :=
  min wallet.includedBalance.value (chargedAmount wallet reservation actualAmount)

def chargedPurchased (wallet : AIWallet) (reservation : AIReservation) (actualAmount : ℚ) : ℚ :=
  chargedAmount wallet reservation actualAmount - chargedIncluded wallet reservation actualAmount

variable {key reference : String}

theorem createCharge_ok {balanceType : BalanceType} {charged : ℚ} (step : createCharge s balanceType charged key reference = .ok next) :
    next.wallet = s.wallet ∧
      ((charged = 0 ∧ next.transactions = s.transactions) ∨
        (charged ≠ 0 ∧ ∃ row : Credits, Numeric.store 16 4 (-charged) = some row ∧
          next.transactions = s.transactions ++ [⟨.charge, balanceType, row, key, reference⟩])) := by
  unfold createCharge at step
  split at step
  · next nothing =>
    cases step
    exact ⟨rfl, .inl ⟨nothing, rfl⟩⟩
  · next something =>
    obtain ⟨row, fits, _, _, _, same, rows⟩ := createTransaction_ok step
    exact ⟨same, .inr ⟨something, row, fits, rows⟩⟩

theorem settle_again {actualAmount result : ℚ}
    (limited : reservation.unlimited = false) (used : hasKey s (settledKey reservation))
    (step : settle reservation actualAmount s = .ok (next, result)) :
    next = s ∧ result = max 0 actualAmount := by
  simp only [settle, limited, Bool.false_eq_true, if_false, bind_ok, lockWallet_ok, used,
    if_true] at step
  obtain ⟨w, _, made⟩ := step
  cases made
  exact ⟨rfl, rfl⟩

theorem settle_first {actualAmount result : ℚ}
    (limited : reservation.unlimited = false) (fresh : ¬ hasKey s (settledKey reservation))
    (step : settle reservation actualAmount s = .ok (next, result)) :
    ∃ w, s.wallet = some w ∧ result = chargedAmount w reservation actualAmount ∧
      ∃ included purchased reserved : Credits, ∃ s₀ s₁ s₂ : WalletStore,
        Numeric.store 16 4 (w.includedBalance.value - chargedIncluded w reservation actualAmount) =
          some included ∧
        Numeric.store 16 4 (w.purchasedBalance.value - chargedPurchased w reservation actualAmount) =
          some purchased ∧
        Numeric.store 16 4 (settledReserve w reservation) = some reserved ∧
        s₀ = saveWallet s { w with
          includedBalance := included, purchasedBalance := purchased, reservedBalance := reserved } ∧
        createCharge s₀ .included (chargedIncluded w reservation actualAmount)
          (chargeIncludedKey reservation) reservation.key = .ok s₁ ∧
        createCharge s₁ .purchased (chargedPurchased w reservation actualAmount)
          (chargePurchasedKey reservation) reservation.key = .ok s₂ ∧
        next.wallet = s₂.wallet ∧ ∃ row : Credits,
          Numeric.store 16 4 (-reservation.amount) = some row ∧
          next.transactions = s₂.transactions ++
            [⟨.release, .reserved, row, settledKey reservation, reservation.key⟩] := by
  simp only [settle, limited, Bool.false_eq_true, if_false, bind_ok, lockWallet_ok, fresh,
    writeCredits_ok] at step
  obtain ⟨w, found, included, includedFits, purchased, purchasedFits, reserved, reservedFits,
    s₁, first, s₂, second, s₃, third, made⟩ := step
  cases made
  obtain ⟨row, rowFits, _, _, _, same, rows⟩ := createTransaction_ok third
  exact ⟨w, found, rfl, included, purchased, reserved, _, s₁, s₂, includedFits, purchasedFits,
    reservedFits, rfl, first, second, same, row, rowFits, rows⟩

theorem grantIncluded_ok {amount : Option ℚ}
    {periodEnd : Option CivilDate} {key : String}
    (step : grantIncluded env tenant amount periodEnd key s = .ok (next, ())) :
    ∃ s₁ w₁, ensureWallet env tenant s = .ok (s₁, w₁) ∧
      ((hasKey s₁ key ∧ next = s₁) ∨
        (¬ hasKey s₁ key ∧ ∃ s₂, expireReplaced s₁ w₁ key = .ok s₂ ∧ ∃ granted : Credits,
          Numeric.store 16 4 (max 0 (amount.getD 0)) = some granted ∧
          next.wallet = some { w₁ with
            includedLimit := granted
            includedBalance := granted
            includedExpiresAt := periodEnd.map env.zone.endOfDay } ∧
          next.transactions = s₂.transactions ++
            [⟨.grant, .included, granted, key, "subscription-period"⟩])) := by
  simp only [grantIncluded, bind_ok] at step
  obtain ⟨⟨s₁, w₁⟩, ensured, step⟩ := step
  refine ⟨s₁, w₁, ensured, ?_⟩
  split at step
  · next used =>
    cases step
    exact .inl ⟨used, rfl⟩
  · next unused =>
    simp only [bind_ok, writeCredits_ok] at step
    obtain ⟨s₂, expired, granted, fits, _, created, made⟩ := step
    cases made
    obtain ⟨_, rowFits, _, _, _, same, rows⟩ := createTransaction_ok created
    cases fits.symm.trans rowFits
    exact .inr ⟨unused, s₂, expired, granted, fits, same, rows⟩

theorem expireReplaced_ok {w : AIWallet} {key : String}
    (step : expireReplaced s w key = .ok next) :
    next.wallet = s.wallet ∧
      ((w.includedBalance.units = 0 ∧ next.transactions = s.transactions) ∨
        ∃ row : Credits, row.units = -w.includedBalance.units ∧
          next.transactions = s.transactions ++ [⟨.expire, .included, row, key ++ ":expire", ""⟩]) := by
  unfold expireReplaced at step
  split at step
  · next nothing =>
    cases step
    exact ⟨rfl, .inl ⟨nothing, rfl⟩⟩
  · obtain ⟨row, fits, _, _, _, same, rows⟩ := createTransaction_ok step
    refine ⟨same, .inr ⟨row, ?_, rows⟩⟩
    rw [Numeric.store_neg fits, Numeric.value_scaled, roundHalfAway_intCast]

theorem syncIncludedLimit_ok
    (step : syncIncludedLimit env tenant s = .ok (next, ())) :
    ∃ s₁ w₁, ensureWallet env tenant s = .ok (s₁, w₁) ∧ ∃ limit balance : Credits,
      Numeric.store 16 4 (effectiveLimit tenant) = some limit ∧
      Numeric.store 16 4 (syncedBalance w₁ (effectiveLimit tenant)) = some balance ∧
      next.wallet = some { w₁ with includedLimit := limit, includedBalance := balance } ∧
      ((syncedBalance w₁ (effectiveLimit tenant) = w₁.includedBalance.value ∧
          next.transactions = s₁.transactions) ∨
        ∃ row : Credits,
          Numeric.store 16 4
            (syncedBalance w₁ (effectiveLimit tenant) - w₁.includedBalance.value) = some row ∧
          next.transactions = s₁.transactions ++ [⟨.adjustment, .included, row,
            "limit-sync:" ++ toString tenant.pk ++ ":" ++ env.uuid, "tenant-limit-override"⟩]) := by
  simp only [syncIncludedLimit, bind_ok, writeCredits_ok] at step
  obtain ⟨⟨s₁, w₁⟩, ensured, limit, limitFits, balance, balanceFits, step⟩ := step
  refine ⟨s₁, w₁, ensured, limit, balance, limitFits, balanceFits, ?_⟩
  split at step
  · next nothing =>
    cases step
    exact ⟨rfl, .inl ⟨sub_eq_zero.mp nothing, rfl⟩⟩
  · simp only [bind_ok] at step
    obtain ⟨_, created, made⟩ := step
    cases made
    obtain ⟨row, rowFits, _, _, _, same, rows⟩ := createTransaction_ok created
    exact ⟨same, .inr ⟨row, rowFits, rows⟩⟩

theorem topup_ok (step : topup env tenant amount key reference s = .ok (next, ())) :
    ∃ s₁ w₁, ensureWallet env tenant s = .ok (s₁, w₁) ∧
      ((hasKey s₁ key ∧ next = s₁) ∨
        (¬ hasKey s₁ key ∧ ∃ purchased row : Credits,
          Numeric.store 16 4 (w₁.purchasedBalance.value + max 0 amount) = some purchased ∧
          Numeric.store 16 4 (max 0 amount) = some row ∧
          next.wallet = some { w₁ with purchasedBalance := purchased } ∧
          next.transactions = s₁.transactions ++ [⟨.topup, .purchased, row, key, reference⟩])) := by
  simp only [topup, bind_ok] at step
  obtain ⟨⟨s₁, w₁⟩, ensured, step⟩ := step
  refine ⟨s₁, w₁, ensured, ?_⟩
  split at step
  · next used =>
    cases step
    exact .inl ⟨used, rfl⟩
  · next unused =>
    simp only [bind_ok, writeCredits_ok] at step
    obtain ⟨purchased, fits, _, created, made⟩ := step
    cases made
    obtain ⟨row, rowFits, _, _, _, same, rows⟩ := createTransaction_ok created
    exact .inr ⟨unused, purchased, row, fits, rowFits, same, rows⟩

def reversedAmount (wallet : AIWallet) (amount : ℚ) : ℚ := min (max 0 amount) (reversible wallet)

theorem find_none_iff {s : WalletStore} {key : String} :
    s.transactions.reverse.find? (fun row => row.idempotencyKey == key) = none ↔ ¬ hasKey s key := by
  simp [hasKey]

theorem reversePurchased_ok
    {kind : TransactionKind} {result : ℚ × ℚ}
    (step : reversePurchased env tenant amount key reference kind s = .ok (next, result)) :
    ∃ s₁ w₁, ensureWallet env tenant s = .ok (s₁, w₁) ∧
      ((hasKey s₁ key ∧ next = s₁) ∨
        (¬ hasKey s₁ key ∧
          result = (reversedAmount w₁ amount, max 0 amount - reversedAmount w₁ amount) ∧
          ∃ purchased row : Credits,
            Numeric.store 16 4 (w₁.purchasedBalance.value - reversedAmount w₁ amount) =
              some purchased ∧
            Numeric.store 16 4 (-reversedAmount w₁ amount) = some row ∧
            next.wallet = some { w₁ with purchasedBalance := purchased } ∧
            next.transactions = s₁.transactions ++ [⟨kind, .purchased, row, key, reference⟩])) := by
  simp only [reversePurchased, bind_ok] at step
  obtain ⟨⟨s₁, w₁⟩, ensured, step⟩ := step
  refine ⟨s₁, w₁, ensured, ?_⟩
  cases found : s₁.transactions.reverse.find? (fun row => row.idempotencyKey == key) with
  | some =>
    simp only [found] at step
    cases step
    left
    refine ⟨?_, rfl⟩
    by_contra absent
    rw [find_none_iff.mpr absent] at found
    cases found
  | none =>
    simp only [found, bind_ok, writeCredits_ok] at step
    obtain ⟨purchased, fits, _, created, made⟩ := step
    cases made
    obtain ⟨row, rowFits, _, _, _, same, rows⟩ := createTransaction_ok created
    exact .inr ⟨find_none_iff.mp found, rfl, purchased, row, fits, rowFits, same, rows⟩

theorem reversePurchased_narrow
    {kind : TransactionKind} {s next s₁ : WalletStore} {w₁ : AIWallet} {result : ℚ × ℚ}
    (ensured : ensureWallet env tenant s = .ok (s₁, w₁)) (fresh : ¬ hasKey s₁ key)
    (step : reversePurchased env tenant amount key reference kind s = .ok (next, result)) :
    key.length ≤ 160 ∧ reference.length ≤ 160 := by
  simp only [reversePurchased, bind_ok] at step
  obtain ⟨⟨_, _⟩, again, step⟩ := step
  cases ensured.symm.trans again
  simp only [find_none_iff.mpr fresh, bind_ok] at step
  obtain ⟨_, _, _, created, _⟩ := step
  obtain ⟨_, _, _, narrow, short, _⟩ := createTransaction_ok created
  exact ⟨narrow, short⟩

end AIWalletService

end MapBackend.Billing
