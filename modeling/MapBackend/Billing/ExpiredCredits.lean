import MapBackend.Billing.WalletActions

/-!
Included credits past their expiry.
-/

namespace MapBackend.Billing
open MapBackend.Library AIWalletService

def WalletAction.Ungranted : WalletAction → Prop
  | .grantIncluded _ _ _ _ _ => False
  | _ => True

/-- The wallet row is there with its key and its expiry, and its balances are not negative. -/
def WalletStore.Lasts (w : AIWallet) (s : WalletStore) : Prop :=
  ∃ now, s.wallet = some now ∧ now.pk = w.pk ∧ now.includedExpiresAt = w.includedExpiresAt ∧ now.Nonneg

section Runs

variable {env : WalletEnv} {tenant : Tenant} {s next : WalletStore} {w now : AIWallet}

theorem WalletStore.Lasts.nonneg (kept : s.Lasts w) : s.Nonneg := by
  obtain ⟨_, found, -, -, nonneg⟩ := kept
  intro row present
  cases found.symm.trans present
  exact nonneg

theorem WalletStore.Lasts.saved {old new : AIWallet} (found : next.wallet = some new) (pk : new.pk = old.pk)
    (expires : new.includedExpiresAt = old.includedExpiresAt) (nonneg : next.Nonneg)
    (before : old.pk = w.pk ∧ old.includedExpiresAt = w.includedExpiresAt) : next.Lasts w :=
  ⟨new, found, pk.trans before.1, expires.trans before.2, nonneg new found⟩

theorem ensureWallet_present {found : AIWallet} (present : s.wallet = some now)
    (step : ensureWallet env tenant s = .ok (next, found)) : next = s ∧ found = now := by
  rw [ensureWallet, present] at step
  cases step
  exact ⟨rfl, rfl⟩

theorem expireIncludedIfNeeded_package {before after : AIWallet} (step : expireIncludedIfNeeded env s before = .ok (next, after)) :
    after.pk = before.pk ∧ after.includedExpiresAt = before.includedExpiresAt := by
  obtain ⟨_, _, rfl⟩ | ⟨_, rfl, _⟩ := expireIncludedIfNeeded_ok step
  · exact ⟨rfl, rfl⟩
  · exact ⟨rfl, rfl⟩

theorem ensureWallet_lasts {found : AIWallet} (kept : s.Lasts w) (step : ensureWallet env tenant s = .ok (next, found)) : next.Lasts w := by
  obtain ⟨_, present, -⟩ := id kept
  rw [(ensureWallet_present present step).1]
  exact kept

variable {amount : ℚ}

theorem reserve_lasts {key : Option String} {receipt : AIReservation} (kept : s.Lasts w)
    (step : reserve env tenant amount key s = .ok (next, receipt)) : next.Lasts w := by
  have nonneg := reserve_nonneg kept.nonneg step
  obtain ⟨_, present, pk, expires, -⟩ := kept
  obtain ⟨_, _, _, _, _, ensured, expired, _, _, _, _, _, saved, _⟩ := reserve_ok step
  obtain ⟨-, rfl⟩ := ensureWallet_present present ensured
  obtain ⟨same, alike⟩ := expireIncludedIfNeeded_package expired
  exact .saved saved same alike nonneg ⟨pk, expires⟩

theorem release_lasts {reservation : AIReservation} (kept : s.Lasts w) (step : release reservation s = .ok (next, ())) :
    next.Lasts w := by
  cases limited : reservation.unlimited with
  | true =>
    rw [release, if_pos limited] at step
    cases step
    exact kept
  | false =>
    have nonneg := release_nonneg kept.nonneg limited step
    obtain ⟨_, present, pk, expires, -⟩ := kept
    obtain ⟨_, found, _, _, saved, _⟩ := release_ok limited step
    cases present.symm.trans found
    exact .saved saved rfl rfl nonneg ⟨pk, expires⟩

theorem settle_lasts {reservation : AIReservation} {actualAmount charged : ℚ} (kept : s.Lasts w)
    (step : settle reservation actualAmount s = .ok (next, charged)) : next.Lasts w := by
  by_cases done : reservation.unlimited = true ∨ hasKey s (settledKey reservation)
  · rw [(settle_same done step).1]
    exact kept
  · rw [not_or, Bool.not_eq_true] at done
    have nonneg := settle_nonneg kept.nonneg done.1 step
    obtain ⟨_, present, pk, expires, -⟩ := kept
    obtain ⟨_, found, _, _, _, _, _, _, _, _, _, _, rfl, first, second, same, _⟩ := settle_first done.1 done.2 step
    cases present.symm.trans found
    have saved := same.trans ((createCharge_ok second).1.trans ((createCharge_ok first).1.trans (saveWallet_wallet s _)))
    exact .saved saved rfl rfl nonneg ⟨pk, expires⟩

theorem syncIncludedLimit_lasts (kept : s.Lasts w) (step : syncIncludedLimit env tenant s = .ok (next, ())) : next.Lasts w := by
  have nonneg := syncIncludedLimit_nonneg kept.nonneg step
  obtain ⟨_, present, pk, expires, -⟩ := kept
  obtain ⟨_, _, ensured, _, _, _, _, saved, _⟩ := syncIncludedLimit_ok step
  obtain ⟨-, rfl⟩ := ensureWallet_present present ensured
  exact .saved saved rfl rfl nonneg ⟨pk, expires⟩

theorem topup_lasts {key reference : String} (kept : s.Lasts w)
    (step : topup env tenant amount key reference s = .ok (next, ())) : next.Lasts w := by
  have nonneg := topup_nonneg kept.nonneg step
  obtain ⟨_, _, ensured, ⟨_, rfl⟩ | ⟨_, _, _, _, _, saved, _⟩⟩ := topup_ok step
  · exact ensureWallet_lasts kept ensured
  · obtain ⟨_, present, pk, expires, -⟩ := kept
    obtain ⟨-, rfl⟩ := ensureWallet_present present ensured
    exact .saved saved rfl rfl nonneg ⟨pk, expires⟩

theorem reversePurchased_lasts {key reference : String} {kind : TransactionKind} {result : ℚ × ℚ} (kept : s.Lasts w)
    (step : reversePurchased env tenant amount key reference kind s = .ok (next, result)) : next.Lasts w := by
  have nonneg := reversePurchased_nonneg kept.nonneg step
  obtain ⟨_, _, ensured, ⟨_, rfl⟩ | ⟨_, _, _, _, _, _, saved, _⟩⟩ := reversePurchased_ok step
  · exact ensureWallet_lasts kept ensured
  · obtain ⟨_, present, pk, expires, -⟩ := kept
    obtain ⟨-, rfl⟩ := ensureWallet_present present ensured
    exact .saved saved rfl rfl nonneg ⟨pk, expires⟩

theorem WalletStore.next_lasts (s : WalletStore) (a : WalletAction) (kept : s.Lasts w) (ungranted : a.Ungranted) : (s.next a).Lasts w := by
  cases a with
  | ensureWallet => exact commit_preserves _ s _ kept fun _ _ step => ensureWallet_lasts kept step
  | reserve => exact commit_preserves _ s _ kept fun _ _ step => reserve_lasts kept step
  | release => exact commit_preserves _ s _ kept fun _ _ step => release_lasts kept step
  | settle => exact commit_preserves _ s _ kept fun _ _ step => settle_lasts kept step
  | grantIncluded => exact ungranted.elim
  | syncIncludedLimit => exact commit_preserves _ s _ kept fun _ _ step => syncIncludedLimit_lasts kept step
  | topup => exact commit_preserves _ s _ kept fun _ _ step => topup_lasts kept step
  | reversePurchased =>
    exact commit_preserves _ s _ kept fun _ _ step => reversePurchased_lasts kept step

end Runs

section Reserve

def CoveredByPurchase (env : WalletEnv) (tenant : Tenant) (amount : ℚ) (key : Option String) (s : WalletStore) : Prop :=
  ∀ next receipt now, reserve env tenant amount key s = .ok (next, receipt) → s.wallet = some now →
    receipt.amount ≤ max 0 (now.purchasedBalance.value - now.reservedBalance.value)

def Served (env : WalletEnv) (tenant : Tenant) (amount : ℚ) (key : Option String) (s : WalletStore) : Prop :=
  (∃ result, reserve env tenant amount key s = .ok result) ∨ reserve env tenant amount key s = .error .insufficientAICredits

def Refilled (env : WalletEnv) (s : WalletStore) (now : AIWallet) : Prop :=
  0 < now.includedBalance.units ∧ hasKey s (includedExpireKey env now)

variable {env : WalletEnv} {tenant : Tenant} {s lapsed : WalletStore} {now after : AIWallet} {amount : ℚ} {key : Option String}

theorem reserve_steps (present : s.wallet = some now) (expired : expireIncludedIfNeeded env s now = .ok (lapsed, after)) :
    reserve env tenant amount key s =
      (raiseIf (after.availableBalance < max 0 amount) .insufficientAICredits >>= fun _ =>
        writeCredits (after.reservedBalance.value + max 0 amount) >>= fun reservedBalance =>
          createTransaction (saveWallet lapsed { after with reservedBalance }) .reserve .reserved (max 0 amount)
            (reservationKey env key) "" >>= fun s => .ok (s, { key := reservationKey env key, amount := max 0 amount })) := by
  have ensured : ensureWallet env tenant s = .ok (s, now) := by rw [ensureWallet, present]
  simp only [reserve, ensured, expired, bind, Except.bind]
  cases key with
  | none => rfl
  | some => rfl

theorem available_of_empty (empty : after.includedBalance = 0) :
    after.availableBalance = max 0 (after.purchasedBalance.value - after.reservedBalance.value) := by
  rw [AIWallet.availableBalance, AIWallet.totalBalance, empty, Numeric.value_zero, zero_add]

theorem served_of_empty (present : s.wallet = some now) (expired : expireIncludedIfNeeded env s now = .ok (lapsed, after))
    (empty : after.includedBalance = 0) (nonneg : after.Nonneg) (fresh : ¬ hasKey lapsed (reservationKey env key))
    (short : (reservationKey env key).length ≤ 160) : Served env tenant amount key s := by
  unfold Served
  rw [reserve_steps present expired]
  obtain ⟨-, purchased, reserved⟩ := nonneg.values
  have asked : 0 ≤ max 0 amount := le_max_left _ _
  by_cases lack : after.availableBalance < max 0 amount
  · refine .inr ?_
    rw [raiseIf, if_pos lack]
    rfl
  · refine .inl ?_
    have enough : max 0 amount ≤ max 0 (after.purchasedBalance.value - after.reservedBalance.value) := by
      rw [← available_of_empty empty]
      exact not_lt.mp lack
    -- A positive amount leaves the new reserve within the purchased balance, which is a column value.
    have fits : (∃ total, Numeric.store 16 4 (after.reservedBalance.value + max 0 amount) = some total) ∧
        ∃ row, Numeric.store 16 4 (max 0 amount) = some row := by
      rcases le_max_iff.mp enough with none' | _
      · rw [le_antisymm none' asked, add_zero]
        have nothing := Numeric.store_value (0 : Credits)
        rw [Numeric.value_zero] at nothing
        exact ⟨⟨_, Numeric.store_value _⟩, 0, nothing⟩
      · exact ⟨Numeric.store_of_le (n := after.purchasedBalance) (add_nonneg reserved asked) (by linarith),
          Numeric.store_of_le (n := after.purchasedBalance) asked (by linarith)⟩
    obtain ⟨⟨total, total_fits⟩, row, row_fits⟩ := fits
    have journaled := createTransaction_total (s := saveWallet lapsed { after with reservedBalance := total }) .reserve .reserved
      row_fits fresh short (show ("" : String).length ≤ 160 by decide)
    have written : writeCredits (after.reservedBalance.value + max 0 amount) = .ok total := writeCredits_ok.mpr total_fits
    rw [raiseIf, if_neg lack]
    simp only [bind, Except.bind, written, journaled]
    exact ⟨_, rfl⟩

theorem includedExpireKey_ne (env : WalletEnv) (now : AIWallet) : includedExpireKey env now ≠ "" := by
  unfold includedExpireKey
  intro none'
  have length := congrArg String.length none'
  rw [String.length_append, String.length_append, String.length_append] at length
  have first : ("included-expire:" : String).length = 16 := by decide
  have last : ("" : String).length = 0 := by decide
  omega

theorem includedExpireKey_same {old new : AIWallet} (env : WalletEnv) (pk : new.pk = old.pk)
    (expires : new.includedExpiresAt = old.includedExpiresAt) : includedExpireKey env new = includedExpireKey env old := by
  unfold includedExpireKey
  rw [pk, expires]

/-- Past the expiry a fresh reserve never spends included credits, and it is answered exactly when the package was not filled again
after its lapse. -/
theorem reserve_expired (present : s.wallet = some now) (nonneg : now.Nonneg)
    (late : ∃ expires, now.includedExpiresAt = some expires ∧ expires < env.now)
    (fresh : ¬ hasKey s (reservationKey env key)) (short : (reservationKey env key).length ≤ 160)
    (apart : reservationKey env key ≠ includedExpireKey env now) (narrow : (includedExpireKey env now).length ≤ 160) :
    CoveredByPurchase env tenant amount key s ∧ Served env tenant amount key s ↔ ¬ Refilled env s now := by
  have covered {lapsed : WalletStore} {after : AIWallet} (expired : expireIncludedIfNeeded env s now = .ok (lapsed, after))
      (empty : after.includedBalance = 0) (same : after.purchasedBalance = now.purchasedBalance ∧ after.reservedBalance = now.reservedBalance) :
      CoveredByPurchase env tenant amount key s := by
    intro next receipt row made found
    cases present.symm.trans found
    obtain ⟨rfl, _, _, _, _, ensured, again, enough, -⟩ := reserve_ok made
    obtain ⟨rfl, rfl⟩ := ensureWallet_present present ensured
    cases expired.symm.trans again
    rwa [available_of_empty empty, same.1, same.2] at enough
  by_cases full : 0 < now.includedBalance.units
  · have gone : includedExpired env.now now := ⟨late, full⟩
    by_cases used : hasKey s (includedExpireKey env now)
    · have refused : expireIncludedIfNeeded env s now = .error .integrityError := by
        obtain ⟨row, fits⟩ := Numeric.store_neg_of_le (n := now.includedBalance) nonneg.values.1 le_rfl
        have guard : ¬ (160 < (includedExpireKey env now).length ∨ 160 < ("" : String).length) := by
          rw [not_or, not_lt]
          exact ⟨narrow, by decide⟩
        have clash : includedExpireKey env now ≠ "" ∧ hasKey (saveWallet s { now with includedBalance := 0 }) (includedExpireKey env now) :=
          ⟨includedExpireKey_ne env now, used⟩
        have same : includedExpireKey env { now with includedBalance := 0 } = includedExpireKey env now := rfl
        simp only [expireIncludedIfNeeded, if_pos gone, createTransaction, same, raiseIf, if_neg guard, writeCredits_ok.mpr fits,
          if_pos clash, bind, Except.bind]
      have failed : reserve env tenant amount key s = .error .integrityError := by
        have ensured : ensureWallet env tenant s = .ok (s, now) := by rw [ensureWallet, present]
        simp only [reserve, ensured, refused, bind, Except.bind]
      refine iff_of_false ?_ (not_not.mpr ⟨full, used⟩)
      rintro ⟨-, ⟨_, made⟩ | short⟩
      · rw [failed] at made
        cases made
      · rw [failed] at short
        cases short
    · obtain ⟨row, fits⟩ := Numeric.store_neg_of_le (n := now.includedBalance) nonneg.values.1 le_rfl
      have journaled := createTransaction_total (s := saveWallet s { now with includedBalance := 0 }) .expire .included
        fits used narrow (show ("" : String).length ≤ 160 by decide)
      have lapse : expireIncludedIfNeeded env s now = .ok ({ saveWallet s { now with includedBalance := 0 } with
          transactions := s.transactions ++ [⟨.expire, .included, row, includedExpireKey env now, ""⟩] },
          { now with includedBalance := 0 }) := by
        have same : includedExpireKey env { now with includedBalance := 0 } = includedExpireKey env now := rfl
        simp only [expireIncludedIfNeeded, if_pos gone, same, journaled, bind, Except.bind]
        rfl
      refine iff_of_true ⟨covered lapse rfl ⟨rfl, rfl⟩, ?_⟩ fun refilled => used refilled.2
      refine served_of_empty present lapse rfl ⟨by simp, nonneg.purchased, nonneg.reserved⟩ ?_ short
      rintro ⟨other, mem, named⟩
      rcases List.mem_append.mp mem with before | added
      · exact fresh ⟨other, before, named⟩
      · rw [List.mem_singleton.mp added] at named
        exact apart named.symm
  · have empty : now.includedBalance = 0 := by
      apply Numeric.ext
      rw [Numeric.units_zero]
      exact le_antisymm (not_lt.mp full) nonneg.included
    have alive : ¬ includedExpired env.now now := fun gone => full gone.2
    have lapse : expireIncludedIfNeeded env s now = .ok (s, now) := by rw [expireIncludedIfNeeded, if_neg alive]
    exact iff_of_true ⟨covered lapse empty ⟨rfl, rfl⟩, served_of_empty present lapse empty nonneg fresh short⟩
      fun refilled => full refilled.1

end Reserve

/-- In the state that any run without a new package reaches, a fresh reserve past the expiry spends no included credits and is answered,
exactly when the package was not filled again after its lapse. -/
theorem expired_credits_stay_dead (s : WalletStore) (w : AIWallet) (present : s.wallet = some w) (nonneg : w.Nonneg)
    (actions : List WalletAction) (ungranted : ∀ a ∈ actions, a.Ungranted) (env : WalletEnv) (tenant : Tenant) (amount : ℚ)
    (key : Option String) (late : ∃ expires, w.includedExpiresAt = some expires ∧ expires < env.now)
    (fresh : ¬ hasKey (run WalletStore.next s actions) (reservationKey env key)) (short : (reservationKey env key).length ≤ 160)
    (apart : reservationKey env key ≠ includedExpireKey env w) (narrow : (includedExpireKey env w).length ≤ 160) :
    let reached := run WalletStore.next s actions
    CoveredByPurchase env tenant amount key reached ∧ Served env tenant amount key reached ↔
      ∀ now, reached.wallet = some now → ¬ Refilled env reached now := by
  intro reached
  have kept : reached.Lasts w := run_invariant WalletStore.next (fun s a kept allowed => s.next_lasts a kept allowed)
    ⟨w, present, rfl, rfl, nonneg⟩ (meets_of_mem WalletStore.next ungranted s)
  obtain ⟨now, found, pk, expires, sound⟩ := kept
  have named := includedExpireKey_same env pk expires
  rw [reserve_expired found sound (by rw [expires]; exact late) fresh short (by rw [named]; exact apart) (by rw [named]; exact narrow)]
  constructor
  · intro unfilled row present
    cases found.symm.trans present
    exact unfilled
  · exact fun unfilled => unfilled now found

section Runs

def raised {E R : Type} : Except E R → Option E
  | .ok _ => none
  | .error e => some e

theorem ten_fits : (100000 : ℤ).natAbs < 10 ^ 16 := by decide

theorem hundred_fits : (1000000 : ℤ).natAbs < 10 ^ 16 := by decide

def lapsedWallet : AIWallet :=
  { pk := 1, includedBalance := ⟨100000, ten_fits⟩, includedLimit := ⟨100000, ten_fits⟩, purchasedBalance := ⟨1000000, hundred_fits⟩,
    reservedBalance := 0, includedExpiresAt := some 0 }

def lapsedStore : WalletStore := { wallet := some lapsedWallet, transactions := [] }

theorem lapsedWallet_nonneg : lapsedWallet.Nonneg := ⟨by decide, by decide, by decide⟩

def afterExpiry : WalletEnv := { walletEnv "" with now := 1000000 }

def lapsed : List WalletAction := [.reserve afterExpiry bareTenant 5 (some "media-job:1:credits:1")]

def refilled : List WalletAction := lapsed ++ [.syncIncludedLimit afterExpiry { bareTenant with aiCreditLimitOverride := some 20 }]

theorem expired_credits_stay_dead_lapsed :
    CoveredByPurchase afterExpiry bareTenant 5 (some "media-job:2:credits:1") (run WalletStore.next lapsedStore lapsed) ∧
      Served afterExpiry bareTenant 5 (some "media-job:2:credits:1") (run WalletStore.next lapsedStore lapsed) := by
  have empty : ∀ now ∈ (run WalletStore.next lapsedStore lapsed).wallet, now.includedBalance.units = 0 := by decide +kernel
  refine (expired_credits_stay_dead lapsedStore lapsedWallet rfl lapsedWallet_nonneg lapsed
    (fun a mem => List.mem_singleton.mp mem ▸ trivial) afterExpiry bareTenant 5 (some "media-job:2:credits:1") ⟨0, rfl, by decide⟩
    (by decide +kernel) (by decide) (by decide +kernel) (by decide +kernel)).mpr ?_
  intro now found full
  rw [Refilled, empty now found] at full
  exact lt_irrefl 0 full.1

/-- Once a sync has filled the package again, the next job fails on the key of the lapse. -/
theorem expired_credits_refilled : ¬ ∀ (s : WalletStore) (w : AIWallet), s.wallet = some w → w.Nonneg →
    ∀ actions : List WalletAction, (∀ a ∈ actions, a.Ungranted) → ∀ (env : WalletEnv) (tenant : Tenant) (amount : ℚ) (key : Option String),
      (∃ expires, w.includedExpiresAt = some expires ∧ expires < env.now) →
      ¬ hasKey (run WalletStore.next s actions) (reservationKey env key) → (reservationKey env key).length ≤ 160 →
      reservationKey env key ≠ includedExpireKey env w → (includedExpireKey env w).length ≤ 160 →
      CoveredByPurchase env tenant amount key (run WalletStore.next s actions) ∧
        Served env tenant amount key (run WalletStore.next s actions) := by
  intro always
  have ungranted : ∀ a ∈ refilled, a.Ungranted := by
    intro a mem
    simp only [refilled, lapsed, List.cons_append, List.nil_append, List.mem_cons, List.not_mem_nil, or_false] at mem
    rcases mem with rfl | rfl
    · trivial
    · trivial
  obtain ⟨-, served⟩ := always lapsedStore lapsedWallet rfl lapsedWallet_nonneg refilled ungranted afterExpiry bareTenant 5
    (some "media-job:2:credits:1") ⟨0, rfl, by decide⟩ (by decide +kernel) (by decide) (by decide +kernel) (by decide +kernel)
  have clash : raised (reserve afterExpiry bareTenant 5 (some "media-job:2:credits:1") (run WalletStore.next lapsedStore refilled)) =
      some .integrityError := by decide +kernel
  rcases served with ⟨_, made⟩ | short
  · rw [made] at clash
    cases clash
  · rw [short] at clash
    cases clash

end Runs

end MapBackend.Billing
