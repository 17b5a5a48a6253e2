import MapBackend.Billing.AIWalletRun

/-!
The operations of the wallet service by any caller, with any receipts.
-/

namespace MapBackend.Billing
open MapBackend.Library AIWalletService

def WalletStore.next (s : WalletStore) : WalletAction → WalletStore
  | .ensureWallet env tenant => commit s (ensureWallet env tenant s)
  | .reserve env tenant amount key => commit s (reserve env tenant amount key s)
  | .release reservation => commit s (release reservation s)
  | .settle reservation actualAmount => commit s (settle reservation actualAmount s)
  | .grantIncluded env tenant amount periodEnd key => commit s (grantIncluded env tenant amount periodEnd key s)
  | .syncIncludedLimit env tenant => commit s (syncIncludedLimit env tenant s)
  | .topup env tenant amount key reference => commit s (topup env tenant amount key reference s)
  | .reversePurchased env tenant amount key reference kind =>
    commit s (reversePurchased env tenant amount key reference kind s)

def WalletAction.Genuine : WalletAction → Prop
  | .reversePurchased _ _ _ _ _ kind => kind = .refund ∨ kind = .chargeback
  | _ => True

structure Extends (fits : AICreditTransaction → Prop) (s next : WalletStore) : Prop where
  wallet : s.wallet.isSome = true → next.wallet.isSome = true
  rows : ∃ added, next.transactions = s.transactions ++ added ∧ ∀ row ∈ added, fits row

section Growth

variable {fits : AICreditTransaction → Prop} {s middle next : WalletStore}

theorem Extends.refl (s : WalletStore) : Extends fits s s := ⟨id, [], by simp, fun row none => nomatch none⟩

theorem Extends.trans (first : Extends fits s middle) (second : Extends fits middle next) : Extends fits s next := by
  obtain ⟨added, rows, own⟩ := first.rows
  obtain ⟨more, later, others⟩ := second.rows
  refine ⟨fun present => second.wallet (first.wallet present), added ++ more, by rw [later, rows, List.append_assoc], fun row mem => ?_⟩
  rcases List.mem_append.mp mem with old | new
  · exact own row old
  · exact others row new

theorem Extends.mono {other : AICreditTransaction → Prop} (weaken : ∀ row, fits row → other row) (grows : Extends fits s next) :
    Extends other s next := by
  obtain ⟨added, rows, own⟩ := grows.rows
  exact ⟨grows.wallet, added, rows, fun row mem => weaken row (own row mem)⟩

theorem Extends.saved {wallet : AIWallet} (found : next.wallet = some wallet) (rows : next.transactions = s.transactions) :
    Extends fits s next := ⟨fun _ => by rw [found]; rfl, [], by simp [rows], fun row none => nomatch none⟩

theorem Extends.wrote {wallet : AIWallet} {row : AICreditTransaction} (found : next.wallet = some wallet)
    (rows : next.transactions = s.transactions ++ [row]) (own : fits row) : Extends fits s next :=
  ⟨fun _ => by rw [found]; rfl, [row], rows, fun other mem => List.mem_singleton.mp mem ▸ own⟩

theorem Extends.hasKey (grows : Extends fits s next) {key : String} (used : hasKey s key) : hasKey next key := by
  obtain ⟨_, rows, -⟩ := grows.rows
  obtain ⟨row, mem, same⟩ := used
  exact ⟨row, by rw [rows]; exact List.mem_append_left _ mem, same⟩

theorem commit_extends {R : Type} {outcome : Except WalletError (WalletStore × R)}
    (ok : ∀ next result, outcome = .ok (next, result) → Extends fits s next) : Extends fits s (commit s outcome) := by
  cases made : outcome with
  | error => exact Extends.refl s
  | ok pair => exact ok pair.1 pair.2 made

end Growth

def NoCharge (row : AICreditTransaction) : Prop := row.kind ≠ .charge

section Operations

variable {env : WalletEnv} {tenant : Tenant} {s next : WalletStore}

theorem ensureWallet_extends {wallet : AIWallet} (step : ensureWallet env tenant s = .ok (next, wallet)) : Extends NoCharge s next := by
  obtain ⟨found, ⟨_, rfl⟩ | ⟨_, _, ⟨_, same⟩ | rows⟩⟩ := ensureWallet_ok step
  · exact Extends.refl _
  · exact Extends.saved found same
  · exact Extends.wrote found rows (by simp [NoCharge])

theorem expireIncludedIfNeeded_extends {before after : AIWallet} (step : expireIncludedIfNeeded env s before = .ok (next, after)) :
    Extends NoCharge s next := by
  obtain ⟨_, rfl, _⟩ | ⟨_, _, found, _, _, rows⟩ := expireIncludedIfNeeded_ok step
  · exact Extends.refl _
  · exact Extends.wrote found rows (by simp [NoCharge])

variable {amount : ℚ}

theorem reserve_extends {key : Option String} {receipt : AIReservation}
    (step : reserve env tenant amount key s = .ok (next, receipt)) : Extends NoCharge s next := by
  obtain ⟨_, _, _, s₂, _, ensured, expired, _, _, _, _, _, found, rows⟩ := reserve_ok step
  have own : Extends NoCharge s₂ next := Extends.wrote found rows (by simp [NoCharge])
  exact (ensureWallet_extends ensured).trans ((expireIncludedIfNeeded_extends expired).trans own)

variable {reservation : AIReservation}

theorem release_extends (step : release reservation s = .ok (next, ())) : Extends NoCharge s next := by
  cases limited : reservation.unlimited with
  | true =>
    rw [release, if_pos limited] at step
    cases step
    exact Extends.refl _
  | false =>
    obtain ⟨w, _, _, _, found, ⟨_, same⟩ | ⟨_, _, _, rows⟩⟩ := release_ok limited step
    · exact Extends.saved found same
    · exact Extends.wrote found rows (by simp [NoCharge])

theorem expireReplaced_extends {w : AIWallet} {key : String} (step : expireReplaced s w key = .ok next) : Extends NoCharge s next := by
  obtain ⟨same, ⟨_, rows⟩ | ⟨row, _, rows⟩⟩ := expireReplaced_ok step
  · exact ⟨fun present => by rw [same]; exact present, [], by simp [rows], fun row none => nomatch none⟩
  · refine ⟨fun present => by rw [same]; exact present, _, rows, fun other mem => ?_⟩
    rw [List.mem_singleton.mp mem]
    simp [NoCharge]

theorem grantIncluded_extends {amount : Option ℚ} {periodEnd : Option CivilDate} {key : String}
    (step : grantIncluded env tenant amount periodEnd key s = .ok (next, ())) : Extends NoCharge s next := by
  obtain ⟨_, _, ensured, ⟨_, rfl⟩ | ⟨_, s₂, lapsed, _, _, found, rows⟩⟩ := grantIncluded_ok step
  · exact ensureWallet_extends ensured
  · have own : Extends NoCharge s₂ next := Extends.wrote found rows (by simp [NoCharge])
    exact (ensureWallet_extends ensured).trans ((expireReplaced_extends lapsed).trans own)

theorem syncIncludedLimit_extends (step : syncIncludedLimit env tenant s = .ok (next, ())) : Extends NoCharge s next := by
  obtain ⟨_, _, ensured, _, _, _, _, found, ⟨_, same⟩ | ⟨_, _, rows⟩⟩ := syncIncludedLimit_ok step
  · exact (ensureWallet_extends ensured).trans (Extends.saved found same)
  · exact (ensureWallet_extends ensured).trans (Extends.wrote found rows (by simp [NoCharge]))

variable {key reference : String}

theorem topup_extends (step : topup env tenant amount key reference s = .ok (next, ())) :
    Extends NoCharge s next := by
  obtain ⟨_, _, ensured, ⟨_, rfl⟩ | ⟨_, _, _, _, _, found, rows⟩⟩ := topup_ok step
  · exact ensureWallet_extends ensured
  · exact (ensureWallet_extends ensured).trans (Extends.wrote found rows (by simp [NoCharge]))

theorem reversePurchased_extends {kind : TransactionKind} {result : ℚ × ℚ}
    (genuine : kind = .refund ∨ kind = .chargeback)
    (step : reversePurchased env tenant amount key reference kind s = .ok (next, result)) : Extends NoCharge s next := by
  obtain ⟨_, _, ensured, ⟨_, rfl⟩ | ⟨_, _, _, _, _, _, found, rows⟩⟩ := reversePurchased_ok step
  · exact ensureWallet_extends ensured
  · refine (ensureWallet_extends ensured).trans (Extends.wrote found rows ?_)
    rcases genuine with rfl | rfl <;> simp [NoCharge]

theorem createCharge_extends {wallet : AIWallet} {balanceType : BalanceType} {charged : ℚ}
    (found : s.wallet = some wallet) (step : createCharge s balanceType charged key reference = .ok next) :
    Extends (fun row => row.reference = reference) s next ∧ next.wallet = some wallet := by
  obtain ⟨same, ⟨_, rows⟩ | ⟨_, _, _, rows⟩⟩ := createCharge_ok step
  · exact ⟨Extends.saved (same.trans found) rows, same.trans found⟩
  · exact ⟨Extends.wrote (same.trans found) rows rfl, same.trans found⟩

theorem settle_first_extends {actualAmount charged : ℚ} (limited : reservation.unlimited = false)
    (fresh : ¬ hasKey s (settledKey reservation)) (step : settle reservation actualAmount s = .ok (next, charged)) :
    Extends (fun row => row.reference = reservation.key) s next := by
  obtain ⟨w, _, _, _, _, _, _, _, _, _, _, _, rfl, first, second, same, _, _, rows⟩ := settle_first limited fresh step
  obtain ⟨grows₁, found₁⟩ := createCharge_extends (saveWallet_wallet s _) first
  obtain ⟨grows₂, found₂⟩ := createCharge_extends found₁ second
  exact (@Extends.saved _ s _ _ (saveWallet_wallet s _) rfl).trans (grows₁.trans (grows₂.trans (Extends.wrote (same.trans found₂) rows rfl)))

theorem settle_same {actualAmount charged : ℚ}
    (done : reservation.unlimited = true ∨ hasKey s (settledKey reservation))
    (step : settle reservation actualAmount s = .ok (next, charged)) : next = s ∧ charged = max 0 actualAmount := by
  cases limited : reservation.unlimited with
  | true =>
    rw [settle, if_pos limited] at step
    cases step
    exact ⟨rfl, rfl⟩
  | false =>
    exact settle_again limited (done.resolve_left (by rw [limited]; decide)) step

end Operations

theorem WalletStore.next_extends (s : WalletStore) (a : WalletAction) (genuine : a.Genuine) :
    Extends (fun row => row.kind = .charge → ∃ reservation, ¬ hasKey s (settledKey reservation) ∧ row.reference = reservation.key)
      s (s.next a) := by
  have silent {next : WalletStore} (grows : Extends NoCharge s next) : Extends (fun row => row.kind = .charge →
      ∃ reservation, ¬ hasKey s (settledKey reservation) ∧ row.reference = reservation.key) s next :=
    grows.mono fun row other charge => absurd charge other
  cases a with
  | ensureWallet => exact commit_extends fun next _ step => silent (ensureWallet_extends step)
  | reserve => exact commit_extends fun next _ step => silent (reserve_extends step)
  | release => exact commit_extends fun next _ step => silent (release_extends step)
  | settle reservation =>
    refine commit_extends fun next charged step => ?_
    by_cases done : reservation.unlimited = true ∨ hasKey s (settledKey reservation)
    · rw [(settle_same done step).1]
      exact Extends.refl s
    · rw [not_or, Bool.not_eq_true] at done
      exact (settle_first_extends done.1 done.2 step).mono fun row same _ => ⟨reservation, done.2, same⟩
  | grantIncluded => exact commit_extends fun next _ step => silent (grantIncluded_extends step)
  | syncIncludedLimit => exact commit_extends fun next _ step => silent (syncIncludedLimit_extends step)
  | topup => exact commit_extends fun next _ step => silent (topup_extends step)
  | reversePurchased =>
    exact commit_extends fun next _ step => silent (reversePurchased_extends genuine step)

end MapBackend.Billing
