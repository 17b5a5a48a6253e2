import MapBackend.Billing.PaymentRun
import MapBackend.Billing.SubscriptionTerms

/-!
What the operations of a subscription leave in its row, in the wallet and in the journal: the keys under which packages
are granted, and the rows that no package owns.
-/

namespace MapBackend.Billing
open MapBackend.Library BillingService

/-! ## Keys of packages -/

inductive GrantKey where
  | version (n : ℕ)
  | period (start fin : CivilDate)

namespace GrantKey

def suffix : GrantKey → List Char
  | .version n => 'v' :: Nat.toDigits 10 n
  | .period start fin => start.textChars ++ ':' :: fin.textChars

theorem digits_colon (n : ℕ) : ':' ∉ Nat.toDigits 10 n := by
  intro mem
  have digit := Nat.isDigit_of_mem_toDigits (by decide) (by decide) mem
  exact absurd digit (by decide)

variable {a b : GrantKey}

theorem suffix_inj (same : a.suffix = b.suffix) : a = b := by
  cases a with
  | version =>
    cases b with
    | version =>
      have digits := congrArg (fun text => Nat.ofDigitChars 10 text 0) (List.cons.inj same).2
      simp only [Nat.ofDigitChars_ten_toDigits] at digits
      rw [digits]
    | period start =>
      have head := congrArg List.head? same
      exact absurd head.symm (start.textChars_head _)
  | period start =>
    cases b with
    | version =>
      have head := congrArg List.head? same
      exact absurd head (start.textChars_head _)
    | period =>
      obtain ⟨first, rest⟩ := List.append_inj same rfl
      rw [CivilDate.textChars_injective first, CivilDate.textChars_injective (List.cons.inj rest).2]

theorem suffix_expire : a.suffix ≠ b.suffix ++ ":expire".toList := by
  intro same
  cases a with
  | version n =>
    cases b with
    | version m =>
      have digits : Nat.toDigits 10 n = Nat.toDigits 10 m ++ ":expire".toList := (List.cons.inj same).2
      have colon : ':' ∈ Nat.toDigits 10 n := by
        rw [digits]
        exact List.mem_append_right _ (by decide)
      exact digits_colon n colon
    | period start =>
      have head := congrArg List.head? same
      rw [suffix, suffix, List.append_assoc] at head
      exact absurd head.symm (start.textChars_head _)
  | period start =>
    cases b with
    | version =>
      have head := congrArg List.head? same
      exact absurd head (start.textChars_head _)
    | period =>
      have length := congrArg List.length same
      simp [suffix, CivilDate.textChars_length] at length

def text (pk : ℕ) (key : GrantKey) : List Char := "subscription-grant:".toList ++ (Nat.toDigits 10 pk ++ ':' :: key.suffix)

theorem text_head (pk : ℕ) (key : GrantKey) : (key.text pk).head? = some 's' := by
  have first : "subscription-grant:".toList = 's' :: "ubscription-grant:".toList := by decide
  unfold text
  generalize "subscription-grant:".toList = base at *
  generalize "ubscription-grant:".toList = rest at *
  subst first
  rfl

theorem text_inj {pk : ℕ} (same : a.text pk = b.text pk) : a = b := by
  unfold text at same
  have tail := List.append_cancel_left same
  have rest := List.append_cancel_left tail
  exact suffix_inj (List.cons.inj rest).2

theorem text_expire {pk : ℕ} : a.text pk ≠ b.text pk ++ ":expire".toList := by
  intro same
  unfold text at same
  rw [List.append_assoc, List.append_assoc, List.cons_append] at same
  have tail := List.append_cancel_left same
  have rest := List.append_cancel_left tail
  exact suffix_expire (List.cons.inj rest).2

end GrantKey

theorem toString_toList (n : ℕ) : (toString n).toList = Nat.toDigits 10 n := Nat.toList_repr

theorem versionGrantKey_toList (sub : Subscription) :
    (versionGrantKey sub).toList = (GrantKey.version sub.billingVersion).text sub.pk := by
  have colon : ":v".toList = [':', 'v'] := by decide
  unfold versionGrantKey GrantKey.text GrantKey.suffix
  simp only [String.toList_append, toString_toList, colon]
  generalize "subscription-grant:".toList = base
  simp only [List.append_assoc, List.cons_append, List.nil_append]

theorem periodGrantKey_toList (sub : Subscription) (start fin : CivilDate) :
    (periodGrantKey sub start fin).toList = (GrantKey.period start fin).text sub.pk := by
  have colon : ":".toList = [':'] := by decide
  unfold periodGrantKey GrantKey.text GrantKey.suffix
  simp only [String.toList_append, toString_toList, colon, CivilDate.text_toList]
  generalize "subscription-grant:".toList = base
  simp only [List.append_assoc, List.cons_append, List.nil_append]

/-! ## The journal -/

def Foreign (row : AICreditTransaction) : Prop := row.idempotencyKey.toList.head? ≠ some 's'

/-- The keys of packages in the journal, with the expiries under them, are among the given ones. -/
def KeysGiven (pk : ℕ) (given : GrantKey → Prop) (credits : WalletStore) : Prop :=
  ∀ row ∈ credits.transactions, Foreign row ∨ ∃ key, given key ∧
    (row.idempotencyKey.toList = key.text pk ∨ row.idempotencyKey.toList = key.text pk ++ ":expire".toList)

theorem KeysGiven.unused {pk : ℕ} {given : GrantKey → Prop} {credits : WalletStore} (known : KeysGiven pk given credits)
    {key : GrantKey} (fresh : ¬ given key) {name : String} (named : name.toList = key.text pk) :
    ¬ AIWalletService.hasKey credits name := by
  rintro ⟨row, mem, rfl⟩
  rcases known row mem with foreign | ⟨_, there, same | same⟩
  · exact foreign (by rw [named, GrantKey.text_head])
  · rw [named] at same
    exact fresh (GrantKey.text_inj same ▸ there)
  · rw [named] at same
    exact GrantKey.text_expire same

theorem bootstrap_foreign (pk : ℕ) : ("wallet-bootstrap:" ++ toString pk).toList.head? ≠ some 's' := by
  have first : "wallet-bootstrap:".toList = 'w' :: "allet-bootstrap:".toList := by decide
  rw [String.toList_append, first]
  generalize "allet-bootstrap:".toList = rest
  simp

theorem topupKey_foreign (paymentId : String) : (topupKey paymentId).toList.head? ≠ some 's' := by
  have first : "yookassa-topup:".toList = 'y' :: "ookassa-topup:".toList := by decide
  rw [topupKey, String.toList_append, first]
  generalize "ookassa-topup:".toList = rest
  simp

structure PackageGranted (s next : WalletStore) (key : String) (expires : Option Instant) : Prop where
  wallet : ∃ wallet ∈ next.wallet, wallet.includedExpiresAt = expires
  counted : next.transactions.countP isPackage = s.transactions.countP isPackage + 1
  rows : ∀ row ∈ next.transactions, row ∈ s.transactions ∨ Foreign row ∨ row.idempotencyKey = key ∨
    row.idempotencyKey = key ++ ":expire"

structure PackageKept (s next : WalletStore) : Prop where
  wallet : ∀ wallet ∈ s.wallet, ∃ kept ∈ next.wallet, kept.includedExpiresAt = wallet.includedExpiresAt
  counted : next.transactions.countP isPackage = s.transactions.countP isPackage
  rows : ∀ row ∈ next.transactions, row ∈ s.transactions ∨ Foreign row

theorem PackageKept.refl (s : WalletStore) : PackageKept s s :=
  ⟨fun wallet found => ⟨wallet, found, rfl⟩, rfl, fun _ mem => .inl mem⟩

variable {tenant : Tenant}

theorem ensureWallet_kept {env : WalletEnv} {s next : WalletStore} {wallet : AIWallet}
    (step : AIWalletService.ensureWallet env tenant s = .ok (next, wallet)) : PackageKept s next ∧ next.wallet = some wallet := by
  obtain ⟨found, ⟨-, rfl⟩ | ⟨none, -, made⟩⟩ := AIWalletService.ensureWallet_ok step
  · exact ⟨.refl next, found⟩
  · refine ⟨⟨fun wallet there => ?_, ?_, fun row mem => ?_⟩, found⟩
    · rw [none] at there
      cases there
    · rcases made with ⟨-, same⟩ | same
      · rw [same]
      · rw [same, List.countP_append]
        rfl
    · rcases made with ⟨-, same⟩ | same
      · rw [same] at mem
        exact .inl mem
      · rw [same] at mem
        refine (List.mem_append.mp mem).imp_right fun last => ?_
        rw [List.mem_singleton.mp last]
        exact bootstrap_foreign tenant.pk

theorem grantIncluded_granted {env : WalletEnv} {amount : Option ℚ} {periodEnd : Option CivilDate}
    {key : String} {s next : WalletStore}
    (step : AIWalletService.grantIncluded env tenant amount periodEnd key s = .ok (next, ()))
    (unused : ¬ AIWalletService.hasKey s key) (named : key.toList.head? = some 's') :
    PackageGranted s next key (periodEnd.map env.zone.endOfDay) := by
  obtain ⟨s₁, _, ensured, outcome⟩ := AIWalletService.grantIncluded_ok step
  obtain ⟨kept, -⟩ := ensureWallet_kept ensured
  have still : ¬ AIWalletService.hasKey s₁ key := by
    rintro ⟨row, mem, rfl⟩
    rcases kept.rows row mem with before | foreign
    · exact unused ⟨row, before, rfl⟩
    · exact foreign named
  rcases outcome with ⟨used, -⟩ | ⟨-, s₂, expired, _, -, wallet, rows⟩
  · exact absurd used still
  · obtain ⟨-, lapsed⟩ := AIWalletService.expireReplaced_ok expired
    refine ⟨⟨_, wallet, rfl⟩, ?_, fun row mem => ?_⟩
    · have counted : s₂.transactions.countP isPackage = s₁.transactions.countP isPackage := by
        rcases lapsed with ⟨-, same⟩ | ⟨_, -, same⟩
        · rw [same]
        · rw [same, List.countP_append]
          rfl
      rw [rows, List.countP_append, counted, kept.counted]
      rfl
    · rw [rows] at mem
      rcases List.mem_append.mp mem with before | last
      · rcases lapsed with ⟨-, same⟩ | ⟨_, -, same⟩
        · rw [same] at before
          exact (kept.rows row before).imp_right .inl
        · rw [same] at before
          rcases List.mem_append.mp before with older | lapse
          · exact (kept.rows row older).imp_right .inl
          · rw [List.mem_singleton.mp lapse]
            exact .inr (.inr (.inr rfl))
      · rw [List.mem_singleton.mp last]
        exact .inr (.inr (.inl rfl))

theorem topup_kept {env : WalletEnv} {amount : ℚ} {paymentId reference : String} {s next : WalletStore}
    (step : AIWalletService.topup env tenant amount (topupKey paymentId) reference s = .ok (next, ())) : PackageKept s next := by
  obtain ⟨_, _, ensured, outcome⟩ := AIWalletService.topup_ok step
  obtain ⟨kept, found⟩ := ensureWallet_kept ensured
  rcases outcome with ⟨-, rfl⟩ | ⟨-, _, _, -, -, wallet, rows⟩
  · exact kept
  · refine ⟨fun before there => ?_, ?_, fun other mem => ?_⟩
    · obtain ⟨_, is, expires⟩ := kept.wallet before there
      rw [found] at is
      cases is
      exact ⟨_, wallet, expires⟩
    · rw [rows, List.countP_append, kept.counted]
      rfl
    · rw [rows] at mem
      rcases List.mem_append.mp mem with before | last
      · exact kept.rows other before
      · rw [List.mem_singleton.mp last]
        exact .inr (topupKey_foreign paymentId)

/-! ## Payments -/

structure SamePeriod (sub later : Subscription) : Prop where
  pk : later.pk = sub.pk
  aiPeriod : later.aiPeriod = sub.aiPeriod
  version : sub.billingVersion ≤ later.billingVersion

variable {env : BillingEnv} {s next : BillingStore} {sub : Subscription} {result : Bool}

theorem fulfilSubscription_term {invoice : Invoice} {purchase : SubscriptionPurchase} (step : fulfilSubscription env invoice sub purchase s = .ok (next, result)) :
    ∃ extended, extendSubscription env sub purchase = some extended ∧ next.tenant.subscription = some extended ∧
      ((purchase.legacyStatusOnly = true ∧ next.credits = s.credits) ∨
        (purchase.legacyStatusOnly = false ∧ ∃ tenant, AIWalletService.grantIncluded env.toWalletEnv tenant
          (some (AIWalletService.effectiveLimit tenant)) extended.aiPeriodEnd (versionGrantKey extended) s.credits =
            .ok (next.credits, ()))) := by
  simp only [fulfilSubscription, bind_ok, orRaise_ok] at step
  obtain ⟨extended, extends_, ⟨_, ⟨⟩⟩, granted, _, noted, _, queued, made⟩ := step
  cases made
  obtain ⟨_, rfl⟩ := enqueueNotification_ok noted
  obtain ⟨_, rfl⟩ := enqueue_ok queued
  refine ⟨extended, extends_, ?_⟩
  unfold grantPaidTerm at granted
  cases legacy : purchase.legacyStatusOnly with
  | true =>
    rw [legacy] at granted
    cases granted
    exact ⟨rfl, .inl ⟨rfl, rfl⟩⟩
  | false =>
    rw [legacy] at granted
    obtain ⟨_, performed, rfl⟩ := withCredits_ok granted
    exact ⟨rfl, .inr ⟨rfl, _, performed⟩⟩

theorem aiPeriod_month {today month fin : CivilDate} (found : today.addMonths 1 = some month)
    (le : month ≤ fin) (period : sub.aiPeriod = (some today, some (min month fin))) : sub.aiPeriod = monthFrom today := by
  rw [period, min_eq_left le, monthFrom, found]

theorem extendSubscription_term {sub extended : Subscription} {purchase : SubscriptionPurchase}
    (made : extendSubscription env sub purchase = some extended) :
    extended.pk = sub.pk ∧ extended.billingVersion = sub.billingVersion + 1 ∧
      (purchase.legacyStatusOnly = true → extended.aiPeriod = sub.aiPeriod) ∧
      (purchase.legacyStatusOnly = false → extended.aiPeriod = monthFrom (env.zone.localdate env.now)) := by
  unfold extendSubscription at made
  split at made
  next legacy =>
    cases made
    exact ⟨rfl, rfl, fun _ => rfl, fun paid => absurd (legacy.symm.trans paid) Bool.true_eq_false.mp⟩
  next paid =>
    have base_le : env.zone.localdate env.now ≤
        if sub.status = .trial then env.zone.localdate env.now else max (env.zone.localdate env.now) sub.currentPeriodEnd := by
      split
      · exact le_refl _
      · exact le_max_left _ _
    dsimp only at made
    generalize (if sub.status = .trial then env.zone.localdate env.now
      else max (env.zone.localdate env.now) sub.currentPeriodEnd) = base at base_le made
    cases period : purchase.period with
    | yearly =>
      simp only [period, Option.bind_eq_bind, Option.bind_eq_some_iff] at made
      obtain ⟨fin, reached, month, found, made⟩ := made
      cases made
      refine ⟨rfl, rfl, fun legacy => absurd legacy paid, fun _ => ?_⟩
      exact aiPeriod_month found (CivilDate.addMonths_le_addYear base_le found reached) rfl
    | monthly =>
      simp only [period, Option.bind_eq_bind, Option.bind_eq_some_iff] at made
      obtain ⟨fin, reached, month, found, made⟩ := made
      cases made
      refine ⟨rfl, rfl, fun legacy => absurd legacy paid, fun _ => ?_⟩
      exact aiPeriod_month found (CivilDate.addMonths_mono base_le found reached) rfl

theorem paymentSuccess_term {invoiceId : ℕ} {paymentId : String} {amount : Option ℚ} {currency : String}
    (step : handlePaymentSuccessWebhook env invoiceId paymentId amount currency s = .ok (next, result)) :
    (next.tenant.subscription = s.tenant.subscription ∧ PackageKept s.credits next.credits) ∨
      ∃ sub extended, s.tenant.subscription = some sub ∧ next.tenant.subscription = some extended ∧
        ((SamePeriod sub extended ∧ next.credits = s.credits) ∨
          (purchasedTerm env s invoiceId paymentId amount currency = some extended ∧ extended.pk = sub.pk ∧
            extended.billingVersion = sub.billingVersion + 1 ∧ extended.aiPeriod = monthFrom (env.zone.localdate env.now) ∧
            ∃ tenant, AIWalletService.grantIncluded env.toWalletEnv tenant
              (some (AIWalletService.effectiveLimit tenant)) extended.aiPeriodEnd (versionGrantKey extended) s.credits =
                .ok (next.credits, ()))) := by
  unfold handlePaymentSuccessWebhook at step
  have reviewed (old : Invoice) (reason : String) (refused : refuse s old reason = .ok (next, result)) :
      next.tenant.subscription = s.tenant.subscription ∧ PackageKept s.credits next.credits := by
    cases refused
    exact ⟨rfl, .refl _⟩
  cases found : getInvoice s invoiceId with
  | none =>
    simp only [found] at step
    cases step
    exact .inl ⟨rfl, .refl _⟩
  | some old =>
    simp only [found] at step
    split at step
    · exact .inl (reviewed _ _ step)
    next owned =>
    rw [not_or, not_not] at owned
    cases parsed : parseAmount amount with
    | none =>
      simp only [parsed] at step
      exact .inl (reviewed _ _ step)
    | some =>
      simp only [parsed] at step
      split at step
      · exact .inl (reviewed _ _ step)
      next accepted =>
      rw [not_or, not_or, Bool.not_eq_false, not_not, not_not] at accepted
      split at step
      · cases step
        exact .inl ⟨rfl, .refl _⟩
      split at step
      · cases step
        exact .inl ⟨rfl, .refl _⟩
      next awaits =>
      rw [Bool.not_eq_false] at awaits
      unfold fulfil at step
      cases kind : old.purchaseType with
      | aiTopup =>
        simp only [kind] at step
        cases entitled : aiEntitlementFromInvoice s old with
        | none =>
          simp only [entitled] at step
          exact .inl (reviewed _ _ step)
        | some =>
          simp only [entitled] at step
          obtain ⟨_, _, performed, rfl⟩ := fulfilTopup_ok step
          exact .inl ⟨rfl, topup_kept performed⟩
      | subscription =>
        simp only [kind] at step
        cases subscribed : s.tenant.subscription with
        | none =>
          simp only [subscribed] at step
          obtain ⟨same, kept⟩ := reviewed _ _ step
          exact .inl ⟨same.trans subscribed, kept⟩
        | some sub =>
          simp only [subscribed] at step
          cases bought : subscriptionPurchase s sub old with
          | error =>
            simp only [bought] at step
            obtain ⟨same, kept⟩ := reviewed _ _ step
            exact .inl ⟨same.trans subscribed, kept⟩
          | ok =>
            simp only [bought] at step
            obtain ⟨extended, made, row, outcome⟩ := fulfilSubscription_term step
            obtain ⟨pk, version, legacy, month⟩ := extendSubscription_term made
            refine .inr ⟨sub, extended, rfl, row, ?_⟩
            rcases outcome with ⟨status, same⟩ | ⟨status, tenant, granted⟩
            · exact .inl ⟨⟨pk, legacy status, by omega⟩, same⟩
            · refine .inr ⟨?_, pk, version, month status, tenant, granted⟩
              simp only [purchasedTerm, found, parsed, subscribed, bought, Option.bind_eq_bind, Option.bind_some, Except.toOption]
              rw [if_pos ⟨owned, accepted, awaits, kind, status⟩]
              exact made

/-! ## The other operations -/

def Grants (env : BillingEnv) (s next : BillingStore) (later : Subscription) (key : String) : Prop :=
  next.tenant.subscription = some later ∧ ∃ tenant, AIWalletService.grantIncluded env.toWalletEnv tenant
    (some (AIWalletService.effectiveLimit tenant)) later.aiPeriodEnd key s.credits = .ok (next.credits, ())

theorem grantPeriod_ok {key : String}
    (step : grantPeriod env sub tenant key s = .ok (next, ())) : Grants env s next sub key := by
  obtain ⟨_, performed, rfl⟩ := withCredits_ok step
  exact ⟨rfl, _, performed⟩

theorem startTrial_ok {trialDays pk : ℕ}
    (step : startTrial env trialDays pk s = .ok (next, ())) :
    s.tenant.subscription = none ∧ ∃ sub start fin, sub.aiPeriod = (some start, some fin) ∧
      Grants env s next sub (periodGrantKey sub start fin) := by
  simp only [startTrial, bind_ok, orRaise_ok, raiseIf_ok] at step
  obtain ⟨plan, -, fin, -, _, absent, granted⟩ := step
  refine ⟨by simpa using absent, trialSubscription pk plan (env.zone.localdate env.now) fin, _, fin, rfl, grantPeriod_ok granted⟩

theorem extendTrial_ok {trialDays : ℕ} {days : Option ℤ}
    (step : extendTrial env trialDays days s = .ok (next, ())) :
    ∃ sub fin, s.tenant.subscription = some sub ∧ 0 < days.getD trialDays ∧ sub.status ≠ .active ∧
      (max sub.currentPeriodEnd (env.zone.localdate env.now)).addDays (days.getD trialDays).toNat = some fin := by
  simp only [extendTrial, bind_ok, orRaise_ok, raiseIf_ok] at step
  obtain ⟨_, positive, sub, found, _, inactive, fin, reached, -⟩ := step
  exact ⟨sub, fin, found, not_le.mp positive, inactive, reached⟩

theorem upgradedSubscription_term {sub upgraded : Subscription} {plan : Plan} {period : BillingPeriod}
    (made : upgradedSubscription env sub plan period = some upgraded) :
    upgraded.pk = sub.pk ∧ upgraded.billingVersion = sub.billingVersion + 1 ∧
      upgraded.aiPeriod = monthFrom (env.zone.localdate env.now) := by
  unfold upgradedSubscription at made
  cases period with
  | yearly =>
    simp only [Option.bind_eq_bind, Option.bind_eq_some_iff, Option.map_eq_some_iff] at made
    obtain ⟨fin, reached, _, ⟨_, found, rfl⟩, made⟩ := made
    cases made
    exact ⟨rfl, rfl, aiPeriod_month found (CivilDate.addMonths_le_addYear (le_refl _) found reached) rfl⟩
  | monthly =>
    simp only [Option.bind_eq_bind, Option.bind_eq_some_iff] at made
    obtain ⟨fin, reached, _, same, made⟩ := made
    cases same
    cases made
    exact ⟨rfl, rfl, aiPeriod_month reached (le_refl _) (by rw [min_self]; rfl)⟩

theorem upgradePlan_ok {isActive : Plan → Bool} {planSlug : String} {period : BillingPeriod} (step : upgradePlan env isActive planSlug period s = .ok (next, ())) :
    ∃ plan sub upgraded, s.plans.find? (fun plan => decide (plan.slug = planSlug) && isActive plan) = some plan ∧
      s.tenant.subscription = some sub ∧ upgradedSubscription env sub plan period = some upgraded ∧
      Grants env s next upgraded (versionGrantKey upgraded) := by
  simp only [upgradePlan, bind_ok, orRaise_ok] at step
  obtain ⟨plan, found, sub, subscribed, upgraded, made, granted⟩ := step
  exact ⟨plan, sub, upgraded, found, subscribed, made, grantPeriod_ok granted⟩

theorem refreshAiCreditPeriod_ok {targetDate : Option CivilDate}
    (step : refreshAiCreditPeriod env targetDate s = .ok (next, result)) :
    next = s ∨ ∃ sub start fin, s.tenant.subscription = some sub ∧ sub.status = .active ∧
      aiCreditPeriodForDate sub (targetDate.getD (env.zone.localdate env.now)) = some (some (start, fin)) ∧
      (some start, some fin) ≠ sub.aiPeriod ∧
      Grants env s next (refreshedSubscription sub start fin) (periodGrantKey (refreshedSubscription sub start fin) start fin) := by
  simp only [refreshAiCreditPeriod, bind_ok, orRaise_ok] at step
  obtain ⟨sub, subscribed, step⟩ := step
  split at step
  · cases step
    exact .inl rfl
  next active =>
    rw [not_not] at active
    simp only [bind_ok, orRaise_ok] at step
    obtain ⟨period, found, step⟩ := step
    cases period with
    | none =>
      cases step
      exact .inl rfl
    | some days =>
      obtain ⟨start, fin⟩ := days
      dsimp only at step
      split at step
      · cases step
        exact .inl rfl
      next moved =>
        simp only [bind_ok] at step
        obtain ⟨⟨_, ⟨⟩⟩, granted, made⟩ := step
        cases made
        refine .inr ⟨sub, start, fin, subscribed, active, found, fun same => ?_, grantPeriod_ok granted⟩
        exact moved ⟨(congrArg Prod.fst same).symm, (congrArg Prod.snd same).symm⟩

end MapBackend.Billing
