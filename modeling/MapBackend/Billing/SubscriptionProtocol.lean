import Mathlib.Data.List.Nodup
import MapBackend.Billing.SubscriptionPeriods

/-!
Runs of the subscription operations.
-/

namespace MapBackend.Billing
open MapBackend.Library BillingService

namespace SubscriptionRun

/-- The keys that packages may have: versions up to the present one, and periods with a package. -/
def Given (r : SubscriptionRun) : GrantKey → Prop
  | .version n => ∃ sub ∈ r.store.tenant.subscription, n ≤ sub.billingVersion
  | .period start fin => (some start, some fin) ∈ r.granted

structure Sound (settings : SubscriptionSettings) (r : SubscriptionRun) : Prop where
  expires : ∀ sub ∈ r.store.tenant.subscription, ∃ wallet ∈ r.store.credits.wallet,
    wallet.includedExpiresAt = sub.aiPeriodEnd.map settings.env.zone.endOfDay
  current : ∀ sub ∈ r.store.tenant.subscription, sub.aiPeriod ∈ r.periods
  covered : ∀ period ∈ r.periods, period ∈ r.granted
  unsubscribed : r.store.tenant.subscription = none → r.granted = []
  keys : ∀ pk, (∀ sub ∈ r.store.tenant.subscription, sub.pk = pk) → KeysGiven pk r.Given r.store.credits

section Steps

variable {settings : SubscriptionSettings} {r : SubscriptionRun} {next : BillingStore}

theorem Sound.keep (sound : r.Sound settings)
    (same : next.tenant.subscription = r.store.tenant.subscription ∨
      ∃ sub later, r.store.tenant.subscription = some sub ∧ next.tenant.subscription = some later ∧ SamePeriod sub later)
    (kept : PackageKept r.store.credits next.credits) : (r.record next).Sound settings ∧ (r.record next).granted = r.granted := by
  have granted : (r.record next).granted = r.granted := if_pos kept.counted
  have of_later (later : Subscription) (found : next.tenant.subscription = some later) :
      ∃ sub, r.store.tenant.subscription = some sub ∧ SamePeriod sub later := by
    rcases same with same | ⟨sub, other, before, after, period⟩
    · exact ⟨later, same ▸ found, rfl, rfl, le_refl _⟩
    · cases found.symm.trans after
      exact ⟨sub, before, period⟩
  have periods : (r.record next).periods = r.periods := by
    cases found : next.tenant.subscription with
    | none => simp [record, found]
    | some later =>
      obtain ⟨sub, before, period⟩ := of_later later found
      have known := sound.current sub before
      simp [record, found, period.aiPeriod, known]
  refine ⟨⟨fun later found => ?_, fun later found => ?_, ?_, fun none => ?_, fun pk own row mem => ?_⟩, granted⟩
  · obtain ⟨sub, before, period⟩ := of_later later found
    obtain ⟨wallet, there, expires⟩ := sound.expires sub before
    obtain ⟨other, after, unchanged⟩ := kept.wallet wallet there
    refine ⟨other, after, ?_⟩
    rw [unchanged, expires, show later.aiPeriodEnd = sub.aiPeriodEnd from congrArg Prod.snd period.aiPeriod]
  · obtain ⟨sub, before, period⟩ := of_later later found
    rw [periods, period.aiPeriod]
    exact sound.current sub before
  · rw [periods, granted]
    exact sound.covered
  · rw [granted]
    refine sound.unsubscribed ?_
    rcases same with same | ⟨_, _, _, after, _⟩
    · exact same.symm.trans none
    · cases none.symm.trans after
  · refine (kept.rows row mem).elim (fun before => ?_) .inl
    have owns : ∀ sub ∈ r.store.tenant.subscription, sub.pk = pk := by
      intro sub there
      rcases same with same | ⟨other, later, before, after, period⟩
      · exact own sub (same.symm ▸ there)
      · cases there.symm.trans before
        exact period.pk.symm.trans (own later after)
    refine (sound.keys pk owns row before).imp_right fun ⟨key, given, named⟩ => ⟨key, ?_, named⟩
    cases key with
    | version =>
      obtain ⟨sub, there, bound⟩ := given
      rcases same with same | ⟨other, later, before, after, period⟩
      · exact ⟨sub, same.symm ▸ there, bound⟩
      · cases there.symm.trans before
        exact ⟨later, after, bound.trans period.version⟩
    | period start fin =>
      change (some start, some fin) ∈ (r.record next).granted
      rw [granted]
      exact given


theorem Sound.grant (sound : r.Sound settings) {env : BillingEnv} {later : Subscription} {name : String} {key : GrantKey}
    (zone : env.zone = settings.env.zone) (grants : Grants env r.store next later name) (named : name.toList = key.text later.pk)
    (fresh : ¬ r.Given key) (given : (r.record next).granted = later.aiPeriod :: r.granted → (r.record next).Given key)
    (follows : ∀ sub ∈ r.store.tenant.subscription, later.pk = sub.pk ∧ sub.billingVersion ≤ later.billingVersion) :
    (r.record next).Sound settings ∧ (r.record next).granted = later.aiPeriod :: r.granted := by
  obtain ⟨subscribed, _, performed⟩ := grants
  have unused := (sound.keys later.pk fun sub there => (follows sub there).1.symm).unused fresh named
  have head : name.toList.head? = some 's' := named ▸ key.text_head later.pk
  have written := grantIncluded_granted performed unused head
  have counted : next.packages ≠ r.store.packages := by
    have more := written.counted
    unfold BillingStore.packages
    omega
  have granted : (r.record next).granted = later.aiPeriod :: r.granted := by
    simp [record, counted, subscribed]
  have is_later (sub : Subscription) (there : sub ∈ next.tenant.subscription) : sub = later :=
    Option.some.inj (there.symm.trans subscribed)
  have periods (period : AIPeriod) (mem : period ∈ (r.record next).periods) : period = later.aiPeriod ∨ period ∈ r.periods := by
    refine (List.mem_append.mp mem).imp_left fun new => ?_
    rw [subscribed] at new
    obtain ⟨same, -⟩ := Option.filter_eq_some_iff.mp (Option.mem_toList.mp new)
    exact (Option.some.inj same).symm
  refine ⟨⟨fun sub there => ?_, fun sub there => ?_, fun period mem => ?_, fun absent => ?_, fun pk own row mem => ?_⟩, granted⟩
  · rw [is_later sub there, ← zone]
    exact written.wallet
  · rw [is_later sub there]
    by_cases known : later.aiPeriod ∈ r.periods
    · exact List.mem_append_right _ known
    · refine List.mem_append_left _ ?_
      simp [subscribed, known]
  · rw [granted]
    rcases periods period mem with rfl | old
    · exact List.mem_cons_self
    · exact List.mem_cons_of_mem _ (sound.covered period old)
  · cases subscribed.symm.trans absent
  · have owner : later.pk = pk := own later subscribed
    have known := sound.keys pk fun sub there => (follows sub there).1.symm.trans owner
    have keeps (other : GrantKey) (before : r.Given other) : (r.record next).Given other := by
      cases other with
      | version =>
        obtain ⟨sub, there, bound⟩ := before
        exact ⟨later, subscribed, bound.trans (follows sub there).2⟩
      | period start fin =>
        change (some start, some fin) ∈ (r.record next).granted
        rw [granted]
        exact List.mem_cons_of_mem _ before
    rcases written.rows row mem with before | foreign | same | expiry
    · exact (known row before).imp_right fun ⟨other, there, text⟩ => ⟨other, keeps other there, text⟩
    · exact .inl foreign
    · exact .inr ⟨key, given granted, .inl (by rw [same, named, owner])⟩
    · exact .inr ⟨key, given granted, .inr (by rw [expiry, String.toList_append, named, owner])⟩

/-- Expiry and packages are safe in this call: an extension is refused, and a refresh does not come back to a period that had
its package before. -/
def Allowed (settings : SubscriptionSettings) (r : SubscriptionRun) (call : SubscriptionCall) : Prop :=
  let today := settings.env.zone.localdate call.now
  match call.action with
  | .extendTrial days =>
    let extensionDays := days.getD settings.trialDays
    extensionDays ≤ 0 ∨ ∀ sub ∈ r.store.tenant.subscription,
      sub.status = .active ∨ (max sub.currentPeriodEnd today).addDays extensionDays.toNat = none
  | .refreshAiCreditPeriod targetDate =>
    ∀ sub ∈ r.store.tenant.subscription, sub.status = .active →
      ∀ days ∈ (aiCreditPeriodForDate sub (targetDate.getD today)).join,
        (some days.1, some days.2) = sub.aiPeriod ∨ r.granted.contains (some days.1, some days.2) = false
  | _ => True

def Fresh (settings : SubscriptionSettings) (r : SubscriptionRun) (call : SubscriptionCall) : Prop :=
  let env := settings.surroundings call.now
  match call.action with
  | .upgradePlan isActive planSlug period =>
    ∀ plan ∈ r.store.plans.find? fun plan => decide (plan.slug = planSlug) && isActive plan,
      ∀ sub ∈ r.store.tenant.subscription, (upgradedSubscription env sub plan period).isSome = true →
        r.granted.contains (monthFrom (env.zone.localdate call.now)) = false
  | .paymentSuccess invoiceId paymentId amount currency =>
    (purchasedTerm env r.store invoiceId paymentId amount currency).isSome = true →
      r.granted.contains (monthFrom (env.zone.localdate call.now)) = false
  | _ => True

instance (settings : SubscriptionSettings) (r : SubscriptionRun) : (call : SubscriptionCall) → Decidable (Allowed settings r call)
  | ⟨_, .extendTrial _⟩ => inferInstanceAs (Decidable (_ ∨ _))
  | ⟨_, .refreshAiCreditPeriod _⟩ => inferInstanceAs (Decidable (∀ _ ∈ _, _))
  | ⟨_, .startTrial _⟩ | ⟨_, .upgradePlan _ _ _⟩ | ⟨_, .paymentSuccess _ _ _ _⟩ => inferInstanceAs (Decidable True)

instance (settings : SubscriptionSettings) (r : SubscriptionRun) : (call : SubscriptionCall) → Decidable (Fresh settings r call)
  | ⟨_, .upgradePlan _ _ _⟩ => inferInstanceAs (Decidable (∀ _ ∈ _, _))
  | ⟨_, .paymentSuccess _ _ _ _⟩ => inferInstanceAs (Decidable (_ → _))
  | ⟨_, .startTrial _⟩ | ⟨_, .extendTrial _⟩ | ⟨_, .refreshAiCreditPeriod _⟩ => inferInstanceAs (Decidable True)

theorem version_fresh {sub later : Subscription} (subscribed : r.store.tenant.subscription = some sub)
    (version : later.billingVersion = sub.billingVersion + 1) : ¬ r.Given (.version later.billingVersion) := by
  rintro ⟨_, there, _⟩
  cases subscribed.symm.trans there
  omega

/-- What an allowed call leaves: at most one more package, and not for an old period when its purchase is fresh. -/
def Kept (settings : SubscriptionSettings) (r : SubscriptionRun) (call : SubscriptionCall) (next : BillingStore) : Prop :=
  (r.record next).Sound settings ∧ ((r.record next).granted = r.granted ∨ ∃ period,
    (r.record next).granted = period :: r.granted ∧ (Fresh settings r call → period ∉ r.granted))

theorem Sound.idle (sound : r.Sound settings) (call : SubscriptionCall) : Kept settings r call r.store :=
  have kept := sound.keep (.inl rfl) (.refl _)
  ⟨kept.1, .inl kept.2⟩

theorem Sound.purchase (sound : r.Sound settings) {call : SubscriptionCall} {sub later : Subscription}
    (subscribed : r.store.tenant.subscription = some sub) (pk : later.pk = sub.pk)
    (version : later.billingVersion = sub.billingVersion + 1)
    (grants : Grants (settings.surroundings call.now) r.store next later (versionGrantKey later))
    (fresh : Fresh settings r call → r.granted.contains later.aiPeriod = false) : Kept settings r call next := by
  have follows (other : Subscription) (there : other ∈ r.store.tenant.subscription) :
      later.pk = other.pk ∧ other.billingVersion ≤ later.billingVersion := by
    cases subscribed.symm.trans there
    exact ⟨pk, by omega⟩
  have given : (r.record next).granted = later.aiPeriod :: r.granted → (r.record next).Given (.version later.billingVersion) :=
    fun _ => ⟨later, grants.1, le_refl _⟩
  obtain ⟨kept, granted⟩ := sound.grant rfl grants (versionGrantKey_toList later) (version_fresh subscribed version) given follows
  refine ⟨kept, .inr ⟨_, granted, fun new mem => ?_⟩⟩
  have absent := fresh new
  simp [mem] at absent

theorem next_kept (sound : r.Sound settings) (call : SubscriptionCall) (allowed : Allowed settings r call) :
    Kept settings r call (r.store.call settings call) := by
  obtain ⟨now, action⟩ := call
  cases action with
  | startTrial pk =>
    refine commit_relates (fun _ next => Kept settings r ⟨now, .startTrial pk⟩ next) _ _ (sound.idle _) fun next _ step => ?_
    obtain ⟨absent, sub, start, fin, period, grants⟩ := startTrial_ok step
    have none_yet : r.granted = [] := sound.unsubscribed absent
    have fresh : ¬ r.Given (.period start fin) := by
      intro given
      rw [Given, none_yet] at given
      cases given
    have given (granted : (r.record next).granted = sub.aiPeriod :: r.granted) : (r.record next).Given (.period start fin) := by
      change (some start, some fin) ∈ (r.record next).granted
      rw [granted, period]
      exact List.mem_cons_self
    obtain ⟨kept, granted⟩ := sound.grant rfl grants (periodGrantKey_toList sub start fin) fresh given fun other there => by
      cases absent.symm.trans there
    refine ⟨kept, .inr ⟨_, granted, fun _ mem => ?_⟩⟩
    rw [none_yet] at mem
    cases mem
  | extendTrial days =>
    refine commit_relates (fun _ next => Kept settings r ⟨now, .extendTrial days⟩ next) _ _ (sound.idle _) fun next _ step => ?_
    obtain ⟨sub, fin, subscribed, positive, inactive, reached⟩ := extendTrial_ok step
    rcases allowed with refused | refused
    · exact absurd refused (not_le.mpr positive)
    · rcases refused sub subscribed with active | never
      · exact absurd active inactive
      · cases never.symm.trans reached
  | upgradePlan isActive planSlug period =>
    refine commit_relates (fun _ next => Kept settings r ⟨now, .upgradePlan isActive planSlug period⟩ next) _ _
      (sound.idle _) fun next _ step => ?_
    obtain ⟨plan, sub, _, offered, subscribed, made, grants⟩ := upgradePlan_ok step
    obtain ⟨pk, version, month⟩ := upgradedSubscription_term made
    refine sound.purchase subscribed pk version grants fun fresh => ?_
    rw [month]
    exact fresh plan offered sub subscribed (Option.isSome_of_mem made)
  | paymentSuccess invoiceId paymentId amount currency =>
    refine commit_relates (fun _ next => Kept settings r ⟨now, .paymentSuccess invoiceId paymentId amount currency⟩ next) _ _
      (sound.idle _) fun next _ step => ?_
    rcases paymentSuccess_term step with ⟨same, kept⟩ | ⟨sub, extended, subscribed, after, outcome⟩
    · obtain ⟨sound, granted⟩ := sound.keep (.inl same) kept
      exact ⟨sound, .inl granted⟩
    · rcases outcome with ⟨period, same⟩ | ⟨made, pk, version, month, performed⟩
      · obtain ⟨sound, granted⟩ := sound.keep (.inr ⟨sub, extended, subscribed, after, period⟩) (same ▸ .refl _)
        exact ⟨sound, .inl granted⟩
      · refine sound.purchase subscribed pk version ⟨after, performed⟩ fun fresh => ?_
        rw [month]
        exact fresh (Option.isSome_of_mem made)
  | refreshAiCreditPeriod targetDate =>
    refine commit_relates (fun _ next => Kept settings r ⟨now, .refreshAiCreditPeriod targetDate⟩ next) _ _
      (sound.idle _) fun next _ step => ?_
    rcases refreshAiCreditPeriod_ok step with rfl | ⟨sub, start, fin, subscribed, active, found, moved, grants⟩
    · exact sound.idle _
    have absent : r.granted.contains (some start, some fin) = false := by
      refine (allowed sub subscribed active (start, fin) ?_).resolve_left moved
      exact (congrArg Option.join found).trans rfl
    have fresh : ¬ r.Given (.period start fin) := by
      intro given
      have mem : (some start, some fin) ∈ r.granted := given
      simp [mem] at absent
    have follows (other : Subscription) (there : other ∈ r.store.tenant.subscription) :
        (refreshedSubscription sub start fin).pk = other.pk ∧
          other.billingVersion ≤ (refreshedSubscription sub start fin).billingVersion := by
      cases subscribed.symm.trans there
      exact ⟨rfl, Nat.le_succ _⟩
    have given (granted : (r.record next).granted = (refreshedSubscription sub start fin).aiPeriod :: r.granted) :
        (r.record next).Given (.period start fin) := by
      change (some start, some fin) ∈ (r.record next).granted
      rw [granted]
      exact List.mem_cons_self
    obtain ⟨kept, granted⟩ := sound.grant rfl grants (periodGrantKey_toList _ start fin) fresh given follows
    exact ⟨kept, .inr ⟨_, granted, fun _ mem => fresh mem⟩⟩

end Steps

theorem start_sound (settings : SubscriptionSettings) (tenant : NewTenant) : (start tenant).Sound settings where
  expires _ there := by cases there
  current _ there := by cases there
  covered _ mem := by cases mem
  unsubscribed _ := rfl
  keys _ _ _ mem := by cases mem

/-- The wallet expires with the AI period, and every AI period the subscription has had has its package. -/
structure Agreed (settings : SubscriptionSettings) (r : SubscriptionRun) : Prop where
  expires : ∀ sub ∈ r.store.tenant.subscription, ∃ wallet ∈ r.store.credits.wallet,
    wallet.includedExpiresAt = sub.aiPeriodEnd.map settings.env.zone.endOfDay
  current : ∀ sub ∈ r.store.tenant.subscription, sub.aiPeriod ∈ r.periods
  granted : ∀ period ∈ r.periods, 0 < r.granted.count period

theorem Sound.agreed {settings : SubscriptionSettings} {r : SubscriptionRun} (sound : r.Sound settings) : r.Agreed settings :=
  ⟨sound.expires, sound.current, fun period mem => List.count_pos_iff.mpr (sound.covered period mem)⟩

/-- The wallet and the subscription agree in every run that extends no trial and refreshes no older period, and each AI period
has exactly one package when no period is bought again. -/
theorem ai_periods_agree (settings : SubscriptionSettings) (tenant : NewTenant) (calls : List SubscriptionCall) :
    (Meets (next settings) (Allowed settings) (start tenant) calls → Agreed settings (run (next settings) (start tenant) calls)) ∧
      (Meets (next settings) (fun r call => Allowed settings r call ∧ Fresh settings r call) (start tenant) calls →
        ∀ period ∈ (run (next settings) (start tenant) calls).periods,
          (run (next settings) (start tenant) calls).granted.count period = 1) := by
  refine ⟨fun allowed => ?_, fun allowed period mem => ?_⟩
  · exact (@run_invariant _ _ (next settings) _ (fun r => r.Sound settings)
      (fun r call sound allowed => (next_kept sound call allowed).1) _ (start_sound settings tenant) calls allowed).agreed
  · have once := @run_invariant _ _ (next settings) _ (fun r => r.Sound settings ∧ r.granted.Nodup)
      (fun r call held allowed => by
        obtain ⟨sound, granted⟩ := next_kept held.1 call allowed.1
        refine ⟨sound, ?_⟩
        rcases granted with same | ⟨period, same, fresh⟩
        · exact same ▸ held.2
        · change (r.record _).granted.Nodup
          rw [same]
          exact List.nodup_cons.mpr ⟨fresh allowed.2, held.2⟩)
      _ ⟨start_sound settings tenant, List.nodup_nil⟩ calls allowed
    exact List.count_eq_one_of_mem once.2 (once.1.covered period mem)

/-- A week of trial, a plan of a hundred credits, and a tenant that begins with them. -/
def weekSettings : SubscriptionSettings := { env := billingEnv, trialDays := 7 }

def newTenant : NewTenant :=
  { pk := 7, aiCreditLimitOverride := none, plans := [{ pk := 1, slug := "business", name := "Business", limitAiCredits := some 100 }]
    invoices := [] }

def yearCalls : List SubscriptionCall :=
  [⟨0, .startTrial 3⟩, ⟨1, .upgradePlan (fun _ => true) "business" .yearly⟩,
    ⟨2, .refreshAiCreditPeriod (some ⟨2026, 2, 15, by decide⟩)⟩]

theorem ai_periods_agree_year :
    Agreed weekSettings (run (next weekSettings) (start newTenant) yearCalls) ∧
      (∀ period ∈ (run (next weekSettings) (start newTenant) yearCalls).periods,
        (run (next weekSettings) (start newTenant) yearCalls).granted.count period = 1) ∧
      (run (next weekSettings) (start newTenant) yearCalls).periods.length = 3 :=
  have agree := ai_periods_agree weekSettings newTenant yearCalls
  ⟨agree.1 (by decide +kernel), agree.2 (by decide +kernel), by decide +kernel⟩

/-- The extension of a trial leaves the wallet with the old expiry, and the new period without a package. -/
theorem ai_periods_agree_extended :
    let r := run (next weekSettings) (start newTenant) [⟨0, .startTrial 3⟩, ⟨1, .extendTrial none⟩]
    r.store.tenant.subscription.bind Subscription.aiPeriodEnd = some ⟨2026, 1, 15, by decide⟩ ∧
      (r.store.credits.wallet.bind AIWallet.includedExpiresAt) =
        some (weekSettings.env.zone.endOfDay ⟨2026, 1, 8, by decide⟩) ∧
      weekSettings.env.zone.endOfDay ⟨2026, 1, 8, by decide⟩ ≠ weekSettings.env.zone.endOfDay ⟨2026, 1, 15, by decide⟩ ∧
      ¬ Agreed weekSettings r := by
  refine ⟨by decide +kernel, by decide +kernel, by decide, fun agreed => ?_⟩
  have missing : ∃ period ∈ (run (next weekSettings) (start newTenant) [⟨0, .startTrial 3⟩, ⟨1, .extendTrial none⟩]).periods,
      (run (next weekSettings) (start newTenant) [⟨0, .startTrial 3⟩, ⟨1, .extendTrial none⟩]).granted.count period = 0 := by
    refine ⟨(some ⟨2026, 1, 1, by decide⟩, some ⟨2026, 1, 15, by decide⟩), by decide +kernel, by decide +kernel⟩
  obtain ⟨period, mem, none⟩ := missing
  have some := agreed.granted period mem
  omega

end SubscriptionRun

end MapBackend.Billing
