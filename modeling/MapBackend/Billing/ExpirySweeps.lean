import MapBackend.Billing.Checkout
import MapBackend.Billing.PaymentRun
import MapBackend.Library.Runs
import Mathlib.Data.List.Forall2

/-!
The daily sweeps over the subscriptions of all tenants.
-/

namespace MapBackend.Billing
open MapBackend.Library BillingService

structure ExpiringTenant where
  trialEndsAt : Option Instant
  store : BillingStore

def ExpiringTenant.subscription (row : ExpiringTenant) : Option Subscription := row.store.tenant.subscription

namespace Subscription

abbrev Lapsed (sub : Subscription) (today : CivilDate) : Prop :=
  (sub.status = .trial ∨ sub.status = .active) ∧ sub.currentPeriodEnd < today

/-- `current_period_end < today - timedelta(days=graceDays)`, with the days on the other side. -/
abbrev GraceOver (sub : Subscription) (graceDays : ℕ) (today : CivilDate) : Prop :=
  sub.status = .pastDue ∧ ∃ last ∈ sub.currentPeriodEnd.addDays graceDays, last < today

def expired (sub : Subscription) : Subscription :=
  { sub with status := .pastDue, billingVersion := sub.billingVersion + 1 }

def cancelled (now : Instant) (sub : Subscription) : Subscription :=
  { sub with status := .cancelled, cancelledAt := some now, billingVersion := sub.billingVersion + 1 }

def notice (sub : Subscription) (stage level message : String) : BillingOutboxEvent where
  idempotencyKey := "subscription:" ++ toString sub.pk ++ ":" ++ stage ++ ":" ++ sub.currentPeriodEnd.text ++ ":v1"
  invoice := none
  payload := .notification level message

def pastDueNotice (graceDays : ℕ) (sub : Subscription) : BillingOutboxEvent :=
  sub.notice "past-due" "billing" ("Ваша подписка MAP истекла. Продлите подписку в течение " ++ toString graceDays ++ " дней.")

def cancelledNotice (sub : Subscription) : BillingOutboxEvent :=
  sub.notice "cancelled" "critical" "Ваша подписка MAP отменена. Публикация новых объявлений заблокирована."

end Subscription

def sweepTenant (due : Subscription → Bool) (move : Subscription → Subscription) (trialEnd : Option Instant → Option Instant)
    (notice : Subscription → BillingOutboxEvent) (row : ExpiringTenant) : Except BillingError (ExpiringTenant × ℕ) :=
  match row.store.tenant.subscription with
  | none => .ok (row, 0)
  | some sub =>
    if due sub then do
      let store ← enqueue { row.store with tenant := { row.store.tenant with subscription := some (move sub) } } (notice sub)
      .ok ({ trialEndsAt := trialEnd row.trialEndsAt, store }, 1)
    else .ok (row, 0)

/-- One transaction over the rows in the order of the subscriptions' keys; the answer counts the moved ones. -/
def sweepAll (visit : ExpiringTenant → Except BillingError (ExpiringTenant × ℕ)) :
    List ExpiringTenant → Except BillingError (List ExpiringTenant × ℕ)
  | [] => .ok ([], 0)
  | row :: rest => do
    let (row, moved) ← visit row
    let (rest, count) ← sweepAll visit rest
    .ok (row :: rest, moved + count)

def checkExpiredTrials (graceDays : ℕ) (today : CivilDate) : List ExpiringTenant → Except BillingError (List ExpiringTenant × ℕ) :=
  sweepAll (sweepTenant (·.Lapsed today) Subscription.expired (fun _ => none) (Subscription.pastDueNotice graceDays))

def checkGracePeriodExpired (graceDays : ℕ) (today : CivilDate) (now : Instant) :
    List ExpiringTenant → Except BillingError (List ExpiringTenant × ℕ) :=
  sweepAll (sweepTenant (·.GraceOver graceDays today) (Subscription.cancelled now) id Subscription.cancelledNotice)

inductive ExpirySweep where
  | trials (today : CivilDate)
  | grace (today : CivilDate) (now : Instant)

def ExpirySweep.today : ExpirySweep → CivilDate
  | .trials today => today
  | .grace today _ => today

def ExpirySweep.next (graceDays : ℕ) (rows : List ExpiringTenant) : ExpirySweep → List ExpiringTenant
  | .trials today => commit rows (checkExpiredTrials graceDays today rows)
  | .grace today now => commit rows (checkGracePeriodExpired graceDays today now rows)

section Runs

variable (graceDays : ℕ) (sweeps : List ExpirySweep)

inductive Lapses (old : Subscription) : Subscription → Prop
  | kept : Lapses old old
  | expired {day} (swept : .trials day ∈ sweeps) (due : old.Lapsed day) : Lapses old old.expired

inductive Cancels (old : Subscription) : Subscription → Prop
  | kept : Cancels old old
  | cancelled {day now} (swept : .grace day now ∈ sweeps) (due : old.GraceOver graceDays day) : Cancels old (old.cancelled now)

/-- At most one lapse and after it at most one cancellation. -/
def Expires (old new : Subscription) : Prop := ∃ mid, Lapses sweeps old mid ∧ Cancels graceDays sweeps mid new

variable {graceDays sweeps} {old mid new sub : Subscription} {day : CivilDate} {row row' : ExpiringTenant} {rows rows' : List ExpiringTenant}

theorem not_lapsed (moved : sub.status = .pastDue ∨ sub.status = .cancelled) : ¬ sub.Lapsed day := by
  rintro ⟨paid | paid, -⟩ <;> simp [paid] at moved

theorem Expires.trans : Expires graceDays sweeps old mid → Expires graceDays sweeps mid new → Expires graceDays sweeps old new := by
  rintro ⟨_, lapse, cancel⟩ ⟨_, lapse', cancel'⟩
  cases cancel with
  | kept =>
    cases lapse' with
    | kept => exact ⟨_, lapse, cancel'⟩
    | expired swept due =>
      cases lapse with
      | kept => exact ⟨_, .expired swept due, cancel'⟩
      | expired => exact absurd due (not_lapsed (.inl rfl))
  | cancelled swept due =>
    cases lapse' with
    | kept =>
      cases cancel' with
      | kept => exact ⟨_, lapse, .cancelled swept due⟩
      | cancelled _ again => cases again.1
    | expired _ again => exact absurd again (not_lapsed (.inr rfl))

theorem isActive_iff :
    sub.isActive day ↔ (sub.status = .trial ∨ sub.status = .active) ∧ day ≤ sub.currentPeriodEnd := by
  unfold Subscription.isActive Subscription.effectiveStatus
  split
  · next lapsed => simp [lapsed.2.not_ge]
  · next paid =>
    rw [not_and, not_lt] at paid
    exact ⟨fun open' => ⟨open', paid open'⟩, And.left⟩

theorem Expires.isActive (past : ∀ sweep ∈ sweeps, sweep.today ≤ day) :
    Expires graceDays sweeps old new → (new.isActive day ↔ old.isActive day) := by
  rintro ⟨mid, lapse, cancel⟩
  have first : mid.isActive day ↔ old.isActive day := by
    cases lapse with
    | kept => exact Iff.rfl
    | @expired first swept due =>
      have reached : first ≤ day := past (.trials first) swept
      have before : ¬ day ≤ old.currentPeriodEnd := not_le_of_gt (lt_of_lt_of_le due.2 reached)
      simp [isActive_iff, before, Subscription.expired]
  cases cancel with
  | kept => exact first
  | cancelled _ due =>
    rw [← first]
    simp [isActive_iff, due.1, Subscription.cancelled]

def RowExpires (graceDays : ℕ) (sweeps : List ExpirySweep) (row row' : ExpiringTenant) : Prop :=
  ∀ old ∈ row.subscription, ∃ new ∈ row'.subscription, Expires graceDays sweeps old new

theorem RowExpires.refl (row : ExpiringTenant) : RowExpires graceDays sweeps row row :=
  fun old held => ⟨old, held, old, .kept, .kept⟩

variable {due : Subscription → Bool} {move : Subscription → Subscription} {trialEnd : Option Instant → Option Instant}
  {notice : Subscription → BillingOutboxEvent} {visit : ExpiringTenant → Except BillingError (ExpiringTenant × ℕ)} {moved : ℕ}

theorem sweepTenant_cases (step : sweepTenant due move trialEnd notice row = .ok (row', moved)) :
    (row' = row ∧ ∀ sub ∈ row.subscription, due sub = false) ∨
      ∃ sub ∈ row.subscription, due sub = true ∧ move sub ∈ row'.subscription := by
  unfold sweepTenant at step
  split at step
  · next none =>
    cases step
    exact .inl ⟨rfl, fun sub held => by cases none.symm.trans held⟩
  · next sub holds =>
    split at step
    · next is_due =>
      simp only [bind_ok] at step
      obtain ⟨store, queued, same⟩ := step
      cases same
      obtain ⟨outbox, rfl⟩ := enqueue_ok queued
      exact .inr ⟨sub, holds, is_due, rfl⟩
    · next idle =>
      cases step
      refine .inl ⟨rfl, fun other held => ?_⟩
      obtain rfl : sub = other := Option.some.inj (holds.symm.trans held)
      exact Bool.eq_false_of_not_eq_true idle

theorem sweepTenant_idle (idle : ∀ sub ∈ row.subscription, due sub = false) :
    sweepTenant due move trialEnd notice row = .ok (row, 0) := by
  unfold sweepTenant
  split
  · rfl
  · next sub holds => rw [idle sub holds, if_neg Bool.false_ne_true]

theorem sweepTenant_ok (moves : ∀ sub, due sub = true → Expires graceDays sweeps sub (move sub))
    (step : sweepTenant due move trialEnd notice row = .ok (row', moved)) : RowExpires graceDays sweeps row row' := by
  obtain ⟨rfl, -⟩ | ⟨sub, held, is_due, holds⟩ := sweepTenant_cases step
  · exact .refl row'
  · intro old held'
    obtain rfl := Option.mem_unique held held'
    exact ⟨_, holds, moves sub is_due⟩

theorem sweepTenant_again (settled : ∀ sub, due (move sub) = false)
    (step : sweepTenant due move trialEnd notice row = .ok (row', moved)) :
    sweepTenant due move trialEnd notice row' = .ok (row', 0) := by
  refine sweepTenant_idle fun new held => ?_
  obtain ⟨rfl, idle⟩ | ⟨sub, -, -, holds⟩ := sweepTenant_cases step
  · exact idle new held
  · obtain rfl := Option.mem_unique holds held
    exact settled sub

theorem sweepAll_ok {rel : ExpiringTenant → ExpiringTenant → Prop}
    (step : ∀ row row' moved, visit row = .ok (row', moved) → rel row row') {count : ℕ}
    (swept : sweepAll visit rows = .ok (rows', count)) : List.Forall₂ rel rows rows' := by
  induction rows generalizing rows' count with
  | nil =>
    cases swept
    exact .nil
  | cons row rest ih =>
    simp only [sweepAll, bind_ok] at swept
    obtain ⟨⟨row', moved⟩, visited, ⟨rest', _⟩, others, same⟩ := swept
    cases same
    exact .cons (step _ _ _ visited) (ih others)

theorem rows_next {sweep : ExpirySweep} (mem : sweep ∈ sweeps) (rows : List ExpiringTenant) :
    List.Forall₂ (RowExpires graceDays sweeps) rows (sweep.next graceDays rows) := by
  have same : List.Forall₂ (RowExpires graceDays sweeps) rows rows := List.forall₂_same.mpr fun row _ => .refl row
  cases sweep with
  | trials today =>
    refine commit_relates _ rows _ same fun next count swept => sweepAll_ok (fun _ _ _ => sweepTenant_ok fun sub due => ?_) swept
    exact ⟨_, .expired mem (of_decide_eq_true due), .kept⟩
  | grace today now =>
    refine commit_relates _ rows _ same fun next count swept => sweepAll_ok (fun _ _ _ => sweepTenant_ok fun sub due => ?_) swept
    exact ⟨_, .kept, .cancelled mem (of_decide_eq_true due)⟩

theorem RowExpires.trans {row'' : ExpiringTenant} (first : RowExpires graceDays sweeps row row')
    (later : RowExpires graceDays sweeps row' row'') : RowExpires graceDays sweeps row row'' := by
  intro old held
  obtain ⟨mid, between, expires⟩ := first old held
  obtain ⟨new, holds, expires'⟩ := later mid between
  exact ⟨new, holds, expires.trans expires'⟩

theorem forall₂_chain {α : Type*} {rel : α → α → Prop} (chain : ∀ {a b c}, rel a b → rel b c → rel a c) {as bs cs : List α}
    (first : List.Forall₂ rel as bs) (later : List.Forall₂ rel bs cs) : List.Forall₂ rel as cs := by
  induction first generalizing cs with
  | nil => exact later
  | cons moved _ ih =>
    obtain ⟨_, _, moved', rest, rfl⟩ := List.forall₂_cons_left_iff.mp later
    exact .cons (chain moved moved') (ih rest)

theorem sweepAll_settled (calm : List.Forall₂ (fun _ row' => visit row' = .ok (row', 0)) rows rows') :
    sweepAll visit rows' = .ok (rows', 0) := by
  induction calm with
  | nil => rfl
  | cons visited _ ih => simp only [sweepAll, visited, ih, bind, Except.bind]

theorem sweepAll_again (again : ∀ row row' moved, visit row = .ok (row', moved) → visit row' = .ok (row', 0)) (rows : List ExpiringTenant) :
    commit (commit rows (sweepAll visit rows)) (sweepAll visit (commit rows (sweepAll visit rows))) = commit rows (sweepAll visit rows) := by
  cases swept : sweepAll visit rows with
  | error => rw [commit_error, swept, commit_error]
  | ok => rw [commit_ok, sweepAll_settled (sweepAll_ok again swept), commit_ok]

end Runs

/-- For every table and every run of the sweeps, on any days in any order: a subscription lapses at most once, after its
period, and is cancelled at most once, after its grace days; and on every day from the last sweep on the access is what
it would be without the sweeps. -/
theorem sweeps_keep_access (graceDays : ℕ) (rows : List ExpiringTenant) (sweeps : List ExpirySweep) :
    List.Forall₂ (fun row row' => ∀ old ∈ row.subscription, ∃ new ∈ row'.subscription, Expires graceDays sweeps old new ∧
        ∀ day, (∀ sweep ∈ sweeps, sweep.today ≤ day) → (new.isActive day ↔ old.isActive day))
      rows (run (ExpirySweep.next graceDays) rows sweeps) := by
  have moved (actions : List ExpirySweep) (sub : actions ⊆ sweeps) :
      List.Forall₂ (RowExpires graceDays sweeps) rows (run (ExpirySweep.next graceDays) rows actions) := by
    induction actions generalizing rows with
    | nil => exact List.forall₂_same.mpr fun row _ => .refl row
    | cons sweep rest ih =>
      obtain ⟨mem, sub⟩ := List.cons_subset.mp sub
      exact forall₂_chain .trans (rows_next mem rows) (ih _ sub)
  refine (moved sweeps (List.Subset.refl _)).imp fun row row' expires old held => ?_
  obtain ⟨new, holds, moves⟩ := expires old held
  exact ⟨new, holds, moves, fun day past => moves.isActive past⟩

/-- A sweep that is run again on its day changes nothing: no second version, no second notice. -/
theorem sweep_twice (graceDays : ℕ) (rows : List ExpiringTenant) (sweep : ExpirySweep) :
    ExpirySweep.next graceDays (ExpirySweep.next graceDays rows sweep) sweep = ExpirySweep.next graceDays rows sweep := by
  cases sweep with
  | trials =>
    refine sweepAll_again (fun _ _ _ => sweepTenant_again fun sub => decide_eq_false ?_) rows
    exact not_lapsed (.inl rfl)
  | grace =>
    refine sweepAll_again (fun _ _ _ => sweepTenant_again fun sub => decide_eq_false fun due => ?_) rows
    cases due.1

end MapBackend.Billing
