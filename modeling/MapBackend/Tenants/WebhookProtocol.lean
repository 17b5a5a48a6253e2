import MapBackend.Tenants.WebhookMoves

/-!
The delivery protocol.
-/

namespace MapBackend.Tenants
open MapBackend.Library Webhooks

def WebhookWorker.weight (token : ℕ) (w : WebhookWorker) : ℕ := if w.token? = some token then 1 else 0

def DeliveryEvent.isPost : DeliveryEvent → Bool
  | .posted _ => true
  | _ => false

namespace WebhookStore

def meter (token : ℕ) (s : WebhookStore) : ℕ := if .started token ∈ s.history then 0 else 1

def posts (s : WebhookStore) : ℕ := s.history.countP DeliveryEvent.isPost

def postMeter (s : WebhookStore) : ℕ := s.posts + (positiveSmallIntegerMax - s.delivery.attempts)

/-- No attempt is left to a delivery only when the last one runs or has ended it. -/
structure Budget (s : WebhookStore) : Prop where
  attempts : s.delivery.attempts ≤ s.delivery.maxAttempts
  exhausted : s.delivery.attempts = s.delivery.maxAttempts → s.delivery.status = .delivering ∨ s.delivery.status.terminal

theorem meter_same {s later : WebhookStore} {token : ℕ}
    (same : .started token ∈ later.history ↔ .started token ∈ s.history) : later.meter token = s.meter token := by
  simp only [meter, same]

end WebhookStore

namespace WebhookMove

variable {s later : WebhookStore} {w w' : WebhookWorker} {input : WebhookInput}

theorem covers_own (move : WebhookMove s w input later w') (sound : s.Sound) (covers : s.Covers w) : later.Covers w' := by
  cases move with
  | quiet token =>
    intro held mem
    rcases token with none | same
    · exact absurd (none ▸ mem) (Option.not_mem_none held)
    · exact covers held (same ▸ mem)
  | @started expected _ _ _ owned =>
    rintro held ⟨⟩
    obtain ⟨-, _⟩ := claim_fresh sound owned
    refine ⟨?_, .inl ⟨rfl, rfl⟩⟩
    dsimp only
    omega
  | posted same =>
    intro held mem
    rw [same] at mem
    obtain ⟨drawn, owner⟩ := covers held mem
    exact ⟨drawn, owner.imp_right fun recovered => recovered.append rfl⟩
  | _ => exact fun held mem => absurd mem (Option.not_mem_none held)

theorem covers_others (move : WebhookMove s w input later w') (sound : s.Sound) {v : WebhookWorker} (covers : s.Covers v)
    (apart : ∀ token ∈ v.token?, w.token? ≠ some token) : later.Covers v := by
  intro token mem
  obtain ⟨drawn, owner⟩ := covers token mem
  refine ⟨drawn.trans_le move.nextToken_le, ?_⟩
  have kept (recovered : s.Recovered token) : later.Recovered token := by
    obtain ⟨_, grown⟩ := move.history
    exact recovered.append grown
  rcases owner with claimed | recovered
  · cases move with
    | quiet => exact .inl claimed
    | recovered running stale =>
      obtain ⟨last, claimedAt, held, since, -⟩ := sound.claimed running
      have same : last = token := Option.some.inj (held.symm.trans claimed.2)
      have late : claimedAt < input.now - claimTimeout := by
        rcases stale with ⟨_, at_mem, late⟩ | ⟨none, -⟩
        · exact Option.some.inj (since.symm.trans at_mem) ▸ late
        · exact absurd (since.symm.trans none) (by simp)
      refine .inr ⟨claimedAt, input.now, List.mem_append_right _ ?_, late⟩
      rw [held, same, since]
      exact List.mem_cons_self
    | claimed due =>
      rcases due.1 with pending | ⟨retry, -⟩
      · exact absurd (pending.symm.trans claimed.1) (by decide)
      · exact absurd (retry.symm.trans claimed.1) (by decide)
    | released queued => exact absurd (queued.1.symm.trans claimed.1) (by decide)
    | started _ idle => exact absurd claimed.1 idle
    | posted => exact .inl claimed
    | delivered own =>
      have same := Option.some.inj (own.2.symm.trans claimed.2)
      exact absurd (congrArg some same) (apart token mem)
    | failed holds own =>
      have same := own.2.symm.trans claimed.2
      exact absurd (holds.trans same) (apart token mem)
  · exact .inr (kept recovered)

theorem meter (move : WebhookMove s w input later w') (sound : s.Sound) (token : ℕ) :
    later.meter token + w'.weight token ≤ s.meter token + w.weight token := by
  have idle {v : WebhookWorker} (none : v.token? = none) : v.weight token = 0 := by
    simp [WebhookWorker.weight, none]
  have resting {v : WebhookWorker} (none : v.token? = none) (same : later.meter token = s.meter token) :
      later.meter token + v.weight token ≤ s.meter token + w.weight token := by
    rw [same, idle none]
    omega
  cases move with
  | quiet held =>
    rcases held with none | same
    · exact resting none rfl
    · rw [WebhookWorker.weight, same]
      exact le_rfl
  | recovered =>
    refine resting rfl (WebhookStore.meter_same ?_)
    simp only [List.mem_append, List.mem_map, reduceCtorEq, and_false, exists_false, or_false]
  | @started expected _ _ _ owned =>
    obtain ⟨fresh, -⟩ := claim_fresh sound owned
    by_cases hit : (expected.claim s.nextToken).1 = token
    · simp [WebhookStore.meter, WebhookWorker.weight, WebhookWorker.token?, hit, hit ▸ fresh]
    · rw [WebhookStore.meter_same (s := s)]
      · simp [WebhookWorker.weight, WebhookWorker.token?, hit]
      · simp [Ne.symm hit]
  | posted same =>
    rw [WebhookStore.meter_same (s := s), WebhookWorker.weight, same]
    · exact le_rfl
    · simp
  | claimed => exact resting rfl rfl
  | released => exact resting rfl rfl
  | delivered => exact resting rfl rfl
  | failed => exact resting rfl rfl

theorem postMeter (move : WebhookMove s w input later w') : later.postMeter + w'.unposted ≤ s.postMeter + w.unposted := by
  cases move with
  | quiet _ unposted => exact Nat.add_le_add_left unposted _
  | recovered =>
    have same : s.delivery.claimToken.toList.countP
        (fun token => DeliveryEvent.isPost (.recovered token (s.delivery.claimedAt.getD 0) input.now)) = 0 := by
      simp [DeliveryEvent.isPost]
    simp [WebhookStore.postMeter, WebhookStore.posts, List.countP_append, List.countP_map, Function.comp_def, same,
      WebhookWorker.unposted]
  | started =>
    simp only [WebhookStore.postMeter, WebhookStore.posts, List.countP_append, List.countP_singleton, DeliveryEvent.isPost,
      WebhookWorker.unposted]
    simp only [Bool.false_eq_true, if_false]
    omega
  | posted _ once =>
    simp only [WebhookStore.postMeter, WebhookStore.posts, List.countP_append, List.countP_singleton, DeliveryEvent.isPost, once]
    simp only [if_true, WebhookWorker.unposted]
    omega
  | _ => exact Nat.add_le_add_left (Nat.zero_le _) _

theorem budget (move : WebhookMove s w input later w') (budget : s.Budget)
    (last : w = .dispatchPending → ¬ (s.delivery.status = .delivering ∧ s.delivery.maxAttempts ≤ s.delivery.attempts ∧
      s.delivery.Stale input.now)) : later.Budget := by
  obtain ⟨attempts, exhausted⟩ := budget
  have left (idle : s.delivery.status ≠ .delivering) (open_ : ¬ s.delivery.status.terminal) :
      s.delivery.attempts < s.delivery.maxAttempts := by
    refine lt_of_le_of_ne attempts fun all => ?_
    rcases exhausted all with running | ended
    · exact idle running
    · exact open_ ended
  have unfinished {status : WebhookStatus} (is : s.delivery.status = status) (idle : status ≠ .delivering)
      (open_ : ¬ status.terminal) : s.delivery.attempts < s.delivery.maxAttempts := left (is ▸ idle) (is ▸ open_)
  cases move with
  | quiet => exact ⟨attempts, exhausted⟩
  | recovered running stale =>
    have spare : s.delivery.attempts < s.delivery.maxAttempts := by
      rcases running with queued | delivering
      · exact unfinished queued (by decide) (by decide)
      · exact Nat.lt_of_not_le fun all => last rfl ⟨delivering, all, stale⟩
    exact ⟨attempts, fun all => absurd all spare.ne⟩
  | claimed due =>
    have spare : s.delivery.attempts < s.delivery.maxAttempts := by
      rcases due.1 with pending | ⟨retry, -⟩
      · exact unfinished pending (by decide) (by decide)
      · exact unfinished retry (by decide) (by decide)
    exact ⟨attempts, fun all => absurd all spare.ne⟩
  | released queued => exact ⟨attempts, fun all => absurd all (unfinished queued.1 (by decide) (by decide)).ne⟩
  | started open_ idle => exact ⟨left idle open_, fun _ => .inl rfl⟩
  | posted => exact ⟨attempts, exhausted⟩
  | delivered => exact ⟨attempts, fun _ => .inr (.inl rfl)⟩
  | failed _ _ ends =>
    rcases ends with ⟨rfl, -⟩ | ⟨rfl, -, spare⟩
    · exact ⟨attempts, fun _ => .inr (.inr rfl)⟩
    · exact ⟨attempts, fun all => absurd all spare.ne⟩

theorem absorbs (move : WebhookMove s w input later w') (ended : s.delivery.status.terminal) : later.delivery = s.delivery := by
  have not_ended {status : WebhookStatus} (is : s.delivery.status = status) (open_ : ¬ status.terminal) : False :=
    open_ (is ▸ ended)
  cases move with
  | quiet => rfl
  | recovered running =>
    rcases running with queued | delivering
    · exact (not_ended queued (by decide)).elim
    · exact (not_ended delivering (by decide)).elim
  | claimed due =>
    rcases due.1 with pending | ⟨retry, -⟩
    · exact (not_ended pending (by decide)).elim
    · exact (not_ended retry (by decide)).elim
  | released claimed => exact (not_ended claimed.1 (by decide)).elim
  | started open_ => exact absurd ended open_
  | posted => rfl
  | delivered claimed => exact (not_ended claimed.1 (by decide)).elim
  | failed _ claimed => exact (not_ended claimed.1 (by decide)).elim

theorem finishes (move : WebhookMove s w input later w') (sound : s.Sound) (delivering : s.delivery.status = .delivering)
    (changed : later.delivery ≠ s.delivery) : w.token? = s.delivery.claimToken ∨
      (w = .dispatchPending ∧ ∃ claimedAt ∈ s.delivery.claimedAt, claimedAt < input.now - claimTimeout) := by
  cases move with
  | quiet => exact absurd rfl changed
  | recovered running stale =>
    obtain ⟨_, claimedAt, -, since, -⟩ := sound.claimed running
    rcases stale with late | ⟨none, -⟩
    · exact .inr ⟨rfl, late⟩
    · exact absurd (since.symm.trans none) (by simp)
  | claimed due =>
    rcases due.1 with pending | ⟨retry, -⟩
    · exact absurd (pending.symm.trans delivering) (by decide)
    · exact absurd (retry.symm.trans delivering) (by decide)
  | released claimed => exact absurd (claimed.1.symm.trans delivering) (by decide)
  | started _ idle => exact absurd delivering idle
  | posted => exact absurd rfl changed
  | delivered claimed => exact .inl claimed.2.symm
  | failed own claimed => exact .inl (own.trans claimed.2.symm)

end WebhookMove

namespace WebhookStore

theorem Sound.claimable {s : WebhookStore} (sound : s.Sound) (open_ : ¬ s.delivery.status.terminal) :
    ∃ earliest, ∀ now, earliest ≤ now →
      ((s.recoverStale now).claimDue now none true).1.delivery.Claimed .queued s.nextToken := by
  by_cases running : s.delivery.status = .queued ∨ s.delivery.status = .delivering
  · obtain ⟨_, claimedAt, -, since, -⟩ := sound.claimed running
    refine ⟨claimedAt + claimTimeout + 1, fun now late => ?_⟩
    have stale : s.delivery.Stale now := .inl ⟨claimedAt, since, lt_sub_iff_add_lt.mpr (Int.add_one_le_iff.mp late)⟩
    simp [recoverStale, running, stale, claimDue, WebhookDelivery.Due, WebhookDelivery.Claimed]
  · by_cases retry : s.delivery.status = .retry
    · obtain ⟨next, scheduled⟩ := sound.scheduled retry
      refine ⟨next, fun now late => ?_⟩
      simp [recoverStale, retry, claimDue, WebhookDelivery.Due, WebhookDelivery.Claimed, scheduled, late]
    · have pending : s.delivery.status = .pending := by
        unfold WebhookStatus.terminal at open_
        cases status : s.delivery.status <;> simp_all
      refine ⟨0, fun now _ => ?_⟩
      simp [recoverStale, pending, claimDue, WebhookDelivery.Due, WebhookDelivery.Claimed]

end WebhookStore

namespace WebhookCrew

structure Sound (c : WebhookCrew) : Prop where
  kept : c.Keeps WebhookStore.Sound WebhookStore.Covers
  single : ∀ token, c.store.meter token + c.load (WebhookWorker.weight token) ≤ 1
  posts : c.store.postMeter + c.load WebhookWorker.unposted ≤ positiveSmallIntegerMax

variable {c : WebhookCrew}

theorem Sound.apart (sound : c.Sound) {j k : ℕ} {v w : WebhookWorker} (other : j ≠ k)
    (at_j : c.workers[j]? = some v) (at_k : c.workers[k]? = some w) {token : ℕ} (held : v.token? = some token) :
    w.token? ≠ some token := by
  intro same
  have pair := c.load_pair (WebhookWorker.weight token) other at_j at_k
  have one := sound.single token
  simp only [WebhookWorker.weight, held, same, if_true] at pair
  omega

theorem Sound.next (sound : c.Sound) (a : WebhookAction) : (c.next a).Sound := by
  have move (w : WebhookWorker) (input : WebhookInput) :
      WebhookMove c.store w input (w.advance input c.store).1 (w.advance input c.store).2 := .of_advance w input c.store
  refine ⟨?_, fun token => ?_, ?_⟩
  · apply sound.kept.act a (c.allowed_always a)
    · intro task
      cases task <;> exact fun held mem => absurd mem (Option.not_mem_none held)
    · exact fun event => event.elim
    · intro k input w found covers _
      refine ⟨(move w input).sound sound.kept.store, (move w input).covers_own sound.kept.store covers, ?_⟩
      intro j v other at_j held
      exact (move w input).covers_others sound.kept.store held fun token mem => sound.apart other at_j found mem
  · refine (Crew.act_load c a (fun task => ?_) (fun event => event.elim) fun k input w _ => ?_).trans (sound.single token)
    · cases task <;> rfl
    · exact (move w input).meter sound.kept.store token
  · refine (Crew.act_load c a (fun task => ?_) (fun event => event.elim) fun k input w _ => ?_).trans sound.posts
    · cases task <;> rfl
    · exact (move w input).postMeter

/-- The recovery does not take back an attempt that is the last one of its delivery. -/
def LeavesLast (c : WebhookCrew) : WebhookWorker → WebhookInput → Prop
  | .dispatchPending, input => ¬ (c.store.delivery.status = .delivering ∧
      c.store.delivery.maxAttempts ≤ c.store.delivery.attempts ∧ c.store.delivery.Stale input.now)
  | _, _ => True

instance (c : WebhookCrew) : (w : WebhookWorker) → (input : WebhookInput) → Decidable (c.LeavesLast w input)
  | .dispatchPending, input => inferInstanceAs (Decidable (¬ (c.store.delivery.status = .delivering ∧
      c.store.delivery.maxAttempts ≤ c.store.delivery.attempts ∧ c.store.delivery.Stale input.now)))
  | .dispatchEvent _, _ => isTrue trivial
  | .claimPending _, _ => isTrue trivial
  | .publish _, _ => isTrue trivial
  | .release _, _ => isTrue trivial
  | .deliver _, _ => isTrue trivial
  | .attempt _, _ => isTrue trivial
  | .post _, _ => isTrue trivial
  | .succeed _ _, _ => isTrue trivial
  | .refuse _ _, _ => isTrue trivial
  | .fail _ _ _, _ => isTrue trivial
  | .done _, _ => isTrue trivial

structure Protocol (c : WebhookCrew) : Prop where
  /-- A delivered or failed row never changes again. -/
  absorbing : c.store.delivery.status.terminal → ∀ a, (c.next a).store.delivery = c.store.delivery
  /-- An attempt is ended by the task that holds the claim token, or taken back after the timeout. -/
  finishing : c.store.delivery.status = .delivering → ∀ a, (c.next a).store.delivery ≠ c.store.delivery →
    ∃ (k : ℕ) (input : WebhookInput) (w : WebhookWorker), a = .move k input ∧ c.workers[k]? = some w ∧
      (w.token? = c.store.delivery.claimToken ∨
        (w = .dispatchPending ∧ ∃ claimedAt ∈ c.store.delivery.claimedAt, claimedAt < input.now - claimTimeout))
  /-- Of two attempts in flight the earlier one was taken back after its timeout. -/
  overlapping : ∀ (j k : ℕ) (v w : WebhookWorker), j ≠ k → c.workers[j]? = some v → c.workers[k]? = some w →
    ∀ first ∈ v.token?, ∀ second ∈ w.token?, first ≤ second → c.store.Recovered first
  /-- Some later periodic run claims a delivery that has not ended. -/
  claimable : ¬ c.store.delivery.status.terminal → ∃ earliest, ∀ first second : WebhookInput,
    earliest ≤ first.now → second.selected = true →
      (run WebhookCrew.next c [.start .dispatchPendingWebhooks, .move c.workers.length first,
        .move c.workers.length second]).store.delivery.Claimed .queued c.store.nextToken
  attempts : c.store.delivery.attempts ≤ c.store.delivery.maxAttempts
  posts : c.store.posts ≤ c.store.delivery.maxAttempts
  /-- A delivery without attempts is in its last one, delivered or failed. -/
  exhausted : c.store.delivery.attempts = c.store.delivery.maxAttempts →
    c.store.delivery.status = .delivering ∨ c.store.delivery.status.terminal

theorem next_move (c : WebhookCrew) (a : WebhookAction) : (c.next a).store = c.store ∨
    ∃ k input w, a = .move k input ∧ c.workers[k]? = some w ∧
      WebhookMove c.store w input (c.next a).store (w.advance input c.store).2 := by
  rcases c.act_store a with same | ⟨event, -, -⟩ | ⟨k, input, w, acts, found, moved⟩
  · exact .inl same
  · exact event.elim
  · refine .inr ⟨k, input, w, acts, found, ?_⟩
    rw [WebhookCrew.next, moved]
    exact .of_advance w input c.store

theorem Sound.overlapping (sound : c.Sound) {j k : ℕ} {v w : WebhookWorker} (other : j ≠ k)
    (at_j : c.workers[j]? = some v) (at_k : c.workers[k]? = some w) {first second : ℕ} (held : v.token? = some first)
    (holds : w.token? = some second) (order : first ≤ second) : c.store.Recovered first := by
  obtain ⟨-, owner⟩ := sound.kept.workers v (List.mem_of_getElem? at_j) first held
  obtain ⟨_, -⟩ := sound.kept.workers w (List.mem_of_getElem? at_k) second holds
  rcases owner with claimed | recovered
  · obtain ⟨token, _, found, -, _⟩ := sound.kept.store.claimed (.inr claimed.1)
    have same : token = first := Option.some.inj (found.symm.trans claimed.2)
    have one : first = second := by omega
    exact absurd (one ▸ holds) (sound.apart other at_j at_k held)
  · exact recovered

theorem dispatch_run (c : WebhookCrew) (first second : WebhookInput) :
    (run WebhookCrew.next c [.start .dispatchPendingWebhooks, .move c.workers.length first,
        .move c.workers.length second]).store =
      ((c.store.recoverStale first.now).claimDue first.now none second.selected).1 := by
  simp [WebhookCrew.next, Crew.act, CrewAction.enter, Crew.step, WebhookTask.worker, WebhookWorker.advance]

theorem Sound.protocol (sound : c.Sound) (budget : c.store.Budget) : c.Protocol := by
  refine ⟨?_, ?_, ?_, ?_, budget.attempts, ?_, budget.exhausted⟩
  · intro ended a
    rcases c.next_move a with same | ⟨_, _, _, -, -, move⟩
    · rw [same]
    · exact move.absorbs ended
  · intro delivering a changed
    rcases c.next_move a with same | ⟨k, input, w, acts, found, move⟩
    · exact absurd (congrArg WebhookStore.delivery same) changed
    · exact ⟨k, input, w, acts, found, move.finishes sound.kept.store delivering changed⟩
  · intro j k v w other at_j at_k first held second holds order
    exact sound.overlapping other at_j at_k held holds order
  · intro open_
    obtain ⟨earliest, claims⟩ := sound.kept.store.claimable open_
    refine ⟨earliest, fun first second late selected => ?_⟩
    rw [dispatch_run, selected]
    exact claims first.now late
  · have posted := sound.posts
    have fits := sound.kept.store.fits
    have attempts := budget.attempts
    unfold WebhookStore.postMeter at posted
    omega

/-- In every run that leaves the last attempt to its task, the delivery keeps to its protocol. -/
theorem delivery_protocol {eventId maxAttempts : ℕ} {now : Instant} (positive : 0 < maxAttempts)
    {actions : List WebhookAction} (allowed : Meets WebhookCrew.next (Crew.Allowed LeavesLast)
      (created eventId maxAttempts now) actions) :
    Protocol (run WebhookCrew.next (created eventId maxAttempts now) actions) := by
  have start : (created eventId maxAttempts now).Sound ∧ (created eventId maxAttempts now).store.Budget := by
    refine ⟨⟨⟨⟨?_, fun _ => rfl, ?_, ?_, ?_, Nat.zero_le _⟩, ?_⟩, ?_, ?_⟩, Nat.zero_le _, ?_⟩
    · intro running
      rcases running with queued | delivering
      · cases queued
      · cases delivering
    · exact fun retry => by cases retry
    · exact fun token mem => absurd mem List.not_mem_nil
    · exact fun token claimed mem => absurd mem List.not_mem_nil
    · exact fun w mem => absurd mem List.not_mem_nil
    · exact fun token => le_rfl
    · simp [WebhookStore.postMeter, WebhookStore.posts, created, WebhookDelivery.created, Crew.load]
    · intro all
      exact absurd all positive.ne
  have step : ∀ (c : WebhookCrew) (a : WebhookAction), (c.Sound ∧ c.store.Budget) → c.Allowed LeavesLast a →
      ((c.next a).Sound ∧ (c.next a).store.Budget) := by
    rintro c a ⟨sound, budget⟩ allowed
    refine ⟨sound.next a, ?_⟩
    rcases c.next_move a with same | ⟨k, _, w, rfl, found, move⟩
    · rw [same]
      exact budget
    · refine move.budget budget fun dispatches => ?_
      subst dispatches
      exact allowed _ found
  obtain ⟨sound, budget⟩ := run_invariant WebhookCrew.next step start allowed
  exact sound.protocol budget

end WebhookCrew

def WebhookInput.fine (now : Instant) : WebhookInput where
  now
  selected := true
  published := true
  endpointAvailable := true
  request := .sent (.ok 200)
  failure := none

def attemptedDelivery (k : ℕ) (now : Instant) : List WebhookAction :=
  [.start .dispatchPendingWebhooks, .move k (.fine now), .move k (.fine now), .move k (.fine now)]

def retriedDelivery : List WebhookAction :=
  attemptedDelivery 0 1 ++ [.start (.deliverWebhook (.token 0)), .move 1 (.fine 2), .move 1 (.fine 3),
    .move 1 { WebhookInput.fine 4 with request := .sent (.ok 500) }, .move 1 (.fine 5)] ++
  attemptedDelivery 2 (70 * second) ++ [.start (.deliverWebhook (.token 1)), .move 3 (.fine (71 * second)),
    .move 3 (.fine (72 * second)), .move 3 (.fine (73 * second)), .move 3 (.fine (74 * second))]

theorem delivery_protocol_retried : WebhookCrew.Protocol (run WebhookCrew.next (.created 7 2 0) retriedDelivery) := by
  have allowed : Meets WebhookCrew.next (Crew.Allowed WebhookCrew.LeavesLast) (.created 7 2 0) retriedDelivery := by
    decide +kernel
  exact WebhookCrew.delivery_protocol (by decide) allowed

/-- The worker of the only attempt crashes after its post, and the recovery takes the claim back. -/
def crashedDelivery : List WebhookAction :=
  attemptedDelivery 0 1 ++ [.start (.deliverWebhook (.token 0)), .move 1 (.fine 2), .move 1 (.fine 3), .move 1 (.fine 4), .crash 1] ++
  attemptedDelivery 1 (1000 * second) ++ [.start (.deliverWebhook (.token 1)), .move 2 (.fine (1001 * second)),
    .move 2 (.fine (1002 * second)), .move 2 (.fine (1003 * second))]

/-- A delivery of one attempt is attempted and posted twice. -/
theorem recovered_attempt_exceeds :
    (run WebhookCrew.next (.created 7 1 0) crashedDelivery).store.delivery.maxAttempts = 1 ∧
      (run WebhookCrew.next (.created 7 1 0) crashedDelivery).store.delivery.attempts = 2 ∧
      (run WebhookCrew.next (.created 7 1 0) crashedDelivery).store.posts = 2 := by
  decide +kernel

end MapBackend.Tenants
