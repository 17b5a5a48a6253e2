import MapBackend.Tenants.WebhookDelivery

/-! What one move of a task does to the delivery, and the invariants of its claims. -/

namespace MapBackend.Tenants
open MapBackend.Library Webhooks

def WebhookWorker.unposted : WebhookWorker → ℕ
  | .attempt _ | .post _ => 1
  | _ => 0

inductive WebhookMove (s : WebhookStore) : WebhookWorker → WebhookInput → WebhookStore → WebhookWorker → Prop where
  | quiet {w w' : WebhookWorker} {input : WebhookInput} (token : w'.token? = none ∨ w'.token? = w.token?)
      (unposted : w'.unposted ≤ w.unposted) : WebhookMove s w input s w'
  | recovered {input : WebhookInput} (running : s.delivery.status = .queued ∨ s.delivery.status = .delivering)
      (stale : s.delivery.Stale input.now) :
      WebhookMove s .dispatchPending input { s with
        delivery := { s.delivery with
          status := .retry, nextAttemptAt := some input.now, claimToken := none, claimedAt := none
          lastError := staleClaimRecovered, updatedAt := input.now }
        history := s.history ++ (s.delivery.claimToken.toList.map fun token =>
          .recovered token (s.delivery.claimedAt.getD 0) input.now) } (.claimPending input.now)
  | claimed {w : WebhookWorker} {input : WebhookInput} {now : Instant} {eventId : Option ℕ} (due : s.delivery.Due now eventId) :
      WebhookMove s w input { s with
        delivery := { s.delivery with
          status := .queued, claimToken := some s.nextToken, claimedAt := some now, nextAttemptAt := none, updatedAt := now }
        nextToken := s.nextToken + 1 } (.publish s.nextToken)
  | released {token : ℕ} {input : WebhookInput} (claimed : s.delivery.Claimed .queued token) :
      WebhookMove s (.release token) input { s with delivery := { s.delivery with
        status := .retry, nextAttemptAt := some (input.now + webhookRetryDelay 1), claimToken := none, claimedAt := none
        lastError := queuePublishError, updatedAt := input.now } } (.done (.queued 0))
  | started {expected : ClaimArgument} {input : WebhookInput} (open_ : ¬ s.delivery.status.terminal)
      (idle : s.delivery.status ≠ .delivering) (owned : ∀ token ∈ expected.token?, s.delivery.Claimed .queued token)
      (unowned : expected = .absent → s.delivery.status ≠ .queued) (wellFormed : expected ≠ .malformed)
      (fits : s.delivery.attempts + 1 ≤ positiveSmallIntegerMax) :
      WebhookMove s (.deliver expected) input { s with
        delivery := { s.delivery with
          status := .delivering, claimToken := some (expected.claim s.nextToken).1, claimedAt := some input.now
          attempts := s.delivery.attempts + 1, lastAttemptAt := some input.now, updatedAt := input.now }
        nextToken := (expected.claim s.nextToken).2
        history := s.history ++ [.started (expected.claim s.nextToken).1] } (.attempt (expected.claim s.nextToken).1)
  | posted {token : ℕ} {input : WebhookInput} {w' : WebhookWorker} (same : w'.token? = some token) (once : w'.unposted = 0) :
      WebhookMove s (.post token) input { s with history := s.history ++ [.posted token] } w'
  | delivered {token responseStatus : ℕ} {input : WebhookInput} {result : WebhookResult}
      (claimed : s.delivery.Claimed .delivering token) :
      WebhookMove s (.succeed token responseStatus) input { s with delivery := { s.delivery with
        status := .delivered, deliveredAt := some input.now, nextAttemptAt := none, claimToken := none, claimedAt := none
        responseStatus := some responseStatus, lastError := "", updatedAt := input.now } } (.done result)
  | failed {w : WebhookWorker} {token : ℕ} {input : WebhookInput} {lastError : String} {responseStatus : Option ℕ}
      {result : WebhookResult} {status : WebhookStatus} {nextAttemptAt : Option Instant} (own : w.token? = some token)
      (claimed : s.delivery.Claimed .delivering token)
      (ends : (status = .failed ∧ nextAttemptAt = none) ∨
        (status = .retry ∧ (∃ next, nextAttemptAt = some next) ∧ s.delivery.attempts < s.delivery.maxAttempts)) :
      WebhookMove s w input { s with delivery := { s.delivery with
        status, nextAttemptAt, lastError, responseStatus
        claimToken := none, claimedAt := none, updatedAt := input.now } } (.done result)

namespace WebhookMove

variable {input : WebhookInput}

theorem ofClaim {s : WebhookStore} {w : WebhookWorker} (now : Instant) (eventId : Option ℕ)
    (selected : Bool) : WebhookMove s w input (s.claimDue now eventId selected).1
      (WebhookWorker.publishing (s.claimDue now eventId selected).2) := by
  unfold WebhookStore.claimDue
  split
  next taken => exact .claimed taken.1
  next => exact .quiet (.inl rfl) (Nat.zero_le _)

theorem ofFailure {s : WebhookStore} {w : WebhookWorker} {token : ℕ} (own : w.token? = some token)
    (error : SafeWebhookDeliveryError) (permanent : Bool) (responseStatus : Option ℕ) :
    WebhookMove s w input (s.finishFailure token error permanent responseStatus input.now).1
      (.done (s.finishFailure token error permanent responseStatus input.now).2) := by
  simp only [WebhookStore.finishFailure]
  split
  next claimed =>
    refine .failed own claimed ?_
    by_cases exhausted : permanent = true ∨ s.delivery.maxAttempts ≤ s.delivery.attempts
    · exact .inl ⟨if_pos exhausted, if_pos exhausted⟩
    · rw [if_neg exhausted, if_neg exhausted]
      rw [not_or, not_le] at exhausted
      exact .inr ⟨rfl, ⟨_, rfl⟩, exhausted.2⟩
  next => exact .quiet (.inl rfl) (Nat.zero_le _)

theorem ofStart {s after : WebhookStore} {expected : ClaimArgument} {token : ℕ}
    (started : s.startDelivery expected input.now = .ok (after, token)) :
    WebhookMove s (.deliver expected) input after (.attempt token) := by
  simp only [WebhookStore.startDelivery, bind_ok, raiseIf_ok, pure_ok, Prod.mk.injEq, not_exists, not_and, not_not,
    not_lt] at started
  obtain ⟨_, wellFormed, _, open_, _, idle, _, owned, _, unowned, _, -, _, fits, rfl, rfl⟩ := started
  exact .started open_ idle owned unowned wellFormed fits

theorem of_advance (w : WebhookWorker) (input : WebhookInput) (s : WebhookStore) :
    WebhookMove s w input (w.advance input s).1 (w.advance input s).2 := by
  cases w with
  | dispatchEvent eventId =>
    cases eventId with
    | none => exact .quiet (.inl rfl) (Nat.zero_le _)
    | some eventId => exact ofClaim input.now (some eventId) input.selected
  | dispatchPending =>
    simp only [WebhookWorker.advance, WebhookStore.recoverStale]
    split
    next taken => exact .recovered taken.1 taken.2
    next => exact .quiet (.inl rfl) (Nat.zero_le _)
  | claimPending now => exact ofClaim now none input.selected
  | publish =>
    simp only [WebhookWorker.advance]
    split <;> exact .quiet (.inl rfl) (Nat.zero_le _)
  | release =>
    simp only [WebhookWorker.advance, WebhookStore.releaseUnpublished]
    split
    next claimed => exact .released claimed
    next => exact .quiet (.inl rfl) (Nat.zero_le _)
  | deliver =>
    simp only [WebhookWorker.advance]
    split
    next => exact .quiet (.inl rfl) (Nat.zero_le _)
    next started => exact ofStart started
  | attempt =>
    simp only [WebhookWorker.advance]
    split
    · exact .quiet (.inr rfl) le_rfl
    · exact .quiet (.inr rfl) (Nat.zero_le _)
  | post =>
    simp only [WebhookWorker.advance]
    split
    next => exact .quiet (.inr rfl) (Nat.zero_le _)
    next answer _ =>
      cases answer with
      | error => exact .posted rfl rfl
      | ok =>
        dsimp only
        split <;> exact .posted rfl rfl
  | succeed =>
    simp only [WebhookWorker.advance]
    split
    next => exact .quiet (.inr rfl) (Nat.zero_le _)
    next =>
      simp only [WebhookStore.finishSuccess]
      split
      next claimed => exact .delivered claimed
      next => exact .quiet (.inl rfl) (Nat.zero_le _)
  | refuse =>
    simp only [WebhookWorker.advance]
    split
    next => exact .quiet (.inr rfl) (Nat.zero_le _)
    next => exact ofFailure rfl _ _ _
  | fail =>
    simp only [WebhookWorker.advance]
    split
    next => exact .quiet (.inl rfl) (Nat.zero_le _)
    next => exact ofFailure rfl _ _ _
  | done => exact .quiet (.inl rfl) (Nat.zero_le _)

end WebhookMove

namespace WebhookStore

def Recovered (s : WebhookStore) (token : ℕ) : Prop :=
  ∃ claimedAt now, .recovered token claimedAt now ∈ s.history ∧ claimedAt < now - claimTimeout

/-- The row obeys its check constraint, its claim token is the last one drawn, and a claim has not been started. -/
structure Sound (s : WebhookStore) : Prop where
  claimed : s.delivery.status = .queued ∨ s.delivery.status = .delivering →
    ∃ token claimedAt, s.delivery.claimToken = some token ∧ s.delivery.claimedAt = some claimedAt ∧ token + 1 = s.nextToken
  unclaimed : ¬ (s.delivery.status = .queued ∨ s.delivery.status = .delivering) → s.delivery.claimToken = none
  scheduled : s.delivery.status = .retry → ∃ next, s.delivery.nextAttemptAt = some next
  drawn : ∀ token, .started token ∈ s.history → token < s.nextToken
  unstarted : ∀ token, s.delivery.Claimed .queued token → .started token ∉ s.history
  fits : s.delivery.attempts ≤ positiveSmallIntegerMax

def Covers (s : WebhookStore) (w : WebhookWorker) : Prop :=
  ∀ token ∈ w.token?, token < s.nextToken ∧ (s.delivery.Claimed .delivering token ∨ s.Recovered token)

theorem Recovered.append {s : WebhookStore} {token : ℕ} (recovered : s.Recovered token) {later : WebhookStore}
    {events : List DeliveryEvent} (grown : later.history = s.history ++ events) : later.Recovered token := by
  obtain ⟨claimedAt, now, mem, stale⟩ := recovered
  exact ⟨claimedAt, now, grown ▸ List.mem_append_left _ mem, stale⟩

theorem Sound.release {s later : WebhookStore} (sound : s.Sound) (status : WebhookStatus)
    (free : ¬ (status = .queued ∨ status = .delivering)) (is : later.delivery.status = status)
    (token : later.delivery.claimToken = none) (scheduled : status = .retry → ∃ next, later.delivery.nextAttemptAt = some next)
    (started : ∀ token, .started token ∈ later.history → .started token ∈ s.history)
    (drawn : later.nextToken = s.nextToken) (attempts : later.delivery.attempts = s.delivery.attempts) : later.Sound where
  claimed running := absurd (is ▸ running) free
  unclaimed _ := token
  scheduled retry := scheduled (is ▸ retry)
  drawn token mem := drawn ▸ sound.drawn token (started token mem)
  unstarted _ claimed := absurd (.inl (is ▸ claimed.1)) free
  fits := attempts ▸ sound.fits

end WebhookStore

namespace WebhookMove

variable {s later : WebhookStore} {w w' : WebhookWorker} {input : WebhookInput}

theorem history (move : WebhookMove s w input later w') : ∃ events, later.history = s.history ++ events := by
  cases move with
  | recovered => exact ⟨_, rfl⟩
  | started => exact ⟨_, rfl⟩
  | posted => exact ⟨_, rfl⟩
  | _ => exact ⟨[], (List.append_nil _).symm⟩

theorem nextToken_le (move : WebhookMove s w input later w') : s.nextToken ≤ later.nextToken := by
  cases move with
  | claimed => exact Nat.le_succ _
  | @started expected =>
    dsimp only
    cases expected with
    | token => exact le_rfl
    | _ => exact Nat.le_succ _
  | _ => exact le_rfl

theorem claim_fresh (sound : s.Sound) {expected : ClaimArgument}
    (owned : ∀ token ∈ expected.token?, s.delivery.Claimed .queued token) :
    .started (expected.claim s.nextToken).1 ∉ s.history ∧
      (expected.claim s.nextToken).1 + 1 = (expected.claim s.nextToken).2 := by
  have drawn : .started s.nextToken ∉ s.history := fun mem => Nat.lt_irrefl _ (sound.drawn _ mem)
  cases expected with
  | token value =>
    have claimed : s.delivery.Claimed .queued value := owned value rfl
    obtain ⟨token, _, found, -, last⟩ := sound.claimed (.inl claimed.1)
    have same : token = value := Option.some.inj (found.symm.trans claimed.2)
    exact ⟨sound.unstarted value claimed, same ▸ last⟩
  | absent => exact ⟨drawn, rfl⟩
  | malformed => exact ⟨drawn, rfl⟩

theorem sound (move : WebhookMove s w input later w') (sound : s.Sound) : later.Sound := by
  cases move with
  | quiet => exact sound
  | recovered =>
    refine sound.release .retry (by decide) rfl rfl (fun _ => ⟨_, rfl⟩) (fun token mem => ?_) rfl rfl
    rcases List.mem_append.mp mem with old | new
    · exact old
    · obtain ⟨_, -, made⟩ := List.mem_map.mp new
      cases made
  | claimed =>
    refine ⟨fun _ => ⟨_, _, rfl, rfl, rfl⟩, fun idle => absurd (.inl rfl) idle, fun retry => (by cases retry), ?_, ?_, sound.fits⟩
    · intro token mem
      exact Nat.lt_succ_of_lt (sound.drawn token mem)
    · intro token claimed mem
      have last : s.nextToken = token := Option.some.inj claimed.2
      exact Nat.lt_irrefl _ (last ▸ sound.drawn token mem)
  | released => exact sound.release .retry (by decide) rfl rfl (fun _ => ⟨_, rfl⟩) (fun _ mem => mem) rfl rfl
  | @started expected _ open_ idle owned unowned wellFormed fits =>
    obtain ⟨-, last⟩ := claim_fresh sound owned
    refine ⟨fun _ => ⟨_, _, rfl, rfl, last⟩, fun free => absurd (.inr rfl) free, fun retry => (by cases retry), ?_,
      fun _ claimed => (by cases claimed.1), fits⟩
    intro token mem
    dsimp only at mem ⊢
    rcases List.mem_append.mp mem with old | new
    · have older := sound.drawn token old
      cases expected with
      | token => exact older
      | _ => exact Nat.lt_succ_of_lt older
    · rw [DeliveryEvent.started.inj (List.mem_singleton.mp new), ← last]
      exact Nat.lt_succ_self _
  | posted =>
    refine ⟨sound.claimed, sound.unclaimed, sound.scheduled, fun token mem => ?_, fun token claimed mem => ?_, sound.fits⟩
    · rcases List.mem_append.mp mem with old | new
      · exact sound.drawn token old
      · cases List.mem_singleton.mp new
    · rcases List.mem_append.mp mem with old | new
      · exact sound.unstarted token claimed old
      · cases List.mem_singleton.mp new
  | delivered => exact sound.release .delivered (by decide) rfl rfl (fun retry => by cases retry) (fun _ mem => mem) rfl rfl
  | failed _ _ ends =>
    rcases ends with ⟨rfl, rfl⟩ | ⟨rfl, scheduled, -⟩
    · exact sound.release .failed (by decide) rfl rfl (fun retry => by cases retry) (fun _ mem => mem) rfl rfl
    · exact sound.release .retry (by decide) rfl rfl (fun _ => scheduled) (fun _ mem => mem) rfl rfl

end WebhookMove

end MapBackend.Tenants
