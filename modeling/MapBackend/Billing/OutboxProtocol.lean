import MapBackend.Billing.Outbox
import MapBackend.Library.Tokens

/-!
The delivery protocol of an outbox event.
-/

namespace MapBackend.Billing
open MapBackend.Library

inductive OutboxMove (settings : OutboxSettings) (s : OutboxStore) :
    OutboxWorker → OutboxInput → OutboxStore → OutboxWorker → Prop where
  | quiet {w w' : OutboxWorker} {input : OutboxInput} (token : w'.token? = none ∨ w'.token? = w.token?) :
      OutboxMove settings s w input s w'
  | claimed {force : Bool} {input : OutboxInput} (open_ : s.row.status ≠ .dispatched)
      (dead : s.row.status = .dead → force = true)
      (stale : s.row.status = .processing → ∀ startedAt ∈ s.row.processingStartedAt, startedAt < settings.staleBefore input.now) :
      OutboxMove settings s (.claim force) input
        { row := { s.row with
            status := .processing, processingToken := some s.nextToken, processingStartedAt := some input.now
            attempts := s.row.attempts + 1 }
          nextToken := s.nextToken + 1
          automaticClaims := if force then s.automaticClaims else s.automaticClaims + 1 } (.publish s.nextToken)
  | dispatched {token : ℕ} {input : OutboxInput} (own : s.row.Owned token) :
      OutboxMove settings s (.mark token) input { s with row := s.row.dispatch input.now } .done
  | rescheduled {token : ℕ} {input : OutboxInput} (own : s.row.Owned token) :
      OutboxMove settings s (.fail token) input { s with row := s.row.reschedule settings input.now } .done

namespace OutboxRow

variable {settings : OutboxSettings} {row : OutboxRow} {now : Instant}

theorem reschedule_exhausted (exhausted : settings.maxAttempts ≤ row.attempts) :
    (row.reschedule settings now).status = .dead := if_pos exhausted

theorem reschedule_retryable (spare : row.attempts < settings.maxAttempts) :
    (row.reschedule settings now).status = .pending := if_neg (Nat.not_le.mpr spare)

theorem reschedule_status : (row.reschedule settings now).status ≠ .processing ∧
    (row.reschedule settings now).status ≠ .dispatched ∧
    ((row.reschedule settings now).status = .pending → row.attempts < settings.maxAttempts) := by
  by_cases exhausted : settings.maxAttempts ≤ row.attempts
  · rw [reschedule_exhausted exhausted]
    exact ⟨by decide, by decide, fun pending => (by cases pending)⟩
  · have spare : row.attempts < settings.maxAttempts := by omega
    rw [reschedule_retryable spare]
    exact ⟨by decide, by decide, fun _ => spare⟩

end OutboxRow

namespace OutboxStore

variable {settings : OutboxSettings}

theorem claimEvent_open {s : OutboxStore} {force : Bool} {now : Instant} (open_ : s.row.status ≠ .dispatched)
    (dead : s.row.status = .dead → force = true)
    (stale : s.row.status = .processing → ∀ startedAt ∈ s.row.processingStartedAt, startedAt < settings.staleBefore now)
    (due : s.row.status = .pending → force = true ∨ ∀ next ∈ s.row.nextAttemptAt, next ≤ now) :
    (s.claimEvent settings force now).1.row.Owned s.nextToken := by
  unfold claimEvent
  rw [if_neg open_, if_neg, if_neg, if_neg]
  · exact ⟨rfl, rfl⟩
  · rintro ⟨pending, automatic, next, scheduled, later⟩
    rcases due pending with forced | passed
    · exact absurd (forced.symm.trans automatic) (by decide)
    · exact absurd (passed next scheduled) (Int.not_le.mpr later)
  · rintro ⟨processing, startedAt, held, fresh⟩
    exact absurd (stale processing startedAt held) (Int.not_lt.mpr fresh)
  · rintro ⟨isDead, automatic⟩
    exact absurd ((dead isDead).symm.trans automatic) (by decide)

/-- The token of a processing row is the last one drawn, and its lease has a start. -/
structure Sound (s : OutboxStore) : Prop where
  leased : s.row.status = .processing → ∃ token startedAt, s.row.processingToken = some token ∧
    s.row.processingStartedAt = some startedAt ∧ token + 1 = s.nextToken
  claims : s.automaticClaims ≤ s.row.attempts

structure Budget (settings : OutboxSettings) (s : OutboxStore) : Prop where
  claims : s.automaticClaims ≤ settings.maxAttempts
  pending : s.row.status = .pending → s.row.attempts < settings.maxAttempts

end OutboxStore

namespace OutboxMove

variable {settings : OutboxSettings} {s later : OutboxStore} {w w' : OutboxWorker} {input : OutboxInput}

theorem of_advance (settings : OutboxSettings) (w : OutboxWorker) (input : OutboxInput) (s : OutboxStore) :
    OutboxMove settings s w input (w.advance settings input s).1 (w.advance settings input s).2 := by
  cases w with
  | select =>
    simp only [OutboxWorker.advance]
    split <;> exact .quiet (.inl rfl)
  | claim force =>
    simp only [OutboxWorker.advance, OutboxStore.claimEvent]
    split
    next => exact .quiet (.inl rfl)
    next open_ =>
      split
      next => exact .quiet (.inl rfl)
      next dead =>
        split
        next => exact .quiet (.inl rfl)
        next busy =>
          split
          next => exact .quiet (.inl rfl)
          next =>
            refine .claimed open_ (fun isDead => ?_) fun processing startedAt held => ?_
            · cases force with
              | true => rfl
              | false => exact absurd ⟨isDead, rfl⟩ dead
            · exact Int.not_le.mp fun fresh => busy ⟨processing, startedAt, held, fresh⟩
  | publish =>
    simp only [OutboxWorker.advance]
    split <;> exact .quiet (.inr rfl)
  | mark =>
    simp only [OutboxWorker.advance, OutboxStore.markDispatched]
    split
    next own => exact .dispatched own
    next => exact .quiet (.inl rfl)
  | fail =>
    simp only [OutboxWorker.advance, OutboxStore.reschedule]
    split
    next own => exact .rescheduled own
    next => exact .quiet (.inl rfl)
  | done => exact .quiet (.inl rfl)

theorem sound (move : OutboxMove settings s w input later w') (sound : s.Sound) : later.Sound := by
  cases move with
  | quiet => exact sound
  | @claimed force _ open_ dead stale =>
    refine ⟨fun _ => ⟨s.nextToken, input.now, rfl, rfl, rfl⟩, ?_⟩
    have claims := sound.claims
    dsimp only
    split <;> omega
  | dispatched => exact ⟨fun processing => (by cases processing), sound.claims⟩
  | rescheduled => exact ⟨fun processing => absurd processing OutboxRow.reschedule_status.1, sound.claims⟩

theorem draws (move : OutboxMove settings s w input later w') :
    Draws OutboxWorker.token? OutboxStore.nextToken s w later w' := by
  cases move with
  | quiet token => exact ⟨le_rfl, token.imp_right .inl⟩
  | claimed => exact ⟨Nat.le_succ _, .inr (.inr ⟨rfl, Nat.lt_succ_self _⟩)⟩
  | dispatched => exact ⟨le_rfl, .inl rfl⟩
  | rescheduled => exact ⟨le_rfl, .inl rfl⟩

theorem budget (move : OutboxMove settings s w input later w') (sound : s.Sound) (budget : s.Budget settings)
    (spare : w = .claim false → s.row.Reclaimable settings input.now → s.row.attempts < settings.maxAttempts) :
    later.Budget settings := by
  cases move with
  | quiet => exact budget
  | @claimed force _ open_ dead stale =>
    refine ⟨?_, fun pending => (by cases pending)⟩
    cases force with
    | true => exact budget.claims
    | false =>
      have left : s.row.attempts < settings.maxAttempts := by
        cases status : s.row.status with
        | pending => exact budget.pending status
        | processing => exact spare rfl ⟨status, stale status⟩
        | dispatched => exact absurd status open_
        | dead => exact absurd (dead status) (by decide)
      exact Nat.succ_le_of_lt (lt_of_le_of_lt sound.claims left)
  | dispatched => exact ⟨budget.claims, fun pending => (by cases pending)⟩
  | rescheduled => exact ⟨budget.claims, OutboxRow.reschedule_status.2.2⟩

theorem absorbs (move : OutboxMove settings s w input later w') (dispatched : s.row.status = .dispatched) :
    later.row = s.row := by
  cases move with
  | quiet => rfl
  | claimed open_ => exact absurd dispatched open_
  | dispatched own => exact absurd (own.1.symm.trans dispatched) (by decide)
  | rescheduled own => exact absurd (own.1.symm.trans dispatched) (by decide)

theorem finishes (move : OutboxMove settings s w input later w') (sound : s.Sound) (processing : s.row.status = .processing)
    (changed : later.row ≠ s.row) : (w.token? = s.row.processingToken ∧ later.row.status ≠ .processing ∧
      (settings.maxAttempts ≤ s.row.attempts → later.row.status = .dispatched ∨ later.row.status = .dead)) ∨
    ((∃ force, w = .claim force) ∧ later.row.status = .processing ∧
      ∃ startedAt ∈ s.row.processingStartedAt, startedAt < settings.staleBefore input.now) := by
  cases move with
  | quiet => exact absurd rfl changed
  | @claimed force _ open_ dead stale =>
    obtain ⟨_, startedAt, -, started, -⟩ := sound.leased processing
    exact .inr ⟨⟨force, rfl⟩, rfl, startedAt, started, stale processing startedAt started⟩
  | dispatched own => exact .inl ⟨own.2.symm, (by decide : OutboxStatus.dispatched ≠ .processing), fun _ => .inl rfl⟩
  | rescheduled own =>
    exact .inl ⟨own.2.symm, OutboxRow.reschedule_status.1, fun exhausted => .inr (OutboxRow.reschedule_exhausted exhausted)⟩

end OutboxMove

namespace OutboxStore

variable {settings : OutboxSettings} {s : OutboxStore}

theorem Sound.claimable (sound : s.Sound) (dispatched : s.row.status ≠ .dispatched) (dead : s.row.status ≠ .dead) :
    ∃ earliest, ∀ found claimed, earliest ≤ found → earliest ≤ claimed →
      s.row.Candidate settings false found ∧ (s.claimEvent settings false claimed).1.row.Owned s.nextToken := by
  have claim (now : Instant)
      (stale : s.row.status = .processing → ∀ startedAt ∈ s.row.processingStartedAt, startedAt < settings.staleBefore now)
      (due : s.row.status = .pending → ∀ next ∈ s.row.nextAttemptAt, next ≤ now) :
      (s.claimEvent settings false now).1.row.Owned s.nextToken :=
    claimEvent_open dispatched (fun isDead => absurd isDead dead) stale fun pending => .inr (due pending)
  cases status : s.row.status with
  | dispatched => exact absurd status dispatched
  | dead => exact absurd status dead
  | pending =>
    refine ⟨s.row.nextAttemptAt.getD 0, fun found claimed early late => ?_⟩
    have passed {now : Instant} (after : s.row.nextAttemptAt.getD 0 ≤ now) : ∀ next ∈ s.row.nextAttemptAt, next ≤ now := by
      intro next scheduled
      rw [Option.mem_def.mp scheduled] at after
      exact after
    refine ⟨.inr (.inl ⟨status, passed early⟩), claim claimed (fun processing => ?_) fun _ => passed late⟩
    exact absurd (status.symm.trans processing) (by decide)
  | processing =>
    obtain ⟨_, startedAt, -, started, -⟩ := sound.leased status
    refine ⟨startedAt + OutboxSettings.microseconds settings.processingTimeoutSeconds + 1, fun found claimed early late => ?_⟩
    have stale {now : Instant} (after : startedAt + OutboxSettings.microseconds settings.processingTimeoutSeconds + 1 ≤ now) :
        ∀ at_ ∈ s.row.processingStartedAt, at_ < settings.staleBefore now := by
      intro at_ held
      obtain rfl : startedAt = at_ := Option.some.inj (started.symm.trans held)
      exact lt_sub_iff_add_lt.mpr (Int.add_one_le_iff.mp after)
    refine ⟨.inr (.inr ⟨status, stale early⟩), claim claimed (fun _ => stale late) fun pending => ?_⟩
    exact absurd (status.symm.trans pending) (by decide)

end OutboxStore

namespace OutboxCrew

variable {settings : OutboxSettings}

structure Sound (c : OutboxCrew) : Prop where
  store : c.store.Sound
  tokens : c.Tokens OutboxWorker.token? OutboxStore.nextToken

def Spares (settings : OutboxSettings) (c : OutboxCrew) : OutboxWorker → OutboxInput → Prop
  | .claim false, input => c.store.row.Reclaimable settings input.now → c.store.row.attempts < settings.maxAttempts
  | _, _ => True

instance (settings : OutboxSettings) (c : OutboxCrew) : (w : OutboxWorker) → (input : OutboxInput) → Decidable (c.Spares settings w input)
  | .claim false, input =>
    inferInstanceAs (Decidable (c.store.row.Reclaimable settings input.now → c.store.row.attempts < settings.maxAttempts))
  | .claim true, _ => isTrue trivial
  | .select _ _, _ => isTrue trivial
  | .publish _, _ => isTrue trivial
  | .mark _, _ => isTrue trivial
  | .fail _, _ => isTrue trivial
  | .done, _ => isTrue trivial

theorem next_move (settings : OutboxSettings) (c : OutboxCrew) (a : OutboxAction) : (c.next settings a).store = c.store ∨
    ∃ k input w, a = .move k input ∧ c.workers[k]? = some w ∧
      OutboxMove settings c.store w input (c.next settings a).store (w.advance settings input c.store).2 := by
  rcases c.act_store a with same | ⟨event, -, -⟩ | ⟨k, input, w, acts, found, moved⟩
  · exact .inl same
  · exact event.elim
  · refine .inr ⟨k, input, w, acts, found, ?_⟩
    rw [OutboxCrew.next, moved]
    exact .of_advance settings w input c.store

variable {c : OutboxCrew}

theorem Sound.next (sound : c.Sound) (a : OutboxAction) : (c.next settings a).Sound := by
  refine ⟨?_, ?_⟩
  · rcases next_move settings c a with same | ⟨_, _, _, -, -, move⟩
    · rw [same]
      exact sound.store
    · exact move.sound sound.store
  · refine sound.tokens.act a (fun task => ?_) (fun event => event.elim) fun k input w found =>
      (OutboxMove.of_advance settings w input c.store).draws
    cases task with
    | dispatchDue =>
      simp only [OutboxTask.worker]
      split <;> rfl

theorem budget_next (sound : c.Sound) (budget : c.store.Budget settings) (a : OutboxAction)
    (allowed : Crew.Allowed (Spares settings) c a) : (c.next settings a).store.Budget settings := by
  rcases next_move settings c a with same | ⟨k, _, w, rfl, found, move⟩
  · rw [same]
    exact budget
  · refine move.budget sound.store budget ?_
    rintro rfl
    exact allowed _ found

def claiming (c : OutboxCrew) (task : OutboxTask) (found claimed : OutboxInput) : List OutboxAction :=
  [.start task, .move c.workers.length found, .move c.workers.length claimed]

theorem claiming_run {named force : Bool} {found claimed : OutboxInput} (asked : force = true → named = true)
    (candidate : c.store.row.Candidate settings named found.now) (selected : found.selected = true) :
    (run (next settings) c (c.claiming (.dispatchDue named force) found claimed)).store =
      (c.store.claimEvent settings force claimed.now).1 := by
  have starts : OutboxTask.worker (.dispatchDue named force) = .select named force := by
    refine if_neg ?_
    simpa using asked
  simp [claiming, OutboxCrew.next, Crew.act, CrewAction.enter, Crew.step, starts, OutboxWorker.advance, candidate, selected]

structure Protocol (settings : OutboxSettings) (c : OutboxCrew) : Prop where
  /-- A dispatched event never changes again. -/
  absorbing : c.store.row.status = .dispatched → ∀ a, (c.next settings a).store.row = c.store.row
  /-- An event leaves processing by a move of the run that holds its claim token. -/
  finishing : c.store.row.status = .processing → ∀ a, (c.next settings a).store.row.status ≠ .processing →
    ∃ (k : ℕ) (input : OutboxInput) (w : OutboxWorker), a = .move k input ∧ c.workers[k]? = some w ∧
      w.token? = c.store.row.processingToken
  single : ∀ (j k : ℕ) (v w : OutboxWorker), j ≠ k → c.workers[j]? = some v → c.workers[k]? = some w →
    ∀ token ∈ v.token?, w.token? ≠ some token
  leased : c.store.row.status = .processing → c.store.row.processingToken.isSome ∧ c.store.row.processingStartedAt.isSome
  /-- Every late enough automatic run that selects an event which is neither dispatched nor dead claims it. -/
  claimable : c.store.row.status ≠ .dispatched → c.store.row.status ≠ .dead → ∃ earliest, ∀ found claimed : OutboxInput,
    earliest ≤ found.now → earliest ≤ claimed.now → found.selected = true →
      (run (next settings) c (c.claiming (.dispatchDue false false) found claimed)).store.row.Owned c.store.nextToken
  /-- A dead event is claimed by a forced run that names it. -/
  recoverable : c.store.row.status = .dead → ∀ found claimed : OutboxInput, found.selected = true →
    (run (next settings) c (c.claiming (.dispatchDue true true) found claimed)).store.row.Owned c.store.nextToken

structure Bounded (settings : OutboxSettings) (c : OutboxCrew) : Prop where
  claims : c.store.automaticClaims ≤ settings.maxAttempts
  /-- An event that has used up its attempts is in the last one, dispatched or dead. -/
  exhausted : settings.maxAttempts ≤ c.store.row.attempts → c.store.row.status ≠ .pending
  /-- A failure of the last attempt makes the event dead. -/
  dies : settings.maxAttempts ≤ c.store.row.attempts → c.store.row.status = .processing → ∀ a,
    (c.next settings a).store.row.status ≠ .processing →
      (c.next settings a).store.row.status = .dispatched ∨ (c.next settings a).store.row.status = .dead

theorem Sound.leaves (sound : c.Sound) (processing : c.store.row.status = .processing) {a : OutboxAction}
    (left : (c.next settings a).store.row.status ≠ .processing) :
    (∃ k input w, a = .move k input ∧ c.workers[k]? = some w ∧ w.token? = c.store.row.processingToken) ∧
      (settings.maxAttempts ≤ c.store.row.attempts →
        (c.next settings a).store.row.status = .dispatched ∨ (c.next settings a).store.row.status = .dead) := by
  have changed : (c.next settings a).store.row ≠ c.store.row := fun same => left (same ▸ processing)
  rcases next_move settings c a with same | ⟨k, input, w, acts, found, move⟩
  · exact absurd (congrArg OutboxStore.row same) changed
  · rcases move.finishes sound.store processing changed with ⟨own, -, ends⟩ | ⟨-, stays, -⟩
    · exact ⟨⟨k, input, w, acts, found, own⟩, ends⟩
    · exact absurd stays left

theorem Sound.protocol (sound : c.Sound) : c.Protocol settings := by
  refine ⟨?_, ?_, ?_, ?_, ?_, ?_⟩
  · intro dispatched a
    rcases next_move settings c a with same | ⟨_, _, _, -, -, move⟩
    · rw [same]
    · exact move.absorbs dispatched
  · exact fun processing a left => (sound.leaves processing left).1
  · exact sound.tokens.apart
  · intro processing
    obtain ⟨_, _, token, started, -⟩ := sound.store.leased processing
    simp [token, started]
  · intro dispatched dead
    obtain ⟨earliest, claims⟩ := @OutboxStore.Sound.claimable settings _ sound.store dispatched dead
    refine ⟨earliest, fun found claimed early late selected => ?_⟩
    obtain ⟨candidate, owned⟩ := claims found.now claimed.now early late
    rw [claiming_run (by decide) candidate selected]
    exact owned
  · intro dead found claimed selected
    rw [claiming_run (fun _ => rfl) (.inl rfl) selected]
    refine OutboxStore.claimEvent_open (by simp [dead]) (fun _ => rfl) (fun processing => ?_) fun _ => .inl rfl
    exact absurd (dead.symm.trans processing) (by decide)

theorem Sound.bounded (sound : c.Sound) (budget : c.store.Budget settings) : c.Bounded settings where
  claims := budget.claims
  exhausted exhausted pending := absurd (budget.pending pending) (Nat.not_lt.mpr exhausted)
  dies exhausted processing _ left := (sound.leaves processing left).2 exhausted

theorem enqueued_sound (eventType : OutboxEventType) (payload : Json) : (enqueued eventType payload).Sound :=
  ⟨⟨fun processing => (by cases processing), le_rfl⟩, fun w mem => absurd mem List.not_mem_nil, fun j k v w _ at_j => (by cases at_j)⟩

/-- Every run keeps to the delivery protocol. The automatic claims stay within the maximum in runs where none of them takes
the lease of an event without attempts. -/
theorem outbox_protocol (settings : OutboxSettings) (eventType : OutboxEventType) (payload : Json) (actions : List OutboxAction) :
    Protocol settings (run (next settings) (enqueued eventType payload) actions) ∧
      (Meets (next settings) (Crew.Allowed (Spares settings)) (enqueued eventType payload) actions →
        Bounded settings (run (next settings) (enqueued eventType payload) actions)) := by
  have start := enqueued_sound eventType payload
  have sound : (run (next settings) (enqueued eventType payload) actions).Sound :=
    run_always (next settings) (fun _ a sound => sound.next a) start actions
  refine ⟨sound.protocol, fun allowed => ?_⟩
  have fresh : (enqueued eventType payload).store.Budget settings := ⟨Nat.zero_le _, fun _ => settings.attempts⟩
  have both := @run_invariant _ _ (next settings) _ (fun c => c.Sound ∧ c.store.Budget settings)
    (fun c a kept meets => ⟨kept.1.next a, budget_next kept.1 kept.2 a meets⟩) _ ⟨start, fresh⟩ actions allowed
  exact sound.bounded both.2

theorem one_attempt : 1 ≤ 1 := le_rfl

def singleAttempt : OutboxSettings where
  baseDelaySeconds := 30
  maxDelaySeconds := 3600
  processingTimeoutSeconds := 60
  maxAttempts := 1
  delays := by decide
  timeout := by decide
  attempts := one_attempt

def requeue : OutboxCrew := enqueued .requeueLimitReached (.object [("schema".toList, .int 1)])

def periodic (k : ℕ) (accepted : Bool) (times : List Instant) : List OutboxAction :=
  .start (.dispatchDue false false) :: times.map fun now => .move k { now, selected := true, accepted }

theorem outbox_protocol_refused :
    (run (next singleAttempt) requeue (periodic 0 false [0, 1, 2, 3])).store.row.status = .dead ∧
      Bounded singleAttempt (run (next singleAttempt) requeue (periodic 0 false [0, 1, 2, 3])) := by
  refine ⟨by decide +kernel, ?_⟩
  exact (outbox_protocol singleAttempt .requeueLimitReached (.object [("schema".toList, .int 1)])
    (periodic 0 false [0, 1, 2, 3])).2 (by decide +kernel)

/-- Two runs crash after their claims: the second one has claimed an event without attempts. -/
def crashing : List OutboxAction :=
  periodic 0 true [0, 0] ++ .crash 0 :: periodic 0 true [61000000, 61000000]

theorem outbox_protocol_crashing :
    (run (next singleAttempt) requeue crashing).store.automaticClaims = 2 ∧
      (run (next singleAttempt) requeue crashing).store.row.status = .processing ∧
      singleAttempt.maxAttempts = 1 := by
  decide +kernel

end OutboxCrew

end MapBackend.Billing
