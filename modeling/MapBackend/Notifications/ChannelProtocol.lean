import MapBackend.Notifications.Channels

/-!
The rules of the two channels over every run.
-/

namespace MapBackend.Notifications
open MapBackend.Library Notification

instance (status : NotificationStatus) : Decidable status.terminal :=
  inferInstanceAs (Decidable (status = .sent ∨ status = .skipped ∨ status = .failed))

inductive ClaimStep (claimTimeout : Instant) (channel : Channel) (d : NotificationDelivery) (now : Instant) :
    NotificationDelivery → ClaimOutcome → Prop where
  | unchanged {outcome : ClaimOutcome} (quiet : ∀ taken, outcome ≠ .claimed taken) (reached : d.status ≠ .pending) :
      ClaimStep claimTimeout channel d now d outcome
  | lost {errorCode : String} {error : NotificationDeliveryError} (telegram : channel = .telegram)
      (sending : d.status = .sending) : ClaimStep claimTimeout channel d now (d.uncertain errorCode now) (.refused error)
  | expired {errorCode : String} {error : NotificationDeliveryError} (email : channel = .email)
      (open_ : ¬ d.status.terminal) (stale : ¬ d.InProgress claimTimeout now) (late : d.emailRetryDeadline ≤ now) :
      ClaimStep claimTimeout channel d now (d.uncertain errorCode now) (.refused error)
  | claimed {d' : NotificationDelivery} (pk : d'.pk = d.pk) (payload : d'.payload = d.payload)
      (createdAt : d'.createdAt = d.createdAt) (claimedAt : d'.claimedAt = some now) (sending : d'.status = .sending)
      (open_ : ¬ d.status.terminal) (early : channel = .email → now < d.emailRetryDeadline)
      (fresh : channel = .telegram → d.status = .pending) :
      ClaimStep claimTimeout channel d now d' (.claimed d')

theorem pending_of {status : NotificationStatus} (open_ : ¬ status.terminal) (idle : status ≠ .sending)
    (certain : status ≠ .outcomeUncertain) : status = .pending := by
  unfold NotificationStatus.terminal at open_
  cases status <;> simp_all

namespace ClaimStep

theorem of_claimRow {s later : NotificationStore} {claimTimeout now : Instant} {payload : ChannelPayload}
    {d : NotificationDelivery} {outcome : ClaimOutcome}
    (claim : s.claimRow claimTimeout payload d now = .ok (later, outcome)) :
    d.payload = payload ∧ ∃ d', later = s.set payload.channel d' ∧ ClaimStep claimTimeout payload.channel d now d' outcome := by
  simp only [NotificationStore.claimRow, bind_ok, raiseIf_ok, not_not] at claim
  obtain ⟨_, same, claim⟩ := claim
  refine ⟨same, ?_⟩
  split at claim
  next settled =>
    obtain ⟨rfl, rfl⟩ := Prod.mk.inj (pure_ok.mp claim)
    refine ⟨d, rfl, .unchanged (fun _ taken => by cases taken) fun pending => ?_⟩
    simp [pending] at settled
  next unsettled =>
    split at claim
    next failed =>
      obtain ⟨rfl, rfl⟩ := Prod.mk.inj (pure_ok.mp claim)
      exact ⟨d, rfl, .unchanged (fun _ taken => by cases taken) fun pending => by simp [pending] at failed⟩
    next unfailed =>
      have open_ : ¬ d.status.terminal := by
        rintro (sent | skipped | failed)
        · exact unsettled (.inl sent)
        · exact unsettled (.inr skipped)
        · exact unfailed failed
      split at claim
      next running =>
        obtain ⟨rfl, rfl⟩ := Prod.mk.inj (pure_ok.mp claim)
        exact ⟨d, rfl, .unchanged (fun _ taken => by cases taken) fun pending => by cases pending.symm.trans running.1⟩
      next stale =>
        by_cases lost : d.status = .sending ∧ payload.channel = .telegram
        · have other : payload.channel ≠ .email := by simp [lost.2]
          rw [if_pos lost, if_pos ⟨rfl, .inl other⟩] at claim
          obtain ⟨rfl, rfl⟩ := Prod.mk.inj (pure_ok.mp claim)
          exact ⟨_, rfl, .lost lost.2 lost.1⟩
        · rw [if_neg lost] at claim
          split at claim
          next manual =>
            obtain ⟨rfl, rfl⟩ := Prod.mk.inj (pure_ok.mp claim)
            exact ⟨d, rfl, .unchanged (fun _ taken => by cases taken) fun pending => by cases pending.symm.trans manual.1⟩
          next certain =>
            split at claim
            next late =>
              obtain ⟨rfl, rfl⟩ := Prod.mk.inj (pure_ok.mp claim)
              exact ⟨_, rfl, .expired late.1 open_ stale late.2⟩
            next early =>
              simp only [bind_ok, raiseIf_ok, pure_ok, Prod.mk.injEq] at claim
              obtain ⟨_, -, rfl, rfl⟩ := claim
              refine ⟨_, rfl, .claimed rfl rfl rfl rfl rfl open_ (fun email => ?_) fun telegram => ?_⟩
              · exact lt_of_not_ge fun late => early ⟨email, late⟩
              · have other : payload.channel ≠ .email := by simp [telegram]
                exact pending_of open_ (fun sending => lost ⟨sending, telegram⟩) fun unsure => certain ⟨unsure, .inl other⟩

end ClaimStep

namespace NotificationStore

@[simp] theorem get_set (s : NotificationStore) (channel : Channel) (d : NotificationDelivery) :
    (s.set channel d).get channel = some d := by
  cases channel <;> rfl

theorem get_set_other (s : NotificationStore) {channel other : Channel} (differs : other ≠ channel)
    (d : NotificationDelivery) : (s.set channel d).get other = s.get other := by
  cases channel <;> cases other <;> first | rfl | exact absurd rfl differs

@[simp] theorem set_calls (s : NotificationStore) (channel : Channel) (d : NotificationDelivery) :
    (s.set channel d).calls = s.calls := by
  cases channel <;> rfl

end NotificationStore

structure NotificationDelivery.Kept (old new : NotificationDelivery) : Prop where
  pk : new.pk = old.pk
  createdAt : new.createdAt = old.createdAt
  terminal : old.status.terminal → new = old

theorem NotificationDelivery.Kept.refl (d : NotificationDelivery) : d.Kept d := ⟨rfl, rfl, fun _ => rfl⟩

def NotificationWorker.Mailing : NotificationWorker → Prop
  | .send d _ _ => d.payload.channel = .email
  | .report channel sent _ _ => channel = .email ∧ sent = true
  | _ => False

instance : (w : NotificationWorker) → Decidable w.Mailing
  | .send d _ _ => inferInstanceAs (Decidable (d.payload.channel = .email))
  | .report channel sent _ _ => inferInstanceAs (Decidable (channel = .email ∧ sent = true))
  | .notify _ _ => isFalse id
  | .exhausted => isFalse id
  | .claim _ _ _ => isFalse id
  | .done _ => isFalse id

def SenderCall.isTelegram : SenderCall → Bool
  | .telegram => true
  | _ => false

def NotificationWorker.unsent : NotificationWorker → ℕ
  | .send d _ _ => if d.payload.channel = .telegram then 1 else 0
  | _ => 0

def NotificationWorker.Resting : NotificationWorker → Prop
  | .send _ _ _ => False
  | .report _ _ _ _ => False
  | _ => True

inductive NotificationMove (claimTimeout : Instant) (s : NotificationStore) :
    NotificationWorker → NotificationInput → NotificationStore → NotificationWorker → Prop where
  | quiet {w w' : NotificationWorker} {input : NotificationInput} (resting : w'.Resting) :
      NotificationMove claimTimeout s w input s w'
  | exhausted {input : NotificationInput} {w' : NotificationWorker} (resting : w'.Resting) :
      NotificationMove claimTimeout s .exhausted input (s.markNotificationEventExhausted input.now) w'
  | refused {payload : ChannelPayload} {rest : List ChannelPayload} {failures : List (Channel × NotificationDeliveryError)}
      {input : NotificationInput} {d d' : NotificationDelivery} {outcome : ClaimOutcome} {w' : NotificationWorker}
      (row : (s.get payload.channel).getD (.created input.pk payload input.now) = d)
      (step : ClaimStep claimTimeout payload.channel d input.now d' outcome)
      (quiet : ∀ taken, outcome ≠ .claimed taken) (resting : w'.Resting) :
      NotificationMove claimTimeout s (.claim payload rest failures) input (s.set payload.channel d') w'
  | claimed {payload : ChannelPayload} {rest : List ChannelPayload} {failures : List (Channel × NotificationDeliveryError)}
      {input : NotificationInput} {d d' : NotificationDelivery}
      (row : (s.get payload.channel).getD (.created input.pk payload input.now) = d) (same : d.payload = payload)
      (step : ClaimStep claimTimeout payload.channel d input.now d' (.claimed d')) :
      NotificationMove claimTimeout s (.claim payload rest failures) input (s.set payload.channel d')
        (.send d' rest failures)
  | sent {d : NotificationDelivery} {rest : List ChannelPayload} {failures : List (Channel × NotificationDeliveryError)}
      {input : NotificationInput} {ok : Bool} : NotificationMove claimTimeout s (.send d rest failures) input
        { s with calls := s.calls ++ [NotificationWorker.senderCall d] } (.report d.payload.channel ok rest failures)
  | reported {channel : Channel} {ok : Bool} {rest : List ChannelPayload}
      {failures : List (Channel × NotificationDeliveryError)} {input : NotificationInput} {w' : NotificationWorker}
      {d d' : NotificationDelivery} (row : s.get channel = some d) (sending : d.status = .sending) (pk : d'.pk = d.pk)
      (createdAt : d'.createdAt = d.createdAt) (status : d'.status = (NotificationWorker.reportStatus channel ok).1)
      (resting : w'.Resting) :
      NotificationMove claimTimeout s (.report channel ok rest failures) input (s.set channel d') w'

namespace NotificationMove

theorem proceed_resting (rest : List ChannelPayload) (failures : List (Channel × NotificationDeliveryError)) :
    (NotificationWorker.proceed rest failures).Resting := by
  unfold NotificationWorker.proceed
  split <;> trivial

theorem of_advance (claimTimeout : Instant) (w : NotificationWorker) (input : NotificationInput) (s : NotificationStore) :
    NotificationMove claimTimeout s w input (w.advance claimTimeout input s).1 (w.advance claimTimeout input s).2 := by
  cases w with
  | notify =>
    simp only [NotificationWorker.advance]
    split
    next => exact .quiet trivial
    next => exact .quiet (proceed_resting _ _)
  | exhausted => exact .exhausted trivial
  | claim =>
    simp only [NotificationWorker.advance]
    split
    next => exact .quiet trivial
    next claim =>
      obtain ⟨-, d', rfl, step⟩ := ClaimStep.of_claimRow claim
      exact .refused rfl step (fun _ taken => by cases taken) (proceed_resting _ _)
    next claim =>
      obtain ⟨-, d', rfl, step⟩ := ClaimStep.of_claimRow claim
      exact .refused rfl step (fun _ taken => by cases taken) (proceed_resting _ _)
    next claim =>
      obtain ⟨same, d', rfl, step⟩ := ClaimStep.of_claimRow claim
      cases step with
      | unchanged quiet => exact absurd rfl (quiet _)
      | claimed pk payload_kept createdAt claimedAt sending open_ early fresh =>
        exact .claimed rfl same (.claimed pk payload_kept createdAt claimedAt sending open_ early fresh)
  | send => exact .sent
  | report =>
    simp only [NotificationWorker.advance, NotificationStore.finishChannel]
    split
    next => exact .quiet (proceed_resting _ _)
    next d row =>
      split
      next sending => exact .reported row sending rfl rfl rfl (proceed_resting _ _)
      next => exact .quiet (proceed_resting _ _)
  | done => exact .quiet trivial

end NotificationMove

theorem ClaimStep.kept {claimTimeout now : Instant} {channel : Channel} {d d' : NotificationDelivery} {outcome : ClaimOutcome}
    (step : ClaimStep claimTimeout channel d now d' outcome) : d.Kept d' := by
  cases step with
  | unchanged => exact .refl d
  | lost _ sending => exact ⟨rfl, rfl, fun ended => absurd (sending ▸ ended) (by decide)⟩
  | expired _ open_ => exact ⟨rfl, rfl, fun ended => absurd ended open_⟩
  | claimed pk _ createdAt _ _ open_ => exact ⟨pk, createdAt, fun ended => absurd ended open_⟩

namespace NotificationStore

theorem exhaust_kept (now : Instant) (d : NotificationDelivery) : d.Kept (exhaust now d) := by
  unfold exhaust
  split
  next pending => exact ⟨rfl, rfl, fun ended => absurd (pending ▸ ended) (by decide)⟩
  next => exact .refl d

@[simp] theorem get_exhausted (s : NotificationStore) (now : Instant) (channel : Channel) :
    (s.markNotificationEventExhausted now).get channel = (s.get channel).map (exhaust now) := by
  cases channel <;> rfl

def Owns (s : NotificationStore) : NotificationWorker → Prop
  | .send d _ _ => ∃ row, s.get d.payload.channel = some row ∧ row.pk = d.pk ∧ row.createdAt = d.createdAt ∧
      (d.payload.channel = .email → ∃ t, d.claimedAt = some t ∧ t < d.emailRetryDeadline)
  | _ => True

structure Sound (s : NotificationStore) : Prop where
  emails : ∀ key t, .email key t ∈ s.calls →
    ∃ row, s.email = some row ∧ key = row.idempotencyKey ∧ t < row.createdAt + emailRetryWindow
  telegram : ∀ row, s.telegram = some row → row.status ≠ .pending

/-- The Telegram messages that were sent, and the one that a missing row still allows. -/
def meter (s : NotificationStore) : ℕ := s.calls.countP SenderCall.isTelegram + if s.telegram = none then 1 else 0

def Mails (s : NotificationStore) : Prop := ∃ row, s.email = some row ∧ (row.status = .sending ∨ row.status = .sent)

end NotificationStore

variable {w : NotificationWorker}

theorem NotificationWorker.Resting.owns {s : NotificationStore} (resting : w.Resting) : s.Owns w := by
  cases w with
  | send => exact resting.elim
  | _ => trivial

theorem NotificationWorker.Resting.not_mailing (resting : w.Resting) : ¬ w.Mailing := by
  cases w with
  | send => exact resting.elim
  | report => exact resting.elim
  | _ => exact id

theorem NotificationWorker.Resting.unsent (resting : w.Resting) : w.unsent = 0 := by
  cases w with
  | send => exact resting.elim
  | _ => rfl

namespace NotificationMove

variable {claimTimeout : Instant} {s later : NotificationStore} {w w' : NotificationWorker} {input : NotificationInput}

variable {channel : Channel}

theorem set_kept {d d' : NotificationDelivery} (found : ∀ row, s.get channel = some row → row = d)
    (kept : d.Kept d') {other : Channel} {row : NotificationDelivery} (at_ : s.get other = some row) :
    ∃ new, (s.set channel d').get other = some new ∧ row.Kept new := by
  by_cases same : other = channel
  · subst same
    refine ⟨d', s.get_set other d', ?_⟩
    rw [found row at_]
    exact kept
  · rw [s.get_set_other same]
    exact ⟨row, at_, .refl row⟩

theorem kept (move : NotificationMove claimTimeout s w input later w') {row : NotificationDelivery}
    (at_ : s.get channel = some row) : ∃ new, later.get channel = some new ∧ row.Kept new := by
  have only {channel : Channel} {fresh d : NotificationDelivery} (found : (s.get channel).getD fresh = d)
      (row : NotificationDelivery) (at_ : s.get channel = some row) : row = d := by
    rw [at_] at found
    exact found
  cases move with
  | quiet => exact ⟨row, at_, .refl row⟩
  | exhausted =>
    rw [s.get_exhausted, at_]
    exact ⟨_, rfl, NotificationStore.exhaust_kept input.now row⟩
  | refused found step => exact set_kept (only found) step.kept at_
  | claimed found _ step => exact set_kept (only found) step.kept at_
  | sent => exact ⟨row, at_, .refl row⟩
  | @reported channel ok _ _ _ _ d d' found sending pk createdAt =>
    refine set_kept (fun row at_ => Option.some.inj (at_.symm.trans found)) ⟨pk, createdAt, fun ended => ?_⟩ at_
    exact absurd (sending ▸ ended) (by decide)

theorem owns_own (move : NotificationMove claimTimeout s w input later w') (owns : s.Owns w) : later.Owns w' := by
  cases move with
  | quiet resting => exact resting.owns
  | exhausted resting => exact resting.owns
  | refused _ _ _ resting => exact resting.owns
  | @claimed payload rest failures _ d d' found same step =>
    cases step with
    | unchanged quiet => exact absurd rfl (quiet _)
    | claimed _ payload_kept createdAt claimedAt _ _ early =>
      have channel : d'.payload.channel = payload.channel := by rw [payload_kept, same]
      refine ⟨d', ?_, rfl, rfl, fun email => ⟨input.now, claimedAt, ?_⟩⟩
      · rw [channel, s.get_set]
      · have before := early (channel ▸ email)
        unfold NotificationDelivery.emailRetryDeadline at *
        rw [createdAt]
        exact before
  | sent => trivial
  | reported _ _ _ _ _ resting => exact resting.owns

theorem owns_other (move : NotificationMove claimTimeout s w input later w') {v : NotificationWorker} (owns : s.Owns v) :
    later.Owns v := by
  cases v with
  | send =>
    obtain ⟨_, at_, pk, createdAt, claim⟩ := owns
    obtain ⟨new, new_at, kept⟩ := move.kept at_
    exact ⟨new, new_at, kept.pk.trans pk, kept.createdAt.trans createdAt, claim⟩
  | _ => trivial

theorem calls (move : NotificationMove claimTimeout s w input later w') : later.calls = s.calls ∨
    ∃ d rest failures, w = .send d rest failures ∧ later.calls = s.calls ++ [NotificationWorker.senderCall d] := by
  cases move with
  | quiet => exact .inl rfl
  | exhausted => exact .inl rfl
  | refused => exact .inl (s.set_calls _ _)
  | claimed => exact .inl (s.set_calls _ _)
  | sent => exact .inr ⟨_, _, _, rfl, rfl⟩
  | reported => exact .inl (s.set_calls _ _)

theorem emails (move : NotificationMove claimTimeout s w input later w') (sound : s.Sound) (owns : s.Owns w) (key : String)
    (t : Instant) (mem : .email key t ∈ later.calls) :
    ∃ row, later.email = some row ∧ key = row.idempotencyKey ∧ t < row.createdAt + emailRetryWindow := by
  have stays {row : NotificationDelivery} (at_ : s.get .email = some row) (named : key = row.idempotencyKey)
      (early : t < row.createdAt + emailRetryWindow) :
      ∃ row, later.email = some row ∧ key = row.idempotencyKey ∧ t < row.createdAt + emailRetryWindow := by
    obtain ⟨new, new_at, kept⟩ := move.kept at_
    refine ⟨new, new_at, ?_, ?_⟩
    · exact named.trans (NotificationDelivery.idempotencyKey_of_pk kept.pk.symm)
    · rw [kept.createdAt]
      exact early
  have old (mem : .email key t ∈ s.calls) :
      ∃ row, later.email = some row ∧ key = row.idempotencyKey ∧ t < row.createdAt + emailRetryWindow := by
    obtain ⟨row, at_, named, early⟩ := sound.emails key t mem
    exact stays at_ named early
  rcases move.calls with same | ⟨d, _, _, rfl, called⟩
  · exact old (same ▸ mem)
  · rw [called] at mem
    rcases List.mem_append.mp mem with earlier | new
    · exact old earlier
    · obtain ⟨row, at_, pk, createdAt, claim⟩ := owns
      have call := List.mem_singleton.mp new
      unfold NotificationWorker.senderCall at call
      split at call
      next => cases call
      next email =>
        obtain ⟨_, claimed_at, early⟩ := claim email
        obtain ⟨named, since⟩ := SenderCall.email.inj call
        rw [claimed_at] at since
        refine stays (email ▸ at_) ?_ ?_
        · exact named.trans (NotificationDelivery.idempotencyKey_of_pk pk.symm)
        · rw [createdAt, since]
          exact early

theorem not_pending {d d' : NotificationDelivery} {outcome : ClaimOutcome} {now : Instant}
    (step : ClaimStep claimTimeout channel d now d' outcome) : d'.status ≠ .pending := by
  cases step with
  | unchanged _ reached => exact reached
  | lost => exact fun pending => by cases pending
  | expired => exact fun pending => by cases pending
  | claimed _ _ _ _ sending => exact fun pending => by cases sending.symm.trans pending

theorem telegram (move : NotificationMove claimTimeout s w input later w') (sound : s.Sound) (row : NotificationDelivery)
    (at_ : later.telegram = some row) : row.status ≠ .pending := by
  have written {channel : Channel} {d : NotificationDelivery} (reached : channel = .telegram → d.status ≠ .pending)
      (at_ : (s.set channel d).telegram = some row) : row.status ≠ .pending := by
    cases channel with
    | email => exact sound.telegram row at_
    | telegram =>
      rw [← Option.some.inj at_]
      exact reached rfl
  cases move with
  | quiet => exact sound.telegram row at_
  | exhausted =>
    obtain ⟨old, old_at, rfl⟩ := Option.map_eq_some_iff.mp at_
    unfold NotificationStore.exhaust
    rw [if_neg (sound.telegram old old_at)]
    exact sound.telegram old old_at
  | refused _ step => exact written (fun _ => not_pending step) at_
  | claimed _ _ step => exact written (fun _ => not_pending step) at_
  | sent => exact sound.telegram row at_
  | @reported channel ok _ _ _ _ d d' _ _ _ _ status =>
    refine written (fun telegram => ?_) at_
    rw [status, telegram]
    cases ok <;> exact fun pending => by cases pending

theorem sound (move : NotificationMove claimTimeout s w input later w') (sound : s.Sound) (owns : s.Owns w) : later.Sound :=
  ⟨move.emails sound owns, move.telegram sound⟩

theorem meter (move : NotificationMove claimTimeout s w input later w') (sound : s.Sound) :
    later.meter + w'.unsent ≤ s.meter + w.unsent := by
  have written (channel : Channel) (d : NotificationDelivery) : (s.set channel d).meter ≤ s.meter := by
    unfold NotificationStore.meter
    cases channel with
    | email => exact le_rfl
    | telegram => simp [NotificationStore.set]
  cases move with
  | quiet resting => rw [resting.unsent]; omega
  | exhausted resting => simp [NotificationStore.meter, NotificationStore.markNotificationEventExhausted, resting.unsent]
  | refused _ _ _ resting =>
    rw [resting.unsent]
    exact Nat.add_le_add (written _ _) (Nat.zero_le _)
  | @claimed payload rest failures _ d d' found same step =>
    cases step with
    | unchanged quiet => exact absurd rfl (quiet _)
    | claimed _ payload_kept _ _ _ _ _ fresh =>
      have channel : d'.payload.channel = payload.channel := by rw [payload_kept, same]
      simp only [NotificationWorker.unsent, channel]
      by_cases telegram : payload.channel = .telegram
      · have free : s.telegram = none := by
          cases row : s.telegram with
          | none => rfl
          | some old =>
            have claimed_old : old = d := by simpa [telegram, NotificationStore.get, row] using found
            exact absurd (claimed_old ▸ fresh telegram) (sound.telegram old row)
        simp [telegram, NotificationStore.meter, NotificationStore.set, free]
      · rw [if_neg telegram]
        exact Nat.add_le_add (written _ _) le_rfl
  | @sent d =>
    have call : [NotificationWorker.senderCall d].countP SenderCall.isTelegram = if d.payload.channel = .telegram then 1 else 0 := by
      unfold NotificationWorker.senderCall
      cases channel : d.payload.channel <;> simp [SenderCall.isTelegram]
    simp only [NotificationStore.meter, List.countP_append, call, NotificationWorker.unsent]
    omega
  | reported _ _ _ _ _ resting =>
    rw [resting.unsent]
    exact Nat.add_le_add (written _ _) (Nat.zero_le _)

end NotificationMove

namespace NotificationCrew

/-- While an email is sent or its success is held, no other worker reports a failure to its row and no claim after
the window ends the row. -/
def Undisturbed (claimTimeout : Instant) (c : NotificationCrew) : NotificationWorker → NotificationInput → Prop
  | .report .email false _ _, _ => (∃ row ∈ c.store.email, row.status = .sending) → ∀ v ∈ c.workers, ¬ v.Mailing
  | .claim payload _ _, input => payload.channel = .email →
      (∃ row ∈ c.store.email, row.status = .sending ∧ row.emailRetryDeadline ≤ input.now ∧
        ¬ row.InProgress claimTimeout input.now) → ∀ v ∈ c.workers, ¬ v.Mailing
  | _, _ => True

instance (claimTimeout : Instant) (c : NotificationCrew) :
    (w : NotificationWorker) → (input : NotificationInput) → Decidable (c.Undisturbed claimTimeout w input)
  | .report .email false _ _, _ =>
    inferInstanceAs (Decidable ((∃ row ∈ c.store.email, row.status = .sending) → ∀ v ∈ c.workers, ¬ v.Mailing))
  | .report .email true _ _, _ => isTrue trivial
  | .report .telegram _ _ _, _ => isTrue trivial
  | .claim payload _ _, input => inferInstanceAs (Decidable (payload.channel = .email →
      (∃ row ∈ c.store.email, row.status = .sending ∧ row.emailRetryDeadline ≤ input.now ∧
        ¬ row.InProgress claimTimeout input.now) → ∀ v ∈ c.workers, ¬ v.Mailing))
  | .notify _ _, _ => isTrue trivial
  | .exhausted, _ => isTrue trivial
  | .send _ _ _, _ => isTrue trivial
  | .done _, _ => isTrue trivial

end NotificationCrew

namespace NotificationMove

variable {claimTimeout : Instant} {later : NotificationStore} {w w' : NotificationWorker} {input : NotificationInput}

theorem mails_other {c : NotificationCrew} (move : NotificationMove claimTimeout c.store w input later w')
    (undisturbed : c.Undisturbed claimTimeout w input) {v : NotificationWorker} (mem : v ∈ c.workers) (mailing : v.Mailing)
    (mails : c.store.Mails) : later.Mails := by
  obtain ⟨row, at_, status⟩ := mails
  have unchanged {channel : Channel} {d : NotificationDelivery} (other : channel = .telegram) :
      (c.store.set channel d).Mails := by
    subst other
    exact ⟨row, at_, status⟩
  have only {payload : ChannelPayload} {fresh d : NotificationDelivery} (email : payload.channel = .email)
      (found : (c.store.get payload.channel).getD fresh = d) : row = d := by
    rw [email, NotificationStore.get, at_] at found
    exact found
  cases move with
  | quiet => exact ⟨row, at_, status⟩
  | exhausted =>
    refine ⟨row, ?_, status⟩
    have busy : row.status ≠ .pending := by
      rcases status with sending | sent
      · exact fun pending => by cases sending.symm.trans pending
      · exact fun pending => by cases sent.symm.trans pending
    simp [NotificationStore.markNotificationEventExhausted, at_, NotificationStore.exhaust, busy]
  | @refused payload rest failures _ d d' outcome _ found step =>
    cases channel : payload.channel with
    | telegram => exact unchanged rfl
    | email =>
      obtain rfl := only channel found
      rw [channel] at step
      cases step with
      | unchanged => exact ⟨row, rfl, status⟩
      | lost telegram => cases telegram
      | expired _ open_ stale late =>
        rcases status with sending | sent
        · exact absurd mailing (undisturbed channel ⟨row, at_, sending, late, stale⟩ v mem)
        · exact absurd (.inl sent) open_
      | claimed => exact ⟨_, rfl, .inl (by assumption)⟩
  | @claimed payload rest failures _ d d' found same step =>
    cases channel : payload.channel with
    | telegram => exact unchanged rfl
    | email =>
      cases step with
      | unchanged quiet => exact absurd rfl (quiet _)
      | claimed _ _ _ _ sending => exact ⟨d', rfl, .inl sending⟩
  | sent => exact ⟨row, at_, status⟩
  | @reported channel ok _ _ _ _ d d' found sending _ _ reported =>
    cases channel with
    | telegram => exact unchanged rfl
    | email =>
      cases ok with
      | true => exact ⟨d', rfl, .inr reported⟩
      | false => exact absurd mailing (undisturbed ⟨d, found, sending⟩ v mem)

theorem mails_own {s : NotificationStore} (move : NotificationMove claimTimeout s w input later w') (mails : w.Mailing → s.Mails)
    (mailing : w'.Mailing) : later.Mails := by
  cases move with
  | quiet resting => exact absurd mailing resting.not_mailing
  | exhausted resting => exact absurd mailing resting.not_mailing
  | refused _ _ _ resting => exact absurd mailing resting.not_mailing
  | @claimed payload rest failures _ d d' found same step =>
    cases step with
    | unchanged quiet => exact absurd rfl (quiet _)
    | claimed _ payload_kept _ _ sending =>
      have channel : payload.channel = .email := by
        rw [← same, ← payload_kept]
        exact mailing
      rw [channel]
      exact ⟨d', rfl, .inl sending⟩
  | sent => exact mails mailing.1
  | reported _ _ _ _ _ resting => exact absurd mailing resting.not_mailing

end NotificationMove

namespace NotificationCrew

structure Protocol (claimTimeout : Instant) (c : NotificationCrew) : Prop where
  telegramOnce : c.store.calls.countP SenderCall.isTelegram ≤ 1
  /-- Every email was sent under the key of the row and for a claim within the window. -/
  emails : ∀ key t, .email key t ∈ c.store.calls →
    ∃ row, c.store.email = some row ∧ key = row.idempotencyKey ∧ t < row.createdAt + emailRetryWindow
  /-- A sent, skipped or failed row never changes again. -/
  absorbing : ∀ channel row, c.store.get channel = some row → row.status.terminal →
    ∀ a, (c.next claimTimeout a).store.get channel = some row
  /-- The worker that received the success of an email leaves its row sent. -/
  recorded : ∀ k input rest failures, c.workers[k]? = some (.report .email true rest failures) →
    ∃ row, (c.next claimTimeout (.move k input)).store.email = some row ∧ row.status = .sent

structure Sound (c : NotificationCrew) : Prop where
  kept : c.Keeps NotificationStore.Sound NotificationStore.Owns
  telegramOnce : c.store.meter + c.load NotificationWorker.unsent ≤ 1

variable {claimTimeout : Instant} {c : NotificationCrew}

theorem next_move (a : NotificationAction) : (c.next claimTimeout a).store = c.store ∨
    ∃ k input w, a = .move k input ∧ c.workers[k]? = some w ∧
      NotificationMove claimTimeout c.store w input (c.next claimTimeout a).store (w.advance claimTimeout input c.store).2 := by
  rcases c.act_store a with same | ⟨event, -, -⟩ | ⟨k, input, w, acts, found, moved⟩
  · exact .inl same
  · exact event.elim
  · refine .inr ⟨k, input, w, acts, found, ?_⟩
    rw [NotificationCrew.next, moved]
    exact .of_advance claimTimeout w input c.store

theorem Sound.next (sound : c.Sound) (a : NotificationAction) : (c.next claimTimeout a).Sound := by
  have move (w : NotificationWorker) (input : NotificationInput) :
      NotificationMove claimTimeout c.store w input (w.advance claimTimeout input c.store).1
        (w.advance claimTimeout input c.store).2 := .of_advance claimTimeout w input c.store
  constructor
  · apply sound.kept.act a (c.allowed_always a)
    · intro call
      cases call <;> trivial
    · exact fun event => event.elim
    · intro k input w found owns _
      refine ⟨(move w input).sound sound.kept.store owns, (move w input).owns_own owns, ?_⟩
      exact fun j v _ _ other => (move w input).owns_other other
  · refine (Crew.act_load c a (fun call => ?_) (fun event => event.elim) fun k input w _ => ?_).trans sound.telegramOnce
    · cases call <;> rfl
    · exact (move w input).meter sound.kept.store

theorem next_mails (a : NotificationAction) (allowed : c.Allowed (Undisturbed claimTimeout) a)
    (kept : c.Keeps (fun _ => True) fun s w => w.Mailing → s.Mails) :
    (c.next claimTimeout a).Keeps (fun _ => True) fun s w => w.Mailing → s.Mails := by
  apply kept.act a allowed
  · intro call
    cases call <;> exact False.elim
  · exact fun event => event.elim
  · intro k input w found mails undisturbed
    have move := NotificationMove.of_advance claimTimeout w input c.store
    refine ⟨trivial, move.mails_own mails, fun j v _ at_j other mailing => ?_⟩
    exact move.mails_other undisturbed (List.mem_of_getElem? at_j) mailing (other mailing)

theorem absorbing {channel : Channel} {row : NotificationDelivery} (at_ : c.store.get channel = some row)
    (ended : row.status.terminal) (a : NotificationAction) : (c.next claimTimeout a).store.get channel = some row := by
  rcases (next_move a : (c.next claimTimeout a).store = c.store ∨ _) with same | ⟨_, _, _, -, -, move⟩
  · rw [same]
    exact at_
  · obtain ⟨_, new_at, kept⟩ := move.kept at_
    rw [new_at, kept.terminal ended]

theorem recorded (mails : c.store.Mails) {k : ℕ} {rest : List ChannelPayload}
    {failures : List (Channel × NotificationDeliveryError)} (found : c.workers[k]? = some (.report .email true rest failures))
    (input : NotificationInput) :
    ∃ row, (c.next claimTimeout (.move k input)).store.email = some row ∧ row.status = .sent := by
  obtain ⟨row, at_, status⟩ := mails
  have moved : (c.next claimTimeout (.move k input)).store =
      c.store.finishChannel .email .sent "" input.now := by
    simp [NotificationCrew.next, Crew.act, CrewAction.enter, Crew.step, found, NotificationWorker.advance,
      NotificationWorker.reportStatus]
  rw [moved]
  rcases status with sending | sent
  · simp [NotificationStore.finishChannel, NotificationStore.get, NotificationStore.set, at_, sending]
  · simp [NotificationStore.finishChannel, NotificationStore.get, at_, sent]

/-- In every run that leaves an email alone while it is sent, the channels keep their rules. -/
theorem channels_protocol {actions : List NotificationAction}
    (allowed : Meets (NotificationCrew.next claimTimeout) (Crew.Allowed (Undisturbed claimTimeout)) idle actions) :
    Protocol claimTimeout (run (NotificationCrew.next claimTimeout) idle actions) := by
  have idle_sound : idle.Sound := by
    refine ⟨⟨⟨?_, ?_⟩, ?_⟩, le_rfl⟩
    · exact fun key t mem => absurd mem List.not_mem_nil
    · exact fun row at_ => by cases at_
    · exact fun w mem => absurd mem List.not_mem_nil
  have idle_mails : idle.Keeps (fun _ => True) fun s w => w.Mailing → s.Mails :=
    ⟨trivial, fun w mem => absurd mem List.not_mem_nil⟩
  have step (c : NotificationCrew) (a : NotificationAction) (sound : c.Sound) : (c.next claimTimeout a).Sound := sound.next a
  have sound := run_always (NotificationCrew.next claimTimeout) step idle_sound actions
  have mails := run_invariant (NotificationCrew.next claimTimeout) (fun _ a kept allowed => next_mails a allowed kept)
    idle_mails allowed
  refine ⟨?_, sound.kept.store.emails, fun channel row at_ ended a => absorbing at_ ended a, ?_⟩
  · have once := sound.telegramOnce
    unfold NotificationStore.meter at once
    omega
  · intro k input rest failures found
    exact recorded (mails.workers _ (List.mem_of_getElem? found) ⟨rfl, rfl⟩) found input

end NotificationCrew

def NotificationInput.both (now : Instant) (answer : Option Bool) : NotificationInput :=
  ⟨now, some ⟨true, true, "chat", "owner@example.test"⟩, 1, answer⟩

/-- Two workers take one email after each other, the second over the timeout of the first. -/
def takenOver : List NotificationAction :=
  [.start (.notify .billing "invoice"), .move 0 (.both 0 none), .move 0 (.both 1 none), .start (.notify .billing "invoice"),
    .move 1 (.both 200 none), .move 1 (.both 201 none)]

def failedBefore : List NotificationAction :=
  [.start (.notify .billing "invoice"), .move 0 (.both 0 none), .move 0 (.both 1 none), .move 0 (.both 2 (some false)),
    .move 0 (.both 3 none), .start (.notify .billing "invoice"), .move 1 (.both 200 none), .move 1 (.both 201 none),
    .move 1 (.both 202 (some true)), .move 1 (.both 203 none)]

theorem channels_protocol_failedBefore :
    NotificationCrew.Protocol 100 (run (NotificationCrew.next 100) .idle failedBefore) := by
  have allowed : Meets (NotificationCrew.next 100) (Crew.Allowed (NotificationCrew.Undisturbed 100)) .idle failedBefore := by
    decide +kernel
  exact NotificationCrew.channels_protocol allowed

/-- The first worker reports its failure while the second one holds the success of its email. -/
def overtakenFailure : List NotificationAction :=
  takenOver ++ [.move 1 (.both 202 (some true)), .move 0 (.both 203 (some false)), .move 0 (.both 204 none)]

/-- The success is not recorded: the row is pending after its worker has finished. -/
theorem overtaken_failure_loses_success :
    (run (NotificationCrew.next 100) .idle overtakenFailure).workers[1]? = some (.report .email true [] []) ∧
      ∃ row, (NotificationCrew.next 100 (run (NotificationCrew.next 100) .idle overtakenFailure)
        (.move 1 (.both 205 none))).store.email = some row ∧ row.status = .pending := by
  refine ⟨by decide +kernel, _, rfl, ?_⟩
  decide +kernel

end MapBackend.Notifications
