import MapBackend.MediaProcessing.MediaMoves

/-!
The outcome of a media job.
-/

namespace MapBackend.MediaProcessing
open MapBackend.Library MediaJob

namespace MediaStore

def chance (s : MediaStore) : ℕ := if s.job.responseState = .none ∧ s.job.Claimable then 1 else 0

def callMeter (s : MediaStore) : ℕ := s.providerCalls + s.chance

def freshMeter (s : MediaStore) : ℕ := (if s.job.responseState = .none then 0 else 1) + s.chance

structure Sound (digestOf : ProviderResponse → Text) (s : MediaStore) : Prop where
  answered : s.job.responseState ≠ .none → ∃ response, s.recorded = some response ∧ s.job.responseDigest = digestOf response ∧
    s.job.responseStatus = if response.status = .invalid then none else some response.status
  kept : s.job.responseState = .recorded ∨ s.job.responseState = .applying → s.job.responseEnc = s.recorded

structure Held (s : MediaStore) (w : MediaWorker) : Prop where
  stored : w.stored = true → s.job.responseState ≠ .none
  token : ∀ token ∈ w.token?, token < s.nextToken
  carried : ∀ direct token response, w = .apply direct token response → response = s.recorded

theorem Held.bare {s : MediaStore} {w : MediaWorker} (stored : w.stored = false) (token : w.token? = none)
    (carries : w.carries = false) : s.Held w where
  stored holds := absurd holds (by simp [stored])
  token t mem := absurd mem (by simp [token])
  carried direct t response same := absurd carries (by simp [same, MediaWorker.carries])

end MediaStore

@[simp] theorem applyOutcome_state (job : MediaProcessingJob) (response : ProviderResponse) (now : Instant) :
    (job.applyOutcome response now).responseState = job.responseState ∧
      (job.applyOutcome response now).responseEnc = job.responseEnc ∧
      (job.applyOutcome response now).responseDigest = job.responseDigest ∧
      (job.applyOutcome response now).responseStatus = job.responseStatus ∧
      (job.applyOutcome response now).applyToken = job.applyToken := by
  unfold MediaProcessingJob.applyOutcome
  split <;> exact ⟨rfl, rfl, rfl, rfl, rfl⟩

theorem applyOutcome_outcome (job : MediaProcessingJob) {response : ProviderResponse} (valid : response.status ≠ .invalid)
    (now : Instant) : MediaProcessingJob.outcome response =
      some ((job.applyOutcome response now).status, (job.applyOutcome response now).errorCode) := by
  have short (code : Text) (fits : code.length ≤ 100) : code.take 100 = code := List.take_of_length_le fits
  unfold MediaProcessingJob.outcome MediaProcessingJob.applyOutcome
  cases status : response.status with
  | pending => rfl
  | succeeded => rfl
  | invalid => exact absurd status valid
  | failed =>
    simp only [MediaProcessingJob.fail]
    by_cases empty : response.errorCode = []
    · rw [if_pos empty, short providerError (by decide)]
    · rw [if_neg empty, short response.errorCode response.short]

namespace MediaMove

variable {digestOf : ProviderResponse → Text} {s later : MediaStore} {w w' : MediaWorker} {input : MediaInput}

theorem answered (move : MediaMove digestOf s w input later w') (answered : s.job.responseState ≠ .none) :
    later.job.responseState ≠ .none ∧ (s.recorded.isSome → later.recorded = s.recorded) := by
  cases move with
  | recorded unanswered => exact absurd unanswered answered
  | taken => exact ⟨(by simp), fun _ => rfl⟩
  | saved =>
    refine ⟨?_, fun _ => rfl⟩
    rw [MediaStore.withJob_job, (applyOutcome_state _ _ _).1]
    exact answered
  | released => exact ⟨(by simp), fun _ => rfl⟩
  | committed => exact ⟨(by simp), fun _ => rfl⟩
  | _ => exact ⟨answered, fun _ => rfl⟩

theorem nextToken_le (move : MediaMove digestOf s w input later w') : s.nextToken ≤ later.nextToken := by
  cases move with
  | taken => exact Nat.le_succ _
  | _ => exact le_rfl

theorem sound (move : MediaMove digestOf s w input later w') (sound : s.Sound digestOf) : later.Sound digestOf := by
  cases move with
  | recorded => exact ⟨fun _ => ⟨_, rfl, rfl, rfl⟩, fun _ => rfl⟩
  | taken open_ =>
    refine ⟨fun _ => sound.answered ?_, fun _ => sound.kept open_⟩
    rcases open_ with state | state <;> simp [state]
  | saved =>
    obtain ⟨state, enc, digest, status, -⟩ := applyOutcome_state s.job _ input.now
    refine ⟨fun answered => ?_, fun open_ => ?_⟩
    · simp only [MediaStore.withJob_job] at answered ⊢
      rw [state] at answered
      rw [digest, status]
      exact sound.answered answered
    · simp only [MediaStore.withJob_job] at open_ ⊢
      rw [state] at open_
      rw [enc]
      exact sound.kept open_
  | released own =>
    refine ⟨fun _ => sound.answered ?_, fun _ => sound.kept (.inr own.1)⟩
    simp [own.1]
  | committed own =>
    refine ⟨fun _ => sound.answered ?_, fun open_ => ?_⟩
    · simp [own.1]
    · rcases open_ with state | state <;> cases state
  | _ => exact ⟨sound.answered, sound.kept⟩

theorem held_others (move : MediaMove digestOf s w input later w') (sound : s.Sound digestOf) {v : MediaWorker} (held : s.Held v) :
    later.Held v where
  stored stored := (move.answered (held.stored stored)).1
  token token mem := (held.token token mem).trans_le move.nextToken_le
  carried direct token response same := by
    subst same
    have answered := held.stored rfl
    obtain ⟨_, found, -⟩ := sound.answered answered
    rw [held.carried direct token response rfl, (move.answered answered).2 (by rw [found]; rfl)]

theorem held_own (move : MediaMove digestOf s w input later w') (sound : s.Sound digestOf) (held : s.Held w) : later.Held w' := by
  cases move with
  | quiet follows =>
    refine ⟨fun stored => ?_, fun token mem => held.token token (follows.token token mem), fun direct token response same => ?_⟩
    · exact (follows.stored stored).elim held.stored id
    · exact absurd follows.empty (by simp [same, MediaWorker.carries])
  | prepares => exact .bare rfl rfl rfl
  | claimed =>
    refine ⟨fun stored => ?_, fun _ mem => (by cases mem), fun _ _ _ same => (by cases same)⟩
    intro none
    have unanswered : s.job.responseState = .none := none
    simp [unanswered, MediaWorker.stored] at stored
  | submitting => exact .bare rfl rfl rfl
  | called after =>
    rcases after with rfl | ⟨response, -, rfl⟩
    · exact .bare rfl rfl rfl
    · exact ⟨fun stored => (by cases stored), fun _ mem => (by cases mem), fun _ _ _ same => (by cases same)⟩
  | recorded => exact ⟨fun _ => (by simp [MediaProcessingJob.recorded]), fun _ mem => (by cases mem), fun _ _ _ same => (by cases same)⟩
  | taken open_ =>
    refine ⟨fun _ => (by simp), fun token mem => ?_, fun direct token response same => ?_⟩
    · cases mem
      exact Nat.lt_succ_self _
    · cases same
      exact sound.kept open_
  | saved =>
    refine ⟨fun _ => ?_, fun token mem => held.token token mem, fun _ _ _ same => (by cases same)⟩
    rw [MediaStore.withJob_job, (applyOutcome_state _ _ _).1]
    exact held.stored rfl
  | @released direct token exception _ _ own after =>
    have follows : (MediaWorker.release direct token exception).Follows s w' := after ▸ .raised rfl direct exception
    refine ⟨fun _ => (by simp), fun t mem => held.token t (follows.token t mem), fun d t response same => ?_⟩
    exact absurd follows.empty (by simp [same, MediaWorker.carries])
  | committed => exact .bare rfl rfl rfl
  | unresolved => exact .bare rfl rfl rfl
  | submission => exact .bare rfl rfl rfl

theorem chance_answered {s : MediaStore} (answered : s.job.responseState ≠ .none) : s.chance = 0 :=
  if_neg fun both => answered both.1

theorem chance_le (s : MediaStore) : s.chance ≤ 1 := by
  unfold MediaStore.chance
  split
  · exact le_rfl
  · exact Nat.zero_le _

theorem chance_taken {s : MediaStore} (queued : s.job.status ≠ .queued)
    (failed : ¬ (s.job.status = .failed ∧ s.job.errorCode = submissionFailed)) : s.chance = 0 := by
  refine if_neg ?_
  rintro ⟨unanswered, first | second | third | fourth⟩
  · exact queued first
  · exact failed second
  · exact absurd (unanswered.symm.trans third) (by decide)
  · exact absurd (unanswered.symm.trans fourth) (by decide)

theorem callMeter (move : MediaMove digestOf s w input later w') (held : s.Held w) :
    later.callMeter + w'.calling ≤ s.callMeter + w.calling := by
  unfold MediaStore.callMeter
  cases move with
  | quiet follows => exact Nat.add_le_add_left follows.calling _
  | @prepares fresh _ unanswered =>
    cases fresh with
    | true => exact le_rfl
    | false => exact absurd unanswered (held.stored rfl)
  | claimed claimable =>
    have taken : (s.withJob (s.job.claimed input.now)).chance = 0 :=
      chance_taken (by simp [MediaProcessingJob.claimed]) (by simp [MediaProcessingJob.claimed])
    rw [taken, MediaStore.withJob_providerCalls]
    by_cases unanswered : s.job.responseState = .none
    · have had : s.chance = 1 := if_pos ⟨unanswered, claimable⟩
      rw [had, decide_eq_true unanswered]
      exact le_rfl
    · rw [decide_eq_false unanswered]
      exact Nat.le_add_right _ _
  | submitting =>
    have taken : (s.withJob (s.job.submitting input.now)).chance = 0 :=
      chance_taken (by simp [MediaProcessingJob.submitting]) (by simp [MediaProcessingJob.submitting])
    rw [taken, MediaStore.withJob_providerCalls]
    simp [MediaWorker.calling]
  | called after =>
    have once : w'.calling = 0 := by
      rcases after with rfl | ⟨response, -, rfl⟩ <;> rfl
    rw [once]
    change s.providerCalls + 1 + s.chance + 0 ≤ s.providerCalls + s.chance + 1
    omega
  | recorded =>
    rw [chance_answered (by simp [MediaProcessingJob.recorded])]
    simp [MediaWorker.calling]
  | taken =>
    rw [chance_answered (by simp)]
    simp [MediaWorker.calling]
  | saved =>
    rw [chance_answered (by rw [MediaStore.withJob_job, (applyOutcome_state _ _ _).1]; exact held.stored rfl)]
    simp [MediaWorker.calling]
  | @released direct token exception _ _ own after =>
    have follows : (MediaWorker.release direct token exception).Follows s w' := after ▸ .raised rfl direct exception
    rw [chance_answered (by simp), MediaStore.withJob_providerCalls]
    have calling := follows.calling
    omega
  | committed =>
    rw [chance_answered (by simp)]
    simp [MediaWorker.calling]
  | unresolved =>
    have code : outcomeUncertain.take 100 ≠ submissionFailed := by decide
    rw [chance_taken (by simp [MediaProcessingJob.fail]) (fun both => code both.2)]
    simp [MediaWorker.calling]
  | @submission fresh _ writes =>
    cases fresh with
    | true =>
      have few := chance_le (s.withJob (s.job.fail submissionFailed submissionMessage input.now))
      simp only [MediaStore.withJob_providerCalls, MediaWorker.calling]
      omega
    | false =>
      rw [chance_answered (by rw [MediaStore.withJob_job]; exact held.stored rfl)]
      simp [MediaWorker.calling]

theorem freshMeter (move : MediaMove digestOf s w input later w') (held : s.Held w) :
    later.freshMeter + w'.fresh ≤ s.freshMeter + w.fresh := by
  unfold MediaStore.freshMeter
  cases move with
  | quiet follows => exact Nat.add_le_add_left follows.fresh _
  | @prepares fresh _ unanswered =>
    cases fresh with
    | true => exact le_rfl
    | false => exact absurd unanswered (held.stored rfl)
  | claimed claimable =>
    have taken : (s.withJob (s.job.claimed input.now)).chance = 0 :=
      chance_taken (by simp [MediaProcessingJob.claimed]) (by simp [MediaProcessingJob.claimed])
    rw [taken, MediaStore.withJob_job, MediaProcessingJob.claimed]
    by_cases unanswered : s.job.responseState = .none
    · have had : s.chance = 1 := if_pos ⟨unanswered, claimable⟩
      rw [had, decide_eq_true unanswered]
      exact le_rfl
    · rw [decide_eq_false unanswered]
      exact Nat.add_le_add_right (Nat.add_le_add_left (Nat.zero_le _) _) _
  | submitting =>
    have taken : (s.withJob (s.job.submitting input.now)).chance = 0 :=
      chance_taken (by simp [MediaProcessingJob.submitting]) (by simp [MediaProcessingJob.submitting])
    rw [taken, MediaStore.withJob_job, MediaProcessingJob.submitting]
    exact Nat.add_le_add_right (Nat.add_le_add_left (Nat.zero_le _) _) _
  | called after =>
    have one : w'.fresh ≤ 1 := by
      rcases after with rfl | ⟨_, -, rfl⟩
      · exact Nat.zero_le _
      · exact le_rfl
    exact Nat.add_le_add_left one _
  | recorded unanswered =>
    rw [chance_answered (by simp [MediaProcessingJob.recorded]), if_pos unanswered]
    simp [MediaProcessingJob.recorded, MediaWorker.fresh]
  | taken open_ =>
    have answered : s.job.responseState ≠ .none := by
      rcases open_ with state | state <;> simp [state]
    rw [chance_answered (by simp), if_neg answered]
    simp [MediaWorker.fresh]
  | saved =>
    have answered : s.job.responseState ≠ .none := held.stored rfl
    rw [chance_answered (by rw [MediaStore.withJob_job, (applyOutcome_state _ _ _).1]; exact answered),
      MediaStore.withJob_job, (applyOutcome_state _ _ _).1]
    exact Nat.add_le_add_right (Nat.add_le_add_left (Nat.zero_le _) _) _
  | @released direct token exception _ _ own after =>
    have follows : (MediaWorker.release direct token exception).Follows s w' := after ▸ .raised rfl direct exception
    have fresh := follows.fresh
    rw [chance_answered (by simp), if_neg (show s.job.responseState ≠ .none by simp [own.1])]
    simp only [MediaStore.withJob_job, reduceCtorEq, if_false]
    omega
  | committed own =>
    rw [chance_answered (by simp), if_neg (show s.job.responseState ≠ .none by simp [own.1])]
    simp [MediaWorker.fresh]
  | unresolved =>
    have code : outcomeUncertain.take 100 ≠ submissionFailed := by decide
    rw [chance_taken (by simp [MediaProcessingJob.fail]) (fun both => code both.2), MediaStore.withJob_job,
      MediaProcessingJob.fail]
    exact Nat.add_le_add_right (Nat.add_le_add_left (Nat.zero_le _) _) _
  | @submission fresh _ writes =>
    cases fresh with
    | true =>
      have few := chance_le (s.withJob (s.job.fail submissionFailed submissionMessage input.now))
      change (if s.job.responseState = .none then 0 else 1) +
        (s.withJob (s.job.fail submissionFailed submissionMessage input.now)).chance + 0 ≤
          (if s.job.responseState = .none then 0 else 1) + s.chance + 1
      omega
    | false =>
      rw [chance_answered (by rw [MediaStore.withJob_job]; exact held.stored rfl), MediaStore.withJob_job,
        MediaProcessingJob.fail]
      exact Nat.add_le_add_right (Nat.add_le_add_left (Nat.zero_le _) _) _

theorem absorbs (move : MediaMove digestOf s w input later w') (applied : s.job.responseState = .applied) :
    later.job.responseState = .applied ∧ later.job.responseDigest = s.job.responseDigest := by
  have not_open {state : ResponseState} (is : s.job.responseState = state) (other : state ≠ .applied) : False :=
    other (is.symm.trans applied)
  cases move with
  | recorded unanswered => exact (not_open unanswered (by decide)).elim
  | taken open_ =>
    rcases open_ with recorded | applying
    · exact (not_open recorded (by decide)).elim
    · exact (not_open applying (by decide)).elim
  | saved =>
    obtain ⟨state, -, digest, -⟩ := applyOutcome_state s.job _ input.now
    exact ⟨state.trans applied, digest⟩
  | released own => exact (not_open own.1 (by decide)).elim
  | committed own => exact (not_open own.1 (by decide)).elim
  | _ => exact ⟨applied, rfl⟩

end MediaMove

def ProviderCall.Distinct : ProviderCall → Prop
  | .answered response => response.status = .failed → response.errorCode ≠ submissionFailed
  | _ => True

instance : (call : ProviderCall) → Decidable call.Distinct
  | .answered response => inferInstanceAs (Decidable (response.status = .failed → response.errorCode ≠ submissionFailed))
  | .notSent => isTrue trivial
  | .raised => isTrue trivial

namespace MediaStore

def Agrees (s : MediaStore) : Prop :=
  ∃ response, s.recorded = some response ∧
    MediaProcessingJob.outcome response = some (s.job.status, s.job.errorCode) ∧
    (response.status = .failed → response.errorCode ≠ submissionFailed)

def Distinct (s : MediaStore) : Prop :=
  ∀ response ∈ s.recorded, response.status = .failed → response.errorCode ≠ submissionFailed

/-- The outcome is written: the response is applied, or this delivery holds its claim and is about to commit it. -/
def Fixes (s : MediaStore) (w : MediaWorker) : Prop :=
  s.job.responseState = .applied ∨ ∃ token ∈ w.commits?, s.job.AppliedBy token

structure Written (s : MediaStore) (w : MediaWorker) : Prop where
  agrees : s.Fixes w → s.Agrees
  distinct : ∀ response, w = .checkpoint response → response.status = .failed → response.errorCode ≠ submissionFailed

theorem not_fixes {s : MediaStore} {w : MediaWorker} (applied : s.job.responseState ≠ .applied)
    (applying : s.job.responseState ≠ .applying) : ¬ s.Fixes w := by
  rintro (holds | ⟨_, -, holds⟩)
  · exact applied holds
  · exact applying holds.1

end MediaStore

namespace MediaMove

variable {digestOf : ProviderResponse → Text} {s later : MediaStore} {w w' v : MediaWorker} {input : MediaInput}

theorem distinct (move : MediaMove digestOf s w input later w') (distinct : s.Distinct) (own : s.Written w) : later.Distinct := by
  cases move with
  | recorded =>
    intro response mem
    cases mem
    exact own.distinct _ rfl
  | _ => exact distinct

theorem agrees (move : MediaMove digestOf s w input later w') (distinct : s.Distinct)
    (held : s.Held w) (unanswered : 0 < w.fresh → s.job.responseState = .none) (own : s.Fixes w → s.Agrees)
    (drawn : s.Held v) (written : s.Fixes v → s.Agrees) (claims : w = .claim → s.job.Claimable → ¬ s.Fixes v)
    (fails : ∀ fresh, w = .failSubmission fresh → input.failure = none → ¬ s.Fixes v) (fixes : later.Fixes v) : later.Agrees := by
  cases move with
  | quiet => exact written fixes
  | prepares => exact written fixes
  | claimed claimable => exact absurd fixes (claims rfl claimable)
  | submitting =>
    have none : s.job.responseState = .none := unanswered (Nat.lt_succ_self 0)
    exact absurd fixes (MediaStore.not_fixes (by simp [MediaProcessingJob.submitting, none]) (by simp [MediaProcessingJob.submitting, none]))
  | called => exact written fixes
  | recorded => exact absurd fixes (MediaStore.not_fixes (by simp [MediaProcessingJob.recorded]) (by simp [MediaProcessingJob.recorded]))
  | taken =>
    rcases fixes with applied | ⟨token, mem, -, own⟩
    · cases applied
    · have earlier : token < s.nextToken := by
        refine drawn.token token ?_
        cases v with
        | commit => exact mem
        | _ => cases mem
      exact absurd (Option.some.inj own) earlier.ne'
  | @saved direct token response input valid =>
    have recorded : some response = s.recorded := held.carried direct token _ rfl
    exact ⟨response, recorded.symm, applyOutcome_outcome s.job valid input.now, distinct response (recorded ▸ rfl)⟩
  | released => exact absurd fixes (MediaStore.not_fixes (by simp) (by simp))
  | @committed direct token input mine => exact own (.inr ⟨token, rfl, mine⟩)
  | unresolved unresolved =>
    refine absurd fixes (MediaStore.not_fixes (fun applied => unresolved (.inr (.inl applied))) (fun applying => unresolved (.inl applying)))
  | @submission fresh _ writes => exact absurd fixes (fails fresh rfl writes)

theorem written_own (move : MediaMove digestOf s w input later w') (distinct : s.Distinct) (held : s.Held w)
    (done : later.Fixes .done → later.Agrees) (answers : w = .process → input.call.Distinct) : later.Written w' := by
  have idle (none : w'.commits? = none) (empty : w'.carries = false) : later.Written w' := by
    refine ⟨fun fixes => ?_, fun response same => absurd empty (by simp [same, MediaWorker.carries])⟩
    rcases fixes with applied | ⟨token, mem, -⟩
    · exact done (.inl applied)
    · exact absurd (none ▸ mem) (Option.not_mem_none token)
  cases move with
  | quiet follows => exact idle follows.uncommitted follows.empty
  | called after =>
    rcases after with rfl | ⟨response, answered, rfl⟩
    · exact idle rfl rfl
    · refine ⟨fun fixes => ?_, fun other same => ?_⟩
      · rcases fixes with applied | ⟨token, mem, -⟩
        · exact done (.inl applied)
        · cases mem
      · cases same
        have other : (ProviderCall.answered response).Distinct := answered ▸ answers rfl
        exact other
  | taken =>
    refine ⟨fun fixes => ?_, fun response same => (by cases same)⟩
    rcases fixes with applied | ⟨token, mem, -⟩
    · cases applied
    · cases mem
  | @saved direct token response input valid =>
    have recorded : some response = s.recorded := held.carried direct token _ rfl
    refine ⟨fun _ => ?_, fun response same => (by cases same)⟩
    exact ⟨response, recorded.symm, applyOutcome_outcome s.job valid input.now, distinct response (recorded ▸ rfl)⟩
  | @released direct token exception _ _ own after =>
    have follows : (MediaWorker.release direct token exception).Follows s w' := after ▸ .raised rfl direct exception
    exact idle follows.uncommitted follows.empty
  | _ => exact idle rfl rfl

end MediaMove

namespace MediaCrew

def Fixed (c : MediaCrew) : Bool :=
  c.store.job.responseState == .applied ||
    c.workers.any fun w => match w.commits? with
      | some token => decide (c.store.job.AppliedBy token)
      | none => false

/-- No claim and no failed submission writes to a job whose outcome is written, and the provider does not answer with the
error code of a failed submission. -/
def Leaves (c : MediaCrew) : MediaWorker → MediaInput → Prop
  | .claim, _ => c.store.job.Claimable → c.Fixed = false
  | .failSubmission _, input => input.failure = none → c.Fixed = false
  | .process, input => input.call.Distinct
  | _, _ => True

instance (c : MediaCrew) : (w : MediaWorker) → (input : MediaInput) → Decidable (c.Leaves w input)
  | .claim, _ => inferInstanceAs (Decidable (c.store.job.Claimable → c.Fixed = false))
  | .failSubmission _, input => inferInstanceAs (Decidable (input.failure = none → c.Fixed = false))
  | .process, input => inferInstanceAs (Decidable input.call.Distinct)
  | .submit _, _ => isTrue trivial
  | .prepare, _ => isTrue trivial
  | .checkpoint _, _ => isTrue trivial
  | .claimApply _, _ => isTrue trivial
  | .apply _ _ _, _ => isTrue trivial
  | .release _ _ _, _ => isTrue trivial
  | .commit _ _, _ => isTrue trivial
  | .failUnresolved, _ => isTrue trivial
  | .done, _ => isTrue trivial

variable {c : MediaCrew}

theorem not_fixes (unfixed : c.Fixed = false) {v : MediaWorker} (mem : v ∈ c.workers ∨ v = .done) :
    ¬ c.store.Fixes v := by
  obtain ⟨unapplied, free⟩ := Bool.or_eq_false_iff.mp unfixed
  rintro (applied | ⟨_, holds, own⟩)
  · simp [applied] at unapplied
  · rcases mem with mem | rfl
    · have clear := List.any_eq_false.mp free v mem
      rw [holds] at clear
      exact clear (decide_eq_true own)
    · cases holds

variable {digestOf : ProviderResponse → Text}

structure Sound (digestOf : ProviderResponse → Text) (c : MediaCrew) : Prop where
  kept : c.Keeps (MediaStore.Sound digestOf) MediaStore.Held
  calls : c.store.callMeter + c.load MediaWorker.calling ≤ 1
  fresh : c.store.freshMeter + c.load MediaWorker.fresh ≤ 1

theorem Sound.next (sound : c.Sound digestOf) (a : MediaAction) : (MediaCrew.next digestOf c a).Sound digestOf := by
  have move (w : MediaWorker) (input : MediaInput) :
      MediaMove digestOf c.store w input (w.advance digestOf input c.store).1 (w.advance digestOf input c.store).2 :=
    .of_advance w input c.store
  have held {k : ℕ} {w : MediaWorker} (found : c.workers[k]? = some w) : c.store.Held w :=
    sound.kept.workers w (List.mem_of_getElem? found)
  refine ⟨?_, ?_, ?_⟩
  · apply sound.kept.act a (c.allowed_always a)
    · intro task
      cases task
      exact .bare rfl rfl rfl
    · exact fun event => event.elim
    · intro k input w found held _
      refine ⟨(move w input).sound sound.kept.store, (move w input).held_own sound.kept.store held, ?_⟩
      exact fun j v other at_j held => (move w input).held_others sound.kept.store held
  · refine (Crew.act_load c a (fun task => ?_) (fun event => event.elim) fun k input w found => ?_).trans sound.calls
    · cases task
      rfl
    · exact (move w input).callMeter (held found)
  · refine (Crew.act_load c a (fun task => ?_) (fun event => event.elim) fun k input w found => ?_).trans sound.fresh
    · cases task
      rfl
    · exact (move w input).freshMeter (held found)

theorem Sound.unanswered (sound : c.Sound digestOf) {k : ℕ} {w : MediaWorker} (found : c.workers[k]? = some w)
    (fresh : 0 < w.fresh) : c.store.job.responseState = .none := by
  have weight : w.fresh ≤ c.load MediaWorker.fresh := weight_le_sum MediaWorker.fresh found
  have total := sound.fresh
  unfold MediaStore.freshMeter at total
  by_contra answered
  rw [if_neg answered] at total
  omega

theorem next_move (digestOf : ProviderResponse → Text) (c : MediaCrew) (a : MediaAction) :
    (MediaCrew.next digestOf c a).store = c.store ∨
      ∃ k input w, a = .move k input ∧ c.workers[k]? = some w ∧
        MediaMove digestOf c.store w input (MediaCrew.next digestOf c a).store (w.advance digestOf input c.store).2 := by
  rcases c.act_store a with same | ⟨event, -, -⟩ | ⟨k, input, w, acts, found, moved⟩
  · exact .inl same
  · exact event.elim
  · refine .inr ⟨k, input, w, acts, found, ?_⟩
    rw [MediaCrew.next, moved]
    exact .of_advance w input c.store

/-- A job of a provider with distinct error codes, whose written outcome is the one of the recorded response. -/
abbrev Settled (c : MediaCrew) : Prop :=
  c.Keeps (fun s => s.Distinct ∧ (s.job.responseState = .applied → s.Agrees)) MediaStore.Written

theorem Settled.next (settled : c.Settled) (sound : c.Sound digestOf) (a : MediaAction)
    (allowed : Crew.Allowed Leaves c a) : (MediaCrew.next digestOf c a).Settled := by
  obtain ⟨distinct, applied⟩ := settled.store
  have idle : c.store.Fixes .done → c.store.Agrees := by
    rintro (holds | ⟨token, mem, -⟩)
    · exact applied holds
    · cases mem
  refine settled.act a allowed (fun task => ?_) (fun event => event.elim) fun k input w found written guard => ?_
  · cases task
    refine ⟨fun fixes => ?_, fun response same => (by cases same)⟩
    rcases fixes with holds | ⟨token, mem, -⟩
    · exact applied holds
    · cases mem
  · have move : MediaMove digestOf c.store w input (w.advance digestOf input c.store).1 (w.advance digestOf input c.store).2 :=
      .of_advance w input c.store
    have held : c.store.Held w := sound.kept.workers w (List.mem_of_getElem? found)
    -- The guard frees every other delivery when this one overwrites the status.
    have kept (v : MediaWorker) (mem : v ∈ c.workers ∨ v = .done) (drawn : c.store.Held v)
        (agrees : c.store.Fixes v → c.store.Agrees) :
        (w.advance digestOf input c.store).1.Fixes v → (w.advance digestOf input c.store).1.Agrees := by
      refine move.agrees distinct held (sound.unanswered found) written.agrees drawn agrees ?_ ?_
      · rintro rfl claimable
        exact not_fixes (guard claimable) mem
      · rintro fresh rfl writes
        exact not_fixes (guard writes) mem
    have done := kept .done (.inr rfl) (.bare rfl rfl rfl) idle
    refine ⟨⟨move.distinct distinct written, fun holds => done (.inl holds)⟩, ?_, ?_⟩
    · refine move.written_own distinct held done ?_
      rintro rfl
      exact guard
    · intro j v other at_j before
      have mem : v ∈ c.workers := List.mem_of_getElem? at_j
      exact ⟨kept v (.inl mem) (sound.kept.workers v mem) before.agrees, before.distinct⟩

/-- What every run keeps: the provider is called once at most, and an applied response stays as it is. -/
structure Protocol (digestOf : ProviderResponse → Text) (c : MediaCrew) : Prop where
  calls : c.store.providerCalls ≤ 1
  absorbing : c.store.job.responseState = .applied → ∀ a,
    (MediaCrew.next digestOf c a).store.job.responseState = .applied ∧
      (MediaCrew.next digestOf c a).store.job.responseDigest = c.store.job.responseDigest

/-- The job of an applied response has the status that the response dictates, and keeps it. -/
structure Outcome (digestOf : ProviderResponse → Text) (c : MediaCrew) : Prop where
  dictated : c.store.job.responseState = .applied → ∃ response, c.store.recorded = some response ∧
    c.store.job.responseDigest = digestOf response ∧ c.store.job.responseStatus = some response.status ∧
    MediaProcessingJob.outcome response = some (c.store.job.status, c.store.job.errorCode)
  decided : c.store.job.responseState = .applied →
    c.store.job.status ≠ .processing ∧ c.store.job.errorCode ≠ submissionFailed
  kept : c.store.job.responseState = .applied → ∀ a, Crew.Allowed Leaves c a →
    (MediaCrew.next digestOf c a).store.job.status = c.store.job.status ∧
      (MediaCrew.next digestOf c a).store.job.errorCode = c.store.job.errorCode

theorem Sound.protocol (sound : c.Sound digestOf) : c.Protocol digestOf := by
  refine ⟨?_, fun applied a => ?_⟩
  · have calls := sound.calls
    unfold MediaStore.callMeter at calls
    omega
  · rcases next_move digestOf c a with same | ⟨_, _, _, -, -, move⟩
    · rw [same]
      exact ⟨applied, rfl⟩
    · exact move.absorbs applied

theorem outcome_decided {response : ProviderResponse} {status : JobStatus} {errorCode : Text}
    (outcome : MediaProcessingJob.outcome response = some (status, errorCode))
    (distinct : response.status = .failed → response.errorCode ≠ submissionFailed) :
    response.status ≠ .invalid ∧ status ≠ .processing ∧ errorCode ≠ submissionFailed := by
  unfold MediaProcessingJob.outcome at outcome
  cases is : response.status with
  | invalid => simp [is] at outcome
  | failed =>
    simp only [is, Option.some.injEq, Prod.mk.injEq] at outcome
    obtain ⟨rfl, rfl⟩ := outcome
    refine ⟨by decide, by decide, ?_⟩
    split
    · decide
    · exact distinct is
  | _ =>
    simp only [is, Option.some.injEq, Prod.mk.injEq] at outcome
    obtain ⟨rfl, rfl⟩ := outcome
    decide

theorem Settled.outcome (settled : c.Settled) (sound : c.Sound digestOf) : c.Outcome digestOf := by
  obtain ⟨-, agrees⟩ := settled.store
  refine ⟨fun applied => ?_, fun applied => ?_, fun applied a allowed => ?_⟩
  · obtain ⟨response, recorded, outcome, distinct⟩ := agrees applied
    obtain ⟨stored, found, digest, status⟩ := sound.kept.store.answered (by simp [applied])
    obtain rfl : response = stored := Option.some.inj (recorded.symm.trans found)
    exact ⟨response, recorded, digest, status.trans (if_neg (outcome_decided outcome distinct).1), outcome⟩
  · obtain ⟨response, -, outcome, distinct⟩ := agrees applied
    exact (outcome_decided outcome distinct).2
  · obtain ⟨response, recorded, outcome, -⟩ := agrees applied
    obtain ⟨later, found, outcome', -⟩ := (settled.next sound a allowed).store.2 ((sound.protocol.absorbing applied a).1)
    have same : later = response := by
      rcases next_move digestOf c a with idle | ⟨_, _, _, -, -, move⟩
      · rw [idle] at found
        exact Option.some.inj (found.symm.trans recorded)
      · have answered := (move.answered (by simp [applied])).2 (by rw [recorded]; rfl)
        exact Option.some.inj (found.symm.trans (answered.trans recorded))
    subst same
    obtain ⟨status, code⟩ := Prod.mk.injEq .. ▸ Option.some.inj (outcome'.symm.trans outcome)
    exact ⟨status, code⟩

theorem queued_sound (digestOf : ProviderResponse → Text) : queued.Sound digestOf := by
  refine ⟨⟨⟨fun answered => absurd rfl answered, fun open_ => ?_⟩, fun w mem => absurd mem List.not_mem_nil⟩, le_rfl, le_rfl⟩
  rcases open_ with state | state <;> cases state

theorem queued_settled : queued.Settled :=
  ⟨⟨fun _ mem => (by cases mem), fun applied => (by cases applied)⟩, fun _ mem => absurd mem List.not_mem_nil⟩

/-- In every run the provider is called at most once and an applied response is final. In runs where nothing is written over
a written outcome, the job of an applied response has the status that the response dictates. -/
theorem media_outcome (digestOf : ProviderResponse → Text) (actions : List MediaAction) :
    Protocol digestOf (run (MediaCrew.next digestOf) queued actions) ∧
      (Meets (MediaCrew.next digestOf) (Crew.Allowed Leaves) queued actions →
        Outcome digestOf (run (MediaCrew.next digestOf) queued actions)) := by
  have sound : (run (MediaCrew.next digestOf) queued actions).Sound digestOf :=
    run_always (MediaCrew.next digestOf) (fun _ a sound => sound.next a) (queued_sound digestOf) actions
  refine ⟨sound.protocol, fun allowed => ?_⟩
  have both := @run_invariant _ _ (MediaCrew.next digestOf) _ (fun c => c.Sound digestOf ∧ c.Settled)
    (fun c a kept meets => ⟨kept.1.next a, kept.2.next kept.1 a meets⟩) queued ⟨queued_sound digestOf, queued_settled⟩ actions allowed
  exact both.2.outcome both.1

def success : ProviderResponse where
  status := .succeeded
  errorCode := []
  content := "image/png".toList
  short := Nat.zero_le _

def moves (k : ℕ) (times : List Instant) : List MediaAction :=
  times.map fun now => .move k { now, failure := none, call := .answered success }

def delivered : List MediaAction := .start .processMediaJob :: moves 0 [0, 1, 2, 3, 4, 5, 6, 7]

/-- A second delivery claims the job after the outcome is written and before it is committed. -/
def duplicated : List MediaAction :=
  .start .processMediaJob :: .start .processMediaJob :: (moves 0 [0, 1, 2, 3, 4, 5, 6] ++ moves 1 [7] ++ moves 0 [8] ++ moves 1 [9, 10])

theorem media_outcome_delivered :
    (run (MediaCrew.next ProviderResponse.content) queued delivered).store.job.responseState = .applied ∧
      (run (MediaCrew.next ProviderResponse.content) queued delivered).store.job.status = .succeeded ∧
      Outcome ProviderResponse.content (run (MediaCrew.next ProviderResponse.content) queued delivered) := by
  refine ⟨by decide +kernel, by decide +kernel, ?_⟩
  exact (media_outcome ProviderResponse.content delivered).2 (by decide +kernel)

/-- The claim of the second delivery stays: the response is applied, nobody works on the job, and it is in processing. -/
theorem media_outcome_overwritten :
    (run (MediaCrew.next ProviderResponse.content) queued duplicated).workers = [.done, .done] ∧
      (run (MediaCrew.next ProviderResponse.content) queued duplicated).store.job.responseState = .applied ∧
      (run (MediaCrew.next ProviderResponse.content) queued duplicated).store.recorded = some success ∧
      (run (MediaCrew.next ProviderResponse.content) queued duplicated).store.job.status = .processing := by
  decide +kernel

end MediaCrew

end MapBackend.MediaProcessing
