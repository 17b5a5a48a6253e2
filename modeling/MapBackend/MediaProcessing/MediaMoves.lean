import MapBackend.MediaProcessing.MediaJob

/-! What one move of a delivery does to the job, and the invariants of the stored response. -/

namespace MapBackend.MediaProcessing
open MapBackend.Library MediaJob

namespace MediaWorker

/-- A delivery that may still call the provider, or that makes the job claimable again without a response. -/
def calling : MediaWorker → ℕ
  | .submit true | .prepare | .process | .failSubmission true => 1
  | _ => 0

def fresh : MediaWorker → ℕ
  | .submit true | .prepare | .process | .failSubmission true | .checkpoint _ => 1
  | _ => 0

def stored : MediaWorker → Bool
  | .submit false | .claimApply _ | .apply _ _ _ | .release _ _ _ | .commit _ _ | .failSubmission false => true
  | _ => false

def token? : MediaWorker → Option ℕ
  | .apply _ token _ | .release _ token _ | .commit _ token => some token
  | _ => none

def carries : MediaWorker → Bool
  | .checkpoint _ | .apply _ _ _ => true
  | _ => false

def commits? : MediaWorker → Option ℕ
  | .commit _ token => some token
  | _ => none

end MediaWorker

structure MediaWorker.Follows (s : MediaStore) (w w' : MediaWorker) : Prop where
  calling : w'.calling ≤ w.calling
  fresh : w'.fresh ≤ w.fresh
  stored : w'.stored = true → w.stored = true ∨ s.job.responseState ≠ .none
  token : ∀ token ∈ w'.token?, token ∈ w.token?
  uncommitted : w'.commits? = none
  empty : w'.carries = false

inductive MediaMove (digestOf : ProviderResponse → Text) (s : MediaStore) :
    MediaWorker → MediaInput → MediaStore → MediaWorker → Prop where
  | quiet {w w' : MediaWorker} {input : MediaInput} (follows : w.Follows s w') : MediaMove digestOf s w input s w'
  | prepares {fresh : Bool} {input : MediaInput} (unanswered : s.job.responseState = .none) :
      MediaMove digestOf s (.submit fresh) input s .prepare
  | claimed {input : MediaInput} (claimable : s.job.Claimable) :
      MediaMove digestOf s .claim input (s.withJob (s.job.claimed input.now)) (.submit (decide (s.job.responseState = .none)))
  | submitting {input : MediaInput} : MediaMove digestOf s .prepare input (s.withJob (s.job.submitting input.now)) .process
  | called {input : MediaInput} {w' : MediaWorker} (after : w' = .failUnresolved ∨
      ∃ response, input.call = .answered response ∧ w' = .checkpoint response) :
      MediaMove digestOf s .process input { s with providerCalls := s.providerCalls + 1 } w'
  | recorded {response : ProviderResponse} {input : MediaInput} (unanswered : s.job.responseState = .none) :
      MediaMove digestOf s (.checkpoint response) input
        { s with job := s.job.recorded response (digestOf response) input.now, recorded := some response } (.claimApply true)
  | taken {direct : Bool} {input : MediaInput} (open_ : s.job.responseState = .recorded ∨ s.job.responseState = .applying) :
      MediaMove digestOf s (.claimApply direct) input
        { s with
          job := { s.job with responseState := .applying, applyToken := some s.nextToken, applyClaimedAt := some input.now }
          nextToken := s.nextToken + 1 } (.apply direct s.nextToken s.job.responseEnc)
  | saved {direct : Bool} {token : ℕ} {response : ProviderResponse} {input : MediaInput} (valid : response.status ≠ .invalid) :
      MediaMove digestOf s (.apply direct token (some response)) input (s.withJob (s.job.applyOutcome response input.now))
        (.commit direct token)
  | released {direct : Bool} {token : ℕ} {exception : MediaException} {input : MediaInput} {w' : MediaWorker}
      (own : s.job.AppliedBy token) (after : w' = MediaWorker.raised direct exception) :
      MediaMove digestOf s (.release direct token exception) input
        (s.withJob { s.job with responseState := .recorded, applyToken := none, applyClaimedAt := none }) w'
  | committed {direct : Bool} {token : ℕ} {input : MediaInput} (own : s.job.AppliedBy token) :
      MediaMove digestOf s (.commit direct token) input
        (s.withJob { s.job with
          responseEnc := none, responseState := .applied, applyToken := none, applyClaimedAt := none
          resolvedAt := some input.now }) .done
  | unresolved {input : MediaInput} (unresolved : ¬ s.job.Resolved) :
      MediaMove digestOf s .failUnresolved input (s.withJob (s.job.fail outcomeUncertain uncertainMessage input.now)) .done
  | submission {fresh : Bool} {input : MediaInput} (writes : input.failure = none) :
      MediaMove digestOf s (.failSubmission fresh) input
        (s.withJob (s.job.fail submissionFailed submissionMessage input.now)) .done

namespace MediaWorker

variable {s : MediaStore} {w : MediaWorker}

theorem Follows.done : w.Follows s .done :=
  ⟨Nat.zero_le _, Nat.zero_le _, fun held => (by cases held), fun _ mem => (by cases mem), rfl, rfl⟩

theorem Follows.failUnresolved : w.Follows s .failUnresolved :=
  ⟨Nat.zero_le _, Nat.zero_le _, fun held => (by cases held), fun _ mem => (by cases mem), rfl, rfl⟩

theorem Follows.raised (stored : w.stored = true) (direct : Bool) (exception : MediaException) :
    w.Follows s (MediaWorker.raised direct exception) := by
  cases direct with
  | true => exact .failUnresolved
  | false =>
    cases exception with
    | checkpointApplyInProgress => exact .done
    | providerOutcomeUncertain => exact .failUnresolved
    | other =>
      exact ⟨Nat.zero_le _, Nat.zero_le _, fun _ => .inl stored, fun _ mem => (by cases mem), rfl, rfl⟩

theorem Follows.failSubmission {fresh : Bool} (calling : (MediaWorker.failSubmission fresh).calling ≤ w.calling)
    (chance : (MediaWorker.failSubmission fresh).fresh ≤ w.fresh)
    (stored : (MediaWorker.failSubmission fresh).stored = true → w.stored = true) : w.Follows s (.failSubmission fresh) :=
  ⟨calling, chance, fun held => .inl (stored held), fun _ mem => (by cases mem), rfl, rfl⟩

theorem Follows.claimApply (direct : Bool) (answered : s.job.responseState ≠ .none) : w.Follows s (.claimApply direct) :=
  ⟨Nat.zero_le _, Nat.zero_le _, fun _ => .inr answered, fun _ mem => (by cases mem), rfl, rfl⟩

theorem Follows.release (direct : Bool) (token : ℕ) (response : Option ProviderResponse) (exception : MediaException) :
    (MediaWorker.apply direct token response).Follows s (.release direct token exception) :=
  ⟨Nat.zero_le _, Nat.zero_le _, fun _ => .inl rfl, fun _ mem => mem, rfl, rfl⟩

end MediaWorker

namespace MediaMove

variable {digestOf : ProviderResponse → Text}

theorem of_advance (w : MediaWorker) (input : MediaInput) (s : MediaStore) :
    MediaMove digestOf s w input (w.advance digestOf input s).1 (w.advance digestOf input s).2 := by
  cases w with
  | claim =>
    simp only [MediaWorker.advance]
    split
    next claimable => exact .claimed claimable
    next => exact .quiet .done
  | submit fresh =>
    simp only [MediaWorker.advance]
    split
    next =>
      refine .quiet (.failSubmission ?_ ?_ ?_)
      · cases fresh <;> exact le_rfl
      · cases fresh <;> exact le_rfl
      · cases fresh <;> exact id
    next =>
      split
      next unanswered => exact .prepares unanswered
      next answered => exact .quiet (.claimApply false answered)
  | prepare =>
    simp only [MediaWorker.advance]
    split
    next => exact .quiet (.failSubmission le_rfl le_rfl id)
    next => exact .submitting
  | process =>
    simp only [MediaWorker.advance]
    split
    next => exact .quiet (.failSubmission le_rfl le_rfl id)
    next => exact .called (.inl rfl)
    next response answered => exact .called (.inr ⟨response, answered, rfl⟩)
  | checkpoint =>
    simp only [MediaWorker.advance]
    split
    next => exact .quiet .failUnresolved
    next =>
      simp only [MediaWorker.recordResponse]
      split
      next answered =>
        dsimp only
        split
        next => exact .quiet (.claimApply true answered)
        next => exact .quiet .failUnresolved
      next unanswered => exact .recorded (not_not.mp unanswered)
  | claimApply direct =>
    simp only [MediaWorker.advance]
    split
    next => exact .quiet (.raised rfl direct .other)
    next =>
      simp only [MediaWorker.claimCheckpoint]
      split
      next => exact .quiet .done
      next unresolved =>
        split
        next => exact .quiet (.raised rfl direct .checkpointApplyInProgress)
        next =>
          split
          next => exact .quiet (.raised rfl direct .other)
          next answered =>
            refine .taken ?_
            cases state : s.job.responseState with
            | none => exact absurd state answered
            | recorded => exact .inl rfl
            | applying => exact .inr rfl
            | applied => exact absurd (.inl state) unresolved
            | accountingResolved => exact absurd (.inr state) unresolved
  | apply direct token stored =>
    simp only [MediaWorker.advance]
    split
    next => exact .quiet (.release direct token stored _)
    next =>
      cases stored with
      | none => exact .quiet (.release direct token none _)
      | some =>
        simp only [MediaWorker.applyStored]
        split
        next => exact .quiet (.release direct token _ _)
        next valid => exact .saved valid
  | release direct _ exception =>
    simp only [MediaWorker.advance]
    split
    next => exact .quiet (.raised rfl direct .other)
    next =>
      simp only [MediaWorker.releaseClaim]
      split
      next own => exact .released own rfl
      next => exact .quiet (.raised rfl direct exception)
  | commit direct =>
    simp only [MediaWorker.advance]
    split
    next => exact .quiet (.raised rfl direct .other)
    next =>
      simp only [MediaWorker.commitApplied]
      split
      next own => exact .committed own
      next => exact .quiet (.raised rfl direct .providerOutcomeUncertain)
  | failUnresolved =>
    simp only [MediaWorker.advance]
    split
    next => exact .quiet .done
    next open_ => exact .unresolved fun resolved => open_ (.inr resolved)
  | failSubmission =>
    simp only [MediaWorker.advance]
    split
    next => exact .quiet .done
    next writes => exact .submission (Option.isNone_iff_eq_none.mp (by simpa using writes))
  | done => exact .quiet .done

end MediaMove

end MapBackend.MediaProcessing
