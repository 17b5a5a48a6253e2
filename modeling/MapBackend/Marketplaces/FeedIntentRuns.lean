import MapBackend.Marketplaces.FeedIntentProtocol

/-!
Runs of the recovery passes with everything else that writes feed intents: each terminal dispatch is followed up at most
once, a pass changes an account by a follow-up alone, and one that reaches a recoverable dispatch follows it up.
-/

namespace MapBackend.Marketplaces.FeedIntent
open MapBackend.Library

/-- What holds of the recoveries and of the cursors in every state of a run. -/
structure RecoveredOnce (tables : FeedTables) (s : FeedStore) : Prop where
  once : ∀ pk, s.recoveries.countP (fun recovery => decide (recovery.dispatch = pk)) ≤ 1
  recorded : ∀ recovery ∈ s.recoveries, ∀ row ∈ s.dispatches, row.pk = recovery.dispatch → row.result = some recovery.result
  marked : ∀ row ∈ s.dispatches, row.reasonCode = some .feedIntentRecovered →
    (∃ recovery ∈ s.recoveries, recovery.dispatch = row.pk) ∨
      ∃ old ∈ tables.dispatches, old.pk = row.pk ∧ old.reasonCode = some .feedIntentRecovered
  successors : (s.recoveries.filterMap Recovery.successor?).Nodup
  ordered : ∀ old ∈ tables.accounts, ∀ new ∈ s.accounts, new.pk = old.pk →
    old.cursor.revision ≤ new.cursor.revision ∧ old.cursor.dispatchedRevision ≤ new.cursor.dispatchedRevision

structure FollowedUp (recoveryTime : Instant) (owner after : FeedAccount) (recovery : Recovery) : Prop where
  account : recovery.account = owner.pk
  source : recovery.source = owner.cursor.dispatchedRevision
  desired : recovery.desired = after.cursor.revision
  dispatched : after.cursor.dispatchedRevision = owner.cursor.dispatchedRevision
  synced : after.drifted = false
  successor : recovery.followup = .successor → owner.cursor.revision = recovery.source ∧
    after.cursor.revision = recovery.source + 1 ∧ after.feedIntentDueAt = some recoveryTime
  nudge : recovery.followup = .nudge → recovery.source < owner.cursor.revision ∧
    after.cursor.revision = owner.cursor.revision ∧ ∀ due ∈ owner.feedIntentDueAt, ∃ sooner ∈ after.feedIntentDueAt, sooner ≤ due

/-- A step of a pass: no account and no recovery changes, or one dispatch of a dispatched revision is followed up. -/
def PassStep (recoveryTime : Instant) (s later : FeedStore) : Prop :=
  (later.accounts = s.accounts ∧ later.recoveries = s.recoveries) ∨
    ∃ row ∈ s.dispatches, ∃ owner ∈ s.accounts, ∃ after recovery, Recoverable row owner recovery.source ∧
      recovery.dispatch = row.pk ∧ FollowedUp recoveryTime owner after recovery ∧
      later.accounts = put FeedAccount.pk after s.accounts ∧ later.recoveries = recovery :: s.recoveries

namespace Followed

variable {recoveryTime : Instant} {owner after : FeedAccount} {source : ℕ} {followup : Followup}

theorem dispatched (followed : Followed recoveryTime owner source followup after) :
    after.cursor.dispatchedRevision = owner.cursor.dispatchedRevision := by
  cases followed with
  | successor => exact FeedCursor.next_dispatched
  | nudge =>
    unfold FeedAccount.nudge
    split
    · rfl
    · split <;> rfl

theorem owner_same (followed : Followed recoveryTime owner source followup after) :
    after.inactive = owner.inactive ∧ (owner.drifted = false → after.drifted = false) := by
  cases followed with
  | successor =>
    refine ⟨rfl, fun _ => ?_⟩
    cases endpoint : owner.sourceIntentRevision <;> simp [FeedAccount.drifted, FeedAccount.advance, endpoint]
  | nudge =>
    unfold FeedAccount.nudge
    split
    · exact ⟨rfl, id⟩
    · split
      · exact ⟨rfl, id⟩
      · exact ⟨rfl, id⟩

theorem released (followed : Followed recoveryTime owner source followup after) : after.held = false := by
  cases followed with
  | successor => simp [FeedAccount.held, FeedAccount.advance]
  | nudge =>
    unfold FeedAccount.nudge
    split
    next dispatched => simp [FeedAccount.held, dispatched]
    next =>
      split
      next due =>
        cases scheduled : owner.feedIntentDueAt with
        | none => simp [scheduled] at due
        | some => simp [FeedAccount.held, scheduled]
      next => simp [FeedAccount.held]

theorem sooner (due : Instant) (scheduled : due ∈ owner.feedIntentDueAt) :
    ∃ sooner ∈ (owner.nudge recoveryTime).feedIntentDueAt, sooner ≤ due := by
  unfold FeedAccount.nudge
  split
  · exact ⟨due, scheduled, le_refl _⟩
  · split
    · exact ⟨due, scheduled, le_refl _⟩
    next later =>
      refine ⟨recoveryTime, rfl, ?_⟩
      rw [Option.mem_def.mp scheduled] at later
      simp only [Option.any_some, decide_eq_true_eq] at later
      exact le_of_lt (Int.not_le.mp later)

theorem followedUp {row : BackgroundJobDispatch} (recoverable : Recoverable row owner source)
    (followed : Followed recoveryTime owner source followup after) :
    FollowedUp recoveryTime owner after
      { dispatch := row.pk, account := after.pk, source, desired := after.cursor.revision, followup } where
  account := followed.advances.pk
  source := recoverable.current.symm
  desired := rfl
  dispatched := followed.dispatched
  synced := followed.owner_same.2 recoverable.synced
  successor made := by
    cases followed with
    | successor desired =>
      have spare : owner.cursor.revision < maxFeedIntentRevision := by
        simpa [FeedAccount.exhausted] using recoverable.room desired
      exact ⟨desired, desired ▸ FeedCursor.next_of_room spare, rfl⟩
    | nudge => cases made
  nudge made := by
    cases followed with
    | successor => cases made
    | nudge desired => exact ⟨desired, (owner.nudge_stays recoveryTime).revision, sooner⟩

end Followed

namespace FeedStore

variable {s later : FeedStore} {recoveryTime : Instant} {dispatch : ℕ}

theorem Handled.passStep (handled : Handled recoveryTime s dispatch later) : PassStep recoveryTime s later := by
  cases handled with
  | quiet => exact .inl ⟨rfl, rfl⟩
  | rewritten => exact .inl ⟨rfl, rfl⟩
  | @recovered row owner after source followup mem there recoverable followed =>
    exact .inr ⟨row, mem, owner, there, after, _, recoverable, rfl, followed.followedUp recoverable, rfl, rfl⟩

theorem Handled.accounts (handled : Handled recoveryTime s dispatch later) :
    ∀ new ∈ later.accounts, ∃ old ∈ s.accounts, Advances old new := by
  intro new mem
  cases handled with
  | quiet => exact ⟨new, mem, (Stays.refl new).advances⟩
  | rewritten => exact ⟨new, mem, (Stays.refl new).advances⟩
  | @recovered row owner after source followup _ there _ followed =>
    rcases mem_put.mp mem with ⟨rfl, -⟩ | ⟨held, -⟩
    · exact ⟨owner, there, followed.advances⟩
    · exact ⟨new, held, (Stays.refl new).advances⟩

theorem Handled.marked (handled : Handled recoveryTime s dispatch later) : ∀ row ∈ later.dispatches,
    row.reasonCode = some .feedIntentRecovered → row ∈ s.dispatches ∨ ∃ recovery ∈ later.recoveries, recovery.dispatch = row.pk := by
  intro row mem marked
  cases handled with
  | quiet => exact .inl mem
  | rewritten _ _ _ _ unmarked =>
    rcases mem_put.mp mem with ⟨rfl, -⟩ | ⟨held, -⟩
    · exact absurd marked unmarked
    · exact .inl held
  | recovered =>
    rcases mem_put.mp mem with ⟨rfl, -⟩ | ⟨held, -⟩
    · exact .inr ⟨_, List.mem_cons_self, rfl⟩
    · exact .inl held

theorem Handled.recoveries (handled : Handled recoveryTime s dispatch later) : ∀ recovery ∈ s.recoveries, recovery ∈ later.recoveries := by
  cases handled with
  | quiet => exact fun _ mem => mem
  | rewritten => exact fun _ mem => mem
  | recovered => exact fun _ mem => List.mem_cons_of_mem _ mem

theorem Handled.others (keyed : s.Keyed) (handled : Handled recoveryTime s dispatch later) {row : BackgroundJobDispatch}
    {owner : FeedAccount} {source : ℕ} (mem : row ∈ s.dispatches) (other : row.pk ≠ dispatch) (there : owner ∈ s.accounts)
    (recoverable : Recoverable row owner source) (free : owner.held = false) :
    row ∈ later.dispatches ∧ ∃ after ∈ later.accounts, Recoverable row after source ∧ after.held = false := by
  cases handled with
  | quiet => exact ⟨mem, owner, there, recoverable, free⟩
  | rewritten _ _ pk => exact ⟨mem_put.mpr (.inr ⟨mem, pk ▸ other⟩), owner, there, recoverable, free⟩
  | @recovered _ changed after revision followup _ held follows followed =>
    refine ⟨mem_put.mpr (.inr ⟨mem, other⟩), ?_⟩
    by_cases same : owner.pk = after.pk
    · have one : owner = changed := row_unique keyed.account_keys there held (same.trans followed.advances.pk)
      subst one
      have pending := followed.pending follows.room
      have current : revision = source := follows.current.symm.trans recoverable.current
      obtain ⟨inactive, synced⟩ := followed.owner_same
      refine ⟨after, mem_put.mpr (.inl ⟨rfl, owner, there, same⟩), ?_, followed.released⟩
      exact
        { recoverable with
          first := same ▸ recoverable.first
          live := inactive.trans recoverable.live
          synced := synced recoverable.synced
          current := followed.dispatched.trans recoverable.current
          room := fun desired => absurd desired (by omega) }
    · exact ⟨owner, mem_put.mpr (.inr ⟨there, same⟩), recoverable, free⟩

theorem Sound.counted (sound : s.Sound) (pk : ℕ) :
    s.recoveries.countP (fun recovery => decide (recovery.dispatch = pk)) ≤ 1 := by
  have few := List.nodup_iff_count_le_one.mp sound.once pk
  rw [List.count, List.countP_map] at few
  exact few

end FeedStore

/-! ## A pass alone -/

namespace RecoveryPass

def alone (now : Instant) (moved : FeedStore × RecoveryPass) : FeedStore × RecoveryPass := moved.2.advance now moved.1

variable {s : FeedStore} {now recoveryTime : Instant} {row : BackgroundJobDispatch} {source : ℕ}

theorem ofSnapshot_recoverable {owner : FeedAccount} (recoverable : Recoverable row owner source) (rest : List ℕ) :
    ofSnapshot recoveryTime rest row = .recover recoveryTime row.pk owner.pk source rest := by
  simp [ofSnapshot, recoverable.needs, recoverable.first, recoverable.second]

theorem handles_head (keyed : s.Keyed) (now recoveryTime : Instant) (dispatch : ℕ) (rest : List ℕ) : ∃ n later,
    FeedStore.Handled recoveryTime s dispatch later ∧
      (alone now)^[n] (s, .scan recoveryTime (dispatch :: rest)) = (later, .scan recoveryTime rest) := by
  cases found : s.dispatch? dispatch with
  | none => exact ⟨1, s, .quiet, by simp [alone, advance, found]⟩
  | some row =>
    obtain ⟨-, rfl⟩ := FeedStore.dispatch?_mem found
    by_cases needs : row.needsRecovery = true
    · cases first : row.arg 0 with
      | none => exact ⟨2, _, FeedStore.closeInvalid_handled row.pk, by simp [alone, advance, found, ofSnapshot, needs, first]⟩
      | some account =>
        cases second : row.arg 1 with
        | none =>
          exact ⟨2, _, FeedStore.closeInvalid_handled row.pk, by simp [alone, advance, found, ofSnapshot, needs, first, second]⟩
        | some source =>
          exact ⟨2, _, FeedStore.recover_handled keyed row.pk account source,
            by simp [alone, advance, found, ofSnapshot, needs, first, second]⟩
    · exact ⟨1, s, .quiet, by simp [alone, advance, found, ofSnapshot, needs]⟩

theorem reaches (now recoveryTime : Instant) {candidates : List ℕ} {owner : FeedAccount} (sound : s.Sound) (mem : row ∈ s.dispatches)
    (there : owner ∈ s.accounts) (recoverable : Recoverable row owner source) (free : owner.held = false)
    (selected : row.pk ∈ candidates) : ∃ n, ∃ recovery ∈ ((alone now)^[n] (s, .scan recoveryTime candidates)).1.recoveries,
      recovery.dispatch = row.pk := by
  induction candidates generalizing s owner with
  | nil => exact absurd selected List.not_mem_nil
  | cons dispatch rest ih =>
    by_cases own : row.pk = dispatch
    · subst own
      obtain ⟨followup, after, -, recovered⟩ := FeedStore.recover_recoverable recoveryTime sound.keyed mem there recoverable
      refine ⟨2, { dispatch := row.pk, account := after.pk, source, desired := after.cursor.revision, followup }, ?_, rfl⟩
      have found := FeedStore.dispatch?_of_mem sound.keyed mem
      simp [alone, advance, found, ofSnapshot_recoverable recoverable, recovered, FeedStore.recovered]
    · have later_selected : row.pk ∈ rest := (List.mem_cons.mp selected).resolve_left own
      obtain ⟨m, _, handled, moved⟩ := handles_head sound.keyed now recoveryTime dispatch rest
      obtain ⟨kept, after, held, still, released⟩ := handled.others sound.keyed mem own there recoverable free
      obtain ⟨n, recovery, _, same⟩ := ih (sound.handled handled) kept held still released later_selected
      exact ⟨n + m, recovery, by rwa [Function.iterate_add_apply, moved], same⟩

end RecoveryPass

/-! ## All runs -/

namespace FeedCrew

variable {c : FeedCrew}

theorem store_next (keyed : c.store.Keyed) (a : FeedAction) : FeedStore.Written c.store (c.next a).store ∨
    ∃ recoveryTime dispatch, FeedStore.Handled recoveryTime c.store dispatch (c.next a).store := by
  rcases @Crew.act_store _ _ _ _ FeedStore.next RecoveryPass.advance _ RecoveryPass.select c a with
    same | ⟨event, -, made⟩ | ⟨k, now, pass, -, -, made⟩
  · exact .inl (same ▸ .refl c.store)
  · exact .inl (made ▸ FeedStore.written_next keyed event)
  · obtain ⟨dispatch, handled⟩ := pass.handled keyed now
    exact .inr ⟨pass.time now, dispatch, made ▸ handled⟩

theorem sound_next (sound : c.store.Sound) (a : FeedAction) : (c.next a).store.Sound := by
  rcases store_next sound.keyed a with written | ⟨_, _, handled⟩
  · exact sound.written written
  · exact sound.handled handled

theorem advances_next (sound : c.store.Sound) (a : FeedAction) {old new : FeedAccount} (before : old ∈ c.store.accounts)
    (after : new ∈ (c.next a).store.accounts) (same : new.pk = old.pk) : Advances old new := by
  have source : (∃ origin ∈ c.store.accounts, Advances origin new) ∨ c.store.nextAccount ≤ new.pk := by
    rcases store_next sound.keyed a with written | ⟨_, _, handled⟩
    · exact written.accounts new after
    · exact .inl (handled.accounts new after)
  rcases source with ⟨origin, there, advances⟩ | _
  · rwa [row_unique sound.keyed.account_keys before there (same.symm.trans advances.pk)]
  · have bound := sound.keyed.account_bound old before
    omega

end FeedCrew

structure Since (tables : FeedTables) (s : FeedStore) : Prop where
  accounts : ∀ new ∈ s.accounts, (∃ old ∈ tables.accounts, old.pk = new.pk ∧ old.cursor.revision ≤ new.cursor.revision ∧
    old.cursor.dispatchedRevision ≤ new.cursor.dispatchedRevision) ∨ ∀ old ∈ tables.accounts, old.pk < new.pk
  bound : ∀ old ∈ tables.accounts, old.pk < s.nextAccount
  marked : ∀ row ∈ s.dispatches, row.reasonCode = some .feedIntentRecovered →
    (∃ recovery ∈ s.recoveries, recovery.dispatch = row.pk) ∨
      ∃ old ∈ tables.dispatches, old.pk = row.pk ∧ old.reasonCode = some .feedIntentRecovered

namespace Since

variable {tables : FeedTables} {s later : FeedStore}

theorem account (since : Since tables s) {new : FeedAccount}
    (source : (∃ old ∈ s.accounts, Advances old new) ∨ s.nextAccount ≤ new.pk) :
    (∃ old ∈ tables.accounts, old.pk = new.pk ∧ old.cursor.revision ≤ new.cursor.revision ∧
      old.cursor.dispatchedRevision ≤ new.cursor.dispatchedRevision) ∨ ∀ old ∈ tables.accounts, old.pk < new.pk := by
  rcases source with ⟨middle, there, advances⟩ | fresh
  · rcases since.accounts middle there with ⟨old, first, same, _, dispatched⟩ | later
    · have raised := advances.revision
      exact .inl ⟨old, first, same.trans advances.pk.symm, by omega, dispatched.trans advances.dispatched⟩
    · exact .inr fun old first => advances.pk ▸ later old first
  · exact .inr fun old first => (since.bound old first).trans_le fresh

theorem written (since : Since tables s) (written : FeedStore.Written s later) : Since tables later where
  accounts new mem := since.account (written.accounts new mem)
  bound old first := (since.bound old first).trans_le written.nextAccount
  marked row mem marked := by
    rw [written.recoveries]
    rcases written.dispatches row mem with ⟨old, there, delivered⟩ | ⟨-, plain⟩
    · rw [delivered.pk]
      exact since.marked old there (delivered.unmarked marked)
    · exact absurd (plain.symm.trans marked) (by simp)

theorem handled {recoveryTime : Instant} {dispatch : ℕ} (since : Since tables s)
    (handled : FeedStore.Handled recoveryTime s dispatch later) : Since tables later where
  accounts new mem := since.account (.inl (handled.accounts new mem))
  bound old first := by
    have kept : later.nextAccount = s.nextAccount := by cases handled <;> rfl
    exact kept ▸ since.bound old first
  marked row mem marked := by
    rcases handled.marked row mem marked with there | made
    · refine (since.marked row there marked).imp_left fun ⟨recovery, before, same⟩ => ?_
      exact ⟨recovery, handled.recoveries recovery before, same⟩
    · exact .inl made

end Since

theorem lt_above {keys : List ℕ} {key : ℕ} (mem : key ∈ keys) : key < above keys := by
  induction keys with
  | nil => exact absurd mem List.not_mem_nil
  | cons first rest ih =>
    have last : above (first :: rest) = max (first + 1) (above rest) := rfl
    rcases List.mem_cons.mp mem with rfl | later
    · omega
    · have bound := ih later
      omega

namespace FeedTables

variable (tables : FeedTables)

theorem sound : tables.crew.store.Sound where
  keyed :=
    { account_keys := tables.account_keys
      account_bound := fun _ mem => lt_above (List.mem_map_of_mem mem)
      dispatch_keys := tables.dispatch_keys
      dispatch_bound := fun _ mem => lt_above (List.mem_map_of_mem mem) }
  once := List.nodup_nil
  closed _ made := absurd made List.not_mem_nil
  passed _ made := absurd made List.not_mem_nil
  successors := List.nodup_nil

theorem since : Since tables tables.crew.store where
  accounts new mem := .inl ⟨new, mem, rfl, le_refl _, le_refl _⟩
  bound _ mem := lt_above (List.mem_map_of_mem mem)
  marked row mem marked := .inr ⟨row, mem, rfl, marked⟩

theorem run_sound (actions : List FeedAction) :
    (run FeedCrew.next tables.crew actions).store.Sound ∧ Since tables (run FeedCrew.next tables.crew actions).store := by
  refine @run_always _ _ FeedCrew.next (fun c => c.store.Sound ∧ Since tables c.store) (fun c a ⟨sound, since⟩ => ?_) _
    ⟨tables.sound, tables.since⟩ actions
  refine ⟨FeedCrew.sound_next sound a, ?_⟩
  rcases FeedCrew.store_next sound.keyed a with written | ⟨_, _, handled⟩
  · exact since.written written
  · exact since.handled handled

end FeedTables

theorem recoveredOnce {tables : FeedTables} {s : FeedStore} (sound : s.Sound) (since : Since tables s) :
    RecoveredOnce tables s where
  once := sound.counted
  recorded recovery made row mem same := ((sound.closed recovery made).2 row mem same).2
  marked := since.marked
  successors := sound.successors
  ordered old first new mem same := by
    rcases since.accounts new mem with ⟨_, there, pk, desired, dispatched⟩ | later
    · rw [row_unique tables.account_keys first there (same.symm.trans pk.symm)]
      exact ⟨desired, dispatched⟩
    · exact absurd same (Nat.ne_of_gt (later old first))

theorem FeedCrew.selected_once {c : FeedCrew} (sound : c.store.Sound) {k : ℕ} {limit : Option ℤ} {now : Instant}
    (pass : c.workers[k]? = some (.select limit)) {row : BackgroundJobDispatch} {owner : FeedAccount} {source : ℕ}
    (mem : row ∈ c.store.dispatches) (there : owner ∈ c.store.accounts) (recoverable : Recoverable row owner source)
    (free : owner.held = false) (selected : row.pk ∈ c.store.candidates limit now) :
    ∃ n, (run FeedCrew.next c (List.replicate n (.move k now))).store.recoveries.countP
      (fun recovery => decide (recovery.dispatch = row.pk)) = 1 := by
  obtain ⟨n, recovery, made, same⟩ := RecoveryPass.reaches now now sound mem there recoverable free selected
  refine ⟨n + 1, ?_⟩
  have moved := @Crew.run_alone _ _ _ _ FeedStore.next RecoveryPass.advance _ RecoveryPass.select c k _ now pass (n + 1)
  have later : (run FeedCrew.next c (List.replicate (n + 1) (.move k now))).store.Sound :=
    @run_always _ _ FeedCrew.next (fun c => c.store.Sound) (fun _ a before => FeedCrew.sound_next before a) _ sound _
  refine Nat.le_antisymm (later.counted row.pk) (List.countP_pos_iff.mpr ⟨recovery, ?_, decide_eq_true same⟩)
  change recovery ∈ (run (fun (c : FeedCrew) (a : FeedAction) => c.act FeedStore.next RecoveryPass.advance RecoveryPass.select a) c
    (List.replicate (n + 1) (.move k now))).store.recoveries
  rw [moved]
  exact made

/-- The recoveries of every interleaving of any number of passes with each other and with the other writers. -/
theorem recoveries_once (tables : FeedTables) (actions : List FeedAction) :
    let c := run FeedCrew.next tables.crew actions
    RecoveredOnce tables c.store ∧
    (∀ a, ∀ old ∈ c.store.accounts, ∀ new ∈ (c.next a).store.accounts, new.pk = old.pk → Advances old new) ∧
    (∀ pass ∈ c.workers, ∀ now, PassStep (pass.time now) c.store (pass.advance now c.store).1) ∧
    (∀ row ∈ c.store.dispatches, ∀ owner ∈ c.store.accounts, ∀ source, Recoverable row owner source → owner.held = false →
      (∀ recoveryTime, (c.store.recover recoveryTime row.pk owner.pk source).recoveries.countP
        (fun recovery => decide (recovery.dispatch = row.pk)) = 1) ∧
      ∀ k limit now, c.workers[k]? = some (.select limit) → row.pk ∈ c.store.candidates limit now →
        ∃ n, (run FeedCrew.next c (List.replicate n (.move k now))).store.recoveries.countP
          (fun recovery => decide (recovery.dispatch = row.pk)) = 1) := by
  intro c
  obtain ⟨sound, since⟩ := tables.run_sound actions
  refine ⟨recoveredOnce sound since, fun a old before new after same => FeedCrew.advances_next sound a before after same,
    fun pass _ now => ?_, fun row mem owner there source recoverable free => ⟨fun recoveryTime => ?_, ?_⟩⟩
  · obtain ⟨_, handled⟩ := pass.handled sound.keyed now
    exact handled.passStep
  · have later := sound.handled (@FeedStore.recover_handled _ recoveryTime sound.keyed row.pk owner.pk source)
    obtain ⟨_, after, -, made⟩ := FeedStore.recover_recoverable recoveryTime sound.keyed mem there recoverable
    refine Nat.le_antisymm (later.counted row.pk) (List.countP_pos_iff.mpr ?_)
    rw [made]
    exact ⟨_, List.mem_cons_self, decide_eq_true rfl⟩
  · exact fun k limit now pass selected => FeedCrew.selected_once sound pass mem there recoverable free selected

def activeAccount (pk : ℕ) (cursor : FeedCursor) (dueAt : Option Instant) : FeedAccount :=
  { newAccount pk true true true with cursor, feedIntentDueAt := dueAt, sourceIntentRevision := some cursor.revision }

def terminalDispatch (pk : ℕ) (account : FeedAccount) (status : DispatchStatus) (result : Option DispatchResult) :
    BackgroundJobDispatch where
  pk
  taskName := .processMarketplaceFeedIntent
  args := [.int account.pk, .int account.cursor.dispatchedRevision]
  deduplicationKey := none
  status
  availableAt := 0
  createdAt := 0
  result

def checkpointed : FeedAccount := activeAccount 1 (FeedCursor.start.next.next.reach 2) none

def outdated : FeedAccount := activeAccount 2 (FeedCursor.start.next.next.reach 1) (some 0)

/-- A checkpoint of the dispatched revision of one account and the failed dispatch of another. -/
def checkpointTables : FeedTables where
  accounts := [checkpointed, outdated]
  dispatches :=
    [terminalDispatch 1 checkpointed .succeeded (some (finishedResult .notActivated)), terminalDispatch 2 outdated .failed none]
  account_keys := by decide
  dispatch_keys := by decide

/-- The `not_activated` checkpoint of a dispatched revision gets neither a successor nor a nudge, and a revision that was
held for an uncertain outcome is due after the recovery of the revision before it. -/
theorem recoveries_once_checkpoint :
    let held := run FeedCrew.next checkpointTables.crew [.direct (.account 2 (.holdPrivate 2))]
    let c := run FeedCrew.next held (.start none :: List.replicate 5 (.move 0 minute))
    checkpointed.cursor.dispatchedRevision = 2 ∧ c.store.account? 1 = some checkpointed ∧
      c.store.recoveries.all (fun recovery => decide (recovery.dispatch ≠ 1)) = true ∧
      (held.store.account? 2).map FeedAccount.held = some true ∧ (c.store.account? 2).map FeedAccount.held = some false := by
  decide +kernel

end MapBackend.Marketplaces.FeedIntent
