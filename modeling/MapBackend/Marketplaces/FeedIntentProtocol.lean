import Mathlib.Order.MinMax
import MapBackend.Marketplaces.FeedIntentRecovery

/-!
What the recovery passes and the other writers do to the cursors and the dispatches, and that every dispatch is followed
up at most once, in any interleaving of any number of passes.
-/

namespace MapBackend.Marketplaces.FeedIntent
open MapBackend.Library

/-! ## Accounts -/

/-- A step of an account: the desired revision stays or goes up by one, the dispatched one is not lowered. -/
structure Advances (old new : FeedAccount) : Prop where
  pk : new.pk = old.pk
  revision : new.cursor.revision = old.cursor.revision ∨ new.cursor.revision = old.cursor.revision + 1
  dispatched : old.cursor.dispatchedRevision ≤ new.cursor.dispatchedRevision

structure Stays (old new : FeedAccount) : Prop where
  pk : new.pk = old.pk
  revision : new.cursor.revision = old.cursor.revision
  dispatched : old.cursor.dispatchedRevision ≤ new.cursor.dispatchedRevision

theorem Stays.advances {old new : FeedAccount} (stays : Stays old new) : Advances old new :=
  ⟨stays.pk, .inl stays.revision, stays.dispatched⟩

theorem Stays.refl (account : FeedAccount) : Stays account account := ⟨rfl, rfl, le_refl _⟩

theorem Stays.trans {a b c : FeedAccount} (first : Stays a b) (second : Stays b c) : Stays a c :=
  ⟨second.pk.trans first.pk, second.revision.trans first.revision, first.dispatched.trans second.dispatched⟩

namespace FeedCursor

variable {cursor : FeedCursor}

theorem next_of_room (room : cursor.revision < maxFeedIntentRevision) : cursor.next.revision = cursor.revision + 1 := by
  simp [next, room]

theorem next_revision : cursor.next.revision = cursor.revision ∨ cursor.next.revision = cursor.revision + 1 := by
  by_cases room : cursor.revision < maxFeedIntentRevision
  · exact .inr (next_of_room room)
  · exact .inl (by simp [next, room])

@[simp] theorem next_dispatched : cursor.next.dispatchedRevision = cursor.dispatchedRevision := by
  unfold next
  split <;> rfl

@[simp] theorem reach_revision (captured : ℕ) : (cursor.reach captured).revision = cursor.revision := rfl

theorem dispatched_le_reach (captured : ℕ) : cursor.dispatchedRevision ≤ (cursor.reach captured).dispatchedRevision := by
  have order := cursor.dispatched_le
  simp only [reach]
  omega

theorem reach_own : (cursor.reach cursor.revision).dispatchedRevision = cursor.revision := by
  have order := cursor.dispatched_le
  simp only [reach]
  omega

end FeedCursor

namespace FeedAccount

variable (account : FeedAccount)

theorem advance_advances (dueAt : Option Instant) : Advances account (account.advance dueAt) :=
  ⟨rfl, FeedCursor.next_revision, le_of_eq FeedCursor.next_dispatched.symm⟩

theorem nudge_stays (dueAt : Instant) : Stays account (account.nudge dueAt) := by
  unfold nudge
  split
  · exact .refl account
  · split
    · exact .refl account
    · exact ⟨rfl, rfl, le_refl _⟩

theorem completeFlush_stays (captured : Option ℕ) (completedAt : Instant) (submittedAt : Option Instant) :
    Stays account (account.completeFlush captured completedAt submittedAt) := by
  unfold completeFlush
  cases captured with
  | none => exact ⟨rfl, rfl, le_refl _⟩
  | some captured =>
    dsimp only
    split
    · exact .refl account
    · exact ⟨rfl, rfl, FeedCursor.dispatched_le_reach captured⟩

theorem write_stays (write : AccountWrite) : Stays account (account.write write) := by
  have due (dueAt : Option Instant) : Stays account { account with feedIntentDueAt := dueAt } := ⟨rfl, rfl, le_refl _⟩
  cases write with
  | holdPrivate =>
    simp only [FeedAccount.write]
    split
    · exact due none
    · exact .refl account
  | completeFlush captured completedAt submittedAt => exact account.completeFlush_stays captured completedAt submittedAt
  | holdUnknown => exact ⟨rfl, rfl, le_refl _⟩
  | releaseSafe _ retryAt =>
    simp only [FeedAccount.write]
    split
    · exact due (some retryAt)
    · exact .refl account
  | claimBoundary =>
    simp only [FeedAccount.write]
    split
    · exact .refl account
    · split
      · exact due none
      · exact .refl account
  | repairDeadline captured deadline =>
    cases captured with
    | none => exact .refl account
    | some =>
      simp only [FeedAccount.write]
      split
      · split
        · exact .refl account
        · exact due (some deadline)
      · split
        · exact .refl account
        · split
          · exact .refl account
          · exact due (some deadline)
  | nudge dueAt => exact account.nudge_stays dueAt
  | owner => exact ⟨rfl, rfl, le_refl _⟩
  | createEndpoint =>
    simp only [FeedAccount.write]
    split
    · exact ⟨rfl, rfl, le_refl _⟩
    · exact .refl account

end FeedAccount

/-! ## Dispatches -/

/-- A step of a dispatch outside the passes: a terminal row stays as it is, and no row becomes a recovered one. -/
structure Delivered (old new : BackgroundJobDispatch) : Prop where
  pk : new.pk = old.pk
  terminal : old.status.terminal = true → new = old
  unmarked : new.reasonCode = some .feedIntentRecovered → old.reasonCode = some .feedIntentRecovered

theorem Delivered.refl (row : BackgroundJobDispatch) : Delivered row row := ⟨rfl, fun _ => rfl, id⟩

theorem DispatchWrite.delivered (row : BackgroundJobDispatch) (write : DispatchWrite) (live : row.status.terminal = false) :
    Delivered row (write.apply row) := by
  refine ⟨by cases write <;> rfl, fun terminal => absurd (terminal.symm.trans live) (by decide), fun marked => ?_⟩
  cases write with
  | succeeded => cases marked
  | failed uncertain =>
    cases uncertain with
    | true => cases marked
    | false => exact marked
  | pending => exact marked
  | publishing => exact marked
  | published => exact marked
  | running => exact marked
  | cancelled => exact marked

namespace BackgroundJobDispatch

variable {row : BackgroundJobDispatch}

theorem terminal_of_needsRecovery (needs : row.needsRecovery = true) : row.status.terminal = true := by
  unfold needsRecovery at needs
  split at needs
  · cases needs
  · split at needs
    · cases needs
    · cases status : row.status <;> simp_all [DispatchStatus.terminal]

theorem unmarked_of_needsRecovery (needs : row.needsRecovery = true) : row.reasonCode ≠ some .feedIntentRecovered := by
  intro marked
  unfold needsRecovery at needs
  rw [marked] at needs
  simp [ReasonCode.final] at needs

@[simp] theorem finish_reasonCode {reason : ReasonCode} {source desired : Option ℕ} :
    (row.finish reason source desired).reasonCode = some reason := rfl

end BackgroundJobDispatch

/-! ## The other writers -/

namespace FeedStore

structure Keyed (s : FeedStore) : Prop where
  account_keys : (s.accounts.map FeedAccount.pk).Nodup
  account_bound : ∀ account ∈ s.accounts, account.pk < s.nextAccount
  dispatch_keys : (s.dispatches.map BackgroundJobDispatch.pk).Nodup
  dispatch_bound : ∀ row ∈ s.dispatches, row.pk < s.nextDispatch

structure Written (s later : FeedStore) : Prop where
  keyed : s.Keyed → later.Keyed
  nextAccount : s.nextAccount ≤ later.nextAccount
  nextDispatch : s.nextDispatch ≤ later.nextDispatch
  accounts : ∀ new ∈ later.accounts, (∃ old ∈ s.accounts, Advances old new) ∨ s.nextAccount ≤ new.pk
  dispatches : ∀ new ∈ later.dispatches,
    (∃ old ∈ s.dispatches, Delivered old new) ∨ (s.nextDispatch ≤ new.pk ∧ new.reasonCode = none)
  recoveries : later.recoveries = s.recoveries

variable {s later : FeedStore}

theorem account?_mem {pk : ℕ} {account : FeedAccount} (found : s.account? pk = some account) :
    account ∈ s.accounts ∧ account.pk = pk := by
  unfold account? at found
  exact ⟨List.mem_of_find?_eq_some found, by simpa using List.find?_some found⟩

theorem dispatch?_mem {pk : ℕ} {row : BackgroundJobDispatch} (found : s.dispatch? pk = some row) :
    row ∈ s.dispatches ∧ row.pk = pk := by
  unfold dispatch? at found
  exact ⟨List.mem_of_find?_eq_some found, by simpa using List.find?_some found⟩

theorem account?_of_mem (keyed : s.Keyed) {account : FeedAccount} (mem : account ∈ s.accounts) :
    s.account? account.pk = some account := by
  cases found : s.account? account.pk with
  | none => exact absurd (List.find?_eq_none.mp found account mem) (by simp)
  | some =>
    obtain ⟨there, same⟩ := account?_mem found
    rw [row_unique keyed.account_keys there mem same]

theorem dispatch?_of_mem (keyed : s.Keyed) {row : BackgroundJobDispatch} (mem : row ∈ s.dispatches) :
    s.dispatch? row.pk = some row := by
  cases found : s.dispatch? row.pk with
  | none => exact absurd (List.find?_eq_none.mp found row mem) (by simp)
  | some =>
    obtain ⟨there, same⟩ := dispatch?_mem found
    rw [row_unique keyed.dispatch_keys there mem same]

theorem Written.refl (s : FeedStore) : Written s s where
  keyed := id
  nextAccount := le_refl _
  nextDispatch := le_refl _
  accounts new mem := .inl ⟨new, mem, (Stays.refl new).advances⟩
  dispatches new mem := .inl ⟨new, mem, .refl new⟩
  recoveries := rfl

theorem Written.accounts_only {accounts : List FeedAccount} (rewrites : Rewrites Advances s.accounts accounts) :
    Written s { s with accounts } where
  keyed keyed :=
    { account_keys := by
        have same : accounts.map FeedAccount.pk = s.accounts.map FeedAccount.pk := rewrites.keys fun _ _ step => step.pk
        simpa only [same] using keyed.account_keys
      account_bound := fun new mem => by
        obtain ⟨old, there, step⟩ := rewrites.source mem
        exact step.pk ▸ keyed.account_bound old there
      dispatch_keys := keyed.dispatch_keys
      dispatch_bound := keyed.dispatch_bound }
  nextAccount := le_refl _
  nextDispatch := le_refl _
  accounts _ mem := .inl (rewrites.source mem)
  dispatches new mem := .inl ⟨new, mem, .refl new⟩
  recoveries := rfl

theorem Written.saveAccount (keyed : s.Keyed) {old new : FeedAccount} (mem : old ∈ s.accounts) (step : Advances old new) :
    Written s (s.saveAccount new) :=
  .accounts_only (.put (fun row => (Stays.refl row).advances) keyed.account_keys mem step.pk step)

/-! The scanner. -/

structure Scanned (s later : FeedStore) : Prop where
  accounts : Rewrites Stays s.accounts later.accounts
  nextAccount : later.nextAccount = s.nextAccount
  nextDispatch : s.nextDispatch ≤ later.nextDispatch
  keyed : s.Keyed → later.Keyed
  dispatches : ∀ new ∈ later.dispatches, new ∈ s.dispatches ∨ (s.nextDispatch ≤ new.pk ∧ new.reasonCode = none)
  recoveries : later.recoveries = s.recoveries

theorem Scanned.refl (s : FeedStore) : Scanned s s where
  accounts := .refl .refl s.accounts
  nextAccount := rfl
  nextDispatch := le_refl _
  keyed := id
  dispatches _ mem := .inl mem
  recoveries := rfl

theorem Scanned.trans {last : FeedStore} (first : Scanned s later) (second : Scanned later last) : Scanned s last where
  accounts := first.accounts.trans (fun _ _ _ => .trans) second.accounts
  nextAccount := second.nextAccount.trans first.nextAccount
  nextDispatch := first.nextDispatch.trans second.nextDispatch
  keyed := second.keyed ∘ first.keyed
  dispatches new mem := by
    rcases second.dispatches new mem with before | ⟨fresh, plain⟩
    · exact first.dispatches new before
    · exact .inr ⟨first.nextDispatch.trans fresh, plain⟩
  recoveries := second.recoveries.trans first.recoveries

theorem Scanned.written (scanned : Scanned s later) : Written s later where
  keyed := scanned.keyed
  nextAccount := le_of_eq scanned.nextAccount.symm
  nextDispatch := scanned.nextDispatch
  accounts new mem := by
    obtain ⟨old, there, stays⟩ := scanned.accounts.source mem
    exact .inl ⟨old, there, stays.advances⟩
  dispatches new mem := (scanned.dispatches new mem).imp_left fun there => ⟨new, there, .refl new⟩
  recoveries := scanned.recoveries

theorem scanned_intent {now : Instant} {account current : FeedAccount} (keyed : s.Keyed) (there : current ∈ s.accounts)
    (stays : Stays account current) (sent : dispatchIntent now s account = .ok later) : Scanned s later := by
  have reached : Stays current
      { account with cursor := account.cursor.reach account.cursor.revision, feedIntentDueAt := none } := by
    refine ⟨stays.pk.symm, stays.revision.symm, ?_⟩
    calc current.cursor.dispatchedRevision
      _ ≤ current.cursor.revision := current.cursor.dispatched_le
      _ = account.cursor.revision := stays.revision
      _ = _ := FeedCursor.reach_own.symm
  have rewrites := Rewrites.put Stays.refl keyed.account_keys there reached.pk reached
  have saved := (Written.saveAccount keyed there reached.advances).keyed keyed
  unfold dispatchIntent at sent
  dsimp only at sent
  split at sent
  · split at sent
    · cases sent
      exact ⟨rewrites, rfl, le_refl _, fun _ => saved, fun _ mem => .inl mem, rfl⟩
    · cases sent
  · cases sent
    refine ⟨rewrites, rfl, Nat.le_succ _, fun _ => ⟨saved.account_keys, saved.account_bound, ?_, fun row mem => ?_⟩,
      fun row mem => ?_, rfl⟩
    · rw [List.map_append]
      refine List.nodup_append.mpr ⟨keyed.dispatch_keys, List.nodup_singleton _, fun pk old other new => ?_⟩
      obtain ⟨row, mem, rfl⟩ := List.mem_map.mp old
      rw [List.mem_singleton.mp new]
      exact Nat.ne_of_lt (keyed.dispatch_bound row mem)
    · rcases List.mem_append.mp mem with old | new
      · exact Nat.lt_succ_of_lt (keyed.dispatch_bound row old)
      · rw [List.mem_singleton.mp new]
        exact Nat.lt_succ_self _
    · refine (List.mem_append.mp mem).imp_right fun new => ?_
      rw [List.mem_singleton.mp new]
      exact ⟨le_refl _, rfl⟩

theorem scanned_fold {now : Instant} {selected : List FeedAccount} (keyed : s.Keyed)
    (known : ∀ account ∈ selected, ∃ current ∈ s.accounts, Stays account current)
    (sent : selected.foldlM (dispatchIntent now) s = .ok later) : Scanned s later := by
  induction selected generalizing s with
  | nil =>
    cases sent
    exact .refl _
  | cons account _ ih =>
    rw [List.foldlM_cons] at sent
    obtain ⟨_, first, others⟩ := bind_ok.mp sent
    obtain ⟨current, there, stays⟩ := known account List.mem_cons_self
    have one := scanned_intent keyed there stays first
    refine one.trans (ih (one.keyed keyed) (fun other mem => ?_) others)
    obtain ⟨_, held, same⟩ := known other (List.mem_cons_of_mem _ mem)
    obtain ⟨after, kept, step⟩ := one.accounts.kept held
    exact ⟨after, kept, same.trans step⟩

theorem written_bump {ids : List ℕ} {observedAt : Instant} (bumped : s.bumpFeedIntents ids observedAt = .ok (later, ())) :
    Written s later := by
  obtain ⟨_, -, bumped⟩ := bind_ok.mp bumped
  obtain ⟨_, -, bumped⟩ := bind_ok.mp bumped
  obtain ⟨_, -, bumped⟩ := bind_ok.mp bumped
  cases bumped
  refine .accounts_only ⟨_, rfl, fun account _ => ?_⟩
  split
  · exact account.advance_advances _
  · exact (Stays.refl account).advances

theorem written_filter (keeps : FeedAccount → Bool) (keepsRow : BackgroundJobDispatch → Bool) :
    Written s { s with accounts := s.accounts.filter keeps, dispatches := s.dispatches.filter keepsRow } where
  keyed keyed :=
    { account_keys := keyed.account_keys.sublist (List.filter_sublist.map _)
      account_bound := fun account mem => keyed.account_bound account (List.mem_of_mem_filter mem)
      dispatch_keys := keyed.dispatch_keys.sublist (List.filter_sublist.map _)
      dispatch_bound := fun row mem => keyed.dispatch_bound row (List.mem_of_mem_filter mem) }
  nextAccount := le_refl _
  nextDispatch := le_refl _
  accounts new mem := .inl ⟨new, List.mem_of_mem_filter mem, (Stays.refl new).advances⟩
  dispatches new mem := .inl ⟨new, List.mem_of_mem_filter mem, .refl new⟩
  recoveries := rfl

theorem written_create (isActive tenantActive isAvito : Bool) :
    Written s (s.next (.createAccount isActive tenantActive isAvito)) where
  keyed keyed :=
    { account_keys := by
        change ((s.accounts ++ [_]).map FeedAccount.pk).Nodup
        rw [List.map_append]
        refine List.nodup_append.mpr ⟨keyed.account_keys, List.nodup_singleton _, fun pk old other new => ?_⟩
        obtain ⟨account, mem, rfl⟩ := List.mem_map.mp old
        rw [List.mem_singleton.mp new]
        exact Nat.ne_of_lt (keyed.account_bound account mem)
      account_bound := fun account mem => by
        rcases List.mem_append.mp mem with old | new
        · exact Nat.lt_succ_of_lt (keyed.account_bound account old)
        · rw [List.mem_singleton.mp new]
          exact Nat.lt_succ_self _
      dispatch_keys := keyed.dispatch_keys
      dispatch_bound := keyed.dispatch_bound }
  nextAccount := Nat.le_succ _
  nextDispatch := le_refl _
  accounts new mem := by
    rcases List.mem_append.mp mem with old | fresh
    · exact .inl ⟨new, old, (Stays.refl new).advances⟩
    · rw [List.mem_singleton.mp fresh]
      exact .inr (le_refl _)
  dispatches new mem := .inl ⟨new, mem, .refl new⟩
  recoveries := rfl

theorem written_deliver (keyed : s.Keyed) {row new : BackgroundJobDispatch} (mem : row ∈ s.dispatches)
    (delivered : Delivered row new) : Written s (s.saveDispatch new) where
  keyed keyed :=
    { account_keys := keyed.account_keys
      account_bound := keyed.account_bound
      dispatch_keys := by simpa only [saveDispatch, map_key_put] using keyed.dispatch_keys
      dispatch_bound := fun other there => by
        rcases mem_put.mp there with ⟨rfl, old, held, same⟩ | ⟨held, -⟩
        · exact same ▸ keyed.dispatch_bound old held
        · exact keyed.dispatch_bound other held }
  nextAccount := le_refl _
  nextDispatch := le_refl _
  accounts new mem := .inl ⟨new, mem, (Stays.refl new).advances⟩
  dispatches _ there :=
    .inl ((Rewrites.put Delivered.refl keyed.dispatch_keys mem delivered.pk delivered).source there)
  recoveries := rfl

theorem written_next (keyed : s.Keyed) (event : FeedEvent) : Written s (s.next event) := by
  cases event with
  | bump => exact commit_relates Written _ _ (.refl s) fun _ _ bumped => written_bump bumped
  | account pk write =>
    cases found : s.account? pk with
    | none => simpa only [next, found] using Written.refl s
    | some account =>
      simpa only [next, found] using Written.saveAccount keyed (account?_mem found).1 (account.write_stays write).advances
  | dispatchDue =>
    refine commit_relates Written _ _ (.refl s) fun later _ sent => ?_
    obtain ⟨_, scanned, done⟩ := bind_ok.mp sent
    cases done
    refine (scanned_fold keyed (fun account mem => ?_) scanned).written
    have there : account ∈ s.accounts := List.mem_of_mem_filter ((List.mem_insertionSort _).mp (List.mem_of_mem_take mem))
    exact ⟨account, there, .refl account⟩
  | deliver pk write =>
    cases found : s.dispatch? pk with
    | none => simpa only [next, found] using Written.refl s
    | some row =>
      simp only [next, found]
      split
      · exact .refl s
      · exact written_deliver keyed (dispatch?_mem found).1 (write.delivered row (Bool.eq_false_of_not_eq_true ‹_›))
  | purgeDispatch => simpa [next] using written_filter (s := s) (fun _ => true) _
  | createAccount isActive tenantActive isAvito => exact written_create isActive tenantActive isAvito
  | purgeAccount => simpa [next] using written_filter (s := s) _ (fun _ => true)

end FeedStore

/-! ## The passes -/

structure Recoverable (row : BackgroundJobDispatch) (owner : FeedAccount) (source : ℕ) : Prop where
  needs : row.needsRecovery = true
  first : row.arg 0 = some owner.pk
  second : row.arg 1 = some source
  live : owner.inactive = false
  synced : owner.drifted = false
  current : owner.cursor.dispatchedRevision = source
  activated : row.resultStatus ≠ some .notActivated
  room : owner.cursor.revision = source → owner.exhausted = false

inductive Followed (recoveryTime : Instant) (owner : FeedAccount) (source : ℕ) : Followup → FeedAccount → Prop where
  | successor (desired : owner.cursor.revision = source) :
      Followed recoveryTime owner source .successor (owner.advance (some recoveryTime))
  | nudge (desired : source < owner.cursor.revision) :
      Followed recoveryTime owner source .nudge (owner.nudge recoveryTime)

namespace FeedStore

variable {s later : FeedStore} {recoveryTime : Instant}

def recovered (s : FeedStore) (row : BackgroundJobDispatch) (source : ℕ) (followup : Followup) (owner : FeedAccount) : FeedStore :=
  { (s.saveAccount owner).saveDispatch (row.finish .feedIntentRecovered (some source) (some owner.cursor.revision)) with
    recoveries :=
      { dispatch := row.pk, account := owner.pk, source, desired := owner.cursor.revision, followup } :: s.recoveries }

variable {row : BackgroundJobDispatch} {owner : FeedAccount} {source : ℕ}

theorem followUp_recovers (recoveryTime : Instant)
    (found : s.account? owner.pk = some owner) (recoverable : Recoverable row owner source) : ∃ followup after, Followed recoveryTime owner source followup after ∧
      followUp recoveryTime owner source s = .ok (s.saveAccount after, followup, after.cursor.revision) := by
  have current := recoverable.current
  by_cases desired : owner.cursor.revision = source
  · refine ⟨.successor, _, .successor desired, ?_⟩
    have exhausted := recoverable.room desired
    simp [followUp, rearmFeedIntent, found, orRaise, raiseIf, recoverable.synced, exhausted, desired, current, bind, Except.bind]
  · have order := owner.cursor.dispatched_le
    have pending : source < owner.cursor.revision := by omega
    refine ⟨.nudge, _, .nudge pending, ?_⟩
    have same := (owner.nudge_stays recoveryTime).revision
    simp [followUp, nudgeUndispatched, found, orRaise, desired, current, pending, same, bind, Except.bind]

theorem recoverLocked_recoverable (recoveryTime : Instant)
    (found : s.account? owner.pk = some owner) (recoverable : Recoverable row owner source) :
    ∃ followup after, Followed recoveryTime owner source followup after ∧
      recoverLocked recoveryTime owner source row s = s.recovered row source followup after := by
  obtain ⟨followup, after, followed, follows⟩ := followUp_recovers recoveryTime found recoverable
  refine ⟨followup, after, followed, ?_⟩
  have order := owner.cursor.dispatched_le
  have same : owner.pk = after.pk := by
    cases followed with
    | successor => rfl
    | nudge => exact (owner.nudge_stays recoveryTime).pk.symm
  have ordered : ¬ owner.cursor.revision < source := by
    rw [← recoverable.current]
    omega
  rw [recovered, ← same]
  simp [recoverLocked, recoverable.live, recoverable.synced, recoverable.current, ordered, recoverable.activated, follows]

theorem recover_recoverable (recoveryTime : Instant) (keyed : s.Keyed)
    (mem : row ∈ s.dispatches) (there : owner ∈ s.accounts) (recoverable : Recoverable row owner source) :
    ∃ followup after, Followed recoveryTime owner source followup after ∧
      s.recover recoveryTime row.pk owner.pk source = s.recovered row source followup after := by
  have found := account?_of_mem keyed there
  have locked := recoverLocked_recoverable recoveryTime found recoverable
  rw [recover, found, dispatch?_of_mem keyed mem]
  dsimp only
  rwa [if_pos ⟨recoverable.needs, recoverable.first, recoverable.second⟩]

inductive Handled (recoveryTime : Instant) (s : FeedStore) : ℕ → FeedStore → Prop where
  | quiet {dispatch : ℕ} : Handled recoveryTime s dispatch s
  | rewritten {row new : BackgroundJobDispatch} (mem : row ∈ s.dispatches) (needs : row.needsRecovery = true)
      (pk : new.pk = row.pk) (status : new.status = row.status) (unmarked : new.reasonCode ≠ some .feedIntentRecovered) :
      Handled recoveryTime s row.pk (s.saveDispatch new)
  | recovered {row : BackgroundJobDispatch} {owner after : FeedAccount} {source : ℕ} {followup : Followup}
      (mem : row ∈ s.dispatches) (there : owner ∈ s.accounts) (recoverable : Recoverable row owner source)
      (followed : Followed recoveryTime owner source followup after) :
      Handled recoveryTime s row.pk (s.recovered row source followup after)

theorem Handled.postpone (mem : row ∈ s.dispatches) (needs : row.needsRecovery = true)
    (availableAt : Instant) : Handled recoveryTime s row.pk (s.saveDispatch (row.postpone availableAt)) :=
  .rewritten mem needs rfl rfl (BackgroundJobDispatch.unmarked_of_needsRecovery needs)

theorem Handled.finish (mem : row ∈ s.dispatches) (needs : row.needsRecovery = true)
    {reason : ReasonCode} (other : reason ≠ .feedIntentRecovered) (source desired : Option ℕ) :
    Handled recoveryTime s row.pk (s.saveDispatch (row.finish reason source desired)) :=
  .rewritten mem needs rfl rfl fun marked => other (Option.some.inj marked)

theorem room_of_followUp {result : FeedStore × Followup × ℕ}
    (found : s.account? owner.pk = some owner) (current : owner.cursor.dispatchedRevision = source)
    (follows : followUp recoveryTime owner source s = .ok result) (desired : owner.cursor.revision = source) :
    owner.exhausted = false := by
  by_contra full
  rw [Bool.not_eq_false] at full
  by_cases synced : owner.drifted = true
  · simp [followUp, rearmFeedIntent, found, orRaise, raiseIf, desired, current, synced, bind, Except.bind] at follows
  · simp [followUp, rearmFeedIntent, found, orRaise, raiseIf, desired, current, synced, full, bind, Except.bind] at follows

theorem recoverLocked_handled (keyed : s.Keyed)
    (mem : row ∈ s.dispatches) (there : owner ∈ s.accounts) (needs : row.needsRecovery = true)
    (first : row.arg 0 = some owner.pk) (second : row.arg 1 = some source) :
    Handled recoveryTime s row.pk (recoverLocked recoveryTime owner source row s) := by
  have found := account?_of_mem keyed there
  by_cases recoverable : Recoverable row owner source
  · obtain ⟨_, _, followed, made⟩ := recoverLocked_recoverable recoveryTime found recoverable
    exact made ▸ .recovered mem there recoverable followed
  · unfold recoverLocked
    dsimp only
    split
    · exact .postpone mem needs _
    next ready =>
      split
      · exact .finish mem needs (by decide) _ _
      next current =>
        split
        · exact .postpone mem needs _
        next ordered =>
          split
          · exact .postpone mem needs _
          next activated =>
            cases follows : followUp recoveryTime owner source s with
            | error failure => cases failure <;> first | exact .quiet | exact .postpone mem needs _
            | ok =>
              -- a follow-up that succeeds is one of a recoverable dispatch
              have dispatched : owner.cursor.dispatchedRevision = source := by omega
              refine absurd ?_ recoverable
              exact
                { needs, first, second
                  live := Bool.eq_false_of_not_eq_true fun inactive => ready (by simp [inactive])
                  synced := Bool.eq_false_of_not_eq_true fun drifted => ready (by simp [drifted])
                  current := dispatched
                  activated
                  room := room_of_followUp found dispatched follows }

theorem recover_handled (keyed : s.Keyed) (dispatch account source : ℕ) :
    Handled recoveryTime s dispatch (s.recover recoveryTime dispatch account source) := by
  unfold recover
  cases found : s.dispatch? dispatch with
  | none => cases s.account? account <;> exact .quiet
  | some =>
    obtain ⟨mem, rfl⟩ := dispatch?_mem found
    cases owned : s.account? account with
    | none =>
      dsimp only
      split
      next needs => exact .finish mem needs (by decide) _ _
      next => exact .quiet
    | some =>
      obtain ⟨there, rfl⟩ := account?_mem owned
      dsimp only
      split
      next checked => exact recoverLocked_handled keyed mem there checked.1 checked.2.1 checked.2.2
      next => exact .quiet

theorem closeInvalid_handled (dispatch : ℕ) : Handled recoveryTime s dispatch (s.closeInvalid dispatch) := by
  unfold closeInvalid
  cases found : s.dispatch? dispatch with
  | none => exact .quiet
  | some =>
    obtain ⟨mem, rfl⟩ := dispatch?_mem found
    dsimp only
    split
    next needs => exact .finish mem needs (by decide) _ _
    next => exact .quiet

end FeedStore

def RecoveryPass.time : RecoveryPass → Instant → Instant
  | .select _, now => now
  | .scan recoveryTime _, _ | .close recoveryTime _ _, _ | .recover recoveryTime _ _ _ _, _ => recoveryTime

theorem RecoveryPass.handled {s : FeedStore} (keyed : s.Keyed) (pass : RecoveryPass) (now : Instant) :
    ∃ dispatch, FeedStore.Handled (pass.time now) s dispatch (pass.advance now s).1 := by
  cases pass with
  | select => exact ⟨0, .quiet⟩
  | scan _ candidates =>
    refine ⟨0, ?_⟩
    cases candidates with
    | nil => exact .quiet
    | cons dispatch =>
      simp only [advance]
      cases s.dispatch? dispatch <;> exact .quiet
  | close _ dispatch => exact ⟨dispatch, FeedStore.closeInvalid_handled dispatch⟩
  | recover _ dispatch account source =>
    exact ⟨dispatch, FeedStore.recover_handled keyed dispatch account source⟩

/-! ## Runs -/

namespace Followed

variable {recoveryTime : Instant} {owner after : FeedAccount} {source : ℕ} {followup : Followup}

theorem advances (followed : Followed recoveryTime owner source followup after) : Advances owner after := by
  cases followed with
  | successor => exact owner.advance_advances _
  | nudge => exact (owner.nudge_stays recoveryTime).advances

theorem pending (followed : Followed recoveryTime owner source followup after)
    (room : owner.cursor.revision = source → owner.exhausted = false) : source < after.cursor.revision := by
  cases followed with
  | successor desired =>
    have spare : owner.cursor.revision < maxFeedIntentRevision := by simpa [FeedAccount.exhausted] using room desired
    have raised : (owner.advance (some recoveryTime)).cursor.revision = owner.cursor.revision + 1 := FeedCursor.next_of_room spare
    omega
  | nudge desired => exact desired.trans_eq (owner.nudge_stays recoveryTime).revision.symm

end Followed

def Recovery.successor? (recovery : Recovery) : Option (ℕ × ℕ) :=
  match recovery.followup with
  | .successor => some (recovery.account, recovery.source)
  | .nudge => none

def Recovery.result (recovery : Recovery) : DispatchResult :=
  { status := none, reasonCode := some .feedIntentRecovered, sourceRevision := some recovery.source,
    desiredRevision := some recovery.desired }

namespace FeedStore

/-- A recovered dispatch stays closed and its account stays past the recovered revision. -/
structure Sound (s : FeedStore) : Prop where
  keyed : s.Keyed
  once : (s.recoveries.map Recovery.dispatch).Nodup
  closed : ∀ recovery ∈ s.recoveries, recovery.dispatch < s.nextDispatch ∧
    ∀ row ∈ s.dispatches, row.pk = recovery.dispatch → row.status.terminal = true ∧ row.result = some recovery.result
  passed : ∀ recovery ∈ s.recoveries, recovery.account < s.nextAccount ∧
    ∀ account ∈ s.accounts, account.pk = recovery.account →
      recovery.source ≤ account.cursor.dispatchedRevision ∧ recovery.source < account.cursor.revision
  successors : (s.recoveries.filterMap Recovery.successor?).Nodup

variable {s later : FeedStore} {recoveryTime : Instant}

theorem Sound.written (sound : s.Sound) (written : Written s later) : later.Sound where
  keyed := written.keyed sound.keyed
  once := written.recoveries ▸ sound.once
  closed recovery mem := by
    obtain ⟨bound, closed⟩ := sound.closed recovery (written.recoveries ▸ mem)
    refine ⟨bound.trans_le written.nextDispatch, fun row there same => ?_⟩
    rcases written.dispatches row there with ⟨old, held, delivered⟩ | ⟨fresh, -⟩
    · have before := closed old held (delivered.pk.symm.trans same)
      rwa [delivered.terminal before.1]
    · omega
  passed recovery mem := by
    obtain ⟨bound, passed⟩ := sound.passed recovery (written.recoveries ▸ mem)
    refine ⟨bound.trans_le written.nextAccount, fun account there same => ?_⟩
    rcases written.accounts account there with ⟨old, held, advances⟩ | fresh
    · obtain ⟨dispatched, _⟩ := passed old held (advances.pk.symm.trans same)
      have raised := advances.revision
      exact ⟨dispatched.trans advances.dispatched, by omega⟩
    · omega
  successors := written.recoveries ▸ sound.successors

theorem keyed_saveDispatch (keyed : s.Keyed) {row new : BackgroundJobDispatch} (mem : row ∈ s.dispatches)
    (same : new.pk = row.pk) : (s.saveDispatch new).Keyed where
  account_keys := keyed.account_keys
  account_bound := keyed.account_bound
  dispatch_keys := by simpa only [saveDispatch, map_key_put] using keyed.dispatch_keys
  dispatch_bound other there := by
    rcases mem_put.mp there with ⟨rfl, -⟩ | ⟨held, -⟩
    · exact same ▸ keyed.dispatch_bound row mem
    · exact keyed.dispatch_bound other held

variable {row : BackgroundJobDispatch}

theorem keyed_recovered (keyed : s.Keyed) {owner after : FeedAccount} (mem : row ∈ s.dispatches)
    (there : owner ∈ s.accounts) (advances : Advances owner after) (source : ℕ) (followup : Followup) :
    (s.recovered row source followup after).Keyed := by
  have saved : (s.saveAccount after).Keyed := (Written.saveAccount keyed there advances).keyed keyed
  have closed : ((s.saveAccount after).saveDispatch
      (row.finish .feedIntentRecovered (some source) (some after.cursor.revision))).Keyed := keyed_saveDispatch saved mem rfl
  exact ⟨closed.account_keys, closed.account_bound, closed.dispatch_keys, closed.dispatch_bound⟩

theorem Sound.unrecovered (sound : s.Sound) (mem : row ∈ s.dispatches)
    (needs : row.needsRecovery = true) : ∀ recovery ∈ s.recoveries, recovery.dispatch ≠ row.pk := by
  intro recovery there same
  have closed := ((sound.closed recovery there).2 row mem same.symm).2
  exact BackgroundJobDispatch.unmarked_of_needsRecovery needs (by simp [BackgroundJobDispatch.reasonCode, closed, Recovery.result])

theorem Sound.rewritten (sound : s.Sound) {row new : BackgroundJobDispatch} (mem : row ∈ s.dispatches)
    (needs : row.needsRecovery = true) (pk : new.pk = row.pk) : (s.saveDispatch new).Sound where
  keyed := keyed_saveDispatch sound.keyed mem pk
  once := sound.once
  closed recovery there := by
    refine ⟨(sound.closed recovery there).1, fun other held same => ?_⟩
    rcases mem_put.mp held with ⟨rfl, -⟩ | ⟨held, -⟩
    · exact absurd (same.symm.trans pk) (sound.unrecovered mem needs recovery there)
    · exact (sound.closed recovery there).2 other held same
  passed := sound.passed
  successors := sound.successors

theorem Sound.recovered (sound : s.Sound) {owner after : FeedAccount} {source : ℕ}
    {followup : Followup} (mem : row ∈ s.dispatches) (there : owner ∈ s.accounts) (recoverable : Recoverable row owner source)
    (followed : Followed recoveryTime owner source followup after) : (s.recovered row source followup after).Sound := by
  have advances := followed.advances
  have pending := followed.pending recoverable.room
  have unrecovered := sound.unrecovered mem recoverable.needs
  refine ⟨keyed_recovered sound.keyed mem there advances source followup, ?_, fun recovery made => ?_, fun recovery made => ?_, ?_⟩
  · refine List.nodup_cons.mpr ⟨fun again => ?_, sound.once⟩
    obtain ⟨recovery, made, same⟩ := List.mem_map.mp again
    exact unrecovered recovery made same
  · rcases List.mem_cons.mp made with rfl | before
    · refine ⟨sound.keyed.dispatch_bound row mem, fun other held same => ?_⟩
      rcases mem_put.mp held with ⟨rfl, -⟩ | ⟨-, miss⟩
      · have terminal := BackgroundJobDispatch.terminal_of_needsRecovery recoverable.needs
        exact ⟨terminal, rfl⟩
      · exact absurd same miss
    · refine ⟨(sound.closed recovery before).1, fun other held same => ?_⟩
      rcases mem_put.mp held with ⟨rfl, -⟩ | ⟨held, -⟩
      · exact absurd same.symm (unrecovered recovery before)
      · exact (sound.closed recovery before).2 other held same
  · rcases List.mem_cons.mp made with rfl | before
    · refine ⟨advances.pk.trans_lt (sound.keyed.account_bound owner there), fun account held same => ?_⟩
      rcases mem_put.mp held with ⟨rfl, -⟩ | ⟨-, miss⟩
      · exact ⟨recoverable.current.symm.trans_le advances.dispatched, pending⟩
      · exact absurd same miss
    · obtain ⟨bound, passed⟩ := sound.passed recovery before
      refine ⟨bound, fun account held same => ?_⟩
      rcases mem_put.mp held with ⟨rfl, -⟩ | ⟨held, -⟩
      · obtain ⟨dispatched, desired⟩ := passed owner there (advances.pk.symm.trans same)
        have raised := advances.revision
        exact ⟨dispatched.trans advances.dispatched, by omega⟩
      · exact passed account held same
  · cases followed with
    | nudge => exact sound.successors
    | successor desired =>
      -- an earlier successor of the same revision has raised the desired revision past it
      refine List.nodup_cons.mpr ⟨fun again => ?_, sound.successors⟩
      obtain ⟨recovery, made, same⟩ := List.mem_filterMap.mp again
      unfold Recovery.successor? at same
      split at same
      · obtain ⟨account, revision⟩ := Prod.mk.inj (Option.some.inj same)
        have passed := ((sound.passed recovery made).2 owner there account.symm).2
        rw [revision, desired] at passed
        exact absurd passed (lt_irrefl _)
      · cases same

theorem Sound.handled {dispatch : ℕ} (sound : s.Sound) (handled : Handled recoveryTime s dispatch later) : later.Sound := by
  cases handled with
  | quiet => exact sound
  | rewritten mem needs pk => exact sound.rewritten mem needs pk
  | recovered mem there recoverable followed => exact sound.recovered mem there recoverable followed

end FeedStore

end MapBackend.Marketplaces.FeedIntent
