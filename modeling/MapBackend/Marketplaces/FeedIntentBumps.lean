import MapBackend.AIAgent.ProviderOperations
import MapBackend.Marketplaces.FeedIntents
import Mathlib.Data.List.Dedup

/-!
One call of `bump_feed_intents` with the ids as its caller gives them: the ids are put in order, the rows are locked
and checked, and only then is anything written.
-/

namespace MapBackend.Marketplaces.FeedIntent
open MapBackend.Library MapBackend.Core

inductive IdValue where
  | bool (b : Bool)
  | shown (text : Text)
  deriving DecidableEq

inductive BumpError where
  /-- The call is not inside a transaction. -/
  | runtimeError
  | naiveObservedAt
  | accountIds
  | doesNotExist (missing : List ℕ)
  | revisionDrift (pk : ℕ)
  | overflow (pk : ℕ)
  deriving DecidableEq

def maxStrDigits : ℕ := 4300

def accountId : IdValue → Except BumpError ℕ
  | .bool _ => .error .accountIds
  | .shown text =>
    match if maxStrDigits < text.length then none else AIAgent.intOf text with
    | none => .error .accountIds
    | some normalized =>
      if normalized ≤ 0 ∨ (toString normalized).toList ≠ text then .error .accountIds else .ok normalized.toNat

def normalizedAccountIds (values : List IdValue) : Except BumpError (List ℕ) := do
  let ids ← values.mapM accountId
  .ok (ids.dedup.insertionSort (· ≤ ·))

def FeedStore.rowsOf (s : FeedStore) (ids : List ℕ) : List FeedAccount :=
  (s.accounts.filter fun account => ids.contains account.pk).insertionSort fun a b => a.pk ≤ b.pk

def lockAccounts (ids : List ℕ) (s : FeedStore) : Except BumpError (List FeedAccount) := do
  let accounts := s.rowsOf ids
  let foundIds := accounts.map FeedAccount.pk
  raiseIf (foundIds ≠ ids) (.doesNotExist (ids.filter fun id => !foundIds.contains id))
  .ok accounts

def refuseFirst (refused : FeedAccount → Bool) (error : ℕ → BumpError) (accounts : List FeedAccount) : Except BumpError Unit :=
  match accounts.find? refused with
  | some account => .error (error account.pk)
  | none => .ok ()

def lockSynchronizedEndpoints : List FeedAccount → Except BumpError Unit := refuseFirst FeedAccount.drifted .revisionDrift

/-- `_assert_revision_can_advance` of every account. -/
def assertRevisionsCanAdvance : List FeedAccount → Except BumpError Unit := refuseFirst FeedAccount.exhausted .overflow

def FeedStore.writeAccounts (s : FeedStore) (accounts : List FeedAccount) : FeedStore := accounts.foldl FeedStore.saveAccount s

/-- `bump_feed_intents`: the new revisions by account. `none` is an instant without a time zone. -/
def FeedStore.bumpIntents (inAtomicBlock : Bool) (values : List IdValue) (observedAt : Option Instant) (s : FeedStore) :
    Except BumpError (FeedStore × List (ℕ × ℕ)) := do
  raiseIf (inAtomicBlock = false) .runtimeError
  let observedAt ← orRaise .naiveObservedAt observedAt
  let ids ← normalizedAccountIds values
  let accounts ← lockAccounts ids s
  lockSynchronizedEndpoints accounts
  assertRevisionsCanAdvance accounts
  let bumped := accounts.map fun account => account.bump observedAt
  .ok (s.writeAccounts bumped, bumped.map fun account => (account.pk, account.cursor.revision))

/-- What the bump does to an account: the next revision, a due time that is no later than it was and that is set to
nothing earlier than the window allows. -/
structure Bumped (observedAt : Instant) (old new : FeedAccount) : Prop where
  revision : new.cursor.revision = old.cursor.revision + 1
  dispatched : new.cursor.dispatchedRevision = old.cursor.dispatchedRevision
  endpoint : new.sourceIntentRevision = old.sourceIntentRevision.map fun _ => new.cursor.revision
  rest : { new with
    cursor := old.cursor
    feedIntentDueAt := old.feedIntentDueAt
    sourceIntentRevision := old.sourceIntentRevision } = old
  never_postponed : ∀ due ∈ old.feedIntentDueAt, ∃ sooner ∈ new.feedIntentDueAt, sooner ≤ due
  never_too_early : ∀ due ∈ new.feedIntentDueAt, due ∈ old.feedIntentDueAt ∨
    observedAt ≤ due ∧ ∀ flushedAt ∈ old.lastFeedFlushAt, flushedAt + hour ≤ due
  held : new.feedIntentDueAt = none ↔ old.held = true

section Rows

variable {s : FeedStore} {observedAt : Instant}

def FeedAccount.candidate (account : FeedAccount) (observedAt : Instant) : Instant :=
  match account.lastFeedFlushAt with
  | none => observedAt
  | some flushedAt => max observedAt (flushedAt + hour)

theorem candidate_window (account : FeedAccount) (observedAt : Instant) :
    observedAt ≤ account.candidate observedAt ∧ ∀ flushedAt ∈ account.lastFeedFlushAt, flushedAt + hour ≤ account.candidate observedAt := by
  unfold FeedAccount.candidate
  cases account.lastFeedFlushAt with
  | none => exact ⟨le_rfl, fun _ mem => by cases mem⟩
  | some =>
    refine ⟨le_max_left _ _, fun other mem => ?_⟩
    obtain rfl := Option.some.inj mem
    exact le_max_right _ _

theorem bump_dueAt (account : FeedAccount) (observedAt : Instant) : (account.bump observedAt).feedIntentDueAt =
    if account.held then none
    else match account.feedIntentDueAt with
      | none => some (account.candidate observedAt)
      | some dueAt => some (min dueAt (account.candidate observedAt)) := rfl

theorem bump_bumped {account : FeedAccount} (room : account.exhausted = false) : Bumped observedAt account (account.bump observedAt) := by
  have below : account.cursor.revision < maxFeedIntentRevision := Nat.lt_of_not_le (of_decide_eq_false room)
  have cursor : account.cursor.next.revision = account.cursor.revision + 1 ∧
      account.cursor.next.dispatchedRevision = account.cursor.dispatchedRevision := by
    rw [FeedCursor.next, dif_pos below]
    exact ⟨rfl, rfl⟩
  obtain ⟨observed, window⟩ := candidate_window account observedAt
  refine ⟨cursor.1, cursor.2, rfl, rfl, fun due mem => ?_, fun due mem => ?_, ?_⟩
  · -- an account with a due time is not held
    have open' : account.held = false := by
      rw [FeedAccount.held, Option.mem_def.mp mem, Option.isNone_some, Bool.and_false]
    rw [bump_dueAt, open', Option.mem_def.mp mem, if_neg Bool.false_ne_true]
    exact ⟨_, rfl, min_le_left _ _⟩
  · rw [bump_dueAt] at mem
    split at mem
    · cases mem
    · cases known : account.feedIntentDueAt with
      | none =>
        rw [known] at mem
        obtain rfl := Option.some.inj mem
        exact .inr ⟨observed, window⟩
      | some dueAt =>
        rw [known] at mem
        obtain rfl := Option.some.inj mem
        rcases min_choice dueAt (account.candidate observedAt) with sooner | later
        · exact .inl (by rw [sooner]; rfl)
        · exact .inr (by rw [later]; exact ⟨observed, window⟩)
  · rw [bump_dueAt]
    constructor
    · intro none
      by_contra free
      rw [if_neg free] at none
      split at none
      · cases none
      · cases none
    · exact fun held => if_pos held

theorem writeAccounts_map {rows : List FeedAccount} {f : FeedAccount → FeedAccount} (same : ∀ account, (f account).pk = account.pk)
    (keys : (s.accounts.map FeedAccount.pk).Nodup) (sub : rows ⊆ s.accounts) (once : (rows.map FeedAccount.pk).Nodup) :
    s.writeAccounts (rows.map f) =
      { s with accounts := s.accounts.map fun account => if account.pk ∈ rows.map FeedAccount.pk then f account else account } := by
  induction rows generalizing s with
  | nil => simp [FeedStore.writeAccounts]
  | cons first rest ih =>
    obtain ⟨fresh, once⟩ := List.nodup_cons.mp once
    have mem : first ∈ s.accounts := sub List.mem_cons_self
    have others : rest ⊆ (s.saveAccount (f first)).accounts := by
      intro account inside
      refine mem_put.mpr (.inr ⟨sub (List.mem_cons_of_mem _ inside), fun equal => fresh ?_⟩)
      exact (equal.trans (same first)) ▸ List.mem_map_of_mem inside
    have keys' : ((s.saveAccount (f first)).accounts.map FeedAccount.pk).Nodup := by
      simpa only [FeedStore.saveAccount, map_key_put] using keys
    refine (ih keys' others once).trans (congrArg (fun accounts => { s with accounts }) ?_)
    show (put FeedAccount.pk (f first) s.accounts).map _ = _
    rw [put, List.map_map]
    apply List.map_congr_left
    intro account inside
    rw [Function.comp_apply, same]
    by_cases hit : account.pk = first.pk
    · obtain rfl := row_unique keys inside mem hit
      rw [if_pos rfl, same, if_neg fresh, if_pos (by simp)]
    · have shape : account.pk ∈ (first :: rest).map FeedAccount.pk ↔ account.pk ∈ rest.map FeedAccount.pk :=
        List.mem_cons.trans (or_iff_right hit)
      rw [if_neg hit]
      simp only [shape]

theorem mem_rowsOf {ids : List ℕ} {account : FeedAccount} : account ∈ s.rowsOf ids ↔ account ∈ s.accounts ∧ account.pk ∈ ids := by
  rw [FeedStore.rowsOf, List.mem_insertionSort, List.mem_filter, List.contains_iff_mem]

theorem lockAccounts_ok {ids : List ℕ} {accounts : List FeedAccount} (locked : lockAccounts ids s = .ok accounts) :
    accounts.map FeedAccount.pk = ids ∧ accounts ⊆ s.accounts ∧
      (∀ account ∈ s.accounts, account.pk ∈ ids → account ∈ accounts) := by
  simp only [lockAccounts, bind_ok, raiseIf_ok, not_not] at locked
  obtain ⟨-, found, same⟩ := locked
  cases same
  exact ⟨found, fun account mem => (mem_rowsOf.mp mem).1, fun account mem known => mem_rowsOf.mpr ⟨mem, known⟩⟩

theorem refuseFirst_ok {refused : FeedAccount → Bool} {error : ℕ → BumpError} {accounts : List FeedAccount} :
    refuseFirst refused error accounts = .ok () ↔ ∀ account ∈ accounts, refused account = false := by
  unfold refuseFirst
  constructor
  · intro passed
    split at passed
    · cases passed
    · next none =>
      intro account mem
      exact Bool.not_eq_true _ ▸ List.find?_eq_none.mp none account mem
  · intro free
    have none : accounts.find? refused = none := List.find?_eq_none.mpr fun account mem => by rw [free account mem]; decide
    rw [none]

end Rows

def Named (values : List IdValue) (pk : ℕ) : Prop := ∃ value ∈ values, accountId value = .ok pk

section Ids

variable {s : FeedStore} {values others : List IdValue} {ids : List ℕ} {observedAt : Option Instant} {inAtomicBlock : Bool}

theorem accountId_cases (value : IdValue) : (∃ id, accountId value = .ok id) ∨ accountId value = .error .accountIds := by
  cases read : accountId value with
  | ok id => exact .inl ⟨id, rfl⟩
  | error =>
    unfold accountId at read
    split at read
    · exact .inr (by rw [← read])
    · split at read
      · exact .inr (by rw [← read])
      · split at read
        · exact .inr (by rw [← read])
        · cases read

theorem mapM_accountId (values : List IdValue) :
    (∃ ids, values.mapM accountId = .ok ids ∧ (∀ id, id ∈ ids ↔ Named values id) ∧ ∀ value ∈ values, ∃ id, accountId value = .ok id) ∨
      values.mapM accountId = .error .accountIds ∧ ∃ value ∈ values, accountId value = .error .accountIds := by
  induction values with
  | nil => exact .inl ⟨[], rfl, fun id => by simp [Named], fun value mem => by cases mem⟩
  | cons value _ ih =>
    rw [List.mapM_cons]
    rcases accountId_cases value with ⟨id, first⟩ | first
    · rcases ih with ⟨ids, later, named, all⟩ | ⟨later, other, mem, refused⟩
      · refine .inl ⟨id :: ids, by rw [first, later]; rfl, fun key => ?_, List.forall_mem_cons.mpr ⟨⟨id, first⟩, all⟩⟩
        rw [List.mem_cons, named, Named, Named, List.exists_mem_cons_iff, first, Except.ok.injEq, eq_comm]
      · exact .inr ⟨by rw [first, later]; rfl, other, List.mem_cons_of_mem _ mem, refused⟩
    · exact .inr ⟨by rw [first]; rfl, value, List.mem_cons_self, first⟩

theorem sorted_dedup (ids : List ℕ) : (ids.dedup.insertionSort (· ≤ ·)).Pairwise (· < ·) := by
  have once : (ids.dedup.insertionSort (· ≤ ·)).Nodup := (List.perm_insertionSort _ ids.dedup).nodup_iff.mpr (List.nodup_dedup ids)
  exact ((List.pairwise_insertionSort (· ≤ ·) ids.dedup).and once).imp fun both => lt_of_le_of_ne both.1 both.2

theorem normalizedAccountIds_cases (values : List IdValue) :
    (∃ ids, normalizedAccountIds values = .ok ids ∧ ids.Pairwise (· < ·) ∧ (∀ id, id ∈ ids ↔ Named values id) ∧
        ∀ value ∈ values, ∃ id, accountId value = .ok id) ∨
      normalizedAccountIds values = .error .accountIds ∧ ∃ value ∈ values, accountId value = .error .accountIds := by
  unfold normalizedAccountIds
  rcases mapM_accountId values with ⟨ids, read, named, all⟩ | ⟨refused, other⟩
  · refine .inl ⟨_, by rw [read]; rfl, sorted_dedup ids, fun id => ?_, all⟩
    rw [List.mem_insertionSort, List.mem_dedup, named]
  · exact .inr ⟨by rw [refused]; rfl, other⟩

theorem normalizedAccountIds_congr (same : ∀ value, value ∈ values ↔ value ∈ others) :
    normalizedAccountIds values = normalizedAccountIds others := by
  rcases normalizedAccountIds_cases values with ⟨ids, read, sorted, named, all⟩ | ⟨refused, value, mem, bad⟩
  · rcases normalizedAccountIds_cases others with ⟨ids', read', sorted', named', -⟩ | ⟨-, value, mem, bad⟩
    · have members : ∀ id, id ∈ ids ↔ id ∈ ids' := fun id => by
        rw [named, named', Named, Named]
        simp only [same]
      have perm : ids.Perm ids' := (List.perm_ext_iff_of_nodup (sorted.imp ne_of_lt) (sorted'.imp ne_of_lt)).mpr members
      rw [read, read', perm.eq_of_pairwise (fun _ _ _ _ less more => absurd less (lt_asymm more)) sorted sorted']
    · obtain ⟨id, good⟩ := all value ((same value).mpr mem)
      cases good.symm.trans bad
  · rcases normalizedAccountIds_cases others with ⟨-, -, -, -, all⟩ | ⟨refused', -⟩
    · obtain ⟨id, good⟩ := all value ((same value).mp mem)
      cases good.symm.trans bad
    · rw [refused, refused']

theorem bumpIntents_ok (keys : (s.accounts.map FeedAccount.pk).Nodup) {t : FeedStore} {revisions : List (ℕ × ℕ)}
    (bumped : s.bumpIntents inAtomicBlock values observedAt = .ok (t, revisions)) :
    ∃ now ids accounts, observedAt = some now ∧ normalizedAccountIds values = .ok ids ∧ lockAccounts ids s = .ok accounts ∧
      (∀ account ∈ accounts, account.drifted = false ∧ account.exhausted = false) ∧
      t = { s with accounts := s.accounts.map fun account => if account.pk ∈ ids then account.bump now else account } ∧
      revisions = accounts.map fun account => (account.pk, (account.bump now).cursor.revision) := by
  simp only [FeedStore.bumpIntents, bind_ok, raiseIf_ok, orRaise_ok] at bumped
  obtain ⟨-, -, now, given, ids, read, accounts, locked, _, synchronized, _, room, same⟩ := bumped
  obtain ⟨found, sub, -⟩ := lockAccounts_ok locked
  obtain ⟨ids', read', sorted, -, -⟩ | ⟨refused, -⟩ := normalizedAccountIds_cases values
  · obtain rfl : ids' = ids := Except.ok.inj (read'.symm.trans read)
    have once : (accounts.map FeedAccount.pk).Nodup := found ▸ sorted.imp ne_of_lt
    have written := writeAccounts_map (f := fun account => account.bump now) (fun _ => rfl) keys sub once
    cases same
    refine ⟨now, ids', accounts, given, read, locked, fun account mem => ⟨?_, ?_⟩, ?_, ?_⟩
    · exact refuseFirst_ok.mp synchronized account mem
    · exact refuseFirst_ok.mp room account mem
    · rw [written, found]
    · rw [List.map_map]
      rfl
  · cases refused.symm.trans read

theorem rowsOf_ascending (keys : (s.accounts.map FeedAccount.pk).Nodup) (ids : List ℕ) :
    ((s.rowsOf ids).map FeedAccount.pk).Pairwise (· < ·) := by
  have total : Std.Total fun a b : FeedAccount => a.pk ≤ b.pk := ⟨fun a b => le_total a.pk b.pk⟩
  have chain : IsTrans FeedAccount fun a b => a.pk ≤ b.pk := ⟨fun a b c => le_trans⟩
  have perm := (List.perm_insertionSort (fun a b : FeedAccount => a.pk ≤ b.pk)
    (s.accounts.filter fun account => ids.contains account.pk)).map FeedAccount.pk
  have once := perm.nodup_iff.mpr (keys.sublist (List.filter_sublist.map FeedAccount.pk))
  have weak := List.pairwise_map.mpr (List.pairwise_insertionSort (fun a b : FeedAccount => a.pk ≤ b.pk)
    (s.accounts.filter fun account => ids.contains account.pk))
  exact (weak.and once).imp fun both => lt_of_le_of_ne both.1 both.2

theorem lockAccounts_there (keys : (s.accounts.map FeedAccount.pk).Nodup) (sorted : ids.Pairwise (· < ·))
    (there : ∀ id ∈ ids, ∃ account ∈ s.accounts, account.pk = id) : lockAccounts ids s = .ok (s.rowsOf ids) := by
  have ascending := rowsOf_ascending keys ids
  have members : ∀ id, id ∈ (s.rowsOf ids).map FeedAccount.pk ↔ id ∈ ids := by
    intro id
    constructor
    · intro mem
      obtain ⟨account, row, rfl⟩ := List.mem_map.mp mem
      exact (mem_rowsOf.mp row).2
    · intro mem
      obtain ⟨account, row, rfl⟩ := there id mem
      exact List.mem_map_of_mem (mem_rowsOf.mpr ⟨row, mem⟩)
  have found : (s.rowsOf ids).map FeedAccount.pk = ids :=
    ((List.perm_ext_iff_of_nodup (ascending.imp ne_of_lt) (sorted.imp ne_of_lt)).mpr members).eq_of_pairwise
      (fun _ _ _ _ less more => absurd less (lt_asymm more)) ascending sorted
  simp only [lockAccounts, bind_ok, raiseIf_ok, not_not]
  exact ⟨(), found, trivial⟩

def Eligible (s : FeedStore) (pk : ℕ) : Prop :=
  ∃ account ∈ s.accounts, account.pk = pk ∧ account.drifted = false ∧ account.exhausted = false

theorem bumpIntents_accepted (keys : (s.accounts.map FeedAccount.pk).Nodup) :
    (∃ result, s.bumpIntents inAtomicBlock values observedAt = .ok result) ↔
      inAtomicBlock = true ∧ observedAt ≠ none ∧ ∀ value ∈ values, ∃ pk, accountId value = .ok pk ∧ Eligible s pk := by
  constructor
  · rintro ⟨⟨t, _⟩, bumped⟩
    obtain ⟨now, ids, accounts, rfl, read, locked, free, -, -⟩ := bumpIntents_ok keys bumped
    simp only [FeedStore.bumpIntents, bind_ok, raiseIf_ok] at bumped
    obtain ⟨-, atomic, -⟩ := bumped
    obtain ⟨found, sub, -⟩ := lockAccounts_ok locked
    refine ⟨Bool.not_eq_false _ ▸ atomic, by simp, fun value mem => ?_⟩
    obtain ⟨ids', read', -, named, all⟩ | ⟨refused, -⟩ := normalizedAccountIds_cases values
    · obtain rfl : ids' = ids := Except.ok.inj (read'.symm.trans read)
      obtain ⟨pk, own⟩ := all value mem
      have inside : pk ∈ accounts.map FeedAccount.pk := found ▸ (named pk).mpr ⟨value, mem, own⟩
      obtain ⟨account, row, rfl⟩ := List.mem_map.mp inside
      exact ⟨account.pk, own, account, sub row, rfl, free account row⟩
    · cases refused.symm.trans read
  · rintro ⟨rfl, given, eligible⟩
    obtain ⟨now, rfl⟩ := Option.ne_none_iff_exists'.mp given
    obtain ⟨ids, read, sorted, named, -⟩ | ⟨-, value, mem, bad⟩ := normalizedAccountIds_cases values
    · have free : ∀ id ∈ ids, Eligible s id := by
        intro id mem
        obtain ⟨value, inside, own⟩ := (named id).mp mem
        obtain ⟨pk, same, row⟩ := eligible value inside
        exact Except.ok.inj (same.symm.trans own) ▸ row
      have locked := lockAccounts_there keys sorted fun id mem => (free id mem).imp fun _ row => ⟨row.1, row.2.1⟩
      obtain ⟨found, sub, -⟩ := lockAccounts_ok locked
      have passes : ∀ account ∈ s.rowsOf ids, account.drifted = false ∧ account.exhausted = false := by
        intro account mem
        obtain ⟨row, row_mem, same, passes⟩ := free account.pk (found ▸ List.mem_map_of_mem mem)
        exact row_unique keys row_mem (sub mem) same ▸ passes
      simp only [FeedStore.bumpIntents, bind_ok, raiseIf_ok, orRaise_ok]
      exact ⟨_, (), by decide, now, rfl, ids, read, _, locked, (), refuseFirst_ok.mpr fun account mem => (passes account mem).1,
        (), refuseFirst_ok.mpr fun account mem => (passes account mem).2, rfl⟩
    · obtain ⟨pk, own, -⟩ := eligible value mem
      cases own.symm.trans bad

theorem bumpIntents_refines (keys : (s.accounts.map FeedAccount.pk).Nodup) {t : FeedStore} {revisions : List (ℕ × ℕ)}
    (bumped : s.bumpIntents inAtomicBlock values observedAt = .ok (t, revisions)) :
    ∃ now ids, observedAt = some now ∧ normalizedAccountIds values = .ok ids ∧ s.bumpFeedIntents ids now = .ok (t, ()) := by
  obtain ⟨now, ids, accounts, given, read, locked, free, same, -⟩ := bumpIntents_ok keys bumped
  obtain ⟨found, sub, all⟩ := lockAccounts_ok locked
  have inside {account : FeedAccount} (mem : account ∈ s.accounts.filter fun account => ids.contains account.pk) : account ∈ accounts :=
    all account (List.mem_of_mem_filter mem) (List.contains_iff_mem.mp (List.mem_filter.mp mem).2)
  have there : ids.all (fun pk => (s.account? pk).isSome) = true := by
    refine List.all_eq_true.mpr fun pk mem => ?_
    obtain ⟨account, row, rfl⟩ := List.mem_map.mp (found ▸ mem)
    exact List.find?_isSome.mpr ⟨account, sub row, decide_eq_true rfl⟩
  have calm {refused : FeedAccount → Bool} (free : ∀ account ∈ accounts, refused account = false) :
      ¬ (s.accounts.filter fun account => ids.contains account.pk).any refused = true := by
    rw [List.any_eq_true]
    rintro ⟨account, mem, bad⟩
    exact absurd bad (by rw [free account (inside mem)]; decide)
  refine ⟨now, ids, given, read, ?_⟩
  simp only [FeedStore.bumpFeedIntents, bind_ok, raiseIf_ok]
  refine ⟨(), by rw [there]; decide, (), calm fun account mem => (free account mem).1, (), calm fun account mem => (free account mem).2, ?_⟩
  rw [same]
  simp only [List.contains_iff_mem]

end Ids

/-- For every store and every collection of given ids: the call commits exactly when it is inside a transaction, its
instant has a time zone and every id names an account that can be advanced, and otherwise changes nothing; a call that
commits advances each named account once, keeps every other row, and returns the new revisions in the order of the
keys; the order and the repetitions of the ids do not matter. -/
theorem bump_all_or_none (s : FeedStore) (keys : (s.accounts.map FeedAccount.pk).Nodup) (inAtomicBlock : Bool)
    (values : List IdValue) (observedAt : Option Instant) :
    let outcome := s.bumpIntents inAtomicBlock values observedAt
    ((∃ result, outcome = .ok result) ↔
      inAtomicBlock = true ∧ observedAt ≠ none ∧ ∀ value ∈ values, ∃ pk, accountId value = .ok pk ∧ Eligible s pk) ∧
    (∀ e, outcome = .error e → commit s outcome = s) ∧
    (∀ t revisions, outcome = .ok (t, revisions) → commit s outcome = t ∧ t = { s with accounts := t.accounts } ∧
      t.accounts.map FeedAccount.pk = s.accounts.map FeedAccount.pk ∧ (revisions.map Prod.fst).Pairwise (· < ·) ∧
      (∀ pk, pk ∈ revisions.map Prod.fst ↔ Named values pk) ∧
      ∃ now ∈ observedAt, ∀ old ∈ s.accounts, ∃ new ∈ t.accounts, new.pk = old.pk ∧
        (Named values old.pk → Bumped now old new ∧ (old.pk, new.cursor.revision) ∈ revisions) ∧
        (¬ Named values old.pk → new = old)) ∧
    ∀ others : List IdValue, (∀ value, value ∈ values ↔ value ∈ others) →
      s.bumpIntents inAtomicBlock others observedAt = outcome := by
  intro outcome
  refine ⟨bumpIntents_accepted keys, fun e refused => by rw [refused]; rfl, fun t revisions bumped => ?_, fun others same => ?_⟩
  · obtain ⟨now, ids, accounts, given, read, locked, free, rfl, rfl⟩ := bumpIntents_ok keys bumped
    obtain ⟨found, -, all⟩ := lockAccounts_ok locked
    obtain ⟨ids', read', sorted, named, -⟩ | ⟨refused, -⟩ := normalizedAccountIds_cases values
    · obtain rfl : ids' = ids := Except.ok.inj (read'.symm.trans read)
      have order : (accounts.map fun account => (account.pk, (account.bump now).cursor.revision)).map Prod.fst = ids' := by
        rw [List.map_map]
        exact found
      refine ⟨by rw [bumped]; rfl, rfl, ?_, order ▸ sorted, fun pk => order ▸ named pk, now, given, fun old mem => ?_⟩
      · rw [List.map_map]
        apply List.map_congr_left
        intro account _
        rw [Function.comp_apply]
        split <;> rfl
      · refine ⟨_, List.mem_map_of_mem mem, ?_, fun known => ?_, fun unknown => ?_⟩
        · split <;> rfl
        · have inside := (named old.pk).mpr known
          have row := all old mem inside
          rw [if_pos inside]
          exact ⟨bump_bumped (free old row).2, List.mem_map.mpr ⟨old, row, rfl⟩⟩
        · rw [if_neg fun inside => unknown ((named old.pk).mp inside)]
    · cases refused.symm.trans read
  · show FeedStore.bumpIntents _ _ _ _ = FeedStore.bumpIntents _ _ _ _
    unfold FeedStore.bumpIntents
    rw [normalizedAccountIds_congr same]

def unsentAccount (pk : ℕ) : FeedAccount :=
  { pk, deleted := false, isActive := true, tenantActive := true, isAvito := true, lastFeedFlushAt := none,
    cursor := ⟨3, 2, by decide, by decide⟩, feedIntentDueAt := some 7, sourceIntentRevision := some 3 }

def unsentAccounts : FeedStore :=
  { accounts := [unsentAccount 2, unsentAccount 1], dispatches := [], nextAccount := 3, nextDispatch := 1, recoveries := [] }

/-- Two accounts, one of them given twice, are advanced together. -/
theorem bump_all_or_none_two : ∃ result,
    unsentAccounts.bumpIntents true [.shown "2".toList, .shown "1".toList, .shown "2".toList] (some 5) = .ok result := by
  have second : accountId (.shown "2".toList) = .ok 2 := by decide +kernel
  have first : accountId (.shown "1".toList) = .ok 1 := by decide +kernel
  have there : ∀ pk, pk = 2 ∨ pk = 1 → Eligible unsentAccounts pk := by
    rintro pk (rfl | rfl)
    · exact ⟨unsentAccount 2, by simp [unsentAccounts], rfl, rfl, rfl⟩
    · exact ⟨unsentAccount 1, by simp [unsentAccounts], rfl, rfl, rfl⟩
  refine (bump_all_or_none unsentAccounts (by decide) true _ (some 5)).1.mpr ⟨rfl, by simp, fun value mem => ?_⟩
  simp only [List.mem_cons, List.not_mem_nil, or_false] at mem
  rcases mem with rfl | rfl | rfl
  · exact ⟨2, second, there 2 (.inl rfl)⟩
  · exact ⟨1, first, there 1 (.inr rfl)⟩
  · exact ⟨2, second, there 2 (.inl rfl)⟩

end MapBackend.Marketplaces.FeedIntent
