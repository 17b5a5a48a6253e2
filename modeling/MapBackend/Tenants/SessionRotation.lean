import MapBackend.Tenants.SessionTokens
import Mathlib.Logic.Relation

/-!
A token is consumed once, a login has one living token, and a revocation ends all tokens that
it finds.
-/

namespace MapBackend.Tenants
open MapBackend.Library SessionTokens

namespace SessionStore

def Outdated (s : SessionStore) (token : RefreshToken) : Prop :=
  ∃ user ∈ s.users, claimId token.userId = .ok user.pk ∧
    ∃ version, claimId token.authVersion = .ok version ∧ version < user.authVersion

def Spent (s : SessionStore) (token : RefreshToken) : Prop := token.jti ∈ s.blacklisted ∨ s.Outdated token

def Live (s : SessionStore) (token : RefreshToken) : Prop := s.Issued token ∧ token.jti ∉ s.blacklisted

structure Valid (s : SessionStore) (refresh : RefreshToken) (user : User) (sid : String) : Prop where
  mem : user ∈ s.users
  userId : claimId refresh.userId = .ok user.pk
  authVersion : claimId refresh.authVersion = .ok user.authVersion
  notBlacklisted : refresh.jti ∉ s.blacklisted
  sid : browserSessionId refresh refresh.jti = .ok sid

variable {s : SessionStore} {user : User}

theorem user?_some {pk : ℕ} (found : s.user? pk = some user) :
    user ∈ s.users ∧ user.pk = pk :=
  ⟨List.mem_of_find?_eq_some found, by simpa using List.find?_some found⟩

theorem lockValidRefresh_ok {refresh : RefreshToken} {expected : Option ℤ} {input : SessionInput} {row : OutstandingToken} {sid : String}
    (locked : s.lockValidRefresh refresh expected input = .ok (user, row, sid)) :
    s.Valid refresh user sid ∧ row.jti = refresh.jti := by
  simp only [lockValidRefresh, bind_ok, raiseIf_ok, orRaise_ok, pure_ok, Prod.mk.injEq, not_or, not_not] at locked
  obtain ⟨userId, user_claim, _, -, version, version_claim, _, -, found, found_user, _, ⟨_, same_version⟩, _, -,
    outstanding, found_row, _, -, _, fresh, _, -, sid', session, rfl, rfl, rfl⟩ := locked
  obtain ⟨mem, pk⟩ := user?_some found_user
  have saved : outstanding.jti = refresh.jti := by simpa using List.find?_some found_row
  exact ⟨⟨mem, pk ▸ user_claim, same_version ▸ version_claim, saved ▸ fresh, session⟩, saved⟩

theorem Valid.not_spent {refresh : RefreshToken} {sid : String}
    (valid : s.Valid refresh user sid) (pks : (s.users.map User.pk).Nodup) : ¬ s.Spent refresh := by
  rintro (listed | ⟨other, other_mem, userId, version, authVersion, behind⟩)
  · exact valid.notBlacklisted listed
  · have same : user.pk = other.pk := Except.ok.inj (valid.userId.symm.trans userId)
    have one : user = other := row_unique pks valid.mem other_mem same
    have now : user.authVersion = version := Except.ok.inj (valid.authVersion.symm.trans authVersion)
    rw [← one] at behind
    omega

end SessionStore

structure RefreshToken.Continues (old new : RefreshToken) : Prop where
  userId : new.userId = old.userId
  tenantId : new.tenantId = old.tenantId
  authVersion : new.authVersion = old.authVersion
  sid : ∃ sid, browserSessionId old old.jti = .ok sid ∧ new.sid = .text sid

theorem browserSessionId_text {token : RefreshToken} {sid fallback found : String} (text : token.sid = .text sid)
    (named : browserSessionId token fallback = .ok found) : found = sid := by
  rw [browserSessionId, text] at named
  dsimp only at named
  split at named
  · exact (Except.ok.inj named).symm
  · cases named

theorem RefreshToken.Continues.trans {first second third : RefreshToken} (left : first.Continues second)
    (right : second.Continues third) : first.Continues third := by
  obtain ⟨sid, named, text⟩ := left.sid
  obtain ⟨again, renamed, retext⟩ := right.sid
  have same : again = sid := browserSessionId_text text renamed
  exact ⟨right.userId.trans left.userId, right.tenantId.trans left.tenantId, right.authVersion.trans left.authVersion,
    sid, named, same ▸ retext⟩

inductive SessionStep (s : SessionStore) : SessionStore → Prop where
  | same : SessionStep s s
  | rotated {refresh : RefreshToken} {user : User} {sid jti : String} {decodedAt : Instant} {row : OutstandingToken}
      (valid : s.Valid refresh user sid) (unused : ∀ old ∈ s.outstanding, old.jti ≠ jti)
      (issued : row.token = SessionStore.successor refresh sid jti decodedAt) :
      SessionStep s { s with
        blacklisted := s.blacklisted ++ [refresh.jti], outstanding := s.outstanding ++ [row]
        history := s.history ++ [.rotated refresh row.token] }
  | blacklisted {refresh : RefreshToken} {user : User} {sid : String} (valid : s.Valid refresh user sid) :
      SessionStep s { s with
        blacklisted := s.blacklisted ++ [refresh.jti], history := s.history ++ [.blacklisted refresh] }
  | revoked {user : User} {token : Option RefreshToken} {listed : List String} (mem : user ∈ s.users)
      (valid : ∀ refresh ∈ token, ∃ sid, s.Valid refresh user sid) :
      SessionStep s { s with
        users := put User.pk { user with authVersion := user.authVersion + 1 } s.users
        blacklisted := s.blacklisted ++ listed, history := s.history ++ [.revoked user.pk token] }
  | registered {pk : ℕ} (unused : ∀ user ∈ s.users, user.pk ≠ pk) :
      SessionStep s { s with users := s.users ++ [⟨pk, true, 1⟩] }
  | activated {user : User} {isActive : Bool} (mem : user ∈ s.users) :
      SessionStep s { s with users := put User.pk { user with isActive } s.users }
  | login {row : OutstandingToken} {user : User} {version : ℕ} (mem : user ∈ s.users)
      (userId : claimId row.token.userId = .ok user.pk) (authVersion : claimId row.token.authVersion = .ok version)
      (known : version ≤ user.authVersion) (unused : ∀ old ∈ s.outstanding, old.jti ≠ row.jti) :
      SessionStep s { s with outstanding := s.outstanding ++ [row], history := s.history ++ [.login row.token] }

namespace SessionStep

theorem ofRevoked {s after : SessionStore} {user : User} {token : Option RefreshToken} {now : Instant} {version : ℕ}
    (mem : user ∈ s.users) (valid : ∀ refresh ∈ token, ∃ sid, s.Valid refresh user sid)
    (step : s.revokeLockedUser user token now = .ok (after, version)) : SessionStep s after := by
  simp only [SessionStore.revokeLockedUser, bind_ok, raiseIf_ok, pure_ok, Prod.mk.injEq] at step
  obtain ⟨_, -, rfl, -⟩ := step
  exact .revoked mem valid

theorem ofFinish {R : Type} {s : SessionStore} {result : R → SessionResult}
    {outcome : Except SessionError (SessionStore × R)}
    (step : ∀ after r, outcome = .ok (after, r) → SessionStep s after) : SessionStep s (SessionWorker.finish s result outcome).1 := by
  cases made : outcome with
  | error => exact .same
  | ok pair => exact step pair.1 pair.2 made

theorem of_advance (w : SessionWorker) (input : SessionInput) (s : SessionStore) :
    SessionStep s (w.advance input s).1 := by
  have decoding (now : Instant) (raw : RefreshToken) (next : RefreshToken → SessionWorker) :
      (SessionWorker.decoded s now raw next).1 = s := by
    unfold SessionWorker.decoded
    split <;> rfl
  cases w with
  | call request =>
    cases request with
    | revokeAllUserSessions =>
      apply ofFinish
      intro after version step
      simp only [SessionStore.revokeAllUserSessions, bind_ok, orRaise_ok] at step
      obtain ⟨user, found, revoked⟩ := step
      exact ofRevoked (SessionStore.user?_some found).1 (fun _ none => absurd none (Option.not_mem_none _)) revoked
    | _ =>
      simp only [SessionWorker.advance, decoding]
      exact .same
  | rotate =>
    apply ofFinish
    intro after token step
    simp only [SessionStore.rotateRefreshToken, bind_ok, raiseIf_ok, pure_ok, Prod.mk.injEq] at step
    obtain ⟨⟨user, outstanding, sid⟩, locked, _, unused, rfl, -⟩ := step
    obtain ⟨valid, saved⟩ := SessionStore.lockValidRefresh_ok locked
    dsimp only
    rw [saved]
    exact .rotated valid (fun old mem same => unused ⟨old, mem, same⟩) rfl
  | blacklist =>
    apply ofFinish
    intro after result step
    simp only [SessionStore.blacklistRefreshToken, bind_ok, pure_ok, Prod.mk.injEq] at step
    obtain ⟨⟨user, outstanding, sid⟩, locked, rfl, -⟩ := step
    obtain ⟨valid, saved⟩ := SessionStore.lockValidRefresh_ok locked
    dsimp only
    rw [saved]
    exact .blacklisted valid
  | revokeFrom =>
    apply ofFinish
    intro after version step
    simp only [SessionStore.revokeAllSessionsFromRefresh, bind_ok] at step
    obtain ⟨⟨user, outstanding, sid⟩, locked, revoked⟩ := step
    have valid := (SessionStore.lockValidRefresh_ok locked).1
    refine ofRevoked valid.mem (fun token mem => ?_) revoked
    rw [← Option.some.inj mem]
    exact ⟨sid, valid⟩
  | finished => exact .same

theorem of_next (s : SessionStore) (change : SessionChange) : SessionStep s (s.next change) := by
  cases change with
  | register =>
    simp only [SessionStore.next]
    split
    · exact .same
    next unused => exact .registered fun user mem same => unused ⟨user, mem, same⟩
  | setActive =>
    simp only [SessionStore.next]
    split
    · exact .same
    next found => exact .activated (SessionStore.user?_some found).1
  | login =>
    simp only [SessionStore.next]
    split
    next userId version user_claim version_claim =>
      split
      next accepted =>
        obtain ⟨⟨user, mem, pk, known⟩, unused⟩ := accepted
        exact .login mem (pk ▸ user_claim) version_claim known fun old old_mem same => unused ⟨old, old_mem, same⟩
      next => exact .same
    next => exact .same

theorem of_act (c : SessionCrew) (a : SessionAction) : SessionStep c.store (c.next a).store := by
  rcases c.act_store a with same | ⟨change, -, given⟩ | ⟨k, input, w, -, -, moved⟩
  · rw [SessionCrew.next, same]
    exact .same
  · rw [SessionCrew.next, given]
    exact of_next c.store change
  · rw [SessionCrew.next, moved]
    exact of_advance w input c.store

end SessionStep

namespace SessionStore

/-- Users keep their rows and never get an earlier version; what is issued or blacklisted stays so. -/
structure Extends (s later : SessionStore) : Prop where
  users : ∀ user ∈ s.users, ∃ new ∈ later.users, new.pk = user.pk ∧ user.authVersion ≤ new.authVersion
  blacklisted : s.blacklisted ⊆ later.blacklisted
  outstanding : s.outstanding ⊆ later.outstanding

variable {s later : SessionStore} {token : RefreshToken}

theorem Outdated.extend (outdated : s.Outdated token)
    (extends_ : s.Extends later) : later.Outdated token := by
  obtain ⟨user, mem, userId, version, authVersion, behind⟩ := outdated
  obtain ⟨new, new_mem, pk, ahead⟩ := extends_.users user mem
  exact ⟨new, new_mem, pk ▸ userId, version, authVersion, behind.trans_le ahead⟩

theorem Spent.extend (spent : s.Spent token)
    (extends_ : s.Extends later) : later.Spent token := by
  rcases spent with listed | outdated
  · exact .inl (extends_.blacklisted listed)
  · exact .inr (outdated.extend extends_)

theorem Issued.extend (issued : s.Issued token)
    (extends_ : s.Extends later) : later.Issued token := by
  obtain ⟨row, mem, same⟩ := issued
  exact ⟨row, extends_.outstanding mem, same⟩

def Known (s : SessionStore) (token : RefreshToken) : Prop :=
  ∃ user ∈ s.users, claimId token.userId = .ok user.pk ∧
    ∃ version, claimId token.authVersion = .ok version ∧ version ≤ user.authVersion

theorem Known.extend (known : s.Known token)
    (extends_ : s.Extends later) : later.Known token := by
  obtain ⟨user, mem, userId, version, authVersion, upTo⟩ := known
  obtain ⟨new, new_mem, pk, ahead⟩ := extends_.users user mem
  exact ⟨new, new_mem, pk ▸ userId, version, authVersion, upTo.trans ahead⟩

/-- The event was allowed in the first store and has its effect in the second. -/
structure Marks (s later : SessionStore) (event : SessionEvent) : Prop where
  consumed : ∀ token, event.consumed = some token → ¬ s.Spent token ∧ later.Spent token
  issued : ∀ token, event.issued = some token → later.Issued token
  rotated : ∀ old new, event = .rotated old new → old.jti ∈ later.blacklisted ∧ old.Continues new
  revoked : ∀ user token, event = .revoked user token →
    ∀ other, s.Known other → claimId other.userId = .ok user → later.Outdated other

/-- After a revocation of a user the tokens that it found are outdated, and no later call accepts one
with their claims. -/
def Final (s : SessionStore) : Prop :=
  ∀ before user token after, s.history = before ++ .revoked user token :: after →
    ∀ event ∈ before, ∀ old, event.issued = some old → claimId old.userId = .ok user →
      s.Outdated old ∧ ∀ call ∈ after, ∀ new, call.consumed = some new →
        new.userId = old.userId → new.authVersion ≠ old.authVersion

structure Sound (s : SessionStore) : Prop where
  pks : (s.users.map User.pk).Nodup
  known : ∀ row ∈ s.outstanding, s.Known row.token
  issued : ∀ event ∈ s.history, ∀ token, event.issued = some token → s.Issued token
  spent : ∀ event ∈ s.history, ∀ token, event.consumed = some token → s.Spent token
  once : ∀ token, (s.history.filter fun event => event.consumed = some token).length ≤ 1
  rotated : ∀ old new, .rotated old new ∈ s.history → old.jti ∈ s.blacklisted ∧ old.Continues new
  final : s.Final

theorem Extends.put {s : SessionStore} (pks : (s.users.map User.pk).Nodup) {user : User} (new : User) (mem : user ∈ s.users)
    (pk : new.pk = user.pk) (ahead : user.authVersion ≤ new.authVersion) {other : User} (other_mem : other ∈ s.users) :
    ∃ later ∈ Library.put User.pk new s.users, later.pk = other.pk ∧ other.authVersion ≤ later.authVersion := by
  by_cases same : other.pk = new.pk
  · have one : other = user := row_unique pks other_mem mem (same.trans pk)
    exact ⟨new, mem_put.mpr (.inl ⟨rfl, other, other_mem, same⟩), same.symm, one ▸ ahead⟩
  · exact ⟨other, mem_put.mpr (.inr ⟨other_mem, same⟩), rfl, le_rfl⟩

end SessionStore

namespace SessionStep

variable {s later : SessionStore}

theorem extends_ (step : SessionStep s later) (pks : (s.users.map User.pk).Nodup) : s.Extends later := by
  have still : ∀ user ∈ s.users, ∃ new ∈ s.users, new.pk = user.pk ∧ user.authVersion ≤ new.authVersion :=
    fun user mem => ⟨user, mem, rfl, le_rfl⟩
  cases step with
  | same => exact ⟨still, List.Subset.refl _, List.Subset.refl _⟩
  | rotated => exact ⟨still, List.subset_append_left _ _, List.subset_append_left _ _⟩
  | blacklisted => exact ⟨still, List.subset_append_left _ _, List.Subset.refl _⟩
  | @revoked user token listed mem valid =>
    refine ⟨fun other other_mem => ?_, List.subset_append_left _ _, List.Subset.refl _⟩
    exact SessionStore.Extends.put pks { user with authVersion := user.authVersion + 1 } mem rfl (Nat.le_succ _) other_mem
  | registered =>
    exact ⟨fun user mem => ⟨user, List.mem_append_left _ mem, rfl, le_rfl⟩, List.Subset.refl _, List.Subset.refl _⟩
  | @activated user isActive mem =>
    refine ⟨fun other other_mem => ?_, List.Subset.refl _, List.Subset.refl _⟩
    exact SessionStore.Extends.put pks { user with isActive } mem rfl le_rfl other_mem
  | login => exact ⟨still, List.Subset.refl _, List.subset_append_left _ _⟩

theorem pks (step : SessionStep s later) (pks : (s.users.map User.pk).Nodup) : (later.users.map User.pk).Nodup := by
  cases step with
  | revoked => simpa using pks
  | activated => simpa using pks
  | registered unused =>
    rw [List.map_append]
    refine List.nodup_append'.mpr ⟨pks, List.nodup_singleton _, ?_⟩
    intro pk old new
    obtain ⟨user, mem, rfl⟩ := List.mem_map.mp old
    exact unused user mem (List.mem_singleton.mp new)
  | _ => exact pks

theorem known (step : SessionStep s later) (sound : s.Sound) : ∀ row ∈ later.outstanding, later.Known row.token := by
  have extended := step.extends_ sound.pks
  have old : ∀ row ∈ s.outstanding, later.Known row.token := fun row mem => (sound.known row mem).extend extended
  cases step with
  | @rotated refresh user sid jti decodedAt row valid unused issued =>
    intro new mem
    rcases List.mem_append.mp mem with mem | last
    · exact old new mem
    · rw [List.mem_singleton.mp last, issued]
      exact ⟨user, valid.mem, valid.userId, user.authVersion, valid.authVersion, le_rfl⟩
  | @login row user version mem userId authVersion upTo unused =>
    intro new new_mem
    rcases List.mem_append.mp new_mem with old_mem | last
    · exact old new old_mem
    · rw [List.mem_singleton.mp last]
      exact ⟨user, mem, userId, version, authVersion, upTo⟩
  | _ => exact old

theorem history (step : SessionStep s later) (sound : s.Sound) :
    later.history = s.history ∨ ∃ event, later.history = s.history ++ [event] ∧ s.Marks later event := by
  cases step with
  | same => exact .inl rfl
  | registered => exact .inl rfl
  | activated => exact .inl rfl
  | @rotated refresh user sid jti decodedAt row valid unused issued =>
    refine .inr ⟨_, rfl, ?_, ?_, ?_, fun _ _ revokes => (by cases revokes)⟩
    · rintro token ⟨⟩
      exact ⟨valid.not_spent sound.pks, .inl (List.mem_append_right _ List.mem_cons_self)⟩
    · rintro token ⟨⟩
      exact ⟨row, List.mem_append_right _ List.mem_cons_self, rfl⟩
    · rintro old _ ⟨⟩
      refine ⟨List.mem_append_right _ List.mem_cons_self, ?_⟩
      rw [issued]
      exact ⟨rfl, rfl, rfl, sid, valid.sid, rfl⟩
  | blacklisted valid =>
    refine .inr ⟨_, rfl, ?_, fun _ issues => (by cases issues), fun _ _ rotates => (by cases rotates), fun _ _ revokes => (by cases revokes)⟩
    rintro token ⟨⟩
    exact ⟨valid.not_spent sound.pks, .inl (List.mem_append_right _ List.mem_cons_self)⟩
  | @revoked user token listed mem valid =>
    have raised : { user with authVersion := user.authVersion + 1 } ∈
        put User.pk { user with authVersion := user.authVersion + 1 } s.users :=
      mem_put.mpr (.inl ⟨rfl, user, mem, rfl⟩)
    refine .inr ⟨_, rfl, ?_, fun _ issues => (by cases issues), fun _ _ rotates => (by cases rotates), ?_⟩
    · intro refresh accepts
      obtain ⟨sid, checked⟩ := valid refresh accepts
      exact ⟨checked.not_spent sound.pks, .inr ⟨_, raised, checked.userId, user.authVersion, checked.authVersion, Nat.lt_succ_self _⟩⟩
    · rintro pk _ ⟨⟩ _ ⟨owner, owner_mem, userId, version, authVersion, upTo⟩ same
      have one : owner = user := row_unique sound.pks owner_mem mem (Except.ok.inj (userId.symm.trans same))
      exact ⟨_, raised, same, version, authVersion, Nat.lt_succ_of_le (one ▸ upTo)⟩
  | login =>
    refine .inr ⟨_, rfl, fun _ consumes => (by cases consumes), ?_, fun _ _ rotates => (by cases rotates), fun _ _ revokes => (by cases revokes)⟩
    rintro token ⟨⟩
    exact ⟨_, List.mem_append_right _ List.mem_cons_self, rfl⟩

theorem once (sound : s.Sound) {event : SessionEvent} (grown : later.history = s.history ++ [event])
    (marks : s.Marks later event) (token : RefreshToken) :
    (later.history.filter fun event => event.consumed = some token).length ≤ 1 := by
  rw [grown, List.filter_append, List.length_append]
  by_cases consumes : event.consumed = some token
  · have fresh : s.history.filter (fun event => event.consumed = some token) = [] := by
      apply List.filter_eq_nil_iff.mpr
      intro old mem consumed
      exact (marks.consumed token consumes).1 (sound.spent old mem token (of_decide_eq_true consumed))
    simp [fresh, consumes]
  · simpa [consumes] using sound.once token

theorem outdated_of_claims {old new : RefreshToken} (userId : new.userId = old.userId)
    (authVersion : new.authVersion = old.authVersion) (outdated : s.Outdated old) : s.Outdated new := by
  obtain ⟨user, mem, user_claim, version, version_claim, behind⟩ := outdated
  exact ⟨user, mem, userId ▸ user_claim, version, authVersion ▸ version_claim, behind⟩

theorem final (sound : s.Sound) (extended : s.Extends later) {event : SessionEvent}
    (grown : later.history = s.history ++ [event]) (marks : s.Marks later event) : later.Final := by
  intro before user token after split issue mem old issued owner
  rw [grown] at split
  rcases List.eq_nil_or_concat after with rfl | ⟨tail, last, rfl⟩
  · -- the revocation is the new event
    obtain ⟨rfl, revokes⟩ := List.append_inj' split rfl
    obtain ⟨row, row_mem, rfl⟩ := sound.issued issue mem old issued
    have outdated := marks.revoked user token (List.singleton_inj.mp revokes) row.token (sound.known row row_mem) owner
    exact ⟨outdated, fun call none => absurd none List.not_mem_nil⟩
  · rw [List.concat_eq_append, ← List.cons_append, ← List.append_assoc] at split
    obtain ⟨earlier, newest⟩ := List.append_inj' split rfl
    obtain rfl := List.singleton_inj.mp newest
    obtain ⟨outdated, refused⟩ := sound.final before user token tail earlier issue mem old issued owner
    refine ⟨outdated.extend extended, fun call call_mem new consumed userId authVersion => ?_⟩
    rcases List.mem_append.mp (List.concat_eq_append ▸ call_mem) with early | last
    · exact refused call early new consumed userId authVersion
    · rw [List.mem_singleton.mp last] at consumed
      exact (marks.consumed new consumed).1 (.inr (outdated_of_claims userId authVersion outdated))

theorem sound (step : SessionStep s later) (sound : s.Sound) : later.Sound := by
  have extended := step.extends_ sound.pks
  have pks := step.pks sound.pks
  have known := step.known sound
  rcases step.history sound with same | ⟨event, grown, marks⟩
  · refine ⟨pks, known, ?_, ?_, ?_, ?_, ?_⟩
    · intro event mem token issued
      exact (sound.issued event (same ▸ mem) token issued).extend extended
    · intro event mem token consumed
      exact (sound.spent event (same ▸ mem) token consumed).extend extended
    · rw [same]
      exact sound.once
    · intro old new mem
      obtain ⟨listed, continues⟩ := sound.rotated old new (same ▸ mem)
      exact ⟨extended.blacklisted listed, continues⟩
    · intro before user token after split issue mem old issued owner
      obtain ⟨outdated, refused⟩ := sound.final before user token after (same ▸ split) issue mem old issued owner
      exact ⟨outdated.extend extended, refused⟩
  · refine ⟨pks, known, ?_, ?_, once sound grown marks, ?_, final sound extended grown marks⟩
    · intro other mem token issued
      rcases List.mem_append.mp (grown ▸ mem) with old | last
      · exact (sound.issued other old token issued).extend extended
      · exact marks.issued token (List.mem_singleton.mp last ▸ issued)
    · intro other mem token consumed
      rcases List.mem_append.mp (grown ▸ mem) with old | last
      · exact (sound.spent other old token consumed).extend extended
      · exact (marks.consumed token (List.mem_singleton.mp last ▸ consumed)).2
    · intro old new mem
      rcases List.mem_append.mp (grown ▸ mem) with earlier | last
      · obtain ⟨listed, continues⟩ := sound.rotated old new earlier
        exact ⟨extended.blacklisted listed, continues⟩
      · exact marks.rotated old new (List.mem_singleton.mp last).symm

end SessionStep

namespace SessionStore

def Descends (s : SessionStore) : RefreshToken → RefreshToken → Prop :=
  Relation.ReflTransGen fun old new => .rotated old new ∈ s.history

structure Rotates (s : SessionStore) : Prop where
  consumedOnce : ∀ token, (s.history.filter fun event => event.consumed = some token).length ≤ 1
  oneLive : ∀ login a b, s.Descends login a → s.Descends login b → s.Live a → s.Live b → a = b
  revoked : ∀ before user by_ after, s.history = before ++ .revoked user by_ :: after →
    ∀ event ∈ before, ∀ token, event.issued = some token → claimId token.userId = .ok user →
      ∀ descendant, s.Descends token descendant → ∀ call ∈ after, call.consumed ≠ some descendant
  successor : ∀ login token, s.Descends login token → token = login ∨ login.Continues token

variable {s : SessionStore}

theorem Sound.continues (sound : s.Sound) {login token : RefreshToken}
    (descends : s.Descends login token) : token = login ∨ login.Continues token := by
  induction descends with
  | refl => exact .inl rfl
  | tail _ rotated ih =>
    have continues := (sound.rotated _ _ rotated).2
    rcases ih with rfl | earlier
    · exact .inr continues
    · exact .inr (earlier.trans continues)

theorem Sound.live_last (sound : s.Sound) {a b : RefreshToken} (descends : s.Descends a b)
    (live : s.Live a) : b = a := by
  rcases Relation.ReflTransGen.cases_head descends with same | ⟨_, rotated, -⟩
  · exact same.symm
  · exact absurd (sound.rotated _ _ rotated).1 live.2

theorem Sound.rotates (sound : s.Sound) : s.Rotates := by
  refine ⟨sound.once, ?_, ?_, fun login token descends => sound.continues descends⟩
  · intro login a b to_a to_b live_a live_b
    have single : Relator.RightUnique fun old new => SessionEvent.rotated old new ∈ s.history := by
      intro old first second first_mem second_mem
      have one := only_row (sound.once old) first_mem second_mem rfl rfl
      exact (SessionEvent.rotated.inj one).2
    rcases Relation.ReflTransGen.total_of_right_unique single to_a to_b with forward | backward
    · exact (sound.live_last forward live_a).symm
    · exact sound.live_last backward live_b
  · intro before user by_ after split event mem token issued owner descendant descends call call_mem consumed
    have refused := (sound.final before user by_ after split event mem token issued owner).2 call call_mem descendant consumed
    rcases sound.continues descends with rfl | continues
    · exact refused rfl rfl
    · exact refused continues.userId continues.authVersion

end SessionStore

end MapBackend.Tenants
