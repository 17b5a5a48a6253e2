import MapBackend.Library.Tables
import MapBackend.Library.Transactions
import MapBackend.Library.Workers

/-!
Rotation and revocation of refresh tokens.
-/

namespace MapBackend.Tenants
open MapBackend.Library

abbrev Instant := ℤ

def second : Instant := 1000000

inductive ClaimValue where
  | null
  | bool (value : Bool)
  | int (value : ℤ)
  | text (value : String)
  | other
  deriving DecidableEq

structure RefreshToken where
  userId : ClaimValue
  tenantId : ClaimValue
  authVersion : ClaimValue
  sid : ClaimValue
  jti : String
  /-- In seconds. -/
  exp : ℤ
  deriving DecidableEq

structure User where
  pk : ℕ
  isActive : Bool
  authVersion : ℕ
  deriving DecidableEq

/-- A row of the issued tokens, which is saved under the identifier of its token. -/
structure OutstandingToken where
  user : ℕ
  jti : String
  token : RefreshToken
  expiresAt : Instant
  saved : token.jti = jti
  deriving DecidableEq

inductive SessionEvent where
  | login (token : RefreshToken)
  | rotated (old new : RefreshToken)
  | blacklisted (token : RefreshToken)
  | revoked (user : ℕ) (token : Option RefreshToken)
  deriving DecidableEq

def SessionEvent.consumed : SessionEvent → Option RefreshToken
  | .login _ => none
  | .rotated old _ => some old
  | .blacklisted token => some token
  | .revoked _ token => token

def SessionEvent.issued : SessionEvent → Option RefreshToken
  | .login token => some token
  | .rotated _ new => some new
  | _ => none

structure SessionStore where
  users : List User
  outstanding : List OutstandingToken
  blacklisted : List String
  history : List SessionEvent

inductive SessionError where
  | invalidToken
  | userDoesNotExist
  | integrityError
  | dataError
  deriving DecidableEq

namespace SessionTokens

def postgresBigintMax : ℤ := 2 ^ 63 - 1
def positiveIntegerMax : ℕ := 2 ^ 31 - 1
def refreshTokenLifetime : Instant := 7 * 24 * 3600 * second

def decimal (digits : List Char) : ℤ := digits.foldl (fun value digit => 10 * value + (digit.toNat - '0'.toNat : ℕ)) 0

def claimId (value : ClaimValue) : Except SessionError ℕ := do
  let id ← match value with
    | .int value => .ok value
    | .text value =>
      if 1 ≤ value.length ∧ value.length ≤ 20 ∧ value.toList.all Char.isDigit = true ∧
          ¬ (1 < value.length ∧ value.toList.head? = some '0') then .ok (decimal value.toList)
      else .error .invalidToken
    | _ => .error .invalidToken
  raiseIf (¬ (0 < id ∧ id ≤ postgresBigintMax)) .invalidToken
  pure id.toNat

def browserSessionId (token : RefreshToken) (fallbackJti : String) : Except SessionError String :=
  match token.sid with
  | .null => .ok fallbackJti
  | .text value =>
    if 16 ≤ value.length ∧ value.length ≤ 128 ∧ value.toList.all (fun c => c.isAlphanum || c == '_' || c == '-') = true then .ok value
    else .error .invalidToken
  | _ => .error .invalidToken

end SessionTokens

structure SessionInput where
  now : Instant
  /-- A membership of the user in the active tenant of the token. -/
  membership : Bool
  /-- The identifier that `set_jti` draws. -/
  jti : String

namespace SessionStore
open SessionTokens

def Issued (s : SessionStore) (token : RefreshToken) : Prop := ∃ row ∈ s.outstanding, row.token = token

instance (s : SessionStore) (token : RefreshToken) : Decidable (s.Issued token) :=
  inferInstanceAs (Decidable (∃ row ∈ s.outstanding, row.token = token))

def user? (s : SessionStore) (pk : ℕ) : Option User := s.users.find? fun user => user.pk = pk

/-- `_decode_refresh`: the signature, the expiry and the blacklist, without a lock. -/
def decodeRefresh (s : SessionStore) (now : Instant) (raw : RefreshToken) : Except SessionError RefreshToken := do
  raiseIf (¬ s.Issued raw) .invalidToken
  raiseIf (raw.exp * second ≤ now) .invalidToken
  raiseIf (raw.jti ∈ s.blacklisted) .invalidToken
  pure raw

/-- `_lock_valid_refresh` after the token is decoded. -/
def lockValidRefresh (s : SessionStore) (refresh : RefreshToken) (expectedUserId : Option ℤ) (input : SessionInput) :
    Except SessionError (User × OutstandingToken × String) := do
  let userId ← claimId refresh.userId
  let _tenantId ← claimId refresh.tenantId
  let authVersion ← claimId refresh.authVersion
  raiseIf (∃ expected ∈ expectedUserId, (userId : ℤ) ≠ expected) .invalidToken
  let user ← orRaise .invalidToken (s.user? userId)
  raiseIf (user.isActive = false ∨ user.authVersion ≠ authVersion) .invalidToken
  raiseIf (refresh.jti = "") .invalidToken
  let outstanding ← orRaise .invalidToken (s.outstanding.find? fun row => row.jti = refresh.jti)
  raiseIf (outstanding.user ≠ user.pk) .invalidToken
  raiseIf (outstanding.jti ∈ s.blacklisted) .invalidToken
  raiseIf (input.membership = false) .invalidToken
  let sid ← browserSessionId refresh refresh.jti
  pure (user, outstanding, sid)

def successor (refresh : RefreshToken) (sid jti : String) (decodedAt : Instant) : RefreshToken :=
  { refresh with sid := .text sid, jti, exp := (decodedAt + refreshTokenLifetime) / second }

def rotateRefreshToken (s : SessionStore) (refresh : RefreshToken) (decodedAt : Instant) (input : SessionInput) :
    Except SessionError (SessionStore × RefreshToken) := do
  let (user, outstanding, sid) ← s.lockValidRefresh refresh none input
  let rotated := successor refresh sid input.jti decodedAt
  raiseIf (∃ row ∈ s.outstanding, row.jti = rotated.jti) .integrityError
  pure ({ s with
    blacklisted := s.blacklisted ++ [outstanding.jti]
    outstanding := s.outstanding ++ [⟨user.pk, rotated.jti, rotated, rotated.exp * second, rfl⟩]
    history := s.history ++ [.rotated refresh rotated] }, rotated)

def blacklistRefreshToken (s : SessionStore) (refresh : RefreshToken) (expectedUserId : Option ℤ) (input : SessionInput) :
    Except SessionError (SessionStore × Unit) := do
  let (_, outstanding, _) ← s.lockValidRefresh refresh expectedUserId input
  pure ({ s with blacklisted := s.blacklisted ++ [outstanding.jti], history := s.history ++ [.blacklisted refresh] }, ())

def revokeLockedUser (s : SessionStore) (user : User) (token : Option RefreshToken) (now : Instant) :
    Except SessionError (SessionStore × ℕ) := do
  raiseIf (positiveIntegerMax < user.authVersion + 1) .dataError
  let outstanding := s.outstanding.filter fun row => row.user = user.pk ∧ now < row.expiresAt
  let unlisted := outstanding.filter fun row => row.jti ∉ s.blacklisted
  pure ({ s with
    users := put User.pk { user with authVersion := user.authVersion + 1 } s.users
    blacklisted := s.blacklisted ++ unlisted.map OutstandingToken.jti
    history := s.history ++ [.revoked user.pk token] }, user.authVersion + 1)

def revokeAllUserSessions (s : SessionStore) (userId : ℕ) (now : Instant) : Except SessionError (SessionStore × ℕ) := do
  let user ← orRaise .userDoesNotExist (s.user? userId)
  s.revokeLockedUser user none now

def revokeAllSessionsFromRefresh (s : SessionStore) (refresh : RefreshToken) (input : SessionInput) :
    Except SessionError (SessionStore × ℕ) := do
  let (user, _, _) ← s.lockValidRefresh refresh none input
  s.revokeLockedUser user (some refresh) input.now

end SessionStore

inductive SessionCall where
  | rotateRefreshToken (raw : RefreshToken)
  | blacklistRefreshToken (raw : RefreshToken) (expectedUserId : Option ℤ)
  | revokeAllUserSessions (userId : ℕ)
  | revokeAllSessionsFromRefresh (raw : RefreshToken)

/-- The result of a call: a successor, a new version of the sessions or nothing. -/
inductive SessionResult where
  | rotated (token : RefreshToken)
  | version (authVersion : ℕ)
  | done

/-- A call before it decodes its token, and before it takes the lock of the user. -/
inductive SessionWorker where
  | call (call : SessionCall)
  | rotate (refresh : RefreshToken) (decodedAt : Instant)
  | blacklist (refresh : RefreshToken) (expectedUserId : Option ℤ)
  | revokeFrom (refresh : RefreshToken)
  | finished (result : Except SessionError SessionResult)

namespace SessionWorker

def finish {R : Type} (s : SessionStore) (result : R → SessionResult) (outcome : Except SessionError (SessionStore × R)) :
    SessionStore × SessionWorker :=
  (commit s outcome, .finished (outcome.map fun pair => result pair.2))

def decoded (s : SessionStore) (now : Instant) (raw : RefreshToken) (next : RefreshToken → SessionWorker) :
    SessionStore × SessionWorker :=
  match s.decodeRefresh now raw with
  | .error error => (s, .finished (.error error))
  | .ok refresh => (s, next refresh)

def advance : SessionWorker → SessionInput → SessionStore → SessionStore × SessionWorker
  | .call (.rotateRefreshToken raw), input, s => decoded s input.now raw fun refresh => .rotate refresh input.now
  | .call (.blacklistRefreshToken raw expected), input, s => decoded s input.now raw fun refresh => .blacklist refresh expected
  | .call (.revokeAllSessionsFromRefresh raw), input, s => decoded s input.now raw .revokeFrom
  | .call (.revokeAllUserSessions userId), input, s => finish s .version (s.revokeAllUserSessions userId input.now)
  | .rotate refresh decodedAt, input, s => finish s .rotated (s.rotateRefreshToken refresh decodedAt input)
  | .blacklist refresh expected, input, s => finish s (fun _ => .done) (s.blacklistRefreshToken refresh expected input)
  | .revokeFrom refresh, input, s => finish s .version (s.revokeAllSessionsFromRefresh refresh input)
  | .finished result, _, s => (s, .finished result)

end SessionWorker

inductive SessionChange where
  | register (pk : ℕ)
  | setActive (pk : ℕ) (isActive : Bool)
  | login (token : RefreshToken)

namespace SessionStore
open SessionTokens

/-- A login may have read the version of its user before a revocation; its token gets an identifier of its own. -/
def next (s : SessionStore) : SessionChange → SessionStore
  | .register pk => if ∃ user ∈ s.users, user.pk = pk then s else { s with users := s.users ++ [⟨pk, true, 1⟩] }
  | .setActive pk isActive =>
    match s.user? pk with
    | none => s
    | some user => { s with users := put User.pk { user with isActive } s.users }
  | .login token =>
    match claimId token.userId, claimId token.authVersion with
    | .ok userId, .ok authVersion =>
      if (∃ user ∈ s.users, user.pk = userId ∧ authVersion ≤ user.authVersion) ∧
          ¬ ∃ row ∈ s.outstanding, row.jti = token.jti then
        { s with
          outstanding := s.outstanding ++ [⟨userId, token.jti, token, token.exp * second, rfl⟩]
          history := s.history ++ [.login token] }
      else s
    | _, _ => s

end SessionStore

abbrev SessionCrew := Crew SessionStore SessionWorker

abbrev SessionAction := CrewAction SessionCall SessionInput SessionChange

namespace SessionCrew

def idle : SessionCrew := ⟨⟨[], [], [], []⟩, []⟩

def next (c : SessionCrew) (a : SessionAction) : SessionCrew :=
  c.act SessionStore.next SessionWorker.advance .call a

end SessionCrew

end MapBackend.Tenants
