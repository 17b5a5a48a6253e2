import MapBackend.Core.PublicUrl
import MapBackend.Library.Encodings
import MapBackend.Library.JsonTexts

/-!
What the secret of a feed address and the digest of an account are computed from: one message of bytes for an endpoint and
one for an account.
-/

namespace MapBackend.Marketplaces.FeedIdentity
open MapBackend.Library MapBackend.Core

/-! ## Endpoints -/

structure PublicId where
  bytes : List UInt8
  sixteen : bytes.length = 16
  deriving DecidableEq

structure MarketplaceFeedEndpoint where
  publicId : PublicId
  tenantId : ℤ
  accountId : ℤ
  ownerIdentityDigest : Text
  capabilityRevision : Json

def capabilityDomain : Text := "map.marketplace-feed-url.v1".toList ++ ['\x00']

def maxCapabilityRevision : ℤ := 2 ^ 63 - 1

def isOwnerIdentity (digest : Text) : Bool := decide (digest.length = 64) && digest.all isHexDigit

def integerOf : Json → Option ℤ
  | .int n => some n
  | _ => none

def decimal (n : ℤ) : List UInt8 := utf8Bytes (toString n).toList

def endpointIdentity (endpoint : MarketplaceFeedEndpoint) : Except String (PublicId × ℤ × ℤ) := do
  raiseIf (endpoint.accountId ≤ 0 ∨ endpoint.tenantId ≤ 0) "Marketplace feed endpoint identity is invalid."
  .ok (endpoint.publicId, endpoint.tenantId, endpoint.accountId)

def capabilityMessage (endpoint : MarketplaceFeedEndpoint) : Except String (List UInt8) := do
  let (publicId, tenantId, accountId) ← endpointIdentity endpoint
  raiseIf (isOwnerIdentity endpoint.ownerIdentityDigest = false) "Marketplace feed endpoint owner identity is invalid."
  let revision ← orRaise "Marketplace feed endpoint capability revision is invalid." (integerOf endpoint.capabilityRevision)
  raiseIf (¬ (1 ≤ revision ∧ revision ≤ maxCapabilityRevision)) "Marketplace feed endpoint capability revision is invalid."
  .ok (utf8Bytes capabilityDomain ++ (publicId.bytes ++ 0 :: (decimal tenantId ++ 0 :: (decimal accountId ++
    0 :: (fromHex endpoint.ownerIdentityDigest ++ 0 :: decimal revision)))))

theorem zero_notMem_plain {text : Text} (plain : Json.Plain text) : (0 : UInt8) ∉ utf8Bytes text :=
  zero_notMem_utf8Bytes fun c mem => Nat.lt_of_lt_of_le (by decide) (plain c mem)

theorem zero_notMem_decimal (n : ℤ) : (0 : UInt8) ∉ decimal n :=
  zero_notMem_plain fun c mem => Json.numberChar_plain (List.all_eq_true.mp (Json.int_text_number n) c mem)

theorem decimal_injective {n m : ℤ} (same : decimal n = decimal m) : n = m := by
  have texts := utf8Bytes_injective same
  rw [Int.toString_eq_repr, Int.toString_eq_repr] at texts
  exact Int.repr_injective (String.toList_inj.mp texts)

theorem integerOf_some {value : Json} {n : ℤ} (read : integerOf value = some n) : value = .int n := by
  cases value with
  | int => exact congrArg Json.int (Option.some.inj read)
  | _ => cases read

theorem PublicId.eq_of_bytes {a b : PublicId} (same : a.bytes = b.bytes) : a = b := by
  cases a
  cases b
  cases same
  rfl

theorem capabilityMessage_ok {endpoint : MarketplaceFeedEndpoint} {message : List UInt8}
    (built : capabilityMessage endpoint = .ok message) : ∃ revision, endpoint.capabilityRevision = .int revision ∧
      endpoint.ownerIdentityDigest.length = 64 ∧ endpoint.ownerIdentityDigest.all isHexDigit = true ∧
      message = utf8Bytes capabilityDomain ++ (endpoint.publicId.bytes ++ 0 :: (decimal endpoint.tenantId ++
        0 :: (decimal endpoint.accountId ++ 0 :: (fromHex endpoint.ownerIdentityDigest ++ 0 :: decimal revision)))) := by
  simp only [capabilityMessage, endpointIdentity, bind_ok, raiseIf_ok, orRaise_ok] at built
  obtain ⟨_, ⟨-, -, identity⟩, -, digest, revision, read, -, -, built⟩ := built
  obtain rfl := Except.ok.inj identity
  cases built
  rw [Bool.not_eq_false, isOwnerIdentity, Bool.and_eq_true, decide_eq_true_eq] at digest
  exact ⟨revision, integerOf_some read, digest.1, digest.2, rfl⟩

theorem capabilityMessage_injective {endpoint other : MarketplaceFeedEndpoint} {message : List UInt8}
    (built : capabilityMessage endpoint = .ok message) (again : capabilityMessage other = .ok message) : endpoint = other := by
  obtain ⟨_, read, size, digits, rfl⟩ := capabilityMessage_ok built
  obtain ⟨_, read', size', digits', same⟩ := capabilityMessage_ok again
  obtain ⟨ids, rest⟩ := List.append_inj (List.append_cancel_left same)
    (endpoint.publicId.sixteen.trans other.publicId.sixteen.symm)
  obtain ⟨tenants, rest⟩ := separated_unique (zero_notMem_decimal _) (zero_notMem_decimal _) (List.cons.inj rest).2
  obtain ⟨accounts, rest⟩ := separated_unique (zero_notMem_decimal _) (zero_notMem_decimal _) rest
  obtain ⟨digests, rest⟩ := List.append_inj rest
    ((@length_fromHex _ 32 size).trans (@length_fromHex _ 32 size').symm)
  have revisions := decimal_injective (List.cons.inj rest).2
  cases endpoint
  cases other
  simp only at ids tenants accounts digests read read' size size' digits digits'
  obtain rfl := PublicId.eq_of_bytes ids
  obtain rfl := decimal_injective tenants
  obtain rfl := decimal_injective accounts
  obtain rfl := @fromHex_injective _ _ 32 digits digits' size size' digests
  obtain rfl := read.trans ((congrArg Json.int revisions).trans read'.symm)
  rfl

/-! ## Accounts -/

structure MarketplaceAccount where
  pk : Option ℕ
  externalId : Text
  marketplace : Text
  tenantId : Option ℕ
  credentialsEnc : List UInt8

/-- What stored bytes decrypt to, or nothing when decryption raises or the value cannot be written in UTF-8. A parser of
JSON keeps a key once and shows a float as it is read back. -/
structure CredentialCipher where
  decrypt : List UInt8 → Option Json
  decrypt_well : ∀ {bytes value}, decrypt bytes = some value → value.Well

/-- `json.dumps` with sorted keys and without blanks, in UTF-8. -/
def canonicalBytes (value : Json) : Option (List UInt8) := value.sorted.dumps.map utf8Bytes

def idValue : Option ℕ → Json
  | none => .null
  | some n => .int n

def accountIdentity (account : MarketplaceAccount) : Json :=
  .object [("account_id".toList, idValue account.pk), ("external_id".toList, .text account.externalId),
    ("marketplace".toList, .text account.marketplace), ("tenant_id".toList, idValue account.tenantId)]

def readCredentials (cipher : CredentialCipher) (account : MarketplaceAccount) : Option Json :=
  (cipher.decrypt account.credentialsEnc).filter fun value => value.isObject && (canonicalBytes value).isSome

def canonicalSource : List UInt8 := utf8Bytes "canonical-json".toList
def opaqueSource : List UInt8 := utf8Bytes "opaque-ciphertext".toList

def credentialIdentity (cipher : CredentialCipher) (account : MarketplaceAccount) : List UInt8 × List UInt8 :=
  match (readCredentials cipher account).bind canonicalBytes with
  | some written => (canonicalSource, written)
  | none => (opaqueSource, account.credentialsEnc)

def authenticatedIdentity (cipher : CredentialCipher) (account : MarketplaceAccount) : Option (List UInt8) := do
  let own ← canonicalBytes (accountIdentity account)
  let (source, identity) := credentialIdentity cipher account
  some (utf8Bytes "v1".toList ++ 0 :: (own ++ 0 :: (source ++ 0 :: identity)))

structure Hmac where
  digest : List UInt8 → List UInt8 → List UInt8
  hexdigest : List UInt8 → List UInt8 → Text

def identityDomain : List UInt8 := utf8Bytes "saas-poster:marketplace-feed-account-identity:v1".toList

def accountIdentityDigest (hmac : Hmac) (secretKey : Text) (cipher : CredentialCipher) (account : MarketplaceAccount) :
    Option Text :=
  (authenticatedIdentity cipher account).map (hmac.hexdigest (hmac.digest (utf8Bytes secretKey) identityDomain))

/-! ## Unambiguous messages -/

variable {cipher : CredentialCipher} {a b : MarketplaceAccount}

/-- The credentials are the same values, or the same bytes where they are not read. -/
inductive SameCredentials (cipher : CredentialCipher) (a b : MarketplaceAccount) : Prop where
  | values {x y : Json} (first : readCredentials cipher a = some x) (second : readCredentials cipher b = some y)
      (same : x.Same y)
  | bytes (first : readCredentials cipher a = none) (second : readCredentials cipher b = none)
      (same : a.credentialsEnc = b.credentialsEnc)

structure SameIdentity (cipher : CredentialCipher) (a b : MarketplaceAccount) : Prop where
  pk : a.pk = b.pk
  externalId : a.externalId = b.externalId
  marketplace : a.marketplace = b.marketplace
  tenantId : a.tenantId = b.tenantId
  credentials : SameCredentials cipher a b

theorem idValue_well (id : Option ℕ) : (idValue id).Well := by
  cases id <;> rfl

theorem idValue_injective {n m : Option ℕ} (same : idValue n = idValue m) : n = m := by
  cases n <;> cases m <;> simp_all [idValue]

theorem accountIdentity_sorted (account : MarketplaceAccount) : (accountIdentity account).sorted = accountIdentity account := by
  cases account with
  | mk pk _ _ tenantId =>
    cases pk <;> cases tenantId <;> rfl

theorem accountIdentity_well (account : MarketplaceAccount) : (accountIdentity account).Well := by
  have keys : ["account_id".toList, "external_id".toList, "marketplace".toList, "tenant_id".toList].Nodup := by decide
  refine Json.wellFormed_object.mpr ⟨keys, ?_⟩
  simp only [List.forall_mem_cons]
  exact ⟨idValue_well _, rfl, rfl, idValue_well _, List.forall_mem_nil _⟩

theorem idValue_written (id : Option ℕ) : ∃ shown, (idValue id).dumps = some shown := by
  cases id <;> exact ⟨_, rfl⟩

theorem accountIdentity_written (account : MarketplaceAccount) : ∃ shown, (accountIdentity account).dumps = some shown ∧
    canonicalBytes (accountIdentity account) = some (utf8Bytes shown) ∧ (0 : UInt8) ∉ utf8Bytes shown := by
  obtain ⟨_, own⟩ := idValue_written account.pk
  obtain ⟨_, its⟩ := idValue_written account.tenantId
  obtain ⟨shown, written⟩ : ∃ shown, (accountIdentity account).dumps = some shown := by
    simp only [accountIdentity, Json.dumps, Json.dumpsEntries, own, its, Option.bind_eq_bind, Option.bind_some, Option.map_some]
    exact ⟨_, rfl⟩
  have plain := Json.dumps_plain (accountIdentity_well account) shown written
  refine ⟨shown, written, ?_, zero_notMem_plain plain⟩
  rw [canonicalBytes, accountIdentity_sorted, written, Option.map_some]

theorem accountIdentity_injective {shown : Text} (first : (accountIdentity a).dumps = some shown)
    (second : (accountIdentity b).dumps = some shown) :
    a.pk = b.pk ∧ a.externalId = b.externalId ∧ a.marketplace = b.marketplace ∧ a.tenantId = b.tenantId := by
  have same := Json.dumps_injective (accountIdentity_well a) (accountIdentity_well b) first second
  simp only [accountIdentity, Json.object.injEq, List.cons.injEq, Prod.mk.injEq, Json.text.injEq, true_and, and_true] at same
  obtain ⟨keys, externals, markets, tenants⟩ := same
  exact ⟨idValue_injective keys, externals, markets, idValue_injective tenants⟩

theorem credentialIdentity_cases (cipher : CredentialCipher) (account : MarketplaceAccount) :
    (∃ value shown, readCredentials cipher account = some value ∧ value.Well ∧ value.sorted.dumps = some shown ∧
      credentialIdentity cipher account = (canonicalSource, utf8Bytes shown)) ∨
    (readCredentials cipher account = none ∧ credentialIdentity cipher account = (opaqueSource, account.credentialsEnc)) := by
  cases read : readCredentials cipher account with
  | none => exact .inr ⟨rfl, by rw [credentialIdentity, read]; rfl⟩
  | some value =>
    obtain ⟨decrypted, passes⟩ := Option.filter_eq_some_iff.mp read
    obtain ⟨_, known⟩ := Option.isSome_iff_exists.mp (Bool.and_eq_true_iff.mp passes).2
    obtain ⟨shown, dumped, rfl⟩ := Option.map_eq_some_iff.mp known
    refine .inl ⟨value, shown, rfl, cipher.decrypt_well decrypted, dumped, ?_⟩
    rw [credentialIdentity, read, Option.bind_some, known]

theorem credentialIdentity_source (cipher : CredentialCipher) (account : MarketplaceAccount) :
    (0 : UInt8) ∉ (credentialIdentity cipher account).1 := by
  rcases credentialIdentity_cases cipher account with ⟨_, _, -, -, -, is⟩ | ⟨-, is⟩
  · rw [is]
    exact zero_notMem_plain (Json.plain_of_all (by decide))
  · rw [is]
    exact zero_notMem_plain (Json.plain_of_all (by decide))

theorem credentialIdentity_injective (same : credentialIdentity cipher a = credentialIdentity cipher b) :
    SameCredentials cipher a b := by
  have apart : canonicalSource ≠ opaqueSource := fun sources => absurd (utf8Bytes_injective sources) (by decide)
  rcases credentialIdentity_cases cipher a with ⟨x, _, first, well, dumped, is⟩ | ⟨first, is⟩
  · rcases credentialIdentity_cases cipher b with ⟨y, told, second, good, redumped, its⟩ | ⟨second, its⟩
    · obtain rfl := utf8Bytes_injective (Prod.mk.inj (is.symm.trans (same.trans its))).2
      exact .values first second (Json.same_of_canonical well good dumped redumped)
    · exact absurd (Prod.mk.inj (is.symm.trans (same.trans its))).1 apart
  · rcases credentialIdentity_cases cipher b with ⟨y, told, second, good, redumped, its⟩ | ⟨second, its⟩
    · exact absurd (Prod.mk.inj (is.symm.trans (same.trans its))).1.symm apart
    · exact .bytes first second (Prod.mk.inj (is.symm.trans (same.trans its))).2

theorem authenticatedIdentity_written (cipher : CredentialCipher) (account : MarketplaceAccount) :
    ∃ shown, (accountIdentity account).dumps = some shown ∧ (0 : UInt8) ∉ utf8Bytes shown ∧
      authenticatedIdentity cipher account = some (utf8Bytes "v1".toList ++ 0 :: (utf8Bytes shown ++
        0 :: ((credentialIdentity cipher account).1 ++ 0 :: (credentialIdentity cipher account).2))) := by
  obtain ⟨shown, dumped, written, plain⟩ := accountIdentity_written account
  refine ⟨shown, dumped, plain, ?_⟩
  rw [authenticatedIdentity, written]
  rfl

theorem authenticatedIdentity_injective (same : authenticatedIdentity cipher a = authenticatedIdentity cipher b) :
    SameIdentity cipher a b := by
  obtain ⟨_, dumped, plain, is⟩ := authenticatedIdentity_written cipher a
  obtain ⟨_, redumped, bare, its⟩ := authenticatedIdentity_written cipher b
  have bytes := Option.some.inj (is.symm.trans (same.trans its))
  obtain ⟨texts, rest⟩ := separated_unique plain bare (List.cons.inj (List.append_cancel_left bytes)).2
  obtain ⟨sources, identities⟩ := separated_unique (credentialIdentity_source cipher a) (credentialIdentity_source cipher b) rest
  obtain rfl := utf8Bytes_injective texts
  obtain ⟨pk, externalId, marketplace, tenantId⟩ := accountIdentity_injective dumped redumped
  exact ⟨pk, externalId, marketplace, tenantId, credentialIdentity_injective (Prod.ext sources identities)⟩

/-- Endpoints with one message are one endpoint, and accounts with one message, or with one digest where no two messages
have the same, have one identity. -/
theorem identities_unambiguous (cipher : CredentialCipher) :
    (∀ (endpoint other : MarketplaceFeedEndpoint) (message : List UInt8), capabilityMessage endpoint = .ok message →
      capabilityMessage other = .ok message → endpoint = other) ∧
    (∀ a b : MarketplaceAccount, (authenticatedIdentity cipher a).isSome = true ∧
      (authenticatedIdentity cipher a = authenticatedIdentity cipher b → SameIdentity cipher a b)) ∧
    ∀ (hmac : Hmac) (secretKey : Text) (a b : MarketplaceAccount), (∀ key, Function.Injective (hmac.hexdigest key)) →
      accountIdentityDigest hmac secretKey cipher a = accountIdentityDigest hmac secretKey cipher b → SameIdentity cipher a b := by
  refine ⟨fun _ _ _ => capabilityMessage_injective, fun a b => ⟨?_, authenticatedIdentity_injective⟩, ?_⟩
  · obtain ⟨_, -, -, is⟩ := authenticatedIdentity_written cipher a
    rw [is, Option.isSome_some]
  · intro hmac secretKey a b free same
    exact authenticatedIdentity_injective (Option.map_injective (free _) same)

def endpointOf (tenantId accountId : ℤ) : MarketplaceFeedEndpoint where
  publicId := ⟨List.replicate 16 7, rfl⟩
  tenantId
  accountId
  ownerIdentityDigest := List.replicate 64 'a'
  capabilityRevision := .int 1

/-- A digit that moves from the account to the tenant changes the message. -/
theorem moved_digit_apart : ∃ message, capabilityMessage (endpointOf 1 23) = .ok message ∧
    capabilityMessage (endpointOf 12 3) ≠ .ok message := by
  have accepted : (capabilityMessage (endpointOf 1 23)).toOption.isSome = true := by decide +kernel
  let silent : CredentialCipher := ⟨fun _ => none, fun none => by cases none⟩
  cases made : capabilityMessage (endpointOf 1 23) with
  | error =>
    rw [made] at accepted
    cases accepted
  | ok message =>
    refine ⟨message, rfl, fun again => ?_⟩
    have same := (identities_unambiguous silent).1 _ _ _ made again
    exact absurd (congrArg MarketplaceFeedEndpoint.tenantId same) (by decide)

end MapBackend.Marketplaces.FeedIdentity
