import MapBackend.Library.Transactions
import Mathlib.Data.List.TakeWhile

/-!
Admission of a public URL: its parts, its canonical form and its origin.
-/

namespace MapBackend.Core
open MapBackend.Library

abbrev Text := List Char

structure IPv4Address where
  compressed : Text
  isGlobal : Bool
  isMulticast : Bool
  deriving DecidableEq

structure IPv6Address where
  compressed : Text
  isGlobal : Bool
  isMulticast : Bool
  /-- One of the networks of `_NAT64_NETWORKS`. -/
  nat64 : Bool
  ipv4Mapped : Option IPv4Address
  sixtofour : Option IPv4Address
  teredo : Option (IPv4Address × IPv4Address)
  deriving DecidableEq

inductive IPAddress where
  | v4 (address : IPv4Address)
  | v6 (address : IPv6Address)
  deriving DecidableEq

def IPAddress.compressed : IPAddress → Text
  | .v4 address => address.compressed
  | .v6 address => address.compressed

def IPv4Address.isPublic (address : IPv4Address) : Prop := address.isGlobal = true ∧ address.isMulticast = false

instance (address : IPv4Address) : Decidable address.isPublic :=
  inferInstanceAs (Decidable (address.isGlobal = true ∧ address.isMulticast = false))

/-- `_is_public_address`: the embedded addresses of version 6 have to be public as well. -/
def IPAddress.isPublic : IPAddress → Prop
  | .v4 address => address.isPublic
  | .v6 address => (address.isGlobal = true ∧ address.isMulticast = false) ∧ address.nat64 = false ∧
      (∀ embedded ∈ address.ipv4Mapped.orElse fun _ => address.sixtofour, embedded.isPublic) ∧
      ∀ pair ∈ address.teredo, pair.1.isPublic ∧ pair.2.isPublic

instance : (address : IPAddress) → Decidable address.isPublic
  | .v4 address => inferInstanceAs (Decidable address.isPublic)
  | .v6 address => inferInstanceAs (Decidable ((address.isGlobal = true ∧ address.isMulticast = false) ∧ address.nat64 = false ∧
      (∀ embedded ∈ address.ipv4Mapped.orElse fun _ => address.sixtofour, embedded.isPublic) ∧
      ∀ pair ∈ address.teredo, pair.1.isPublic ∧ pair.2.isPublic))

/-- Unicode tables and address syntax: the check of a network location by `urlsplit`, `str.lower`,
`ipaddress.ip_address` and the IDNA codec. -/
structure UrlLibrary where
  netlocValid : Text → Bool
  lower : Text → Text
  ipAddress : Text → Option IPAddress
  idna : Text → Option Text

structure UnsafePublicURL where
  message : String
  deriving DecidableEq

namespace Url

def http : Text := "http".toList
def https : Text := "https".toList
def maxPublicUrlLength : ℕ := 4096

def isSpace (c : Char) : Bool :=
  let n := c.toNat
  (9 ≤ n && n ≤ 13) || (28 ≤ n && n ≤ 32) || n == 0x85 || n == 0xA0 || n == 0x1680 || (0x2000 ≤ n && n ≤ 0x200A) ||
    n == 0x2028 || n == 0x2029 || n == 0x202F || n == 0x205F || n == 0x3000

def rstrip (drop : Char → Bool) (text : Text) : Text := (text.reverse.dropWhile drop).reverse

def strip (text : Text) : Text := rstrip isSpace (text.dropWhile isSpace)

def partitionAt (c : Char) (text : Text) : Text × Text :=
  (text.takeWhile (· != c), (text.dropWhile (· != c)).tail)

def afterLast (c : Char) (text : Text) : Text := (text.reverse.takeWhile (· != c)).reverse

structure SplitResult where
  scheme : Text
  netloc : Text
  path : Text
  query : Text

def isSchemeChar (c : Char) : Bool := c.isAlphanum || c == '+' || c == '-' || c == '.'

def splitScheme (url : Text) : Text × Text :=
  let (scheme, rest) := partitionAt ':' url
  if ':' ∈ url ∧ scheme.head?.any Char.isAlpha = true ∧ scheme.all isSchemeChar = true then (scheme.map Char.toLower, rest)
  else ([], url)

def isNetloc (c : Char) : Bool := c != '/' && c != '?' && c != '#'

def splitNetloc : Text → Text × Text
  | '/' :: '/' :: rest => (rest.takeWhile isNetloc, rest.dropWhile isNetloc)
  | rest => ([], rest)

/-- `urlsplit` of a stripped text without control characters. -/
def urlsplit (lib : UrlLibrary) (url : Text) : Option SplitResult :=
  let (scheme, rest) := splitScheme url
  let (netloc, rest) := splitNetloc rest
  if lib.netlocValid netloc then
    let (path, query) := partitionAt '?' (partitionAt '#' rest).1
    some { scheme, netloc, path, query }
  else none

def urlunsplit (scheme authority path query : Text) : Text :=
  scheme ++ "://".toList ++ authority ++ (if path.head? = some '/' then path else '/' :: path) ++
    if query = [] then [] else '?' :: query

/-- `_hostinfo`: the host and the port of a network location. -/
def hostinfo (netloc : Text) : Text × Text :=
  let info := afterLast '@' netloc
  if '[' ∈ info then
    let (host, rest) := partitionAt ']' (partitionAt '[' info).2
    (host, (partitionAt ':' rest).2)
  else partitionAt ':' info

/-- `parsed.hostname or ''`: the zone keeps its case. -/
def hostname (lib : UrlLibrary) (netloc : Text) : Text :=
  let host := (hostinfo netloc).1
  lib.lower (host.takeWhile (· != '%')) ++ host.dropWhile (· != '%')

def port (netloc : Text) : Option (Option ℕ) :=
  let text := (hostinfo netloc).2
  if text = [] then some none
  else if text.all Char.isDigit = true then
    let value := text.foldl (fun value digit => 10 * value + (digit.toNat - '0'.toNat)) 0
    if value ≤ 65535 then some (some value) else none
  else none

def defaultPort (scheme : Text) : ℕ := if scheme = https then 443 else 80

end Url

structure ParsedPublicURL where
  url : Text
  scheme : Text
  hostname : Text
  port : ℕ
  authority : Text
  deriving DecidableEq

def ParsedPublicURL.origin (parsed : ParsedPublicURL) : Text × Text × ℕ := (parsed.scheme, parsed.hostname, parsed.port)

namespace Url

def canonicalHostname (lib : UrlLibrary) (host : Text) : Except UnsafePublicURL Text :=
  match lib.ipAddress host with
  | some address => .ok address.compressed
  | none => orRaise ⟨"Некорректный hostname."⟩ (lib.idna host)

/-- The checks of `_parse_public_http_url` on the scheme and the network location, and the origin. -/
def parseOrigin (lib : UrlLibrary) (scheme netloc : Text) : Except UnsafePublicURL (Text × Text × ℕ) := do
  let host := lib.lower (rstrip (· == '.') (hostname lib netloc))
  let parsedPort ← orRaise ⟨"Некорректный HTTP URL."⟩ (port netloc)
  raiseIf (¬ (scheme = http ∨ scheme = https) ∨ host = []) ⟨"Разрешены только HTTP(S) URL с hostname."⟩
  let port := parsedPort.getD (defaultPort scheme)
  raiseIf (port = 0) ⟨"Некорректный TCP port в HTTP URL."⟩
  raiseIf ('@' ∈ netloc) ⟨"Credentials в HTTP URL запрещены."⟩
  raiseIf (host = "localhost".toList ∨ ".localhost".toList <:+ host ∨ '%' ∈ host) ⟨"Локальный hostname запрещён."⟩
  let canonical ← canonicalHostname lib host
  pure (scheme, canonical, port)

def authorityOf (scheme canonical : Text) (port : ℕ) : Text :=
  let host := if ':' ∈ canonical then '[' :: canonical ++ [']'] else canonical
  if port = defaultPort scheme then host else host ++ ':' :: (toString port).toList

def parsePublicHttpUrl (lib : UrlLibrary) (value : Text) : Except UnsafePublicURL ParsedPublicURL := do
  let raw := strip value
  raiseIf (raw = [] ∨ maxPublicUrlLength < raw.length) ⟨"Некорректная длина HTTP URL."⟩
  raiseIf ('\\' ∈ raw ∨ raw.any (fun c => c.toNat < 32 || c.toNat == 127) = true) ⟨"HTTP URL содержит запрещённые символы."⟩
  let parsed ← orRaise ⟨"Некорректный HTTP URL."⟩ (urlsplit lib raw)
  let (scheme, canonical, port) ← parseOrigin lib parsed.scheme parsed.netloc
  let authority := authorityOf scheme canonical port
  pure
    { url := urlunsplit scheme authority (if parsed.path = [] then ['/'] else parsed.path) parsed.query
      scheme, hostname := canonical, port, authority }

end Url

structure ResolvedPublicTarget extends ParsedPublicURL where
  approvedIps : List IPAddress
  deriving DecidableEq

namespace Url

/-- The answer of the resolver: an address for each record of a known family, or an `OSError`. -/
abbrev Records := Option (List (Option IPAddress))

def notPublic : UnsafePublicURL := ⟨"URL не указывает только на публичные IP-адреса."⟩

def distinct (addresses : List IPAddress) : List IPAddress :=
  addresses.foldl (fun seen address => if ∃ other ∈ seen, other.compressed = address.compressed then seen else seen ++ [address]) []

def addressesOf (lib : UrlLibrary) (records : Records) (host : Text) : Except UnsafePublicURL (List IPAddress) :=
  match lib.ipAddress host with
  | some literal => .ok [literal]
  | none => (orRaise ⟨"Не удалось безопасно разрешить hostname."⟩ records).map fun records => distinct (records.filterMap id)

def resolvePublicHttpUrl (lib : UrlLibrary) (records : Records) (value : Text) :
    Except UnsafePublicURL ResolvedPublicTarget := do
  let parsed ← parsePublicHttpUrl lib value
  let addresses ← addressesOf lib records parsed.hostname
  raiseIf (addresses = [] ∨ ∃ address ∈ addresses, ¬ address.isPublic) notPublic
  pure { parsed with approvedIps := addresses }

def trustedPublicHttpProxyUrl : Text := "http://egress_proxy:3128".toList

/-- `_configured_public_http_proxy_url` of the setting: whether requests go through the proxy. -/
def configuredPublicHttpProxyUrl (setting : Text) : Except UnsafePublicURL Bool := do
  raiseIf (strip setting ≠ [] ∧ strip setting ≠ trustedPublicHttpProxyUrl) ⟨"Разрешён только доверенный public HTTP proxy."⟩
  pure (strip setting ≠ [])

/-- Through the proxy, which resolves a host name itself, only a literal address is checked. -/
def resolveThroughProxy (lib : UrlLibrary) (value : Text) : Except UnsafePublicURL ResolvedPublicTarget := do
  let parsed ← parsePublicHttpUrl lib value
  let literals := (lib.ipAddress parsed.hostname).toList
  raiseIf (∃ literal ∈ literals, ¬ literal.isPublic) notPublic
  pure { parsed with approvedIps := literals }

def resolvePublicHttpTransportUrl (lib : UrlLibrary) (proxySetting : Text) (records : Records) (value : Text) :
    Except UnsafePublicURL ResolvedPublicTarget := do
  let proxy ← configuredPublicHttpProxyUrl proxySetting
  if proxy then resolveThroughProxy lib value else resolvePublicHttpUrl lib records value

variable {lib : UrlLibrary} {value : Text}

theorem resolve_ok {proxySetting : Text} {records : Records} {target : ResolvedPublicTarget}
    (resolved : resolvePublicHttpTransportUrl lib proxySetting records value = .ok target) :
    parsePublicHttpUrl lib value = .ok target.toParsedPublicURL := by
  simp only [resolvePublicHttpTransportUrl, bind_ok] at resolved
  obtain ⟨_, -, resolved⟩ := resolved
  split at resolved
  · simp only [resolveThroughProxy, bind_ok, raiseIf_ok, pure_ok] at resolved
    obtain ⟨parsed, found, _, -, rfl⟩ := resolved
    exact found
  · simp only [resolvePublicHttpUrl, bind_ok, raiseIf_ok, pure_ok] at resolved
    obtain ⟨parsed, found, _, -, _, -, rfl⟩ := resolved
    exact found

/-! The origin is a function of the scheme and the network location. -/

def location (url : Text) : Text × Text := ((splitScheme (strip url)).1, (splitNetloc (splitScheme (strip url)).2).1)

variable {parsed : ParsedPublicURL}

theorem parse_ok
    (found : parsePublicHttpUrl lib value = .ok parsed) :
    parseOrigin lib (location value).1 (location value).2 = .ok parsed.origin ∧
      parsed.authority = authorityOf parsed.scheme parsed.hostname parsed.port ∧
      ∃ path query, parsed.url = urlunsplit parsed.scheme parsed.authority path query := by
  simp only [parsePublicHttpUrl, bind_ok, raiseIf_ok, orRaise_ok, pure_ok] at found
  obtain ⟨_, -, _, -, split, splits, ⟨_, _, _⟩, origin, rfl⟩ := found
  simp only [urlsplit] at splits
  split at splits
  · obtain rfl := Option.some.inj splits
    exact ⟨origin, rfl, _, _, rfl⟩
  · cases splits

theorem parseOrigin_scheme {scheme netloc : Text} {origin : Text × Text × ℕ}
    (found : parseOrigin lib scheme netloc = .ok origin) : origin.1 = scheme ∧ (scheme = http ∨ scheme = https) := by
  simp only [parseOrigin, bind_ok, raiseIf_ok, pure_ok, not_or] at found
  obtain ⟨_, -, _, ⟨known, -⟩, _, -, _, -, _, -, _, -, rfl⟩ := found
  exact ⟨rfl, or_iff_not_and_not.mpr known⟩

theorem rstrip_append {drop : Char → Bool} {c : Char} (kept : drop c = false) (before after : Text) :
    rstrip drop (before ++ c :: after) = before ++ c :: rstrip drop after := by
  have stops : (c :: before.reverse).dropWhile drop = c :: before.reverse := by simp [kept]
  simp only [rstrip, List.reverse_append, List.reverse_cons, List.append_assoc, List.singleton_append, List.dropWhile_append]
  by_cases blank : (after.reverse.dropWhile drop).isEmpty = true
  · rw [if_pos blank, stops, List.isEmpty_iff.mp blank]
    simp
  · rw [if_neg blank]
    simp

theorem takeWhile_stop {keep : Char → Bool} {c : Char} (stop : keep c = false) (before after : Text) :
    (before ++ c :: after).takeWhile keep = before.takeWhile keep := by
  induction before with
  | nil => simp [stop]
  | cons _ _ ih =>
    simp only [List.cons_append, List.takeWhile_cons]
    split
    · rw [ih]
    · rfl

theorem location_urlunsplit {scheme : Text} (known : scheme = http ∨ scheme = https) (authority path query : Text) :
    location (urlunsplit scheme authority path query) = (scheme, authority.takeWhile isNetloc) := by
  obtain ⟨tail, shape⟩ : ∃ tail, urlunsplit scheme authority path query = (scheme ++ "://".toList ++ authority) ++ '/' :: tail := by
    unfold urlunsplit
    split
    next slash =>
      obtain ⟨_, rfl⟩ := List.head?_eq_some_iff.mp slash
      exact ⟨_, by rw [List.append_assoc, List.cons_append]⟩
    next => exact ⟨_, by rw [List.append_assoc, List.cons_append]⟩
  have stripped : strip (urlunsplit scheme authority path query) =
      scheme ++ "://".toList ++ authority ++ '/' :: rstrip isSpace tail := by
    rw [shape, ← rstrip_append (by decide)]
    unfold strip
    rcases known with rfl | rfl <;> rfl
  have split : splitScheme (scheme ++ "://".toList ++ authority ++ '/' :: rstrip isSpace tail) =
      (scheme, '/' :: '/' :: (authority ++ '/' :: rstrip isSpace tail)) := by
    rcases known with rfl | rfl
    · simp [splitScheme, partitionAt, http, isSchemeChar]
    · simp [splitScheme, partitionAt, https, isSchemeChar]
  rw [location, stripped, split]
  exact Prod.ext rfl (takeWhile_stop (by decide) authority _)

theorem parse_scheme
    (found : parsePublicHttpUrl lib value = .ok parsed) : parsed.scheme = http ∨ parsed.scheme = https := by
  obtain ⟨scheme, known⟩ := parseOrigin_scheme (parse_ok found).1
  rw [show parsed.scheme = (location value).1 from scheme]
  exact known

theorem location_url
    (found : parsePublicHttpUrl lib value = .ok parsed) : location parsed.url =
      (parsed.scheme, (authorityOf parsed.scheme parsed.hostname parsed.port).takeWhile isNetloc) := by
  obtain ⟨-, authority, _, _, url⟩ := parse_ok found
  rw [url, location_urlunsplit (parse_scheme found), authority]

theorem reparse_scheme {parsed again : ParsedPublicURL}
    (found : parsePublicHttpUrl lib value = .ok parsed) (reread : parsePublicHttpUrl lib parsed.url = .ok again) :
    again.scheme = parsed.scheme := by
  have scheme := (parseOrigin_scheme (parse_ok reread).1).1
  rw [location_url found] at scheme
  exact scheme

theorem origin_of_location {value other : Text} {p q : ParsedPublicURL}
    (left : parsePublicHttpUrl lib value = .ok p) (right : parsePublicHttpUrl lib other = .ok q)
    (same : location other = location value) : q.origin = p.origin := by
  have first := (parse_ok left).1
  have second := (parse_ok right).1
  rw [same] at second
  exact Except.ok.inj (second.symm.trans first)

theorem location_of_origin {value other : Text} {p q : ParsedPublicURL}
    (left : parsePublicHttpUrl lib value = .ok p) (right : parsePublicHttpUrl lib other = .ok q)
    (same : q.origin = p.origin) : location q.url = location p.url := by
  have scheme : q.scheme = p.scheme := congrArg Prod.fst same
  have host : q.hostname = p.hostname := congrArg (fun origin => origin.2.1) same
  have port : q.port = p.port := congrArg (fun origin => origin.2.2) same
  rw [location_url left, location_url right, scheme, host, port]

end Url

end MapBackend.Core
