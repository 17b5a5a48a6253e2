import MapBackend.Core.PublicUrl
import Mathlib.Data.List.Chain

/-!
A public request with its redirects.
-/

namespace MapBackend.Core
open MapBackend.Library Url

inductive HttpMethod where
  | get
  | head
  | post
  deriving DecidableEq

inductive RedirectPolicy where
  | redirectNone
  | redirectSameOrigin
  | redirectPublic
  deriving DecidableEq

inductive PublicHttpError where
  | unsafeUrl (error : UnsafePublicURL)
  | deadlineExceeded
  /-- An exception of `requests` or of the reading of the body. -/
  | transport (message : String)
  | valueError (message : String)
  deriving DecidableEq

abbrev Headers := List (Text × Text)
abbrev Params := List (Text × Text)

/-- `urljoin` and the URL that `requests` prepares, or refuses. -/
structure HttpLibrary extends UrlLibrary where
  urljoin : Text → Text → Text
  prepare : Text → Option Params → Option Text

/-- The arguments of `_request_public_http_url_sync` and the setting of the proxy. -/
structure PublicCall where
  value : Text
  method : HttpMethod
  headers : Headers
  data : Option Text
  jsonBody : Option Text
  params : Option Params
  auth : Option Text
  maxResponseBytes : Option ℕ
  statusOnly : Bool
  redirectPolicy : RedirectPolicy
  maxRedirects : ℕ
  proxySetting : Text

structure HttpResponse where
  status : ℕ
  url : Text
  location : Text
  /-- What `read_response_limited` reads. -/
  body : Except PublicHttpError Text

structure Hop where
  records : Records
  lateBefore : Bool
  lateAfter : Bool
  answer : Except PublicHttpError HttpResponse

structure SentRequest where
  currentUrl : Text
  target : ResolvedPublicTarget
  url : Text
  method : HttpMethod
  headers : Headers
  data : Option Text
  jsonBody : Option Text
  params : Option Params
  auth : Option Text
  deriving DecidableEq

structure RedirectState where
  url : Text
  headers : Headers
  auth : Option Text
  params : Option Params

namespace PublicHttp

def redirectStatusCodes : List ℕ := [301, 302, 303, 307, 308]
def safeCrossOriginHeaders : List Text := ["accept".toList, "user-agent".toList]
def sensitiveTransportHeaders : List Text := ["authorization".toList, "cookie".toList, "proxy-authorization".toList]

def acceptIdentity : Text × Text := ("Accept-Encoding".toList, "identity".toList)

def unsafeUrl {R : Type} (outcome : Except UnsafePublicURL R) : Except PublicHttpError R := outcome.mapError .unsafeUrl

def headersForCrossOrigin (lib : HttpLibrary) (headers : Headers) : Headers :=
  headers.filter fun header => lib.lower header.1 ∈ safeCrossOriginHeaders

def requestHeaders (lib : HttpLibrary) (headers : Headers) : Headers :=
  (headers.filter fun header => lib.lower header.1 ≠ "accept-encoding".toList) ++ [acceptIdentity]

/-- The loop before its request is sent, with the checks of the adapter on the prepared URL. -/
def admitHop (lib : HttpLibrary) (call : PublicCall) (st : RedirectState) (hop : Hop) : Except PublicHttpError SentRequest := do
  let target ← unsafeUrl (resolvePublicHttpTransportUrl lib.toUrlLibrary call.proxySetting hop.records st.url)
  raiseIf (hop.lateBefore = true) .deadlineExceeded
  raiseIf (target.scheme ≠ https ∧ (st.auth ≠ none ∨ ∃ header ∈ st.headers, lib.lower header.1 ∈ sensitiveTransportHeaders))
    (.unsafeUrl ⟨"Credentials разрешено отправлять только по HTTPS."⟩)
  let url ← orRaise (.transport "InvalidURL") (lib.prepare target.url st.params)
  let requested ← unsafeUrl (parsePublicHttpUrl lib.toUrlLibrary url)
  raiseIf (requested.origin ≠ target.origin) (.unsafeUrl ⟨"HTTP request не совпадает с pinned origin."⟩)
  pure
    { currentUrl := st.url, target, url, method := call.method, headers := requestHeaders lib st.headers, data := call.data
      jsonBody := call.jsonBody, params := st.params, auth := st.auth }

def redirect (lib : HttpLibrary) (call : PublicCall) (count : ℕ) (st : RedirectState) (target : ResolvedPublicTarget)
    (response : HttpResponse) : Except PublicHttpError RedirectState := do
  raiseIf (response.location = []) (.unsafeUrl ⟨"Redirect не содержит допустимого Location."⟩)
  raiseIf (call.redirectPolicy = .redirectNone) (.unsafeUrl ⟨"HTTP redirect запрещён для этого запроса."⟩)
  raiseIf (call.method = .post) (.unsafeUrl ⟨"Redirect небезопасен для non-idempotent запроса."⟩)
  raiseIf (call.maxRedirects ≤ count) (.unsafeUrl ⟨"Превышен лимит HTTP redirect."⟩)
  let nextUrl := lib.urljoin (if response.url = [] then target.url else response.url) response.location
  let next ← unsafeUrl (parsePublicHttpUrl lib.toUrlLibrary nextUrl)
  raiseIf (target.scheme = https ∧ next.scheme ≠ https) (.unsafeUrl ⟨"HTTPS downgrade redirect запрещён."⟩)
  raiseIf (call.redirectPolicy = .redirectSameOrigin ∧ next.origin ≠ target.origin) (.unsafeUrl ⟨"Redirect на другой origin запрещён."⟩)
  pure
    { url := next.url, params := none
      auth := if next.origin ≠ target.origin then none else st.auth
      headers := if next.origin ≠ target.origin then headersForCrossOrigin lib st.headers else st.headers }

def payload (call : PublicCall) (response : HttpResponse) : Except PublicHttpError Text :=
  if call.statusOnly = true then .ok []
  else if call.maxResponseBytes = none then .error (.valueError "Для ответа обязателен положительный byte budget.")
  else response.body

/-- The loop with so many requests left: the requests that it sends and its result. -/
def loop (lib : HttpLibrary) (call : PublicCall) (hops : ℕ → Hop) :
    ℕ → ℕ → RedirectState → List SentRequest × Except PublicHttpError Text
  | 0, _, _ => ([], .error (.unsafeUrl ⟨"Превышен лимит HTTP redirect."⟩))
  | left + 1, count, st =>
    match admitHop lib call st (hops count) with
    | .error error => ([], .error error)
    | .ok sent =>
      match (hops count).answer with
      | .error error => ([sent], .error error)
      | .ok response =>
        if (hops count).lateAfter = true then ([sent], .error .deadlineExceeded)
        else if response.status ∈ redirectStatusCodes then
          match redirect lib call count st sent.target response with
          | .error error => ([sent], .error error)
          | .ok next =>
            let (rest, result) := loop lib call hops left (count + 1) next
            (sent :: rest, result)
        else ([sent], payload call response)

end PublicHttp

def requestPublicHttpUrlSync (lib : HttpLibrary) (call : PublicCall) (hops : ℕ → Hop) :
    List SentRequest × Except PublicHttpError Text :=
  PublicHttp.loop lib call hops (call.maxRedirects + 1) 0 ⟨strip call.value, call.headers, call.auth, call.params⟩

def SentRequest.Private (lib : HttpLibrary) (r : SentRequest) : Prop :=
  r.auth ≠ none ∨ ∃ header ∈ r.headers, header ≠ PublicHttp.acceptIdentity ∧
    lib.lower header.1 ∉ PublicHttp.safeCrossOriginHeaders

namespace PublicHttp

/-- What `requests` does to a canonical URL: the scheme and the network location stay, unless the parser refuses the result. -/
def KeepsLocation (lib : HttpLibrary) : Prop :=
  ∀ value parsed params url again, parsePublicHttpUrl lib.toUrlLibrary value = .ok parsed →
    lib.prepare parsed.url params = some url → parsePublicHttpUrl lib.toUrlLibrary url = .ok again →
      location url = location parsed.url

structure Follows (lib : HttpLibrary) (call : PublicCall) (r next : SentRequest) : Prop where
  origin : next.Private lib → r.Private lib ∧ next.target.origin = r.target.origin
  scheme : r.target.scheme = https → next.target.scheme = https
  params : next.params = none
  policy : call.redirectPolicy ≠ .redirectNone ∧ (call.redirectPolicy = .redirectSameOrigin → next.target.origin = r.target.origin)
  method : call.method ≠ .post

theorem unsafeUrl_ok {R : Type} {outcome : Except UnsafePublicURL R} {r : R} : unsafeUrl outcome = .ok r ↔ outcome = .ok r := by
  cases outcome <;> simp [unsafeUrl, Except.mapError]

structure Admits (lib : HttpLibrary) (call : PublicCall) (st : RedirectState) (hop : Hop) (sent : SentRequest) : Prop where
  currentUrl : sent.currentUrl = st.url
  target : resolvePublicHttpTransportUrl lib.toUrlLibrary call.proxySetting hop.records st.url = .ok sent.target
  url : lib.prepare sent.target.url st.params = some sent.url
  requested : ∃ requested, parsePublicHttpUrl lib.toUrlLibrary sent.url = .ok requested ∧ requested.origin = sent.target.origin
  plain : sent.target.scheme ≠ https →
    st.auth = none ∧ ∀ header ∈ st.headers, lib.lower header.1 ∉ sensitiveTransportHeaders
  method : sent.method = call.method
  headers : sent.headers = requestHeaders lib st.headers
  params : sent.params = st.params
  auth : sent.auth = st.auth

variable {lib : HttpLibrary} {call : PublicCall} {st : RedirectState}

theorem admitHop_ok {hop : Hop} {sent : SentRequest}
    (admitted : admitHop lib call st hop = .ok sent) : Admits lib call st hop sent := by
  simp only [admitHop, bind_ok, unsafeUrl_ok, raiseIf_ok, orRaise_ok, pure_ok, not_and, not_or, not_not, not_exists] at admitted
  obtain ⟨_, resolved, _, -, _, plain, _, prepared, requested, parsed, _, same, rfl⟩ := admitted
  exact ⟨rfl, resolved, prepared, ⟨requested, parsed, same⟩, plain, rfl, rfl, rfl, rfl⟩

theorem redirect_follows (keeps : KeepsLocation lib) {count : ℕ}
    {st next : RedirectState} {hop hop' : Hop} {sent sent' : SentRequest} {response : HttpResponse}
    (admits : Admits lib call st hop sent) (redirected : redirect lib call count st sent.target response = .ok next)
    (admits' : Admits lib call next hop' sent') : Follows lib call sent sent' := by
  simp only [redirect, bind_ok, unsafeUrl_ok, raiseIf_ok, pure_ok, not_and, not_not] at redirected
  obtain ⟨_, -, _, followed, _, method, _, -, parsed, found, _, upgraded, _, policy, rfl⟩ := redirected
  have first := resolve_ok admits.target
  have second := resolve_ok admits'.target
  -- the adapter compared the origin of the URL that was sent, and that URL has the location of the target
  have same (stays : parsed.origin = sent.target.origin) : sent'.target.origin = sent.target.origin := by
    obtain ⟨_, reread, origin⟩ := admits.requested
    have sent_location := keeps _ _ _ _ _ first admits.url reread
    have next_location := location_of_origin first found stays
    have again := origin_of_location reread second (next_location.trans sent_location.symm)
    exact again.trans origin
  refine ⟨fun holds => ?_, fun secure => ?_, admits'.params, ⟨followed, fun only => same (policy only)⟩, method⟩
  · by_cases stays : parsed.origin = sent.target.origin
    · refine ⟨?_, same stays⟩
      have headers : sent'.headers = sent.headers := by
        rw [admits'.headers, admits.headers]
        simp [stays]
      have auth : sent'.auth = sent.auth := by
        rw [admits'.auth, admits.auth]
        simp [stays]
      unfold SentRequest.Private at *
      rwa [headers, auth] at holds
    · exfalso
      rcases holds with auth | ⟨_, mem, own, private_⟩
      · rw [admits'.auth] at auth
        simp [stays] at auth
      · rw [admits'.headers] at mem
        simp only [stays, requestHeaders, headersForCrossOrigin, ne_eq, not_false_eq_true, if_true, List.mem_append,
          List.mem_filter, List.mem_singleton, decide_eq_true_eq] at mem
        rcases mem with ⟨⟨-, allowed⟩, -⟩ | itself
        · exact private_ allowed
        · exact own itself
  · have scheme := reparse_scheme found second
    rw [show sent'.target.scheme = parsed.scheme from scheme]
    exact upgraded secure

/-- The requests of the loop are a chain of redirects, each admitted in its own hop. -/
structure Chained (lib : HttpLibrary) (call : PublicCall) (hops : ℕ → Hop) (left count : ℕ) (st : RedirectState)
    (requests : List SentRequest) : Prop where
  chain : requests.IsChain (Follows lib call)
  bounded : requests.length ≤ left
  admitted : ∀ i r, requests[i]? = some r → ∃ st', Admits lib call st' (hops (count + i)) r
  first : ∀ r ∈ requests.head?, Admits lib call st (hops count) r

variable {hops : ℕ → Hop} {left count : ℕ}

theorem Chained.single
    {sent : SentRequest} (admits : Admits lib call st (hops count) sent) :
    Chained lib call hops (left + 1) count st [sent] := by
  refine ⟨List.isChain_singleton sent, Nat.succ_le_succ (Nat.zero_le _), fun i r found => ?_, fun r head => ?_⟩
  · obtain ⟨rfl, rfl⟩ : i = 0 ∧ sent = r := by simpa [List.getElem?_singleton] using found
    exact ⟨st, admits⟩
  · obtain rfl : sent = r := by simpa using head
    exact admits

theorem loop_chained (keeps : KeepsLocation lib) (call : PublicCall) (hops : ℕ → Hop) (left count : ℕ)
    (st : RedirectState) : Chained lib call hops left count st (loop lib call hops left count st).1 := by
  have silent (left count : ℕ) (st : RedirectState) : Chained lib call hops left count st [] :=
    ⟨List.isChain_nil, Nat.zero_le _, fun _ _ found => by simp at found, fun _ head => by simp at head⟩
  induction left generalizing count st with
  | zero => exact silent 0 count st
  | succ _ ih =>
    unfold loop
    split
    next => exact silent _ _ _
    next sent admitted =>
      have admits := admitHop_ok admitted
      split
      next => exact .single admits
      next response _ =>
        split
        · exact .single admits
        · split
          · split
            next => exact .single admits
            next next redirected =>
              have rest := ih (count + 1) next
              refine ⟨List.isChain_cons.mpr ⟨fun r head => ?_, rest.chain⟩, Nat.succ_le_succ rest.bounded, ?_, ?_⟩
              · exact redirect_follows keeps admits redirected (rest.first r head)
              · intro i r found
                cases i with
                | zero =>
                  obtain rfl := Option.some.inj found
                  exact ⟨st, admits⟩
                | succ i =>
                  have later := rest.admitted i r found
                  rwa [Nat.add_assoc, Nat.add_comm 1 i] at later
              · intro r head
                obtain rfl := Option.some.inj head
                exact admits
          · exact .single admits

/-- Credentials stay on the origin of the first request, and a redirect leads only where it may. -/
structure Confined (lib : HttpLibrary) (call : PublicCall) (hops : ℕ → Hop) (requests : List SentRequest) : Prop where
  bounded : requests.length ≤ call.maxRedirects + 1
  /-- Every request goes to a target that its hop admitted, and to the origin of that target. -/
  admitted : ∀ i r, requests[i]? = some r →
    resolvePublicHttpTransportUrl lib.toUrlLibrary call.proxySetting (hops i).records r.currentUrl = .ok r.target ∧
      ∃ requested, parsePublicHttpUrl lib.toUrlLibrary r.url = .ok requested ∧ requested.origin = r.target.origin
  /-- Credentials and private headers are sent only while no hop has left the first origin. -/
  confined : ∀ (i : ℕ) (r : SentRequest), requests[i]? = some r → r.Private lib →
    ∀ (j : ℕ) (q : SentRequest), j ≤ i → requests[j]? = some q → ∀ first ∈ requests.head?, q.target.origin = first.target.origin
  plain : ∀ r ∈ requests, r.target.scheme ≠ https → r.auth = none ∧
    ∀ header ∈ r.headers, header ≠ acceptIdentity → lib.lower header.1 ∉ sensitiveTransportHeaders
  upgraded : ∀ (i : ℕ) (r next : SentRequest), requests[i]? = some r → requests[i + 1]? = some next → r.target.scheme = https → next.target.scheme = https
  unrepeated : call.method = .post ∨ call.redirectPolicy = .redirectNone → requests.length ≤ 1
  paramsOnce : ∀ i r, requests[i + 1]? = some r → r.params = none
  sameOrigin : call.redirectPolicy = .redirectSameOrigin →
    ∀ r ∈ requests, ∀ first ∈ requests.head?, r.target.origin = first.target.origin

variable {requests : List SentRequest}

theorem Chained.follows (chained : Chained lib call hops left count st requests) {i : ℕ} {r next : SentRequest}
    (at_i : requests[i]? = some r) (after : requests[i + 1]? = some next) : Follows lib call r next := by
  obtain ⟨_, rfl⟩ := List.getElem?_eq_some_iff.mp at_i
  obtain ⟨within', rfl⟩ := List.getElem?_eq_some_iff.mp after
  exact List.isChain_iff_getElem.mp chained.chain i within'

theorem Chained.confined (chained : Chained lib call hops left count st requests)
    {i : ℕ} {r : SentRequest} (at_i : requests[i]? = some r) (private_ : r.Private lib) {j : ℕ} {q : SentRequest} (upto : j ≤ i)
    (at_j : requests[j]? = some q) : q.target.origin = r.target.origin := by
  induction i generalizing r with
  | zero =>
    obtain rfl : j = 0 := Nat.le_zero.mp upto
    rw [Option.some.inj (at_j.symm.trans at_i)]
  | succ i ih =>
    rcases Nat.lt_or_eq_of_le upto with before | rfl
    · obtain ⟨_, -⟩ := List.getElem?_eq_some_iff.mp at_i
      have previous : requests[i]? = some requests[i] := List.getElem?_eq_getElem _
      obtain ⟨earlier, same⟩ := (chained.follows previous at_i).origin private_
      exact (ih previous earlier (Nat.le_of_lt_succ before)).trans same.symm
    · rw [Option.some.inj (at_j.symm.trans at_i)]

theorem Chained.one_origin (chained : Chained lib call hops left count st requests)
    (policy : call.redirectPolicy = .redirectSameOrigin) {i : ℕ} {r first : SentRequest} (at_i : requests[i]? = some r)
    (head : requests[0]? = some first) : r.target.origin = first.target.origin := by
  induction i generalizing r with
  | zero => rw [Option.some.inj (at_i.symm.trans head)]
  | succ i ih =>
    obtain ⟨_, -⟩ := List.getElem?_eq_some_iff.mp at_i
    have previous : requests[i]? = some requests[i] := List.getElem?_eq_getElem _
    exact ((chained.follows previous at_i).policy.2 policy).trans (ih previous)

end PublicHttp

open PublicHttp in
/-- For every call and every outside world the requests are confined. -/
theorem credentials_confined {lib : HttpLibrary} (keeps : KeepsLocation lib) (call : PublicCall) (hops : ℕ → Hop) :
    Confined lib call hops (requestPublicHttpUrlSync lib call hops).1 := by
  have chained := loop_chained keeps call hops (call.maxRedirects + 1) 0 ⟨strip call.value, call.headers, call.auth, call.params⟩
  unfold requestPublicHttpUrlSync
  generalize (loop lib call hops (call.maxRedirects + 1) 0 ⟨strip call.value, call.headers, call.auth, call.params⟩).1 = requests at *
  have head {first : SentRequest} (first_mem : first ∈ requests.head?) : requests[0]? = some first := by
    rw [← List.head?_eq_getElem?]
    exact first_mem
  refine ⟨chained.bounded, fun i r at_i => ?_, fun i r at_i private_ j q upto at_j first first_mem => ?_, fun r mem insecure => ?_,
    fun i r next at_i after => (chained.follows at_i after).scheme, fun once => ?_, fun i r at_i => ?_, fun policy r mem first first_mem => ?_⟩
  · obtain ⟨st, admits⟩ := chained.admitted i r at_i
    rw [Nat.zero_add] at admits
    exact ⟨admits.currentUrl ▸ admits.target, admits.requested⟩
  · have origin := chained.confined at_i private_ (Nat.zero_le i) (head first_mem)
    exact (chained.confined at_i private_ upto at_j).trans origin.symm
  · obtain ⟨i, at_i⟩ := List.mem_iff_getElem?.mp mem
    obtain ⟨st, admits⟩ := chained.admitted i r at_i
    obtain ⟨auth, headers⟩ := admits.plain insecure
    refine ⟨admits.auth.trans auth, fun header sent own => ?_⟩
    rw [admits.headers] at sent
    rcases List.mem_append.mp sent with kept | itself
    · exact headers header (List.mem_filter.mp kept).1
    · exact absurd (List.mem_singleton.mp itself) own
  · by_contra more
    have within : 1 < requests.length := not_le.mp more
    have follows := chained.follows (List.getElem?_eq_getElem (Nat.lt_of_succ_lt within)) (List.getElem?_eq_getElem within)
    rcases once with post | refused
    · exact follows.method post
    · exact follows.policy.1 refused
  · obtain ⟨within, -⟩ := List.getElem?_eq_some_iff.mp at_i
    exact (chained.follows (List.getElem?_eq_getElem (Nat.lt_of_succ_lt within)) at_i).params
  · obtain ⟨i, at_i⟩ := List.mem_iff_getElem?.mp mem
    exact chained.one_origin policy at_i (head first_mem)

def asciiLibrary : HttpLibrary where
  netlocValid _ := true
  lower := List.map Char.toLower
  ipAddress _ := none
  idna host := some host
  urljoin _ location := location
  prepare url _ := some url

def leavingCall : PublicCall where
  value := "https://shop.example/orders".toList
  method := .get
  headers := [("Accept".toList, "*/*".toList), ("X-Api-Key".toList, "key".toList)]
  data := none
  jsonBody := none
  params := none
  auth := some "secret".toList
  maxResponseBytes := none
  statusOnly := true
  redirectPolicy := .redirectPublic
  maxRedirects := 3
  proxySetting := []

def leavingHops (count : ℕ) : Hop where
  records := some [some (.v4 ⟨"203.0.113.7".toList, true, false⟩)]
  lateBefore := false
  lateAfter := false
  answer := .ok
    { status := if count < 2 then 302 else 200, url := []
      location := if count = 0 then "https://cdn.example/".toList else "https://shop.example/orders".toList, body := .ok [] }

theorem credentials_confined_leaving :
    PublicHttp.Confined asciiLibrary leavingCall leavingHops (requestPublicHttpUrlSync asciiLibrary leavingCall leavingHops).1 ∧
      (requestPublicHttpUrlSync asciiLibrary leavingCall leavingHops).1.map SentRequest.auth = [some "secret".toList, none, none] := by
  have keeps : PublicHttp.KeepsLocation asciiLibrary := by
    intro value parsed params url again _ prepared _
    rw [← Option.some.inj prepared]
  exact ⟨credentials_confined keeps leavingCall leavingHops, by decide +kernel⟩

end MapBackend.Core
