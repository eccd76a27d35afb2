import CatalogBroker.Config.CredentialEndpoints
import CatalogBroker.Json.Value
import CatalogBroker.Library.Redirects

/-! The broker's outbound requests: which redirects are followed, and how much of an answer is read.

The network is one function of all requests sent so far, so that it may answer each
request as it likes.
-/

set_option autoImplicit false

namespace CatalogBroker

open Library Redirects

structure HttpUrl extends Url where
  /-- `port_or_known_default`. -/
  port : Option Nat
  /-- Path and query. -/
  rest : String

namespace HttpUrl

def origin? (url : HttpUrl) : Option (String × Option String × Option Nat) :=
  if url.scheme ∈ ["ftp", "http", "https", "ws", "wss"] then some (url.scheme, url.hostStr, url.port) else none

/-- Opaque origins are equal to none, themselves included. -/
def sameOrigin (source target : HttpUrl) : Bool := source.origin?.isSome && source.origin? = target.origin?

end HttpUrl

/-- How URLs are parsed, and how third-party code words what it prints. -/
structure HttpText where
  displayTerm : Term → String
  debugText : String → String
  parse : String → Option HttpUrl
  parseIpAddr : String → Option IpAddr
  originText : HttpUrl → String
  redacted : HttpUrl → String
  statusText : Nat → String
  invalidUrl : String → String
  redirectError : HttpUrl → String → String

def HttpText.config (text : HttpText) : ConfigText where
  displayTerm := text.displayTerm
  debugText := text.debugText
  parseUrl value := (text.parse value).map HttpUrl.toUrl
  parseIpAddr := text.parseIpAddr

inductive HttpMethod where
  | get
  | post
  deriving DecidableEq, Repr

inductive RequestBody where
  | json (value : Json)
  | form (fields : List (String × String))

structure HttpRequest where
  method : HttpMethod
  url : HttpUrl
  authorization : Option String := none
  body : Option RequestBody := none

structure HttpResponse where
  status : Nat
  contentLength : Option Nat
  chunks : List (Except String (List UInt8))

inductive HttpReply where
  | failed (error : String)
  | redirect (status : Nat) (location : HttpUrl)
  | response (response : HttpResponse)

def HttpResponse.isSuccess (response : HttpResponse) : Bool := 200 ≤ response.status ∧ response.status < 300

/-- The redirected request keeps its headers; its method and its body only for 307 and 308. -/
def HttpRequest.redirected (request : HttpRequest) (status : Nat) (location : HttpUrl) : HttpRequest :=
  if status = 307 ∨ status = 308 then { request with url := location }
  else { request with method := .get, url := location, body := none }

def readReply (request : HttpRequest) : HttpReply → HttpRequest ⊕ Except String HttpResponse
  | .failed error => .inr (.error error)
  | .redirect status location => .inl (request.redirected status location)
  | .response response => .inr (.ok response)

structure HttpClient extends Client HttpRequest HttpReply (Except String HttpResponse) String where
  /-- Whether it leaves the proxies of the environment alone. -/
  noProxy : Bool := false

variable (text : HttpText)

/-- The closure of `outbound_client`. -/
def permitsOutbound (previous : List HttpRequest) (target : HttpRequest) : Except String Unit :=
  if 10 < previous.length then .error "too many redirects"
  else if previous.getLast?.any fun source => source.url.sameOrigin target.url then .ok ()
  else .error ("refused a redirect to " ++ text.originText target.url ++ ": a redirect must stay on the same origin")

def outboundClient : HttpClient where
  reads := readReply
  permits := permitsOutbound text
  limit := 10
  limited := by
    intro previous target permitted
    unfold permitsOutbound at permitted
    split at permitted
    · cases permitted
    · omega

/-- The closure of `config_client`. -/
def permitsConfig (previous : List HttpRequest) (target : HttpRequest) : Except String Unit :=
  if 10 ≤ previous.length then .error "too many redirects"
  else if remoteAllowed text.config target.url.toUrl then .ok ()
  else .error ("refused a redirect to " ++ text.redacted target.url ++
    ": a config is fetched over https, or plain http to a loopback address")

/-- `config_client`, for the URL the config is to be fetched from. -/
def configClient (url : HttpUrl) : HttpClient where
  reads := readReply
  permits := permitsConfig text
  limit := 9
  noProxy := url.scheme = "http"
  limited := by
    intro previous target permitted
    unfold permitsConfig at permitted
    split at permitted
    · cases permitted
    · omega

/-- A request, and the proxy it is sent through, if any. -/
structure SentRequest where
  request : HttpRequest
  proxy : Option String

/-- What the environment names as a URL's proxy is asked for it, unless the client does without. -/
def HttpClient.dispatch (client : HttpClient) (proxies : HttpUrl → Option String) (request : HttpRequest) :
    SentRequest :=
  ⟨request, if client.noProxy then none else proxies request.url⟩

abbrev Exchanged (Result : Type) := List HttpRequest × Result

/-- `send`, after the requests of `past`. -/
def HttpClient.send (client : HttpClient) (network : List HttpRequest → HttpReply) (past : List HttpRequest)
    (request : HttpRequest) : Exchanged (Except String HttpResponse) :=
  let (hops, followed) := client.follow (fun sent => network (past ++ sent)) [] request
  match followed with
  | .ok answer => (hops, answer)
  | .error (target, refusal) => (hops, .error (text.redirectError target.url refusal))

inductive BodyError where
  | transport (error : String)
  | tooLarge (limit : Nat)
  deriving DecidableEq, Repr

def BodyError.display : BodyError → String
  | .transport error => error
  | .tooLarge limit => "response body is larger than the limit of " ++ toString limit ++ " bytes"

def readChunks (limit : Nat) (body : List UInt8) : List (Except String (List UInt8)) → Except BodyError (List UInt8)
  | [] => .ok body
  | .error error :: _ => .error (.transport error)
  | .ok chunk :: chunks =>
    if limit < body.length + chunk.length then .error (.tooLarge limit) else readChunks limit (body ++ chunk) chunks

def readBodyLimited (response : HttpResponse) (limit : Nat) : Except BodyError (List UInt8) :=
  if response.contentLength.any fun length => limit < length then .error (.tooLarge limit)
  else readChunks limit [] response.chunks

/-- The bytes that arrive, and how the transfer breaks off. -/
def received : List (Except String (List UInt8)) → List UInt8 × Option String
  | [] => ([], none)
  | .error error :: _ => ([], some error)
  | .ok chunk :: chunks => (chunk ++ (received chunks).1, (received chunks).2)

/-- However a body is cut into chunks, it is read to its end or refused as a whole. -/
theorem readChunks_eq (limit : Nat) (body : List UInt8) (chunks : List (Except String (List UInt8)))
    (within : body.length ≤ limit) : readChunks limit body chunks =
      if limit < body.length + (received chunks).1.length then .error (.tooLarge limit)
      else match (received chunks).2 with
        | none => .ok (body ++ (received chunks).1)
        | some error => .error (.transport error) := by
  induction chunks generalizing body with
  | nil => simp [readChunks, received, within]
  | cons chunk chunks ih =>
    cases chunk with
    | error error => simp [readChunks, received, within]
    | ok chunk =>
      rw [readChunks, received]
      by_cases large : limit < body.length + chunk.length
      · rw [if_pos large, if_pos (by rw [List.length_append]; omega)]
      · rw [if_neg large, ih (body ++ chunk) (by rw [List.length_append]; omega)]
        simp only [List.length_append, List.append_assoc, Nat.add_assoc]

theorem readBodyLimited_eq_ok {response : HttpResponse} {limit : Nat} {body : List UInt8} :
    readBodyLimited response limit = .ok body ↔
      (∀ length ∈ response.contentLength, length ≤ limit) ∧ received response.chunks = (body, none) ∧
        body.length ≤ limit := by
  unfold readBodyLimited
  have declared : (response.contentLength.any fun length => limit < length) = true ↔
      ¬∀ length ∈ response.contentLength, length ≤ limit := by
    cases response.contentLength <;> simp
  -- reading chunk by chunk is reading all of it and comparing once
  rw [readChunks_eq limit [] response.chunks (Nat.zero_le _)]
  by_cases fits : ∀ length ∈ response.contentLength, length ≤ limit
  · rw [if_neg (fun large => declared.mp large fits), List.length_nil, Nat.zero_add, List.nil_append]
    obtain ⟨bytes, broken⟩ := received response.chunks
    cases broken with
    | some error =>
      constructor
      · intro read
        split at read <;> cases read
      · rintro ⟨_, same, _⟩
        cases same
    | none =>
      by_cases large : limit < bytes.length
      · rw [if_pos large]
        constructor
        · intro read
          cases read
        · rintro ⟨_, same, short⟩
          cases same
          omega
      · rw [if_neg large]
        constructor
        · intro read
          cases read
          exact ⟨fits, rfl, Nat.le_of_not_lt large⟩
        · rintro ⟨_, same, _⟩
          cases same
          rfl
  · rw [if_pos (declared.mpr fits)]
    constructor
    · intro read
      cases read
    · rintro ⟨all, _⟩
      exact absurd all fits

theorem remoteAllowed_of_sameOrigin {source target : HttpUrl} (same : source.sameOrigin target = true) :
    remoteAllowed text.config target.toUrl = remoteAllowed text.config source.toUrl := by
  unfold HttpUrl.sameOrigin at same
  rw [Bool.and_eq_true, decide_eq_true_iff] at same
  obtain ⟨known, equal⟩ := same
  unfold HttpUrl.origin? at known equal
  split at known
  · rename_i listed
    rw [if_pos listed] at equal
    split at equal
    · obtain ⟨scheme, host, _⟩ : source.scheme = target.scheme ∧ source.hostStr = target.hostStr ∧
          source.port = target.port := by
        simpa only [Option.some.injEq, Prod.mk.injEq] using equal
      simp only [remoteAllowed, scheme, host]
    · cases equal
  · cases known

theorem HttpUrl.sameOrigin_trans {first second third : HttpUrl} (left : first.sameOrigin second = true)
    (right : second.sameOrigin third = true) : first.sameOrigin third = true := by
  unfold sameOrigin at left right ⊢
  rw [Bool.and_eq_true, decide_eq_true_iff] at left right ⊢
  exact ⟨left.1, left.2.trans right.2⟩

/-- A URL, or another one of its origin. -/
def HttpUrl.Reaches (url hop : HttpUrl) : Prop := hop = url ∨ url.sameOrigin hop = true

theorem HttpUrl.Reaches.allowed {url hop : HttpUrl} (reaches : url.Reaches hop)
    (allowed : remoteAllowed text.config url.toUrl = true) : remoteAllowed text.config hop.toUrl = true := by
  rcases reaches with rfl | same
  · exact allowed
  · rw [remoteAllowed_of_sameOrigin text same, allowed]

/-- What redirects leave of a request: its header, at its own origin, with its body or without. -/
structure HttpRequest.Carries (request hop : HttpRequest) : Prop where
  reaches : request.url.Reaches hop.url
  authorization : hop.authorization = request.authorization
  body : hop.body = request.body ∨ hop.body = none

variable {text} {network : List HttpRequest → HttpReply} {past : List HttpRequest} {request : HttpRequest}

theorem HttpClient.send_hops (client : HttpClient) : (HttpClient.send text client network past request).1 =
    (client.follow (fun sent => network (past ++ sent)) [] request).1 := by
  unfold HttpClient.send
  generalize client.follow (fun sent => network (past ++ sent)) [] request = followed
  obtain ⟨hops, answer | refused⟩ := followed <;> rfl

theorem HttpClient.send_head (client : HttpClient) :
    (HttpClient.send text client network past request).1.head? = some request := by
  rw [send_hops]
  obtain ⟨rest, same⟩ := Client.follow_earlier [] request
  rw [← same]
  rfl

theorem HttpClient.send_length (client : HttpClient) :
    (HttpClient.send text client network past request).1.length ≤ client.limit + 1 := by
  rw [send_hops]
  exact client.follow_length (Nat.zero_le _)

/-- Whatever the network answers, a request and what it is redirected to stay at one origin. -/
theorem outbound_carries (network : List HttpRequest → HttpReply) (past : List HttpRequest) (request : HttpRequest) :
    ∀ hop ∈ (HttpClient.send text (outboundClient text) network past request).1, request.Carries hop := by
  rw [HttpClient.send_hops]
  refine Client.follow_forall ?_ (by simp) ⟨.inl rfl, rfl, .inl rfl⟩
  intro sent redirected target reply carries read permitted
  cases reply with
  | failed error => cases read
  | response response => cases read
  | redirect status location =>
    -- a redirect is followed within one origin only
    have same : redirected.url.sameOrigin target.url = true := by
      unfold outboundClient permitsOutbound at permitted
      dsimp only at permitted
      split at permitted
      · cases permitted
      · split at permitted
        · rename_i same
          simpa using same
        · cases permitted
    cases read
    -- every hop stays on the origin of the one before, so all of them on the first
    have reaches : request.url.Reaches (redirected.redirected status location).url := by
      rcases carries.reaches with first | first
      · rw [← first]
        exact .inr same
      · exact .inr (HttpUrl.sameOrigin_trans first same)
    refine ⟨reaches, ?_, ?_⟩
    · rw [← carries.authorization]
      unfold HttpRequest.redirected
      split <;> rfl
    · unfold HttpRequest.redirected
      split
      · exact carries.body
      · exact .inr rfl

theorem HttpClient.send_answer {client : HttpClient} (reads : client.reads = readReply) {response : HttpResponse}
    (answered : (HttpClient.send text client network past request).2 = .ok response) :
    ∃ hops last, (HttpClient.send text client network past request).1 = hops ++ [last] ∧
      network (past ++ (hops ++ [last])) = .response response := by
  have followed : (client.follow (fun sent => network (past ++ sent)) [] request).2 = .ok (.ok response) := by
    unfold HttpClient.send at answered
    generalize client.follow (fun sent => network (past ++ sent)) [] request = found at answered
    obtain ⟨hops, answer | refused⟩ := found
    · cases answered
    · exact congrArg Except.ok answered
  obtain ⟨hops, last, sent, read⟩ := client.follow_answer followed
  refine ⟨hops, last, (HttpClient.send_hops client).trans sent, ?_⟩
  rw [reads] at read
  generalize network (past ++ (hops ++ [last])) = reply at read
  cases reply with
  | failed error => cases read
  | redirect status location => cases read
  | response found =>
    cases read
    rfl

end CatalogBroker
