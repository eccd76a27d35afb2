import CatalogBroker.Crawler.Http
import CatalogBroker.Dcp.Holder
import CatalogBroker.Library.Replacement

/-! DIDs of the `did:web` method: where a document lies, what a key pair publishes there, and its resolution. -/

set_option autoImplicit false

namespace CatalogBroker

open Library Fallible Redirects Replacement

def urlencodingDecode (segment : String) : String :=
  let upper := replaceAll '%' ['3', 'A'] [':'] segment.toList
  String.ofList (replaceAll '%' ['3', 'a'] [':'] upper)

def schemeOf (insecureHttp : Bool) : String := if insecureHttp then "http" else "https"

def didWebToUrl (did : String) (insecureHttp : Bool) : Except String String := do
  let rest ← okOr (Text.stripPrefix did "did:web:") "not a did:web DID"
  match Text.split rest ':' with
  | [] => .error "did:web has no host segment"
  | host :: segments =>
    let site := schemeOf insecureHttp ++ "://" ++ urlencodingDecode host
    match segments.map urlencodingDecode with
    | [] => return site ++ "/.well-known/did.json"
    | path => return site ++ "/" ++ "/".intercalate path ++ "/did.json"

structure DidText extends HttpText where
  /-- Why a value is no DID document. -/
  shapeError : Json → String

/-- Over https, or over plain http to a loopback address literal. -/
def didUrlAllowed (text : DidText) (url : String) : Bool :=
  if (Text.stripPrefix url "https://").isSome then true
  else match Text.stripPrefix url "http://" with
    | none => false
    | some rest =>
      let authority := rest.toList.takeWhile fun char => char ∉ ['/', '?', '#']
      if '@' ∈ authority then false
      else
        let host := match authority with
          | '[' :: bracketed => bracketed.takeWhile fun char => char ≠ ']'
          | plain =>
            -- what stands before the last colon
            if ':' ∈ plain then ((plain.reverse.dropWhile fun char => char ≠ ':').drop 1).reverse else plain
        (text.parseIpAddr (String.ofList host)).any IpAddr.isLoopback

def ownDidOf (ownDidHost : String) : String :=
  "did:web:" ++ String.ofList (escapeMark ':' '%' ['3', 'A'] ownDidHost.toList) ++ ":dsp:holder"

theorem HolderIdentity.new_ownDid {SigningKey : Type} (ownDidHost credentialJws : String) (signingKey : SigningKey) :
    (HolderIdentity.new ownDidHost credentialJws signingKey).keyPair.ownDid = ownDidOf ownDidHost :=
  rfl

/-- A host that is not itself written with an encoded colon. -/
def PlainHost (host : String) : Prop := ¬['%', '3', 'A'] <:+: host.toList ∧ ¬['%', '3', 'a'] <:+: host.toList

instance (host : String) : Decidable (PlainHost host) := inferInstanceAs (Decidable (_ ∧ _))

theorem urlencodingDecode_escapeMark_iff (host : String) :
    urlencodingDecode (String.ofList (escapeMark ':' '%' ['3', 'A'] host.toList)) = host ↔ PlainHost host := by
  unfold urlencodingDecode
  rw [String.toList_ofList]
  constructor
  · intro same
    have decoded := congrArg String.toList same
    rw [String.toList_ofList] at decoded
    unfold PlainHost
    rw [← decoded]
    exact ⟨fun inside => replaceAll_free (by decide) (isInfix_of_replaceAll (by decide) inside),
      replaceAll_free (by decide)⟩
  · rintro ⟨upper, lower⟩
    dsimp only
    rw [replaceAll_escapeMark (by decide) upper, replaceAll_of_free lower, String.ofList_toList]

theorem urlencodingDecode_plain {segment : String} (plain : PlainHost segment) :
    urlencodingDecode segment = segment := by
  unfold urlencodingDecode
  dsimp only
  rw [replaceAll_of_free plain.1, replaceAll_of_free plain.2, String.ofList_toList]

theorem didWebToUrl_ownDidOf (host : String) (insecureHttp : Bool) :
    didWebToUrl (ownDidOf host) insecureHttp = .ok (schemeOf insecureHttp ++ "://" ++
      urlencodingDecode (String.ofList (escapeMark ':' '%' ['3', 'A'] host.toList)) ++ "/dsp/holder/did.json") := by
  have free : ':' ∉ (String.ofList (escapeMark ':' '%' ['3', 'A'] host.toList)).toList := by
    rw [String.toList_ofList]
    exact not_mem_escapeMark (by decide)
  have segments : Text.split (String.ofList (escapeMark ':' '%' ['3', 'A'] host.toList) ++ ":dsp:holder") ':' =
      [String.ofList (escapeMark ':' '%' ['3', 'A'] host.toList), "dsp", "holder"] := by
    rw [show ":dsp:holder" = String.singleton ':' ++ ("dsp" ++ String.singleton ':' ++ "holder") from rfl,
      ← String.append_assoc, Text.split_append free, Text.split_append (by decide), Text.split_of_not_mem (by decide)]
  unfold didWebToUrl ownDidOf
  rw [String.append_assoc, Text.stripPrefix_append]
  simp only [okOr, bind, Except.bind, segments, List.map_cons, List.map_nil,
    urlencodingDecode_plain (show PlainHost "dsp" by decide),
    urlencodingDecode_plain (show PlainHost "holder" by decide)]
  have path : "/" ++ ("/".intercalate ["dsp", "holder"] ++ "/did.json") = "/dsp/holder/did.json" := by decide
  rw [String.append_assoc, String.append_assoc, path]
  rfl

structure DidService where
  ty : String
  serviceEndpoint : String

structure ResolvedDidDocument extends DidDocument where
  service : List DidService

def structField (members : List (String × Json)) (name : String) : Option (Option Json) :=
  match members.filter fun member => member.1 = name with
  | [] => some none
  | [member] => some (some member.2)
  | _ => none

def requiredField {α : Type} (members : List (String × Json)) (name : String) (read : Json → Option α) : Option α :=
  ((structField members name).bind id).bind read

def defaultField {α : Type} (members : List (String × Json)) (name : String) (default : α) (read : Json → Option α) :
    Option α :=
  (structField members name).bind fun value => value.elim (some default) read

def readOptional {α : Type} (read : Json → Option α) : Json → Option (Option α)
  | .null => some none
  | value => (read value).map some

def readList {α : Type} (read : Json → Option α) (value : Json) : Option (List α) :=
  value.asArray?.bind fun items => items.mapM read

/-- A struct is read from an object, or from an array of its fields in order. -/
def Jwk.fromJson : Json → Option Jwk
  | .object members => do
    let x ← requiredField members "x" Json.asStr?
    let y ← requiredField members "y" Json.asStr?
    return ⟨x, y⟩
  | .array [x, y] => return ⟨← x.asStr?, ← y.asStr?⟩
  | _ => none

def VerificationMethod.fromJson : Json → Option VerificationMethod
  | .object members => do
    let id ← requiredField members "id" Json.asStr?
    let publicKeyJwk ← defaultField members "publicKeyJwk" none (readOptional Jwk.fromJson)
    return ⟨id, publicKeyJwk⟩
  | .array [id, publicKeyJwk] => return ⟨← id.asStr?, ← readOptional Jwk.fromJson publicKeyJwk⟩
  | _ => none

def DidService.fromJson : Json → Option DidService
  | .object members => do
    let ty ← requiredField members "type" Json.asStr?
    let serviceEndpoint ← requiredField members "serviceEndpoint" Json.asStr?
    return ⟨ty, serviceEndpoint⟩
  | .array [ty, serviceEndpoint] => return ⟨← ty.asStr?, ← serviceEndpoint.asStr?⟩
  | _ => none

def ResolvedDidDocument.fromJson : Json → Option ResolvedDidDocument
  | .object members => do
    let verificationMethod ← defaultField members "verificationMethod" [] (readList VerificationMethod.fromJson)
    let service ← defaultField members "service" [] (readList DidService.fromJson)
    return ⟨⟨verificationMethod⟩, service⟩
  | .array [] => return ⟨⟨[]⟩, []⟩
  | .array [methods] => return ⟨⟨← readList VerificationMethod.fromJson methods⟩, []⟩
  | .array [methods, services] =>
    return ⟨⟨← readList VerificationMethod.fromJson methods⟩, ← readList DidService.fromJson services⟩
  | _ => none

theorem readList_map {α β : Type} (read : Json → Option β) (write : α → Json) (shown : α → β)
    (each : ∀ item, read (write item) = some (shown item)) (items : List α) :
    readList read (.array (items.map write)) = some (items.map shown) := by
  unfold readList
  rw [Json.asArray?, Option.bind_some, List.mapM_map]
  induction items with
  | nil => rfl
  | cons item items ih =>
    rw [List.mapM_cons, Function.comp_apply, each, ih]
    rfl

def serviceEndpointUrl (document : ResolvedDidDocument) (serviceType : String) : Except String String :=
  okOr ((document.service.find? fun service => service.ty = serviceType).map DidService.serviceEndpoint)
    ("DID document has no " ++ serviceType ++ " entry")

/-- How the curve library writes a key as an uncompressed point, which it reads back. -/
structure CurvePoints {SigningKey VerifyingKey Signature : Type}
    (primitives : Primitives SigningKey VerifyingKey Signature) where
  x : VerifyingKey → List UInt8
  y : VerifyingKey → List UInt8
  length_x : ∀ key, (x key).length = 32
  length_y : ∀ key, (y key).length = 32
  publicKey : ∀ key, primitives.publicKey (x key) (y key) = some key

structure HolderDeployment (SigningKey : Type) extends HolderIdentity SigningKey where
  ownDidHost : String
  insecureHttp : Bool

def HolderDeployment.new {SigningKey : Type} (ownDidHost : String) (insecureHttp : Bool) (credentialJws : String)
    (signingKey : SigningKey) : HolderDeployment SigningKey :=
  { HolderIdentity.new ownDidHost credentialJws signingKey with ownDidHost, insecureHttp }

section

variable {SigningKey VerifyingKey Signature : Type} {primitives : Primitives SigningKey VerifyingKey Signature}
  (points : CurvePoints primitives)

def DcpKeyPair.didDocument (keyPair : DcpKeyPair SigningKey) (services : List (String × String)) : Json :=
  let key := primitives.verifyingKey keyPair.signingKey
  .object [("@context", .array [.string "https://www.w3.org/ns/did/v1"]), ("id", .string keyPair.ownDid),
    ("service", .array (services.map fun service =>
      .object [("serviceEndpoint", .string service.2), ("type", .string service.1)])),
    ("verificationMethod", .array [.object [("controller", .string keyPair.ownDid), ("id", .string keyPair.ownKeyId),
      ("publicKeyJwk", .object [("crv", .string "P-256"), ("kty", .string "EC"),
        ("x", .string (primitives.b64Encode (points.x key))), ("y", .string (primitives.b64Encode (points.y key)))]),
      ("type", .string "JsonWebKey2020")]])]

def HolderDeployment.endpoint (holder : HolderDeployment SigningKey) : String :=
  schemeOf holder.insecureHttp ++ "://" ++ holder.ownDidHost ++ "/dsp/holder"

def HolderDeployment.ownDidDocument (holder : HolderDeployment SigningKey) : Json :=
  holder.keyPair.didDocument points [("CredentialService", holder.endpoint)]

def DcpKeyPair.shown (keyPair : DcpKeyPair SigningKey) : VerificationMethod :=
  let key := primitives.verifyingKey keyPair.signingKey
  ⟨keyPair.ownKeyId, some ⟨primitives.b64Encode (points.x key), primitives.b64Encode (points.y key)⟩⟩

theorem fromJson_didDocument (keyPair : DcpKeyPair SigningKey) (services : List (String × String)) :
    ResolvedDidDocument.fromJson (keyPair.didDocument points services) =
      some ⟨⟨[keyPair.shown points]⟩, services.map fun service => ⟨service.1, service.2⟩⟩ := by
  have listed := readList_map DidService.fromJson
    (fun service : String × String => .object [("serviceEndpoint", .string service.2), ("type", .string service.1)])
    (fun service => ⟨service.1, service.2⟩) (fun _ => rfl) services
  change ((readList DidService.fromJson (.array (services.map _))).bind fun service =>
    some (ResolvedDidDocument.mk ⟨[keyPair.shown points]⟩ service)) = _
  rw [listed]
  rfl

theorem findVerifyingKey_shown (lawful : primitives.Lawful) (keyPair : DcpKeyPair SigningKey) :
    findVerifyingKey primitives ⟨[keyPair.shown points]⟩ keyPair.ownKeyId =
      .ok (primitives.verifyingKey keyPair.signingKey) := by
  have x := b64Decode_encode lawful (points.x (primitives.verifyingKey keyPair.signingKey))
  have y := b64Decode_encode lawful (points.y (primitives.verifyingKey keyPair.signingKey))
  unfold findVerifyingKey jwkToVerifyingKey
  simp only [DcpKeyPair.shown, decide_true, List.find?_cons_of_pos, okOr, bind, Except.bind, x, y, points.length_x,
    points.length_y, ne_eq, not_true_eq_false, or_self, if_false, points.publicKey]

end

def maxDidDocumentBytes : Nat := 64 * 1024

/-- What a client that follows no redirect makes of a reply: a redirect is a response like any other. -/
def withoutRedirects : HttpReply → Except String HttpResponse
  | .failed error => .error error
  | .redirect status _ => .ok ⟨status, none, []⟩
  | .response response => .ok response

def resolverClient : HttpClient where
  reads _ reply := .inr (withoutRedirects reply)
  permits _ _ := .error "redirects are not followed"
  limit := 0
  limited _ _ permitted := by cases permitted

section

variable {SigningKey VerifyingKey Signature : Type} (primitives : Primitives SigningKey VerifyingKey Signature)
  (text : DidText) (network : List HttpRequest → HttpReply)

def didBodyError (did : String) : BodyError → String
  | .transport error => "failed to read DID document for " ++ did ++ ": " ++ error
  | .tooLarge limit => "DID document for " ++ did ++ " is larger than " ++ toString limit ++ " bytes"

/-- The loop over the chunks is the one of `read_body_limited`. -/
def readDidDocument (did url : String) (answer : Except String HttpResponse) : Except String ResolvedDidDocument := do
  let response ← answer.mapError fun e => "failed to resolve DID " ++ did ++ " at " ++ url ++ ": " ++ e
  if response.isSuccess = false then
    .error ("DID resolution for " ++ did ++ " returned HTTP " ++ text.statusText response.status)
  else do
    let body ← (readBodyLimited response maxDidDocumentBytes).mapError (didBodyError did)
    let invalid (e : String) : String := "DID document for " ++ did ++ " was not valid: " ++ e
    let value ← (primitives.fromSlice body).mapError invalid
    okOr (ResolvedDidDocument.fromJson value) (invalid (text.shapeError value))

/-- The requests sent, one at most, and the document. -/
def resolveDid (past : List HttpRequest) (did : String) (insecureHttp : Bool) :
    Exchanged (Except String ResolvedDidDocument) :=
  match didWebToUrl did insecureHttp with
  | .error e => ([], .error e)
  | .ok url =>
    if didUrlAllowed text url = false then
      ([], .error ("refusing to resolve " ++ did ++ ": " ++ url ++
        " is neither https nor plain http to a loopback address"))
    else match text.parse url with
      | none => ([], readDidDocument primitives text did url (.error (text.invalidUrl url)))
      | some target =>
        let (hops, answer) :=
          HttpClient.send text.toHttpText resolverClient network past { method := .get, url := target }
        (hops, readDidDocument primitives text did url answer)

variable {primitives text network}

theorem HttpClient.send_resolver (past : List HttpRequest) (request : HttpRequest) :
    HttpClient.send text.toHttpText resolverClient network past request =
      ([request], withoutRedirects (network (past ++ [request]))) := by
  unfold HttpClient.send
  rw [Client.follow]
  rfl

/-- A document read from the whole of a successful answer to a request. -/
def DocumentServed (primitives : Primitives SigningKey VerifyingKey Signature)
    (network : List HttpRequest → HttpReply) (request : HttpRequest) (document : ResolvedDidDocument) : Prop :=
  ∃ response body value, withoutRedirects (network [request]) = .ok response ∧ response.isSuccess = true ∧
    received response.chunks = (body, none) ∧ body.length ≤ maxDidDocumentBytes ∧
    primitives.fromSlice body = .ok value ∧ ResolvedDidDocument.fromJson value = some document

theorem readDidDocument_eq_ok {did url : String} {answer : Except String HttpResponse}
    {document : ResolvedDidDocument} : readDidDocument primitives text did url answer = .ok document ↔
      ∃ response body value, answer = .ok response ∧ response.isSuccess = true ∧
        readBodyLimited response maxDidDocumentBytes = .ok body ∧ primitives.fromSlice body = .ok value ∧
        ResolvedDidDocument.fromJson value = some document := by
  unfold readDidDocument
  constructor
  · intro read
    obtain ⟨response, answered, read⟩ := bind_eq_ok.mp read
    obtain ⟨success, read⟩ := guard_eq_ok.mp read
    obtain ⟨body, whole, read⟩ := bind_eq_ok.mp read
    obtain ⟨value, parsed, read⟩ := bind_eq_ok.mp read
    exact ⟨response, body, value, mapError_eq_ok.mp answered, by simpa using success, mapError_eq_ok.mp whole,
      mapError_eq_ok.mp parsed, okOr_eq_ok.mp read⟩
  · rintro ⟨response, body, value, rfl, success, whole, parsed, read⟩
    refine bind_eq_ok.mpr ⟨response, rfl, guard_eq_ok.mpr ⟨by simp [success], ?_⟩⟩
    exact bind_eq_ok.mpr ⟨body, mapError_eq_ok.mpr whole,
      bind_eq_ok.mpr ⟨value, mapError_eq_ok.mpr parsed, okOr_eq_ok.mpr read⟩⟩

theorem resolveDid_cases (did : String) (insecureHttp : Bool) :
    (∃ error, resolveDid primitives text network [] did insecureHttp = ([], .error error)) ∨
    ∃ url target found, didWebToUrl did insecureHttp = .ok url ∧ didUrlAllowed text url = true ∧
      text.parse url = some target ∧
      resolveDid primitives text network [] did insecureHttp = ([{ method := .get, url := target }], found) ∧
      ∀ document, found = .ok document →
        DocumentServed primitives network { method := .get, url := target } document := by
  unfold resolveDid
  cases located : didWebToUrl did insecureHttp with
  | error e => exact .inl ⟨e, rfl⟩
  | ok url =>
    dsimp only
    -- a URL that may not be asked costs no request
    by_cases allowed : didUrlAllowed text url = true
    · rw [if_neg (by simp [allowed])]
      cases parsed : text.parse url with
      | none => exact .inl ⟨_, rfl⟩
      | some target =>
        dsimp only
        rw [HttpClient.send_resolver]
        refine .inr ⟨url, target, _, rfl, allowed, parsed, rfl, ?_⟩
        intro document read
        obtain ⟨response, body, value, answered, success, whole, rest⟩ := readDidDocument_eq_ok.mp read
        obtain ⟨_, received, fits⟩ := readBodyLimited_eq_ok.mp whole
        exact ⟨response, body, value, answered, success, received, fits, rest⟩
    · rw [if_pos (by simpa using allowed)]
      exact .inl ⟨_, rfl⟩

/-- A server that answers the URL with a body, in whatever chunks, to a resolver that may ask it. -/
structure Serves (text : DidText) (network : List HttpRequest → HttpReply) (url : String) (body : List UInt8) :
    Prop where
  allowed : didUrlAllowed text url = true
  fits : body.length ≤ maxDidDocumentBytes
  answers : ∃ target response, text.parse url = some target ∧
    network [{ method := .get, url := target }] = .response response ∧ response.isSuccess = true ∧
    (∀ length ∈ response.contentLength, length = body.length) ∧ received response.chunks = (body, none)

theorem resolveDid_served (points : CurvePoints primitives) {keyPair : DcpKeyPair SigningKey}
    {services : List (String × String)} {insecureHttp : Bool} {url : String}
    (located : didWebToUrl keyPair.ownDid insecureHttp = .ok url)
    (parses : primitives.Parses (keyPair.didDocument points services))
    (serves : Serves text network url (keyPair.didDocument points services).text.toUTF8.data.toList) :
    (resolveDid primitives text network [] keyPair.ownDid insecureHttp).2 =
      .ok ⟨⟨[keyPair.shown points]⟩, services.map fun service => ⟨service.1, service.2⟩⟩ := by
  obtain ⟨target, response, parsed, answered, success, declared, whole⟩ := serves.answers
  have body : readBodyLimited response maxDidDocumentBytes =
      .ok (keyPair.didDocument points services).text.toUTF8.data.toList := by
    refine readBodyLimited_eq_ok.mpr ⟨?_, whole, serves.fits⟩
    intro length member
    rw [declared length member]
    exact serves.fits
  have value : primitives.fromSlice (keyPair.didDocument points services).text.toUTF8.data.toList = _ := parses
  unfold resolveDid
  rw [located]
  dsimp only
  rw [if_neg (by simp [serves.allowed]), parsed]
  dsimp only
  rw [HttpClient.send_resolver, List.nil_append, answered]
  exact readDidDocument_eq_ok.mpr
    ⟨response, _, _, rfl, success, body, value, fromJson_didDocument points keyPair services⟩

end

end CatalogBroker
