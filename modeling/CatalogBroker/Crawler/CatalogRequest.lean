import CatalogBroker.Crawler.CrawlCycle
import CatalogBroker.Crawler.Http
import CatalogBroker.Dcp.Holder

/-! Asking one participant for its catalog, with the credential it asks for.

Whoever answers may redirect, and answers each request as it likes.
-/

set_option autoImplicit false

namespace CatalogBroker

open Library Fallible Redirects

def dspContextUrl : String := "https://w3id.org/dspace/2025/1/context.jsonld"

def openParticipantPlaceholderAuth : String := "federated-catalog-rs-crawler-anonymous"

def catalogRequestMessage : Json :=
  .object [("@context", .array [.string dspContextUrl]), ("@type", .string "CatalogRequestMessage")]

def definitionId : String := "federated-catalog-access"

def descriptorId : String := "federated-catalog-access-credential"

structure VpRun where
  now : Nat
  nonce : String
  submissionId : String

def buildPresentationSubmission (definitionId : String) (run : VpRun) : Json :=
  .object [("definition_id", .string definitionId),
    ("descriptor_map", .array [.object [("format", .string "jwt_vp_json"), ("id", .string descriptorId),
      ("path", .string "$")]]),
    ("id", .string run.submissionId)]

inductive Oid4VpError where
  | transport (uri source : String)
  | nonSuccessStatus (uri : String) (status : Nat)
  | readBody (uri : String) (source : BodyError)
  | malformedResponse (uri source : String)
  | missingAccessToken (uri : String)

def Oid4VpError.display (text : HttpText) : Oid4VpError → String
  | .transport uri source => "request to " ++ uri ++ " failed: " ++ source
  | .nonSuccessStatus uri status => uri ++ " returned HTTP " ++ text.statusText status
  | .readBody uri source => "reading the response from " ++ uri ++ " failed: " ++ source.display
  | .malformedResponse uri source => "response from " ++ uri ++ " was not valid JSON: " ++ source
  | .missingAccessToken uri => "response from " ++ uri ++ " had no access_token field"

section

variable {SigningKey VerifyingKey Signature : Type} (primitives : Primitives SigningKey VerifyingKey Signature)
  (text : HttpText) (network : List HttpRequest → HttpReply)

def vpPayload (holder : HolderIdentity SigningKey) (audience : String) (run : VpRun) : Json :=
  .object [("aud", .string audience), ("exp", .ofNat (run.now + 300)), ("iat", .ofNat run.now),
    ("iss", .string holder.keyPair.ownDid), ("nonce", .string run.nonce), ("sub", .string holder.keyPair.ownDid),
    ("vp", .object [("@context", .array [.string "https://www.w3.org/2018/credentials/v1"]),
      ("type", .array [.string "VerifiablePresentation"]),
      ("verifiableCredential", .array [.string holder.credentialJws])])]

def buildVpToken (holder : HolderIdentity SigningKey) (audience : String) (run : VpRun) : String :=
  signJws primitives (vpPayload holder audience run) holder.keyPair.signingKey holder.keyPair.ownKeyId

/-- `http.post(url)`: a URL that does not parse fails when it is sent. -/
def post (past : List HttpRequest) (url : String) (authorization : Option String) (body : RequestBody) :
    Exchanged (Except String HttpResponse) :=
  match text.parse url with
  | none => ([], .error (text.invalidUrl url))
  | some url => HttpClient.send text (outboundClient text) network past ⟨.post, url, authorization, some body⟩

def readAccessToken (responseUri : String) (maxResponseBytes : Nat) (answer : Except String HttpResponse) :
    Except Oid4VpError String := do
  let response ← answer.mapError (.transport responseUri)
  if response.isSuccess = false then .error (.nonSuccessStatus responseUri response.status)
  else do
    let bytes ← (readBodyLimited response maxResponseBytes).mapError (.readBody responseUri)
    let body ← (primitives.fromSlice bytes).mapError (.malformedResponse responseUri)
    okOr (readString body "access_token") (.missingAccessToken responseUri)

def presentationForm (holder : HolderIdentity SigningKey) (responseUri : String) (run : VpRun) : RequestBody :=
  .form [("vp_token", buildVpToken primitives holder responseUri run),
    ("presentation_submission", (buildPresentationSubmission definitionId run).text)]

def present (holder : HolderIdentity SigningKey) (responseUri : String) (maxResponseBytes : Nat) (run : VpRun) :
    Exchanged (Except Oid4VpError String) :=
  let (hops, answer) := post text network [] responseUri none (presentationForm primitives holder responseUri run)
  (hops, readAccessToken primitives responseUri maxResponseBytes answer)

/-- The tokens minted and the presentation made for one crawl. -/
structure CredentialRun where
  mint : MintRun
  vp : VpRun

/-- The tokens issued so far, and the `Authorization` header a participant's protocol asks for. -/
def authorize (holder : Option (HolderIdentity SigningKey)) (issued : IssuedTokens) (participant : ParticipantEntry)
    (maxResponseBytes : Nat) (run : CredentialRun) : IssuedTokens × Exchanged (Except String String) :=
  let failed (reason : String) := (issued, [], .error ("participant '" ++ participant.id ++ "' " ++ reason))
  match participant.credentialProtocol with
  | .none => (issued, [], .ok openParticipantPlaceholderAuth)
  | .dcp => match holder, participant.providerDid with
    | none, _ => failed "requires_dcp but no holder identity is configured"
    | some _, none => failed "requires_dcp but has no provider_did"
    | some holder, some providerDid =>
      let (issued, token) := mintSelfIssuedToken primitives holder issued providerDid run.mint
      (issued, [], .ok ("Bearer " ++ token))
  -- only here another party is asked before the catalog endpoint
  | .oid4Vp => match holder, participant.oid4vpResponseUri with
    | none, _ => failed "requires oid4vp but no holder identity is configured"
    | some _, none => failed "requires oid4vp but has no oid4vp_response_uri"
    | some holder, some responseUri =>
      let (hops, token) := present primitives text network holder responseUri maxResponseBytes run.vp
      (issued, hops, (token.mapError fun e => "participant '" ++ participant.id ++ "' OID4VP presentation to " ++
        responseUri ++ " failed: " ++ e.display text).map ("Bearer " ++ ·))

def readCatalogBody (url : String) (maxResponseBytes : Nat) (answer : Except String HttpResponse) :
    Except String Json := do
  let response ← answer.mapError fun e => "request to " ++ url ++ " failed: " ++ e
  if response.isSuccess = false then .error (url ++ " returned HTTP " ++ text.statusText response.status)
  else do
    let bytes ← (readBodyLimited response maxResponseBytes).mapError fun e =>
      "reading the response from " ++ url ++ " failed: " ++ e.display
    (primitives.fromSlice bytes).mapError fun e => "malformed JSON response from " ++ url ++ ": " ++ e

structure Fetched where
  issued : IssuedTokens
  hops : List HttpRequest
  body : Except String Json

/-- `crawl_one` up to the parsing of the catalog. -/
def fetchCatalog (holder : Option (HolderIdentity SigningKey)) (issued : IssuedTokens) (participant : ParticipantEntry)
    (maxResponseBytes : Nat) (run : CredentialRun) : Fetched :=
  let (issued, asked, authorized) := authorize primitives text network holder issued participant maxResponseBytes run
  match authorized with
  | .error e => ⟨issued, asked, .error e⟩
  | .ok authorization =>
    let (hops, answer) := post text network asked participant.catalogRequestUrl (some authorization)
      (.json catalogRequestMessage)
    ⟨issued, asked ++ hops, readCatalogBody primitives text participant.catalogRequestUrl maxResponseBytes answer⟩

/-- A request of a presentation: to the response endpoint's origin, with the presentation made for it. -/
inductive PresentationHop (holder : Option (HolderIdentity SigningKey)) (participant : ParticipantEntry)
    (run : CredentialRun) (hop : HttpRequest) : Prop
  | sent {identity : HolderIdentity SigningKey} {responseUri : String} {url : HttpUrl}
      (protocol : participant.credentialProtocol = .oid4Vp) (holds : holder = some identity)
      (configured : participant.oid4vpResponseUri = some responseUri) (parsed : text.parse responseUri = some url)
      (carries : HttpRequest.Carries
        ⟨.post, url, none, some (presentationForm primitives identity responseUri run.vp)⟩ hop)

/-- A request for the catalog: to the participant's own origin, with the authorization of its own protocol. -/
inductive CatalogHop (holder : Option (HolderIdentity SigningKey)) (issued : IssuedTokens)
    (participant : ParticipantEntry) (maxResponseBytes : Nat) (run : CredentialRun) (hop : HttpRequest) : Prop
  | sent {authorization : String} {url : HttpUrl}
      (authorized : (authorize primitives text network holder issued participant maxResponseBytes run).2.2 =
        .ok authorization)
      (parsed : text.parse participant.catalogRequestUrl = some url)
      (carries : HttpRequest.Carries ⟨.post, url, some authorization, some (.json catalogRequestMessage)⟩ hop)

variable {primitives text network} {holder : Option (HolderIdentity SigningKey)} {issued : IssuedTokens}
  {participant : ParticipantEntry} {maxResponseBytes : Nat} {run : CredentialRun}

theorem post_carries {past : List HttpRequest} {url : String} {authorization : Option String} {body : RequestBody}
    {hop : HttpRequest} (sent : hop ∈ (post text network past url authorization body).1) :
    ∃ parsed, text.parse url = some parsed ∧ HttpRequest.Carries ⟨.post, parsed, authorization, some body⟩ hop := by
  unfold post at sent
  cases parsed : text.parse url with
  | none =>
    rw [parsed] at sent
    cases sent
  | some target =>
    rw [parsed] at sent
    exact ⟨target, rfl, outbound_carries network past _ hop sent⟩

variable (text network) in
theorem post_length (past : List HttpRequest) (url : String) (authorization : Option String) (body : RequestBody) :
    (post text network past url authorization body).1.length ≤ 11 := by
  unfold post
  split
  · exact Nat.zero_le _
  · exact HttpClient.send_length (outboundClient text)

variable (primitives text network holder issued participant maxResponseBytes run) in
theorem authorize_cases : (authorize primitives text network holder issued participant maxResponseBytes run).2.1 = [] ∨
    ∃ identity responseUri, participant.credentialProtocol = .oid4Vp ∧ holder = some identity ∧
      participant.oid4vpResponseUri = some responseUri ∧
      (authorize primitives text network holder issued participant maxResponseBytes run).2.1 =
        (post text network [] responseUri none (presentationForm primitives identity responseUri run.vp)).1 := by
  unfold authorize
  cases protocol : participant.credentialProtocol with
  | none => exact .inl rfl
  | dcp => cases holder <;> cases participant.providerDid <;> exact .inl rfl
  | oid4Vp =>
    cases holder with
    | none => exact .inl rfl
    | some identity =>
      cases configured : participant.oid4vpResponseUri with
      | none => exact .inl rfl
      | some responseUri => exact .inr ⟨identity, responseUri, rfl, rfl, rfl, rfl⟩

theorem authorize_hops {hop : HttpRequest}
    (asked : hop ∈ (authorize primitives text network holder issued participant maxResponseBytes run).2.1) :
    PresentationHop primitives text holder participant run hop := by
  rcases authorize_cases primitives text network holder issued participant maxResponseBytes run with
    none | ⟨identity, responseUri, protocol, holds, configured, same⟩
  · rw [none] at asked
    cases asked
  · rw [same] at asked
    obtain ⟨url, parsed, carries⟩ := post_carries asked
    exact .sent protocol holds configured parsed carries

theorem authorize_length :
    (authorize primitives text network holder issued participant maxResponseBytes run).2.1.length ≤ 11 := by
  rcases authorize_cases primitives text network holder issued participant maxResponseBytes run with
    none | ⟨identity, responseUri, _, _, _, same⟩
  · rw [none]
    exact Nat.zero_le _
  · rw [same]
    exact post_length text network _ _ _ _

variable (primitives text network holder issued participant maxResponseBytes run) in
theorem fetchCatalog_hops : ∃ asked sent,
    (fetchCatalog primitives text network holder issued participant maxResponseBytes run).hops = asked ++ sent ∧
    asked.length ≤ 11 ∧ sent.length ≤ 11 ∧ (∀ hop ∈ asked, PresentationHop primitives text holder participant run hop) ∧
    ∀ hop ∈ sent, CatalogHop primitives text network holder issued participant maxResponseBytes run hop := by
  have asks (hop : HttpRequest) := @authorize_hops _ _ _ primitives text network holder issued participant
    maxResponseBytes run hop
  have short := @authorize_length _ _ _ primitives text network holder issued participant maxResponseBytes run
  unfold fetchCatalog
  rcases authorizes : authorize primitives text network holder issued participant maxResponseBytes run with
    ⟨minted, asked, authorized⟩
  rw [authorizes] at asks short
  cases authorized with
  | error e => exact ⟨asked, [], (List.append_nil asked).symm, short, Nat.zero_le _, asks, by simp⟩
  | ok authorization =>
    refine ⟨asked, _, rfl, short, post_length text network _ _ _ _, asks, ?_⟩
    intro hop sent
    obtain ⟨url, parsed, carries⟩ := post_carries sent
    refine .sent ?_ parsed carries
    rw [authorizes]

theorem PresentationHop.allowed {hop : HttpRequest} (checked : participant.Checked text.config)
    (presents : PresentationHop primitives text holder participant run hop) :
    remoteAllowed text.config hop.url.toUrl = true := by
  obtain ⟨protocol, holds, configured, parsed, carries⟩ := presents
  obtain ⟨url, found, allowed⟩ := checked.response _ configured
  obtain ⟨target, same, rfl⟩ := Option.map_eq_some_iff.mp found
  cases parsed.symm.trans same
  exact carries.reaches.allowed text allowed

theorem CatalogHop.allowed {hop : HttpRequest} (checked : participant.Checked text.config)
    (requests : CatalogHop primitives text network holder issued participant maxResponseBytes run hop)
    (gated : participant.credentialProtocol ≠ .none) : remoteAllowed text.config hop.url.toUrl = true := by
  obtain ⟨authorized, parsed, carries⟩ := requests
  obtain ⟨url, found, allowed⟩ := checked.catalog gated
  obtain ⟨target, same, rfl⟩ := Option.map_eq_some_iff.mp found
  cases parsed.symm.trans same
  exact carries.reaches.allowed text allowed

end

end CatalogBroker
