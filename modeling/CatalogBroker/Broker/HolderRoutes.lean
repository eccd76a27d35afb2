import CatalogBroker.Broker.OAuth2
import CatalogBroker.Dcp.DidWeb
import CatalogBroker.Dcp.IssuedPresentations

/-! The routes under `/dsp/holder`: the document of the broker's own DID, and presentations on request.

A presentation costs one request at most, to a provider the broker has itself approached.
-/

set_option autoImplicit false

namespace CatalogBroker

open Library Fallible Maps Redirects

def emptyResponse (status : Nat) : RouteResponse := { status, body := .text "" }

def jsonResponse (value : Json) : RouteResponse :=
  { status := 200, body := .document "application/json" value.text.toUTF8.data.toList }

def presentationQueryResponse : Except String PresentationResponseMessage → RouteResponse
  | .ok response => jsonResponse (.object [("presentation", .array (response.presentation.map .string))])
  | .error _ => emptyResponse 401

section

variable {SigningKey VerifyingKey Signature : Type} {primitives : Primitives SigningKey VerifyingKey Signature}

def holderDidDocumentRoute (points : CurvePoints primitives) : Option (HolderDeployment SigningKey) → RouteResponse
  | some holder => jsonResponse (holder.ownDidDocument points)
  | none => emptyResponse 404

variable (primitives) (text : DidText)

/-- `POST /dsp/holder/presentations/query`, with the requests it sends. The tokens are those issued when it arrives. -/
def holderPresentationQueryRoute (holder : Option (HolderDeployment SigningKey)) (issued : IssuedTokens)
    (headers : RequestHeaders) (now : Nat) (network : List HttpRequest → HttpReply) (run : PresentRun) :
    Exchanged RouteResponse :=
  match holder with
  | none => ([], emptyResponse 404)
  | some holder => match bearerToken headers with
    | none => ([], emptyResponse 401)
    | some token => match answerPresentationQuery primitives holder.toHolderIdentity issued token now with
      | .replied reply => ([], presentationQueryResponse reply)
      | .resolving did next =>
        let (hops, document) := resolveDid primitives text network [] did holder.insecureHttp
        (hops, presentationQueryResponse (next (document.map ResolvedDidDocument.toDidDocument) run))

def mintedTokens (holder : HolderIdentity SigningKey) (mints : List (String × MintRun)) : IssuedTokens :=
  mints.foldl (fun issued mint => (mintSelfIssuedToken primitives holder issued mint.1 mint.2).1) ∅

variable {primitives text} {holder : HolderDeployment SigningKey} {mints : List (String × MintRun)} {now : Nat}

theorem mintedTokens_some {holder : HolderIdentity SigningKey} {jti : String} {token : IssuedToken}
    (held : (mintedTokens primitives holder mints)[jti]? = some token) :
    ∃ mint ∈ mints, mint.2.accessJti = jti ∧ token = ⟨mint.1, mint.2.now + 300⟩ := by
  induction mints using List.reverseRecOn with
  | nil => simp [mintedTokens] at held
  | append_singleton mints mint ih =>
    unfold mintedTokens at held
    rw [List.foldl_append] at held
    rcases rememberIssuedCapped_some held with ⟨same, minted⟩ | ⟨_, earlier⟩
    · exact ⟨mint, by simp, same, minted⟩
    · obtain ⟨found, member, rest⟩ := ih earlier
      exact ⟨found, List.mem_append_left _ member, rest⟩

theorem acceptCall_minted {token : String} {call : AcceptedCall}
    (accepted : acceptCall primitives holder.toHolderIdentity (mintedTokens primitives holder.toHolderIdentity mints)
      token now = .ok call) : ∃ mint ∈ mints, call.callerDid = mint.1 ∧ now < mint.2.now + 300 := by
  obtain ⟨exp, held, valid⟩ := (acceptCall_passesOffline primitives _ accepted).held
  obtain ⟨mint, member, _, minted⟩ := mintedTokens_some held
  obtain ⟨same, rfl⟩ := IssuedToken.mk.inj minted
  exact ⟨mint, member, same, valid⟩

structure AnsweredCall (primitives : Primitives SigningKey VerifyingKey Signature) (text : DidText)
    (holder : HolderDeployment SigningKey) (network : List HttpRequest → HttpReply) (provider token : String)
    (request : HttpRequest) (response : RouteResponse) : Prop where
  /-- The caller's own document, as it was served just now, shows the key the caller has signed with. -/
  verified : ∃ document kid key, DocumentServed primitives network request document ∧
    findVerifyingKey primitives document.toDidDocument kid = .ok key ∧ SignedBy primitives token key
  presented : ∃ presentation, readString presentation "aud" = some provider ∧
    response = presentationQueryResponse
      (.ok ⟨[signJws primitives presentation holder.keyPair.signingKey holder.keyPair.ownKeyId]⟩)

/-- Whoever calls back, with whatever token and whatever the network answers: the broker asks one URL at most, that
of the DID of a provider it has itself sent a token to within five minutes, and only over https or to its own machine.
No redirect is followed, and the caller gets a presentation made out to it or nothing. -/
theorem callback_reaches_approached_only (primitives : Primitives SigningKey VerifyingKey Signature) (text : DidText)
    (holder : HolderDeployment SigningKey) (mints : List (String × MintRun)) (headers : RequestHeaders) (now : Nat)
    (network : List HttpRequest → HttpReply) (run : PresentRun) :
    let exchange := holderPresentationQueryRoute primitives text (some holder)
      (mintedTokens primitives holder.toHolderIdentity mints) headers now network run
    (exchange.1 = [] ∧ exchange.2 = emptyResponse 401) ∨
    ∃ mint ∈ mints, ∃ url target, now < mint.2.now + 300 ∧ didWebToUrl mint.1 holder.insecureHttp = .ok url ∧
      didUrlAllowed text url = true ∧ text.parse url = some target ∧
      exchange.1 = [{ method := .get, url := target }] ∧
      (exchange.2 = emptyResponse 401 ∨ ∃ token, bearerToken headers = some token ∧
        AnsweredCall primitives text holder network mint.1 token { method := .get, url := target } exchange.2) := by
  unfold holderPresentationQueryRoute
  dsimp only
  cases carried : bearerToken headers with
  | none => exact .inl ⟨rfl, rfl⟩
  | some token =>
    unfold answerPresentationQuery
    dsimp only
    -- everything before the resolution is refused without a request
    cases accepted : acceptCall primitives holder.toHolderIdentity
        (mintedTokens primitives holder.toHolderIdentity mints) token now with
    | error e => exact .inl ⟨rfl, rfl⟩
    | ok call =>
      obtain ⟨mint, member, same, valid⟩ := acceptCall_minted accepted
      dsimp only
      rw [same]
      rcases resolveDid_cases mint.1 holder.insecureHttp with ⟨error, failed⟩ |
        ⟨url, target, found, located, allowed, parsed, resolves, served⟩
      · rw [failed]
        exact .inl ⟨rfl, rfl⟩
      · rw [resolves]
        refine .inr ⟨mint, member, url, target, valid, located, allowed, parsed, rfl, ?_⟩
        dsimp only
        generalize outcome : presentTo primitives holder.toHolderIdentity token call
          (found.map ResolvedDidDocument.toDidDocument) run = reply
        cases reply with
        | error e => exact .inl rfl
        | ok response =>
          -- the key is one of the document the one request fetched
          have passes := presentTo_passesResolved _ _ outcome
          obtain ⟨document, key, resolved, shows, verified⟩ := passes.signed
          obtain ⟨whole, read, rfl⟩ := map_eq_ok.mp resolved
          refine .inr ⟨token, rfl, ⟨whole, call.kid, key, served whole read, shows, verified⟩,
            presentationPayload holder.toHolderIdentity call run, congrArg some same, ?_⟩
          rw [← passes.response]

end

section

variable {SigningKey VerifyingKey Signature : Type} {primitives : Primitives SigningKey VerifyingKey Signature}

/-- The token decodes to the claims, and the key its header names in the document verifies it. -/
def Vouches (primitives : Primitives SigningKey VerifyingKey Signature) (document : ResolvedDidDocument)
    (token : String) (claims : Json) : Prop :=
  ∃ signed header kid key, decodeJwsUnverified primitives token = .ok (signed, header, claims) ∧
    readString header "kid" = some kid ∧ findVerifyingKey primitives document.toDidDocument kid = .ok key ∧
    verifyJwsSignature primitives token key = .ok ()

theorem vouches_signJws (lawful : primitives.Lawful) (points : CurvePoints primitives) {keyPair : DcpKeyPair SigningKey}
    {services : List DidService} {payload : Json} (header : primitives.Parses (jwsHeader keyPair.ownKeyId))
    (parses : primitives.Parses payload) :
    Vouches primitives ⟨⟨[keyPair.shown points]⟩, services⟩
      (signJws primitives payload keyPair.signingKey keyPair.ownKeyId) payload :=
  ⟨_, _, keyPair.ownKeyId, _, decodeJwsUnverified_signJws keyPair.signingKey lawful header parses, rfl,
    findVerifyingKey_shown points lawful keyPair, verifyJwsSignature_signJws keyPair.signingKey lawful⟩

/-- A provider that publishes its key where its DID says, and calls back in time with the token it was sent. -/
structure CallsBack (points : CurvePoints primitives) (text : DidText) (holder : HolderDeployment SigningKey)
    (provider : DcpKeyPair SigningKey) (mintRun : MintRun) (payload : Json) (headers : RequestHeaders) (now : Nat)
    (network : List HttpRequest → HttpReply) (run : PresentRun) : Prop where
  published : ∃ services url, didWebToUrl provider.ownDid holder.insecureHttp = .ok url ∧
    primitives.Parses (provider.didDocument points services) ∧
    Serves text network url (provider.didDocument points services).text.toUTF8.data.toList
  wraps : Wraps primitives holder.toHolderIdentity provider.ownDid provider.ownKeyId mintRun payload
  valid : ∃ exp, (payload.get? "exp").bind Json.asU64? = some exp ∧ run.checkedAt < exp
  carried : bearerToken headers = some (signJws primitives payload provider.signingKey provider.ownKeyId)
  unexpired : now < mintRun.now + 300

theorem CallsBack.answered {points : CurvePoints primitives} {text : DidText} {holder : HolderDeployment SigningKey}
    {provider : DcpKeyPair SigningKey} {mintRun : MintRun} {payload : Json} {headers : RequestHeaders} {now : Nat}
    {network : List HttpRequest → HttpReply} {run : PresentRun} (lawful : primitives.Lawful)
    (calls : CallsBack points text holder provider mintRun payload headers now network run) (issued : IssuedTokens) :
    (holderPresentationQueryRoute primitives text (some holder)
        (mintSelfIssuedToken primitives holder.toHolderIdentity issued provider.ownDid mintRun).1 headers now network
        run).2 =
      presentationQueryResponse (.ok ⟨[signJws primitives
        (presentationPayload holder.toHolderIdentity
          ⟨payload, provider.ownKeyId, provider.ownDid, mintRun.accessJti⟩ run)
        holder.keyPair.signingKey holder.keyPair.ownKeyId]⟩) := by
  obtain ⟨services, url, located, parses, serves⟩ := calls.published
  obtain ⟨exp, expRead, valid⟩ := calls.valid
  -- offline checks, resolution and presentation pass one after the other
  have accepted := acceptCall_of_wraps provider.signingKey lawful calls.wraps
    (rememberIssuedCapped_self issued maxIssuedTokens _ _ _ mintRun.rememberedAt mintRun.order) calls.unexpired
  have resolved := resolveDid_served points located parses serves
  have presented := presentTo_of_wraps provider.signingKey lawful calls.wraps
    (findVerifyingKey_shown points lawful provider) expRead valid mintRun.accessJti
  unfold holderPresentationQueryRoute answerPresentationQuery mintSelfIssuedToken
  dsimp only
  rw [calls.carried]
  dsimp only
  rw [accepted]
  dsimp only
  rw [resolved]
  exact congrArg presentationQueryResponse presented

/-- An approached provider and this holder understand each other. The provider finds the document this broker serves
where the holder's DID says, and in it the key for the token it was sent and the endpoint to call back; it is answered
with a presentation that this key verifies. -/
theorem dcp_handshake_completes (lawful : primitives.Lawful) (points : CurvePoints primitives) (text : DidText)
    (ownDidHost credentialJws : String) (plain : PlainHost ownDidHost) (insecureHttp : Bool) (signingKey : SigningKey)
    (holder : HolderDeployment SigningKey)
    (deployed : holder = .new ownDidHost insecureHttp credentialJws signingKey)
    (ownNetwork : List HttpRequest → HttpReply) (body : List UInt8)
    (route : holderDidDocumentRoute points (some holder) =
      { status := 200, body := .document "application/json" body })
    (serves : Serves text ownNetwork (schemeOf insecureHttp ++ "://" ++ ownDidHost ++ "/dsp/holder/did.json") body)
    (provider : DcpKeyPair SigningKey) (issued : IssuedTokens) (mintRun : MintRun) (payload : Json)
    (headers : RequestHeaders) (now : Nat) (network : List HttpRequest → HttpReply) (run : PresentRun)
    (calls : CallsBack points text holder provider mintRun payload headers now network run) :
    let minted := mintSelfIssuedToken primitives holder.toHolderIdentity issued provider.ownDid mintRun
    let sent := t1Payload holder.toHolderIdentity provider.ownDid (signJws primitives
      (accessTokenPayload holder.toHolderIdentity mintRun) holder.keyPair.signingKey holder.keyPair.ownKeyId) mintRun
    let claims := presentationPayload holder.toHolderIdentity
      ⟨payload, provider.ownKeyId, provider.ownDid, mintRun.accessJti⟩ run
    (∀ value ∈ [holder.ownDidDocument points, sent, claims], primitives.Parses value) →
    ∃ document presentation,
      (resolveDid primitives text ownNetwork [] holder.keyPair.ownDid insecureHttp).2 = .ok document ∧
      serviceEndpointUrl document "CredentialService" =
        .ok (schemeOf insecureHttp ++ "://" ++ ownDidHost ++ "/dsp/holder") ∧
      Vouches primitives document minted.2 sent ∧
      (holderPresentationQueryRoute primitives text (some holder) minted.1 headers now network run).2 =
        presentationQueryResponse (.ok ⟨[presentation]⟩) ∧
      Vouches primitives document presentation claims := by
  intro minted sent claims parses
  obtain ⟨document, first, second⟩ : primitives.Parses (holder.ownDidDocument points) ∧ primitives.Parses sent ∧
      primitives.Parses claims := by
    simpa only [List.forall_mem_cons, List.not_mem_nil, false_implies, implies_true, and_true] using parses
  have header : primitives.Parses (jwsHeader holder.keyPair.ownKeyId) := calls.wraps.parses _ (by simp)
  subst deployed
  -- a plain host: its DID decodes to the address it was made from
  have located : didWebToUrl (HolderIdentity.new ownDidHost credentialJws signingKey).keyPair.ownDid insecureHttp =
      .ok (schemeOf insecureHttp ++ "://" ++ ownDidHost ++ "/dsp/holder/did.json") := by
    rw [HolderIdentity.new_ownDid, didWebToUrl_ownDidOf, (urlencodingDecode_escapeMark_iff ownDidHost).mpr plain]
  cases route
  refine ⟨_, _, resolveDid_served points located document serves, rfl, ?_, calls.answered lawful issued, ?_⟩
  · exact vouches_signJws lawful points header first
  · exact vouches_signJws lawful points header second

end

def parseSite (url : String) : Option HttpUrl :=
  (Text.splitOnce url ':').map fun parts =>
    let authority := (parts.2.toList.drop 2).takeWhile fun char => char ≠ '/'
    let rest := String.ofList ((parts.2.toList.drop 2).dropWhile fun char => char ≠ '/')
    match Text.splitOnce (String.ofList authority) ':' with
    | none => ⟨⟨parts.1, some (String.ofList authority), none⟩, some 443, rest⟩
    | some (host, port) => ⟨⟨parts.1, some host, none⟩, some (Nat.ofDigitChars 10 port.toList 0), rest⟩

def siteText : DidText := { gatedHttpText with parse := parseSite, shapeError := fun _ => "missing field" }

def handshakePoints (texts : List Json) : CurvePoints (exchangePrimitives texts) where
  x key := List.replicate 32 key
  y key := List.replicate 32 key
  length_x _ := List.length_replicate
  length_y _ := List.length_replicate
  publicKey _ := rfl

def handshakeHolder : HolderDeployment UInt8 := .new "broker.example:8443" false "credential" 3

def handshakeProvider : DcpKeyPair UInt8 := .generate "did:web:provider.example" 5

def handshakeRun : PresentRun := ⟨1011, 1011, "presentation"⟩

def handshakePayload : Json :=
  .object [("aud", .string handshakeHolder.keyPair.ownDid), ("exp", .ofNat 2000),
    ("iss", .string handshakeProvider.ownDid),
    ("token", .string (signJws (exchangePrimitives [])
      (accessTokenPayload handshakeHolder.toHolderIdentity exchangeMint) handshakeHolder.keyPair.signingKey
      handshakeHolder.keyPair.ownKeyId))]

def handshakeSent : Json :=
  t1Payload handshakeHolder.toHolderIdentity handshakeProvider.ownDid (signJws (exchangePrimitives [])
    (accessTokenPayload handshakeHolder.toHolderIdentity exchangeMint) handshakeHolder.keyPair.signingKey
    handshakeHolder.keyPair.ownKeyId) exchangeMint

def handshakeClaims : Json :=
  presentationPayload handshakeHolder.toHolderIdentity
    ⟨handshakePayload, handshakeProvider.ownKeyId, handshakeProvider.ownDid, exchangeMint.accessJti⟩ handshakeRun

def handshakeTexts : List Json :=
  [jwsHeader handshakeProvider.ownKeyId, handshakePayload, jwsHeader handshakeHolder.keyPair.ownKeyId,
    accessTokenPayload handshakeHolder.toHolderIdentity exchangeMint, handshakeSent, handshakeClaims,
    handshakeHolder.ownDidDocument (handshakePoints []), handshakeProvider.didDocument (handshakePoints []) []]

theorem handshakeTexts_distinct : handshakeTexts.Pairwise fun first second => first.text ≠ second.text := by
  decide +kernel

def servingDocument (document : Json) (_ : List HttpRequest) : HttpReply :=
  .response ⟨200, none, [.ok document.text.toUTF8.data.toList]⟩

theorem servingDocument_serves {url : String} {document : Json} (allowed : didUrlAllowed siteText url = true)
    (fits : document.text.toUTF8.data.toList.length ≤ maxDidDocumentBytes) (parsed : (parseSite url).isSome = true) :
    Serves siteText (servingDocument document) url document.text.toUTF8.data.toList where
  allowed := allowed
  fits := fits
  answers := by
    obtain ⟨target, found⟩ := Option.isSome_iff_exists.mp parsed
    exact ⟨target, _, found, rfl, rfl, by simp, by simp [received]⟩

theorem handshake_parses (index : Nat) {value : Json} (found : handshakeTexts[index]? = some value) :
    (exchangePrimitives handshakeTexts).Parses value :=
  exchangePrimitives_parses handshakeTexts_distinct value (List.mem_of_getElem? found)

theorem handshake_didDocument (texts : List Json) (keyPair : DcpKeyPair UInt8) (services : List (String × String)) :
    keyPair.didDocument (handshakePoints texts) services = keyPair.didDocument (handshakePoints []) services :=
  rfl

theorem handshake_signJws (texts : List Json) (payload : Json) (key : UInt8) (kid : String) :
    signJws (exchangePrimitives texts) payload key kid = signJws (exchangePrimitives []) payload key kid :=
  rfl

theorem trim_of_solid {chars : List Char} (solid : ∀ char ∈ chars, Text.isWhiteSpace char = false) :
    Text.trim chars = chars := by
  have kept (chars : List Char) (solid : ∀ char ∈ chars, Text.isWhiteSpace char = false) :
      chars.dropWhile Text.isWhiteSpace = chars := by
    cases chars with
    | nil => rfl
    | cons char chars => rw [List.dropWhile_cons_of_neg (by simp [solid])]
  have back := kept chars.reverse fun char member => solid char (List.mem_reverse.mp member)
  rw [Text.trim, kept chars solid, back, List.reverse_reverse]

theorem bearerToken_solid {token : String} (solid : ∀ char ∈ token.toList, Text.isWhiteSpace char = false)
    (nonempty : token ≠ "") (accept : Option String) :
    bearerToken ⟨some ("Bearer " ++ token), accept⟩ = some token := by
  have cut : Text.splitOnce ("Bearer " ++ token) ' ' = some ("Bearer", token) :=
    @Text.splitOnce_append "Bearer" ' ' (by decide) token
  have trimmed : Text.trimmed token = token := by
    rw [Text.trimmed, trim_of_solid solid, String.ofList_toList]
  unfold bearerToken
  simp only [bind, Option.bind, cut, trimmed, if_neg nonempty]
  rfl

theorem bearerToken_signJws (texts : List Json) (payload : Json) (key : UInt8) (kid : String)
    (accept : Option String) :
    bearerToken ⟨some ("Bearer " ++ signJws (exchangePrimitives texts) payload key kid), accept⟩ =
      some (signJws (exchangePrimitives texts) payload key kid) := by
  -- neither Base64 nor the dot is whitespace, so nothing is trimmed
  have ascii : ∀ value < 64, 32 < (Base64Url.digit value).toNat ∧ (Base64Url.digit value).toNat < 133 := by
    decide +kernel
  have encoded {bytes : List UInt8} {char : Char} (member : char ∈ (Base64Url.encode bytes).toList) :
      Text.isWhiteSpace char = false := by
    obtain ⟨value, small, rfl⟩ := Base64Url.exists_digit_of_mem_encode member
    have bounds := ascii value small
    simp only [Text.isWhiteSpace, Bool.or_eq_false_iff, Bool.and_eq_false_iff, decide_eq_false_iff_not]
    omega
  have dot {char : Char} (member : char ∈ ".".toList) : Text.isWhiteSpace char = false := by
    cases member with
    | head => decide
    | tail _ none => cases none
  refine bearerToken_solid ?_ ?_ accept
  · intro char member
    simp only [signJws, b64EncodeText, exchangePrimitives, String.toList_append, List.mem_append] at member
    rcases member with (((member | separator) | member) | separator) | member
    · exact encoded member
    · exact dot separator
    · exact encoded member
    · exact dot separator
    · exact encoded member
  · intro empty
    have characters := congrArg String.toList empty
    simp [signJws] at characters

def handshakeHeaders : RequestHeaders :=
  ⟨some ("Bearer " ++ signJws (exchangePrimitives handshakeTexts) handshakePayload 5 handshakeProvider.ownKeyId), none⟩

def handshakeProviderDocument : Json := handshakeProvider.didDocument (handshakePoints []) []

def handshakeOwnDocument : Json := handshakeHolder.ownDidDocument (handshakePoints [])

theorem utf8ByteSize_quote (value : String) : (Json.quote value).utf8ByteSize =
    (String.ofList (value.toList.flatMap Json.escapeChar)).utf8ByteSize + 2 := by
  unfold Json.quote
  rw [String.utf8ByteSize_append, String.utf8ByteSize_append]
  have one : "\"".utf8ByteSize = 1 := rfl
  omega

theorem handshake_published : Serves siteText (servingDocument handshakeProviderDocument)
    "https://provider.example/.well-known/did.json" handshakeProviderDocument.text.toUTF8.data.toList := by
  refine servingDocument_serves (by decide +kernel) ?_ (by decide +kernel)
  change handshakeProviderDocument.text.utf8ByteSize ≤ _
  simp only [handshakeProviderDocument, DcpKeyPair.didDocument, Json.text, Json.itemsText, Json.membersText,
    List.map_nil, String.utf8ByteSize_append, utf8ByteSize_quote]
  decide +kernel

theorem handshake_served : Serves siteText (servingDocument handshakeOwnDocument)
    "https://broker.example:8443/dsp/holder/did.json" handshakeOwnDocument.text.toUTF8.data.toList := by
  refine servingDocument_serves (by decide +kernel) ?_ (by decide +kernel)
  change handshakeOwnDocument.text.utf8ByteSize ≤ _
  simp only [handshakeOwnDocument, HolderDeployment.ownDidDocument, DcpKeyPair.didDocument, Json.text, Json.itemsText,
    Json.membersText, List.map_cons, List.map_nil, String.utf8ByteSize_append, utf8ByteSize_quote]
  decide +kernel

theorem handshake_callsBack : CallsBack (handshakePoints handshakeTexts) siteText handshakeHolder handshakeProvider
    exchangeMint handshakePayload handshakeHeaders 1010 (servingDocument handshakeProviderDocument) handshakeRun where
  published := by
    refine ⟨[], "https://provider.example/.well-known/did.json", by decide +kernel, ?_⟩
    rw [handshake_didDocument]
    exact ⟨handshake_parses 7 rfl, handshake_published⟩
  wraps := by
    refine ⟨rfl, ?_, rfl, ?_⟩
    · rw [handshake_signJws]
      rfl
    · simp only [List.forall_mem_cons, List.not_mem_nil, false_implies, implies_true, and_true]
      exact ⟨handshake_parses 0 rfl, handshake_parses 1 rfl, handshake_parses 2 rfl, handshake_parses 3 rfl⟩
  valid := ⟨2000, by decide +kernel, by decide⟩
  carried := bearerToken_signJws _ _ _ _ _
  unexpired := by decide

theorem handshake_of_texts : ∃ document presentation,
    (resolveDid (exchangePrimitives handshakeTexts) siteText (servingDocument handshakeOwnDocument) []
      handshakeHolder.keyPair.ownDid false).2 = .ok document ∧
    serviceEndpointUrl document "CredentialService" = .ok "https://broker.example:8443/dsp/holder" ∧
    (holderPresentationQueryRoute (exchangePrimitives handshakeTexts) siteText (some handshakeHolder)
      (mintSelfIssuedToken (exchangePrimitives handshakeTexts) handshakeHolder.toHolderIdentity ∅
        handshakeProvider.ownDid exchangeMint).1 handshakeHeaders 1010 (servingDocument handshakeProviderDocument)
      handshakeRun).2 = presentationQueryResponse (.ok ⟨[presentation]⟩) ∧
    Vouches (exchangePrimitives handshakeTexts) document presentation handshakeClaims := by
  have parses : ∀ value ∈ [handshakeOwnDocument, handshakeSent, handshakeClaims],
      (exchangePrimitives handshakeTexts).Parses value := by
    simp only [List.forall_mem_cons, List.not_mem_nil, false_implies, implies_true, and_true]
    exact ⟨handshake_parses 6 rfl, handshake_parses 4 rfl, handshake_parses 5 rfl⟩
  have route : holderDidDocumentRoute (handshakePoints handshakeTexts) (some handshakeHolder) =
      jsonResponse handshakeOwnDocument :=
    congrArg jsonResponse (handshake_didDocument handshakeTexts _ _)
  obtain ⟨document, presentation, resolved, endpoint, _, answered, vouches⟩ := dcp_handshake_completes
    (exchangePrimitives_lawful _) (handshakePoints handshakeTexts) siteText "broker.example:8443" "credential"
    (by decide) false 3 handshakeHolder rfl (servingDocument handshakeOwnDocument) _ route handshake_served
    handshakeProvider ∅ exchangeMint handshakePayload handshakeHeaders 1010 _ handshakeRun handshake_callsBack parses
  exact ⟨document, presentation, resolved, endpoint, answered, vouches⟩

end CatalogBroker
