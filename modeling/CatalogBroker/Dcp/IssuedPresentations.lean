import CatalogBroker.Dcp.AnsweredProviders
import CatalogBroker.Library.Base64Url

/-! Who gets a presentation: only a provider this holder minted a token for. -/

set_option autoImplicit false

namespace CatalogBroker

open Library Fallible Maps Transitions

def lastMint (events : List HolderEvent) (jti : String) : Option IssuedToken :=
  events.foldl (fun last event =>
    match event with
    | .mint target run => if run.accessJti = jti then some ⟨target, run.now + 300⟩ else last
    | _ => last) none

theorem rememberIssuedCapped_some {issued : IssuedTokens} {cap : Nat} {jti providerDid other : String}
    {exp now : Nat} {order : HashOrder IssuedToken} {token : IssuedToken}
    (found : (rememberIssuedCapped issued cap jti providerDid exp now order)[other]? = some token) :
    (jti = other ∧ token = ⟨providerDid, exp⟩) ∨ jti ≠ other ∧ issued[other]? = some token := by
  have kept (found : (issued.filter fun _ token => now < token.exp)[other]? = some token) :
      issued[other]? = some token :=
    (getElem?_filter_eq_some.mp found).1
  unfold rememberIssuedCapped at found
  rcases getElem?_insert_some found with ⟨same, rfl⟩ | ⟨apart, earlier⟩
  · exact .inl ⟨same.symm, rfl⟩
  · refine .inr ⟨apart.symm, ?_⟩
    split at earlier
    · split at earlier
      · exact kept (getElem?_erase_some earlier)
      · exact kept earlier
    · exact kept earlier

theorem issuedTo_eq_some {issued : IssuedTokens} {jti did : String} {now : Nat} :
    issuedTo issued jti now = some did ↔ ∃ exp, issued[jti]? = some ⟨did, exp⟩ ∧ now < exp := by
  unfold issuedTo
  rw [Option.map_eq_some_iff]
  constructor
  · rintro ⟨⟨provider, exp⟩, found, rfl⟩
    obtain ⟨held, valid⟩ := Option.filter_eq_some_iff.mp found
    exact ⟨exp, held, of_decide_eq_true valid⟩
  · rintro ⟨exp, held, valid⟩
    exact ⟨⟨did, exp⟩, Option.filter_eq_some_iff.mpr ⟨held, decide_eq_true valid⟩, rfl⟩

section

variable {SigningKey VerifyingKey Signature : Type} (primitives : Primitives SigningKey VerifyingKey Signature)
  (holder : HolderIdentity SigningKey)

/-- The checks that need no network, on a callback's outer token and the token nested in it. -/
structure PassesOffline (issued : IssuedTokens) (token : String) (now : Nat) (call : AcceptedCall) : Prop where
  outer : ∃ signed header, decodeJwsUnverified primitives token = .ok (signed, header, call.payload) ∧
    readString header "kid" = some call.kid
  caller : readString call.payload "iss" = some call.callerDid
  nested : ∃ nested signed header payload, readString call.payload "token" = some nested ∧
    decodeJwsUnverified primitives nested = .ok (signed, header, payload) ∧
    readString payload "jti" = some call.nonce ∧
    SignedBy primitives nested (primitives.verifyingKey holder.keyPair.signingKey)
  held : ∃ exp, issued[call.nonce]? = some ⟨call.callerDid, exp⟩ ∧ now < exp

theorem acceptCall_passesOffline {issued : IssuedTokens} {token : String} {now : Nat} {call : AcceptedCall}
    (accepted : acceptCall primitives holder issued token now = .ok call) :
    PassesOffline primitives holder issued token now call := by
  unfold acceptCall at accepted
  obtain ⟨⟨signed, header, payload⟩, decoded, accepted⟩ := bind_eq_ok.mp accepted
  obtain ⟨callerDid, iss, accepted⟩ := bind_eq_ok.mp accepted
  obtain ⟨kid, ownKid, accepted⟩ := bind_eq_ok.mp accepted
  obtain ⟨nested, carried, accepted⟩ := bind_eq_ok.mp accepted
  obtain ⟨⟨nestedSigned, nestedHeader, nestedPayload⟩, nestedDecoded, accepted⟩ := bind_eq_ok.mp accepted
  obtain ⟨nonce, jti, accepted⟩ := bind_eq_ok.mp accepted
  obtain ⟨provider, held, accepted⟩ := bind_eq_ok.mp accepted
  obtain ⟨same, accepted⟩ := guard_eq_ok.mp accepted
  obtain ⟨⟨⟩, verified, accepted⟩ := bind_eq_ok.mp accepted
  cases accepted
  rw [okOr_eq_ok] at iss ownKid carried jti held
  obtain rfl := not_ne_iff.mp same
  exact {
    outer := ⟨signed, header, decoded, ownKid⟩
    caller := iss
    nested := ⟨nested, nestedSigned, nestedHeader, nestedPayload, carried, nestedDecoded, jti,
      signedBy_of_verifyJwsSignature primitives verified⟩
    held := issuedTo_eq_some.mp held }

/-- The checks on the resolved caller, and the presentation that follows from them. -/
structure PassesResolved (token : String) (call : AcceptedCall) (callerDoc : Except String DidDocument)
    (run : PresentRun) (response : PresentationResponseMessage) : Prop where
  signed : ∃ document key, callerDoc = .ok document ∧ findVerifyingKey primitives document call.kid = .ok key ∧
    SignedBy primitives token key
  audience : (readString call.payload "aud").getD "" = holder.keyPair.ownDid
  valid : run.checkedAt < ((call.payload.get? "exp").bind Json.asU64?).getD 0
  response : response.presentation = [signJws primitives (presentationPayload holder call run)
    holder.keyPair.signingKey holder.keyPair.ownKeyId]

theorem presentTo_passesResolved {token : String} {call : AcceptedCall} {callerDoc : Except String DidDocument}
    {run : PresentRun} {response : PresentationResponseMessage}
    (presented : presentTo primitives holder token call callerDoc run = .ok response) :
    PassesResolved primitives holder token call callerDoc run response := by
  unfold presentTo at presented
  obtain ⟨document, resolved, presented⟩ := bind_eq_ok.mp presented
  obtain ⟨key, found, presented⟩ := bind_eq_ok.mp presented
  obtain ⟨⟨⟩, verified, presented⟩ := bind_eq_ok.mp presented
  obtain ⟨audience, presented⟩ := guard_eq_ok.mp presented
  obtain ⟨valid, presented⟩ := guard_eq_ok.mp presented
  cases presented
  exact {
    signed := ⟨document, key, resolved, found, signedBy_of_verifyJwsSignature primitives verified⟩
    audience := not_ne_iff.mp audience
    valid := not_le.mp valid
    response := rfl }

theorem lastMint_append (events : List HolderEvent) (event : HolderEvent) (jti : String) :
    lastMint (events ++ [event]) jti = match event with
      | .mint target run => if run.accessJti = jti then some ⟨target, run.now + 300⟩ else lastMint events jti
      | _ => lastMint events jti := by
  unfold lastMint
  rw [List.foldl_append]
  rfl

theorem exists_mint_of_lastMint {events : List HolderEvent} {jti : String} {token : IssuedToken}
    (last : lastMint events jti = some token) :
    ∃ run, .mint token.providerDid run ∈ events ∧ run.accessJti = jti ∧ token.exp = run.now + 300 := by
  induction events using List.reverseRecOn with
  | nil => cases last
  | append_singleton events event ih =>
    have earlier (before : lastMint events jti = some token) :
        ∃ run, .mint token.providerDid run ∈ events ++ [event] ∧ run.accessJti = jti ∧
          token.exp = run.now + 300 := by
      obtain ⟨run, member, same, exp⟩ := ih before
      exact ⟨run, List.mem_append_left _ member, same, exp⟩
    rw [lastMint_append] at last
    cases event with
    | mint target run =>
      by_cases same : run.accessJti = jti
      · simp only [if_pos same] at last
        cases last
        exact ⟨run, List.mem_append_right _ (List.mem_singleton.mpr rfl), same, rfl⟩
      · simp only [if_neg same] at last
        exact earlier last
    | query index token now => exact earlier last
    | resolved index moment run => exact earlier last

variable (resolveDid : Nat → String → Except String DidDocument)

abbrev HolderRun (events : List HolderEvent) (state : HolderState) : Prop :=
  Run (HolderState.step primitives holder resolveDid) (fun _ _ => True) .initial events state

/-- A query that was accepted in the state its events led to. -/
structure Queried (before : List HolderEvent) (token : String) (now : Nat) (call : AcceptedCall) : Prop where
  accepted : ∃ state, HolderRun primitives holder resolveDid before state ∧
    acceptCall primitives holder state.issued token now = .ok call
  minted : ∃ exp, lastMint before call.nonce = some ⟨call.callerDid, exp⟩ ∧ now < exp

/-- The events that explain where a call stands. -/
def Explained (events : List HolderEvent) (index : Nat) : Answering → Prop
  | .replied (.error _) => True
  | .replied (.ok response) => ∃ before between after token now moment run call,
      events = before ++ .query index token now :: (between ++ .resolved index moment run :: after) ∧
      Queried primitives holder resolveDid before token now call ∧
      presentTo primitives holder token call (resolveDid moment call.callerDid) run = .ok response
  | .resolving did next => ∃ before after token now call,
      events = before ++ .query index token now :: after ∧
      Queried primitives holder resolveDid before token now call ∧
      did = call.callerDid ∧ next = presentTo primitives holder token call

/-- Every token held is the one last minted under its id, and every call is explained. -/
structure HistoryExplains (events : List HolderEvent) (state : HolderState) : Prop where
  minted : ∀ jti token, state.issued[jti]? = some token → lastMint events jti = some token
  calls : ∀ index answering, state.calls index = some answering →
    Explained primitives holder resolveDid events index answering

variable {primitives holder resolveDid} {events : List HolderEvent} {state next : HolderState}

theorem Explained.append {index : Nat} {answering : Answering}
    (explained : Explained primitives holder resolveDid events index answering) (event : HolderEvent) :
    Explained primitives holder resolveDid (events ++ [event]) index answering := by
  cases answering with
  | replied reply =>
    cases reply with
    | error e => trivial
    | ok response =>
      obtain ⟨before, between, after, token, now, moment, run, call, rfl, queried, presented⟩ := explained
      exact ⟨before, between, after ++ [event], token, now, moment, run, call, by simp, queried, presented⟩
  | resolving did continuation =>
    obtain ⟨before, after, token, now, call, rfl, queried, same, continues⟩ := explained
    exact ⟨before, after ++ [event], token, now, call, by simp, queried, same, continues⟩

theorem HistoryExplains.update (explains : HistoryExplains primitives holder resolveDid events state)
    {event : HolderEvent} (unminted : ∀ jti, lastMint (events ++ [event]) jti = lastMint events jti) {index : Nat}
    {answering : Answering}
    (explained : Explained primitives holder resolveDid (events ++ [event]) index answering) :
    HistoryExplains primitives holder resolveDid (events ++ [event])
      { state with calls := Function.update state.calls index (some answering) } where
  minted jti token held := by
    rw [unminted]
    exact explains.minted jti token held
  calls other stands found := by
    by_cases same : other = index
    · subst same
      dsimp only at found
      rw [Function.update_self] at found
      cases found
      exact explained
    · dsimp only at found
      rw [Function.update_of_ne same] at found
      exact (explains.calls other stands found).append event

theorem step_explains {event : HolderEvent} (run : HolderRun primitives holder resolveDid events state)
    (explains : HistoryExplains primitives holder resolveDid events state)
    (steps : state.step primitives holder resolveDid event = some next) :
    HistoryExplains primitives holder resolveDid (events ++ [event]) next := by
  cases event with
  -- a mint answers no call; a token it leaves in the map is the one it adds or an older one
  | mint target mintRun =>
    cases steps
    constructor
    · intro jti token found
      rw [lastMint_append]
      dsimp only
      rcases rememberIssuedCapped_some found with ⟨same, rfl⟩ | ⟨apart, held⟩
      · rw [if_pos same]
      · rw [if_neg apart]
        exact explains.minted jti token held
    · intro index answering found
      exact (explains.calls index answering found).append _
  | query index token now =>
    simp only [HolderState.step] at steps
    split at steps
    · cases steps
      refine explains.update (fun jti => lastMint_append _ _ jti) ?_
      unfold answerPresentationQuery
      split
      · trivial
      · rename_i call accepted
        obtain ⟨exp, held, valid⟩ := (acceptCall_passesOffline primitives holder accepted).held
        have queried : Queried primitives holder resolveDid events token now call :=
          ⟨⟨state, run, accepted⟩, exp, explains.minted _ _ held, valid⟩
        exact ⟨events, [], token, now, call, rfl, queried, rfl, rfl⟩
    · cases steps
  -- the answer comes after the query it belongs to, and whatever happened between the two
  | resolved index moment presentRun =>
    simp only [HolderState.step] at steps
    split at steps
    · rename_i did continuation stands
      cases steps
      refine explains.update (fun jti => lastMint_append _ _ jti) ?_
      obtain ⟨before, after, token, now, call, rfl, queried, rfl, rfl⟩ := explains.calls index _ stands
      generalize outcome : presentTo primitives holder token call (resolveDid moment call.callerDid) presentRun = reply
      cases reply with
      | error e => trivial
      | ok response =>
        exact ⟨before, after, [], token, now, moment, presentRun, call, by simp, queried, outcome⟩
    · cases steps

theorem historyExplains (run : HolderRun primitives holder resolveDid events state) :
    HistoryExplains primitives holder resolveDid events state := by
  refine run.history ⟨?_, ?_⟩ fun done reached event after before explains _ steps =>
    step_explains before explains steps
  · intro jti token held
    simp [HolderState.initial] at held
  · intro index answering found
    cases found

end

theorem HolderIdentity.new_ownDid_ne {SigningKey : Type} (ownDidHost credentialJws : String)
    (signingKey : SigningKey) : (new ownDidHost credentialJws signingKey).keyPair.ownDid ≠ "" := by
  intro empty
  have characters := congrArg String.toList empty
  simp [new, DcpKeyPair.generate] at characters

/-- What a returned presentation rests on: the query that was accepted and the caller that was resolved. -/
structure Approached {SigningKey VerifyingKey Signature : Type}
    (primitives : Primitives SigningKey VerifyingKey Signature) (holder : HolderIdentity SigningKey)
    (before : List HolderEvent) (state : HolderState) (token : String) (now : Nat) (call : AcceptedCall)
    (callerDoc : Except String DidDocument) (run : PresentRun) (response : PresentationResponseMessage) : Prop where
  /-- The nested token and the state of the issued tokens when the query came in. -/
  offline : PassesOffline primitives holder state.issued token now call
  minted : ∃ mintRun, .mint call.callerDid mintRun ∈ before ∧ mintRun.accessJti = call.nonce ∧
    lastMint before call.nonce = some ⟨call.callerDid, mintRun.now + 300⟩ ∧ now < mintRun.now + 300
  signed : ∃ document key, callerDoc = .ok document ∧ findVerifyingKey primitives document call.kid = .ok key ∧
    SignedBy primitives token key
  audience : readString call.payload "aud" = some holder.keyPair.ownDid
  valid : ∃ exp, (call.payload.get? "exp").bind Json.asU64? = some exp ∧ run.checkedAt < exp
  presented : ∃ presentation, response.presentation =
      [signJws primitives presentation holder.keyPair.signingKey holder.keyPair.ownKeyId] ∧
    readString presentation "aud" = some call.callerDid ∧ readString presentation "nonce" = some call.nonce

section

variable {SigningKey VerifyingKey Signature : Type} {primitives : Primitives SigningKey VerifyingKey Signature}
  {holder : HolderIdentity SigningKey} {resolveDid : Nat → String → Except String DidDocument} {token : String}
  {call : AcceptedCall} {callerDoc : Except String DidDocument} {run : PresentRun}
  {response : PresentationResponseMessage}

theorem PassesResolved.audience_stated (passes : PassesResolved primitives holder token call callerDoc run response)
    (named : holder.keyPair.ownDid ≠ "") : readString call.payload "aud" = some holder.keyPair.ownDid := by
  rcases Option.getD_eq_iff.mp passes.audience with stated | ⟨_, empty⟩
  · exact stated
  · exact absurd empty.symm named

theorem PassesResolved.exp_stated (passes : PassesResolved primitives holder token call callerDoc run response) :
    ∃ exp, (call.payload.get? "exp").bind Json.asU64? = some exp ∧ run.checkedAt < exp := by
  have valid := passes.valid
  cases stated : (call.payload.get? "exp").bind Json.asU64? with
  | some exp =>
    rw [stated] at valid
    exact ⟨exp, rfl, valid⟩
  | none =>
    rw [stated] at valid
    exact absurd valid (Nat.not_lt_zero _)

theorem Queried.approached {before : List HolderEvent} {now : Nat}
    (queried : Queried primitives holder resolveDid before token now call)
    (presented : presentTo primitives holder token call callerDoc run = .ok response)
    (named : holder.keyPair.ownDid ≠ "") :
    ∃ state, HolderRun primitives holder resolveDid before state ∧
      Approached primitives holder before state token now call callerDoc run response := by
  obtain ⟨⟨state, earlier, accepted⟩, exp, minted, unexpired⟩ := queried
  have resolved := presentTo_passesResolved _ _ presented
  obtain ⟨mintRun, member, same, bound⟩ := exists_mint_of_lastMint minted
  dsimp only at bound
  subst bound
  exact ⟨state, earlier, {
    offline := acceptCall_passesOffline _ _ accepted
    minted := ⟨mintRun, member, same, minted, unexpired⟩
    signed := resolved.signed
    audience := resolved.audience_stated named
    valid := resolved.exp_stated
    presented := ⟨_, resolved.response, rfl, rfl⟩ }⟩

end

/-- In every history of mints and callbacks, with whatever tokens and at whatever times: a presentation goes to a
caller a token was minted for, is bound to both, and nobody's DID is resolved before the offline checks passed. -/
theorem presentation_only_for_approached {SigningKey VerifyingKey Signature : Type}
    (primitives : Primitives SigningKey VerifyingKey Signature) (ownDidHost credentialJws : String)
    (signingKey : SigningKey) (resolveDid : Nat → String → Except String DidDocument)
    {events : List HolderEvent} {last : HolderState}
    (run : HolderRun primitives (.new ownDidHost credentialJws signingKey) resolveDid events last) :
    (∀ index response, last.calls index = some (.replied (.ok response)) →
      ∃ before between after token now moment presentRun state call,
        events = before ++ .query index token now :: (between ++ .resolved index moment presentRun :: after) ∧
        HolderRun primitives (.new ownDidHost credentialJws signingKey) resolveDid before state ∧
        Approached primitives (.new ownDidHost credentialJws signingKey) before state token now call
          (resolveDid moment call.callerDid) presentRun response) ∧
    ∀ index did next, last.calls index = some (.resolving did next) →
      ∃ before after token now state call,
        events = before ++ .query index token now :: after ∧
        HolderRun primitives (.new ownDidHost credentialJws signingKey) resolveDid before state ∧
        PassesOffline primitives (.new ownDidHost credentialJws signingKey) state.issued token now call ∧
        did = call.callerDid := by
  -- the history explains every state a call is in, so the events are read off that state
  have explains := historyExplains run
  constructor
  · intro index response answered
    obtain ⟨before, between, after, token, now, moment, presentRun, call, rfl, queried, presented⟩ :=
      explains.calls index _ answered
    obtain ⟨state, earlier, approached⟩ := queried.approached presented
      (HolderIdentity.new_ownDid_ne ownDidHost credentialJws signingKey)
    exact ⟨before, between, after, token, now, moment, presentRun, state, call, rfl, earlier, approached⟩
  · intro index did next waiting
    obtain ⟨before, after, token, now, call, rfl, queried, same, _⟩ := explains.calls index _ waiting
    obtain ⟨state, earlier, accepted⟩ := queried.accepted
    exact ⟨before, after, token, now, state, call, rfl, earlier, acceptCall_passesOffline _ _ accepted, same⟩

-- Base64 is the real one. The parser knows the texts that are exchanged, and a checksum stands in for the signature.
def exchangeSign (key : UInt8) (text : String) : List UInt8 :=
  List.replicate 64 (text.toUTF8.data.toList.foldl (· + ·) key)

def exchangePrimitives (texts : List Json) : Primitives UInt8 UInt8 (List UInt8) where
  b64Decode text := okOr (Base64Url.decode text) "Invalid symbol"
  b64Encode := Base64Url.encode
  fromSlice bytes := okOr (texts.find? fun value => value.text.toUTF8.data.toList = bytes) "expected value"
  signatureFromSlice bytes := if bytes.length = 64 then .ok bytes else .error "signature error"
  verify key text signature := if signature = exchangeSign key text then .ok () else .error "signature error"
  sign := exchangeSign
  verifyingKey key := key
  publicKey x _ := x.head?
  debugText := Json.quote

theorem exchangePrimitives_lawful (texts : List Json) : (exchangePrimitives texts).Lawful where
  decode_encode bytes := by simp only [exchangePrimitives, Base64Url.decode_encode, okOr]
  encode_free := Base64Url.dot_not_mem_encode
  verify_sign key text := by
    refine ⟨exchangeSign key text, ?_, ?_⟩
    · simp only [exchangePrimitives, exchangeSign, List.length_replicate, if_true]
    · simp only [exchangePrimitives, if_true]

theorem exchangePrimitives_parses {texts : List Json}
    (distinct : texts.Pairwise fun first second => first.text ≠ second.text) :
    ∀ value ∈ texts, (exchangePrimitives texts).Parses value := by
  intro value member
  have found : texts.find? (fun other => other.text.toUTF8.data.toList = value.text.toUTF8.data.toList) =
      some value := by
    induction distinct with
    | nil => cases member
    | cons apart rest ih =>
      cases member with
      | head => exact List.find?_cons_of_pos (decide_eq_true rfl)
      | tail _ member =>
        rw [List.find?_cons, decide_eq_false]
        · exact ih member
        · intro same
          exact apart value member (String.toByteArray_inj.mp (ByteArray.ext (Array.toList_inj.mp same)))
  unfold Primitives.Parses exchangePrimitives
  dsimp only
  rw [found]
  rfl

def exchangeHolder : HolderIdentity UInt8 := .new "holder.example" "credential" 3

def exchangeMint : MintRun := ⟨1000, 1000, "access", "outer", .asListed⟩

def exchangeKid : String := "did:web:provider.example#key"

def exchangePayload : Json :=
  .object [("aud", .string exchangeHolder.keyPair.ownDid), ("exp", .ofNat 2000),
    ("iss", .string "did:web:provider.example"),
    ("token", .string (signJws (exchangePrimitives []) (accessTokenPayload exchangeHolder exchangeMint)
      exchangeHolder.keyPair.signingKey exchangeHolder.keyPair.ownKeyId))]

def exchangeTexts : List Json :=
  [jwsHeader exchangeKid, exchangePayload, jwsHeader exchangeHolder.keyPair.ownKeyId,
    accessTokenPayload exchangeHolder exchangeMint]

theorem exchangeTexts_distinct : exchangeTexts.Pairwise fun first second => first.text ≠ second.text := by
  decide +kernel

def exchangeCoordinate : String := Base64Url.encode (List.replicate 32 5)

def exchangeDocument : DidDocument := ⟨[⟨exchangeKid, some ⟨exchangeCoordinate, exchangeCoordinate⟩⟩]⟩

theorem exchangeDocument_key (texts : List Json) :
    findVerifyingKey (exchangePrimitives texts) exchangeDocument exchangeKid = .ok 5 := by
  have coordinate : b64Decode (exchangePrimitives texts) exchangeCoordinate = .ok (List.replicate 32 5) :=
    b64Decode_encode (exchangePrimitives_lawful texts) _
  simp only [findVerifyingKey, exchangeDocument, decide_true, List.find?_cons_of_pos, okOr, bind, Except.bind,
    jwkToVerifyingKey, coordinate]
  rfl

/-- One token is minted, its provider calls back with it, and the caller is resolved. -/
def exchangeEvents : List HolderEvent :=
  [.mint "did:web:provider.example" exchangeMint,
    .query 0 (signJws (exchangePrimitives exchangeTexts) exchangePayload 5 exchangeKid) 1010,
    .resolved 0 0 ⟨1011, 1011, "presentation"⟩]

theorem exchange_approached : ∃ last response,
    HolderRun (exchangePrimitives exchangeTexts) exchangeHolder (fun _ _ => .ok exchangeDocument) exchangeEvents last ∧
    last.calls 0 = some (.replied (.ok response)) ∧
    ∃ before between after token now moment presentRun state call,
      exchangeEvents = before ++ .query 0 token now :: (between ++ .resolved 0 moment presentRun :: after) ∧
      HolderRun (exchangePrimitives exchangeTexts) exchangeHolder (fun _ _ => .ok exchangeDocument) before state ∧
      Approached (exchangePrimitives exchangeTexts) exchangeHolder before state token now call
        (.ok exchangeDocument) presentRun response := by
  have wraps : Wraps (exchangePrimitives exchangeTexts) exchangeHolder "did:web:provider.example" exchangeKid
      exchangeMint exchangePayload := by
    constructor
    · rfl
    · rfl
    · rfl
    · exact exchangePrimitives_parses exchangeTexts_distinct
  have lawful := exchangePrimitives_lawful exchangeTexts
  have expRead : (exchangePayload.get? "exp").bind Json.asU64? = some 2000 := by decide +kernel
  obtain ⟨last, run, answered⟩ := approached_provider_answered 5 lawful wraps .initial
    (fun _ _ => .ok exchangeDocument) 0 rfl (exchangeDocument_key _) expRead ⟨1011, 1011, "presentation"⟩ (by decide)
    0 1010 (by decide) rfl
  exact ⟨last, _, run, answered,
    (presentation_only_for_approached _ "holder.example" "credential" 3 _ run).1 0 _ answered⟩

end CatalogBroker
