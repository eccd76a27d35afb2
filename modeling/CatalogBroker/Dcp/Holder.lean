import CatalogBroker.Dcp.Jws
import CatalogBroker.Library.Transitions
import CatalogBroker.Store.AllowListCache

/-! The holder of a credential: tokens it mints for the providers it calls, and the presentations
it answers their callbacks with.

A callback reaches the network once, to resolve its caller; the calls of other parties
go on meanwhile.
-/

set_option autoImplicit false

namespace CatalogBroker

open Library Fallible Transitions

/-- A presentation-access token this holder minted: for whom, and until when (in seconds). -/
structure IssuedToken where
  providerDid : String
  exp : Nat
  deriving DecidableEq, Repr

def maxIssuedTokens : Nat := 10000

abbrev IssuedTokens := Std.ExtTreeMap String IssuedToken

structure DcpKeyPair (SigningKey : Type) where
  ownDid : String
  ownKeyId : String
  signingKey : SigningKey

def DcpKeyPair.generate {SigningKey : Type} (ownDid : String) (signingKey : SigningKey) : DcpKeyPair SigningKey :=
  ⟨ownDid, ownDid ++ "#dsp-key", signingKey⟩

structure HolderIdentity (SigningKey : Type) where
  keyPair : DcpKeyPair SigningKey
  credentialJws : String

def HolderIdentity.new {SigningKey : Type} (ownDidHost credentialJws : String) (signingKey : SigningKey) :
    HolderIdentity SigningKey :=
  let host := String.ofList (ownDidHost.toList.flatMap fun c => if c = ':' then ['%', '3', 'A'] else [c])
  ⟨DcpKeyPair.generate ("did:web:" ++ host ++ ":dsp:holder") signingKey, credentialJws⟩

def rememberIssuedCapped (issued : IssuedTokens) (cap : Nat) (jti providerDid : String) (exp now : Nat)
    (order : HashOrder IssuedToken) : IssuedTokens :=
  -- expired tokens go first; with no room left, the one that expires soonest
  let kept := issued.filter fun _ token => now < token.exp
  let room := if cap ≤ kept.size then
      match (order.visit kept.toList).argmin fun entry => entry.2.exp with
      | some oldest => kept.erase oldest.1
      | none => kept
    else kept
  room.insert jti ⟨providerDid, exp⟩

/-- The provider a still-valid token with this `jti` was minted for. -/
def issuedTo (issued : IssuedTokens) (jti : String) (now : Nat) : Option String :=
  (issued[jti]?.filter fun token => now < token.exp).map IssuedToken.providerDid

/-- The clock and the random ids one mint meets. -/
structure MintRun where
  now : Nat
  rememberedAt : Nat
  accessJti : String
  jti : String
  order : HashOrder IssuedToken

structure PresentationResponseMessage where
  presentation : List String

structure AcceptedCall where
  payload : Json
  kid : String
  callerDid : String
  nonce : String

/-- The clock once the caller is resolved, and the id of the presentation. -/
structure PresentRun where
  checkedAt : Nat
  now : Nat
  jti : String

/-- An answer, or the DID that is resolved before there can be one. -/
inductive Answering where
  | replied (reply : Except String PresentationResponseMessage)
  | resolving (did : String)
      (next : Except String DidDocument → PresentRun → Except String PresentationResponseMessage)

section

variable {SigningKey VerifyingKey Signature : Type} (primitives : Primitives SigningKey VerifyingKey Signature)
  (holder : HolderIdentity SigningKey)

def accessTokenPayload (run : MintRun) : Json :=
  .object [("aud", .string holder.keyPair.ownDid), ("exp", .ofNat (run.now + 300)), ("iat", .ofNat run.now),
    ("iss", .string holder.keyPair.ownDid), ("jti", .string run.accessJti), ("nbf", .ofNat run.now),
    ("sub", .string holder.keyPair.ownDid)]

def t1Payload (targetProviderDid accessToken : String) (run : MintRun) : Json :=
  .object [("aud", .string targetProviderDid), ("exp", .ofNat (run.now + 300)), ("iat", .ofNat run.now),
    ("iss", .string holder.keyPair.ownDid), ("jti", .string run.jti), ("nbf", .ofNat run.now),
    ("sub", .string holder.keyPair.ownDid), ("token", .string accessToken)]

def mintSelfIssuedToken (issued : IssuedTokens) (targetProviderDid : String) (run : MintRun) :
    IssuedTokens × String :=
  let issued := rememberIssuedCapped issued maxIssuedTokens run.accessJti targetProviderDid (run.now + 300)
    run.rememberedAt run.order
  let accessToken := signJws primitives (accessTokenPayload holder run) holder.keyPair.signingKey
    holder.keyPair.ownKeyId
  (issued, signJws primitives (t1Payload holder targetProviderDid accessToken run) holder.keyPair.signingKey
    holder.keyPair.ownKeyId)

/-- `answer_presentation_query` up to the resolution of the caller. -/
def acceptCall (issued : IssuedTokens) (incomingBearerToken : String) (now : Nat) : Except String AcceptedCall := do
  let (_, header, payload) ← decodeJwsUnverified primitives incomingBearerToken
  let callerDid ← okOr (readString payload "iss") "token has no iss"
  let kid ← okOr (readString header "kid") "token has no kid"
  let nested ← okOr (readString payload "token") "token has no nested presentation-access-token"
  let (_, _, nestedPayload) ← decodeJwsUnverified primitives nested
  let nonce ← okOr (readString nestedPayload "jti") "nested token has no jti"
  let issuedTo ← okOr (issuedTo issued nonce now) "nested token was not issued by this holder, or has expired"
  if issuedTo ≠ callerDid then
    .error ("caller " ++ primitives.debugText callerDid ++ " is not the provider this holder's token was issued to")
  else do
    verifyJwsSignature primitives nested (primitives.verifyingKey holder.keyPair.signingKey)
    return ⟨payload, kid, callerDid, nonce⟩

def presentationPayload (call : AcceptedCall) (run : PresentRun) : Json :=
  .object [("aud", .string call.callerDid), ("exp", .ofNat (run.now + 300)), ("iat", .ofNat run.now),
    ("iss", .string holder.keyPair.ownDid), ("jti", .string run.jti), ("nonce", .string call.nonce),
    ("sub", .string holder.keyPair.ownDid),
    ("vp", .object [("@context", .array [.string "https://www.w3.org/2018/credentials/v1"]),
      ("type", .array [.string "VerifiablePresentation"]),
      ("verifiableCredential", .array [.string holder.credentialJws])])]

/-- `answer_presentation_query` from there on. -/
def presentTo (incomingBearerToken : String) (call : AcceptedCall) (callerDoc : Except String DidDocument)
    (run : PresentRun) : Except String PresentationResponseMessage := do
  let callerDoc ← callerDoc
  let callerKey ← findVerifyingKey primitives callerDoc call.kid
  verifyJwsSignature primitives incomingBearerToken callerKey
  let aud := (readString call.payload "aud").getD ""
  if aud ≠ holder.keyPair.ownDid then
    .error ("token audience " ++ primitives.debugText aud ++ " does not match this holder's DID '" ++
      holder.keyPair.ownDid ++ "'")
  else
    let exp := ((call.payload.get? "exp").bind Json.asU64?).getD 0
    if exp ≤ run.checkedAt then .error "token has expired"
    else return ⟨[signJws primitives (presentationPayload holder call run) holder.keyPair.signingKey
      holder.keyPair.ownKeyId]⟩

def answerPresentationQuery (issued : IssuedTokens) (incomingBearerToken : String) (now : Nat) : Answering :=
  match acceptCall primitives holder issued incomingBearerToken now with
  | .error e => .replied (.error e)
  | .ok call => .resolving call.callerDid (presentTo primitives holder incomingBearerToken call)

/-- The tokens issued so far, and where each callback stands. -/
structure HolderState where
  issued : IssuedTokens
  calls : Nat → Option Answering

inductive HolderEvent where
  | mint (targetProviderDid : String) (run : MintRun)
  | query (index : Nat) (token : String) (now : Nat)
  | resolved (index moment : Nat) (run : PresentRun)

def HolderState.initial : HolderState := ⟨∅, fun _ => none⟩

/-- `resolveDid` is what resolving a DID gives at a moment. -/
def HolderState.step (resolveDid : Nat → String → Except String DidDocument) (state : HolderState) :
    HolderEvent → Option HolderState
  | .mint target run => some { state with issued := (mintSelfIssuedToken primitives holder state.issued target run).1 }
  | .query index token now => match state.calls index with
    | none => some { state with
        calls := Function.update state.calls index
          (some (answerPresentationQuery primitives holder state.issued token now)) }
    | some _ => none
  | .resolved index moment run => match state.calls index with
    | some (.resolving did next) => some { state with
        calls := Function.update state.calls index (some (.replied (next (resolveDid moment did) run))) }
    | _ => none

end

end CatalogBroker
