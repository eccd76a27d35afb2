import CatalogBroker.Crawler.Collect
import CatalogBroker.Library.Fallible

/-! Compact JWS tokens and the keys of a DID document.

Base64, JSON parsing and the signature scheme are third-party code and stay
parameters. Objects written here list their members by key.
-/

set_option autoImplicit false

namespace CatalogBroker

open Library Fallible

/-- The third-party functions tokens are built and checked with. -/
structure Primitives (SigningKey VerifyingKey Signature : Type) where
  b64Decode : String → Except String (List UInt8)
  b64Encode : List UInt8 → String
  fromSlice : List UInt8 → Except String Json
  signatureFromSlice : List UInt8 → Except String Signature
  verify : VerifyingKey → String → Signature → Except String Unit
  sign : SigningKey → String → List UInt8
  verifyingKey : SigningKey → VerifyingKey
  /-- The key at an uncompressed point, if the point lies on the curve. -/
  publicKey : List UInt8 → List UInt8 → Option VerifyingKey
  debugText : String → String

structure Jwk where
  x : String
  y : String

structure VerificationMethod where
  id : String
  publicKeyJwk : Option Jwk

structure DidDocument where
  verificationMethod : List VerificationMethod

section

variable {SigningKey VerifyingKey Signature : Type} (primitives : Primitives SigningKey VerifyingKey Signature)

def b64Decode (segment : String) : Except String (List UInt8) :=
  (primitives.b64Decode segment).mapError fun e => "invalid base64url: " ++ e

def b64EncodeText (text : String) : String := primitives.b64Encode text.toUTF8.data.toList

def decodeSegment (segment : String) : Except String Json := do
  let bytes ← b64Decode primitives segment
  primitives.fromSlice bytes

/-- The signing input, header and payload of a token, nothing verified. -/
def decodeJwsUnverified (token : String) : Except String (String × Json × Json) :=
  match Text.split token '.' with
  | [] => .error "missing JWS header"
  | [_] => .error "missing JWS payload"
  | [_, _] => .error "missing JWS signature"
  | [header, payload, _] => do
    let decodedHeader ← decodeSegment primitives header
    let decodedPayload ← decodeSegment primitives payload
    return (header ++ "." ++ payload, decodedHeader, decodedPayload)
  | _ => .error "JWS has more than 3 segments"

def verifyJwsSignature (token : String) (key : VerifyingKey) : Except String Unit :=
  match Text.split token '.' with
  | [] => .error "missing JWS header"
  | [_] => .error "missing JWS payload"
  | [_, _] => .error "missing JWS signature"
  | header :: payload :: segment :: _ => do
    let bytes ← b64Decode primitives segment
    let signature ← (primitives.signatureFromSlice bytes).mapError fun e => "malformed signature: " ++ e
    (primitives.verify key (header ++ "." ++ payload) signature).mapError fun e =>
      "signature verification failed: " ++ e

/-- The token's third segment is a signature, under the key, of its first two. -/
def SignedBy (token : String) (key : VerifyingKey) : Prop :=
  ∃ header payload segment rest bytes signature, Text.split token '.' = header :: payload :: segment :: rest ∧
    b64Decode primitives segment = .ok bytes ∧ primitives.signatureFromSlice bytes = .ok signature ∧
    primitives.verify key (header ++ "." ++ payload) signature = .ok ()

theorem signedBy_of_verifyJwsSignature {token : String} {key : VerifyingKey}
    (verified : verifyJwsSignature primitives token key = .ok ()) : SignedBy primitives token key := by
  unfold verifyJwsSignature at verified
  split at verified
  · cases verified
  · cases verified
  · cases verified
  · rename_i header payload segment rest segments
    obtain ⟨bytes, decoded, verified⟩ := bind_eq_ok.mp verified
    obtain ⟨signature, parsed, verified⟩ := bind_eq_ok.mp verified
    exact ⟨header, payload, segment, rest, bytes, signature, segments, decoded, mapError_eq_ok.mp parsed,
      mapError_eq_ok.mp verified⟩

def signJws (payload : Json) (key : SigningKey) (kid : String) : String :=
  let header := Json.object [("alg", .string "ES256"), ("kid", .string kid)]
  let signingInput := b64EncodeText primitives header.text ++ "." ++ b64EncodeText primitives payload.text
  signingInput ++ "." ++ primitives.b64Encode (primitives.sign key signingInput)

def jwkToVerifyingKey (jwk : Jwk) : Except String VerifyingKey := do
  let x ← b64Decode primitives jwk.x
  let y ← b64Decode primitives jwk.y
  if x.length ≠ 32 ∨ y.length ≠ 32 then .error "EC JWK x/y must be 32 bytes for P-256"
  else okOr (primitives.publicKey x y) "invalid EC point in JWK"

def findVerifyingKey (document : DidDocument) (kid : String) : Except String VerifyingKey := do
  let method ← okOr (document.verificationMethod.find? fun method => method.id = kid)
    ("no verification method '" ++ kid ++ "' in DID document")
  let jwk ← okOr method.publicKeyJwk ("verification method '" ++ kid ++ "' has no publicKeyJwk")
  jwkToVerifyingKey primitives jwk

/-- The documented behaviour of base64 and of the signature scheme. -/
structure Primitives.Lawful : Prop where
  decode_encode : ∀ bytes, primitives.b64Decode (primitives.b64Encode bytes) = .ok bytes
  encode_free : ∀ bytes, '.' ∉ (primitives.b64Encode bytes).toList
  verify_sign : ∀ key text, ∃ signature, primitives.signatureFromSlice (primitives.sign key text) = .ok signature ∧
    primitives.verify (primitives.verifyingKey key) text signature = .ok ()

/-- The value is read back from its compact spelling. -/
def Primitives.Parses (value : Json) : Prop := primitives.fromSlice value.text.toUTF8.data.toList = .ok value

def jwsHeader (kid : String) : Json := .object [("alg", .string "ES256"), ("kid", .string kid)]

def jwsSigningInput (payload : Json) (kid : String) : String :=
  b64EncodeText primitives (jwsHeader kid).text ++ "." ++ b64EncodeText primitives payload.text

variable {primitives} {payload : Json} {kid : String} (key : SigningKey)

theorem b64Decode_encode (lawful : primitives.Lawful) (bytes : List UInt8) :
    b64Decode primitives (primitives.b64Encode bytes) = .ok bytes := by
  rw [b64Decode, lawful.decode_encode]
  rfl

theorem decodeSegment_encode (lawful : primitives.Lawful) {value : Json} (parses : primitives.Parses value) :
    decodeSegment primitives (b64EncodeText primitives value.text) = .ok value := by
  unfold decodeSegment b64EncodeText
  rw [b64Decode_encode lawful]
  exact parses

theorem split_signJws (lawful : primitives.Lawful) : Text.split (signJws primitives payload key kid) '.' =
    [b64EncodeText primitives (jwsHeader kid).text, b64EncodeText primitives payload.text,
      primitives.b64Encode (primitives.sign key (jwsSigningInput primitives payload kid))] := by
  have shape : signJws primitives payload key kid =
      b64EncodeText primitives (jwsHeader kid).text ++ String.singleton '.' ++
        (b64EncodeText primitives payload.text ++ String.singleton '.' ++
          primitives.b64Encode (primitives.sign key (jwsSigningInput primitives payload kid))) := by
    simp only [← String.append_assoc]
    rfl
  have free (text : String) : '.' ∉ (b64EncodeText primitives text).toList := lawful.encode_free _
  rw [shape, Text.split_append (free _), Text.split_append (free _), Text.split_of_not_mem (lawful.encode_free _)]

theorem decodeJwsUnverified_signJws (lawful : primitives.Lawful) (header : primitives.Parses (jwsHeader kid))
    (parses : primitives.Parses payload) :
    decodeJwsUnverified primitives (signJws primitives payload key kid) =
      .ok (jwsSigningInput primitives payload kid, jwsHeader kid, payload) := by
  unfold decodeJwsUnverified
  rw [split_signJws key lawful]
  simp only [decodeSegment_encode lawful header, decodeSegment_encode lawful parses]
  rfl

theorem verifyJwsSignature_signJws (lawful : primitives.Lawful) :
    verifyJwsSignature primitives (signJws primitives payload key kid) (primitives.verifyingKey key) = .ok () := by
  obtain ⟨signature, read, verified⟩ := lawful.verify_sign key (jwsSigningInput primitives payload kid)
  unfold verifyJwsSignature
  rw [split_signJws key lawful]
  dsimp only
  rw [b64Decode_encode lawful, ← jwsSigningInput]
  simp only [bind, Except.bind, read, Except.mapError, verified]

end

end CatalogBroker
