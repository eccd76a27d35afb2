import CatalogBroker.Broker.PolicyFilter
import CatalogBroker.Config.Loading
import CatalogBroker.Crawler.CredentialFlow
import CatalogBroker.Library.Maps

/-! The OAuth2 bearer gate: keys fetched once, and each request's token checked against them.

Parsing and checking a JWT is third-party code; what it is documented to check is stated
as a law.
-/

set_option autoImplicit false

namespace CatalogBroker

open Library Fallible Redirects

/-! ## Keys and tokens -/

/-- The algorithms this verifier knows, and every other one. -/
inductive JwtAlgorithm where
  | rs256
  | es256
  | es384
  | other (name : String)
  deriving DecidableEq, Repr

inductive EllipticCurve where
  | p256
  | p384
  | other (name : String)
  deriving DecidableEq, Repr

inductive AlgorithmParameters where
  | rsa
  | ellipticCurve (curve : EllipticCurve)
  | octetKey
  | octetKeyPair
  deriving DecidableEq, Repr

structure JwksEntry (Material : Type) where
  keyId : Option String
  keyAlgorithm : Option JwtAlgorithm
  algorithm : AlgorithmParameters
  material : Material

structure JwtHeader where
  alg : JwtAlgorithm
  kid : Option String

structure Validation where
  algorithms : List JwtAlgorithm
  requiredSpecClaims : List String := ["exp"]
  leeway : Nat := 60
  validateExp : Bool := true
  validateNbf : Bool := false
  validateAud : Bool := true
  iss : Option (List String) := none
  aud : Option (List String) := none

def Validation.new (algorithm : JwtAlgorithm) : Validation := { algorithms := [algorithm] }

structure JwtLibrary (Material DecodingKey : Type) where
  jwkSet : List UInt8 → Except String (List (JwksEntry Material))
  fromJwk : JwksEntry Material → Except String DecodingKey
  decodeHeader : String → Except String JwtHeader
  decode : Nat → String → DecodingKey → Validation → Except String Json

/-- The texts of a claim that is a text or an array of texts. -/
def claimTexts (claims : Json) (name : String) : Option (List String) :=
  match claims.get? name with
  | some (.string text) => some [text]
  | some (.array items) => items.mapM Json.asStr?
  | _ => none

structure OAuth2Config where
  jwksUri : String
  issuer : Option String
  audience : Option String
  requiredScope : Option String

inductive JwksError where
  | fetch (uri source : String)
  | parse (uri source : String)
  | insecureUri (uri : String)
  | invalidUri (uri : String)
  | tooLarge (uri : String) (limit : Nat)
  | noUsableKeys (uri : String)

inductive VerifyError where
  | unknownKid
  | invalidToken (reason : String)
  | insufficientScope (scope : String)
  deriving DecidableEq, Repr

/-- A key, and the algorithm its own JWK gives it. -/
structure VerificationKey (DecodingKey : Type) where
  decodingKey : DecodingKey
  algorithm : JwtAlgorithm

structure OAuth2Verifier (DecodingKey : Type) where
  config : OAuth2Config
  keys : Std.ExtTreeMap String (VerificationKey DecodingKey)

def maxJwksBytes : Nat := 1024 * 1024

/-- The algorithm of a JWK: its own, if it is a known one, or the one of its key type. -/
def determineAlgorithm {Material : Type} (jwk : JwksEntry Material) : Option JwtAlgorithm :=
  match jwk.keyAlgorithm with
  | some .rs256 => some .rs256
  | some .es256 => some .es256
  | some .es384 => some .es384
  | some (.other _) => none
  | none => match jwk.algorithm with
    | .rsa => some .rs256
    | .ellipticCurve .p256 => some .es256
    | .ellipticCurve .p384 => some .es384
    | _ => none

def splitWhitespace (text : String) : List String :=
  ((text.toList.splitOnP Text.isWhiteSpace).filter fun word => !word.isEmpty).map String.ofList

section

variable {Material DecodingKey : Type} (jwt : JwtLibrary Material DecodingKey)

/-- The key an entry of the JWKS is used as; entries of no use are skipped. -/
def admitJwk (jwk : JwksEntry Material) : Option (String × VerificationKey DecodingKey) := do
  let kid ← jwk.keyId
  if jwk.algorithm = .octetKey then none
  else do
    let algorithm ← determineAlgorithm jwk
    let decodingKey ← (jwt.fromJwk jwk).toOption
    return (kid, ⟨decodingKey, algorithm⟩)

namespace OAuth2Verifier

def keysOf (entries : List (JwksEntry Material)) : Std.ExtTreeMap String (VerificationKey DecodingKey) :=
  (entries.filterMap (admitJwk jwt)).foldl (fun keys entry => keys.insert entry.1 entry.2) ∅

def fetch (text : HttpText) (loaders : Loaders) (network : List HttpRequest → HttpReply) (config : OAuth2Config) :
    Exchanged (Except JwksError (OAuth2Verifier DecodingKey)) :=
  let uri := config.jwksUri
  match text.parse uri with
  | none => ([], .error (.invalidUri uri))
  | some url =>
    if remoteAllowed text.config url.toUrl = false then ([], .error (.insecureUri uri))
    else
      let (hops, answer) := HttpClient.send text (outboundClient text) network [] { method := .get, url }
      (hops, do
        let response ← answer.mapError (.fetch uri)
        -- `error_for_status` refuses 4xx and 5xx alone
        if response.isError then .error (.fetch uri (loaders.statusError response.status))
        else do
          let bytes ← (readBodyLimited response maxJwksBytes).mapError fun
            | .transport source => .fetch uri source
            | .tooLarge limit => .tooLarge uri limit
          let entries ← (jwt.jwkSet bytes).mapError (.parse uri)
          let keys := keysOf jwt entries
          if keys.isEmpty then .error (.noUsableKeys uri) else return ⟨config, keys⟩)

def validation (config : OAuth2Config) (algorithm : JwtAlgorithm) : Validation :=
  let base := { Validation.new algorithm with validateNbf := true }
  let issued := match config.issuer with
    | some issuer => { base with iss := some [issuer], requiredSpecClaims := "iss" :: base.requiredSpecClaims }
    | none => base
  match config.audience with
  | some audience => { issued with aud := some [audience], requiredSpecClaims := "aud" :: issued.requiredSpecClaims }
  | none => { issued with validateAud := false }

def hasScope (claims : Json) (required : String) : Bool :=
  (((claims.get? "scope").bind Json.asStr?).map fun scopes => (splitWhitespace scopes).any (· = required)).getD false

def checkScope (config : OAuth2Config) (claims : Json) : Except VerifyError Json :=
  match config.requiredScope with
  | some scope => if hasScope claims scope then .ok claims else .error (.insufficientScope scope)
  | none => .ok claims

variable (verifier : OAuth2Verifier DecodingKey)

def verify (now : Nat) (token : String) : Except VerifyError Json := do
  let header ← (jwt.decodeHeader token).mapError .invalidToken
  let kid ← okOr header.kid .unknownKid
  let key ← okOr verifier.keys[kid]? .unknownKid
  let claims ← (jwt.decode now token key.decodingKey (validation verifier.config key.algorithm)).mapError .invalidToken
  checkScope verifier.config claims

end OAuth2Verifier

/-! ## The gate -/

inductive ResponseBody where
  | text (value : String)
  | error (message : String)
  | document (contentType : String) (bytes : List UInt8)

structure RouteResponse where
  status : Nat
  headers : List (String × String) := []
  body : ResponseBody

def internalError (message : String) : RouteResponse := { status := 500, body := .error message }

def unauthorizedBearerResponse : RouteResponse where
  status := 401
  headers := [("www-authenticate", "Bearer")]
  body := .error "missing or invalid bearer token"

/-- The request headers a route reads, where they are texts. -/
structure RequestHeaders where
  authorization : Option String
  accept : Option String

def bearerToken (headers : RequestHeaders) : Option String := do
  let value ← headers.authorization
  let (scheme, token) ← Text.splitOnce value ' '
  if scheme.toList.map Char.toLower ≠ "bearer".toList then none
  else
    let token := Text.trimmed token
    if token = "" then none else some token

def checkOauth2Bearer (oauth2 : Option (OAuth2Verifier DecodingKey)) (now : Nat) (headers : RequestHeaders) :
    Except RouteResponse (Option Json) :=
  match oauth2 with
  | none => .ok none
  | some verifier => match bearerToken headers with
    | none => .error unauthorizedBearerResponse
    | some token => match verifier.verify jwt now token with
      | .ok claims => .ok (some claims)
      | .error (.insufficientScope scope) =>
        .error { status := 403, body := .error ("token is missing required scope '" ++ scope ++ "'") }
      | .error _ => .error unauthorizedBearerResponse

/-- What the routes share: the gate, and whether callers are filtered where there is none. -/
structure GateState (Material DecodingKey : Type) where
  jwt : JwtLibrary Material DecodingKey
  oauth2 : Option (OAuth2Verifier DecodingKey)
  filterWhenOauth2Disabled : Bool

def GateState.shouldFilterByPolicy (state : GateState Material DecodingKey) : Bool :=
  state.oauth2.isSome || state.filterWhenOauth2Disabled

/-! ## What the library is documented to check -/

/-- What tokens are: how they are signed, what they say, and how a claim gives a time. -/
structure JwtMeaning (DecodingKey : Type) where
  signed : DecodingKey → JwtAlgorithm → String → Prop
  payload : String → Option Json
  numericDate : Json → Option Nat

def JwtMeaning.date (meaning : JwtMeaning DecodingKey) (claims : Json) (name : String) : Option Nat :=
  (claims.get? name).bind meaning.numericDate

/-- A required claim is there, and is of its type. -/
def JwtMeaning.Present (meaning : JwtMeaning DecodingKey) (claims : Json) (name : String) : Prop :=
  match name with
  | "exp" | "nbf" => (meaning.date claims name).isSome
  | "iss" | "aud" => (claimTexts claims name).isSome
  | _ => True

/-- An issuer and an audience are compared only where the token has them. -/
structure Validation.Accepts (validation : Validation) (meaning : JwtMeaning DecodingKey) (now : Nat)
    (claims : Json) : Prop where
  required : ∀ name ∈ validation.requiredSpecClaims, meaning.Present claims name
  exp : validation.validateExp = true → ∀ exp ∈ meaning.date claims "exp", now ≤ exp + validation.leeway
  nbf : validation.validateNbf = true → ∀ nbf ∈ meaning.date claims "nbf", nbf ≤ now + validation.leeway
  iss : ∀ expected ∈ validation.iss, ∀ names ∈ claimTexts claims "iss", ∃ name ∈ names, name ∈ expected
  aud : validation.validateAud = true → ∀ names ∈ claimTexts claims "aud",
    ∃ expected ∈ validation.aud, ∃ name ∈ names, name ∈ expected

instance (meaning : JwtMeaning DecodingKey) (claims : Json) (name : String) :
    Decidable (meaning.Present claims name) := by
  unfold JwtMeaning.Present
  split <;> infer_instance

instance (validation : Validation) (meaning : JwtMeaning DecodingKey) (now : Nat) (claims : Json) :
    Decidable (validation.Accepts meaning now claims) :=
  decidable_of_iff
    ((∀ name ∈ validation.requiredSpecClaims, meaning.Present claims name) ∧
      (validation.validateExp = true → ∀ exp ∈ meaning.date claims "exp", now ≤ exp + validation.leeway) ∧
      (validation.validateNbf = true → ∀ nbf ∈ meaning.date claims "nbf", nbf ≤ now + validation.leeway) ∧
      (∀ expected ∈ validation.iss, ∀ names ∈ claimTexts claims "iss", ∃ name ∈ names, name ∈ expected) ∧
      (validation.validateAud = true → ∀ names ∈ claimTexts claims "aud",
        ∃ expected ∈ validation.aud, ∃ name ∈ names, name ∈ expected))
    ⟨fun ⟨required, exp, nbf, iss, aud⟩ => ⟨required, exp, nbf, iss, aud⟩,
      fun accepts => ⟨accepts.required, accepts.exp, accepts.nbf, accepts.iss, accepts.aud⟩⟩

structure JwtLibrary.Lawful (meaning : JwtMeaning DecodingKey) : Prop where
  decode_iff : ∀ now token key validation claims, jwt.decode now token key validation = .ok claims ↔
    (∃ header, jwt.decodeHeader token = .ok header ∧ header.alg ∈ validation.algorithms ∧
      meaning.signed key header.alg token) ∧
    meaning.payload token = some claims ∧ validation.Accepts meaning now claims

/-! ## What the gate lets through -/

/-- The entry of a JWKS whose key a `kid` stands for: the last one that can be used. -/
def LastUsable (entries : List (JwksEntry Material)) (kid : String) (jwk : JwksEntry Material)
    (key : VerificationKey DecodingKey) : Prop :=
  admitJwk jwt jwk = some (kid, key) ∧ ∃ before after, entries = before ++ jwk :: after ∧
    ∀ later ∈ after, ∀ admitted ∈ admitJwk jwt later, admitted.1 ≠ kid

/-- A token signed with the key its `kid` stands for, by that key's own algorithm, in time, and from the issuer and for
the audience the config names. -/
structure Authentic (meaning : JwtMeaning DecodingKey) (config : OAuth2Config) (now : Nat) (token : String)
    (kid : String) (key : VerificationKey DecodingKey) (claims : Json) : Prop where
  header : jwt.decodeHeader token = .ok ⟨key.algorithm, some kid⟩
  signed : meaning.signed key.decodingKey key.algorithm token
  payload : meaning.payload token = some claims
  exp : ∃ exp, meaning.date claims "exp" = some exp ∧ now ≤ exp + 60
  nbf : ∀ nbf, meaning.date claims "nbf" = some nbf → nbf ≤ now + 60
  issuer : ∀ issuer, config.issuer = some issuer → ∃ names, claimTexts claims "iss" = some names ∧ issuer ∈ names
  audience : ∀ audience, config.audience = some audience →
    ∃ names, claimTexts claims "aud" = some names ∧ audience ∈ names

variable {jwt} {meaning : JwtMeaning DecodingKey} {entries : List (JwksEntry Material)} {kid : String}
  {key : VerificationKey DecodingKey}

theorem getElem?_keysOf : (OAuth2Verifier.keysOf jwt entries)[kid]? = some key ↔
    ∃ jwk, LastUsable jwt entries kid jwk key := by
  unfold OAuth2Verifier.keysOf
  constructor
  · intro found
    rcases Maps.foldl_insert_some found with ⟨before, after, same, last⟩ | absent
    · obtain ⟨first, rest, rfl, _, kept⟩ := List.filterMap_eq_append_iff.mp same
      obtain ⟨skipped, jwk, others, rfl, none, admitted, kept⟩ := List.filterMap_eq_cons_iff.mp kept
      refine ⟨jwk, admitted, first ++ skipped, others, by rw [List.append_assoc], ?_⟩
      intro later member found usable
      exact last found (by rw [← kept]; exact List.mem_filterMap.mpr ⟨later, member, usable⟩)
    · cases Std.ExtTreeMap.getElem?_empty.symm.trans absent
  · rintro ⟨jwk, admitted, before, after, rfl, last⟩
    rw [List.filterMap_append, List.filterMap_cons_some admitted]
    apply Maps.foldl_insert_last
    intro entry member
    obtain ⟨later, listed, usable⟩ := List.mem_filterMap.mp member
    exact last later listed entry usable

theorem validation_eq (config : OAuth2Config) (algorithm : JwtAlgorithm) :
    let validation := OAuth2Verifier.validation config algorithm
    validation.algorithms = [algorithm] ∧ validation.leeway = 60 ∧ validation.validateExp = true ∧
      validation.validateNbf = true ∧ validation.validateAud = config.audience.isSome ∧
      validation.iss = config.issuer.map ([·]) ∧ validation.aud = config.audience.map ([·]) ∧
      ∀ name, name ∈ validation.requiredSpecClaims ↔
        name = "exp" ∨ (name = "iss" ∧ config.issuer.isSome = true) ∨
          (name = "aud" ∧ config.audience.isSome = true) := by
  unfold OAuth2Verifier.validation Validation.new
  cases config.issuer with
  | none =>
    cases config.audience with
    | none => simp
    | some audience =>
      simp
      tauto
  | some issuer =>
    cases config.audience with
    | none =>
      simp
      tauto
    | some audience =>
      simp
      tauto

theorem validation_accepts (config : OAuth2Config) (algorithm : JwtAlgorithm) (now : Nat) (claims : Json) :
    (OAuth2Verifier.validation config algorithm).Accepts meaning now claims ↔
      (∃ exp, meaning.date claims "exp" = some exp ∧ now ≤ exp + 60) ∧
      (∀ nbf, meaning.date claims "nbf" = some nbf → nbf ≤ now + 60) ∧
      (∀ issuer, config.issuer = some issuer → ∃ names, claimTexts claims "iss" = some names ∧ issuer ∈ names) ∧
      ∀ audience, config.audience = some audience →
        ∃ names, claimTexts claims "aud" = some names ∧ audience ∈ names := by
  obtain ⟨_, leeway, validatesExp, validatesNbf, validatesAud, iss, aud, required⟩ := validation_eq config algorithm
  constructor
  · intro accepts
    refine ⟨?_, ?_, ?_, ?_⟩
    -- `required_spec_claims` is what makes a missing `exp`, `iss` or `aud` fail
    · obtain ⟨exp, dated⟩ := Option.isSome_iff_exists.mp (accepts.required "exp" ((required _).mpr (.inl rfl)))
      have valid := accepts.exp validatesExp exp dated
      rw [leeway] at valid
      exact ⟨exp, dated, valid⟩
    · intro nbf dated
      have valid := accepts.nbf validatesNbf nbf dated
      rwa [leeway] at valid
    · intro issuer configured
      have present := accepts.required "iss" ((required _).mpr (.inr (.inl ⟨rfl, by rw [configured]; rfl⟩)))
      obtain ⟨names, named⟩ := Option.isSome_iff_exists.mp present
      obtain ⟨name, listed, expected⟩ := accepts.iss [issuer] (by rw [iss, configured]; rfl) names named
      obtain rfl := List.mem_singleton.mp expected
      exact ⟨names, named, listed⟩
    · intro audience configured
      have present := accepts.required "aud" ((required _).mpr (.inr (.inr ⟨rfl, by rw [configured]; rfl⟩)))
      obtain ⟨names, named⟩ := Option.isSome_iff_exists.mp present
      obtain ⟨expected, found, name, listed, member⟩ :=
        accepts.aud (by rw [validatesAud, configured]; rfl) names named
      rw [aud, configured] at found
      cases found
      obtain rfl := List.mem_singleton.mp member
      exact ⟨names, named, listed⟩
  · rintro ⟨⟨exp, dated, valid⟩, early, issued, addressed⟩
    refine ⟨?_, ?_, ?_, ?_, ?_⟩
    · intro name member
      -- the only required claims are those the other checks find
      rcases (required name).mp member with rfl | ⟨rfl, configured⟩ | ⟨rfl, configured⟩
      · exact Option.isSome_iff_exists.mpr ⟨exp, dated⟩
      · obtain ⟨issuer, configured⟩ := Option.isSome_iff_exists.mp configured
        obtain ⟨names, named, _⟩ := issued issuer configured
        exact Option.isSome_iff_exists.mpr ⟨names, named⟩
      · obtain ⟨audience, configured⟩ := Option.isSome_iff_exists.mp configured
        obtain ⟨names, named, _⟩ := addressed audience configured
        exact Option.isSome_iff_exists.mpr ⟨names, named⟩
    · intro _ other same
      rw [leeway]
      cases dated.symm.trans same
      exact valid
    · intro _ nbf dated
      rw [leeway]
      exact early nbf dated
    · intro expected set names named
      rw [iss] at set
      obtain ⟨issuer, configured, rfl⟩ := Option.map_eq_some_iff.mp set
      obtain ⟨found, same, listed⟩ := issued issuer configured
      cases same.symm.trans named
      exact ⟨issuer, listed, List.mem_singleton_self issuer⟩
    · intro validates names named
      rw [validatesAud] at validates
      obtain ⟨audience, configured⟩ := Option.isSome_iff_exists.mp validates
      obtain ⟨found, same, listed⟩ := addressed audience configured
      cases same.symm.trans named
      exact ⟨[audience], by rw [aud, configured]; rfl, audience, listed, List.mem_singleton_self audience⟩

/-- Up to the scope, a token is accepted exactly when it is authentic. -/
theorem decode_ok_iff (lawful : jwt.Lawful meaning) (config : OAuth2Config) (now : Nat) (token : String)
    {header : JwtHeader} (decoded : jwt.decodeHeader token = .ok header) (named : header.kid = some kid)
    (claims : Json) :
    jwt.decode now token key.decodingKey (OAuth2Verifier.validation config key.algorithm) = .ok claims ↔
      Authentic jwt meaning config now token kid key claims := by
  have algorithms := (validation_eq config key.algorithm).1
  rw [lawful.decode_iff, validation_accepts, algorithms]
  constructor
  · rintro ⟨⟨found, same, pinned, signed⟩, payload, exp, nbf, issuer, audience⟩
    cases decoded.symm.trans same
    rw [List.mem_singleton] at pinned
    refine ⟨?_, pinned ▸ signed, payload, exp, nbf, issuer, audience⟩
    rw [decoded, ← pinned, ← named]
  · intro authentic
    exact ⟨⟨_, authentic.header, List.mem_singleton_self _, authentic.signed⟩, authentic.payload, authentic.exp,
      authentic.nbf, authentic.issuer, authentic.audience⟩

/-- A token whose key the JWKS holds and whose claims the config accepts, its scope aside. -/
def Recognised (jwt : JwtLibrary Material DecodingKey) (meaning : JwtMeaning DecodingKey)
    (entries : List (JwksEntry Material)) (config : OAuth2Config) (now : Nat) (token : String) (claims : Json) : Prop :=
  ∃ kid jwk key, LastUsable jwt entries kid jwk key ∧ Authentic jwt meaning config now token kid key claims

theorem verify_of_recognised (lawful : jwt.Lawful meaning) {config : OAuth2Config} {now : Nat} {token : String}
    {claims : Json} (recognised : Recognised jwt meaning entries config now token claims) :
    OAuth2Verifier.verify jwt ⟨config, OAuth2Verifier.keysOf jwt entries⟩ now token =
      OAuth2Verifier.checkScope config claims := by
  obtain ⟨kid, jwk, key, usable, authentic⟩ := recognised
  have decodes := (decode_ok_iff lawful config now token authentic.header rfl claims).mpr authentic
  unfold OAuth2Verifier.verify
  simp only [authentic.header, Except.mapError, bind, Except.bind, okOr, getElem?_keysOf.mpr ⟨jwk, usable⟩, decodes]

theorem verify_of_not_recognised (lawful : jwt.Lawful meaning) {config : OAuth2Config} {now : Nat} {token : String}
    (unrecognised : ∀ claims, ¬Recognised jwt meaning entries config now token claims) :
    OAuth2Verifier.verify jwt ⟨config, OAuth2Verifier.keysOf jwt entries⟩ now token = .error .unknownKid ∨
      ∃ reason, OAuth2Verifier.verify jwt ⟨config, OAuth2Verifier.keysOf jwt entries⟩ now token =
        .error (.invalidToken reason) := by
  unfold OAuth2Verifier.verify
  cases decoded : jwt.decodeHeader token with
  | error reason => exact .inr ⟨reason, rfl⟩
  | ok header =>
    simp only [Except.mapError, bind, Except.bind]
    cases named : header.kid with
    | none => exact .inl rfl
    | some kid =>
      simp only [okOr]
      cases found : (OAuth2Verifier.keysOf jwt entries)[kid]? with
      | none => exact .inl rfl
      | some key =>
        dsimp only
        cases decodes : jwt.decode now token key.decodingKey (OAuth2Verifier.validation config key.algorithm) with
        | error reason => exact .inr ⟨reason, rfl⟩
        | ok claims =>
          obtain ⟨jwk, usable⟩ := getElem?_keysOf.mp found
          have authentic := (decode_ok_iff lawful config now token decoded named claims).mp decodes
          exact absurd ⟨kid, jwk, key, usable, authentic⟩ (unrecognised claims)

theorem checkScope_cases (config : OAuth2Config) (claims : Json) :
    (OAuth2Verifier.checkScope config claims = .ok claims ∧
      ∀ scope, config.requiredScope = some scope → OAuth2Verifier.hasScope claims scope = true) ∨
    ∃ scope, config.requiredScope = some scope ∧ OAuth2Verifier.hasScope claims scope = false ∧
      OAuth2Verifier.checkScope config claims = .error (.insufficientScope scope) := by
  unfold OAuth2Verifier.checkScope
  cases config.requiredScope with
  | none => exact .inl ⟨rfl, by simp⟩
  | some scope =>
    cases has : OAuth2Verifier.hasScope claims scope with
    | true =>
      refine .inl ⟨by simp [has], ?_⟩
      intro required same
      cases same
      exact has
    | false => exact .inr ⟨scope, rfl, has, by simp [has]⟩

theorem fetch_eq_ok {text : HttpText} {loaders : Loaders} {network : List HttpRequest → HttpReply}
    {config : OAuth2Config} {verifier : OAuth2Verifier DecodingKey}
    (fetched : (OAuth2Verifier.fetch jwt text loaders network config).2 = .ok verifier) :
    ∃ document entries,
      FetchedWhole text network (OAuth2Verifier.fetch jwt text loaders network config).1 document ∧
      document.length ≤ maxJwksBytes ∧ jwt.jwkSet document = .ok entries ∧
      verifier = ⟨config, OAuth2Verifier.keysOf jwt entries⟩ := by
  unfold OAuth2Verifier.fetch at fetched ⊢
  dsimp only at fetched ⊢
  cases parsed : text.parse config.jwksUri with
  | none =>
    rw [parsed] at fetched
    cases fetched
  | some url =>
    rw [parsed] at fetched
    dsimp only at fetched ⊢
    by_cases allowed : remoteAllowed text.config url.toUrl = true
    -- past the URL check every failure is an early return, so a verifier has come through all of them
    · have passes : ¬remoteAllowed text.config url.toUrl = false := by rw [allowed]; exact Bool.noConfusion
      rw [if_neg passes] at fetched ⊢
      obtain ⟨response, answered, fetched⟩ := bind_eq_ok.mp fetched
      obtain ⟨success, fetched⟩ := guard_eq_ok.mp fetched
      obtain ⟨document, bounded, fetched⟩ := bind_eq_ok.mp fetched
      obtain ⟨entries, listed, fetched⟩ := bind_eq_ok.mp fetched
      obtain ⟨_, same⟩ := guard_eq_ok.mp fetched
      cases same
      obtain ⟨_, whole, short⟩ := readBodyLimited_eq_ok.mp (mapError_eq_ok.mp bounded)
      obtain ⟨hops, last, sent, replied⟩ := HttpClient.send_answer rfl (mapError_eq_ok.mp answered)
      refine ⟨document, entries, ⟨?_, response, ?_, by simpa using success, whole⟩, short, ?_, rfl⟩
      · intro hop member
        exact (outbound_carries network [] _ hop member).reaches.allowed text allowed
      · rw [sent]
        exact replied
      · exact mapError_eq_ok.mp listed
    · rw [if_pos (by simpa using allowed)] at fetched
      cases fetched

/-- The gate of a fetched JWKS. Its keys come whole from an allowed server. A caller passes exactly with a token that is
signed by the last usable key of its `kid` with that key's own algorithm, in time, from the issuer and for the audience
configured (which it has to name), and with the required scope; one that lacks only the scope gets 403, every other
caller 401. -/
theorem gate_admits_iff (lawful : jwt.Lawful meaning) (text : HttpText) (loaders : Loaders)
    (network : List HttpRequest → HttpReply) (config : OAuth2Config) {verifier : OAuth2Verifier DecodingKey}
    (fetched : (OAuth2Verifier.fetch jwt text loaders network config).2 = .ok verifier) :
    ∃ document entries,
      FetchedWhole text network (OAuth2Verifier.fetch jwt text loaders network config).1 document ∧
      document.length ≤ maxJwksBytes ∧ jwt.jwkSet document = .ok entries ∧
      ∀ now headers,
        (∀ claims, checkOauth2Bearer jwt (some verifier) now headers = .ok (some claims) ↔
          ∃ token, bearerToken headers = some token ∧ Recognised jwt meaning entries config now token claims ∧
            ∀ scope, config.requiredScope = some scope → OAuth2Verifier.hasScope claims scope = true) ∧
        checkOauth2Bearer jwt (some verifier) now headers ≠ .ok none ∧
        ∀ response, checkOauth2Bearer jwt (some verifier) now headers = .error response →
          (response.status = 401 ∧ ∀ token claims, bearerToken headers = some token →
            ¬Recognised jwt meaning entries config now token claims) ∨
          response.status = 403 ∧ ∃ token claims scope, bearerToken headers = some token ∧
            Recognised jwt meaning entries config now token claims ∧ config.requiredScope = some scope ∧
            OAuth2Verifier.hasScope claims scope = false := by
  obtain ⟨document, entries, whole, short, listed, rfl⟩ := fetch_eq_ok fetched
  refine ⟨document, entries, whole, short, listed, ?_⟩
  intro now headers
  unfold checkOauth2Bearer
  cases bearer : bearerToken headers with
  | none => simp [unauthorizedBearerResponse]
  | some token =>
    dsimp only
    -- a recognised token has one set of claims, so the scope check alone decides
    by_cases known : ∃ claims, Recognised jwt meaning entries config now token claims
    · obtain ⟨claims, recognised⟩ := known
      have unique (other : Json) (also : Recognised jwt meaning entries config now token other) : other = claims := by
        obtain ⟨_, _, _, _, first⟩ := recognised
        obtain ⟨_, _, _, _, second⟩ := also
        exact Option.some.inj (second.payload.symm.trans first.payload)
      rw [verify_of_recognised lawful recognised]
      rcases checkScope_cases config claims with ⟨passes, granted⟩ | ⟨scope, required, lacks, refused⟩
      · rw [passes]
        refine ⟨?_, by simp, by simp⟩
        intro found
        constructor
        · intro same
          cases same
          exact ⟨token, rfl, recognised, granted⟩
        · rintro ⟨_, same, also, _⟩
          cases same
          rw [unique found also]
      · rw [refused]
        refine ⟨?_, by simp, ?_⟩
        · intro found
          constructor
          · intro same
            cases same
          · rintro ⟨_, same, also, granted⟩
            cases same
            have has := granted scope required
            rw [unique found also, lacks] at has
            cases has
        · intro response same
          cases same
          exact .inr ⟨rfl, token, claims, scope, rfl, recognised, required, lacks⟩
    -- no claims are recognised: whatever the library gives as its reason, the answer is the same 401
    · rw [not_exists] at known
      have refused : ∀ claims, ¬(∃ other, some token = some other ∧
          Recognised jwt meaning entries config now other claims ∧
            ∀ scope, config.requiredScope = some scope → OAuth2Verifier.hasScope claims scope = true) := by
        rintro claims ⟨_, same, also, _⟩
        cases same
        exact known claims also
      have answer : ∀ response, (.error unauthorizedBearerResponse : Except RouteResponse (Option Json)) =
          .error response → (response.status = 401 ∧ ∀ other claims, some token = some other →
            ¬Recognised jwt meaning entries config now other claims) ∨
          response.status = 403 ∧ ∃ other claims scope, some token = some other ∧
            Recognised jwt meaning entries config now other claims ∧ config.requiredScope = some scope ∧
            OAuth2Verifier.hasScope claims scope = false := by
        intro response same
        cases same
        refine .inl ⟨rfl, ?_⟩
        intro other claims same
        cases same
        exact known claims
      rcases verify_of_not_recognised lawful known with same | ⟨reason, same⟩
      · rw [same]
        exact ⟨fun claims => ⟨fun impossible => (nomatch impossible), fun passes => absurd passes (refused claims)⟩,
          by simp, answer⟩
      · rw [same]
        exact ⟨fun claims => ⟨fun impossible => (nomatch impossible), fun passes => absurd passes (refused claims)⟩,
          by simp, answer⟩

end

def signedClaims : Json := .object [("exp", .number ⟨"1000.0", some 1000⟩), ("scope", .string "write read")]

def oneKeyMeaning : JwtMeaning Unit where
  signed _ algorithm token := algorithm = .rs256 ∧ token = "signed"
  payload token := if token = "signed" then some signedClaims else none
  numericDate
    | .number number => number.wholeFloat.map Int.toNat
    | _ => none

def oneKey : JwksEntry Unit := ⟨some "key", none, .rsa, ()⟩

def oneKeyLibrary : JwtLibrary Unit Unit where
  jwkSet _ := .ok [oneKey]
  fromJwk _ := .ok ()
  decodeHeader token := if token = "signed" then .ok ⟨.rs256, some "key"⟩ else .error "InvalidToken"
  decode now token _ validation :=
    if token = "signed" ∧ .rs256 ∈ validation.algorithms ∧ validation.Accepts oneKeyMeaning now signedClaims then
      .ok signedClaims
    else .error "InvalidToken"

theorem oneKeyLibrary_lawful : oneKeyLibrary.Lawful oneKeyMeaning where
  decode_iff now token key validation claims := by
    by_cases parsed : token = "signed"
    · subst parsed
      simp only [oneKeyLibrary, oneKeyMeaning, true_and, if_true, Option.some.injEq, and_true]
      constructor
      · intro decoded
        split at decoded
        · next passes =>
          cases decoded
          exact ⟨⟨_, rfl, passes.1, rfl⟩, rfl, passes.2⟩
        · cases decoded
      · rintro ⟨⟨_, same, pinned, _⟩, rfl, accepts⟩
        cases same
        rw [if_pos ⟨pinned, accepts⟩]
    · simp [oneKeyLibrary, oneKeyMeaning, parsed]

def readerConfig : OAuth2Config := ⟨"https:keys", none, none, some "read"⟩

def readerKeys : Exchanged (Except JwksError (OAuth2Verifier Unit)) :=
  OAuth2Verifier.fetch oneKeyLibrary gatedHttpText ⟨id, fun _ => "", fun _ _ => .error "", fun _ => ""⟩
    (fun _ => .response ⟨200, none, [.ok [123, 125]]⟩) readerConfig

theorem reader_admitted : ∃ verifier, readerKeys.2 = .ok verifier ∧ ∀ now ≤ 1060,
    checkOauth2Bearer oneKeyLibrary (some verifier) now ⟨some "bearer signed", none⟩ = .ok (some signedClaims) := by
  have usable : readerKeys.2.toOption.isSome = true := by decide +kernel
  cases fetched : readerKeys.2 with
  | error reason =>
    rw [fetched] at usable
    cases usable
  | ok verifier =>
    obtain ⟨_, _, _, _, listed, answers⟩ := gate_admits_iff oneKeyLibrary_lawful _ _ _ _ fetched
    cases listed
    refine ⟨verifier, rfl, ?_⟩
    intro now early
    have last : LastUsable oneKeyLibrary [oneKey] "key" oneKey ⟨(), .rs256⟩ := ⟨rfl, [], [], rfl, by simp⟩
    have authentic :
        Authentic oneKeyLibrary oneKeyMeaning readerConfig now "signed" "key" ⟨(), .rs256⟩ signedClaims := by
      refine ⟨rfl, ⟨rfl, rfl⟩, rfl, ⟨1000, ?_, by omega⟩, ?_, by simp [readerConfig], by simp [readerConfig]⟩
      · decide +kernel
      · intro nbf dated
        cases dated
    exact ((answers now ⟨some "bearer signed", none⟩).1 signedClaims).mpr
      ⟨"signed", by decide +kernel, ⟨"key", oneKey, _, last, authentic⟩, by
        intro scope required
        cases required
        decide +kernel⟩

end CatalogBroker
