import CatalogBroker.Broker.PolicyFilter
import CatalogBroker.Json.Value

/-! Token claims as the engine is given them, and the key a caller's allow-list is cached under.

How the key spells a claim map is not part of the repository: it is a parameter. So is the
engine; `ComparesClaims` says what is assumed of it.
-/

set_option autoImplicit false

namespace CatalogBroker

def isAsciiWhitespace (char : Char) : Bool :=
  char = ' ' || char = '\t' || char = '\n' || char = '\r' || char.toNat = 12

def splitAsciiWhitespace (text : String) : List String :=
  ((text.toList.splitOnP isAsciiWhitespace).filter fun word => !word.isEmpty).map String.ofList

def jwtClaimToEngineClaim (key : String) (value : Json) : Option ClaimValue :=
  let scopeMulti :=
    if key = "scope" then value.asStr?.map fun scope => ClaimValue.multi (splitAsciiWhitespace scope) else none
  scopeMulti.or (match value with
    | .string text => some (.single text)
    | .array items => (items.mapM Json.asStr?).map ClaimValue.multi
    | .number _ | .bool _ | .object _ | .null => none)

def jwtClaimsToEngineClaims (claims : Json) : Claims :=
  match claims with
  | .object members => members.foldl (fun mapped member =>
      match jwtClaimToEngineClaim member.1 member.2 with
      | some value => mapped.insert member.1 value
      | none => mapped) ∅
  | _ => ∅

def withContextClaims (now : String) (claims : Claims) : Claims := claims.insert "dateTime" (.single now)

def engineClaimsFromBearer (now : String) (claims : Option Json) : Claims :=
  withContextClaims now (jwtClaimsToEngineClaims (claims.getD .null))

def perTokenClaims : List String := ["jti", "iat", "exp", "nbf"]

def canonicalClaims (claims : Option Json) : List (String × ClaimValue) :=
  ((jwtClaimsToEngineClaims (claims.getD .null)).filter fun name _ => name ∉ perTokenClaims).toList

def allowListKey (serialize : List (String × ClaimValue) → String) (claims : Option Json) : String :=
  serialize (canonicalClaims claims)

/-- What is assumed of the engine: a request's claims reach its verdict only through the comparisons of
its atomic constraints and the identity of the caller, and one permission with one atomic constraint
allows exactly when the comparison of the named claim holds. -/
structure ComparesClaims (evaluateRequest : EngineRequest → WireDecision)
    (compares : Option ClaimValue → Operator → String → Bool) : Prop where
  onlyCompared : ∀ (request : EngineRequest) (claims : Claims),
    (∀ (name : String) operator right,
      compares claims[name]? operator right = compares request.claims[name]? operator right) →
    (∀ name ∈ request.config.partyIdentityClaim.toList ++ request.config.agreementAssigneeClaim.toList,
      claims[name]? = request.claims[name]?) →
    evaluateRequest { request with claims } = evaluateRequest request
  onePermission : ∀ (request : EngineRequest) (policy : WirePolicy) (name : String) (operator : Operator)
    (right : String), request.policies = [policy] → policy.assignee = none →
    policy.permissions = [⟨request.action, [.atomic name operator right]⟩] → policy.prohibitions = [] →
    policy.obligations = [] → ⟨request.action, none⟩ ∈ request.config.actions →
    (evaluateRequest request = .allow ↔ compares request.claims[name]? operator right = true)

theorem getElem?_jwtClaimsToEngineClaims {claims other : Option Json}
    (same : canonicalClaims claims = canonicalClaims other) {name : String} (kept : name ∉ perTokenClaims) :
    (jwtClaimsToEngineClaims (claims.getD .null))[name]? = (jwtClaimsToEngineClaims (other.getD .null))[name]? := by
  -- The key lists all claims but the per-token ones, so any other claim can be read off it.
  have filtered := Std.ExtTreeMap.toList_inj.mp same
  have found := congrArg (fun map : Claims => map[name]?) filtered
  have whole (found : Option ClaimValue) : found.filter (fun _ => true) = found := by cases found <;> rfl
  simpa [Std.ExtTreeMap.getElem?_filter', kept, whole] using found

theorem getElem?_engineClaimsFromBearer (now : String) (claims : Option Json) (name : String) :
    (engineClaimsFromBearer now claims)[name]? =
      if name = "dateTime" then some (.single now) else (jwtClaimsToEngineClaims (claims.getD .null))[name]? := by
  rw [engineClaimsFromBearer, withContextClaims, Std.ExtTreeMap.getElem?_insert]
  simp only [Std.LawfulEqCmp.compare_eq_iff_eq, eq_comm (a := name)]

theorem getElem?_engineClaimsFromBearer_of_key {claims other : Option Json}
    (same : canonicalClaims claims = canonicalClaims other) (now : String) {name : String}
    (kept : name ∉ perTokenClaims) :
    (engineClaimsFromBearer now claims)[name]? = (engineClaimsFromBearer now other)[name]? := by
  rw [getElem?_engineClaimsFromBearer, getElem?_engineClaimsFromBearer, getElem?_jwtClaimsToEngineClaims same kept]

theorem getElem?_engineClaimsFromBearer_perToken (now : String) (claims : Option Json) {name : String}
    (listed : name ∈ perTokenClaims) :
    (engineClaimsFromBearer now claims)[name]? = (jwtClaimsToEngineClaims (claims.getD .null))[name]? := by
  have other : name ≠ "dateTime" := by
    rintro rfl
    revert listed
    decide
  rw [getElem?_engineClaimsFromBearer, if_neg other]

section

variable {evaluateRequest : EngineRequest → WireDecision} {compares : Option ClaimValue → Operator → String → Bool}

theorem datasetIsVisible_congr (engine : ComparesClaims evaluateRequest compares) (config : PolicyFilterConfig)
    (dataset : Dataset) (action : String) {claims other : Claims}
    (compared : ∀ (name : String) operator right,
      compares claims[name]? operator right = compares other[name]? operator right)
    (caller : claims["sub"]? = other["sub"]?) :
    datasetIsVisible config evaluateRequest dataset claims action =
      datasetIsVisible config evaluateRequest dataset other action := by
  have asked (wirePolicy : WirePolicy) :
      evaluateRequest (buildRequest config dataset wirePolicy action claims) =
        evaluateRequest (buildRequest config dataset wirePolicy action other) :=
    engine.onlyCompared (buildRequest config dataset wirePolicy action other) claims compared
      (by simpa [buildRequest] using caller)
  have offers (offers : List (Policy × Nat)) :
      anyOfferAllows config evaluateRequest dataset claims action offers =
        anyOfferAllows config evaluateRequest dataset other action offers := by
    induction offers with
    | nil => rfl
    | cons offer offers ih => simp only [anyOfferAllows, asked, ih]
  rw [datasetIsVisible, datasetIsVisible, offers]

/-- An offer that permits `use` when one claim compares as `operator` and `right` say. -/
def probingOffer (name operator right : String) : Policy :=
  ⟨none, .offer, none, none, [⟨"use", [.atomic ⟨name, operator, right⟩]⟩], [], []⟩

def probingDataset (name operator right : String) : Dataset :=
  ⟨"urn:dataset", ∅, [], [probingOffer name operator right]⟩

def operatorName : Operator → String
  | .eq => "eq"
  | .neq => "neq"
  | .isAnyOf => "isAnyOf"
  | .isAllOf => "isAllOf"
  | .isNoneOf => "isNoneOf"
  | .isPartOf => "isPartOf"
  | .lt => "lt"
  | .lteq => "lteq"
  | .gt => "gt"
  | .gteq => "gteq"

@[simp] theorem parseOperator_operatorName (operator : Operator) :
    parseOperator (operatorName operator) = some operator := by
  cases operator <;> decide

theorem normalizeLeftOperand_perToken {name : String} (listed : name ∈ perTokenClaims) :
    normalizeLeftOperand name = name := by
  revert name
  decide

theorem mapPolicy_probingOffer {name : String} (listed : name ∈ perTokenClaims) (operator : Operator)
    (right fallbackId : String) : mapPolicy {} (probingOffer name (operatorName operator) right) fallbackId =
      .ok ⟨fallbackId, "Offer", "", none, [⟨normalizeAction "use", [.atomic name operator right]⟩], [], [], none⟩ := by
  have shallow : ¬ 0 > maxConstraintDepth := by decide
  simp [probingOffer, mapPolicy, mapRules, catalogRuleToEngineRule, catalogConstraintToEngineConstraint,
    catalogConstraintToEngineConstraintAtDepth, shallow, normalizeLeftOperand_perToken listed, bind, Except.bind,
    pure, Except.pure, policyKindWireName]

theorem probingDataset_visible_iff (engine : ComparesClaims evaluateRequest compares) (claims : Claims)
    {name : String} (listed : name ∈ perTokenClaims) (operator : Operator) (right : String) :
    datasetIsVisible {} evaluateRequest (probingDataset name (operatorName operator) right) claims "use" = true ↔
      compares claims[name]? operator right = true := by
  let dataset := probingDataset name (operatorName operator) right
  let wirePolicy : WirePolicy := ⟨fallbackId dataset 0, "Offer", "", none,
    [⟨normalizeAction "use", [.atomic name operator right]⟩], [], [], none⟩
  have mapped : mapPolicy {} (probingOffer name (operatorName operator) right) (fallbackId dataset 0) =
      .ok wirePolicy := mapPolicy_probingOffer listed operator right _
  have declared : ⟨normalizeAction "use", none⟩ ∈ (buildRequest {} dataset wirePolicy "use" claims).config.actions := by
    apply List.mem_map.mpr
    refine ⟨normalizeAction "use", ?_, rfl⟩
    rw [Std.ExtTreeSet.mem_toList, Std.ExtTreeSet.mem_ofList]
    simp
  have verdict : evaluateRequest (buildRequest {} dataset wirePolicy "use" claims) = .allow ↔
      compares claims[name]? operator right = true :=
    engine.onePermission (buildRequest {} dataset wirePolicy "use" claims) wirePolicy name operator right
      rfl rfl rfl rfl rfl declared
  change anyOfferAllows {} evaluateRequest dataset claims "use"
    [(probingOffer name (operatorName operator) right, 0)] = true ↔ _
  rw [anyOfferAllows, catalogPolicyToWirePolicy, mapped]
  simpa [anyOfferAllows] using verdict

/-- For two tokens of one key, every decision is the same exactly when the engine's comparisons cannot tell
their per-token claims apart. -/
theorem same_key_same_decisions_iff (engine : ComparesClaims evaluateRequest compares)
    (serialize : List (String × ClaimValue) → String) {claims other : Option Json}
    (spelled : serialize (canonicalClaims claims) = serialize (canonicalClaims other) →
      canonicalClaims claims = canonicalClaims other)
    (sameKey : allowListKey serialize claims = allowListKey serialize other) :
    (∀ (now : String) (config : PolicyFilterConfig) (dataset : Dataset) (action : String),
      datasetIsVisible config evaluateRequest dataset (engineClaimsFromBearer now claims) action =
        datasetIsVisible config evaluateRequest dataset (engineClaimsFromBearer now other) action) ↔
    ∀ name ∈ perTokenClaims, ∀ operator right,
      compares (jwtClaimsToEngineClaims (claims.getD .null))[name]? operator right =
        compares (jwtClaimsToEngineClaims (other.getD .null))[name]? operator right := by
  have same := spelled sameKey
  constructor
  -- If every decision is the same, so is that for the dataset that probes this one comparison.
  · intro decisions name listed operator right
    have probed := decisions "" {} (probingDataset name (operatorName operator) right) "use"
    rw [Bool.eq_iff_iff, probingDataset_visible_iff engine _ listed, probingDataset_visible_iff engine _ listed,
      getElem?_engineClaimsFromBearer_perToken "" claims listed,
      getElem?_engineClaimsFromBearer_perToken "" other listed] at probed
    exact Bool.eq_iff_iff.mpr probed
  · intro alike now config dataset action
    apply datasetIsVisible_congr engine config dataset action
    · intro name operator right
      by_cases listed : name ∈ perTokenClaims
      · rw [getElem?_engineClaimsFromBearer_perToken now claims listed,
          getElem?_engineClaimsFromBearer_perToken now other listed, alike name listed operator right]
      · rw [getElem?_engineClaimsFromBearer_of_key same now listed]
    · exact getElem?_engineClaimsFromBearer_of_key same now (by decide)

end

mutual
def EngineConstraint.holds (compared : String → Operator → String → Bool) : EngineConstraint → Bool
  | .atomic name operator right => compared name operator right
  | .and children => holdCount compared children = children.length
  | .andSequence children => holdCount compared children = children.length
  | .or children => 0 < holdCount compared children
  | .xone children => holdCount compared children = 1

def EngineConstraint.holdCount (compared : String → Operator → String → Bool) : List EngineConstraint → Nat
  | [] => 0
  | child :: children => (child.holds compared).toNat + holdCount compared children
end

def EngineRule.applies (compared : String → Operator → String → Bool) (action : String) (rule : EngineRule) : Bool :=
  rule.action = action && rule.constraints.all (EngineConstraint.holds compared)

def compareClaim (claim : Option ClaimValue) (operator : Operator) (right : String) : Bool :=
  match claim, operator with
  | some (.single value), .eq => value = right
  | some (.single value), .neq => value ≠ right
  | some (.multi values), .isAnyOf => right ∈ values
  | some (.multi values), .isNoneOf => right ∉ values
  | _, _ => false

/-- Allows when every policy is addressed to the caller, permits the action and does not prohibit it. -/
def evaluateByClaims (request : EngineRequest) : WireDecision :=
  let compared name := compareClaim request.claims[name]?
  let caller := request.config.partyIdentityClaim.bind fun name => request.claims[(name : String)]?
  if request.policies.all fun policy =>
      policy.assignee.all (fun assignee => caller = some (.single assignee)) &&
        policy.permissions.any (EngineRule.applies compared request.action) &&
        !policy.prohibitions.any (EngineRule.applies compared request.action)
  then .allow else .deny

theorem evaluateByClaims_comparesClaims : ComparesClaims evaluateByClaims compareClaim := by
  constructor
  · intro request claims compared caller
    have comparisons : (fun name : String => compareClaim claims[name]?) =
        fun name : String => compareClaim request.claims[name]? := by
      funext name operator right
      exact compared name operator right
    have identity : (request.config.partyIdentityClaim.bind fun name : String => claims[name]?) =
        request.config.partyIdentityClaim.bind fun name : String => request.claims[name]? := by
      cases named : request.config.partyIdentityClaim with
      | none => rfl
      | some name => exact caller name (by simp [named])
    simp only [evaluateByClaims, comparisons, identity]
  · intro request policy name operator right policies assignee permissions prohibitions _ _
    simp [evaluateByClaims, policies, assignee, permissions, prohibitions, EngineRule.applies,
      EngineConstraint.holds]

def claimsText (claims : List (String × ClaimValue)) : String :=
  (Json.object (claims.map fun claim => (claim.1, match claim.2 with
    | .single value => .string value
    | .multi values => .array (values.map Json.string)))).text

def aliceToken (jti issued : String) : Option Json :=
  some (.object [("iat", .number ⟨issued, none⟩), ("jti", .string jti), ("sub", .string "alice")])

def pinnedToToken : Dataset := probingDataset "jti" "eq" "1"

theorem reissued_token_same_decision :
    datasetIsVisible {} evaluateByClaims pinnedToToken (engineClaimsFromBearer "now" (aliceToken "1" "5")) "use" =
      datasetIsVisible {} evaluateByClaims pinnedToToken (engineClaimsFromBearer "now" (aliceToken "1" "6")) "use" := by
  apply (same_key_same_decisions_iff evaluateByClaims_comparesClaims claimsText (fun _ => rfl) rfl).mpr
  intro name listed operator right
  rfl

theorem rotated_token_other_decision : ComparesClaims evaluateByClaims compareClaim ∧
    allowListKey claimsText (aliceToken "1" "5") = allowListKey claimsText (aliceToken "2" "5") ∧
    datasetIsVisible {} evaluateByClaims pinnedToToken (engineClaimsFromBearer "now" (aliceToken "1" "5")) "use" =
      true ∧
    datasetIsVisible {} evaluateByClaims pinnedToToken (engineClaimsFromBearer "now" (aliceToken "2" "5")) "use" =
      false := by
  refine ⟨evaluateByClaims_comparesClaims, ?_, ?_, ?_⟩
  · rfl
  · decide
  · decide

end CatalogBroker
