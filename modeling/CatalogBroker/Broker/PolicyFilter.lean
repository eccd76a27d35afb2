import CatalogBroker.Catalog.Model

/-! Harvested policies mapped to the policy engine, and the visibility decision.

The engine is not part of the repository: its verdict on a request is a parameter of
every definition that asks for one.
-/

set_option autoImplicit false

namespace CatalogBroker

open Library

inductive Operator where
  | eq
  | neq
  | isAnyOf
  | isAllOf
  | isNoneOf
  | isPartOf
  | lt
  | lteq
  | gt
  | gteq
  deriving DecidableEq, Repr

inductive ClaimValue where
  | single (value : String)
  | multi (values : List String)
  deriving DecidableEq, Repr

abbrev Claims := Std.ExtTreeMap String ClaimValue

inductive EngineConstraint where
  | atomic (leftOperand : String) (operator : Operator) (rightOperand : String)
  | and (children : List EngineConstraint)
  | or (children : List EngineConstraint)
  | xone (children : List EngineConstraint)
  | andSequence (children : List EngineConstraint)

structure EngineRule where
  action : String
  constraints : List EngineConstraint

structure WirePolicy where
  id : String
  kind : String
  assigner : String
  assignee : Option String
  permissions : List EngineRule
  prohibitions : List EngineRule
  obligations : List EngineRule
  inheritFrom : Option String

inductive Behaviour where
  | open
  | closed
  deriving DecidableEq, Repr

structure WireActionDecl where
  id : String
  includedIn : Option String
  deriving DecidableEq, Repr

structure RequestConfig where
  type : String
  id : String
  actions : List WireActionDecl
  behaviour : Behaviour
  partyIdentityClaim : Option String
  agreementAssigneeClaim : Option String
  deriving DecidableEq, Repr

structure EngineRequest where
  datasetId : String
  action : String
  config : RequestConfig
  policies : List WirePolicy
  claims : Claims

inductive WireDecision where
  | allow
  | deny
  | error
  deriving DecidableEq, Repr

inductive UnmappableConstraintAction where
  | skipConstraint
  | dropPolicy
  | hideDataset
  deriving DecidableEq, Repr

inductive NoPolicyVisibility where
  | open
  | closed
  deriving DecidableEq, Repr

structure PolicyFilterConfig where
  unmappableConstraintAction : UnmappableConstraintAction := .hideDataset
  noPolicyVisibility : NoPolicyVisibility := .open
  deriving DecidableEq, Repr

/-- The wire spellings of the operators the engine knows. -/
def operatorNames : List (String × Operator) :=
  [("eq", .eq), ("neq", .neq), ("isAnyOf", .isAnyOf), ("isAllOf", .isAllOf), ("isNoneOf", .isNoneOf),
   ("isPartOf", .isPartOf), ("lt", .lt), ("lteq", .lteq), ("gt", .gt), ("gteq", .gteq)]

def parseOperator (operator : String) : Option Operator :=
  operatorNames.lookup ((Text.stripPrefix operator "odrl:").getD operator)

def normalizeLeftOperand (leftOperand : String) : String :=
  ((Text.stripPrefix leftOperand odrlNs).or (Text.stripPrefix leftOperand "odrl:")).getD leftOperand

inductive UnmappableConstraint where
  | unmappableConstraint
  deriving DecidableEq, Repr

def EngineConstraint.build (operator : LogicalOperator) (children : List EngineConstraint) : EngineConstraint :=
  match operator with
  | .and => .and children
  | .or => .or children
  | .xone => .xone children
  | .andSequence => .andSequence children

def unmappableOutcome (config : PolicyFilterConfig) : Except UnmappableConstraint (Option EngineConstraint) :=
  match config.unmappableConstraintAction with
  | .skipConstraint => .ok none
  | .dropPolicy => .error .unmappableConstraint
  | .hideDataset => .error .unmappableConstraint

section

variable (config : PolicyFilterConfig)

mutual
def catalogConstraintToEngineConstraintAtDepth (constraint : Constraint) (depth : Nat) :
    Except UnmappableConstraint (Option EngineConstraint) :=
  if depth > maxConstraintDepth then unmappableOutcome config
  else match constraint with
    | .atomic atomic => match parseOperator atomic.operator with
      | some operator =>
        .ok (some (.atomic (normalizeLeftOperand atomic.leftOperand) operator atomic.rightOperand))
      | none => unmappableOutcome config
    | .logical operator children => do
      let mapped ← mapChildren children (depth + 1)
      return some (.build operator mapped)

/-- The loop over a group's children: the first failure ends it, a dropped child is left out. -/
def mapChildren (children : List Constraint) (depth : Nat) : Except UnmappableConstraint (List EngineConstraint) :=
  match children with
  | [] => .ok []
  | child :: children => do
    let mapped ← catalogConstraintToEngineConstraintAtDepth child depth
    let rest ← mapChildren children depth
    return mapped.toList ++ rest
end

def catalogConstraintToEngineConstraint (constraint : Constraint) :
    Except UnmappableConstraint (Option EngineConstraint) :=
  catalogConstraintToEngineConstraintAtDepth config constraint 0

def catalogRuleToEngineRule (rule : Rule) : Except UnmappableConstraint (Option EngineRule) := do
  let constraints ← rule.constraints.mapM (catalogConstraintToEngineConstraint config)
  return some ⟨normalizeAction rule.action, constraints.flatMap Option.toList⟩

def policyKindWireName : PolicyKind → String
  | .set => "Set"
  | .offer => "Offer"
  | .agreement => "Agreement"

def mapRules (rules : List Rule) : Except UnmappableConstraint (List EngineRule) := do
  let mapped ← rules.mapM (catalogRuleToEngineRule config)
  return mapped.flatMap Option.toList

/-- Why a policy has no outcome of its own; `unreachable` is the panic of the third arm. -/
inductive PolicyMappingError where
  | hideDatasetForUnmappableConstraint
  | unreachable
  deriving DecidableEq, Repr

def mapPolicy (policy : Policy) (fallbackId : String) : Except UnmappableConstraint WirePolicy := do
  let permissions ← mapRules config policy.permissions
  let prohibitions ← mapRules config policy.prohibitions
  let obligations ← mapRules config policy.obligations
  return {
    id := policy.id.getD fallbackId
    kind := policyKindWireName policy.kind
    assigner := policy.assigner.getD ""
    assignee := policy.assignee
    permissions
    prohibitions
    obligations
    inheritFrom := none }

def catalogPolicyToWirePolicy (policy : Policy) (fallbackId : String) :
    Except PolicyMappingError (Option WirePolicy) :=
  match mapPolicy config policy fallbackId with
  | .ok wirePolicy => .ok (some wirePolicy)
  | .error _ => match config.unmappableConstraintAction with
    | .dropPolicy => .ok none
    | .hideDataset => .error .hideDatasetForUnmappableConstraint
    -- never taken: under this setting no constraint fails to map
    | .skipConstraint => .error .unreachable

def buildRequest (dataset : Dataset) (wirePolicy : WirePolicy) (action : String) (claims : Claims) :
    EngineRequest :=
  let action := normalizeAction action
  let rules := wirePolicy.permissions ++ wirePolicy.prohibitions ++ wirePolicy.obligations
  let actions : Std.ExtTreeSet String := .ofList (action :: rules.map EngineRule.action)
  { datasetId := dataset.id
    action
    config :=
      { type := "odrl:Profile"
        id := "urn:ds-catalog-broker-rs:odrl-filter-config"
        actions := actions.toList.map fun id => ⟨id, none⟩
        behaviour := match config.noPolicyVisibility with
          | .open => .open
          | .closed => .closed
        partyIdentityClaim := some "sub"
        agreementAssigneeClaim := none }
    policies := [wirePolicy]
    claims }

def fallbackId (dataset : Dataset) (index : Nat) : String := dataset.id ++ "-policy-" ++ toString index

variable (evaluateRequest : EngineRequest → WireDecision) (dataset : Dataset) (claims : Claims) (action : String)

/-- The loop over a dataset's alternative offers, each with its position. -/
def anyOfferAllows : List (Policy × Nat) → Bool
  | [] => false
  | (policy, index) :: policies =>
    match catalogPolicyToWirePolicy config policy (fallbackId dataset index) with
    -- an unmappable policy hides the dataset only if no earlier offer allows
    | .error _ => false
    | .ok none => anyOfferAllows policies
    | .ok (some wirePolicy) =>
      if evaluateRequest (buildRequest config dataset wirePolicy action claims) = .allow then true
      else anyOfferAllows policies

/-- Whether `dataset` is visible to the caller `claims` describes, for `action`. -/
def datasetIsVisible : Bool :=
  if dataset.policies.isEmpty then config.noPolicyVisibility = .open
  else anyOfferAllows config evaluateRequest dataset claims action dataset.policies.zipIdx

end

end CatalogBroker
