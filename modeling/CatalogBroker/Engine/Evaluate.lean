import CatalogBroker.Library.Text

/-! The portable decision engine: its request, its rules and how it decides.

Its policies mirror the harvested ones but are types of its own.
-/

set_option autoImplicit false

namespace CatalogBroker.PolicyEngine

open Library

inductive PolicyKind where
  | set
  | offer
  | agreement
  deriving DecidableEq, Repr

structure Constraint where
  leftOperand : String
  operator : String
  rightOperand : String
  deriving DecidableEq, Repr

structure Rule where
  action : String
  constraints : List Constraint
  deriving DecidableEq, Repr

structure Policy where
  id : Option String
  kind : PolicyKind
  assigner : Option String
  assignee : Option String
  permissions : List Rule
  prohibitions : List Rule
  obligations : List Rule
  deriving DecidableEq, Repr

inductive ClaimValue where
  | single (value : String)
  | list (values : List String)
  deriving DecidableEq, Repr

namespace ClaimValue

def contains (claim : ClaimValue) (needle : String) : Bool :=
  match claim with
  | .single value => value = needle
  | .list values => values.any fun value => value = needle

def containsAny (claim : ClaimValue) (candidates : List String) : Bool :=
  match claim with
  | .single value => value ∈ candidates
  | .list values => values.any fun value => value ∈ candidates

end ClaimValue

abbrev Claims := Std.ExtTreeMap String ClaimValue

structure EvaluateRequest where
  datasetId : String
  policies : List Policy
  claims : Claims

inductive Decision where
  | allow
  | deny
  deriving DecidableEq, Repr

structure EvaluateResponse where
  datasetId : String
  decision : Decision
  reason : String
  deriving DecidableEq, Repr

/-- What resolving a constraint or a rule against the claims gives; `unevaluable` when the claim is absent or the
operator unknown. -/
inductive Outcome where
  | hit
  | miss
  | unevaluable
  deriving DecidableEq, Repr

/-- The entries of a comma-delimited operand, trimmed, without the empty ones. -/
def candidates (rightOperand : String) : List String :=
  ((rightOperand.toList.splitOn ',').map Text.trim).filterMap fun candidate =>
    if candidate.isEmpty then none else some (String.ofList candidate)

def constraintOutcome (claims : Claims) (constraint : Constraint) : Outcome :=
  match claims[constraint.leftOperand]? with
  | none => .unevaluable
  | some value =>
    let matched := match constraint.operator with
      | "eq" => some (value.contains constraint.rightOperand)
      | "neq" => some (!value.contains constraint.rightOperand)
      | "isAnyOf" => some (value.containsAny (candidates constraint.rightOperand))
      | _ => none
    match matched with
    | some true => .hit
    | some false => .miss
    | none => .unevaluable

/-- The loop over a rule's constraints, `outcome` being what it has so far: a miss ends it. -/
def combineOutcomes (claims : Claims) (outcome : Outcome) : List Constraint → Outcome
  | [] => outcome
  | constraint :: constraints => match constraintOutcome claims constraint with
    | .miss => .miss
    | .unevaluable => combineOutcomes claims .unevaluable constraints
    | .hit => combineOutcomes claims outcome constraints

def ruleOutcome (claims : Claims) (rule : Rule) : Outcome := combineOutcomes claims .hit rule.constraints

def policyLabel (policy : Policy) : String := policy.id.getD "<unnamed>"

def describeRule (rule : Rule) : String :=
  if rule.constraints.isEmpty then "unconditional"
  else " and ".intercalate (rule.constraints.map fun constraint =>
    constraint.leftOperand ++ " " ++ constraint.operator ++ " " ++ constraint.rightOperand)

section

variable (claims : Claims)

def prohibitionReason (policy : Policy) (index : Nat) : List Rule → Option String
  | [] => none
  | rule :: rules =>
    let outcome := ruleOutcome claims rule
    -- only a definite miss lets a prohibition pass
    if outcome ≠ .miss then
      let verdict := if outcome = .hit then "matched" else "could not be evaluated, failing closed"
      some ("prohibition[" ++ toString index ++ "] of policy '" ++ policyLabel policy ++ "' " ++ verdict ++ ": " ++
        describeRule rule)
    else prohibitionReason policy (index + 1) rules

def permissionReason (policy : Policy) (index : Nat) : List Rule → Option String
  | [] => none
  | rule :: rules =>
    if ruleOutcome claims rule = .hit then
      some ("permission[" ++ toString index ++ "] of policy '" ++ policyLabel policy ++ "' matched: " ++
        describeRule rule)
    else permissionReason policy (index + 1) rules

end

/-- Deny-overrides over the rules of every policy, in order. -/
def evaluate (request : EvaluateRequest) : EvaluateResponse :=
  match request.policies.findSome? fun policy => prohibitionReason request.claims policy 0 policy.prohibitions with
  | some reason => ⟨request.datasetId, .deny, reason⟩
  | none =>
    let anyPermissionDeclared := request.policies.any fun policy => !policy.permissions.isEmpty
    if !anyPermissionDeclared then
      ⟨request.datasetId, .allow, "no permission rules declared on any attached policy; open by default"⟩
    else match request.policies.findSome? fun policy => permissionReason request.claims policy 0 policy.permissions with
      | some reason => ⟨request.datasetId, .allow, reason⟩
      | none => ⟨request.datasetId, .deny, "permission rules exist but none matched the caller's claims"⟩

end CatalogBroker.PolicyEngine
