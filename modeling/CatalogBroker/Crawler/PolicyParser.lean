import CatalogBroker.Crawler.JsonLd

/-! The crawler's reading of ODRL policies out of a dataset's JSON-LD.

Content that cannot be read becomes an unmappable marker; the text of the JSON it stands for
is kept in the marker.
-/

set_option autoImplicit false

namespace CatalogBroker

def unmappableRule (raw : Json) : Rule := ⟨unmappableAction, [.unmappable raw.text]⟩

def PolicyKind.default : PolicyKind := .set

def hasAtomicKey (value : Json) : Bool :=
  ["leftOperand", "operator", "rightOperand"].any fun key => !(aliasedAll value key).isEmpty

def logicalPresent (value : Json) : List (String × LogicalOperator) :=
  logicalConstraintBuilders.filter fun builder => !(aliasedAll value builder.1).isEmpty

/-- `parse_constraint` with `levels` depths left before the depth limit is passed. -/
def parseConstraintWithin : Nat → Json → Constraint
  | 0, value => .unmappable value.text
  | levels + 1, value =>
    let present := logicalPresent value
    if present.length > 1 ∨ (hasAtomicKey value ∧ present ≠ []) then .unmappable value.text
    else match getField value "leftOperand", getField value "operator", getField value "rightOperand" with
      | .value left, .value operator, .value right => .atomic ⟨left, operator, right⟩
      | _, _, _ => match present.head? with
        | some (key, operator) =>
          if levels = 0 then .unmappable value.text
          else .logical operator ((oneOrManyAliased value key).map (parseConstraintWithin levels))
        | none => .unmappable value.text

def parseConstraint (value : Json) (depth : Nat) : Constraint :=
  parseConstraintWithin (maxConstraintDepth + 1 - depth) value

def parseConstraints (entries : List Json) : List Constraint := entries.map fun entry => parseConstraint entry 0

/-- The marker for a key the model has no place for, when a rule carries it. -/
def unheldKeyMarker (value : Json) (key : String) : Option Constraint :=
  let raws := aliasedAll value key
  if raws.isEmpty then none
  else some (.unmappable (key ++ ": " ++ ", ".intercalate (raws.map Json.text)))

def parseRule (value : Json) : Rule :=
  if !value.isObject then unmappableRule value
  else
    -- a rule whose action cannot be read is kept with a marker, so that it never allows
    let (action, marker) : String × List Constraint := match getField value "action" with
      | .value action => (normalizeAction action, [])
      | .absent => (unmappableAction, [.unmappable value.text])
      | .unreadable => (unmappableAction, [.unmappable value.text])
    { action
      constraints := marker ++ parseConstraints (oneOrManyAliased value "constraint") ++
        ["assignee", "target", "duty"].filterMap (unheldKeyMarker value) }

def parseRules (policyValue : Json) (key : String) : List Rule := (oneOrManyAliased policyValue key).map parseRule

def ruleKeys : List String := ["permission", "prohibition", "obligation"]

def parsePolicyKind (value : Json) : PolicyKind :=
  match (value.get? "@type").bind Json.asStr? with
  | some "Set" => .set
  | some "Offer" => .offer
  | some "Agreement" => .agreement
  | some _ => .default
  | none => .default

/-- The value a marker for an unreadable assignee shows: the one found, or all of them. -/
def assigneeExcerpt (value : Json) : Json :=
  match aliasedAll value "assignee" with
  | [one] => one
  | raws => .array raws

def parsePolicy (value : Json) : Policy :=
  let ruleless :=
    if ruleKeys.all fun key => (aliasedAll value key).isEmpty then [unmappableRule value] else []
  let (assignee, unread) : Option String × List Rule := match getField value "assignee" with
    | .value assignee => (some assignee, [])
    | .absent => (none, [])
    | .unreadable => (none, [unmappableRule (assigneeExcerpt value)])
  { id := (value.get? "@id").bind Json.asStr?
    kind := parsePolicyKind value
    assigner := (getField value "assigner").value?
    assignee
    permissions := parseRules value "permission"
    prohibitions := parseRules value "prohibition"
    obligations := parseRules value "obligation" ++ ruleless ++ unread }

/-- One `hasPolicy` entry: a node is parsed, anything else stands as a policy that cannot be evaluated. -/
def parsePolicyEntry (entry : Json) : Policy :=
  if entry.isObject then parsePolicy entry
  else ⟨none, .default, none, none, [], [], [unmappableRule entry]⟩

def parsePolicies (datasetValue : Json) : List Policy :=
  (oneOrManyAliased datasetValue "hasPolicy").map parsePolicyEntry

end CatalogBroker
