import CatalogBroker.Crawler.KeptEntries

/-! Policies as the broker serves them, and as a crawler reads them back. -/

set_option autoImplicit false

namespace CatalogBroker

open Library

def maxServedGroupDepth : Nat := 56

def servedGroupMarker : Constraint := .unmappable "logical group nested beyond the served depth limit"

def atomicToJson (leaf : AtomicConstraint) : Json :=
  .object [("leftOperand", .string leaf.leftOperand), ("operator", .string leaf.operator),
    ("rightOperand", .string leaf.rightOperand)]

/-- `andSequence` is served as `and`, which keeps every child. -/
def servedKey : LogicalOperator → String
  | .and => "and"
  | .andSequence => "and"
  | .or => "or"
  | .xone => "xone"

mutual
def constraintToJson (constraint : Constraint) (groupDepth : Nat) : Json :=
  match constraint with
  | .atomic leaf => atomicToJson leaf
  | .logical operator children =>
    if groupDepth ≥ maxServedGroupDepth then
      atomicToJson ⟨"", unmappableOperator, "logical group nested beyond the served depth limit"⟩
    else .object [(servedKey operator, .array (constraintsToJson children (groupDepth + 1)))]

def constraintsToJson (children : List Constraint) (groupDepth : Nat) : List Json :=
  match children with
  | [] => []
  | child :: children => constraintToJson child groupDepth :: constraintsToJson children groupDepth
end

/-- A member written only when there is a value for it. -/
def optionalMember (key : String) (value : Option Json) : List (String × Json) :=
  value.toList.map fun value => (key, value)

def nonemptyArray (items : List Json) : Option Json := if items.isEmpty then none else some (.array items)

def ruleToJson (rule : Rule) : Json :=
  .object (("action", .string rule.action) ::
    optionalMember "constraint" (nonemptyArray (rule.constraints.map fun constraint => constraintToJson constraint 0)))

def policyToJson (policy : Policy) : Json :=
  let kind := match policy.kind with
    | .set => "Set"
    | .offer => "Offer"
    | .agreement => "Agreement"
  .object (optionalMember "@id" (policy.id.map Json.string) ++
    [("@type", .string kind)] ++
    optionalMember "obligation" (nonemptyArray (policy.obligations.map ruleToJson)) ++
    optionalMember "odrl:assignee" (policy.assignee.map Json.string) ++
    optionalMember "odrl:assigner" (policy.assigner.map Json.string) ++
    optionalMember "permission" (nonemptyArray (policy.permissions.map ruleToJson)) ++
    optionalMember "prohibition" (nonemptyArray (policy.prohibitions.map ruleToJson)))

def servedOperator : LogicalOperator → LogicalOperator
  | .andSequence => .and
  | operator => operator

mutual
/-- A constraint with `enclosing` groups around it: every group at the served depth is the marker, every
sequence an `and` group. -/
def Constraint.served (enclosing : Nat) : Constraint → Constraint
  | .atomic leaf => .atomic leaf
  | .logical operator children =>
    if enclosing = maxServedGroupDepth then servedGroupMarker
    else .logical (servedOperator operator) (Constraint.allServed (enclosing + 1) children)

def Constraint.allServed (enclosing : Nat) : List Constraint → List Constraint
  | [] => []
  | child :: children => child.served enclosing :: allServed enclosing children
end

def Rule.served (rule : Rule) : Rule := ⟨normalizeAction rule.action, rule.constraints.map (Constraint.served 0)⟩

/-- A policy without rules gains one marker obligation. -/
def Policy.served (policy : Policy) : Policy :=
  { policy with
    permissions := policy.permissions.map Rule.served
    prohibitions := policy.prohibitions.map Rule.served
    obligations := policy.obligations.map Rule.served ++
      if policy.rules.isEmpty then [unmappableRule (policyToJson policy)] else [] }

theorem constraintsToJson_eq (children : List Constraint) (groupDepth : Nat) :
    constraintsToJson children groupDepth = children.map fun child => constraintToJson child groupDepth := by
  induction children with
  | nil => rfl
  | cons child children ih => rw [constraintsToJson, ih, List.map_cons]

theorem Constraint.allServed_eq (enclosing : Nat) (children : List Constraint) :
    allServed enclosing children = children.map (served enclosing) := by
  induction children with
  | nil => rfl
  | cons child children ih => rw [allServed, ih, List.map_cons]

theorem readsAtomic_atomicToJson (leaf : AtomicConstraint) : ReadsAtomic (atomicToJson leaf) leaf where
  left := ⟨.string leaf.leftOperand, rfl, rfl⟩
  operator := ⟨.string leaf.operator, rfl, rfl⟩
  right := ⟨.string leaf.rightOperand, rfl, rfl⟩
  ungrouped := rfl

theorem readsGroup_served (operator : LogicalOperator) (entries : Json) :
    ReadsGroup (.object [(servedKey operator, entries)]) (servedKey operator) (servedOperator operator) := by
  cases operator <;> exact ⟨rfl, rfl⟩

theorem aliasedAll_servedKey (operator : LogicalOperator) (entries : Json) :
    aliasedAll (.object [(servedKey operator, entries)]) (servedKey operator) = [entries] := by
  cases operator <;> rfl

theorem parseConstraintWithin_constraintToJson (constraint : Constraint) {levels groupDepth : Nat}
    (within : groupDepth ≤ maxServedGroupDepth) (room : groupDepth + levels = maxConstraintDepth) :
    parseConstraintWithin (levels + 1) (constraintToJson constraint groupDepth) = constraint.served groupDepth := by
  induction constraint generalizing levels groupDepth with
  | atomic leaf =>
    rw [constraintToJson, Constraint.served]
    exact parseConstraintWithin_atomic (readsAtomic_atomicToJson leaf)
  | logical operator children ih =>
    rw [constraintToJson, Constraint.served]
    by_cases deep : groupDepth = maxServedGroupDepth
    · rw [if_pos (Nat.le_of_eq deep.symm), if_pos deep, servedGroupMarker]
      exact parseConstraintWithin_atomic (readsAtomic_atomicToJson _)
    · have shallow : ¬ groupDepth ≥ maxServedGroupDepth := by omega
      have limits : maxServedGroupDepth < maxConstraintDepth := by decide
      rw [if_neg shallow, if_neg deep, parseConstraintWithin_group (readsGroup_served operator _),
        if_neg (by omega), oneOrManyAliased, aliasedAll_servedKey, constraintsToJson_eq, Constraint.allServed_eq]
      -- one level less is left below the group, and one more group encloses what is there
      obtain ⟨below, rfl⟩ : ∃ below, levels = below + 1 := ⟨levels - 1, by omega⟩
      have children_eq : (children.map fun child => constraintToJson child (groupDepth + 1)).map
          (parseConstraintWithin (below + 1)) = children.map (Constraint.served (groupDepth + 1)) := by
        rw [List.map_map]
        exact List.map_congr_left fun child member => ih child member (by omega) (by omega)
      simp only [List.flatMap_cons, List.flatMap_nil, List.append_nil, oneOrMany, children_eq]

theorem lookup_optionalMember (key name : String) (value : Option Json) :
    (optionalMember key value).lookup name = if name = key then value else none := by
  cases value with
  | none => simp [optionalMember]
  | some found =>
    by_cases same : name = key
    · simp [optionalMember, same]
    · simp [optionalMember, same, List.lookup_cons, beq_false_of_ne same]

theorem lookup_singleton (key name : String) (value : Json) :
    [(key, value)].lookup name = if name = key then some value else none := by
  by_cases same : name = key
  · simp [same]
  · simp [same, List.lookup_cons, beq_false_of_ne same]

theorem aliasedAll_ruleToJson (rule : Rule) :
    aliasedAll (ruleToJson rule) "action" = [.string rule.action] ∧
    aliasedAll (ruleToJson rule) "constraint" =
      (nonemptyArray (rule.constraints.map fun constraint => constraintToJson constraint 0)).toList ∧
    ∀ key ∈ ["assignee", "target", "duty"], aliasedAll (ruleToJson rule) key = [] := by
  refine ⟨?_, ?_, ?_⟩
  · simp [aliasedAll, Json.get?, ruleToJson, List.lookup_cons, lookup_optionalMember, odrlNs]
  · cases written : nonemptyArray (rule.constraints.map fun constraint => constraintToJson constraint 0) <;>
      simp [aliasedAll, Json.get?, ruleToJson, List.lookup_cons, lookup_optionalMember, odrlNs, written]
  · simp [aliasedAll, Json.get?, ruleToJson, List.lookup_cons, lookup_optionalMember, odrlNs]

theorem flatMap_nonemptyArray (items : List Json) : (nonemptyArray items).toList.flatMap oneOrMany = items := by
  unfold nonemptyArray
  cases items with
  | nil => rfl
  | cons item items => simp [oneOrMany]

theorem parseRule_ruleToJson (rule : Rule) : parseRule (ruleToJson rule) = rule.served := by
  obtain ⟨action, constraint, others⟩ := aliasedAll_ruleToJson rule
  have node : (ruleToJson rule).isObject = true := rfl
  have read : getField (ruleToJson rule) "action" = .value rule.action := by rw [getField, action]; rfl
  have unheld : ["assignee", "target", "duty"].filterMap (unheldKeyMarker (ruleToJson rule)) = [] := by
    rw [List.filterMap_eq_nil_iff]
    intro key listed
    rw [unheldKeyMarker, others key listed]
    rfl
  have constraints : parseConstraints (oneOrManyAliased (ruleToJson rule) "constraint") =
      rule.constraints.map (Constraint.served 0) := by
    rw [oneOrManyAliased, constraint, flatMap_nonemptyArray, parseConstraints, List.map_map]
    apply List.map_congr_left
    intro constraint _
    exact parseConstraintWithin_constraintToJson constraint (Nat.zero_le _) (Nat.zero_add _)
  rw [parseRule, node, read, unheld, constraints]
  simp [Rule.served]

theorem flatMap_rules (rules : List Rule) :
    ((nonemptyArray (rules.map ruleToJson)).toList.flatMap oneOrMany).map parseRule = rules.map Rule.served := by
  rw [flatMap_nonemptyArray, List.map_map]
  exact List.map_congr_left fun rule _ => parseRule_ruleToJson rule

theorem get?_policyToJson (policy : Policy) (key : String) : (policyToJson policy).get? key =
    if key = "@id" then policy.id.map Json.string
    else if key = "@type" then some (.string (match policy.kind with
      | .set => "Set"
      | .offer => "Offer"
      | .agreement => "Agreement"))
    else if key = "obligation" then nonemptyArray (policy.obligations.map ruleToJson)
    else if key = "odrl:assignee" then policy.assignee.map Json.string
    else if key = "odrl:assigner" then policy.assigner.map Json.string
    else if key = "permission" then nonemptyArray (policy.permissions.map ruleToJson)
    else if key = "prohibition" then nonemptyArray (policy.prohibitions.map ruleToJson)
    else none := by
  rw [policyToJson, Json.get?]
  simp only [List.lookup_append, lookup_optionalMember, lookup_singleton]
  split_ifs <;> simp_all

theorem aliasedAll_policyToJson (policy : Policy) :
    aliasedAll (policyToJson policy) "permission" = (nonemptyArray (policy.permissions.map ruleToJson)).toList ∧
    aliasedAll (policyToJson policy) "prohibition" = (nonemptyArray (policy.prohibitions.map ruleToJson)).toList ∧
    aliasedAll (policyToJson policy) "obligation" = (nonemptyArray (policy.obligations.map ruleToJson)).toList ∧
    aliasedAll (policyToJson policy) "assignee" = (policy.assignee.map Json.string).toList ∧
    aliasedAll (policyToJson policy) "assigner" = (policy.assigner.map Json.string).toList := by
  refine ⟨?_, ?_, ?_, ?_, ?_⟩
  · cases written : nonemptyArray (policy.permissions.map ruleToJson) <;>
      simp [aliasedAll, get?_policyToJson, odrlNs, written]
  · cases written : nonemptyArray (policy.prohibitions.map ruleToJson) <;>
      simp [aliasedAll, get?_policyToJson, odrlNs, written]
  · cases written : nonemptyArray (policy.obligations.map ruleToJson) <;>
      simp [aliasedAll, get?_policyToJson, odrlNs, written]
  · cases written : policy.assignee <;> simp [aliasedAll, get?_policyToJson, odrlNs, written]
  · cases written : policy.assigner <;> simp [aliasedAll, get?_policyToJson, odrlNs, written]

theorem isEmpty_nonemptyArray (rules : List Rule) :
    (nonemptyArray (rules.map ruleToJson)).toList.isEmpty = rules.isEmpty := by
  cases rules <;> rfl

/-- Serving a policy and reading it back keeps it, up to the served form of its groups and actions. -/
theorem parsePolicy_policyToJson (policy : Policy) : parsePolicy (policyToJson policy) = policy.served := by
  obtain ⟨permission, prohibition, obligation, assignee, assigner⟩ := aliasedAll_policyToJson policy
  have permissions : parseRules (policyToJson policy) "permission" = policy.permissions.map Rule.served := by
    rw [parseRules, oneOrManyAliased, permission, flatMap_rules]
  have prohibitions : parseRules (policyToJson policy) "prohibition" = policy.prohibitions.map Rule.served := by
    rw [parseRules, oneOrManyAliased, prohibition, flatMap_rules]
  have obligations : parseRules (policyToJson policy) "obligation" = policy.obligations.map Rule.served := by
    rw [parseRules, oneOrManyAliased, obligation, flatMap_rules]
  -- a list without rules is not served at all
  have ruleless : (ruleKeys.all fun key => (aliasedAll (policyToJson policy) key).isEmpty) = policy.rules.isEmpty := by
    simp only [ruleKeys, List.all_cons, List.all_nil, permission, prohibition, obligation, isEmpty_nonemptyArray,
      Policy.rules, Bool.and_true]
    cases policy.permissions <;> cases policy.prohibitions <;> rfl
  have assigner_read : (getField (policyToJson policy) "assigner").value? = policy.assigner := by
    rw [getField, assigner]
    cases policy.assigner <;> rfl
  have id_read : ((policyToJson policy).get? "@id").bind Json.asStr? = policy.id := by
    rw [get?_policyToJson, if_pos rfl]
    cases policy.id <;> rfl
  have kind_read : parsePolicyKind (policyToJson policy) = policy.kind := by
    rw [parsePolicyKind, get?_policyToJson, if_neg (by decide), if_pos rfl]
    cases policy.kind <;> rfl
  have assignee_read : getField (policyToJson policy) "assignee" = policy.assignee.elim .absent .value := by
    rw [getField, assignee]
    cases policy.assignee <;> rfl
  unfold parsePolicy Policy.served
  rw [permissions, prohibitions, obligations, ruleless, assigner_read, id_read, kind_read, assignee_read]
  cases policy.assignee <;> simp

end CatalogBroker
