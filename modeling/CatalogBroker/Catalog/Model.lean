import CatalogBroker.Library.Text

/-! The harvested catalog: datasets, data services and their ODRL policies.

A constraint is atomic or a named group of constraints. `height` counts the
group levels below a constraint; every crate bounds it by one shared limit.
-/

set_option autoImplicit false

namespace CatalogBroker

open Library

structure NodeId where
  id : String
  deriving DecidableEq, Repr

structure Distribution where
  format : String
  accessService : String
  deriving DecidableEq, Repr

structure DataService where
  id : String
  endpointUrl : String
  endpointDescription : Option String
  deriving DecidableEq, Repr

inductive PolicyKind where
  | set
  | offer
  | agreement
  deriving DecidableEq, Repr, Inhabited

structure AtomicConstraint where
  leftOperand : String
  operator : String
  rightOperand : String
  deriving DecidableEq, Repr

/-- Which of the four variants of `LogicalConstraint` a group is. All four carry
the same payload, a vector of constraints. -/
inductive LogicalOperator where
  | and
  | or
  | xone
  | andSequence
  deriving DecidableEq, Repr

inductive Constraint where
  | atomic (constraint : AtomicConstraint)
  | logical (operator : LogicalOperator) (children : List Constraint)
  deriving Repr

mutual
def Constraint.decEq : (left right : Constraint) → Decidable (left = right)
  | .atomic left, .atomic right =>
    if same : left = right then .isTrue (by rw [same]) else .isFalse (by simpa using same)
  | .logical operator left, .logical other right =>
    if same : operator = other then
      match decEqAll left right with
      | .isTrue children => .isTrue (by rw [same, children])
      | .isFalse children => .isFalse (by simp [children])
    else .isFalse (by simp [same])
  | .atomic _, .logical _ _ => .isFalse (by simp)
  | .logical _ _, .atomic _ => .isFalse (by simp)

def Constraint.decEqAll : (left right : List Constraint) → Decidable (left = right)
  | [], [] => .isTrue rfl
  | left :: lefts, right :: rights =>
    match Constraint.decEq left right, decEqAll lefts rights with
    | .isTrue head, .isTrue tail => .isTrue (by rw [head, tail])
    | .isFalse head, _ => .isFalse (by simp [head])
    | _, .isFalse tail => .isFalse (by simp [tail])
  | [], _ :: _ => .isFalse (by simp)
  | _ :: _, [] => .isFalse (by simp)
end

instance : DecidableEq Constraint := Constraint.decEq

/-- Induction over a constraint tree, with the hypothesis for every child of a group. -/
@[elab_as_elim, induction_eliminator]
theorem Constraint.induction {motive : Constraint → Prop}
    (atomic : ∀ constraint, motive (.atomic constraint))
    (logical : ∀ operator children, (∀ child ∈ children, motive child) → motive (.logical operator children))
    (constraint : Constraint) : motive constraint :=
  @Constraint.rec motive (fun children => ∀ child ∈ children, motive child)
    atomic logical (by simp)
    (fun _ _ head tail => by simpa using ⟨head, tail⟩) constraint

structure Rule where
  action : String
  constraints : List Constraint
  deriving DecidableEq, Repr

structure Policy where
  id : Option String
  kind : PolicyKind
  assigner : Option String
  assignee : Option String
  permissions : List Rule
  prohibitions : List Rule
  obligations : List Rule
  deriving DecidableEq, Repr

/-- `BTreeMap<String, String>`: entries in key order, one value for each key. -/
abbrev Properties := Std.ExtTreeMap String String

structure Dataset where
  id : String
  properties : Properties
  distributions : List Distribution
  policies : List Policy
  deriving DecidableEq

structure Catalog where
  id : String
  originNode : NodeId
  participantId : Option String
  datasets : List Dataset
  dataServices : List DataService
  properties : Properties
  deriving DecidableEq

/-- Operator of the marker that stands for policy content the crawler could not read. -/
def unmappableOperator : String := "urn:ds42:broker:unmappable"

def unmappableAction : String := "urn:ds42:broker:unmappable-action"

def odrlNs : String := "http://www.w3.org/ns/odrl/2/"

/-- The spellings of an ODRL term: the bare name, the prefixed name and the full IRI. -/
def spellings (term : String) : List String := [term, "odrl:" ++ term, odrlNs ++ term]

def unmappableExcerptMax : Nat := 256

/-- How many group levels the crawler, the store and the policy filter accept. -/
def maxConstraintDepth : Nat := 64

def normalizeAction (action : String) : String :=
  if action = "" then ""
  else match Text.stripPrefix action odrlNs with
    | some name => "odrl:" ++ name
    | none => if ':' ∈ action.toList then action else "odrl:" ++ action

/-- The marker constraint for content `raw`, kept truncated for diagnosis. -/
def Constraint.unmappable (raw : String) : Constraint :=
  .atomic ⟨"", unmappableOperator, String.ofList (raw.toList.take unmappableExcerptMax)⟩

def Constraint.isUnmappable : Constraint → Bool
  | .atomic constraint => constraint.operator = unmappableOperator
  | .logical _ _ => false

@[simp] theorem Constraint.isUnmappable_unmappable (raw : String) :
    (Constraint.unmappable raw).isUnmappable = true := by
  simp [unmappable, isUnmappable]

/-- The four combinators with their ODRL local names, in the precedence the engine
applies when a node carries more than one of them. -/
def logicalConstraintBuilders : List (String × LogicalOperator) :=
  [("xone", .xone), ("or", .or), ("and", .and), ("andSequence", .andSequence)]

mutual
/-- Group levels below a constraint: the depth of its deepest node. -/
def Constraint.height : Constraint → Nat
  | .atomic _ => 0
  | .logical _ children => Constraint.heightAll children

/-- One more than the greatest height, zero for no constraints. -/
def Constraint.heightAll : List Constraint → Nat
  | [] => 0
  | child :: children => max (child.height + 1) (heightAll children)
end

theorem Constraint.heightAll_le_iff {children : List Constraint} {limit : Nat} :
    heightAll children ≤ limit ↔ ∀ child ∈ children, child.height + 1 ≤ limit := by
  induction children with
  | nil => simp [heightAll]
  | cons child children ih => simp [heightAll, ih]

theorem Constraint.height_logical_le_iff {operator : LogicalOperator} {children : List Constraint}
    {limit : Nat} : (Constraint.logical operator children).height ≤ limit ↔
      ∀ child ∈ children, child.height + 1 ≤ limit := by
  rw [height, heightAll_le_iff]

def Policy.rules (policy : Policy) : List Rule :=
  policy.permissions ++ policy.prohibitions ++ policy.obligations

/-- Every constraint tree of the policy stays within the shared depth limit. -/
def Policy.NestsWithin (policy : Policy) (limit : Nat) : Prop :=
  ∀ rule ∈ policy.rules, ∀ constraint ∈ rule.constraints, constraint.height ≤ limit

instance (policy : Policy) (limit : Nat) : Decidable (policy.NestsWithin limit) :=
  inferInstanceAs (Decidable (∀ rule ∈ policy.rules, ∀ constraint ∈ rule.constraints,
    constraint.height ≤ limit))

def Catalog.NestsWithin (catalog : Catalog) (limit : Nat) : Prop :=
  ∀ dataset ∈ catalog.datasets, ∀ policy ∈ dataset.policies, policy.NestsWithin limit

instance (catalog : Catalog) (limit : Nat) : Decidable (catalog.NestsWithin limit) :=
  inferInstanceAs (Decidable (∀ dataset ∈ catalog.datasets, ∀ policy ∈ dataset.policies,
    policy.NestsWithin limit))

end CatalogBroker
