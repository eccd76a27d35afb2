import CatalogBroker.Broker.UnmappablePolicies
import CatalogBroker.Library.Fallible

/-! What a constraint tree is mapped to: itself, node by node, or itself without the nodes that cannot be mapped. -/

set_option autoImplicit false

namespace CatalogBroker

open Library Fallible

namespace Constraint

/-- A node of a tree, and how deep it stands. -/
inductive NodeAt : Constraint → Nat → Constraint → Prop
  | root (constraint : Constraint) : NodeAt constraint 0 constraint
  | child {operator : LogicalOperator} {children : List Constraint} {child node : Constraint} {depth : Nat}
      (member : child ∈ children) (below : NodeAt child depth node) :
      NodeAt (.logical operator children) (depth + 1) node

def unmappableAt (depth : Nat) : Constraint → Bool
  | .atomic leaf => depth > maxConstraintDepth || (parseOperator leaf.operator).isNone
  | .logical _ _ => depth > maxConstraintDepth

/-- The same tree in the engine's terms. -/
inductive Image : Constraint → EngineConstraint → Prop
  | atomic {leaf : AtomicConstraint} {operator : Operator} (reads : parseOperator leaf.operator = some operator) :
      Image (.atomic leaf) (.atomic (normalizeLeftOperand leaf.leftOperand) operator leaf.rightOperand)
  | logical {operator : LogicalOperator} {children : List Constraint} {images : List EngineConstraint}
      (each : List.Forall₂ Image children images) : Image (.logical operator children) (.build operator images)

mutual
/-- The tree without the nodes, and what is below them, that `drops` picks at their depth. -/
def prune (drops : Nat → Constraint → Bool) (depth : Nat) : Constraint → Option Constraint
  | .atomic leaf => if drops depth (.atomic leaf) then none else some (.atomic leaf)
  | .logical operator children =>
    if drops depth (.logical operator children) then none
    else some (.logical operator (pruneAll drops (depth + 1) children))

def pruneAll (drops : Nat → Constraint → Bool) (depth : Nat) : List Constraint → List Constraint
  | [] => []
  | child :: children => (prune drops depth child).toList ++ pruneAll drops depth children
end

theorem pruneAll_eq_self {drops : Nat → Constraint → Bool} {depth : Nat} {children : List Constraint}
    (kept : ∀ child ∈ children, prune drops depth child = some child) : pruneAll drops depth children = children := by
  induction children with
  | nil => rfl
  | cons child children ih =>
    rw [List.forall_mem_cons] at kept
    rw [pruneAll, kept.1, ih kept.2]
    rfl

theorem prune_eq_self {drops : Nat → Constraint → Bool} {constraint : Constraint} {depth : Nat}
    (keeps : ∀ level node, constraint.NodeAt level node → drops (depth + level) node = false) :
    prune drops depth constraint = some constraint := by
  induction constraint generalizing depth with
  | atomic leaf =>
    have root := keeps 0 _ (.root _)
    rw [Nat.add_zero] at root
    simp only [prune, root, Bool.false_eq_true, if_false]
  | logical operator children ih =>
    have root := keeps 0 _ (.root _)
    rw [Nat.add_zero] at root
    have below : pruneAll drops (depth + 1) children = children := by
      apply pruneAll_eq_self
      intro child member
      apply ih child member
      intro level node at_level
      have kept := keeps (level + 1) node (.child member at_level)
      rwa [show depth + (level + 1) = depth + 1 + level by omega] at kept
    simp only [prune, root, Bool.false_eq_true, if_false, below]

theorem mappableAt_iff {constraint : Constraint} {depth : Nat} : constraint.mappableAt depth = true ↔
    ∀ level node, constraint.NodeAt level node → node.unmappableAt (depth + level) = false := by
  induction constraint generalizing depth with
  | atomic leaf =>
    rw [mappableAt]
    constructor
    · intro mappable level node at_level
      cases at_level
      simpa [unmappableAt, Nat.lt_succ_iff, Option.isSome_iff_ne_none] using mappable
    · intro keeps
      have root := keeps 0 _ (.root _)
      simpa [unmappableAt, Nat.lt_succ_iff, Option.isSome_iff_ne_none] using root
  | logical operator children ih =>
    rw [mappableAt, allMappableAt_eq, Bool.and_eq_true, decide_eq_true_eq, List.all_eq_true]
    constructor
    · rintro ⟨shallow, each⟩ level node at_level
      cases at_level with
      | root => simpa [unmappableAt] using shallow
      -- one level down in the tree is one level up in the count
      | @child _ _ child _ level member below =>
        have kept := (ih child member).mp (each child member) level node below
        rwa [show depth + 1 + level = depth + (level + 1) by omega] at kept
    · intro keeps
      constructor
      · have root := keeps 0 _ (.root _)
        simpa [unmappableAt] using root
      · intro child member
        rw [ih child member]
        intro level node at_level
        have kept := keeps (level + 1) node (.child member at_level)
        rwa [show depth + (level + 1) = depth + 1 + level by omega] at kept

theorem mappableAt_zero_iff {constraint : Constraint} : constraint.mappableAt 0 = true ↔
    ∀ depth node, constraint.NodeAt depth node → node.unmappableAt depth = false := by
  have whole : constraint.mappableAt 0 = true ↔
      ∀ level node, constraint.NodeAt level node → node.unmappableAt (0 + level) = false := mappableAt_iff
  simpa only [Nat.zero_add] using whole

end Constraint

variable {config : PolicyFilterConfig}

theorem unmappableOutcome_eq_ok {result : Option EngineConstraint} (outcome : unmappableOutcome config = .ok result) :
    result = none := by
  unfold unmappableOutcome at outcome
  split at outcome
  · exact (Except.ok.inj outcome).symm
  · cases outcome
  · cases outcome

theorem mapChildren_image {children : List Constraint} {depth : Nat} {images : List EngineConstraint}
    (each : ∀ child ∈ children, ∀ result, catalogConstraintToEngineConstraintAtDepth config child depth = .ok result →
      Option.Rel Constraint.Image (child.prune Constraint.unmappableAt depth) result)
    (mapped : mapChildren config children depth = .ok images) :
    List.Forall₂ Constraint.Image (Constraint.pruneAll Constraint.unmappableAt depth children) images := by
  induction children generalizing images with
  | nil =>
    cases mapped
    exact .nil
  | cons child children ih =>
    rw [List.forall_mem_cons] at each
    rw [mapChildren] at mapped
    obtain ⟨result, first, mapped⟩ := bind_eq_ok.mp mapped
    obtain ⟨rest, later, same⟩ := bind_eq_ok.mp mapped
    cases same
    apply List.rel_append
    · exact Listing.forall₂_toList (each.1 result first)
    · exact ih each.2 later

/-- Whatever the setting, a mapping that succeeds returns the image of the tree without the nodes it could not map. -/
theorem mapped_image {constraint : Constraint} {depth : Nat} {result : Option EngineConstraint}
    (mapped : catalogConstraintToEngineConstraintAtDepth config constraint depth = .ok result) :
    Option.Rel Constraint.Image (constraint.prune Constraint.unmappableAt depth) result := by
  induction constraint generalizing depth result with
  | atomic leaf =>
    rw [catalogConstraintToEngineConstraintAtDepth] at mapped
    by_cases deep : depth > maxConstraintDepth
    · rw [if_pos deep] at mapped
      -- what is pruned is what the mapping leaves out
      simp only [Constraint.prune, Constraint.unmappableAt, deep, decide_true, Bool.true_or, if_true,
        unmappableOutcome_eq_ok mapped]
      exact .none
    · rw [if_neg deep] at mapped
      cases reads : parseOperator leaf.operator with
      | none =>
        simp only [reads] at mapped
        simp only [Constraint.prune, Constraint.unmappableAt, reads, Option.isNone_none, Bool.or_true, if_true,
          unmappableOutcome_eq_ok mapped]
        exact .none
      | some operator =>
        simp only [reads] at mapped
        cases mapped
        simp only [Constraint.prune, Constraint.unmappableAt, deep, reads, decide_false, Option.isNone_some,
          Bool.or_false, Bool.false_eq_true, if_false]
        exact .some (.atomic reads)
  | logical operator children ih =>
    rw [catalogConstraintToEngineConstraintAtDepth] at mapped
    by_cases deep : depth > maxConstraintDepth
    · rw [if_pos deep] at mapped
      simp only [Constraint.prune, Constraint.unmappableAt, deep, decide_true, if_true,
        unmappableOutcome_eq_ok mapped]
      exact .none
    · rw [if_neg deep] at mapped
      obtain ⟨images, below, same⟩ := bind_eq_ok.mp mapped
      cases same
      simp only [Constraint.prune, Constraint.unmappableAt, deep, decide_false, Bool.false_eq_true, if_false]
      exact .some (.logical (mapChildren_image (fun child member _ => ih child member) below))

theorem strict_refuses_iff (strict : config.unmappableConstraintAction ≠ .skipConstraint) {constraint : Constraint} :
    catalogConstraintToEngineConstraint config constraint = .error .unmappableConstraint ↔
      ∃ depth node, constraint.NodeAt depth node ∧ node.unmappableAt depth = true := by
  have decides := catalogConstraintToEngineConstraintAtDepth_isOk strict constraint 0
  have refused : constraint.mappableAt 0 = false ↔
      ∃ depth node, constraint.NodeAt depth node ∧ node.unmappableAt depth = true := by
    rw [← Bool.not_eq_true, Constraint.mappableAt_zero_iff]
    push Not
    simp only [ne_eq, Bool.not_eq_false]
  rw [← refused, ← decides]
  unfold catalogConstraintToEngineConstraint
  cases catalogConstraintToEngineConstraintAtDepth config constraint 0 with
  | error e => exact iff_of_true rfl rfl
  | ok result => exact iff_of_false (by simp) (by simp [Except.isOk, Except.toBool])

theorem exists_mapped_image {constraint : Constraint}
    (maps : (catalogConstraintToEngineConstraintAtDepth config constraint 0).isOk = true) :
    ∃ result, catalogConstraintToEngineConstraint config constraint = .ok result ∧
      Option.Rel Constraint.Image (constraint.prune Constraint.unmappableAt 0) result := by
  unfold catalogConstraintToEngineConstraint
  cases mapped : catalogConstraintToEngineConstraintAtDepth config constraint 0 with
  | error e =>
    rw [mapped] at maps
    cases maps
  | ok result => exact ⟨result, rfl, mapped_image mapped⟩

theorem strict_maps_whole (strict : config.unmappableConstraintAction ≠ .skipConstraint) {constraint : Constraint}
    (keeps : ∀ depth node, constraint.NodeAt depth node → node.unmappableAt depth = false) :
    ∃ image, catalogConstraintToEngineConstraint config constraint = .ok (some image) ∧ constraint.Image image := by
  have maps := catalogConstraintToEngineConstraintAtDepth_isOk strict constraint 0
  rw [Constraint.mappableAt_zero_iff.mpr keeps] at maps
  obtain ⟨result, mapped, relation⟩ := exists_mapped_image maps
  -- Nothing is pruned, so the image is that of the tree itself.
  rw [Constraint.prune_eq_self (by simpa only [Nat.zero_add] using keeps)] at relation
  cases relation with
  | some image => exact ⟨_, mapped, image⟩

theorem skipping_prunes (skipping : config.unmappableConstraintAction = .skipConstraint) (constraint : Constraint) :
    ∃ result, catalogConstraintToEngineConstraint config constraint = .ok result ∧
      Option.Rel Constraint.Image (constraint.prune Constraint.unmappableAt 0) result :=
  exists_mapped_image (catalogConstraintToEngineConstraintAtDepth_isOk_of_skip skipping constraint 0)

theorem skipping_never_fails (skipping : config.unmappableConstraintAction = .skipConstraint) (policy : Policy)
    (fallbackId : String) :
    ∃ wirePolicy, catalogPolicyToWirePolicy config policy fallbackId = .ok (some wirePolicy) := by
  have maps := mapPolicy_isOk_of_skip skipping policy fallbackId
  unfold catalogPolicyToWirePolicy
  cases mapped : mapPolicy config policy fallbackId with
  | ok wirePolicy => exact ⟨wirePolicy, rfl⟩
  | error e =>
    rw [mapped] at maps
    cases maps

theorem unreachable_not_reached (config : PolicyFilterConfig) (policy : Policy) (fallbackId : String) :
    catalogPolicyToWirePolicy config policy fallbackId ≠ .error .unreachable := by
  cases setting : config.unmappableConstraintAction with
  | skipConstraint =>
    obtain ⟨wirePolicy, mapped⟩ := skipping_never_fails setting policy fallbackId
    simp [mapped]
  | dropPolicy =>
    unfold catalogPolicyToWirePolicy
    cases mapPolicy config policy fallbackId <;> simp [setting]
  | hideDataset =>
    unfold catalogPolicyToWirePolicy
    cases mapPolicy config policy fallbackId <;> simp [setting]

/-- A strict setting maps a tree whole or refuses it for one of its nodes, a skipping one leaves exactly those nodes
out, and so no policy reaches the branch that would panic. -/
theorem constraint_mapping_exact (config : PolicyFilterConfig) (constraint : Constraint) :
    (config.unmappableConstraintAction ≠ .skipConstraint →
      (catalogConstraintToEngineConstraint config constraint = .error .unmappableConstraint ↔
        ∃ depth node, constraint.NodeAt depth node ∧ node.unmappableAt depth = true) ∧
      ((∀ depth node, constraint.NodeAt depth node → node.unmappableAt depth = false) →
        ∃ image, catalogConstraintToEngineConstraint config constraint = .ok (some image) ∧
          constraint.Image image)) ∧
    (config.unmappableConstraintAction = .skipConstraint →
      ∃ result, catalogConstraintToEngineConstraint config constraint = .ok result ∧
        Option.Rel Constraint.Image (constraint.prune Constraint.unmappableAt 0) result) ∧
    ∀ policy fallbackId, catalogPolicyToWirePolicy config policy fallbackId ≠ .error .unreachable := by
  refine ⟨?_, ?_, unreachable_not_reached config⟩
  · intro strict
    exact ⟨strict_refuses_iff strict, strict_maps_whole strict⟩
  · intro skipping
    exact skipping_prunes skipping constraint

end CatalogBroker
