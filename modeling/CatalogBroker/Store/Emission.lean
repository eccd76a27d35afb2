import CatalogBroker.Store.WrittenResources

/-! The writer emits exactly its catalog's resources, or refuses over-deep nesting.

One lemma a writer, following the writers' own recursion; order is dropped
since a store keeps a set of quads.
-/

set_option autoImplicit false

namespace CatalogBroker

open Library Library.Descriptions

/-- A writer's result: the quads of `expected` when `fits`, an error otherwise. -/
structure Writes (result : StoreResult (List Quad)) (fits : Prop) (expected : List Quad) : Prop where
  emits : fits → ∃ quads, result = .ok quads ∧ ∀ quad, quad ∈ quads ↔ quad ∈ expected
  refuses : ¬ fits → ∃ error, result = .error error

namespace Writes

theorem ok {quads expected : List Quad} (same : ∀ quad, quad ∈ quads ↔ quad ∈ expected) :
    Writes (.ok quads) True expected where
  emits _ := ⟨quads, rfl, same⟩
  refuses impossible := absurd trivial impossible

theorem bind {result : StoreResult (List Quad)} {next : List Quad → StoreResult (List Quad)}
    {fits more : Prop} {expected whole : List Quad} (first : Writes result fits expected)
    (second : ∀ quads, (∀ quad, quad ∈ quads ↔ quad ∈ expected) → Writes (next quads) more whole) :
    Writes (result >>= next) (fits ∧ more) whole where
  emits := by
    rintro ⟨fitting, fittingMore⟩
    obtain ⟨quads, rfl, same⟩ := first.emits fitting
    exact (second quads same).emits fittingMore
  refuses := by
    intro unfit
    by_cases fitting : fits
    · obtain ⟨quads, rfl, same⟩ := first.emits fitting
      exact (second quads same).refuses fun fittingMore => unfit ⟨fitting, fittingMore⟩
    · obtain ⟨error, rfl⟩ := first.refuses fitting
      exact ⟨error, rfl⟩

theorem congr {result : StoreResult (List Quad)} {fits other : Prop} {expected : List Quad}
    (same : fits ↔ other) (writes : Writes result fits expected) : Writes result other expected where
  emits fitting := writes.emits (same.mpr fitting)
  refuses unfit := writes.refuses fun fitting => unfit (same.mp fitting)

theorem each {α : Type} {items : List α} {emit : Nat → α → StoreResult (List Quad)} {fits : α → Prop}
    {expected : Nat → α → List Quad}
    (pass : ∀ index, ∀ item ∈ items, Writes (emit index item) (fits item) (expected index item)) :
    Writes (writeEach items emit) (∀ item ∈ items, fits item) (items.mapIdx expected).flatten := by
  induction items generalizing emit expected with
  | nil => exact (ok fun _ => .rfl).congr (by simp)
  | cons item items ih =>
    have rest : Writes (writeEach items fun index => emit (index + 1)) (∀ item ∈ items, fits item)
        (items.mapIdx fun index => expected (index + 1)).flatten :=
      ih fun index other member => pass (index + 1) other (by simp [member])
    have both : Writes (writeEach (item :: items) emit) (fits item ∧ (∀ item ∈ items, fits item) ∧ True)
        (List.mapIdx expected (item :: items)).flatten :=
      (pass 0 item (by simp)).bind fun first sameFirst => rest.bind fun others sameOthers =>
        ok fun quad => by simp [sameFirst, sameOthers, List.mapIdx_cons]
    exact both.congr (by simp)

end Writes

theorem mem_flatten_mapIdx_congr {α : Type} {items : List α} {first second : Nat → α → List Quad}
    (same : ∀ index item quad, quad ∈ first index item ↔ quad ∈ second index item) {quad : Quad} :
    quad ∈ (items.mapIdx first).flatten ↔ quad ∈ (items.mapIdx second).flatten := by
  simp only [List.mem_flatten, List.mem_mapIdx]
  constructor
  · rintro ⟨_, ⟨index, bound, rfl⟩, member⟩
    exact ⟨_, ⟨index, bound, rfl⟩, (same _ _ _).mp member⟩
  · rintro ⟨_, ⟨index, bound, rfl⟩, member⟩
    exact ⟨_, ⟨index, bound, rfl⟩, (same _ _ _).mpr member⟩

def quadsOf (graph : NamedNode) (descriptions : List (Description NamedNode NamedNode Term)) : List Quad :=
  (triples descriptions).map fun triple => insertQuad graph triple.1 triple.2.1 triple.2.2

theorem mem_quadsOf {graph : NamedNode} {descriptions : List (Description NamedNode NamedNode Term)}
    {quad : Quad} : quad ∈ quadsOf graph descriptions ↔
      ∃ description ∈ descriptions, ∃ statement ∈ description.2,
        quad = insertQuad graph description.1 statement.1 statement.2 := by
  constructor
  · intro member
    obtain ⟨⟨node, statement⟩, stated, rfl⟩ := List.mem_map.mp member
    obtain ⟨statements, described, included⟩ := mem_triples.mp stated
    exact ⟨(node, statements), described, statement, included, rfl⟩
  · rintro ⟨⟨node, statements⟩, described, statement, included, rfl⟩
    exact List.mem_map.mpr ⟨(node, statement), mem_triples.mpr ⟨statements, described, included⟩, rfl⟩

section

variable (text : IriText) (graph : NamedNode) (base : String)

/-- What a resource at `path` emits itself. -/
def ownQuads (path : List PathSegment) (statements : List (NamedNode × Term)) : List Quad :=
  statements.map fun statement => insertQuad graph (resourceIri base path) statement.1 statement.2

/-- What a resource at `path` emits for one branch: the link, then the branch's own quads. -/
def branchQuads (path : List PathSegment) (branch : StoredBranch) : List Quad :=
  insertQuad graph (resourceIri base path) branch.1 (.namedNode (resourceIri base (path ++ branch.2.1))) ::
    quadsOf graph (describeAt base (path ++ branch.2.1) branch.2.2)

theorem mem_quadsOf_node {path : List PathSegment} {statements : List (NamedNode × Term)}
    {branches : List StoredBranch} {quad : Quad} :
    quad ∈ quadsOf graph (describeAt base path (.node statements branches)) ↔
      quad ∈ ownQuads graph base path statements ++ branches.flatMap (branchQuads graph base path) := by
  simp only [describeAt, Resource.describe, Resource.describeAll_eq, mem_quadsOf, ownQuads, branchQuads,
    List.mem_append, List.mem_map, List.mem_flatMap, List.mem_cons]
  constructor
  · rintro ⟨description, rfl | ⟨branch, inBranches, below⟩, statement, stated, rfl⟩
    · rcases List.mem_append.mp stated with own | link
      · exact .inl ⟨statement, own, rfl⟩
      · obtain ⟨branch, inBranches, rfl⟩ := List.mem_map.mp link
        exact .inr ⟨branch, inBranches, .inl rfl⟩
    · exact .inr ⟨branch, inBranches, .inr ⟨description, below, statement, stated, rfl⟩⟩
  · rintro (⟨statement, own, rfl⟩ | ⟨branch, inBranches, rfl | ⟨description, below, statement, stated, rfl⟩⟩)
    · exact ⟨_, .inl rfl, statement, List.mem_append_left _ own, rfl⟩
    · exact ⟨_, .inl rfl, _, List.mem_append_right _ (List.mem_map.mpr ⟨branch, inBranches, rfl⟩), rfl⟩
    · exact ⟨description, .inr ⟨branch, inBranches, below⟩, statement, stated, rfl⟩

theorem flatMap_mapIdx {α : Type} (branches : Nat → α → StoredBranch) (items : List α)
    (path : List PathSegment) :
    (items.mapIdx branches).flatMap (branchQuads graph base path) =
      (items.mapIdx fun index item => branchQuads graph base path (branches index item)).flatten := by
  exact congrArg List.flatten (List.ext_getElem (by simp) (by simp))

theorem writeChildren_writes {children : List Constraint}
    (below : ∀ child ∈ children, ∀ path index depth,
      Writes (writeConstraint text graph child (resourceIri base path) index depth)
        (depth + child.height ≤ maxConstraintDepth)
        (quadsOf graph (describeAt base path (constraintResource text child index))))
    (path : List PathSegment) (predicate : NamedNode) (start depth : Nat) :
    Writes (writeChildren text graph children (resourceIri base path) predicate start depth)
      (∀ child ∈ children, depth + 1 + child.height ≤ maxConstraintDepth)
      ((childBranches text children predicate start).flatMap (branchQuads graph base path)) := by
  induction children generalizing start with
  | nil => exact (Writes.ok fun _ => .rfl).congr (by simp)
  | cons child children ih =>
    have rest := ih (fun other member => below other (by simp [member])) (start + 1)
    -- A child stands one level deeper than its group, at the position it has in the list.
    have own := below child (by simp) (path ++ [constraintsSegment, indexSegment start]) start (depth + 1)
    rw [← constraintIri_resourceIri] at own
    have both : Writes
        (writeChildren text graph (child :: children) (resourceIri base path) predicate start depth)
        (depth + 1 + child.height ≤ maxConstraintDepth ∧
          (∀ child ∈ children, depth + 1 + child.height ≤ maxConstraintDepth) ∧ True)
        ((childBranches text (child :: children) predicate start).flatMap (branchQuads graph base path)) :=
      own.bind fun first sameFirst => rest.bind fun others sameOthers => Writes.ok fun quad => by
        simp [childBranches, branchQuads, sameFirst, sameOthers, constraintIri_resourceIri]
    exact both.congr (by simp)

/-- One constraint, by induction on its tree: a node at `depth` fits when the deepest node below does. -/
theorem writeConstraint_writes (constraint : Constraint) (path : List PathSegment) (index depth : Nat) :
    Writes (writeConstraint text graph constraint (resourceIri base path) index depth)
      (depth + constraint.height ≤ maxConstraintDepth)
      (quadsOf graph (describeAt base path (constraintResource text constraint index))) := by
  induction constraint generalizing path index depth with
  | atomic atomic =>
    by_cases deep : depth > maxConstraintDepth
    · refine ⟨fun fits => absurd fits (by simp [Constraint.height]; omega), fun _ => ?_⟩
      exact ⟨_, by rw [writeConstraint, if_pos deep]⟩
    · rw [writeConstraint, if_neg deep]
      refine (Writes.ok fun quad => ?_).congr (by simp [Constraint.height]; omega)
      rw [constraintResource, mem_quadsOf_node]
      simp [ownQuads, positionStatement]
  | logical operator children below =>
    by_cases deep : depth > maxConstraintDepth
    · refine ⟨fun fits => absurd fits (by omega), fun _ => ?_⟩
      exact ⟨_, by rw [writeConstraint, if_pos deep]⟩
    · rw [writeConstraint, if_neg deep]
      have group := writeChildren_writes text graph base below path operator.predicate 0 depth
      -- The group fits when all children do, which is what its own height says; the depth only shifts it.
      have fits : (∀ child ∈ children, depth + 1 + child.height ≤ maxConstraintDepth) ∧ True ↔
          depth + (Constraint.logical operator children).height ≤ maxConstraintDepth := by
        have room : ∀ height, depth + height ≤ maxConstraintDepth ↔ height ≤ maxConstraintDepth - depth := by
          omega
        rw [and_true, room, Constraint.height_logical_le_iff]
        exact forall₂_congr fun child _ => by omega
      refine Writes.congr fits (group.bind fun quads same => Writes.ok fun quad => ?_)
      rw [constraintResource, mem_quadsOf_node]
      simp [ownQuads, positionStatement, same]

theorem writeRule_writes (rule : Rule) (path : List PathSegment) (index : Nat) :
    Writes (writeRule text graph rule (resourceIri base path) index)
      (∀ constraint ∈ rule.constraints, constraint.height ≤ maxConstraintDepth)
      (quadsOf graph (describeAt base path (ruleResource text rule index))) := by
  have constraints : Writes _ (∀ constraint ∈ rule.constraints, constraint.height ≤ maxConstraintDepth) _ :=
    Writes.each fun position constraint _ => by
      have own := writeConstraint_writes text graph base constraint
        (path ++ [constraintsSegment, indexSegment position]) position 0
      rw [← constraintIri_resourceIri] at own
      have linked : Writes (do
          let constraintNode := constraintIri (resourceIri base path).iri position
          let below ← writeConstraint text graph constraint constraintNode position 0
          return insertQuad graph (resourceIri base path) odrlConstraintPred (.namedNode constraintNode) ::
            below) (0 + constraint.height ≤ maxConstraintDepth ∧ True)
          (branchQuads graph base path (constraintBranch text odrlConstraintPred position constraint)) :=
        own.bind fun quads same => Writes.ok fun quad => by
          simp [branchQuads, constraintBranch, same, constraintIri_resourceIri]
      exact linked.congr (by simp)
  have whole : Writes (writeRule text graph rule (resourceIri base path) index) (_ ∧ True)
      (quadsOf graph (describeAt base path (ruleResource text rule index))) :=
    constraints.bind fun quads same => Writes.ok fun quad => by
      rw [ruleResource, mem_quadsOf_node, flatMap_mapIdx]
      simp only [ownQuads, positionStatement, List.mem_append, List.mem_cons, List.map_cons, List.map_nil,
        List.not_mem_nil, or_false, same, or_assoc]
  exact whole.congr (and_iff_left trivial)

/-- What a rule needs to be written. -/
def Rule.Fits (rule : Rule) : Prop := ∀ constraint ∈ rule.constraints, constraint.height ≤ maxConstraintDepth

theorem writeRules_writes (rules : List Rule) (path : List PathSegment) (predicate : NamedNode)
    (segment : PathSegment) :
    Writes (writeRules text graph rules (resourceIri base path) predicate segment.val)
      (∀ rule ∈ rules, rule.Fits)
      ((rules.mapIdx (ruleBranch text predicate segment)).flatMap (branchQuads graph base path)) := by
  rw [flatMap_mapIdx]
  refine Writes.each fun index rule _ => ?_
  have own := writeRule_writes text graph base rule (path ++ [segment, indexSegment index]) index
  rw [← ruleIri_resourceIri] at own
  have linked : Writes (do
      let ruleNode := ruleIri (resourceIri base path).iri segment.val index
      let below ← writeRule text graph rule ruleNode index
      return insertQuad graph (resourceIri base path) predicate (.namedNode ruleNode) :: below)
      (rule.Fits ∧ True) (branchQuads graph base path (ruleBranch text predicate segment index rule)) :=
    own.bind fun quads same => Writes.ok fun quad => by
      simp [branchQuads, ruleBranch, same, ruleIri_resourceIri]
  exact linked.congr (and_iff_left trivial)

theorem Policy.nestsWithin_iff {policy : Policy} : policy.NestsWithin maxConstraintDepth ↔
    (∀ rule ∈ policy.permissions, rule.Fits) ∧ (∀ rule ∈ policy.prohibitions, rule.Fits) ∧
      ∀ rule ∈ policy.obligations, rule.Fits := by
  simp [NestsWithin, rules, Rule.Fits, or_imp, forall_and]

theorem writePolicy_writes (policy : Policy) (path : List PathSegment) (index : Nat) :
    Writes (writePolicy text graph policy (resourceIri base path) index)
      (policy.NestsWithin maxConstraintDepth)
      (quadsOf graph (describeAt base path (policyResource text policy index))) := by
  have permissions := writeRules_writes text graph base policy.permissions path odrlPermissionPred
    permissionsSegment
  have prohibitions := writeRules_writes text graph base policy.prohibitions path odrlProhibitionPred
    prohibitionsSegment
  have obligations := writeRules_writes text graph base policy.obligations path odrlObligationPred
    obligationsSegment
  have whole : Writes (writePolicy text graph policy (resourceIri base path) index) (_ ∧ _ ∧ _ ∧ True)
      (quadsOf graph (describeAt base path (policyResource text policy index))) :=
    permissions.bind fun _ samePermissions => prohibitions.bind fun _ sameProhibitions =>
      obligations.bind fun _ sameObligations => Writes.ok fun quad => by
        rw [policyResource, mem_quadsOf_node, ruleBranches]
        simp only [List.flatMap_append, List.mem_append, ← samePermissions, ← sameProhibitions,
          ← sameObligations, ownQuads, policyStatements, positionStatement, List.map_cons, List.map_append,
          List.map_map, Function.comp_def, List.mem_cons, List.cons_append, or_assoc]
  rw [Policy.nestsWithin_iff]
  exact whole.congr (by rw [and_true])

theorem mem_writeProperties {properties : Properties} {path : List PathSegment} {quad : Quad} :
    quad ∈ writeProperties text graph properties (resourceIri base path) ↔
      quad ∈ ownQuads graph base path (propertyStatements text properties) := by
  simp [writeProperties, ownQuads, propertyStatements]

theorem mem_writeDistribution {datasetId : String} {index : Nat} {distribution : Distribution} {quad : Quad} :
    quad ∈ writeDistribution text graph base datasetId (datasetIri text base datasetId) index distribution ↔
      quad ∈ branchQuads graph base (datasetPath text datasetId)
        (distributionBranch text base index distribution) := by
  simp only [writeDistribution, branchQuads, distributionBranch, distributionResource, datasetIri_eq,
    distributionIri_eq, List.mem_cons, mem_quadsOf_node, datasetPath]
  simp [ownQuads, positionStatement]

theorem writeDataset_writes (catalog : NamedNode) (index : Nat) (dataset : Dataset) :
    Writes (writeDataset text graph base catalog index dataset)
      (∀ policy ∈ dataset.policies, policy.NestsWithin maxConstraintDepth)
      (insertQuad graph catalog dcatDatasetPred (.namedNode (datasetIri text base dataset.id)) ::
        quadsOf graph (describeAt base (datasetPath text dataset.id)
          (datasetResource text base dataset index))) := by
  have policies : Writes _ (∀ policy ∈ dataset.policies, policy.NestsWithin maxConstraintDepth) _ :=
    Writes.each fun position policy _ => by
      have own := writePolicy_writes text graph base policy
        (datasetPath text dataset.id ++ [policiesSegment, indexSegment position]) position
      rw [datasetPath, ← policyIri_eq] at own
      have linked : Writes (do
          let policyNode := policyIri text base dataset.id position
          let below ← writePolicy text graph policy policyNode position
          return insertQuad graph (datasetIri text base dataset.id) odrlHasPolicyPred
            (.namedNode policyNode) :: below) (policy.NestsWithin maxConstraintDepth ∧ True)
          (branchQuads graph base (datasetPath text dataset.id) (policyBranch text position policy)) :=
        own.bind fun quads same => Writes.ok fun quad => by
          simp [branchQuads, policyBranch, same, policyIri_eq, datasetIri_eq, datasetPath]
      exact linked.congr (and_iff_left trivial)
  -- only the policies can fail to be written
  have whole : Writes (writeDataset text graph base catalog index dataset) (_ ∧ True)
      (insertQuad graph catalog dcatDatasetPred (.namedNode (datasetIri text base dataset.id)) ::
        quadsOf graph (describeAt base (datasetPath text dataset.id)
          (datasetResource text base dataset index))) :=
    policies.bind fun quads same => Writes.ok fun quad => by
      rw [List.mem_cons, datasetResource, mem_quadsOf_node, datasetBranches, List.flatMap_append,
        flatMap_mapIdx, flatMap_mapIdx]
      have distributions : ∀ quad, quad ∈ (dataset.distributions.mapIdx
          (writeDistribution text graph base dataset.id (datasetIri text base dataset.id))).flatten ↔
          quad ∈ (dataset.distributions.mapIdx fun position distribution => branchQuads graph base
            (datasetPath text dataset.id) (distributionBranch text base position distribution)).flatten :=
        fun quad => mem_flatten_mapIdx_congr fun _ _ _ => mem_writeDistribution text graph base
      simp only [List.mem_cons, List.mem_append, same, distributions]
      simp only [ownQuads, datasetStatements, positionStatement, List.map_cons, List.mem_cons, datasetIri_eq,
        datasetPath, mem_writeProperties, or_assoc]
  exact whole.congr (and_iff_left trivial)

theorem mem_writeDataService {catalog : NamedNode} {index : Nat} {service : DataService} {quad : Quad} :
    quad ∈ writeDataService text graph base catalog index service ↔
      quad ∈ insertQuad graph catalog dcatServicePred (.namedNode (serviceIri text base service.id)) ::
        quadsOf graph (describeAt base (servicePath text service.id) (serviceResource text service index)) := by
  simp only [writeDataService, serviceResource, List.mem_cons, mem_quadsOf_node, serviceIri_eq, servicePath]
  simp [ownQuads, positionStatement]

end

section

variable (text : IriText) (graph : NamedNode) (catalog : Catalog)

/-- Every quad stored for `catalog`. -/
def catalogQuads : List Quad :=
  quadsOf graph (catalogDescriptions text (nodeBase text catalog.originNode) catalog)

theorem mem_catalogQuads {quad : Quad} : quad ∈ catalogQuads text graph catalog ↔
    quad ∈ ownQuads graph (nodeBase text catalog.originNode) (catalogPath text catalog)
      (catalogStatements text (nodeBase text catalog.originNode) catalog) ∨
    (∃ index, ∃ bound : index < catalog.datasets.length,
      quad ∈ quadsOf graph (describeAt (nodeBase text catalog.originNode)
        (datasetPath text catalog.datasets[index].id)
        (datasetResource text (nodeBase text catalog.originNode) catalog.datasets[index] index))) ∨
    ∃ index, ∃ bound : index < catalog.dataServices.length,
      quad ∈ quadsOf graph (describeAt (nodeBase text catalog.originNode)
        (servicePath text catalog.dataServices[index].id)
        (serviceResource text catalog.dataServices[index] index)) := by
  have catalogNode : catalogIri text (nodeBase text catalog.originNode) catalog.id =
      resourceIri (nodeBase text catalog.originNode) (catalogPath text catalog) := catalogIri_eq text _ _
  constructor
  · intro member
    obtain ⟨description, described, statement, stated, rfl⟩ := mem_quadsOf.mp member
    -- a description is of the catalog, of a dataset or below it, or of a service
    rcases mem_catalogDescriptions.mp described with rfl | ⟨index, bound, below⟩ | ⟨index, bound, below⟩
    · exact .inl (List.mem_map.mpr ⟨statement, stated, by rw [catalogNode]⟩)
    · exact .inr (.inl ⟨index, bound, mem_quadsOf.mpr ⟨description, below, statement, stated, rfl⟩⟩)
    · exact .inr (.inr ⟨index, bound, mem_quadsOf.mpr ⟨description, below, statement, stated, rfl⟩⟩)
  · rintro (own | ⟨index, bound, member⟩ | ⟨index, bound, member⟩)
    · obtain ⟨statement, stated, rfl⟩ := List.mem_map.mp own
      refine mem_quadsOf.mpr ⟨_, mem_catalogDescriptions.mpr (.inl rfl), statement, stated, ?_⟩
      rw [catalogNode]
    · obtain ⟨description, below, statement, stated, rfl⟩ := mem_quadsOf.mp member
      exact mem_quadsOf.mpr ⟨description, mem_catalogDescriptions.mpr (.inr (.inl ⟨index, bound, below⟩)),
        statement, stated, rfl⟩
    · obtain ⟨description, below, statement, stated, rfl⟩ := mem_quadsOf.mp member
      exact mem_quadsOf.mpr ⟨description, mem_catalogDescriptions.mpr (.inr (.inr ⟨index, bound, below⟩)),
        statement, stated, rfl⟩

theorem mem_flatten_linked {α : Type} {items : List α} {link : α → Quad} {below : Nat → α → List Quad}
    {quad : Quad} : quad ∈ (items.mapIdx fun index item => link item :: below index item).flatten ↔
      quad ∈ items.map link ∨ ∃ index, ∃ bound : index < items.length, quad ∈ below index items[index] := by
  simp only [List.mem_flatten, List.mem_mapIdx, List.mem_map]
  constructor
  · rintro ⟨_, ⟨index, bound, rfl⟩, member⟩
    rcases List.mem_cons.mp member with rfl | member
    · exact .inl ⟨items[index], List.getElem_mem bound, rfl⟩
    · exact .inr ⟨index, bound, member⟩
  · rintro (⟨item, member, rfl⟩ | ⟨index, bound, member⟩)
    · obtain ⟨index, bound, rfl⟩ := List.mem_iff_getElem.mp member
      exact ⟨_, ⟨index, bound, rfl⟩, List.mem_cons_self⟩
    · exact ⟨_, ⟨index, bound, rfl⟩, List.mem_cons_of_mem _ member⟩

/-- `write_catalog` emits its catalog's quads, and fails exactly on over-deep nesting. -/
theorem writeCatalog_writes : Writes (writeCatalog text graph catalog)
    (catalog.NestsWithin maxConstraintDepth) (catalogQuads text graph catalog) := by
  have datasets : Writes (writeEach catalog.datasets (writeDataset text graph
      (nodeBase text catalog.originNode) (catalogIri text (nodeBase text catalog.originNode) catalog.id)))
      (catalog.NestsWithin maxConstraintDepth) _ :=
    Writes.each fun index dataset _ => writeDataset_writes text graph _ _ index dataset
  have whole : Writes (writeCatalog text graph catalog) (catalog.NestsWithin maxConstraintDepth ∧ True)
      (catalogQuads text graph catalog) :=
    datasets.bind fun quads same => Writes.ok fun quad => by
      -- The loops emit each link beside what it links to; the catalog's own statements list the links first.
      have services : quad ∈ (catalog.dataServices.mapIdx (writeDataService text graph
          (nodeBase text catalog.originNode) (catalogIri text (nodeBase text catalog.originNode)
            catalog.id))).flatten ↔ _ :=
        (mem_flatten_mapIdx_congr fun _ _ _ => mem_writeDataService text graph _).trans mem_flatten_linked
      simp only [mem_flatten_linked] at same
      rw [mem_catalogQuads]
      simp only [List.cons_append, List.mem_cons, List.mem_append, same, services]
      simp only [catalogIri_eq, mem_writeProperties, catalogStatements, ownQuads, catalogPath, List.map_cons,
        List.map_append, List.map_map, Function.comp_def, List.cons_append, List.mem_cons, List.mem_append]
      exact iff_of_eq (by ac_rfl)
  exact whole.congr (and_iff_left trivial)

end

end CatalogBroker
