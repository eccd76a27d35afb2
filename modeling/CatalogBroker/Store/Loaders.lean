import CatalogBroker.Store.Snapshot

/-! Reading back what the writer wrote.

A load at a resource's own node returns that resource and its position, one
lemma a loader; the group levels of a constraint carry the induction.
-/

set_option autoImplicit false

namespace CatalogBroker

open Library Library.Descriptions

def linkStatement (base : String) (path : List PathSegment) (branch : StoredBranch) : NamedNode × Term :=
  (branch.1, .namedNode (resourceIri base (path ++ branch.2.1)))

theorem describeAt_head (base : String) (path : List PathSegment) (statements : List (NamedNode × Term))
    (branches : List StoredBranch) :
    (resourceIri base path, statements ++ branches.map (linkStatement base path)) ∈
      describeAt base path (.node statements branches) :=
  Resource.mem_describe_node.mpr (.inl rfl)

theorem describeAt_branch {base : String} {path : List PathSegment} {statements : List (NamedNode × Term)}
    {branches : List StoredBranch} {branch : StoredBranch} (member : branch ∈ branches) :
    describeAt base (path ++ branch.2.1) branch.2.2 ⊆ describeAt base path (.node statements branches) :=
  fun _ below => Resource.mem_describe_node.mpr (.inr ⟨branch, member, below⟩)

/-- Branches under one predicate, the one at position `index` addressed `kind/index`. -/
structure Listed {α : Type} (branch : Nat → α → StoredBranch) (link : NamedNode) (kind : PathSegment) :
    Prop where
  link_eq : ∀ index item, (branch index item).1 = link
  address_eq : ∀ index item, (branch index item).2.1 = [kind, indexSegment index]

namespace Listed

variable {α : Type} {branch : Nat → α → StoredBranch} {link : NamedNode} {kind : PathSegment}

theorem objects_self (listed : Listed branch link kind) (base : String) (path : List PathSegment)
    (items : List α) : objects ((items.mapIdx branch).map (linkStatement base path)) link =
      items.mapIdx fun index _ => .namedNode (resourceIri base (path ++ [kind, indexSegment index])) := by
  have shape : (items.mapIdx branch).map (linkStatement base path) =
      (items.mapIdx fun index _ => Term.namedNode
        (resourceIri base (path ++ [kind, indexSegment index]))).map fun object => (link, object) := by
    rw [Listing.map_mapIdx, Listing.map_mapIdx]
    simp only [linkStatement, listed.link_eq, listed.address_eq]
  rw [shape]
  simpa using objects_map_self (items.mapIdx fun index _ => Term.namedNode
    (resourceIri base (path ++ [kind, indexSegment index]))) link id

theorem objects_other (listed : Listed branch link kind) (base : String) (path : List PathSegment)
    (items : List α) {predicate : NamedNode} (other : link ≠ predicate) :
    objects ((items.mapIdx branch).map (linkStatement base path)) predicate = [] := by
  refine objects_eq_nil fun statement member => ?_
  obtain ⟨_, found, rfl⟩ := List.mem_map.mp member
  obtain ⟨index, bound, rfl⟩ := List.mem_mapIdx.mp found
  rw [linkStatement, listed.link_eq]
  exact other

theorem subset (listed : Listed branch link kind) {base : String} {path : List PathSegment}
    {statements : List (NamedNode × Term)} {branches : List StoredBranch} {items : List α}
    (among : items.mapIdx branch ⊆ branches) {index : Nat} (bound : index < items.length) :
    describeAt base (path ++ [kind, indexSegment index]) (branch index items[index]).2.2 ⊆
      describeAt base path (.node statements branches) := by
  rw [← listed.address_eq index items[index]]
  exact describeAt_branch (among (List.mem_mapIdx.mpr ⟨index, bound, rfl⟩))

end Listed

section

variable (text : IriText) (base : String)

theorem listed_constraintBranch (predicate : NamedNode) :
    Listed (constraintBranch text predicate) predicate constraintsSegment :=
  ⟨fun _ _ => rfl, fun _ _ => rfl⟩

theorem listed_ruleBranch (predicate : NamedNode) (kind : PathSegment) :
    Listed (ruleBranch text predicate kind) predicate kind :=
  ⟨fun _ _ => rfl, fun _ _ => rfl⟩

theorem listed_policyBranch : Listed (policyBranch text) odrlHasPolicyPred policiesSegment :=
  ⟨fun _ _ => rfl, fun _ _ => rfl⟩

theorem listed_distributionBranch :
    Listed (distributionBranch text base) dcatDistributionPred distributionsSegment :=
  ⟨fun _ _ => rfl, fun _ _ => rfl⟩

end

namespace GraphSnapshot

/-- Of the candidate predicates, a marked group takes its marker's, if no other links a child. -/
theorem chooseGroup_marked (snapshot : GraphSnapshot) (text : IriText) {subject predicate : NamedNode}
    {candidates : List (NamedNode × LogicalOperator)}
    (others : ∀ candidate ∈ candidates, candidate.1 ≠ predicate →
      snapshot.matching (some subject) (some candidate.1) none = []) :
    snapshot.chooseGroup text subject (some (.namedNode predicate)) candidates =
      .ok ((candidates.find? fun candidate => candidate.1 = predicate).map fun candidate =>
        (candidate.2, snapshot.matching (some subject) (some candidate.1) none)) := by
  induction candidates with
  | nil => rfl
  | cons candidate rest ih =>
    obtain ⟨stated, operator⟩ := candidate
    have later := ih fun other member => others other (List.mem_cons_of_mem _ member)
    by_cases same : stated = predicate
    · subst same
      simp [chooseGroup, later, pure, Except.pure, bind, Except.bind]
    · have unlinked := others (stated, operator) List.mem_cons_self same
      simp [chooseGroup, later, same, Ne.symm same, unlinked, pure, Except.pure, bind, Except.bind]

end GraphSnapshot

/-- Property keys a reader tells apart from the predicates reserved at their node, and that are
no IRIs in the space of encoded keys. -/
structure Properties.KeysFree (text : IriText) (reserved : List NamedNode) (properties : Properties) :
    Prop where
  unreserved : ∀ key ∈ properties, ∀ predicate ∈ reserved, key ≠ predicate.iri
  external : ∀ key ∈ properties, text.accepts key = true → Text.stripPrefix key internalPropertyPrefix = none

namespace Properties.KeysFree

variable {text : IriText} {reserved : List NamedNode} {properties : Properties}

theorem mem_keys {entry : String × String} (member : entry ∈ properties.toList) : entry.1 ∈ properties := by
  have found := Std.ExtTreeMap.mem_toList_iff_getElem?_eq_some.mp member
  exact Std.ExtTreeMap.mem_iff_isSome_getElem?.mpr (by rw [found]; rfl)

theorem propertyPredicate_ne (free : properties.KeysFree text reserved)
    (apart : ∀ predicate ∈ reserved, Text.stripPrefix predicate.iri internalPropertyPrefix = none)
    {key : String} (member : key ∈ properties) {predicate : NamedNode} (known : predicate ∈ reserved) :
    propertyPredicate text key ≠ predicate := by
  intro same
  unfold propertyPredicate at same
  split at same
  · exact free.unreserved key member predicate known (congrArg NamedNode.iri same)
  · have lead := apart predicate known
    rw [← same, iri, Text.stripPrefix_append] at lead
    cases lead

theorem decode_predicate (free : properties.KeysFree text reserved) {key : String}
    (member : key ∈ properties) : decodePropertyKey text (propertyPredicate text key) = key :=
  decodePropertyKey_propertyPredicate text key fun accepted =>
    Text.stripPrefix_eq_none_iff.mp (free.external key member accepted)

theorem objects_eq_nil (free : properties.KeysFree text reserved)
    (apart : ∀ predicate ∈ reserved, Text.stripPrefix predicate.iri internalPropertyPrefix = none)
    {predicate : NamedNode} (known : predicate ∈ reserved) :
    objects (propertyStatements text properties) predicate = [] := by
  refine Descriptions.objects_eq_nil fun statement member => ?_
  obtain ⟨entry, listed, rfl⟩ := List.mem_map.mp member
  exact free.propertyPredicate_ne apart (mem_keys listed) known

end Properties.KeysFree

/-- The value a property quad carries. -/
def propertyValue (quad : Quad) : String :=
  match quad.object with
  | .literal literal => literal.value
  | .namedNode node => node.iri
  | .blankNode node => node.id

namespace GraphSnapshot

theorem foldlM_properties {text : IriText} {reserved : List NamedNode} {quads : List Quad}
    (readable : ∀ quad ∈ quads, quad.predicate ∉ reserved →
      termAsString text quad.object = .ok (propertyValue quad)) (start : Properties) :
    quads.foldlM (fun properties quad =>
      if quad.predicate ∈ reserved then .ok properties
      else do
        let value ← termAsString text quad.object
        return properties.insert (decodePropertyKey text quad.predicate) value) start =
      Except.ok (((quads.filter fun quad => quad.predicate ∉ reserved).map fun quad =>
        (decodePropertyKey text quad.predicate, propertyValue quad)).foldl
          (fun properties entry => properties.insert entry.1 entry.2) start) := by
  induction quads generalizing start with
  | nil => rfl
  | cons quad quads ih =>
    have rest := ih fun other member => readable other (List.mem_cons_of_mem _ member)
    by_cases known : quad.predicate ∈ reserved
    · rw [List.foldlM_cons, if_pos known, List.filter_cons_of_neg (by simpa using known)]
      exact rest start
    · have value := readable quad List.mem_cons_self known
      rw [List.foldlM_cons, if_neg known, List.filter_cons_of_pos (by simpa using known), value]
      exact rest _

end GraphSnapshot

section

variable {text : IriText} {reserved : List NamedNode} {properties : Properties}

theorem Properties.KeysFree.read_statements (free : properties.KeysFree text reserved) (graph node : NamedNode) :
    ((propertyStatements text properties).map fun statement => insertQuad graph node statement.1 statement.2).map
      (fun quad => (decodePropertyKey text quad.predicate, propertyValue quad)) = properties.toList := by
  rw [List.map_map, propertyStatements, List.map_map]
  refine (List.map_congr_left fun entry member => ?_).trans (List.map_id _)
  exact Prod.ext (free.decode_predicate (mem_keys member)) rfl

theorem Properties.KeysFree.nodup_statements (free : properties.KeysFree text reserved) (graph node : NamedNode) :
    ((propertyStatements text properties).map fun statement =>
      insertQuad graph node statement.1 statement.2).Nodup := by
  apply List.Nodup.of_map fun quad => (decodePropertyKey text quad.predicate, propertyValue quad)
  rw [free.read_statements]
  exact Std.ExtTreeMap.distinct_keys_toList.imp fun {first second} apart same =>
    apart (by rw [same]; exact Std.ReflCmp.compare_self)

variable {snapshot : GraphSnapshot} {graph node : NamedNode} {statements : List (NamedNode × Term)}
  {descriptions : List (Description NamedNode NamedNode Term)}

theorem GraphSnapshot.Holds.unreserved_perm (holds : snapshot.Holds graph descriptions)
    (described : (node, statements) ∈ descriptions) (free : properties.KeysFree text reserved)
    (stated : ∀ statement, statement ∈ statements ∧ statement.1 ∉ reserved ↔
      statement ∈ propertyStatements text properties) :
    ((snapshot.matching (some node) none none).filter fun quad => quad.predicate ∉ reserved).Perm
      ((propertyStatements text properties).map fun statement =>
        insertQuad graph node statement.1 statement.2) := by
  have nodup : (snapshot.matching (some node) none none).Nodup := holds.nodup.filter _
  refine (List.perm_ext_iff_of_nodup (nodup.filter _) (free.nodup_statements graph node)).mpr fun quad => ?_
  simp only [List.mem_filter, decide_not, Bool.not_eq_eq_eq_not, Bool.not_true, decide_eq_false_iff_not,
    holds.mem_matching_subject described, List.mem_map, ← stated]
  constructor
  · intro ⟨⟨statement, member, same⟩, outside⟩
    subst same
    exact ⟨statement, ⟨member, outside⟩, rfl⟩
  · intro ⟨statement, ⟨member, outside⟩, same⟩
    subst same
    exact ⟨⟨statement, member, rfl⟩, outside⟩

theorem GraphSnapshot.Holds.loadProperties_eq (holds : snapshot.Holds graph descriptions)
    (described : (node, statements) ∈ descriptions) (free : properties.KeysFree text reserved)
    (apart : ∀ predicate ∈ reserved, Text.stripPrefix predicate.iri internalPropertyPrefix = none)
    {fixed : List (NamedNode × Term)} (known : ∀ statement ∈ fixed, statement.1 ∈ reserved)
    (whole : ∀ statement, statement ∈ statements ↔
      statement ∈ fixed ∨ statement ∈ propertyStatements text properties) :
    snapshot.loadProperties text node reserved = .ok properties := by
  -- what is left after the reserved predicates is what the free-form properties state
  have stated : ∀ statement, statement ∈ statements ∧ statement.1 ∉ reserved ↔
      statement ∈ propertyStatements text properties := by
    intro statement
    rw [whole]
    constructor
    · intro ⟨either, outside⟩
      rcases either with member | member
      · exact absurd (known statement member) outside
      · exact member
    · intro member
      refine ⟨.inr member, fun inside => ?_⟩
      obtain ⟨entry, listed, rfl⟩ := List.mem_map.mp member
      exact free.propertyPredicate_ne apart (Properties.KeysFree.mem_keys listed) inside rfl
  have readable : ∀ quad ∈ snapshot.matching (some node) none none, quad.predicate ∉ reserved →
      termAsString text quad.object = .ok (propertyValue quad) := by
    intro quad member outside
    obtain ⟨statement, own, rfl⟩ := (holds.mem_matching_subject described).mp member
    obtain ⟨entry, _, rfl⟩ := List.mem_map.mp ((stated statement).mp ⟨own, outside⟩)
    rfl
  have entries := (holds.unreserved_perm described free stated).map fun quad =>
    (decodePropertyKey text quad.predicate, propertyValue quad)
  rw [free.read_statements] at entries
  rw [loadProperties, foldlM_properties readable]
  exact congrArg Except.ok (Listing.foldl_insert_eq entries)

end

theorem nodup_addresses {α : Type} (base : String) (path : List PathSegment) (kind : PathSegment)
    (items : List α) :
    (items.mapIdx fun index _ => resourceIri base (path ++ [kind, indexSegment index])).Nodup := by
  refine Listing.nodup_mapIdx fun i j _ _ same => ?_
  have paths := List.append_cancel_left (resourceIri_injective base same)
  have segments : indexSegment i = indexSegment j := by simpa using paths
  exact indexSegment_injective segments

theorem find?_logicalConstraintPreds (operator : LogicalOperator) :
    logicalConstraintPreds.find? (fun candidate => candidate.1 = operator.predicate) =
      some (operator.predicate, operator) := by
  cases operator <;> decide

namespace GraphSnapshot.Holds

variable {snapshot : GraphSnapshot} {graph : NamedNode} {text : IriText} {base : String}
  {descriptions : List (Description NamedNode NamedNode Term)}

theorem loadListed_eq {α : Type} (holds : snapshot.Holds graph descriptions) {path : List PathSegment}
    {statements : List (NamedNode × Term)} (described : (resourceIri base path, statements) ∈ descriptions)
    {branch : Nat → α → StoredBranch} {predicate : NamedNode} {kind : PathSegment} {context : String}
    {load : NamedNode → StoreResult (Nat × α)} {items : List α} (listed : Listed branch predicate kind)
    (stated : objects statements predicate =
      objects ((items.mapIdx branch).map (linkStatement base path)) predicate)
    (each : ∀ index (bound : index < items.length),
      load (resourceIri base (path ++ [kind, indexSegment index])) = .ok (index, items[index])) :
    loadLinked text (snapshot.matching (some (resourceIri base path)) (some predicate) none) context load =
      .ok items :=
  holds.loadLinked_eq described (fun index _ => resourceIri base (path ++ [kind, indexSegment index]))
    (stated.trans (listed.objects_self base path items))
    (nodup_addresses base path kind items) each

theorem loadAtomicConstraint_eq (holds : snapshot.Holds graph descriptions) {leaf : AtomicConstraint}
    {path : List PathSegment} {index : Nat} (levels : Nat)
    (within : describeAt base path (constraintResource text (.atomic leaf) index) ⊆ descriptions) :
    snapshot.loadConstraint text (levels + 1) (resourceIri base path) = .ok (index, .atomic leaf) := by
  have described := within (describeAt_head base path _ _)
  have position : snapshot.sequenceIndex text (resourceIri base path) = .ok index :=
    holds.sequenceIndex_eq described (by simp +decide [positionStatement])
  have left : snapshot.firstObject (resourceIri base path) odrlLeftOperandPred =
      some (iriOrLiteralTerm text leaf.leftOperand) :=
    holds.firstObject_eq described (by simp +decide [positionStatement])
  have operator : snapshot.requiredString text (resourceIri base path) odrlOperatorPred "odrl:operator" =
      .ok leaf.operator :=
    holds.requiredString_eq described (reads_iriOrLiteralTerm text) (by simp +decide [positionStatement])
  have right : snapshot.requiredString text (resourceIri base path) odrlRightOperandPred
      "odrl:rightOperand" = .ok leaf.rightOperand :=
    holds.requiredString_eq described (reads_literal text) (by simp +decide [positionStatement])
  simp [loadConstraint, position, left, operator, right, bind, Except.bind, pure, Except.pure]

theorem loadLogicalConstraint_eq (holds : snapshot.Holds graph descriptions) {operator : LogicalOperator}
    {children : List Constraint} {path : List PathSegment} {index levels : Nat}
    (within : describeAt base path (constraintResource text (.logical operator children) index) ⊆ descriptions)
    (each : ∀ position (bound : position < children.length),
      describeAt base (path ++ [constraintsSegment, indexSegment position])
          (constraintResource text children[position] position) ⊆ descriptions →
        snapshot.loadConstraint text levels (resourceIri base (path ++ [constraintsSegment, indexSegment position])) =
          .ok (position, children[position])) :
    snapshot.loadConstraint text (levels + 1) (resourceIri base path) = .ok (index, .logical operator children) := by
  rw [constraintResource, childBranches_eq] at within
  simp only [Nat.zero_add] at within
  have described := within (describeAt_head base path _ _)
  have listed := listed_constraintBranch text operator.predicate
  have apart : operator.predicate ≠ sequenceIndexPred ∧ operator.predicate ≠ odrlLeftOperandPred ∧
      operator.predicate ≠ logicalOperatorPred := by
    cases operator <;> decide
  have unlinked {predicate : NamedNode} (other : operator.predicate ≠ predicate) :=
    listed.objects_other base path children other
  have position : snapshot.sequenceIndex text (resourceIri base path) = .ok index :=
    holds.sequenceIndex_eq described (by simp +decide [positionStatement, unlinked apart.1])
  have left : snapshot.firstObject (resourceIri base path) odrlLeftOperandPred = none :=
    holds.firstObject_eq described (by simp +decide [positionStatement, unlinked apart.2.1])
  have marker : snapshot.firstObject (resourceIri base path) logicalOperatorPred =
      some (.namedNode operator.predicate) :=
    holds.firstObject_eq described (by simp +decide [positionStatement, unlinked apart.2.2])
  -- No other group predicate leaves the node, so the reader cannot take the group for another kind.
  have others : ∀ candidate ∈ logicalConstraintPreds, candidate.1 ≠ operator.predicate →
      snapshot.matching (some (resourceIri base path)) (some candidate.1) none = [] := by
    intro candidate member other
    have reserved : ∀ candidate ∈ logicalConstraintPreds, sequenceIndexPred ≠ candidate.1 ∧
        logicalOperatorPred ≠ candidate.1 := by decide
    obtain ⟨notPosition, notMarker⟩ := reserved candidate member
    exact holds.matching_eq_nil described
      (by simp [positionStatement, notPosition, notMarker, unlinked other.symm])
  have chosen := snapshot.chooseGroup_marked text others
  rw [find?_logicalConstraintPreds] at chosen
  have group : loadLinked text (snapshot.matching (some (resourceIri base path))
      (some operator.predicate) none) "a logical constraint child reference"
      (snapshot.loadConstraint text levels) = .ok children := by
    refine holds.loadListed_eq described listed ?_ fun position bound => ?_
    · simp [positionStatement, apart.1.symm, apart.2.2.symm]
    · exact each position bound (List.Subset.trans (listed.subset (List.Subset.refl _) bound) within)
  simp [loadConstraint, position, left, marker, chosen, group, bind, Except.bind, pure, Except.pure]

theorem loadConstraint_eq (holds : snapshot.Holds graph descriptions) (constraint : Constraint)
    {path : List PathSegment} {index levels : Nat} (room : constraint.height < levels)
    (within : describeAt base path (constraintResource text constraint index) ⊆ descriptions) :
    snapshot.loadConstraint text levels (resourceIri base path) = .ok (index, constraint) := by
  obtain ⟨below, rfl⟩ : ∃ below, levels = below + 1 := ⟨levels - 1, by omega⟩
  induction constraint generalizing path index below with
  | atomic leaf => exact holds.loadAtomicConstraint_eq below within
  | logical operator children ih =>
    apply holds.loadLogicalConstraint_eq within
    intro position bound inside
    have lower := Constraint.height_logical_le_iff.mp (Nat.le_of_lt_succ room) _ (List.getElem_mem bound)
    obtain ⟨deeper, rfl⟩ : ∃ deeper, below = deeper + 1 := ⟨below - 1, by omega⟩
    exact ih _ (List.getElem_mem bound) inside deeper (by omega)

theorem loadRule_eq (holds : snapshot.Holds graph descriptions) {rule : Rule} {path : List PathSegment}
    {index : Nat} (fits : rule.Fits) (within : describeAt base path (ruleResource text rule index) ⊆ descriptions) :
    snapshot.loadRule text (resourceIri base path) = .ok (index, rule) := by
  have described := within (describeAt_head base path _ _)
  have listed := listed_constraintBranch text odrlConstraintPred
  have unlinked {predicate : NamedNode} (other : odrlConstraintPred ≠ predicate) :=
    listed.objects_other base path rule.constraints other
  have position : snapshot.sequenceIndex text (resourceIri base path) = .ok index :=
    holds.sequenceIndex_eq described (by simp +decide [positionStatement, unlinked])
  have action : snapshot.requiredString text (resourceIri base path) odrlActionPred "odrl:action" =
      .ok rule.action :=
    holds.requiredString_eq described (reads_iriOrLiteralTerm text)
      (by simp +decide [positionStatement, unlinked])
  have constraints : loadLinked text (snapshot.matching (some (resourceIri base path))
      (some odrlConstraintPred) none) "an odrl:constraint reference"
      (snapshot.loadConstraint text (maxConstraintDepth + 1)) = .ok rule.constraints := by
    refine holds.loadListed_eq described listed (by simp +decide [positionStatement]) fun position bound => ?_
    exact holds.loadConstraint_eq _ (Nat.lt_succ_of_le (fits _ (List.getElem_mem bound)))
      (List.Subset.trans (listed.subset (List.Subset.refl _) bound) within)
  simp [loadRule, position, action, constraints, bind, Except.bind, pure, Except.pure]

theorem loadRules_eq (holds : snapshot.Holds graph descriptions) {path : List PathSegment}
    {statements own : List (NamedNode × Term)} {branches : List StoredBranch}
    (described : (resourceIri base path, statements) ∈ descriptions)
    (within : describeAt base path (.node own branches) ⊆ descriptions)
    {rules : List Rule} (fits : ∀ rule ∈ rules, rule.Fits) {predicate : NamedNode} (kind : PathSegment)
    (among : rules.mapIdx (ruleBranch text predicate kind) ⊆ branches)
    (stated : objects statements predicate =
      objects ((rules.mapIdx (ruleBranch text predicate kind)).map (linkStatement base path)) predicate) :
    snapshot.loadRules text (resourceIri base path) predicate = .ok rules := by
  have listed := listed_ruleBranch text predicate kind
  refine holds.loadListed_eq described listed stated fun position bound => ?_
  exact holds.loadRule_eq (fits _ (List.getElem_mem bound))
    (List.Subset.trans (listed.subset among bound) within)

theorem loadPolicy_eq (holds : snapshot.Holds graph descriptions) {policy : Policy}
    {path : List PathSegment} {index : Nat} (fits : policy.NestsWithin maxConstraintDepth)
    (within : describeAt base path (policyResource text policy index) ⊆ descriptions) :
    snapshot.loadPolicy text (resourceIri base path) = .ok (index, policy) := by
  obtain ⟨fitPermissions, fitProhibitions, fitObligations⟩ := Policy.nestsWithin_iff.mp fits
  have described := within (describeAt_head base path _ _)
  -- the rules of one kind say nothing about another
  have unlinked {stated predicate : NamedNode} (kind : PathSegment) (rules : List Rule)
      (other : stated ≠ predicate) := (listed_ruleBranch text stated kind).objects_other base path rules other
  have position : snapshot.sequenceIndex text (resourceIri base path) = .ok index :=
    holds.sequenceIndex_eq described
      (by simp +decide [policyStatements, positionStatement, ruleBranches, objects_map_other, unlinked])
  have kind : snapshot.firstObject (resourceIri base path) rdfType =
      some (.namedNode (odrlPolicyClass policy.kind)) :=
    holds.firstObject_eq described
      (by simp +decide [policyStatements, positionStatement, ruleBranches, objects_map_other, unlinked])
  have id : snapshot.optionalString text (resourceIri base path) policyIdPred = .ok policy.id :=
    holds.optionalString_eq described (reads_literal text)
      (by simp +decide [policyStatements, positionStatement, ruleBranches, objects_map_other, unlinked])
  have assigner : snapshot.optionalString text (resourceIri base path) odrlAssignerPred =
      .ok policy.assigner :=
    holds.optionalString_eq described (reads_iriOrLiteralTerm text)
      (by simp +decide [policyStatements, positionStatement, ruleBranches, objects_map_other, unlinked])
  have assignee : snapshot.optionalString text (resourceIri base path) odrlAssigneePred =
      .ok policy.assignee :=
    holds.optionalString_eq described (reads_iriOrLiteralTerm text)
      (by simp +decide [policyStatements, positionStatement, ruleBranches, objects_map_other, unlinked])
  have permissions : snapshot.loadRules text (resourceIri base path) odrlPermissionPred =
      .ok policy.permissions :=
    holds.loadRules_eq described within fitPermissions permissionsSegment (by simp [ruleBranches])
      (by simp +decide [policyStatements, positionStatement, ruleBranches, objects_map_other, unlinked])
  have prohibitions : snapshot.loadRules text (resourceIri base path) odrlProhibitionPred =
      .ok policy.prohibitions :=
    holds.loadRules_eq described within fitProhibitions prohibitionsSegment (by simp [ruleBranches])
      (by simp +decide [policyStatements, positionStatement, ruleBranches, objects_map_other, unlinked])
  have obligations : snapshot.loadRules text (resourceIri base path) odrlObligationPred =
      .ok policy.obligations :=
    holds.loadRules_eq described within fitObligations obligationsSegment (by simp [ruleBranches])
      (by simp +decide [policyStatements, positionStatement, ruleBranches, objects_map_other, unlinked])
  simp [loadPolicy, position, kind, id, assigner, assignee, permissions, prohibitions, obligations,
    expectNamedNode, bind, Except.bind, pure, Except.pure]

theorem loadDistribution_eq (holds : snapshot.Holds graph descriptions) {distribution : Distribution}
    {path : List PathSegment} {index : Nat}
    (within : describeAt base path (distributionResource text base distribution index) ⊆ descriptions) :
    snapshot.loadDistribution text base (resourceIri base path) = .ok (index, distribution) := by
  have described := within (describeAt_head base path _ _)
  have position : snapshot.sequenceIndex text (resourceIri base path) = .ok index :=
    holds.sequenceIndex_eq described (by simp +decide [positionStatement])
  have format : snapshot.requiredString text (resourceIri base path) dctFormatPred "dct:format" =
      .ok distribution.format :=
    holds.requiredString_eq described (reads_literal text) (by simp +decide [positionStatement])
  have service : snapshot.firstObject (resourceIri base path) dcatAccessServicePred =
      some (.namedNode (serviceIri text base distribution.accessService)) :=
    holds.firstObject_eq described (by simp +decide [positionStatement])
  have decoded : stripPrefixDecode text (serviceIri text base distribution.accessService).iri
      (base ++ "/services/") = .ok distribution.accessService :=
    stripPrefixDecode_encode text _ _
  simp [loadDistribution, position, format, service, decoded, expectNamedNode, bind, Except.bind, pure,
    Except.pure]

theorem loadDataService_eq (holds : snapshot.Holds graph descriptions) {service : DataService} {index : Nat}
    (within : describeAt base (servicePath text service.id) (serviceResource text service index) ⊆
      descriptions) :
    snapshot.loadDataService text base (serviceIri text base service.id) = .ok (index, service) := by
  have described := within (describeAt_head base _ _ _)
  rw [servicePath, ← serviceIri_eq] at described
  have decoded : stripPrefixDecode text (serviceIri text base service.id).iri (base ++ "/services/") =
      .ok service.id :=
    stripPrefixDecode_encode text _ _
  have position : snapshot.sequenceIndex text (serviceIri text base service.id) = .ok index :=
    holds.sequenceIndex_eq described (by simp +decide [positionStatement, objects_map_other])
  have url : snapshot.requiredString text (serviceIri text base service.id) dcatEndpointUrlPred
      "dcat:endpointURL" = .ok service.endpointUrl :=
    holds.requiredString_eq described (reads_iriOrLiteralTerm text)
      (by simp +decide [positionStatement, objects_map_other])
  have description : snapshot.optionalString text (serviceIri text base service.id)
      dcatEndpointDescriptionPred = .ok service.endpointDescription :=
    holds.optionalString_eq described (reads_literal text) (by simp +decide [positionStatement])
  simp [loadDataService, decoded, position, url, description, bind, Except.bind, pure, Except.pure]

end GraphSnapshot.Holds

end CatalogBroker
