import CatalogBroker.Library.ResourceTree
import CatalogBroker.Store.Write

/-! What the writer emits: the statements of a forest of addressed resources.

Every IRI the writer mints is a path of slash-free segments under the node's
base, so the resources of one catalog have IRIs of their own.
-/

set_option autoImplicit false

namespace CatalogBroker

open Library Library.Descriptions

abbrev PathSegment := {segment : String // '/' ∉ segment.toList}

def indexSegment (index : Nat) : PathSegment :=
  ⟨toString index, Text.not_mem_repr (by decide)⟩

def IriText.segment (text : IriText) (id : String) : PathSegment := ⟨text.encode id, text.encode_free id⟩

theorem indexSegment_injective : Function.Injective indexSegment := by
  intro first second same
  have read := Text.parseUsize_toString first
  rw [show toString first = toString second from congrArg Subtype.val same,
    Text.parseUsize_toString] at read
  exact (Except.ok.inj read).symm

theorem IriText.segment_injective (text : IriText) : Function.Injective text.segment := by
  intro first second same
  exact text.encode_injective (congrArg Subtype.val same)

def resourceIri (base : String) (path : List PathSegment) : NamedNode :=
  iri (base ++ String.ofList (Segments.render '/' (path.map fun segment => segment.val.toList)))

theorem resourceIri_injective (base : String) : Function.Injective (resourceIri base) := by
  intro first second same
  have texts : base ++ String.ofList (Segments.render '/' (first.map fun segment => segment.val.toList)) =
      base ++ String.ofList (Segments.render '/' (second.map fun segment => segment.val.toList)) :=
    congrArg NamedNode.iri same
  rw [← String.toList_inj] at texts
  simp only [String.toList_append, String.toList_ofList, List.append_cancel_left_eq] at texts
  have free : ∀ path : List PathSegment,
      ∀ segment ∈ path.map (fun segment => segment.val.toList), '/' ∉ segment := by
    intro path segment member
    obtain ⟨step, _, rfl⟩ := List.mem_map.mp member
    exact step.property
  have lists := Segments.render_injective (free first) (free second) texts
  exact List.map_injective_iff.mpr (fun a b same => Subtype.ext (String.toList_inj.mp same)) lists

theorem resourceIri_append (base : String) (path : List PathSegment) (kind segment : PathSegment) :
    resourceIri base (path ++ [kind, segment]) =
      iri ((resourceIri base path).iri ++ "/" ++ kind.val ++ "/" ++ segment.val) := by
  apply congrArg NamedNode.mk
  rw [← String.toList_inj]
  simp [resourceIri, iri]

def constraintsSegment : PathSegment := ⟨"constraints", by decide⟩
def permissionsSegment : PathSegment := ⟨"permissions", by decide⟩
def prohibitionsSegment : PathSegment := ⟨"prohibitions", by decide⟩
def obligationsSegment : PathSegment := ⟨"obligations", by decide⟩
def policiesSegment : PathSegment := ⟨"policies", by decide⟩
def distributionsSegment : PathSegment := ⟨"distributions", by decide⟩
def datasetsSegment : PathSegment := ⟨"datasets", by decide⟩
def servicesSegment : PathSegment := ⟨"services", by decide⟩
def catalogsSegment : PathSegment := ⟨"catalogs", by decide⟩

theorem constraintIri_resourceIri (base : String) (path : List PathSegment) (index : Nat) :
    constraintIri (resourceIri base path).iri index =
      resourceIri base (path ++ [constraintsSegment, indexSegment index]) := by
  rw [resourceIri_append]
  apply congrArg NamedNode.mk
  rw [← String.toList_inj]
  simp [constraintsSegment, indexSegment]

theorem ruleIri_resourceIri (base : String) (path : List PathSegment) (kind : PathSegment) (index : Nat) :
    ruleIri (resourceIri base path).iri kind.val index =
      resourceIri base (path ++ [kind, indexSegment index]) := by
  rw [resourceIri_append]
  rfl

section

variable (text : IriText) (base id : String)

theorem catalogIri_eq : catalogIri text base id = resourceIri base [catalogsSegment, text.segment id] := by
  apply congrArg NamedNode.mk
  rw [← String.toList_inj]
  simp [catalogsSegment, IriText.segment]

theorem datasetIri_eq : datasetIri text base id = resourceIri base [datasetsSegment, text.segment id] := by
  apply congrArg NamedNode.mk
  rw [← String.toList_inj]
  simp [datasetsSegment, IriText.segment]

theorem serviceIri_eq : serviceIri text base id = resourceIri base [servicesSegment, text.segment id] := by
  apply congrArg NamedNode.mk
  rw [← String.toList_inj]
  simp [servicesSegment, IriText.segment]

theorem kindIri_injective (kind : PathSegment) :
    Function.Injective fun id => resourceIri base [kind, text.segment id] := by
  intro first second same
  have paths := resourceIri_injective base same
  exact text.segment_injective (by simpa using paths)

theorem datasetIri_injective : Function.Injective (datasetIri text base) := by
  intro first second same
  rw [datasetIri_eq, datasetIri_eq] at same
  exact kindIri_injective text base datasetsSegment same

theorem serviceIri_injective : Function.Injective (serviceIri text base) := by
  intro first second same
  rw [serviceIri_eq, serviceIri_eq] at same
  exact kindIri_injective text base servicesSegment same

theorem distributionIri_eq (index : Nat) : distributionIri text base id index =
    resourceIri base ([datasetsSegment, text.segment id] ++ [distributionsSegment, indexSegment index]) := by
  rw [resourceIri_append, ← datasetIri_eq]
  apply congrArg NamedNode.mk
  rw [← String.toList_inj]
  simp [distributionsSegment, indexSegment, datasetIri, iri]

theorem policyIri_eq (index : Nat) : policyIri text base id index =
    resourceIri base ([datasetsSegment, text.segment id] ++ [policiesSegment, indexSegment index]) := by
  rw [resourceIri_append, ← datasetIri_eq]
  apply congrArg NamedNode.mk
  rw [← String.toList_inj]
  simp [policiesSegment, indexSegment, datasetIri, iri]

end

/-- A resource of the store: path segments address it, and terms are its objects. -/
abbrev StoredResource := Resource PathSegment NamedNode Term

abbrev StoredBranch := NamedNode × List PathSegment × StoredResource

section

variable (text : IriText)

def positionStatement (index : Nat) : NamedNode × Term :=
  (sequenceIndexPred, .literal (.ofIndex index))

mutual
def constraintResource (constraint : Constraint) (index : Nat) : StoredResource :=
  match constraint with
  | .atomic atomic => .node
    [positionStatement index,
     (odrlLeftOperandPred, iriOrLiteralTerm text atomic.leftOperand),
     (odrlOperatorPred, iriOrLiteralTerm text atomic.operator),
     (odrlRightOperandPred, .literal (.ofString atomic.rightOperand))] []
  | .logical operator children => .node
    [positionStatement index, (logicalOperatorPred, .namedNode operator.predicate)]
    (childBranches children operator.predicate 0)

def childBranches (children : List Constraint) (predicate : NamedNode) (index : Nat) : List StoredBranch :=
  match children with
  | [] => []
  | child :: children =>
    (predicate, [constraintsSegment, indexSegment index], constraintResource child index) ::
      childBranches children predicate (index + 1)
end

def constraintBranch (predicate : NamedNode) (index : Nat) (constraint : Constraint) : StoredBranch :=
  (predicate, [constraintsSegment, indexSegment index], constraintResource text constraint index)

theorem childBranches_eq (children : List Constraint) (predicate : NamedNode) (start : Nat) :
    childBranches text children predicate start =
      children.mapIdx fun index child => constraintBranch text predicate (start + index) child := by
  induction children generalizing start with
  | nil => rfl
  | cons child children ih =>
    rw [childBranches, ih, List.mapIdx_cons]
    simp only [constraintBranch, Nat.add_zero, Nat.add_assoc, Nat.add_comm 1]

def ruleResource (rule : Rule) (index : Nat) : StoredResource :=
  .node [positionStatement index, (odrlActionPred, iriOrLiteralTerm text rule.action)]
    (rule.constraints.mapIdx (constraintBranch text odrlConstraintPred))

def ruleBranch (predicate : NamedNode) (segment : PathSegment) (index : Nat) (rule : Rule) : StoredBranch :=
  (predicate, [segment, indexSegment index], ruleResource text rule index)

def ruleBranches (policy : Policy) : List StoredBranch :=
  policy.permissions.mapIdx (ruleBranch text odrlPermissionPred permissionsSegment) ++
    policy.prohibitions.mapIdx (ruleBranch text odrlProhibitionPred prohibitionsSegment) ++
    policy.obligations.mapIdx (ruleBranch text odrlObligationPred obligationsSegment)

def policyStatements (policy : Policy) (index : Nat) : List (NamedNode × Term) :=
  (rdfType, .namedNode (odrlPolicyClass policy.kind)) :: positionStatement index ::
    (policy.id.toList.map fun id => (policyIdPred, .literal (.ofString id))) ++
    (policy.assigner.toList.map fun assigner => (odrlAssignerPred, iriOrLiteralTerm text assigner)) ++
    (policy.assignee.toList.map fun assignee => (odrlAssigneePred, iriOrLiteralTerm text assignee))

def policyResource (policy : Policy) (index : Nat) : StoredResource :=
  .node (policyStatements text policy index) (ruleBranches text policy)

def policyBranch (index : Nat) (policy : Policy) : StoredBranch :=
  (odrlHasPolicyPred, [policiesSegment, indexSegment index], policyResource text policy index)

def propertyStatements (properties : Properties) : List (NamedNode × Term) :=
  properties.toList.map fun entry => (propertyPredicate text entry.1, .literal (.ofString entry.2))

def distributionResource (base : String) (distribution : Distribution) (index : Nat) : StoredResource :=
  .node
    [(rdfType, .namedNode dcatDistributionClass), positionStatement index,
     (dctFormatPred, .literal (.ofString distribution.format)),
     (dcatAccessServicePred, .namedNode (serviceIri text base distribution.accessService))] []

def distributionBranch (base : String) (index : Nat) (distribution : Distribution) : StoredBranch :=
  (dcatDistributionPred, [distributionsSegment, indexSegment index],
    distributionResource text base distribution index)

def datasetStatements (dataset : Dataset) (index : Nat) : List (NamedNode × Term) :=
  (rdfType, .namedNode dcatDatasetClass) :: positionStatement index ::
    propertyStatements text dataset.properties

def datasetBranches (base : String) (dataset : Dataset) : List StoredBranch :=
  dataset.distributions.mapIdx (distributionBranch text base) ++ dataset.policies.mapIdx (policyBranch text)

def datasetResource (base : String) (dataset : Dataset) (index : Nat) : StoredResource :=
  .node (datasetStatements text dataset index) (datasetBranches text base dataset)

def serviceResource (service : DataService) (index : Nat) : StoredResource :=
  .node
    ((rdfType, .namedNode dcatDataServiceClass) :: positionStatement index ::
      (dcatEndpointUrlPred, iriOrLiteralTerm text service.endpointUrl) ::
      service.endpointDescription.toList.map fun description =>
        (dcatEndpointDescriptionPred, .literal (.ofString description))) []

def catalogStatements (base : String) (catalog : Catalog) : List (NamedNode × Term) :=
  (rdfType, .namedNode dcatCatalogClass) ::
    (catalog.participantId.toList.map fun participantId =>
      (participantIdPred, .literal (.ofString participantId))) ++
    propertyStatements text catalog.properties ++
    (catalog.datasets.map fun dataset => (dcatDatasetPred, .namedNode (datasetIri text base dataset.id))) ++
    (catalog.dataServices.map fun service => (dcatServicePred, .namedNode (serviceIri text base service.id)))

def catalogPath (catalog : Catalog) : List PathSegment := [catalogsSegment, text.segment catalog.id]
def datasetPath (datasetId : String) : List PathSegment := [datasetsSegment, text.segment datasetId]
def servicePath (serviceId : String) : List PathSegment := [servicesSegment, text.segment serviceId]

def catalogResource (base : String) (catalog : Catalog) : List PathSegment × StoredResource :=
  (catalogPath text catalog, .node (catalogStatements text base catalog) [])

def datasetResources (base : String) (catalog : Catalog) : List (List PathSegment × StoredResource) :=
  catalog.datasets.mapIdx fun index dataset =>
    (datasetPath text dataset.id, datasetResource text base dataset index)

def serviceResources (catalog : Catalog) : List (List PathSegment × StoredResource) :=
  catalog.dataServices.mapIdx fun index service =>
    (servicePath text service.id, serviceResource text service index)

/-- The resources written for `catalog`, each at its own path. -/
def catalogForest (base : String) (catalog : Catalog) : List (List PathSegment × StoredResource) :=
  catalogResource text base catalog :: datasetResources text base catalog ++ serviceResources text catalog

end

/-- The statements of a resource and of everything beneath it. -/
def describeAt (base : String) (path : List PathSegment) (resource : StoredResource) :
    List (Description NamedNode NamedNode Term) :=
  resource.describe (resourceIri base) Term.namedNode path

def catalogDescriptions (text : IriText) (base : String) (catalog : Catalog) :
    List (Description NamedNode NamedNode Term) :=
  Resource.describeForest (resourceIri base) Term.namedNode (catalogForest text base catalog)

theorem mem_catalogDescriptions {text : IriText} {base : String} {catalog : Catalog}
    {description : Description NamedNode NamedNode Term} :
    description ∈ catalogDescriptions text base catalog ↔
      description = (catalogIri text base catalog.id, catalogStatements text base catalog) ∨
      (∃ index, ∃ bound : index < catalog.datasets.length, description ∈ describeAt base
        (datasetPath text catalog.datasets[index].id)
        (datasetResource text base catalog.datasets[index] index)) ∨
      ∃ index, ∃ bound : index < catalog.dataServices.length, description ∈ describeAt base
        (servicePath text catalog.dataServices[index].id)
        (serviceResource text catalog.dataServices[index] index) := by
  simp only [catalogDescriptions, Resource.describeForest, List.mem_flatMap, catalogForest, List.mem_append,
    List.mem_cons, datasetResources, serviceResources, List.mem_mapIdx]
  constructor
  · rintro ⟨resource, (rfl | ⟨index, bound, rfl⟩) | ⟨index, bound, rfl⟩, member⟩
    · rcases Resource.mem_describe_node.mp member with rfl | ⟨branch, none, _⟩
      · exact .inl (by simp [catalogIri_eq, catalogPath, catalogResource])
      · cases none
    · exact .inr (.inl ⟨index, bound, member⟩)
    · exact .inr (.inr ⟨index, bound, member⟩)
  · rintro (rfl | ⟨index, bound, member⟩ | ⟨index, bound, member⟩)
    · refine ⟨catalogResource text base catalog, .inl (.inl rfl), Resource.mem_describe_node.mpr (.inl ?_)⟩
      simp [catalogIri_eq, catalogPath, catalogResource]
    · exact ⟨_, .inl (.inr ⟨index, bound, rfl⟩), member⟩
    · exact ⟨_, .inr ⟨index, bound, rfl⟩, member⟩

end CatalogBroker
