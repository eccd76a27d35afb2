import CatalogBroker.Store.Vocabulary

/-! Writing a catalog into its named graph as decomposed RDF quads.

Each writer returns the quads it buffers, in order. The only failure is a
constraint nested past the shared depth limit.
-/

set_option autoImplicit false

namespace CatalogBroker

/-- One buffered quad of the graph being written. -/
def insertQuad (graph subject predicate : NamedNode) (object : Term) : Quad :=
  ⟨.namedNode subject, predicate, object, .namedNode graph⟩

/-- A loop over `items` with their positions, buffering what each pass emits. -/
def writeEach {α : Type} (items : List α) (emit : Nat → α → StoreResult (List Quad)) :
    StoreResult (List Quad) :=
  match items with
  | [] => .ok []
  | item :: items => do
    let first ← emit 0 item
    let rest ← writeEach items fun index => emit (index + 1)
    return first ++ rest

def LogicalOperator.predicate : LogicalOperator → NamedNode
  | .and => odrlAndPred
  | .or => odrlOrPred
  | .xone => odrlXonePred
  | .andSequence => odrlAndSequencePred

section

variable (text : IriText) (graph : NamedNode)

mutual
def writeConstraint (constraint : Constraint) (node : NamedNode) (index depth : Nat) :
    StoreResult (List Quad) :=
  -- Refused rather than truncated: an emptied group would match everything.
  if depth > maxConstraintDepth then
    .error (.backend (node.iri ++ " is nested past the maximum supported logical constraint depth ("
      ++ toString maxConstraintDepth ++ ")"))
  else
    let position := insertQuad graph node sequenceIndexPred (.literal (.ofIndex index))
    match constraint with
    | .atomic atomic => .ok
      [position,
       insertQuad graph node odrlLeftOperandPred (iriOrLiteralTerm text atomic.leftOperand),
       insertQuad graph node odrlOperatorPred (iriOrLiteralTerm text atomic.operator),
       insertQuad graph node odrlRightOperandPred (.literal (.ofString atomic.rightOperand))]
    | .logical operator children => do
      let below ← writeChildren children node operator.predicate 0 depth
      return position :: insertQuad graph node logicalOperatorPred (.namedNode operator.predicate) :: below

/-- The loop over a group's children from position `index` on. -/
def writeChildren (children : List Constraint) (node predicate : NamedNode) (index depth : Nat) :
    StoreResult (List Quad) :=
  match children with
  | [] => .ok []
  | child :: children => do
    let childNode := constraintIri node.iri index
    let own ← writeConstraint child childNode index (depth + 1)
    let rest ← writeChildren children node predicate (index + 1) depth
    return insertQuad graph node predicate (.namedNode childNode) :: own ++ rest
end

def writeRule (rule : Rule) (node : NamedNode) (index : Nat) : StoreResult (List Quad) := do
  let constraints ← writeEach rule.constraints fun index constraint => do
    let constraintNode := constraintIri node.iri index
    let below ← writeConstraint text graph constraint constraintNode index 0
    return insertQuad graph node odrlConstraintPred (.namedNode constraintNode) :: below
  return insertQuad graph node sequenceIndexPred (.literal (.ofIndex index)) ::
    insertQuad graph node odrlActionPred (iriOrLiteralTerm text rule.action) :: constraints

def writeRules (rules : List Rule) (policyNode predicate : NamedNode) (segment : String) :
    StoreResult (List Quad) :=
  writeEach rules fun index rule => do
    let ruleNode := ruleIri policyNode.iri segment index
    let below ← writeRule text graph rule ruleNode index
    return insertQuad graph policyNode predicate (.namedNode ruleNode) :: below

def writePolicy (policy : Policy) (node : NamedNode) (index : Nat) : StoreResult (List Quad) := do
  let permissions ← writeRules text graph policy.permissions node odrlPermissionPred "permissions"
  let prohibitions ← writeRules text graph policy.prohibitions node odrlProhibitionPred "prohibitions"
  let obligations ← writeRules text graph policy.obligations node odrlObligationPred "obligations"
  return insertQuad graph node rdfType (.namedNode (odrlPolicyClass policy.kind)) ::
    insertQuad graph node sequenceIndexPred (.literal (.ofIndex index)) ::
    (policy.id.toList.map fun id => insertQuad graph node policyIdPred (.literal (.ofString id))) ++
    (policy.assigner.toList.map fun assigner =>
      insertQuad graph node odrlAssignerPred (iriOrLiteralTerm text assigner)) ++
    (policy.assignee.toList.map fun assignee =>
      insertQuad graph node odrlAssigneePred (iriOrLiteralTerm text assignee)) ++
    permissions ++ prohibitions ++ obligations

def writeProperties (properties : Properties) (node : NamedNode) : List Quad :=
  properties.toList.map fun entry =>
    insertQuad graph node (propertyPredicate text entry.1) (.literal (.ofString entry.2))

def writeDistribution (base datasetId : String) (datasetNode : NamedNode) (index : Nat)
    (distribution : Distribution) : List Quad :=
  let node := distributionIri text base datasetId index
  [insertQuad graph datasetNode dcatDistributionPred (.namedNode node),
   insertQuad graph node rdfType (.namedNode dcatDistributionClass),
   insertQuad graph node sequenceIndexPred (.literal (.ofIndex index)),
   insertQuad graph node dctFormatPred (.literal (.ofString distribution.format)),
   insertQuad graph node dcatAccessServicePred (.namedNode (serviceIri text base distribution.accessService))]

def writeDataset (base : String) (catalogNode : NamedNode) (index : Nat) (dataset : Dataset) :
    StoreResult (List Quad) := do
  let node := datasetIri text base dataset.id
  let policies ← writeEach dataset.policies fun policyIndex policy => do
    let policyNode := policyIri text base dataset.id policyIndex
    let below ← writePolicy text graph policy policyNode policyIndex
    return insertQuad graph node odrlHasPolicyPred (.namedNode policyNode) :: below
  return insertQuad graph catalogNode dcatDatasetPred (.namedNode node) ::
    insertQuad graph node rdfType (.namedNode dcatDatasetClass) ::
    insertQuad graph node sequenceIndexPred (.literal (.ofIndex index)) ::
    writeProperties text graph dataset.properties node ++
    (dataset.distributions.mapIdx (writeDistribution text graph base dataset.id node)).flatten ++
    policies

def writeDataService (base : String) (catalogNode : NamedNode) (index : Nat) (service : DataService) :
    List Quad :=
  let node := serviceIri text base service.id
  insertQuad graph catalogNode dcatServicePred (.namedNode node) ::
    insertQuad graph node rdfType (.namedNode dcatDataServiceClass) ::
    insertQuad graph node sequenceIndexPred (.literal (.ofIndex index)) ::
    insertQuad graph node dcatEndpointUrlPred (iriOrLiteralTerm text service.endpointUrl) ::
    service.endpointDescription.toList.map fun description =>
      insertQuad graph node dcatEndpointDescriptionPred (.literal (.ofString description))

/-- Every quad of `catalog`, buffered under its graph name. -/
def writeCatalog (catalog : Catalog) : StoreResult (List Quad) := do
  let base := nodeBase text catalog.originNode
  let node := catalogIri text base catalog.id
  let datasets ← writeEach catalog.datasets (writeDataset text graph base node)
  return insertQuad graph node rdfType (.namedNode dcatCatalogClass) ::
    (catalog.participantId.toList.map fun participantId =>
      insertQuad graph node participantIdPred (.literal (.ofString participantId))) ++
    writeProperties text graph catalog.properties node ++
    datasets ++
    (catalog.dataServices.mapIdx (writeDataService text graph base node)).flatten

end

end CatalogBroker
