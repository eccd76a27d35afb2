import CatalogBroker.Store.Vocabulary

/-! Reconstructing a catalog from the quads in its named graph.

Lists are linked in no order and sorted back by `fcns:sequenceIndex`. Where the
source counts constraint depth up to the shared limit, `loadConstraint` counts
the levels left down.
-/

set_option autoImplicit false

namespace CatalogBroker

open Library

/-- The quads of one named graph from one store snapshot, in store order. The source keeps an
index by subject beside them; a lookup here scans. -/
structure GraphSnapshot where
  quads : List Quad

namespace GraphSnapshot

variable (graph : GraphSnapshot)

/-- The quads matching the given subject, predicate and object, in store order. -/
def matching (subject predicate : Option NamedNode) (object : Option Term) : List Quad :=
  graph.quads.filter fun quad =>
    subject.all (fun node => quad.subject = .namedNode node) &&
      predicate.all (fun node => quad.predicate = node) && object.all (fun term => quad.object = term)

def firstObject (subject predicate : NamedNode) : Option Term :=
  (graph.matching (some subject) (some predicate) none).head?.map Quad.object

variable (text : IriText)

def optionalString (subject predicate : NamedNode) : StoreResult (Option String) :=
  match graph.firstObject subject predicate with
  | none => .ok none
  | some term => (termAsString text term).map some

def requiredString (subject predicate : NamedNode) (name : String) : StoreResult String := do
  match ← graph.optionalString text subject predicate with
  | some value => return value
  | none => .error (.backend (subject.iri ++ " is missing " ++ name))

def sequenceIndex (subject : NamedNode) : StoreResult Nat :=
  match graph.firstObject subject sequenceIndexPred with
  | none => .error (.backend (subject.iri ++ " is missing fcns:sequenceIndex"))
  | some (.literal literal) => match Text.parseUsize literal.value with
    | .ok index => .ok index
    | .error e => .error (.backend ("invalid sequenceIndex: " ++ e))
  | some other => .error (.backend ("sequenceIndex must be a literal, got " ++ text.debugTerm other))

/-- The loop every list is read with: load the object of each link, then sort by position. -/
def loadLinked {α : Type} (links : List Quad) (context : String)
    (load : NamedNode → StoreResult (Nat × α)) : StoreResult (List α) := do
  let entries ← links.mapM fun quad => do
    let subject ← expectNamedNode text quad.object context
    load subject
  return Listing.inSequence entries

def loadProperties (subject : NamedNode) (reserved : List NamedNode) : StoreResult Properties :=
  (graph.matching (some subject) none none).foldlM (fun properties quad =>
    if quad.predicate ∈ reserved then .ok properties
    else do
      let value ← termAsString text quad.object
      return properties.insert (decodePropertyKey text quad.predicate) value) ∅

/-- Which predicate a group links its children with, and those links. -/
def chooseGroup (subject : NamedNode) (marker : Option Term) :
    List (NamedNode × LogicalOperator) → StoreResult (Option (LogicalOperator × List Quad))
  | [] => .ok none
  | (predicate, operator) :: rest => do
    let isMarker : Bool := marker = some (.namedNode predicate)
    let links := graph.matching (some subject) (some predicate) none
    if marker.isSome ∧ isMarker = false ∧ links ≠ [] then
      .error (.backend (subject.iri ++ " has fcns:logicalOperator " ++
        (marker.map text.displayTerm).getD "" ++ " but links its children with " ++
        text.displayTerm (.namedNode predicate)))
    else
      let later ← chooseGroup subject marker rest
      -- With a marker its predicate wins even without links; without one, the first that links.
      return if isMarker ∨ (marker.isNone ∧ links ≠ []) then some (operator, links) else later

def loadConstraint (levels : Nat) (subject : NamedNode) : StoreResult (Nat × Constraint) :=
  match levels with
  | 0 => .error (.backend (subject.iri ++ " is nested past the maximum supported logical constraint depth ("
      ++ toString maxConstraintDepth ++ ")"))
  | levels + 1 => do
    let index ← graph.sequenceIndex text subject
    -- a left operand makes it a leaf, whatever else is stated
    match graph.firstObject subject odrlLeftOperandPred with
    | some leftOperandTerm =>
      let leftOperand ← termAsString text leftOperandTerm
      let operator ← graph.requiredString text subject odrlOperatorPred "odrl:operator"
      let rightOperand ← graph.requiredString text subject odrlRightOperandPred "odrl:rightOperand"
      return (index, .atomic ⟨leftOperand, operator, rightOperand⟩)
    | none =>
      let marker := graph.firstObject subject logicalOperatorPred
      match ← graph.chooseGroup text subject marker logicalConstraintPreds with
      | some (operator, links) =>
        let children ← loadLinked text links "a logical constraint child reference" (loadConstraint levels)
        return (index, .logical operator children)
      | none => .error (.backend (match marker with
        | none => subject.iri ++ " has neither odrl:leftOperand nor fcns:logicalOperator"
        | some operator => subject.iri ++ " has fcns:logicalOperator " ++ text.displayTerm operator ++
            ", which is none of odrl:and/odrl:or/odrl:xone/odrl:andSequence"))

def loadRule (subject : NamedNode) : StoreResult (Nat × Rule) := do
  let index ← graph.sequenceIndex text subject
  let action ← graph.requiredString text subject odrlActionPred "odrl:action"
  let constraints ← loadLinked text (graph.matching (some subject) (some odrlConstraintPred) none)
    "an odrl:constraint reference" (graph.loadConstraint text (maxConstraintDepth + 1))
  return (index, ⟨action, constraints⟩)

def loadRules (policy predicate : NamedNode) : StoreResult (List Rule) :=
  loadLinked text (graph.matching (some policy) (some predicate) none) "an odrl rule reference"
    (graph.loadRule text)

def loadPolicy (subject : NamedNode) : StoreResult (Nat × Policy) := do
  let index ← graph.sequenceIndex text subject
  let kind ← match graph.firstObject subject rdfType with
    | none => .error (.backend (subject.iri ++ " is missing rdf:type"))
    | some kindTerm => do
      let kindNode ← expectNamedNode text kindTerm "a policy's rdf:type"
      policyKindFromClass kindNode
  let id ← graph.optionalString text subject policyIdPred
  let assigner ← graph.optionalString text subject odrlAssignerPred
  let assignee ← graph.optionalString text subject odrlAssigneePred
  let permissions ← graph.loadRules text subject odrlPermissionPred
  let prohibitions ← graph.loadRules text subject odrlProhibitionPred
  let obligations ← graph.loadRules text subject odrlObligationPred
  return (index, ⟨id, kind, assigner, assignee, permissions, prohibitions, obligations⟩)

def loadDistribution (base : String) (subject : NamedNode) : StoreResult (Nat × Distribution) := do
  let index ← graph.sequenceIndex text subject
  let format ← graph.requiredString text subject dctFormatPred "dct:format"
  match graph.firstObject subject dcatAccessServicePred with
  | none => .error (.backend (subject.iri ++ " is missing dcat:accessService"))
  | some accessServiceTerm =>
    let accessServiceNode ← expectNamedNode text accessServiceTerm "dcat:accessService's object"
    let accessService ← stripPrefixDecode text accessServiceNode.iri (base ++ "/services/")
    return (index, ⟨format, accessService⟩)

def reservedDatasetPreds : List NamedNode :=
  [rdfType, sequenceIndexPred, dcatDistributionPred, odrlHasPolicyPred]

def loadDataset (base : String) (subject : NamedNode) : StoreResult (Nat × Dataset) := do
  let id ← stripPrefixDecode text subject.iri (base ++ "/datasets/")
  let index ← graph.sequenceIndex text subject
  let distributions ← loadLinked text (graph.matching (some subject) (some dcatDistributionPred) none)
    "a dcat:distribution reference" (graph.loadDistribution text base)
  let policies ← loadLinked text (graph.matching (some subject) (some odrlHasPolicyPred) none)
    "an odrl:hasPolicy reference" (graph.loadPolicy text)
  let properties ← graph.loadProperties text subject reservedDatasetPreds
  return (index, ⟨id, properties, distributions, policies⟩)

def loadDataService (base : String) (subject : NamedNode) : StoreResult (Nat × DataService) := do
  let id ← stripPrefixDecode text subject.iri (base ++ "/services/")
  let index ← graph.sequenceIndex text subject
  let endpointUrl ← graph.requiredString text subject dcatEndpointUrlPred "dcat:endpointURL"
  let endpointDescription ← graph.optionalString text subject dcatEndpointDescriptionPred
  return (index, ⟨id, endpointUrl, endpointDescription⟩)

def reservedCatalogPreds : List NamedNode :=
  [rdfType, participantIdPred, dcatDatasetPred, dcatServicePred]

/-- The catalog stored in this graph for `node`, `none` when it holds no catalog resource. -/
def loadCatalog (node : NodeId) : StoreResult (Option Catalog) :=
  let base := nodeBase text node
  match (graph.matching none (some rdfType) (some (.namedNode dcatCatalogClass))).head? with
  | none => .ok none
  | some first => match first.subject with
    | .blankNode _ => .error (.backend "catalog subject must be a named node")
    | .namedNode subject => do
      let id ← stripPrefixDecode text subject.iri (base ++ "/catalogs/")
      let participantId ← graph.optionalString text subject participantIdPred
      let properties ← graph.loadProperties text subject reservedCatalogPreds
      let datasets ← loadLinked text (graph.matching (some subject) (some dcatDatasetPred) none)
        "a dcat:dataset reference" (graph.loadDataset text base)
      let dataServices ← loadLinked text (graph.matching (some subject) (some dcatServicePred) none)
        "a dcat:service reference" (graph.loadDataService text base)
      return some ⟨id, node, participantId, datasets, dataServices, properties⟩

end GraphSnapshot

end CatalogBroker
