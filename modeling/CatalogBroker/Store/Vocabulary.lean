import CatalogBroker.Store.Terms

/-! Fixed vocabulary terms, resource IRIs and the decoding of terms read back. -/

set_option autoImplicit false

namespace CatalogBroker

open Library

def nodeNs : String := "https://federated-catalog-rs.internal/nodes/"
def internalNs : String := "https://federated-catalog-rs.internal/ns#"
def internalPropertyPrefix : String := "https://federated-catalog-rs.internal/ns#property/"
def dcatNs : String := "http://www.w3.org/ns/dcat#"
def dctNs : String := "http://purl.org/dc/terms/"
def rdfTypeIri : String := "http://www.w3.org/1999/02/22-rdf-syntax-ns#type"

/-- `iri`: the source expects constant and percent-encoded IRIs to be accepted. -/
def iri (value : String) : NamedNode := ⟨value⟩

def dcat (name : String) : NamedNode := iri (dcatNs ++ name)
def dct (name : String) : NamedNode := iri (dctNs ++ name)
def internal (name : String) : NamedNode := iri (internalNs ++ name)
def odrl (name : String) : NamedNode := iri (odrlNs ++ name)

def rdfType : NamedNode := iri rdfTypeIri
def dcatCatalogClass : NamedNode := dcat "Catalog"
def dcatDatasetClass : NamedNode := dcat "Dataset"
def dcatDistributionClass : NamedNode := dcat "Distribution"
def dcatDataServiceClass : NamedNode := dcat "DataService"
def dcatDatasetPred : NamedNode := dcat "dataset"
def dcatServicePred : NamedNode := dcat "service"
def dcatDistributionPred : NamedNode := dcat "distribution"
def dcatAccessServicePred : NamedNode := dcat "accessService"
def dcatEndpointUrlPred : NamedNode := dcat "endpointURL"
def dcatEndpointDescriptionPred : NamedNode := dcat "endpointDescription"
def dctFormatPred : NamedNode := dct "format"
def participantIdPred : NamedNode := internal "participantId"
def sequenceIndexPred : NamedNode := internal "sequenceIndex"
def logicalOperatorPred : NamedNode := internal "logicalOperator"
def policyIdPred : NamedNode := internal "policyId"
def odrlHasPolicyPred : NamedNode := odrl "hasPolicy"
def odrlPermissionPred : NamedNode := odrl "permission"
def odrlProhibitionPred : NamedNode := odrl "prohibition"
def odrlObligationPred : NamedNode := odrl "obligation"
def odrlActionPred : NamedNode := odrl "action"
def odrlConstraintPred : NamedNode := odrl "constraint"
def odrlLeftOperandPred : NamedNode := odrl "leftOperand"
def odrlOperatorPred : NamedNode := odrl "operator"
def odrlRightOperandPred : NamedNode := odrl "rightOperand"
def odrlAndPred : NamedNode := odrl "and"
def odrlOrPred : NamedNode := odrl "or"
def odrlXonePred : NamedNode := odrl "xone"
def odrlAndSequencePred : NamedNode := odrl "andSequence"
def odrlAssignerPred : NamedNode := odrl "assigner"
def odrlAssigneePred : NamedNode := odrl "assignee"

/-- The logical predicates with their combinators, in reading precedence. -/
def logicalConstraintPreds : List (NamedNode × LogicalOperator) :=
  logicalConstraintBuilders.map fun builder => (odrl builder.1, builder.2)

def odrlPolicyClass : PolicyKind → NamedNode
  | .set => odrl "Set"
  | .offer => odrl "Offer"
  | .agreement => odrl "Agreement"

def policyKindFromClass (node : NamedNode) : StoreResult PolicyKind :=
  if node = odrlPolicyClass .set then .ok .set
  else if node = odrlPolicyClass .offer then .ok .offer
  else if node = odrlPolicyClass .agreement then .ok .agreement
  else .error (.backend ("unrecognized ODRL policy type IRI: " ++ node.iri))

@[simp] theorem policyKindFromClass_odrlPolicyClass (kind : PolicyKind) :
    policyKindFromClass (odrlPolicyClass kind) = .ok kind := by
  cases kind <;> decide

section

variable (text : IriText)

def nodeBase (node : NodeId) : String := nodeNs ++ text.encode node.id

def nodeIri (node : NodeId) : NamedNode := iri (nodeBase text node)

def catalogIri (base catalogId : String) : NamedNode :=
  iri (base ++ "/catalogs/" ++ text.encode catalogId)

def datasetIri (base datasetId : String) : NamedNode :=
  iri (base ++ "/datasets/" ++ text.encode datasetId)

def datasetResourceIri (node : NodeId) (datasetId : String) : String :=
  (datasetIri text (nodeBase text node) datasetId).iri

def distributionIri (base datasetId : String) (index : Nat) : NamedNode :=
  iri (base ++ "/datasets/" ++ text.encode datasetId ++ "/distributions/" ++ toString index)

def serviceIri (base serviceId : String) : NamedNode :=
  iri (base ++ "/services/" ++ text.encode serviceId)

def serviceResourceIri (node : NodeId) (serviceId : String) : String :=
  (serviceIri text (nodeBase text node) serviceId).iri

def policyIri (base datasetId : String) (index : Nat) : NamedNode :=
  iri (base ++ "/datasets/" ++ text.encode datasetId ++ "/policies/" ++ toString index)

def ruleIri (policy segment : String) (index : Nat) : NamedNode :=
  iri (policy ++ "/" ++ segment ++ "/" ++ toString index)

def constraintIri (parent : String) (index : Nat) : NamedNode :=
  iri (parent ++ "/constraints/" ++ toString index)

def stripPrefixDecode (value lead : String) : StoreResult String :=
  match Text.stripPrefix value lead with
  | none => .error (.backend ("expected IRI '" ++ value ++ "' to start with '" ++ lead ++ "'"))
  | some rest => match text.decode rest with
    | .ok decoded => .ok decoded
    | .error e => .error (.backend ("invalid percent-encoding in '" ++ value ++ "': " ++ e))

@[simp] theorem stripPrefixDecode_encode (lead value : String) :
    stripPrefixDecode text (lead ++ text.encode value) lead = .ok value := by
  simp [stripPrefixDecode, text.decode_encode]

def decodeNodeId (graph : NamedNode) : StoreResult NodeId :=
  (stripPrefixDecode text graph.iri nodeNs).map NodeId.mk

@[simp] theorem decodeNodeId_nodeIri (node : NodeId) :
    decodeNodeId text (nodeIri text node) = .ok node := by
  simp [decodeNodeId, nodeIri, nodeBase, iri, Except.map]

theorem nodeIri_injective : Function.Injective (nodeIri text) := by
  intro first second same
  have decoded := decodeNodeId_nodeIri text first
  rw [same, decodeNodeId_nodeIri] at decoded
  exact (Except.ok.inj decoded).symm

def iriOrLiteralTerm (value : String) : Term :=
  if text.accepts value then .namedNode ⟨value⟩ else .literal (.ofString value)

/-- The predicate of a free-form property: its key when that is an IRI already. -/
def propertyPredicate (key : String) : NamedNode :=
  if text.accepts key then ⟨key⟩ else iri (internalPropertyPrefix ++ text.encode key)

def decodePropertyKey (pred : NamedNode) : String :=
  match Text.stripPrefix pred.iri internalPropertyPrefix with
  | some rest => match text.decode rest with
    | .ok decoded => decoded
    | .error _ => rest
  | none => pred.iri

def termAsString (term : Term) : StoreResult String :=
  match term with
  | .literal value => .ok value.value
  | .namedNode node => .ok node.iri
  | other => .error (.backend ("expected a literal or IRI term, got " ++ text.debugTerm other))

def expectNamedNode (term : Term) (context : String) : StoreResult NamedNode :=
  match term with
  | .namedNode node => .ok node
  | other => .error (.backend
      ("expected a named node for " ++ context ++ ", got " ++ text.debugTerm other))

@[simp] theorem termAsString_iriOrLiteralTerm (value : String) :
    termAsString text (iriOrLiteralTerm text value) = .ok value := by
  unfold iriOrLiteralTerm
  split <;> rfl

theorem decodePropertyKey_propertyPredicate (key : String)
    (outside : text.accepts key = true → ∀ rest, key ≠ internalPropertyPrefix ++ rest) :
    decodePropertyKey text (propertyPredicate text key) = key := by
  by_cases accepted : text.accepts key = true
  · have plain := Text.stripPrefix_eq_none_iff.mpr (outside accepted)
    simp [propertyPredicate, accepted, decodePropertyKey, plain]
  · simp [propertyPredicate, accepted, decodePropertyKey, iri, text.decode_encode]

end

end CatalogBroker
