import CatalogBroker.Store.CacheRefinement

/-! The part of the store a restricted caller sees.

A quad is hidden when its subject or object belongs to a resource that is not on
the allow-list; the view filters every lookup by it.
-/

set_option autoImplicit false

namespace CatalogBroker

open Library

/-- The allow-list: resource IRIs a caller may see. -/
abbrev VisibleIris := Finset String

/-- The harvested resource an IRI belongs to; `none` is never gated. Anything else under a
node owns itself, so nothing is allowed to list it. -/
def owningResourceIri (iri : String) : Option String := do
  let rest ← Text.stripPrefix iri nodeNs
  let (node, tail) ← Text.splitOnce rest '/'
  let (kind, afterKind) := (Text.splitOnce tail '/').getD (tail, "")
  if kind = "catalogs" then none
  else if (kind = "datasets" ∨ kind = "services") ∧ kind.utf8ByteSize < tail.utf8ByteSize then
    let id := Text.beforeFirst afterKind '/'
    some (Text.sliceTo iri
      (nodeNs.utf8ByteSize + node.utf8ByteSize + 1 + kind.utf8ByteSize + 1 + id.utf8ByteSize))
  else some iri

def sequenceIndexIri : String := "https://federated-catalog-rs.internal/ns#sequenceIndex"

def iriIsVisible (iri : String) (visible : VisibleIris) : Bool :=
  (owningResourceIri iri).all fun owner => owner ∈ visible

def subjectIsVisible (subject : NamedOrBlankNode) (visible : VisibleIris) : Bool :=
  match subject with
  | .namedNode node => iriIsVisible node.iri visible
  | .blankNode _ => true

def objectIsVisible (object : Term) (visible : VisibleIris) : Bool :=
  match object with
  | .namedNode node => iriIsVisible node.iri visible
  | .blankNode _ => true
  | .literal _ => true

def quadIsVisible (quad : Quad) (visible : VisibleIris) : Bool :=
  if quad.predicate.iri = sequenceIndexIri then false
  else subjectIsVisible quad.subject visible && objectIsVisible quad.object visible

structure InternalQuad where
  subject : Term
  predicate : Term
  object : Term
  graphName : Option Term
  deriving DecidableEq

def NamedOrBlankNode.toTerm : NamedOrBlankNode → Term
  | .namedNode node => .namedNode node
  | .blankNode node => .blankNode node

theorem NamedOrBlankNode.toTerm_injective : Function.Injective NamedOrBlankNode.toTerm := by
  intro first second same
  cases first <;> cases second <;> simp_all [NamedOrBlankNode.toTerm]

def GraphName.toTerm? : GraphName → Option Term
  | .defaultGraph => none
  | .namedNode node => some (.namedNode node)
  | .blankNode node => some (.blankNode node)

def Quad.internal (quad : Quad) : InternalQuad :=
  ⟨quad.subject.toTerm, .namedNode quad.predicate, quad.object, quad.graphName.toTerm?⟩

def QuadStore.quadsForPattern (store : QuadStore) (order : ReadOrder) (subject : Option NamedOrBlankNode)
    (predicate : Option NamedNode) (object : Option Term) (graph : Option GraphName) : List Quad :=
  (order.scan store.quads).filter fun quad =>
    subject.all (fun term => quad.subject = term) && predicate.all (fun node => quad.predicate = node) &&
      object.all (fun term => quad.object = term) && graph.all fun name => quad.graphName = name

theorem mem_quadsForPattern {store : QuadStore} {order : ReadOrder} {subject : Option NamedOrBlankNode}
    {predicate : Option NamedNode} {object : Option Term} {graph : Option GraphName} {quad : Quad} :
    quad ∈ store.quadsForPattern order subject predicate object graph ↔ quad ∈ store.quads ∧
      (∀ term ∈ subject, quad.subject = term) ∧ (∀ node ∈ predicate, quad.predicate = node) ∧
      (∀ term ∈ object, quad.object = term) ∧ ∀ name ∈ graph, quad.graphName = name := by
  simp only [QuadStore.quadsForPattern, List.mem_filter, store.mem_scan, Bool.and_eq_true, Option.all_eq_true,
    decide_eq_true_eq, Option.mem_def, and_assoc]

/-- A bound subject as the store takes it: a literal cannot stand there. -/
def subjectPosition : Option Term → Option (Option NamedOrBlankNode)
  | none => some none
  | some (.namedNode node) => some (some (.namedNode node))
  | some (.blankNode node) => some (some (.blankNode node))
  | some (.literal _) => none

def predicatePosition : Option Term → Option (Option NamedNode)
  | none => some none
  | some (.namedNode node) => some (some node)
  | some _ => none

/-- `none` is any named graph, `some none` the default graph. -/
def graphPosition : Option (Option Term) → Option (Option GraphName)
  | none => some none
  | some none => some (some .defaultGraph)
  | some (some (.namedNode node)) => some (some (.namedNode node))
  | some (some (.blankNode node)) => some (some (.blankNode node))
  | some (some (.literal _)) => none

namespace VisibleDataset

variable (store : QuadStore) (visible : VisibleIris) (order : ReadOrder)

/-- A bound subject or object owned by a hidden resource can match nothing visible. -/
def boundIriHidden (subject : Option (Option NamedOrBlankNode)) (object : Option Term) : Bool :=
  subject.join.any (fun term => !subjectIsVisible term visible) ||
    object.any fun term => !objectIsVisible term visible

def internalQuadsForPattern (subject predicate object : Option Term) (graphName : Option (Option Term)) :
    List InternalQuad :=
  let quads := if boundIriHidden visible (subjectPosition subject) object then [] else
    match subjectPosition subject, predicatePosition predicate, graphPosition graphName with
    | some subject, some predicate, some graph => store.quadsForPattern order subject predicate object graph
    | _, _, _ => []
  quads.filterMap fun quad =>
    -- an unbound graph ranges over the named graphs only
    if graphName.isNone ∧ quad.graphName = .defaultGraph then none
    else if quadIsVisible quad visible then some quad.internal
    else none

/-- Whether a graph holds a `dcat:Catalog` type quad. -/
def graphHoldsACatalog (graph : GraphName) : Bool :=
  (store.quadsForPattern order none (some rdfType) (some (.namedNode dcatCatalogClass)) (some graph)).head?.isSome

def namedGraphs : List GraphName :=
  ((order.scan store.quads).map Quad.graphName).dedup.filter fun name => name ≠ .defaultGraph

def internalNamedGraphs : List Term :=
  (namedGraphs store order).filterMap fun graph =>
    if graphHoldsACatalog store order graph then graph.toTerm? else none

def containsInternalGraphName (graphName : Term) : Bool :=
  match graphName with
  | .namedNode node => graphHoldsACatalog store order (.namedNode node)
  | .blankNode node => graphHoldsACatalog store order (.blankNode node)
  | .literal _ => false

end VisibleDataset

theorem owningResourceIri_outside {iri : String} (outside : Text.stripPrefix iri nodeNs = none) :
    owningResourceIri iri = none := by
  rw [owningResourceIri, outside]
  rfl

theorem resourceIri_iri (base : String) (kind segment : PathSegment) (below : List PathSegment) :
    (resourceIri base (kind :: segment :: below)).iri =
      base ++ "/" ++ kind.val ++ "/" ++ (segment.val ++
        String.ofList (Segments.render '/' (below.map fun step => step.val.toList))) := by
  rw [← String.toList_inj]
  simp [resourceIri, iri]

theorem splitOnce_slash {head : String} (free : '/' ∉ head.toList) (tail : String) :
    Text.splitOnce (head ++ "/" ++ tail) '/' = some (head, tail) := Text.splitOnce_append free tail

theorem render_head (below : List (List Char)) :
    (String.ofList (Segments.render '/' below)).toList.head?.all (· = '/') := by
  cases below with
  | nil => rfl
  | cons segment below => simp

section

variable (text : IriText) (node : NodeId)

/-- An IRI minted two or more segments beneath a node belongs to its first two, if they name a
dataset or a service. -/
theorem owningResourceIri_beneath (kind segment : PathSegment) (below : List PathSegment) :
    owningResourceIri (resourceIri (nodeBase text node) (kind :: segment :: below)).iri =
      if kind.val = "catalogs" then none
      else if kind.val = "datasets" ∨ kind.val = "services" then
        some (resourceIri (nodeBase text node) [kind, segment]).iri
      else some (resourceIri (nodeBase text node) (kind :: segment :: below)).iri := by
  let rest := String.ofList (Segments.render '/' (below.map fun step => step.val.toList))
  have whole : (resourceIri (nodeBase text node) (kind :: segment :: below)).iri =
      nodeNs ++ (text.encode node.id ++ "/" ++ (kind.val ++ "/" ++ (segment.val ++ rest))) := by
    rw [resourceIri_iri, nodeBase]
    simp only [String.append_assoc, rest]
  have own : (resourceIri (nodeBase text node) [kind, segment]).iri =
      nodeNs ++ text.encode node.id ++ "/" ++ kind.val ++ "/" ++ segment.val := by
    rw [resourceIri_iri, nodeBase]
    simp [String.append_assoc]
  -- Something follows the kind, so there is an id to cut at, though it may be empty.
  have longer : kind.val.utf8ByteSize < (kind.val ++ "/" ++ (segment.val ++ rest)).utf8ByteSize := by
    have slash : "/".utf8ByteSize = 1 := by decide
    simp only [String.utf8ByteSize_append, slash]
    omega
  -- The offset added up from the parts is the size of the node, kind and id together.
  have cut : Text.sliceTo (nodeNs ++ (text.encode node.id ++ "/" ++ (kind.val ++ "/" ++ (segment.val ++ rest))))
      (nodeNs.utf8ByteSize + (text.encode node.id).utf8ByteSize + 1 + kind.val.utf8ByteSize + 1 +
        segment.val.utf8ByteSize) = nodeNs ++ text.encode node.id ++ "/" ++ kind.val ++ "/" ++ segment.val := by
    have size : nodeNs.utf8ByteSize + (text.encode node.id).utf8ByteSize + 1 + kind.val.utf8ByteSize + 1 +
        segment.val.utf8ByteSize =
        (nodeNs ++ text.encode node.id ++ "/" ++ kind.val ++ "/" ++ segment.val).utf8ByteSize := by
      have slash : "/".utf8ByteSize = 1 := by decide
      simp only [String.utf8ByteSize_append, slash]
    rw [size]
    have split := Text.sliceTo_append
      (nodeNs ++ text.encode node.id ++ "/" ++ kind.val ++ "/" ++ segment.val) rest
    simpa only [String.append_assoc] using split
  rw [whole, own]
  simp only [owningResourceIri, Text.stripPrefix_append, bind, Option.bind_some,
    splitOnce_slash (text.encode_free node.id), splitOnce_slash kind.property, Option.getD_some,
    Text.beforeFirst_append segment.property (render_head _), longer, and_true, rest]
  rw [cut]

theorem owningResourceIri_dataset (id : String) (below : List PathSegment) :
    owningResourceIri (resourceIri (nodeBase text node) (datasetPath text id ++ below)).iri =
      some (datasetResourceIri text node id) := by
  rw [datasetResourceIri, datasetIri_eq]
  exact (owningResourceIri_beneath text node datasetsSegment (text.segment id) below).trans
    (by simp +decide [datasetsSegment])

theorem owningResourceIri_service (id : String) (below : List PathSegment) :
    owningResourceIri (resourceIri (nodeBase text node) (servicePath text id ++ below)).iri =
      some (serviceResourceIri text node id) := by
  rw [serviceResourceIri, serviceIri_eq]
  exact (owningResourceIri_beneath text node servicesSegment (text.segment id) below).trans
    (by simp +decide [servicesSegment])

theorem owningResourceIri_catalog (catalog : Catalog) (below : List PathSegment) :
    owningResourceIri (resourceIri (nodeBase text node) (catalogPath text catalog ++ below)).iri = none :=
  (owningResourceIri_beneath text node catalogsSegment (text.segment catalog.id) below).trans
    (by simp +decide)

end

/-- What is said of a resource and beneath it has one of its paths for a subject. -/
theorem subject_path {graph : NamedNode} {base : String} {path : List PathSegment} {resource : StoredResource}
    {quad : Quad} (member : quad ∈ quadsOf graph (describeAt base path resource)) :
    ∃ found ∈ resource.paths path, quad.subject = .namedNode (resourceIri base found) := by
  obtain ⟨description, described, statement, _, rfl⟩ := mem_quadsOf.mp member
  have named := List.mem_map_of_mem (f := Prod.fst) described
  rw [describeAt, Resource.map_fst_describe] at named
  obtain ⟨found, inPaths, same⟩ := List.mem_map.mp named
  exact ⟨found, inPaths, congrArg NamedOrBlankNode.namedNode same.symm⟩

theorem subject_beneath {graph : NamedNode} {base : String} {path : List PathSegment}
    {resource : StoredResource} {quad : Quad} (member : quad ∈ quadsOf graph (describeAt base path resource)) :
    ∃ below, quad.subject = .namedNode (resourceIri base (path ++ below)) := by
  obtain ⟨found, inPaths, subject⟩ := subject_path member
  obtain ⟨below, rfl⟩ := Resource.prefix_of_mem_paths inPaths
  exact ⟨below, subject⟩

theorem quadIsVisible_iff {quad : Quad} {visible : VisibleIris} : quadIsVisible quad visible = true ↔
    quad.predicate ≠ sequenceIndexPred ∧ subjectIsVisible quad.subject visible = true ∧
      objectIsVisible quad.object visible = true := by
  have named : sequenceIndexPred = ⟨sequenceIndexIri⟩ := by decide
  unfold quadIsVisible
  by_cases ordering : quad.predicate = sequenceIndexPred
  · rw [ordering, named]
    simp
  · have unnamed : quad.predicate.iri ≠ sequenceIndexIri := fun iri =>
      ordering ((congrArg NamedNode.mk iri).trans named.symm)
    rw [if_neg unnamed, Bool.and_eq_true]
    exact (and_iff_right ordering).symm

section

variable {text : IriText} {node : NodeId} {visible : VisibleIris}

theorem datasetIri_isVisible (id : String) : iriIsVisible (datasetIri text (nodeBase text node) id).iri visible =
    decide (datasetResourceIri text node id ∈ visible) := by
  have owner := owningResourceIri_dataset text node id []
  rw [List.append_nil, datasetPath, ← datasetIri_eq] at owner
  rw [iriIsVisible, owner, Option.all_some]

theorem serviceIri_isVisible (id : String) : iriIsVisible (serviceIri text (nodeBase text node) id).iri visible =
    decide (serviceResourceIri text node id ∈ visible) := by
  have owner := owningResourceIri_service text node id []
  rw [List.append_nil, servicePath, ← serviceIri_eq] at owner
  rw [iriIsVisible, owner, Option.all_some]

theorem dataset_subject_isVisible {graph : NamedNode} {id : String} {resource : StoredResource} {quad : Quad}
    (member : quad ∈ quadsOf graph (describeAt (nodeBase text node) (datasetPath text id) resource)) :
    subjectIsVisible quad.subject visible = decide (datasetResourceIri text node id ∈ visible) := by
  obtain ⟨below, subject⟩ := subject_beneath member
  rw [subject, subjectIsVisible, iriIsVisible, owningResourceIri_dataset, Option.all_some]

theorem service_subject_isVisible {graph : NamedNode} {id : String} {resource : StoredResource} {quad : Quad}
    (member : quad ∈ quadsOf graph (describeAt (nodeBase text node) (servicePath text id) resource)) :
    subjectIsVisible quad.subject visible = decide (serviceResourceIri text node id ∈ visible) := by
  obtain ⟨below, subject⟩ := subject_beneath member
  rw [subject, subjectIsVisible, iriIsVisible, owningResourceIri_service, Option.all_some]

theorem mem_datasetResource {graph : NamedNode} {base : String} {path : List PathSegment} {dataset : Dataset}
    {quad : Quad} (unordered : quad.predicate ≠ sequenceIndexPred) (first second : Nat) :
    quad ∈ quadsOf graph (describeAt base path (datasetResource text base dataset first)) ↔
      quad ∈ quadsOf graph (describeAt base path (datasetResource text base dataset second)) := by
  have positions : ∀ index, quad ≠ insertQuad graph (resourceIri base path) sequenceIndexPred
      (.literal (.ofIndex index)) := by
    rintro index rfl
    exact unordered rfl
  simp [datasetResource, mem_quadsOf_node, ownQuads, datasetStatements, positionStatement, positions]

theorem mem_serviceResource {graph : NamedNode} {base : String} {path : List PathSegment}
    {service : DataService} {quad : Quad} (unordered : quad.predicate ≠ sequenceIndexPred) (first second : Nat) :
    quad ∈ quadsOf graph (describeAt base path (serviceResource text service first)) ↔
      quad ∈ quadsOf graph (describeAt base path (serviceResource text service second)) := by
  have positions : ∀ index, quad ≠ insertQuad graph (resourceIri base path) sequenceIndexPred
      (.literal (.ofIndex index)) := by
    rintro index rfl
    exact unordered rfl
  simp [serviceResource, mem_quadsOf_node, ownQuads, positionStatement, positions]

end

end CatalogBroker
