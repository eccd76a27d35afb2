import CatalogBroker.Config.Settings
import CatalogBroker.Library.Grouping
import CatalogBroker.Store.Visibility

/-! The config graph and the checks made on its triples.

Reading is set-like: every pattern may be visited in an order of its own.
-/

set_option autoImplicit false

namespace CatalogBroker

open Library Fallible

def brokerNs : String := "https://catalog-broker.ds-labs.org/ontologies/config#"

def knownClasses : List String := ["BrokerConfig", "Participant", "Holder"]

def participantLink : String := "participant"
def holderLink : String := "holder"

def participantId : String := "participantId"
def participantName : String := "participantName"
def catalogRequestUrl : String := "catalogRequestUrl"
def credentialProtocol : String := "credentialProtocol"
def providerDid : String := "providerDid"
def oid4vpResponseUri : String := "oid4vpResponseUri"

def participantProperties : List String :=
  [participantId, participantName, catalogRequestUrl, credentialProtocol, providerDid, oid4vpResponseUri]

def ownDidHost : String := "ownDidHost"
def insecureHttp : String := "insecureHttp"
def credentialJwsFile : String := "credentialJwsFile"
def requiredScope : String := "requiredScope"

def holderProperties : List String := [ownDidHost, insecureHttp, credentialJwsFile, requiredScope]

inductive IpAddr where
  | v4 (first second third fourth : UInt8)
  | v6 (bits : BitVec 128)
  deriving DecidableEq

def IpAddr.isLoopback : IpAddr → Bool
  | .v4 first _ _ _ => first = 127
  | .v6 bits => bits = 1

structure Url where
  scheme : String
  hostStr : Option String
  /-- `to_file_path`. -/
  filePath : Option String

/-- How terms and strings print, and the URL and address parsers. -/
structure ConfigText where
  displayTerm : Term → String
  debugText : String → String
  parseUrl : String → Option Url
  parseIpAddr : String → Option IpAddr

/-- Read access to one graph of a store, with the order each pattern is visited in. -/
structure ConfigGraph where
  store : QuadStore
  graph : NamedNode
  order : Option NamedOrBlankNode → Option NamedNode → Option Term → ReadOrder

def brokerNode (name : String) : NamedNode := ⟨brokerNs ++ name⟩

def brokerName? (node : NamedNode) : Option String := Text.stripPrefix node.iri brokerNs

def brokerTerm? (quad : Quad) : Option String :=
  match brokerName? quad.predicate, quad.object with
  | some name, _ => some name
  | none, .namedNode className => if quad.predicate = rdfType then brokerName? className else none
  | none, _ => none

def termValue (text : ConfigText) : Term → String
  | .literal literal => literal.value
  | .namedNode node => node.iri
  | other => text.displayTerm other

/-- How a blank node is named in an error message, by the values of its `broker:participantId`. -/
def describeBlank (text : ConfigText) : Option (List Term) → String
  | some [.literal literal] =>
    "(blank node with broker:" ++ participantId ++ " " ++ text.debugText literal.value ++ ")"
  | _ => "(blank node)"

namespace ConfigGraph

variable (graph : ConfigGraph) (text : ConfigText)

def quadsForPattern (subject : Option NamedOrBlankNode) (predicate : Option NamedNode) (object : Option Term) :
    List Quad :=
  graph.store.quadsForPattern (graph.order subject predicate object) subject predicate object
    (some (.namedNode graph.graph))

def typeQuads (subject : Option NamedOrBlankNode) (className : String) : List Quad :=
  graph.quadsForPattern subject (some rdfType) (some (.namedNode (brokerNode className)))

def subjectsOfType (className : String) : List NamedOrBlankNode :=
  (graph.typeQuads none className).map Quad.subject

def hasType (subject : NamedOrBlankNode) (className : String) : Bool :=
  (graph.typeQuads (some subject) className).head?.isSome

def properties (subject : NamedOrBlankNode) : Std.ExtTreeMap String (List Term) :=
  Grouping.collect (fun quad => brokerName? quad.predicate) Quad.object
    (graph.quadsForPattern (some subject) none none)

def describe : NamedOrBlankNode → String
  | .namedNode node => "<" ++ node.iri ++ ">"
  | .blankNode node => describeBlank text (graph.properties (.blankNode node))[participantId]?

def rejectUnknownClasses : Except BrokerConfigError Unit :=
  (graph.quadsForPattern none (some rdfType) none).forM fun quad =>
    match quad.object with
    | .namedNode className =>
      match brokerName? className with
      | some name =>
        if name ∉ knownClasses then .error (.unknownClass (graph.describe text quad.subject) name) else .ok ()
      | none => .ok ()
    | _ => .ok ()

/-- Fail on a subject outside `attached` that has a `broker:` property or class. -/
def rejectUnattached (attached : List Term) : Except BrokerConfigError Unit :=
  (graph.quadsForPattern none none none).forM fun quad =>
    match brokerTerm? quad with
    | some term =>
      if quad.subject.toTerm ∉ attached then .error (.unattached (graph.describe text quad.subject) term)
      else .ok ()
    | none => .ok ()

def rejectUnlinked (linked : List Term) (className property : String) : Except BrokerConfigError Unit :=
  (graph.subjectsOfType className).forM fun subject =>
    if subject.toTerm ∉ linked then
      .error (.unlinkedResource (graph.describe text subject) className property)
    else .ok ()

def linked (term : Term) (property className : String) : Except BrokerConfigError NamedOrBlankNode := do
  let node ← match term with
    | .namedNode node => .ok (.namedNode node)
    | .blankNode node => .ok (.blankNode node)
    | other => .error (.notAResource property (text.displayTerm other))
  if graph.hasType node className then return node
  else .error (.wrongType (graph.describe text node) property className)

end ConfigGraph

/-- Reject a property not in `known`, and a known one with more than one value: an entry read from a graph has at
least one. -/
def singleValues (resource : String) (properties : Std.ExtTreeMap String (List Term)) (known : List String) :
    Except BrokerConfigError (Std.ExtTreeMap String Term) :=
  Grouping.traverse (fun property terms =>
    if property ∉ known then .error (.unknownProperty resource property)
    else match terms with
      | [term] => .ok term
      | terms => .error (.multipleValues resource property terms.length)) properties

theorem describeBlank_rel {text : ConfigText} {first second : Option (List Term)}
    (related : Option.Rel List.Perm first second) : describeBlank text first = describeBlank text second := by
  cases related with
  | none => rfl
  | @some left right perm =>
    cases left with
    | nil => rw [List.nil_perm.mp perm]
    | cons head tail =>
      cases tail with
      | nil => rw [List.perm_singleton.mp perm.symm]
      -- Two values or more: neither list is a single literal, however they are ordered.
      | cons other tail =>
        have longer := perm.length_eq
        match right with
        | [] => simp at longer
        | [_] => simp at longer
        | first :: _ :: _ => cases head <;> cases first <;> rfl

theorem singleValue_eq_ok {resource property : String} {known : List String} {terms : List Term} {term : Term} :
    (if property ∉ known then .error (.unknownProperty resource property)
      else match terms with
        | [term] => .ok term
        | terms => .error (.multipleValues resource property terms.length) :
        Except BrokerConfigError Term) = .ok term ↔ property ∈ known ∧ terms = [term] := by
  rw [guard_eq_ok, not_not]
  refine and_congr_right' ?_
  cases terms with
  | nil => simp
  | cons head tail => cases tail <;> simp

theorem singleValues_eq_ok {resource : String} {properties : Std.ExtTreeMap String (List Term)} {known : List String}
    {values : Std.ExtTreeMap String Term} : singleValues resource properties known = .ok values ↔
      (∀ (property : String) (terms : List Term), properties[property]? = some terms →
        property ∈ known ∧ ∃ term, terms = [term]) ∧
      ∀ (property : String) (term : Term), values[property]? = some term ↔ properties[property]? = some [term] := by
  unfold singleValues
  simp only [Grouping.traverse_eq_ok, singleValue_eq_ok, exists_and_left]
  refine and_congr_right ?_
  intro single
  refine forall_congr' ?_
  intro property
  cases held : properties[property]? with
  | none =>
    rw [Option.bind_none]
    exact ⟨fun absent => by simp [absent], fun never => Option.eq_none_iff_forall_ne_some.mpr (by simpa using never)⟩
  | some terms =>
    obtain ⟨known, term, rfl⟩ := single property terms held
    rw [Option.bind_some, singleValue_eq_ok.mpr ⟨known, rfl⟩]
    constructor
    · intro found other
      rw [found]
      simp [Except.toOption]
    · intro looked
      exact (looked term).mpr rfl

theorem singleValues_rel {resource : String} {first second : Std.ExtTreeMap String (List Term)} {known : List String}
    (related : ∀ property : String, Option.Rel List.Perm first[property]? second[property]?)
    {values : Std.ExtTreeMap String Term} (single : singleValues resource first known = .ok values) :
    singleValues resource second known = .ok values := by
  -- a property with one value has it in every order
  rw [singleValues_eq_ok] at single ⊢
  obtain ⟨each, looked⟩ := single
  constructor
  · intro property terms held
    have relation := related property
    rw [held] at relation
    cases earlier : first[property]? with
    | none =>
      rw [earlier] at relation
      cases relation
    | some others =>
      rw [earlier] at relation
      obtain ⟨listed, term, rfl⟩ := each property others earlier
      cases relation with
      | some perm => exact ⟨listed, term, List.perm_singleton.mp perm.symm⟩
  · intro property term
    rw [looked]
    have relation := related property
    generalize first[property]? = earlier at relation
    generalize second[property]? = later at relation
    cases relation with
    | none => rfl
    | some perm =>
      rw [Option.some.injEq, Option.some.injEq, ← List.perm_singleton, ← List.perm_singleton]
      exact perm.congr_left _

theorem brokerName?_eq_some {node : NamedNode} {name : String} :
    brokerName? node = some name ↔ node = brokerNode name := by
  unfold brokerName? brokerNode
  rw [Text.stripPrefix_eq_some_iff]
  exact ⟨fun same => congrArg NamedNode.mk same, fun same => congrArg NamedNode.iri same⟩

theorem brokerName?_rdfType : brokerName? rdfType = none := by
  unfold brokerName?
  rw [Text.stripPrefix_eq_none_iff]
  intro rest same
  have characters := congrArg (fun value => value.toList[4]?) same
  simp [rdfType, iri, rdfTypeIri, brokerNs, String.toList_append] at characters

theorem brokerTerm?_property (subject : NamedOrBlankNode) (name : String) (object : Term) (graphName : GraphName) :
    brokerTerm? ⟨subject, brokerNode name, object, graphName⟩ = some name := by
  unfold brokerTerm?
  rw [brokerName?_eq_some.mpr rfl]

theorem brokerTerm?_class (subject : NamedOrBlankNode) (name : String) (graphName : GraphName) :
    brokerTerm? ⟨subject, rdfType, .namedNode (brokerNode name), graphName⟩ = some name := by
  unfold brokerTerm?
  rw [brokerName?_rdfType]
  exact brokerName?_eq_some.mpr rfl

theorem brokerTerm?_eq_some {quad : Quad} {name : String} (used : brokerTerm? quad = some name) :
    quad.predicate = brokerNode name ∨
      quad.predicate = rdfType ∧ quad.object = .namedNode (brokerNode name) := by
  obtain ⟨subject, predicate, object, graphName⟩ := quad
  unfold brokerTerm? at used
  dsimp only at used
  cases named : brokerName? predicate with
  | some property =>
    rw [named] at used
    cases used
    exact .inl (brokerName?_eq_some.mp named)
  | none =>
    rw [named] at used
    cases object with
    | literal literal => cases used
    | blankNode node => cases used
    | namedNode className =>
      obtain ⟨typed, found⟩ := Option.ite_none_right_eq_some.mp used
      exact .inr ⟨typed, congrArg Term.namedNode (brokerName?_eq_some.mp found)⟩

namespace ConfigGraph

variable (graph : ConfigGraph)

def Holds (subject : NamedOrBlankNode) (predicate : NamedNode) (object : Term) : Prop :=
  ⟨subject, predicate, object, .namedNode graph.graph⟩ ∈ graph.store.quads

def valuesOf (subject : NamedOrBlankNode) (name : String) : List Term :=
  Grouping.group (fun quad => brokerName? quad.predicate) Quad.object
    (graph.quadsForPattern (some subject) none none) name

variable {graph} {subject : NamedOrBlankNode} {name : String} {object : Term}

theorem mem_quads {subject : Option NamedOrBlankNode} {predicate : Option NamedNode} {object : Option Term}
    {quad : Quad} : quad ∈ graph.quadsForPattern subject predicate object ↔
      graph.Holds quad.subject quad.predicate quad.object ∧ quad.graphName = .namedNode graph.graph ∧
      (∀ term ∈ subject, quad.subject = term) ∧ (∀ node ∈ predicate, quad.predicate = node) ∧
      ∀ term ∈ object, quad.object = term := by
  unfold quadsForPattern Holds
  rw [mem_quadsForPattern]
  obtain ⟨quadSubject, quadPredicate, quadObject, graphName⟩ := quad
  constructor
  · rintro ⟨stored, subjects, predicates, objects, named⟩
    obtain rfl := named _ rfl
    exact ⟨stored, rfl, subjects, predicates, objects⟩
  · rintro ⟨stored, rfl, subjects, predicates, objects⟩
    exact ⟨stored, subjects, predicates, objects, fun _ same => Option.some.inj same⟩

theorem Holds.mem_quads {predicate : NamedNode} (holds : graph.Holds subject predicate object)
    {subjects : Option NamedOrBlankNode} {predicates : Option NamedNode} {objects : Option Term}
    (sameSubject : ∀ term ∈ subjects, subject = term) (samePredicate : ∀ node ∈ predicates, predicate = node)
    (sameObject : ∀ term ∈ objects, object = term) :
    ⟨subject, predicate, object, .namedNode graph.graph⟩ ∈ graph.quadsForPattern subjects predicates objects :=
  ConfigGraph.mem_quads.mpr ⟨holds, rfl, sameSubject, samePredicate, sameObject⟩

theorem mem_valuesOf : object ∈ graph.valuesOf subject name ↔ graph.Holds subject (brokerNode name) object := by
  unfold valuesOf
  rw [Grouping.mem_group]
  constructor
  · rintro ⟨quad, member, named, rfl⟩
    obtain ⟨holds, _, subjects, _⟩ := mem_quads.mp member
    rwa [subjects subject rfl, brokerName?_eq_some.mp named] at holds
  · intro holds
    exact ⟨_, holds.mem_quads (by simp) (by simp) (by simp), brokerName?_eq_some.mpr rfl, rfl⟩

theorem getElem?_properties : (graph.properties subject)[name]? =
    if graph.valuesOf subject name = [] then none else some (graph.valuesOf subject name) :=
  Grouping.getElem?_collect ..

theorem getD_properties : (graph.properties subject).getD name [] = graph.valuesOf subject name :=
  Grouping.getD_collect ..

theorem mem_subjectsOfType {className : String} : subject ∈ graph.subjectsOfType className ↔
    graph.Holds subject rdfType (.namedNode (brokerNode className)) := by
  unfold subjectsOfType typeQuads
  rw [List.mem_map]
  constructor
  · rintro ⟨quad, member, rfl⟩
    obtain ⟨holds, _, _, predicates, objects⟩ := mem_quads.mp member
    rwa [predicates _ rfl, objects _ rfl] at holds
  · intro holds
    exact ⟨_, holds.mem_quads (by simp) (by simp) (by simp), rfl⟩

theorem hasType_iff {className : String} : graph.hasType subject className = true ↔
    graph.Holds subject rdfType (.namedNode (brokerNode className)) := by
  unfold hasType typeQuads
  rw [List.isSome_head?]
  constructor
  · intro found
    obtain ⟨quad, member⟩ := List.exists_mem_of_ne_nil _ found
    obtain ⟨holds, _, subjects, predicates, objects⟩ := mem_quads.mp member
    rwa [subjects _ rfl, predicates _ rfl, objects _ rfl] at holds
  · intro holds
    apply List.ne_nil_of_mem
    exact holds.mem_quads (by simp) (by simp) (by simp)

variable {text : ConfigText} {className property : String} {node : NamedOrBlankNode} {term : Term} {terms : List Term}

def UsesBroker (graph : ConfigGraph) (subject : NamedOrBlankNode) : Prop :=
  (∃ name object, graph.Holds subject (brokerNode name) object) ∨
    ∃ name, graph.Holds subject rdfType (.namedNode (brokerNode name))

theorem rejectUnknownClasses_eq_ok : graph.rejectUnknownClasses text = .ok () ↔
    ∀ subject name, graph.Holds subject rdfType (.namedNode (brokerNode name)) → name ∈ knownClasses := by
  unfold rejectUnknownClasses
  rw [forM_eq_ok]
  constructor
  · intro passes subject name holds
    have passed := passes _ (holds.mem_quads (by simp) (by simp) (by simp))
    dsimp only at passed
    rw [brokerName?_eq_some.mpr rfl] at passed
    exact not_not.mp (guard_eq_ok.mp passed).1
  · intro known quad member
    obtain ⟨holds, _, _, predicates, _⟩ := mem_quads.mp member
    obtain ⟨quadSubject, predicate, object, graphName⟩ := quad
    obtain rfl := predicates _ rfl
    cases object with
    | literal literal => rfl
    | blankNode node => rfl
    | namedNode node =>
      dsimp only
      cases named : brokerName? node with
      | none => rfl
      | some name =>
        rw [brokerName?_eq_some.mp named] at holds
        exact if_neg (not_not.mpr (known _ _ holds))

theorem rejectUnattached_eq_ok : graph.rejectUnattached text terms = .ok () ↔
    ∀ subject, graph.UsesBroker subject → subject.toTerm ∈ terms := by
  unfold rejectUnattached
  rw [forM_eq_ok]
  constructor
  · rintro passes subject (⟨name, object, holds⟩ | ⟨name, holds⟩)
    · have passed := passes _ (holds.mem_quads (by simp) (by simp) (by simp))
      rw [brokerTerm?_property] at passed
      exact not_not.mp (guard_eq_ok.mp passed).1
    · have passed := passes _ (holds.mem_quads (by simp) (by simp) (by simp))
      rw [brokerTerm?_class] at passed
      exact not_not.mp (guard_eq_ok.mp passed).1
  · intro covered quad member
    obtain ⟨holds, _⟩ := mem_quads.mp member
    cases used : brokerTerm? quad with
    | none => rfl
    | some term =>
      refine if_neg (not_not.mpr (covered _ ?_))
      rcases brokerTerm?_eq_some used with same | ⟨same, object⟩
      · rw [same] at holds
        exact .inl ⟨term, _, holds⟩
      · rw [same, object] at holds
        exact .inr ⟨term, holds⟩

theorem rejectUnlinked_eq_ok : graph.rejectUnlinked text terms className property = .ok () ↔
    ∀ subject, graph.Holds subject rdfType (.namedNode (brokerNode className)) → subject.toTerm ∈ terms := by
  unfold rejectUnlinked
  simp only [forM_eq_ok, guard_eq_ok, mem_subjectsOfType, not_not, and_true]

theorem linked_eq_ok : graph.linked text term property className = .ok node ↔
    term = node.toTerm ∧ graph.Holds node rdfType (.namedNode (brokerNode className)) := by
  have typed (found : NamedOrBlankNode) :
      (if graph.hasType found className then pure found
        else .error (.wrongType (graph.describe text found) property className) :
          Except BrokerConfigError NamedOrBlankNode) = .ok node ↔
      found = node ∧ graph.Holds node rdfType (.namedNode (brokerNode className)) := by
    rw [← hasType_iff, require_eq_ok]
    constructor
    · rintro ⟨has, same⟩
      cases same
      exact ⟨rfl, has⟩
    · rintro ⟨rfl, has⟩
      exact ⟨has, rfl⟩
  cases term with
  | namedNode found =>
    refine (typed (.namedNode found)).trans (and_congr_left' ?_)
    cases node <;> simp [NamedOrBlankNode.toTerm]
  | blankNode found =>
    refine (typed (.blankNode found)).trans (and_congr_left' ?_)
    cases node <;> simp [NamedOrBlankNode.toTerm]
  -- A literal is no resource, so no link is read from it.
  | literal literal =>
    refine iff_of_false (fun same => by cases same) ?_
    cases node <;> simp [NamedOrBlankNode.toTerm]

end ConfigGraph

end CatalogBroker
