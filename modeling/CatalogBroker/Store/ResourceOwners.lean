import CatalogBroker.Store.Visibility

/-! Whose an IRI is: the owner read off it is the resource it was minted beneath, and nobody else's. -/

set_option autoImplicit false

namespace CatalogBroker

open Library Library.Descriptions

inductive ResourceKind where
  | dataset
  | service
  deriving DecidableEq, Repr

namespace ResourceKind

def segment : ResourceKind → PathSegment
  | .dataset => datasetsSegment
  | .service => servicesSegment

def resourceIri (text : IriText) (node : NodeId) (id : String) : ResourceKind → String
  | .dataset => datasetResourceIri text node id
  | .service => serviceResourceIri text node id

end ResourceKind

/-- What `write_catalog` mints beneath a dataset or service of a node. -/
inductive Mints (text : IriText) (node : NodeId) : ResourceKind → String → NamedNode → Prop
  | dataset (id : String) : Mints text node .dataset id (datasetIri text (nodeBase text node) id)
  | service (id : String) : Mints text node .service id (serviceIri text (nodeBase text node) id)
  | distribution (id : String) (index : Nat) :
      Mints text node .dataset id (distributionIri text (nodeBase text node) id index)
  | policy (id : String) (index : Nat) : Mints text node .dataset id (policyIri text (nodeBase text node) id index)
  | rule (id segment : String) (policy index : Nat)
      (known : segment ∈ ["permissions", "prohibitions", "obligations"]) :
      Mints text node .dataset id (ruleIri (policyIri text (nodeBase text node) id policy).iri segment index)
  | constraint {id : String} {parent : NamedNode} (above : Mints text node .dataset id parent) (index : Nat) :
      Mints text node .dataset id (constraintIri parent.iri index)

section

variable {text : IriText} {node : NodeId} {kind : ResourceKind} {id : String}

theorem ResourceKind.resourceIri_eq : kind.resourceIri text node id =
    (CatalogBroker.resourceIri (nodeBase text node) [kind.segment, text.segment id]).iri := by
  cases kind with
  | dataset => exact congrArg NamedNode.iri (datasetIri_eq text (nodeBase text node) id)
  | service => exact congrArg NamedNode.iri (serviceIri_eq text (nodeBase text node) id)

theorem Mints.path {minted : NamedNode} (mints : Mints text node kind id minted) :
    ∃ below, minted = resourceIri (nodeBase text node) ([kind.segment, text.segment id] ++ below) := by
  induction mints with
  | dataset id => exact ⟨[], datasetIri_eq text _ id⟩
  | service id => exact ⟨[], serviceIri_eq text _ id⟩
  | distribution id index => exact ⟨_, distributionIri_eq text _ id index⟩
  | policy id index => exact ⟨_, policyIri_eq text _ id index⟩
  | rule id segment policy index known =>
    have free : '/' ∉ segment.toList := by
      fin_cases known <;> decide
    refine ⟨[policiesSegment, indexSegment policy] ++ [⟨segment, free⟩, indexSegment index], ?_⟩
    rw [policyIri_eq, ← List.append_assoc]
    exact ruleIri_resourceIri _ _ ⟨segment, free⟩ index
  | constraint above index ih =>
    obtain ⟨below, rfl⟩ := ih
    refine ⟨below ++ [constraintsSegment, indexSegment index], ?_⟩
    rw [constraintIri_resourceIri, List.append_assoc]

theorem owningResourceIri_of_mints {minted : NamedNode} (mints : Mints text node kind id minted) :
    owningResourceIri minted.iri = some (kind.resourceIri text node id) := by
  obtain ⟨below, rfl⟩ := mints.path
  cases kind with
  | dataset => exact owningResourceIri_dataset text node id below
  | service => exact owningResourceIri_service text node id below

theorem resourceIri_nodeBase_injective {other : NodeId} {path otherPath : List PathSegment}
    (same : resourceIri (nodeBase text node) path = resourceIri (nodeBase text other) otherPath) :
    node = other ∧ path = otherPath := by
  -- Encoded ids have no slash, so the first slash after the node prefix ends the id on both sides.
  have texts := congrArg NamedNode.iri same
  simp only [resourceIri, iri, nodeBase] at texts
  rw [← String.toList_inj] at texts
  simp only [String.toList_append, String.toList_ofList, List.append_assoc, List.append_cancel_left_eq] at texts
  have ids := (Segments.head_unique (text.encode_free node.id) (text.encode_free other.id) texts).1
  have nodes : node = other := congrArg NodeId.mk (text.encode_injective (String.toList_inj.mp ids))
  subst nodes
  exact ⟨rfl, resourceIri_injective _ same⟩

theorem ResourceKind.resourceIri_injective {otherNode : NodeId} {otherKind : ResourceKind} {otherId : String}
    (same : kind.resourceIri text node id = otherKind.resourceIri text otherNode otherId) :
    node = otherNode ∧ kind = otherKind ∧ id = otherId := by
  rw [resourceIri_eq, resourceIri_eq] at same
  obtain ⟨nodes, paths⟩ := resourceIri_nodeBase_injective (congrArg NamedNode.mk same)
  rw [List.cons.injEq, List.cons.injEq] at paths
  refine ⟨nodes, ?_, text.segment_injective paths.2.1⟩
  have segments := congrArg Subtype.val paths.1
  revert segments
  cases kind <;> cases otherKind <;> simp [ResourceKind.segment, datasetsSegment, servicesSegment]

end

section

variable {text : IriText} {node : NodeId} {id : String}

theorem Mints.constraintAt {path : List PathSegment}
    (minted : Mints text node .dataset id (resourceIri (nodeBase text node) path)) (index : Nat) :
    Mints text node .dataset id
      (resourceIri (nodeBase text node) (path ++ [constraintsSegment, indexSegment index])) := by
  rw [← constraintIri_resourceIri]
  exact .constraint minted index

theorem paths_constraintResource (constraint : Constraint) {path found : List PathSegment} {index : Nat}
    (minted : Mints text node .dataset id (resourceIri (nodeBase text node) path))
    (member : found ∈ (constraintResource text constraint index).paths path) :
    Mints text node .dataset id (resourceIri (nodeBase text node) found) := by
  induction constraint generalizing path index with
  | atomic atomic =>
    rw [constraintResource, Resource.mem_paths_node] at member
    simp only [List.not_mem_nil, false_and, exists_false, or_false] at member
    exact member ▸ minted
  | logical operator children below =>
    rw [constraintResource, Resource.mem_paths_node, childBranches_eq] at member
    rcases member with rfl | ⟨branch, listed, deeper⟩
    · exact minted
    · obtain ⟨position, bound, rfl⟩ := List.mem_mapIdx.mp listed
      exact below _ (List.getElem_mem bound) (minted.constraintAt _) deeper

theorem paths_ruleResource (rule : Rule) {path found : List PathSegment} {index : Nat}
    (minted : Mints text node .dataset id (resourceIri (nodeBase text node) path))
    (member : found ∈ (ruleResource text rule index).paths path) :
    Mints text node .dataset id (resourceIri (nodeBase text node) found) := by
  rw [ruleResource, Resource.mem_paths_node] at member
  rcases member with rfl | ⟨branch, listed, deeper⟩
  · exact minted
  · obtain ⟨position, bound, rfl⟩ := List.mem_mapIdx.mp listed
    exact paths_constraintResource _ (minted.constraintAt position) deeper

theorem paths_policyResource (policy : Policy) {found : List PathSegment} {index : Nat}
    (member : found ∈ (policyResource text policy index).paths
      (datasetPath text id ++ [policiesSegment, indexSegment index])) :
    Mints text node .dataset id (resourceIri (nodeBase text node) found) := by
  have minted : resourceIri (nodeBase text node) (datasetPath text id ++ [policiesSegment, indexSegment index]) =
      policyIri text (nodeBase text node) id index := (policyIri_eq text _ id index).symm
  rw [policyResource, Resource.mem_paths_node] at member
  rcases member with rfl | ⟨branch, listed, deeper⟩
  · rw [minted]
    exact .policy id index
  -- the three kinds of rule differ in their segment alone
  · have ruled {segment : PathSegment} {predicate : NamedNode} {rules : List Rule}
        (known : segment.val ∈ ["permissions", "prohibitions", "obligations"])
        (among : branch ∈ rules.mapIdx (ruleBranch text predicate segment)) :
        Mints text node .dataset id (resourceIri (nodeBase text node) found) := by
      obtain ⟨position, bound, rfl⟩ := List.mem_mapIdx.mp among
      apply paths_ruleResource _ _ deeper
      have rule : Mints text node .dataset id
          (ruleIri (policyIri text (nodeBase text node) id index).iri segment.val position) :=
        .rule id segment.val index position known
      rw [← minted, ruleIri_resourceIri] at rule
      exact rule
    rcases List.mem_append.mp listed with listed | obligations
    · rcases List.mem_append.mp listed with permissions | prohibitions
      · exact ruled (by decide) permissions
      · exact ruled (by decide) prohibitions
    · exact ruled (by decide) obligations

theorem paths_datasetResource (base : String) (dataset : Dataset) {found : List PathSegment} {index : Nat}
    (member : found ∈ (datasetResource text base dataset index).paths (datasetPath text id)) :
    Mints text node .dataset id (resourceIri (nodeBase text node) found) := by
  rw [datasetResource, Resource.mem_paths_node] at member
  rcases member with rfl | ⟨branch, listed, deeper⟩
  · rw [datasetPath, ← datasetIri_eq]
    exact .dataset id
  · rcases List.mem_append.mp listed with distributions | policies
    · obtain ⟨position, bound, rfl⟩ := List.mem_mapIdx.mp distributions
      rw [distributionBranch, distributionResource, Resource.mem_paths_node] at deeper
      simp only [List.not_mem_nil, false_and, exists_false, or_false] at deeper
      rw [deeper, datasetPath, ← distributionIri_eq]
      exact .distribution id position
    · obtain ⟨position, bound, rfl⟩ := List.mem_mapIdx.mp policies
      exact paths_policyResource _ deeper

/-- The catalog lists a dataset or service under this id. -/
def Catalog.Lists (catalog : Catalog) (id : String) : ResourceKind → Prop
  | .dataset => ∃ dataset ∈ catalog.datasets, dataset.id = id
  | .service => ∃ service ∈ catalog.dataServices, service.id = id

theorem subject_minted {graph : NamedNode} {catalog : Catalog} {quads : List Quad}
    (written : writeCatalog text graph catalog = .ok quads) {quad : Quad} (member : quad ∈ quads) :
    quad.subject = .namedNode (catalogIri text (nodeBase text catalog.originNode) catalog.id) ∨
      ∃ kind id minted, catalog.Lists id kind ∧ Mints text catalog.originNode kind id minted ∧
        quad.subject = .namedNode minted := by
  -- What the writer answered with `Ok` is the catalog's quads; a refused catalog has none.
  have emitted : quad ∈ catalogQuads text graph catalog := by
    by_cases fits : catalog.NestsWithin maxConstraintDepth
    · obtain ⟨emitted, same, each⟩ := (writeCatalog_writes text graph catalog).emits fits
      rw [written, Except.ok.injEq] at same
      exact (each quad).mp (same ▸ member)
    · obtain ⟨error, refused⟩ := (writeCatalog_writes text graph catalog).refuses fits
      rw [written] at refused
      cases refused
  rcases (mem_catalogQuads text graph catalog).mp emitted with
    own | ⟨index, bound, below⟩ | ⟨index, bound, below⟩
  · obtain ⟨statement, _, rfl⟩ := List.mem_map.mp own
    rw [catalogIri_eq]
    exact .inl rfl
  · obtain ⟨found, inPaths, subject⟩ := subject_path below
    exact .inr ⟨.dataset, catalog.datasets[index].id, _, ⟨_, List.getElem_mem bound, rfl⟩,
      paths_datasetResource _ _ inPaths, subject⟩
  · obtain ⟨found, inPaths, subject⟩ := subject_path below
    rw [serviceResource, Resource.mem_paths_node] at inPaths
    simp only [List.not_mem_nil, false_and, exists_false, or_false] at inPaths
    refine .inr ⟨.service, catalog.dataServices[index].id, _, ⟨_, List.getElem_mem bound, rfl⟩, ?_, subject⟩
    rw [inPaths, servicePath, ← serviceIri_eq]
    exact .service _

end

section

variable {text : IriText} {node : NodeId}

theorem splitOnce_getD_fst (tail : String) :
    ((Text.splitOnce tail '/').getD (tail, "")).1 = Text.beforeFirst tail '/' := by
  cases split : Text.splitOnce tail '/' with
  | none => exact (Text.beforeFirst_of_not_mem (Text.not_mem_of_splitOnce_eq_none split)).symm
  | some parts =>
    obtain ⟨whole, free⟩ := Text.splitOnce_eq_some split
    rw [whole, String.append_assoc, Text.beforeFirst_append free (by simp)]
    rfl

theorem owningResourceIri_under {head : String} (free : '/' ∉ head.toList) (tail : String) :
    owningResourceIri (nodeNs ++ head ++ "/" ++ tail) =
      let parts := (Text.splitOnce tail '/').getD (tail, "")
      if parts.1 = "catalogs" then none
      else if (parts.1 = "datasets" ∨ parts.1 = "services") ∧ parts.1.utf8ByteSize < tail.utf8ByteSize then
        some (Text.sliceTo (nodeNs ++ head ++ "/" ++ tail) (nodeNs.utf8ByteSize + head.utf8ByteSize + 1 +
          parts.1.utf8ByteSize + 1 + (Text.beforeFirst parts.2 '/').utf8ByteSize))
      else some (nodeNs ++ head ++ "/" ++ tail) := by
  have whole : nodeNs ++ head ++ "/" ++ tail = nodeNs ++ (head ++ "/" ++ tail) := by
    simp only [String.append_assoc]
  rw [owningResourceIri, whole, Text.stripPrefix_append]
  simp only [bind, Option.bind_some, splitOnce_slash free]

theorem owningResourceIri_eq_none_iff {head : String} (free : '/' ∉ head.toList) (tail : String) :
    owningResourceIri (nodeNs ++ head ++ "/" ++ tail) = none ↔ Text.beforeFirst tail '/' = "catalogs" := by
  rw [owningResourceIri_under free, ← splitOnce_getD_fst]
  dsimp only
  split
  · rename_i named
    exact ⟨fun _ => named, fun _ => rfl⟩
  · rename_i unnamed
    constructor
    · intro owned
      split at owned <;> cases owned
    · exact fun named => absurd named unnamed

theorem owningResourceIri_node (node : NodeId) : owningResourceIri (nodeIri text node).iri = none := by
  rw [owningResourceIri, nodeIri, nodeBase, iri, Text.stripPrefix_append]
  simp only [bind, Option.bind_some, Text.splitOnce_eq_none (text.encode_free node.id), Option.bind_none]

theorem catalogIri_iri (node : NodeId) (id : String) : (catalogIri text (nodeBase text node) id).iri =
    nodeBase text node ++ "/" ++ ("catalogs" ++ "/" ++ text.encode id) := by
  have slashes : ("/catalogs/" : String) = "/" ++ "catalogs" ++ "/" := by decide
  simp only [catalogIri, iri, slashes, String.append_assoc]

theorem owningResourceIri_catalogIri (node : NodeId) (id : String) :
    owningResourceIri (catalogIri text (nodeBase text node) id).iri = none := by
  rw [catalogIri_iri, nodeBase, owningResourceIri_eq_none_iff (text.encode_free node.id), String.append_assoc]
  exact Text.beforeFirst_append (by decide) (by simp)

/-- The slice ends inside the text, where a character does. -/
theorem owningResourceIri_slice {iri rest node tail kind afterKind : String}
    (stripped : Text.stripPrefix iri nodeNs = some rest) (atNode : Text.splitOnce rest '/' = some (node, tail))
    (atKind : (Text.splitOnce tail '/').getD (tail, "") = (kind, afterKind))
    (longer : kind.utf8ByteSize < tail.utf8ByteSize) :
    ∃ cut beyond, iri = cut ++ beyond ∧ cut.utf8ByteSize = nodeNs.utf8ByteSize + node.utf8ByteSize + 1 +
      kind.utf8ByteSize + 1 + (Text.beforeFirst afterKind '/').utf8ByteSize := by
  have slash : "/".utf8ByteSize = 1 := by decide
  have separated : ∃ after, tail = kind ++ "/" ++ after ∧ afterKind = after := by
    cases split : Text.splitOnce tail '/' with
    | none =>
      -- Without a slash the kind is the whole tail, and not shorter than it.
      rw [split, Option.getD_none, Prod.mk.injEq] at atKind
      rw [atKind.1] at longer
      omega
    | some parts =>
      rw [split, Option.getD_some] at atKind
      subst atKind
      exact ⟨afterKind, (Text.splitOnce_eq_some split).1, rfl⟩
  obtain ⟨_, rfl, rfl⟩ := separated
  obtain ⟨beyond, afterId⟩ := Text.beforeFirst_append_rest afterKind '/'
  refine ⟨nodeNs ++ node ++ "/" ++ kind ++ "/" ++ Text.beforeFirst afterKind '/', beyond, ?_, ?_⟩
  · have whole := Text.stripPrefix_eq_some_iff.mp stripped
    rw [(Text.splitOnce_eq_some atNode).1] at whole
    rw [whole]
    nth_rewrite 1 [afterId]
    simp only [String.append_assoc]
    rfl
  · simp only [String.utf8ByteSize_append, slash]

theorem ResourceKind.resourceIri_under {kind : ResourceKind} (id : String) : kind.resourceIri text node id =
    nodeBase text node ++ "/" ++ (kind.segment.val ++ "/" ++ text.encode id) := by
  have datasets : ("/datasets/" : String) = "/" ++ "datasets" ++ "/" := by decide
  have services : ("/services/" : String) = "/" ++ "services" ++ "/" := by decide
  cases kind with
  | dataset =>
    simp only [ResourceKind.resourceIri, datasetResourceIri, datasetIri, iri, datasets, String.append_assoc]
    rfl
  | service =>
    simp only [ResourceKind.resourceIri, serviceResourceIri, serviceIri, iri, services, String.append_assoc]
    rfl

theorem tail_injective {head other tail otherTail : String} (free : '/' ∉ head.toList)
    (otherFree : '/' ∉ other.toList)
    (same : nodeNs ++ head ++ "/" ++ tail = nodeNs ++ other ++ "/" ++ otherTail) : tail = otherTail := by
  simp only [String.append_assoc, String.append_right_inj] at same
  have cut := congrArg (Text.splitOnce · '/') same
  simp only [← String.append_assoc] at cut
  rw [splitOnce_slash free, splitOnce_slash otherFree, Option.some.injEq, Prod.mk.injEq] at cut
  exact cut.2

theorem owningResourceIri_unrecognised {head tail : String} (free : '/' ∉ head.toList)
    (uncatalogued : Text.beforeFirst tail '/' ≠ "catalogs")
    (unlisted : ∀ (kind : ResourceKind) after, tail ≠ kind.segment.val ++ "/" ++ after) :
    owningResourceIri (nodeNs ++ head ++ "/" ++ tail) = some (nodeNs ++ head ++ "/" ++ tail) ∧
      ∀ (kind : ResourceKind) node id, nodeNs ++ head ++ "/" ++ tail ≠ kind.resourceIri text node id := by
  constructor
  · rw [owningResourceIri_under free]
    dsimp only
    rw [splitOnce_getD_fst, if_neg uncatalogued, if_neg]
    rintro ⟨named, longer⟩
    cases split : Text.splitOnce tail '/' with
    | none =>
      rw [Text.beforeFirst_of_not_mem (Text.not_mem_of_splitOnce_eq_none split)] at longer
      omega
    | some parts =>
      have whole := (Text.splitOnce_eq_some split).1
      have first := splitOnce_getD_fst tail
      rw [split, Option.getD_some] at first
      rw [← first] at named
      rcases named with datasets | services
      · exact unlisted .dataset parts.2 (whole.trans (by rw [datasets]; rfl))
      · exact unlisted .service parts.2 (whole.trans (by rw [services]; rfl))
  · intro kind node id same
    rw [ResourceKind.resourceIri_under, nodeBase] at same
    exact unlisted kind _ (tail_injective free (text.encode_free node.id) same)

end

/-- Everything minted beneath a dataset or service belongs to exactly that resource, and resources have IRIs of
their own; node IRIs and the part of a node's space that holds its catalogs are nobody's; every other IRI beneath a
node has an owner, itself if nothing is recognised in it; and no slice goes astray. -/
theorem resource_owners_exact (text : IriText) :
    (∀ node kind id minted, Mints text node kind id minted →
      owningResourceIri minted.iri = some (kind.resourceIri text node id)) ∧
    (∀ graph catalog quads, writeCatalog text graph catalog = .ok quads → ∀ quad ∈ quads,
      quad.subject = .namedNode (catalogIri text (nodeBase text catalog.originNode) catalog.id) ∨
        ∃ kind id minted, catalog.Lists id kind ∧ Mints text catalog.originNode kind id minted ∧
          quad.subject = .namedNode minted) ∧
    (∀ node otherNode (kind otherKind : ResourceKind) id otherId,
      kind.resourceIri text node id = otherKind.resourceIri text otherNode otherId →
        node = otherNode ∧ kind = otherKind ∧ id = otherId) ∧
    (∀ node, owningResourceIri (nodeIri text node).iri = none ∧
      ∀ id, owningResourceIri (catalogIri text (nodeBase text node) id).iri = none) ∧
    (∀ head tail : String, '/' ∉ head.toList →
      (owningResourceIri (nodeNs ++ head ++ "/" ++ tail) = none ↔ Text.beforeFirst tail '/' = "catalogs")) ∧
    (∀ head tail : String, '/' ∉ head.toList → Text.beforeFirst tail '/' ≠ "catalogs" →
      (∀ (kind : ResourceKind) after, tail ≠ kind.segment.val ++ "/" ++ after) →
        owningResourceIri (nodeNs ++ head ++ "/" ++ tail) = some (nodeNs ++ head ++ "/" ++ tail) ∧
          ∀ (kind : ResourceKind) node id, nodeNs ++ head ++ "/" ++ tail ≠ kind.resourceIri text node id) ∧
    ∀ iri rest node tail kind afterKind, Text.stripPrefix iri nodeNs = some rest →
      Text.splitOnce rest '/' = some (node, tail) → (Text.splitOnce tail '/').getD (tail, "") = (kind, afterKind) →
        kind.utf8ByteSize < tail.utf8ByteSize →
          ∃ cut beyond, iri = cut ++ beyond ∧ cut.utf8ByteSize = nodeNs.utf8ByteSize + node.utf8ByteSize + 1 +
            kind.utf8ByteSize + 1 + (Text.beforeFirst afterKind '/').utf8ByteSize := by
  refine ⟨?_, ?_, ?_, ?_, ?_, ?_, ?_⟩
  · intro node kind id minted mints
    exact owningResourceIri_of_mints mints
  · intro graph catalog quads written quad member
    exact subject_minted written member
  · intro node otherNode kind otherKind id otherId same
    exact ResourceKind.resourceIri_injective same
  · intro node
    exact ⟨owningResourceIri_node node, owningResourceIri_catalogIri node⟩
  · intro head tail free
    exact owningResourceIri_eq_none_iff free tail
  · intro head tail free uncatalogued unlisted
    exact owningResourceIri_unrecognised free uncatalogued unlisted
  · intro iri rest node tail kind afterKind stripped atNode atKind longer
    exact owningResourceIri_slice stripped atNode atKind longer

/-- A constraint of a dataset whose ids need encoding, and an IRI nothing mints. -/
theorem resource_owners_exact_encoded :
    owningResourceIri (constraintIri (ruleIri (policyIri .urlencoding (nodeBase .urlencoding ⟨"node/a"⟩) "ds/1"
        0).iri "permissions" 0).iri 0).iri = some (datasetResourceIri .urlencoding ⟨"node/a"⟩ "ds/1") ∧
      owningResourceIri (nodeBase .urlencoding ⟨"node/a"⟩ ++ "/" ++ "other/x") =
        some (nodeBase .urlencoding ⟨"node/a"⟩ ++ "/" ++ "other/x") := by
  obtain ⟨minted, _, _, _, _, others, _⟩ := resource_owners_exact .urlencoding
  have rule : Mints .urlencoding ⟨"node/a"⟩ .dataset "ds/1"
      (ruleIri (policyIri .urlencoding (nodeBase .urlencoding ⟨"node/a"⟩) "ds/1" 0).iri "permissions" 0) :=
    .rule "ds/1" "permissions" 0 0 (by decide)
  refine ⟨minted ⟨"node/a"⟩ .dataset "ds/1" _ (.constraint rule 0), ?_⟩
  have unlisted (kind : ResourceKind) (after : String) : "other/x" ≠ kind.segment.val ++ "/" ++ after := by
    intro same
    have first := congrArg (Text.beforeFirst · '/') same
    simp only [String.append_assoc] at first
    rw [Text.beforeFirst_append kind.segment.property (by simp)] at first
    cases kind <;> exact absurd first (by decide)
  exact (others (IriText.urlencoding.encode "node/a") "other/x" (IriText.urlencoding.encode_free "node/a")
    (by decide) unlisted).1

/-- Beneath a node's catalogs, an IRI that is neither a node's nor a catalog's, and has no owner. -/
theorem catalogs_path_unowned :
    (∀ node, nodeBase .urlencoding ⟨"n"⟩ ++ "/" ++ "catalogs/a/b" ≠ (nodeIri .urlencoding node).iri) ∧
      (∀ node id, nodeBase .urlencoding ⟨"n"⟩ ++ "/" ++ "catalogs/a/b" ≠
        (catalogIri .urlencoding (nodeBase .urlencoding node) id).iri) ∧
      owningResourceIri (nodeBase .urlencoding ⟨"n"⟩ ++ "/" ++ "catalogs/a/b") = none := by
  have encoded := IriText.urlencoding.encode_free "n"
  refine ⟨?_, ?_, (owningResourceIri_eq_none_iff encoded "catalogs/a/b").mpr (by decide)⟩
  · intro node same
    have free := IriText.urlencoding.encode_free node.id
    simp only [nodeBase, nodeIri, iri, String.append_assoc, String.append_right_inj] at same
    rw [← same] at free
    exact free (by simp)
  · intro node id same
    -- A catalog id is encoded, so its IRI has no slash after `catalogs/`.
    have free := IriText.urlencoding.encode_free id
    rw [catalogIri_iri] at same
    have tails := tail_injective encoded (IriText.urlencoding.encode_free node.id) same
    have parts : ("catalogs/a/b" : String) = "catalogs" ++ "/" ++ "a/b" := by decide
    rw [parts, String.append_right_inj] at tails
    rw [← tails] at free
    exact free (by decide)

end CatalogBroker
