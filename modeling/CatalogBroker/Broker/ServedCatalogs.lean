import CatalogBroker.Store.Noninterference

/-! The catalogs served to a caller, and the allow-list of the same caller.

`GET /catalog` filters typed catalogs, a restricted query filters quads; both start
from one decision for each dataset.
-/

set_option autoImplicit false

namespace CatalogBroker

open Library

/-- Whether data services only hidden datasets use are removed too. -/
inductive ServiceFiltering where
  | hideGatedOnly
  | keepAll
  deriving DecidableEq, Repr

/-- Every data service id a distribution of `datasets` uses. -/
def servicesUsedBy (datasets : List Dataset) : Finset String :=
  (datasets.flatMap fun dataset => dataset.distributions.map Distribution.accessService).toFinset

def serviceIsVisible (serviceId : String) (usedByAny usedByVisible : Finset String) : Bool :=
  serviceId ∈ usedByVisible || serviceId ∉ usedByAny

section

variable (isVisible : Dataset → Bool)

def filterCatalog (services : ServiceFiltering) (catalog : Catalog) : Catalog :=
  let usedByAny := servicesUsedBy catalog.datasets
  let datasets := catalog.datasets.filter isVisible
  match services with
  | .hideGatedOnly =>
    let usedByVisible := servicesUsedBy datasets
    { catalog with
      datasets
      dataServices := catalog.dataServices.filter fun service =>
        serviceIsVisible service.id usedByAny usedByVisible }
  | .keepAll => { catalog with datasets }

def filterCatalogsByPolicy (shouldFilter : Bool) (services : ServiceFiltering) (catalogs : List Catalog) :
    List Catalog :=
  if shouldFilter then catalogs.map (filterCatalog isVisible services) else catalogs

/-- The loop over datasets of `visible_resource_iris`, `cancelled` asked before each. -/
def visibleDatasets (cancelled : Nat → Bool) : List Dataset → Option (List Dataset)
  | [] => some []
  | dataset :: datasets =>
    if cancelled 0 then none
    else (visibleDatasets (fun check => cancelled (check + 1)) datasets).map fun visible =>
      if isVisible dataset then dataset :: visible else visible

/-- The datasets and services of `catalog` the caller may see; a partial result once cancelled. -/
def visibleResourceIris (text : IriText) (catalog : Catalog) (cancelled : Nat → Bool) : VisibleIris :=
  match visibleDatasets isVisible cancelled catalog.datasets with
  | none => ∅
  | some visible =>
    let usedByAny := servicesUsedBy catalog.datasets
    let usedByVisible := servicesUsedBy visible
    (visible.map fun dataset => datasetResourceIri text catalog.originNode dataset.id).toFinset ∪
      ((catalog.dataServices.filter fun service => serviceIsVisible service.id usedByAny usedByVisible).map
        fun service => serviceResourceIri text catalog.originNode service.id).toFinset

/-- An uncancelled computation keeps the datasets `GET /catalog` shows. -/
theorem visibleDatasets_never (datasets : List Dataset) :
    visibleDatasets isVisible (fun _ => false) datasets = some (datasets.filter isVisible) := by
  induction datasets with
  | nil => rfl
  | cons dataset datasets ih =>
    simp only [visibleDatasets, Bool.false_eq_true, if_false, ih, Option.map_some, List.filter_cons]

theorem visibleDatasets_cases (cancelled : Nat → Bool) (datasets : List Dataset) :
    visibleDatasets isVisible cancelled datasets = some (datasets.filter isVisible) ∨
      visibleDatasets isVisible cancelled datasets = none ∧ ∃ check, cancelled check = true := by
  induction datasets generalizing cancelled with
  | nil => exact .inl rfl
  | cons dataset datasets ih =>
    unfold visibleDatasets
    cases now : cancelled 0 with
    | true => exact .inr ⟨rfl, 0, now⟩
    | false =>
      rcases ih fun check => cancelled (check + 1) with whole | ⟨stopped, check, later⟩
      · rw [whole]
        exact .inl (by simp only [Bool.false_eq_true, if_false, Option.map_some, List.filter_cons])
      · rw [stopped]
        exact .inr ⟨rfl, check + 1, later⟩

theorem visibleResourceIris_cases (text : IriText) (catalog : Catalog) (cancelled : Nat → Bool) :
    visibleResourceIris isVisible text catalog cancelled =
        visibleResourceIris isVisible text catalog (fun _ => false) ∨
      (∃ check, cancelled check = true) ∧ visibleResourceIris isVisible text catalog cancelled ⊆
        visibleResourceIris isVisible text catalog fun _ => false := by
  rcases visibleDatasets_cases isVisible cancelled catalog.datasets with whole | ⟨stopped, set⟩
  · left
    simp only [visibleResourceIris, whole, visibleDatasets_never]
  · right
    refine ⟨set, ?_⟩
    simp only [visibleResourceIris, stopped]
    exact Finset.empty_subset _

end

theorem mem_servicesUsedBy {datasets : List Dataset} {serviceId : String} :
    serviceId ∈ servicesUsedBy datasets ↔
      ∃ dataset ∈ datasets, ∃ distribution ∈ dataset.distributions, distribution.accessService = serviceId := by
  simp [servicesUsedBy]

theorem datasetResourceIri_ne_serviceResourceIri (text : IriText) (node : NodeId) (datasetId serviceId : String) :
    datasetResourceIri text node datasetId ≠ serviceResourceIri text node serviceId := by
  intro same
  have paths : datasetIri text (nodeBase text node) datasetId = serviceIri text (nodeBase text node) serviceId :=
    congrArg NamedNode.mk same
  rw [datasetIri_eq, serviceIri_eq] at paths
  have kinds := resourceIri_injective _ paths
  exact absurd (List.cons.inj kinds).1 (by decide)

theorem datasetResourceIri_inj {text : IriText} {node : NodeId} {first second : String} :
    datasetResourceIri text node first = datasetResourceIri text node second ↔ first = second :=
  ⟨fun same => datasetIri_injective text _ (congrArg NamedNode.mk same), fun same => same ▸ rfl⟩

theorem serviceResourceIri_inj {text : IriText} {node : NodeId} {first second : String} :
    serviceResourceIri text node first = serviceResourceIri text node second ↔ first = second :=
  ⟨fun same => serviceIri_injective text _ (congrArg NamedNode.mk same), fun same => same ▸ rfl⟩

section

variable {text : IriText} {isVisible : Dataset → Bool} {catalog : Catalog}

theorem datasetResourceIri_mem_visible {id : String} :
    datasetResourceIri text catalog.originNode id ∈
        visibleResourceIris isVisible text catalog (fun _ => false) ↔
      ∃ dataset ∈ (filterCatalog isVisible .hideGatedOnly catalog).datasets, dataset.id = id := by
  simp only [visibleResourceIris, visibleDatasets_never, filterCatalog, Finset.mem_union, List.mem_toFinset,
    List.mem_map, datasetResourceIri_inj, (datasetResourceIri_ne_serviceResourceIri text _ _ _).symm, and_false,
    exists_false, or_false]

theorem serviceResourceIri_mem_visible {id : String} :
    serviceResourceIri text catalog.originNode id ∈
        visibleResourceIris isVisible text catalog (fun _ => false) ↔
      ∃ service ∈ (filterCatalog isVisible .hideGatedOnly catalog).dataServices, service.id = id := by
  simp only [visibleResourceIris, visibleDatasets_never, filterCatalog, Finset.mem_union, List.mem_toFinset,
    List.mem_map, serviceResourceIri_inj, datasetResourceIri_ne_serviceResourceIri text _ _ _, and_false,
    exists_false, false_or]

theorem filterCatalog_agreeOn (datasetIds : (catalog.datasets.map Dataset.id).Nodup) :
    catalog.AgreeOn text (visibleResourceIris isVisible text catalog fun _ => false)
      (filterCatalog isVisible .hideGatedOnly catalog) where
  originNode := rfl
  id := rfl
  participantId := rfl
  properties := rfl
  datasets dataset listed := by
    obtain ⟨shown, kept, sameId⟩ := datasetResourceIri_mem_visible.mp listed
    constructor
    · intro member
      have inCatalog : shown ∈ catalog.datasets := (List.mem_filter.mp kept).1
      obtain rfl := List.inj_on_of_nodup_map datasetIds inCatalog member sameId
      exact kept
    · exact fun member => (List.mem_filter.mp member).1
  services service listed := by
    obtain ⟨shown, kept, sameId⟩ := serviceResourceIri_mem_visible.mp listed
    obtain ⟨_, visible⟩ := List.mem_filter.mp kept
    rw [sameId] at visible
    exact ⟨fun member => List.mem_filter.mpr ⟨member, visible⟩, fun member => (List.mem_filter.mp member).1⟩

theorem accessService_visible {dataset : Dataset} {distribution : Distribution}
    (shown : dataset ∈ (filterCatalog isVisible .hideGatedOnly catalog).datasets)
    (offered : distribution ∈ dataset.distributions)
    (listed : distribution.accessService ∈ catalog.dataServices.map DataService.id) :
    serviceResourceIri text catalog.originNode distribution.accessService ∈
      visibleResourceIris isVisible text catalog fun _ => false := by
  obtain ⟨service, member, sameId⟩ := List.mem_map.mp listed
  refine serviceResourceIri_mem_visible.mpr ⟨service, List.mem_filter.mpr ⟨member, ?_⟩, sameId⟩
  have used : service.id ∈ servicesUsedBy (catalog.datasets.filter isVisible) :=
    mem_servicesUsedBy.mpr ⟨dataset, shown, distribution, offered, sameId.symm⟩
  simp [serviceIsVisible, used]

end

/-- The predicates whose objects are harvested values. -/
def harvestedPreds : List NamedNode :=
  [dcatEndpointUrlPred, odrlAssignerPred, odrlAssigneePred, odrlActionPred, odrlLeftOperandPred, odrlOperatorPred]

/-- A term that belongs to no resource, so that no allow-list hides it. -/
def Term.Unowned : Term → Prop
  | .namedNode node => owningResourceIri node.iri = none
  | _ => True

theorem Term.Unowned.isVisible {term : Term} (unowned : term.Unowned) (visible : VisibleIris) :
    objectIsVisible term visible = true := by
  cases term with
  | namedNode node =>
    have owner : owningResourceIri node.iri = none := unowned
    rw [objectIsVisible, iriIsVisible, owner, Option.all_none]
  | blankNode _ => rfl
  | literal _ => rfl

/-- A statement whose object can be hidden only as a harvested value. -/
def Plain (statement : NamedNode × Term) : Prop :=
  statement.2.Unowned ∨ statement.1 ∈ harvestedPreds

theorem plain_position (index : Nat) : Plain (positionStatement index) := .inl trivial

theorem plain_harvested {link : NamedNode} (harvested : link ∈ harvestedPreds) (value : Term) :
    Plain (link, value) := .inr harvested

theorem plain_property {text : IriText} {properties : Properties} {statement : NamedNode × Term}
    (member : statement ∈ propertyStatements text properties) : Plain statement := by
  obtain ⟨_, _, rfl⟩ := List.mem_map.mp member
  exact .inl trivial

section

variable (text : IriText)

theorem forall_mapIdx_ownStatements {α : Type} {branch : Nat → α → StoredBranch} {items : List α}
    {holds : NamedNode × Term → Prop}
    (each : ∀ index, ∀ item ∈ items, ∀ statement ∈ (branch index item).2.2.ownStatements, holds statement) :
    ∀ found ∈ items.mapIdx branch, ∀ statement ∈ found.2.2.ownStatements, holds statement := by
  intro found member
  obtain ⟨index, bound, rfl⟩ := List.mem_mapIdx.mp member
  exact each index _ (List.getElem_mem bound)

theorem constraint_plain (constraint : Constraint) (index : Nat) :
    ∀ statement ∈ (constraintResource text constraint index).ownStatements, Plain statement := by
  induction constraint generalizing index with
  | atomic atomic =>
    rw [constraintResource, Resource.forall_ownStatements_node]
    refine ⟨?_, by simp⟩
    simp only [List.forall_mem_cons, List.not_mem_nil, false_implies, implies_true, and_true]
    exact ⟨plain_position index, plain_harvested (by decide) _, plain_harvested (by decide) _, .inl trivial⟩
  | logical operator children ih =>
    rw [constraintResource, childBranches_eq, Resource.forall_ownStatements_node]
    simp only [Nat.zero_add, List.forall_mem_cons, List.not_mem_nil, false_implies, implies_true, and_true]
    have unowned : owningResourceIri operator.predicate.iri = none :=
      owningResourceIri_outside (by cases operator <;> decide)
    exact ⟨⟨plain_position index, .inl unowned⟩, forall_mapIdx_ownStatements
      fun position child member => ih child member position⟩

theorem rule_plain (rule : Rule) (index : Nat) :
    ∀ statement ∈ (ruleResource text rule index).ownStatements, Plain statement := by
  rw [ruleResource, Resource.forall_ownStatements_node]
  simp only [List.forall_mem_cons, List.not_mem_nil, false_implies, implies_true, and_true]
  exact ⟨⟨plain_position index, plain_harvested (by decide) _⟩, forall_mapIdx_ownStatements
    fun position constraint _ => constraint_plain text constraint position⟩

theorem policy_plain (policy : Policy) (index : Nat) :
    ∀ statement ∈ (policyResource text policy index).ownStatements, Plain statement := by
  rw [policyResource, Resource.forall_ownStatements_node]
  have kindUnowned : owningResourceIri (odrlPolicyClass policy.kind).iri = none :=
    owningResourceIri_outside (by cases policy.kind <;> decide)
  constructor
  · intro statement member
    simp only [policyStatements, List.cons_append, List.mem_cons, List.mem_append, List.mem_map] at member
    rcases member with rfl | rfl | (⟨_, _, rfl⟩ | ⟨_, _, rfl⟩) | ⟨_, _, rfl⟩
    · exact .inl kindUnowned
    · exact plain_position index
    · exact .inl trivial
    · exact plain_harvested (by decide) _
    · exact plain_harvested (by decide) _
  · intro branch member
    have each (link : NamedNode) (kind : PathSegment) (rules : List Rule) :
        ∀ found ∈ rules.mapIdx (ruleBranch text link kind), ∀ statement ∈ found.2.2.ownStatements,
          Plain statement :=
      forall_mapIdx_ownStatements fun position rule _ => rule_plain text rule position
    simp only [ruleBranches, List.mem_append] at member
    rcases member with (member | member) | member
    · exact each _ _ _ branch member
    · exact each _ _ _ branch member
    · exact each _ _ _ branch member

theorem service_plain (service : DataService) (index : Nat) :
    ∀ statement ∈ (serviceResource text service index).ownStatements, Plain statement := by
  rw [serviceResource, Resource.forall_ownStatements_node]
  refine ⟨?_, by simp⟩
  intro statement member
  simp only [List.mem_cons, List.mem_map] at member
  rcases member with rfl | rfl | rfl | ⟨_, _, rfl⟩
  · exact .inl (owningResourceIri_outside (by decide))
  · exact plain_position index
  · exact plain_harvested (by decide) _
  · exact .inl trivial

/-- Beneath a dataset, an object that can be hidden is a harvested value or an access service. -/
theorem dataset_plain (base : String) (dataset : Dataset) (index : Nat) :
    ∀ statement ∈ (datasetResource text base dataset index).ownStatements, Plain statement ∨
      ∃ distribution ∈ dataset.distributions,
        statement = (dcatAccessServicePred, .namedNode (serviceIri text base distribution.accessService)) := by
  rw [datasetResource, Resource.forall_ownStatements_node]
  constructor
  · intro statement member
    rcases List.mem_cons.mp member with rfl | member
    · exact .inl (.inl (owningResourceIri_outside (by decide)))
    · rcases List.mem_cons.mp member with rfl | member
      · exact .inl (plain_position index)
      · exact .inl (plain_property member)
  · intro branch member
    rcases List.mem_append.mp member with member | member
    · refine forall_mapIdx_ownStatements ?_ branch member
      intro position distribution offered statement stated
      simp only [distributionBranch, distributionResource, Resource.ownStatements, Resource.ownStatementsAll_eq,
        List.flatMap_nil, List.append_nil, List.mem_cons, List.not_mem_nil, or_false] at stated
      rcases stated with rfl | rfl | rfl | rfl
      · exact .inl (.inl (owningResourceIri_outside (by decide)))
      · exact .inl (plain_position position)
      · exact .inl (.inl trivial)
      · exact .inr ⟨distribution, offered, rfl⟩
    · exact forall_mapIdx_ownStatements (fun position policy _ statement stated =>
        .inl (policy_plain text policy position statement stated)) branch member

end

section

variable {text : IriText} {isVisible : Dataset → Bool} {catalog : Catalog} {graph : NamedNode} {quad : Quad}

theorem iriIsVisible_beneath_dataset {node : NodeId} {id : String} {visible : VisibleIris}
    (below : List PathSegment) (listed : datasetResourceIri text node id ∈ visible) :
    iriIsVisible (resourceIri (nodeBase text node) (datasetPath text id ++ below)).iri visible = true := by
  rw [iriIsVisible, owningResourceIri_dataset, Option.all_some]
  exact decide_eq_true listed

theorem iriIsVisible_beneath_service {node : NodeId} {id : String} {visible : VisibleIris}
    (below : List PathSegment) (listed : serviceResourceIri text node id ∈ visible) :
    iriIsVisible (resourceIri (nodeBase text node) (servicePath text id ++ below)).iri visible = true := by
  rw [iriIsVisible, owningResourceIri_service, Option.all_some]
  exact decide_eq_true listed

theorem served_subject_isVisible
    (served : quad ∈ catalogQuads text graph (filterCatalog isVisible .hideGatedOnly catalog)) :
    subjectIsVisible quad.subject (visibleResourceIris isVisible text catalog fun _ => false) = true := by
  rcases (mem_catalogQuads text graph _).mp served with own | ⟨index, bound, below⟩ | ⟨index, bound, below⟩
  · obtain ⟨statement, _, rfl⟩ := List.mem_map.mp own
    have owner := owningResourceIri_catalog text catalog.originNode (filterCatalog isVisible .hideGatedOnly catalog) []
    rw [List.append_nil] at owner
    simp only [insertQuad, subjectIsVisible, iriIsVisible]
    rw [show (filterCatalog isVisible .hideGatedOnly catalog).originNode = catalog.originNode from rfl, owner,
      Option.all_none]
  · rw [dataset_subject_isVisible below, decide_eq_true_eq]
    exact datasetResourceIri_mem_visible.mpr ⟨_, List.getElem_mem bound, rfl⟩
  · rw [service_subject_isVisible below, decide_eq_true_eq]
    exact serviceResourceIri_mem_visible.mpr ⟨_, List.getElem_mem bound, rfl⟩

/-- Why a served quad can be missing from the restricted view, its position apart. -/
def HiddenObject (text : IriText) (catalog : Catalog) (visible : VisibleIris) (quad : Quad) : Prop :=
  (quad.predicate = dcatAccessServicePred ∧ ∃ serviceId, serviceId ∉ catalog.dataServices.map DataService.id ∧
    quad.object = .namedNode (serviceIri text (nodeBase text catalog.originNode) serviceId)) ∨
  (quad.predicate ∈ harvestedPreds ∧ ∃ node owner, quad.object = .namedNode node ∧
    owningResourceIri node.iri = some owner ∧ owner ∉ visible)

theorem hiddenObject_of_plain {visible : VisibleIris} (plain : Plain (quad.predicate, quad.object))
    (hidden : objectIsVisible quad.object visible = false) : HiddenObject text catalog visible quad := by
  have claimed : ¬ quad.object.Unowned := fun unowned => by
    rw [unowned.isVisible visible] at hidden
    cases hidden
  refine .inr ⟨plain.resolve_left claimed, ?_⟩
  cases object : quad.object with
  | namedNode node =>
    rw [object, objectIsVisible, iriIsVisible] at hidden
    cases owned : owningResourceIri node.iri with
    | none =>
      rw [owned, Option.all_none] at hidden
      cases hidden
    | some owner =>
      rw [owned, Option.all_some, decide_eq_false_iff_not] at hidden
      exact ⟨node, owner, rfl, owned, hidden⟩
  | blankNode _ =>
    rw [object] at hidden
    cases hidden
  | literal _ =>
    rw [object] at hidden
    cases hidden

theorem served_hiddenObject
    (served : quad ∈ catalogQuads text graph (filterCatalog isVisible .hideGatedOnly catalog))
    (hidden : objectIsVisible quad.object (visibleResourceIris isVisible text catalog fun _ => false) = false) :
    HiddenObject text catalog (visibleResourceIris isVisible text catalog fun _ => false) quad := by
  -- A quad of the catalog node itself, of one of its datasets, or of one of its services.
  rcases (mem_catalogQuads text graph _).mp served with own | ⟨index, bound, below⟩ | ⟨index, bound, below⟩
  · obtain ⟨statement, stated, rfl⟩ := List.mem_map.mp own
    refine hiddenObject_of_plain (.inl ?_) hidden
    simp only [catalogStatements, List.mem_append, List.mem_cons, List.cons_append] at stated
    rcases stated with rfl | ((participant | property) | link) | link
    · exact owningResourceIri_outside (by decide)
    · obtain ⟨_, _, rfl⟩ := List.mem_map.mp participant
      trivial
    · obtain ⟨_, _, rfl⟩ := List.mem_map.mp property
      trivial
    · -- A linked dataset is served, so it is on the allow-list.
      obtain ⟨dataset, member, rfl⟩ := List.mem_map.mp link
      have shown : iriIsVisible (datasetIri text (nodeBase text catalog.originNode) dataset.id).iri
          (visibleResourceIris isVisible text catalog fun _ => false) = true := by
        rw [datasetIri_isVisible, decide_eq_true_eq]
        exact datasetResourceIri_mem_visible.mpr ⟨dataset, member, rfl⟩
      exact absurd shown (Bool.eq_false_iff.mp hidden)
    · obtain ⟨service, member, rfl⟩ := List.mem_map.mp link
      have shown : iriIsVisible (serviceIri text (nodeBase text catalog.originNode) service.id).iri
          (visibleResourceIris isVisible text catalog fun _ => false) = true := by
        rw [serviceIri_isVisible, decide_eq_true_eq]
        exact serviceResourceIri_mem_visible.mpr ⟨service, member, rfl⟩
      exact absurd shown (Bool.eq_false_iff.mp hidden)
  · obtain ⟨description, described, statement, stated, rfl⟩ := mem_quadsOf.mp below
    have member := List.getElem_mem bound
    rcases Resource.statement_cases described stated with own | ⟨beneath, referred⟩
    · rcases dataset_plain text _ _ index statement own with plain | ⟨distribution, offered, rfl⟩
      · exact hiddenObject_of_plain plain hidden
      -- The link to an access service is the one statement that leaves the dataset.
      · refine .inl ⟨rfl, distribution.accessService, fun listed => ?_, rfl⟩
        have shown : iriIsVisible (serviceIri text (nodeBase text catalog.originNode)
            distribution.accessService).iri (visibleResourceIris isVisible text catalog fun _ => false) = true := by
          rw [serviceIri_isVisible, decide_eq_true_eq]
          exact accessService_visible member offered listed
        exact absurd shown (Bool.eq_false_iff.mp hidden)
    · have shown := iriIsVisible_beneath_dataset beneath
        (datasetResourceIri_mem_visible.mpr ⟨_, member, rfl⟩ : _ ∈ visibleResourceIris isVisible text catalog _)
      rw [insertQuad, referred] at hidden
      exact absurd shown (Bool.eq_false_iff.mp hidden)
  · obtain ⟨description, described, statement, stated, rfl⟩ := mem_quadsOf.mp below
    rcases Resource.statement_cases described stated with own | ⟨beneath, referred⟩
    · exact hiddenObject_of_plain (service_plain text _ index statement own) hidden
    · have shown := iriIsVisible_beneath_service beneath
        (serviceResourceIri_mem_visible.mpr ⟨_, List.getElem_mem bound, rfl⟩ :
          _ ∈ visibleResourceIris isVisible text catalog _)
      rw [insertQuad, referred] at hidden
      exact absurd shown (Bool.eq_false_iff.mp hidden)

/-- What a restricted query sees of a stored catalog is what `GET /catalog` serves of it, less the
positions and the objects that name a resource off the allow-list. -/
theorem visible_quads_of_served_catalog (text : IriText) (graph : NamedNode) (catalog : Catalog)
    (isVisible : Dataset → Bool) (datasetIds : (catalog.datasets.map Dataset.id).Nodup) (stored : List Quad)
    (written : writeCatalog text graph catalog = .ok stored) :
    ∃ served, writeCatalog text graph (filterCatalog isVisible .hideGatedOnly catalog) = .ok served ∧
      (∀ quad, quad ∈ stored ∧
          quadIsVisible quad (visibleResourceIris isVisible text catalog fun _ => false) = true ↔
        quad ∈ served ∧ quad.predicate ≠ sequenceIndexPred ∧
          objectIsVisible quad.object (visibleResourceIris isVisible text catalog fun _ => false) = true) ∧
      ∀ quad ∈ served,
        objectIsVisible quad.object (visibleResourceIris isVisible text catalog fun _ => false) = false →
        HiddenObject text catalog (visibleResourceIris isVisible text catalog fun _ => false) quad := by
  have nests : catalog.NestsWithin maxConstraintDepth := by
    by_contra deep
    obtain ⟨error, refused⟩ := (writeCatalog_writes text graph catalog).refuses deep
    rw [refused] at written
    cases written
  obtain ⟨quads, emitted, sameStored⟩ := (writeCatalog_writes text graph catalog).emits nests
  obtain rfl := Except.ok.inj (written.symm.trans emitted)
  have filteredNests : (filterCatalog isVisible .hideGatedOnly catalog).NestsWithin maxConstraintDepth :=
    fun dataset member => nests dataset (List.mem_filter.mp member).1
  obtain ⟨served, servedWritten, sameServed⟩ :=
    (writeCatalog_writes text graph (filterCatalog isVisible .hideGatedOnly catalog)).emits filteredNests
  -- The stored and the served catalog agree on what is listed, and agreeing catalogs show the same quads.
  have agree : catalog.AgreeOn text (visibleResourceIris isVisible text catalog fun _ => false)
      (filterCatalog isVisible .hideGatedOnly catalog) := filterCatalog_agreeOn datasetIds
  refine ⟨served, servedWritten, fun quad => ?_, fun quad member hidden => ?_⟩
  · rw [sameStored, sameServed]
    constructor
    · intro shown
      obtain ⟨unordered, _, objectShown⟩ := quadIsVisible_iff.mp shown.2
      exact ⟨agree.mem_catalogQuads shown.2 shown.1, unordered, objectShown⟩
    · intro shown
      have visible := quadIsVisible_iff.mpr ⟨shown.2.1, served_subject_isVisible shown.1, shown.2.2⟩
      exact ⟨agree.symm.mem_catalogQuads visible shown.1, visible⟩
  · exact served_hiddenObject ((sameServed quad).mp member) hidden

end

theorem groupedCatalog_read_paths_agree :
    ∃ stored served : List Quad,
      writeCatalog .urlencoding (nodeIri .urlencoding ⟨"did:web:provider"⟩) groupedCatalog = .ok stored ∧
      ∀ quad, quad ∈ stored ∧ quadIsVisible quad (visibleResourceIris (fun dataset => dataset.id = "cars old")
          .urlencoding groupedCatalog fun _ => false) = true ↔
        quad ∈ served ∧ quad.predicate ≠ sequenceIndexPred ∧
          objectIsVisible quad.object (visibleResourceIris (fun dataset => dataset.id = "cars old")
            .urlencoding groupedCatalog fun _ => false) = true := by
  obtain ⟨stored, written, _⟩ := (writeCatalog_writes .urlencoding (nodeIri .urlencoding ⟨"did:web:provider"⟩)
    groupedCatalog).emits (by decide)
  obtain ⟨served, _, agree, _⟩ := visible_quads_of_served_catalog .urlencoding _ groupedCatalog
    (fun dataset => dataset.id = "cars old") (by decide) stored written
  exact ⟨stored, served, written, agree⟩

def brokeredCatalog : Catalog where
  id := "cars"
  originNode := ⟨"did:web:provider"⟩
  participantId := none
  properties := ∅
  dataServices := []
  datasets := [{ id := "cars", properties := ∅, distributions := [⟨"HttpData-PULL", "elsewhere"⟩], policies := [] }]

/-- Its access service is served, but no restricted caller sees it. -/
theorem brokeredCatalog_accessService_hidden :
    (brokeredCatalog.datasets.map Dataset.id).Nodup ∧ (brokeredCatalog.dataServices.map DataService.id).Nodup ∧
    ∃ quads, writeCatalog .urlencoding (nodeIri .urlencoding ⟨"did:web:provider"⟩) brokeredCatalog = .ok quads ∧
      writeCatalog .urlencoding (nodeIri .urlencoding ⟨"did:web:provider"⟩)
        (filterCatalog (fun _ => true) .hideGatedOnly brokeredCatalog) = .ok quads ∧
      ∃ quad ∈ quads, quad.predicate ≠ sequenceIndexPred ∧
        quadIsVisible quad
          (visibleResourceIris (fun _ => true) .urlencoding brokeredCatalog fun _ => false) = false := by
  refine ⟨by decide, by decide, _, rfl, rfl, insertQuad (nodeIri .urlencoding ⟨"did:web:provider"⟩)
    (distributionIri .urlencoding (nodeBase .urlencoding ⟨"did:web:provider"⟩) "cars" 0) dcatAccessServicePred
    (.namedNode (serviceIri .urlencoding (nodeBase .urlencoding ⟨"did:web:provider"⟩) "elsewhere")), ?_, by decide, ?_⟩
  · simp [writeDistribution, brokeredCatalog]
  · rw [Bool.eq_false_iff, ne_eq, quadIsVisible_iff]
    rintro ⟨_, _, shown⟩
    have listed : serviceResourceIri .urlencoding brokeredCatalog.originNode "elsewhere" ∈ _ :=
      decide_eq_true_eq.mp ((serviceIri_isVisible "elsewhere").symm.trans shown)
    obtain ⟨service, none, _⟩ := serviceResourceIri_mem_visible.mp listed
    cases none

end CatalogBroker
