import CatalogBroker.Store.Loaders

/-! Writing and reading back a whole catalog.

A well-formed catalog gives every resource an IRI of its own, so its quads in any
order are read back as the catalog that was written.
-/

set_option autoImplicit false

namespace CatalogBroker

open Library Library.Descriptions

/-- A catalog the store keeps whole: ids tell its datasets and its services apart, constraints
stay within the depth limit, and property keys do not collide with the writer's predicates. -/
structure Catalog.WellFormed (text : IriText) (catalog : Catalog) : Prop where
  datasetIds : (catalog.datasets.map Dataset.id).Nodup
  serviceIds : (catalog.dataServices.map DataService.id).Nodup
  nesting : catalog.NestsWithin maxConstraintDepth
  keys : catalog.properties.KeysFree text GraphSnapshot.reservedCatalogPreds
  datasetKeys : ∀ dataset ∈ catalog.datasets, dataset.properties.KeysFree text GraphSnapshot.reservedDatasetPreds

namespace Listed

variable {α : Type} {branch : Nat → α → StoredBranch} {link : NamedNode} {kind : PathSegment}

theorem addresses_eq (listed : Listed branch link kind) (items : List α) :
    (items.mapIdx branch).map (fun branch => branch.2.1) =
      items.mapIdx fun index _ => [kind, indexSegment index] := by
  rw [Listing.map_mapIdx]
  simp only [listed.address_eq]

theorem addresses_nodup (listed : Listed branch link kind) (items : List α) :
    ((items.mapIdx branch).map fun branch => branch.2.1).Nodup := by
  rw [listed.addresses_eq]
  refine Listing.nodup_mapIdx fun i j _ _ same => indexSegment_injective ?_
  simpa using same

theorem addresses_disjoint {β : Type} {other : Nat → β → StoredBranch} {otherLink : NamedNode}
    {otherKind : PathSegment} (listed : Listed branch link kind) (others : Listed other otherLink otherKind)
    (apart : kind ≠ otherKind) (items : List α) (otherItems : List β) :
    List.Disjoint ((items.mapIdx branch).map fun branch => branch.2.1)
      ((otherItems.mapIdx other).map fun branch => branch.2.1) := by
  rw [listed.addresses_eq, others.addresses_eq]
  intro address left right
  obtain ⟨i, _, rfl⟩ := List.mem_mapIdx.mp left
  obtain ⟨j, _, same⟩ := List.mem_mapIdx.mp right
  exact apart (List.cons.inj same).1.symm

theorem forall_branch (listed : Listed branch link kind) {items : List α} {holds : StoredResource → Prop}
    (each : ∀ index (bound : index < items.length), holds (branch index items[index]).2.2) :
    ∀ found ∈ items.mapIdx branch, found.1 = link ∧ found.2.1.length = 2 ∧ holds found.2.2 := by
  intro found member
  obtain ⟨index, bound, rfl⟩ := List.mem_mapIdx.mp member
  exact ⟨listed.link_eq _ _, by rw [listed.address_eq]; rfl, each index bound⟩

end Listed

/-- Whether any resource of the tree is stated to be a catalog. -/
def NoCatalog (resource : StoredResource) : Prop :=
  ∀ base path, ∀ description ∈ describeAt base path resource,
    (rdfType, Term.namedNode dcatCatalogClass) ∉ description.2

theorem noCatalog_node {statements : List (NamedNode × Term)} {branches : List StoredBranch}
    (own : (rdfType, Term.namedNode dcatCatalogClass) ∉ statements)
    (links : ∀ branch ∈ branches, branch.1 ≠ rdfType)
    (below : ∀ branch ∈ branches, NoCatalog branch.2.2) : NoCatalog (.node statements branches) := by
  intro base path description member
  rcases Resource.mem_describe_node.mp member with rfl | ⟨branch, inBranches, deeper⟩
  · intro stated
    rcases List.mem_append.mp stated with direct | link
    · exact own direct
    · obtain ⟨branch, inBranches, same⟩ := List.mem_map.mp link
      exact links branch inBranches (congrArg Prod.fst same)
  · exact below branch inBranches base _ description deeper

/-- A resource beneath a catalog: siblings are apart, and none is a catalog itself. -/
structure Subordinate (resource : StoredResource) : Prop where
  separated : resource.Separated
  noCatalog : NoCatalog resource

theorem subordinate_node {statements : List (NamedNode × Term)} {branches : List StoredBranch}
    (own : (rdfType, Term.namedNode dcatCatalogClass) ∉ statements)
    (distinct : (branches.map fun branch => branch.2.1).Nodup)
    (each : ∀ branch ∈ branches, branch.1 ≠ rdfType ∧ branch.2.1.length = 2 ∧ Subordinate branch.2.2) :
    Subordinate (.node statements branches) where
  separated := Resource.separated_node_of_length Nat.two_pos (fun branch member => (each branch member).2.1)
    distinct fun branch member => (each branch member).2.2.separated
  noCatalog := noCatalog_node own (fun branch member => (each branch member).1)
    fun branch member => (each branch member).2.2.noCatalog

section

variable (text : IriText)

theorem constraint_subordinate (constraint : Constraint) (index : Nat) :
    Subordinate (constraintResource text constraint index) := by
  induction constraint generalizing index with
  | atomic atomic =>
    rw [constraintResource]
    exact subordinate_node (by simp +decide [positionStatement]) (by simp) (by simp)
  | logical operator children ih =>
    have listed := listed_constraintBranch text operator.predicate
    have apart : operator.predicate ≠ rdfType := by cases operator <;> decide
    rw [constraintResource, childBranches_eq]
    simp only [Nat.zero_add]
    refine subordinate_node (by simp +decide [positionStatement]) (listed.addresses_nodup children) ?_
    intro branch member
    obtain ⟨link, length, below⟩ := listed.forall_branch
      (fun index bound => ih _ (List.getElem_mem bound) index) branch member
    exact ⟨link ▸ apart, length, below⟩

theorem rule_subordinate (rule : Rule) (index : Nat) : Subordinate (ruleResource text rule index) := by
  have listed := listed_constraintBranch text odrlConstraintPred
  refine subordinate_node (by simp +decide [positionStatement]) (listed.addresses_nodup _) ?_
  intro branch member
  obtain ⟨link, length, below⟩ := listed.forall_branch
    (fun index _ => constraint_subordinate text _ index) branch member
  exact ⟨link ▸ by decide, length, below⟩

theorem policy_subordinate (policy : Policy) (index : Nat) :
    Subordinate (policyResource text policy index) := by
  have permissions := listed_ruleBranch text odrlPermissionPred permissionsSegment
  have prohibitions := listed_ruleBranch text odrlProhibitionPred prohibitionsSegment
  have obligations := listed_ruleBranch text odrlObligationPred obligationsSegment
  have each {link : NamedNode} {kind : PathSegment} (rules : List Rule) (apart : link ≠ rdfType) :
      ∀ branch ∈ rules.mapIdx (ruleBranch text link kind),
        branch.1 ≠ rdfType ∧ branch.2.1.length = 2 ∧ Subordinate branch.2.2 := by
    intro branch member
    obtain ⟨same, length, below⟩ := (listed_ruleBranch text link kind).forall_branch
      (fun index _ => rule_subordinate text _ index) branch member
    exact ⟨same ▸ apart, length, below⟩
  have untyped : dcatCatalogClass ≠ odrlPolicyClass policy.kind := by cases policy.kind <;> decide
  refine subordinate_node (by simp +decide [policyStatements, positionStatement, untyped]) ?_ ?_
  · rw [ruleBranches, List.map_append, List.map_append]
    refine List.Nodup.append ((permissions.addresses_nodup _).append (prohibitions.addresses_nodup _)
      (permissions.addresses_disjoint prohibitions (by decide) _ _)) (obligations.addresses_nodup _) ?_
    exact List.disjoint_append_left.mpr ⟨permissions.addresses_disjoint obligations (by decide) _ _,
      prohibitions.addresses_disjoint obligations (by decide) _ _⟩
  · intro branch member
    simp only [ruleBranches, List.mem_append] at member
    rcases member with (member | member) | member
    · exact each policy.permissions (by decide) branch member
    · exact each policy.prohibitions (by decide) branch member
    · exact each policy.obligations (by decide) branch member

theorem noCatalog_propertyStatements (properties : Properties) :
    (rdfType, Term.namedNode dcatCatalogClass) ∉ propertyStatements text properties := by
  intro member
  obtain ⟨entry, _, same⟩ := List.mem_map.mp member
  cases congrArg Prod.snd same

theorem dataset_subordinate (base : String) (dataset : Dataset) (index : Nat) :
    Subordinate (datasetResource text base dataset index) := by
  have distributions := listed_distributionBranch text base
  have policies := listed_policyBranch text
  refine subordinate_node ?_ ?_ ?_
  · simp +decide [datasetStatements, positionStatement, noCatalog_propertyStatements]
  · rw [datasetBranches, List.map_append]
    exact (distributions.addresses_nodup _).append (policies.addresses_nodup _)
      (distributions.addresses_disjoint policies (by decide) _ _)
  · intro branch member
    rcases List.mem_append.mp member with member | member
    · obtain ⟨link, length, below⟩ := distributions.forall_branch (fun index _ =>
        (subordinate_node (by simp +decide [positionStatement]) (by simp) (by simp) :
          Subordinate (distributionResource text base _ index))) branch member
      exact ⟨link ▸ by decide, length, below⟩
    · obtain ⟨link, length, below⟩ := policies.forall_branch
        (fun index _ => policy_subordinate text _ index) branch member
      exact ⟨link ▸ by decide, length, below⟩

theorem service_subordinate (service : DataService) (index : Nat) :
    Subordinate (serviceResource text service index) :=
  subordinate_node (by simp +decide [positionStatement]) (by simp) (by simp)

end

theorem catalogForest_paths (text : IriText) (base : String) (catalog : Catalog) :
    (catalogForest text base catalog).map Prod.fst = catalogPath text catalog ::
      ((catalog.datasets.map fun dataset => datasetPath text dataset.id) ++
        catalog.dataServices.map fun service => servicePath text service.id) := by
  simp only [catalogForest, catalogResource, datasetResources, serviceResources, List.map_append,
    List.map_cons, Listing.map_mapIdx, List.cons_append]
  rw [Listing.mapIdx_eq_map fun dataset : Dataset => datasetPath text dataset.id,
    Listing.mapIdx_eq_map fun service : DataService => servicePath text service.id]

theorem catalogForest_paths_nodup (text : IriText) (base : String) {catalog : Catalog}
    (wellFormed : catalog.WellFormed text) :
    ((catalogForest text base catalog).map Prod.fst).Nodup := by
  have segments {kind : PathSegment} : Function.Injective fun id => [kind, text.segment id] := by
    intro first second same
    exact text.segment_injective (by simpa using same)
  rw [catalogForest_paths, List.nodup_cons, List.nodup_append']
  refine ⟨?_, ?_, ?_, ?_⟩
  · simp +decide [catalogPath, datasetPath, servicePath]
  · have ids := wellFormed.datasetIds.map (@segments datasetsSegment)
    rwa [List.map_map] at ids
  · have ids := wellFormed.serviceIds.map (@segments servicesSegment)
    rwa [List.map_map] at ids
  · intro path inDatasets inServices
    obtain ⟨dataset, _, rfl⟩ := List.mem_map.mp inDatasets
    obtain ⟨service, _, same⟩ := List.mem_map.mp inServices
    exact absurd (List.cons.inj same).1 (by decide)

theorem catalogForest_unique (text : IriText) (base : String) {catalog : Catalog}
    (wellFormed : catalog.WellFormed text) :
    ((catalogDescriptions text base catalog).map Prod.fst).Nodup := by
  have distinct := List.pairwise_map.mp (catalogForest_paths_nodup text base wellFormed)
  refine Resource.describeForest_unique (resourceIri_injective base) _ ?_ ?_
  · refine distinct.imp_of_mem fun {first second} inFirst inSecond apart => ?_
    have lengths : ∀ resource ∈ catalogForest text base catalog, resource.1.length = 2 := by
      have paths : ∀ path ∈ (catalogForest text base catalog).map Prod.fst, path.length = 2 := by
        simp [catalogForest_paths, or_imp, forall_and, catalogPath, datasetPath, servicePath]
      exact fun resource member => paths _ (List.mem_map_of_mem member)
    exact Resource.incomparable_of_length_eq ((lengths first inFirst).trans (lengths second inSecond).symm)
      apart
  · intro resource member
    rcases List.mem_cons.mp member with rfl | member
    · exact Resource.separated_leaf _
    rcases List.mem_append.mp member with member | member
    · obtain ⟨index, bound, rfl⟩ := List.mem_mapIdx.mp member
      exact (dataset_subordinate text base _ index).separated
    · obtain ⟨index, bound, rfl⟩ := List.mem_mapIdx.mp member
      exact (service_subordinate text _ index).separated

def datasetFixed (text : IriText) (base : String) (path : List PathSegment) (dataset : Dataset)
    (index : Nat) : List (NamedNode × Term) :=
  (rdfType, .namedNode dcatDatasetClass) :: positionStatement index ::
    (datasetBranches text base dataset).map (linkStatement base path)

theorem dataset_fixed_reserved (text : IriText) (base : String) (path : List PathSegment)
    (dataset : Dataset) (index : Nat) :
    ∀ statement ∈ datasetFixed text base path dataset index, statement.1 ∈ GraphSnapshot.reservedDatasetPreds := by
  have links : ∀ branch ∈ datasetBranches text base dataset, branch.1 ∈ GraphSnapshot.reservedDatasetPreds := by
    intro branch member
    rcases List.mem_append.mp member with member | member
    · obtain ⟨_, _, rfl⟩ := List.mem_mapIdx.mp member
      exact (by decide : dcatDistributionPred ∈ GraphSnapshot.reservedDatasetPreds)
    · obtain ⟨_, _, rfl⟩ := List.mem_mapIdx.mp member
      exact (by decide : odrlHasPolicyPred ∈ GraphSnapshot.reservedDatasetPreds)
  simp only [datasetFixed, List.forall_mem_cons, List.forall_mem_map, linkStatement]
  exact ⟨by decide, (by decide : sequenceIndexPred ∈ GraphSnapshot.reservedDatasetPreds), links⟩

namespace GraphSnapshot.Holds

variable {snapshot : GraphSnapshot} {graph : NamedNode} {text : IriText} {base : String}
  {descriptions : List (Description NamedNode NamedNode Term)}

theorem reservedDatasetPreds_apart : ∀ predicate ∈ reservedDatasetPreds,
    Text.stripPrefix predicate.iri internalPropertyPrefix = none := by decide

theorem reservedCatalogPreds_apart : ∀ predicate ∈ reservedCatalogPreds,
    Text.stripPrefix predicate.iri internalPropertyPrefix = none := by decide

theorem loadDataset_eq (holds : snapshot.Holds graph descriptions) {dataset : Dataset} {index : Nat}
    (fits : ∀ policy ∈ dataset.policies, policy.NestsWithin maxConstraintDepth)
    (free : dataset.properties.KeysFree text reservedDatasetPreds)
    (within : describeAt base (datasetPath text dataset.id) (datasetResource text base dataset index) ⊆
      descriptions) :
    snapshot.loadDataset text base (datasetIri text base dataset.id) = .ok (index, dataset) := by
  have described := within (describeAt_head base _ _ _)
  have distributionsListed := listed_distributionBranch text base
  have policiesListed := listed_policyBranch text
  -- a harvested property never shares a predicate with what the loader looks for
  have unset {predicate : NamedNode} (known : predicate ∈ reservedDatasetPreds) :=
    free.objects_eq_nil reservedDatasetPreds_apart known
  have noDistribution {predicate : NamedNode} (other : dcatDistributionPred ≠ predicate) :=
    distributionsListed.objects_other base (datasetPath text dataset.id) dataset.distributions other
  have noPolicy {predicate : NamedNode} (other : odrlHasPolicyPred ≠ predicate) :=
    policiesListed.objects_other base (datasetPath text dataset.id) dataset.policies other
  have position : snapshot.sequenceIndex text (resourceIri base (datasetPath text dataset.id)) = .ok index :=
    holds.sequenceIndex_eq described
      (by simp +decide [datasetStatements, positionStatement, datasetBranches, unset, noDistribution, noPolicy])
  have distributions : loadLinked text (snapshot.matching (some (resourceIri base (datasetPath text dataset.id)))
      (some dcatDistributionPred) none) "a dcat:distribution reference"
      (snapshot.loadDistribution text base) = .ok dataset.distributions := by
    refine holds.loadListed_eq described distributionsListed
      (by simp +decide [datasetStatements, positionStatement, datasetBranches, unset, noPolicy])
      fun position bound => ?_
    have among : dataset.distributions.mapIdx (distributionBranch text base) ⊆
        datasetBranches text base dataset := List.subset_append_left _ _
    exact holds.loadDistribution_eq (List.Subset.trans (distributionsListed.subset among bound) within)
  have policies : loadLinked text (snapshot.matching (some (resourceIri base (datasetPath text dataset.id)))
      (some odrlHasPolicyPred) none) "an odrl:hasPolicy reference"
      (snapshot.loadPolicy text) = .ok dataset.policies := by
    refine holds.loadListed_eq described policiesListed
      (by simp +decide [datasetStatements, positionStatement, datasetBranches, unset, noDistribution])
      fun position bound => ?_
    have among : dataset.policies.mapIdx (policyBranch text) ⊆ datasetBranches text base dataset :=
      List.subset_append_right _ _
    exact holds.loadPolicy_eq (fits _ (List.getElem_mem bound))
      (List.Subset.trans (policiesListed.subset among bound) within)
  have properties : snapshot.loadProperties text (resourceIri base (datasetPath text dataset.id))
      reservedDatasetPreds = .ok dataset.properties := by
    refine holds.loadProperties_eq described free reservedDatasetPreds_apart
      (dataset_fixed_reserved text base (datasetPath text dataset.id) dataset index) fun statement => ?_
    simp only [datasetStatements, datasetFixed, List.mem_append, List.mem_cons]
    exact iff_of_eq (by ac_rfl)
  have decoded : stripPrefixDecode text (datasetIri text base dataset.id).iri (base ++ "/datasets/") =
      .ok dataset.id :=
    stripPrefixDecode_encode text _ _
  -- every lookup is answered, so the loader is a computation
  rw [datasetPath, ← datasetIri_eq] at position distributions policies properties
  simp [loadDataset, decoded, position, distributions, policies, properties, bind, Except.bind, pure,
    Except.pure]

def catalogFixed (text : IriText) (base : String) (catalog : Catalog) : List (NamedNode × Term) :=
  (rdfType, .namedNode dcatCatalogClass) ::
    (catalog.participantId.toList.map fun participantId =>
      (participantIdPred, .literal (.ofString participantId))) ++
    (catalog.datasets.map fun dataset => (dcatDatasetPred, .namedNode (datasetIri text base dataset.id))) ++
    (catalog.dataServices.map fun service => (dcatServicePred, .namedNode (serviceIri text base service.id)))

theorem catalog_fixed_reserved (text : IriText) (base : String) (catalog : Catalog) :
    ∀ statement ∈ catalogFixed text base catalog, statement.1 ∈ reservedCatalogPreds := by
  simp +decide [catalogFixed, or_imp, forall_and]

theorem matching_catalog {catalog : Catalog}
    (holds : snapshot.Holds graph (catalogDescriptions text base catalog)) :
    snapshot.matching none (some rdfType) (some (.namedNode dcatCatalogClass)) =
      [insertQuad graph (catalogIri text base catalog.id) rdfType (.namedNode dcatCatalogClass)] := by
  have nodup : (snapshot.matching none (some rdfType) (some (.namedNode dcatCatalogClass))).Nodup :=
    holds.nodup.filter _
  refine List.perm_singleton.mp ((List.perm_ext_iff_of_nodup nodup (List.nodup_singleton _)).mpr ?_)
  intro quad
  simp only [matching, List.mem_filter, holds.mem_iff, mem_quadsOf, mem_catalogDescriptions, Option.all_none,
    Option.all_some, Bool.true_and, Bool.and_eq_true, decide_eq_true_eq, List.mem_singleton]
  constructor
  · rintro ⟨⟨description, described, ⟨predicate, object⟩, stated, rfl⟩, typed, isCatalog⟩
    obtain rfl : predicate = rdfType := typed
    obtain rfl : object = .namedNode dcatCatalogClass := isCatalog
    rcases described with rfl | ⟨index, bound, below⟩ | ⟨index, bound, below⟩
    · rfl
    · exact absurd stated ((dataset_subordinate text base _ index).noCatalog base _ description below)
    · exact absurd stated ((service_subordinate text _ index).noCatalog base _ description below)
  · rintro rfl
    exact ⟨⟨_, .inl rfl, (rdfType, .namedNode dcatCatalogClass), List.mem_cons_self, rfl⟩, rfl, rfl⟩

theorem loadCatalog_eq {catalog : Catalog} (wellFormed : catalog.WellFormed text)
    (holds : snapshot.Holds graph (catalogDescriptions text (nodeBase text catalog.originNode) catalog)) :
    snapshot.loadCatalog text catalog.originNode = .ok (some catalog) := by
  have described : (catalogIri text (nodeBase text catalog.originNode) catalog.id,
      catalogStatements text (nodeBase text catalog.originNode) catalog) ∈ _ :=
    mem_catalogDescriptions.mpr (.inl rfl)
  have unset {predicate : NamedNode} (known : predicate ∈ reservedCatalogPreds) :=
    wellFormed.keys.objects_eq_nil reservedCatalogPreds_apart known
  have decoded : stripPrefixDecode text (catalogIri text (nodeBase text catalog.originNode) catalog.id).iri
      (nodeBase text catalog.originNode ++ "/catalogs/") = .ok catalog.id :=
    stripPrefixDecode_encode text _ _
  have participant : snapshot.optionalString text
      (catalogIri text (nodeBase text catalog.originNode) catalog.id) participantIdPred =
      .ok catalog.participantId :=
    holds.optionalString_eq described (reads_literal text)
      (by simp +decide [catalogStatements, unset, objects_map_other])
  have properties : snapshot.loadProperties text
      (catalogIri text (nodeBase text catalog.originNode) catalog.id) reservedCatalogPreds =
      .ok catalog.properties := by
    refine holds.loadProperties_eq described wellFormed.keys reservedCatalogPreds_apart
      (catalog_fixed_reserved text (nodeBase text catalog.originNode) catalog) fun statement => ?_
    simp only [catalogStatements, catalogFixed, List.mem_append, List.mem_cons]
    exact iff_of_eq (by ac_rfl)
  -- datasets and services are listed by their IRIs, which their ids determine
  have datasets : loadLinked text (snapshot.matching
      (some (catalogIri text (nodeBase text catalog.originNode) catalog.id)) (some dcatDatasetPred) none)
      "a dcat:dataset reference" (snapshot.loadDataset text (nodeBase text catalog.originNode)) =
      .ok catalog.datasets := by
    refine holds.loadIdentified_eq described (datasetIri_injective text (nodeBase text catalog.originNode))
      wellFormed.datasetIds ?_ ?_
    · simp +decide [catalogStatements, unset (by decide : dcatDatasetPred ∈ reservedCatalogPreds),
        objects_map_other]
    · intro index bound
      have member := List.getElem_mem bound
      exact holds.loadDataset_eq (wellFormed.nesting _ member) (wellFormed.datasetKeys _ member)
        fun description below => mem_catalogDescriptions.mpr (.inr (.inl ⟨index, bound, below⟩))
  have dataServices : loadLinked text (snapshot.matching
      (some (catalogIri text (nodeBase text catalog.originNode) catalog.id)) (some dcatServicePred) none)
      "a dcat:service reference" (snapshot.loadDataService text (nodeBase text catalog.originNode)) =
      .ok catalog.dataServices := by
    refine holds.loadIdentified_eq described (serviceIri_injective text (nodeBase text catalog.originNode))
      wellFormed.serviceIds ?_ ?_
    · simp +decide [catalogStatements, unset (by decide : dcatServicePred ∈ reservedCatalogPreds),
        objects_map_other]
    · intro index bound
      exact holds.loadDataService_eq fun description below =>
        mem_catalogDescriptions.mpr (.inr (.inr ⟨index, bound, below⟩))
  simp [loadCatalog, holds.matching_catalog, decoded, participant, properties, datasets, dataServices,
    insertQuad, bind, Except.bind, pure, Except.pure]

end GraphSnapshot.Holds

theorem Catalog.WellFormed.loadCatalog_eq {text : IriText} {graph : NamedNode} {catalog : Catalog}
    (wellFormed : catalog.WellFormed text) {snapshot : GraphSnapshot} (nodup : snapshot.quads.Nodup)
    (holds : ∀ quad, quad ∈ snapshot.quads ↔
      quad ∈ quadsOf graph (catalogDescriptions text (nodeBase text catalog.originNode) catalog)) :
    snapshot.loadCatalog text catalog.originNode = .ok (some catalog) := by
  have held : snapshot.Holds graph (catalogDescriptions text (nodeBase text catalog.originNode) catalog) :=
    { nodup
      mem_iff := holds
      unique := catalogForest_unique text _ wellFormed }
  exact held.loadCatalog_eq wellFormed

/-- `load_catalog` over what `write_catalog` produced, in any order, is the catalog itself. -/
theorem loadCatalog_writeCatalog (text : IriText) (graph : NamedNode) (catalog : Catalog)
    (wellFormed : catalog.WellFormed text) :
    ∃ quads, writeCatalog text graph catalog = .ok quads ∧
      ∀ snapshot : GraphSnapshot, snapshot.quads.Nodup → (∀ quad, quad ∈ snapshot.quads ↔ quad ∈ quads) →
        snapshot.loadCatalog text catalog.originNode = .ok (some catalog) := by
  obtain ⟨quads, written, same⟩ := (writeCatalog_writes text graph catalog).emits wellFormed.nesting
  exact ⟨quads, written, fun snapshot nodup holds =>
    wellFormed.loadCatalog_eq nodup fun quad => (holds quad).trans (same quad)⟩

/-- A catalog with an id that needs encoding, a policy group nested in another, and an empty one. -/
def groupedCatalog : Catalog where
  id := "cars/2024"
  originNode := ⟨"did:web:provider"⟩
  participantId := some "did:web:provider"
  properties := Std.ExtTreeMap.ofList [("dct:title", "Cars")]
  dataServices := [⟨"connector", "https://provider.example/dsp", none⟩]
  datasets :=
    [{ id := "cars"
       properties := ∅
       distributions := [⟨"HttpData-PULL", "connector"⟩]
       policies :=
        [{ id := none
           kind := .offer
           assigner := some "did:web:provider"
           assignee := none
           permissions := [⟨"odrl:use", [.logical .and
             [.logical .or [], .atomic ⟨"membership", "odrl:eq", "active"⟩]]⟩]
           prohibitions := []
           obligations := [] }] },
     { id := "cars old", properties := ∅, distributions := [], policies := [] }]

theorem groupedCatalog_wellFormed : groupedCatalog.WellFormed .urlencoding where
  datasetIds := by decide
  serviceIds := by decide
  nesting := by decide
  keys := by
    have only : ∀ key ∈ groupedCatalog.properties, key = "dct:title" := by
      intro key member
      have same : "dct:title" = key := by simpa [groupedCatalog] using member
      exact same.symm
    constructor
    · intro key member predicate reserved
      rw [only key member]
      exact (by decide : ∀ predicate ∈ GraphSnapshot.reservedCatalogPreds, "dct:title" ≠ predicate.iri)
        predicate reserved
    · intro key member _
      rw [only key member]
      decide
  datasetKeys := by
    have empty : ∀ dataset ∈ groupedCatalog.datasets, dataset.properties = ∅ := by
      simp [groupedCatalog]
    intro dataset member
    constructor <;> simp [empty dataset member]

theorem groupedCatalog_read_back :
    ∃ quads, writeCatalog .urlencoding (nodeIri .urlencoding ⟨"did:web:provider"⟩) groupedCatalog = .ok quads ∧
      ∀ snapshot : GraphSnapshot, snapshot.quads.Nodup → (∀ quad, quad ∈ snapshot.quads ↔ quad ∈ quads) →
        snapshot.loadCatalog .urlencoding ⟨"did:web:provider"⟩ = .ok (some groupedCatalog) :=
  loadCatalog_writeCatalog .urlencoding _ groupedCatalog groupedCatalog_wellFormed

end CatalogBroker
