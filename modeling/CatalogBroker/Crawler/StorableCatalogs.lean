import CatalogBroker.Crawler.Collect
import CatalogBroker.Crawler.KeptEntries
import CatalogBroker.Store.CacheRefinement

/-! Whatever a response holds, the catalog parsed from it can be stored and is read back whole. -/

set_option autoImplicit false

namespace CatalogBroker

open Library Listing

mutual
/-- The catalog nodes of a response, in the order they are walked in. -/
def catalogNodes : Json → List Json
  | .object members => .object members :: nestedNodes members
  | _ => []

def nestedNodes : List (String × Json) → List Json
  | [] => []
  | (key, value) :: members => if key = "catalog" then entryNodes value else nestedNodes members

def entryNodes : Json → List Json
  | .array items => allNodes items
  | _ => []

def allNodes : List Json → List Json
  | [] => []
  | item :: items => catalogNodes item ++ allNodes items
end

mutual
theorem collectDatasetsAndServices_eq (value : Json) (state : Collection) :
    collectDatasetsAndServices value state = (catalogNodes value).foldl collectNode state := by
  cases value with
  | object members =>
    rw [collectDatasetsAndServices, catalogNodes, List.foldl_cons]
    exact collectNested_eq members _
  | _ => rfl

theorem collectNested_eq (members : List (String × Json)) (state : Collection) :
    collectNested members state = (nestedNodes members).foldl collectNode state := by
  cases members with
  | nil => rfl
  | cons member members =>
    obtain ⟨key, value⟩ := member
    rw [collectNested, nestedNodes]
    by_cases nested : key = "catalog"
    · rw [if_pos nested, if_pos nested]
      exact collectEntries_eq value state
    · rw [if_neg nested, if_neg nested]
      exact collectNested_eq members state

theorem collectEntries_eq (value : Json) (state : Collection) :
    collectEntries value state = (entryNodes value).foldl collectNode state := by
  cases value with
  | array items => exact collectAll_eq items state
  | _ => rfl

theorem collectAll_eq (items : List Json) (state : Collection) :
    collectAll items state = (allNodes items).foldl collectNode state := by
  cases items with
  | nil => rfl
  | cons item items =>
    rw [collectAll, allNodes, List.foldl_append, collectDatasetsAndServices_eq item state]
    exact collectAll_eq items _
end

def datasetNodes (value : Json) : List Json := (catalogNodes value).flatMap fun node => readArray node "dataset"

def inlineServices (datasetValue : Json) : List Json :=
  (readArray datasetValue "distribution").filterMap inlineAccessService

/-- The service nodes inside those of `nodes` that are the first of their id, `met` being the dataset nodes before. -/
def servicesInside (met : List Json) : List Json → List Json
  | [] => []
  | node :: nodes =>
    (if (readId node).isSome ∧ readId node ∉ met.map readId then inlineServices node else []) ++
      servicesInside (met ++ [node]) nodes

def servicesOf (met : List Json) : List Json → List Json
  | [] => []
  | node :: nodes =>
    readArray node "service" ++ servicesInside met (readArray node "dataset") ++
      servicesOf (met ++ readArray node "dataset") nodes

/-- The service nodes of a response in the order they are met in: a catalog's own, then those inside its datasets,
of which only the kept ones are looked into. -/
def serviceNodes (value : Json) : List Json := servicesOf [] (catalogNodes value)

namespace Collection

structure HoldsServices (state : Collection) (met : List Json) : Prop where
  services : state.dataServices = (firstByKey readId met).map fun entry => dataServiceOf entry.1 entry.2
  seen : ∀ id, id ∈ state.seen.services ↔ id ∈ (firstByKey readId met).map Prod.fst

structure HoldsDatasets (state : Collection) (met : List Json) : Prop where
  datasets : state.datasets = (firstByKey readId met).map fun entry => parseDataset entry.1 entry.2
  seen : ∀ id, id ∈ state.seen.datasets ↔ id ∈ (firstByKey readId met).map Prod.fst

/-- What a walk holds after the dataset nodes `datasets` and the service nodes `services`. -/
structure Holds (state : Collection) (datasets services : List Json) : Prop where
  ofDatasets : state.HoldsDatasets datasets
  ofServices : state.HoldsServices services
  inside : ∀ entry ∈ firstByKey readId datasets, ∀ service ∈ inlineServices entry.2, service ∈ services

variable {state : Collection} {met : List Json}

theorem collectService_unnamed {node : Json} (unnamed : readId node = none) : collectService state node = state := by
  rw [collectService, parseDataService, unnamed]
  rfl

theorem collectService_known {node : Json} {id : String} (named : readId node = some id)
    (known : id ∈ state.seen.services) : collectService state node = state := by
  rw [collectService, parseDataService, named]
  exact if_pos known

theorem collectService_new {node : Json} {id : String} (named : readId node = some id)
    (new : id ∉ state.seen.services) : collectService state node =
      { state with
        dataServices := state.dataServices ++ [dataServiceOf id node]
        seen := { state.seen with services := insert id state.seen.services } } := by
  rw [collectService, parseDataService, named]
  exact if_neg new

theorem HoldsServices.collectService (holds : state.HoldsServices met) (node : Json) :
    (collectService state node).HoldsServices (met ++ [node]) := by
  cases named : readId node with
  | none =>
    have step : firstByKey readId (met ++ [node]) = firstByKey readId met := by
      rw [firstByKey_append_singleton, keepFirst, named]
    rw [collectService_unnamed named]
    exact ⟨by rw [step]; exact holds.services, by rw [step]; exact holds.seen⟩
  | some id =>
    have step : firstByKey readId (met ++ [node]) = if id ∈ (firstByKey readId met).map Prod.fst
        then firstByKey readId met else firstByKey readId met ++ [(id, node)] := by
      rw [firstByKey_append_singleton, keepFirst, named]
    by_cases known : id ∈ state.seen.services
    · rw [if_pos ((holds.seen id).mp known)] at step
      rw [collectService_known named known]
      exact ⟨by rw [step]; exact holds.services, by rw [step]; exact holds.seen⟩
    · rw [if_neg (fun listed => known ((holds.seen id).mpr listed))] at step
      rw [collectService_new named known]
      constructor
      · rw [step, List.map_append, ← holds.services]
        rfl
      · intro other
        rw [step, List.map_append, List.mem_append, Finset.mem_insert, holds.seen, or_comm]
        simp

theorem HoldsServices.collectServices (holds : state.HoldsServices met) (nodes : List Json) :
    (collectServices state nodes).HoldsServices (met ++ nodes) := by
  induction nodes generalizing state met with
  | nil =>
    rw [List.append_nil]
    exact holds
  | cons node nodes ih =>
    have rest := ih (holds.collectService node)
    rwa [List.append_assoc] at rest

theorem collectService_frame (state : Collection) (node : Json) :
    (collectService state node).datasets = state.datasets ∧
      (collectService state node).seen.datasets = state.seen.datasets := by
  cases named : readId node with
  | none => rw [collectService_unnamed named]; exact ⟨rfl, rfl⟩
  | some id =>
    by_cases known : id ∈ state.seen.services
    · rw [collectService_known named known]
      exact ⟨rfl, rfl⟩
    · rw [collectService_new named known]
      exact ⟨rfl, rfl⟩

theorem collectServices_frame (state : Collection) (nodes : List Json) :
    (collectServices state nodes).datasets = state.datasets ∧
      (collectServices state nodes).seen.datasets = state.seen.datasets := by
  induction nodes generalizing state with
  | nil => exact ⟨rfl, rfl⟩
  | cons node nodes ih =>
    have first := collectService_frame state node
    have rest := ih (collectService state node)
    exact ⟨rest.1.trans first.1, rest.2.trans first.2⟩

theorem collectDataset_unnamed {node : Json} (unnamed : readId node = none) : collectDataset state node = state := by
  rw [collectDataset, unnamed]

theorem collectDataset_known {node : Json} {id : String} (named : readId node = some id)
    (known : id ∈ state.seen.datasets) : collectDataset state node = state := by
  rw [collectDataset, named]
  exact if_pos known

theorem collectDataset_new {node : Json} {id : String} (named : readId node = some id)
    (new : id ∉ state.seen.datasets) :
    ∃ between : Collection, between =
        collectServices { state with seen := { state.seen with datasets := insert id state.seen.datasets } }
          (inlineServices node) ∧
      collectDataset state node = { between with datasets := state.datasets ++ [parseDataset id node] } := by
  refine ⟨_, rfl, ?_⟩
  rw [collectDataset, named]
  simp only [if_neg new]
  rw [← inlineServices, (collectServices_frame _ _).1]

theorem servicesInside_append (met nodes others : List Json) : servicesInside met (nodes ++ others) =
    servicesInside met nodes ++ servicesInside (met ++ nodes) others := by
  induction nodes generalizing met with
  | nil => simp [servicesInside]
  | cons node nodes ih => simp [servicesInside, ih]

theorem Holds.passOver {datasets services : List Json} (holds : state.Holds datasets services) {node : Json}
    (same : firstByKey readId (datasets ++ [node]) = firstByKey readId datasets)
    (skipped : servicesInside datasets [node] = []) :
    state.Holds (datasets ++ [node]) (services ++ servicesInside datasets [node]) := by
  rw [skipped, List.append_nil]
  exact
    { ofDatasets := ⟨by rw [same]; exact holds.ofDatasets.datasets, by rw [same]; exact holds.ofDatasets.seen⟩
      ofServices := holds.ofServices
      inside := by rw [same]; exact holds.inside }

theorem Holds.collectFirst {datasets services : List Json} (holds : state.Holds datasets services) {node : Json}
    {id : String} (named : readId node = some id) (new : id ∉ state.seen.datasets) :
    (CatalogBroker.collectDataset state node).Holds (datasets ++ [node])
      (services ++ servicesInside datasets [node]) := by
  have fresh : id ∉ (firstByKey readId datasets).map Prod.fst := fun listed =>
    new ((holds.ofDatasets.seen id).mpr listed)
  have step : firstByKey readId (datasets ++ [node]) = firstByKey readId datasets ++ [(id, node)] := by
    rw [firstByKey_append_singleton, keepFirst, named]
    exact if_neg fresh
  have inside : servicesInside datasets [node] = inlineServices node := by
    rw [mem_firstByKey_keys] at fresh
    rw [servicesInside, named, if_pos ⟨rfl, fresh⟩, servicesInside, List.append_nil]
  obtain ⟨between, collected, kept⟩ := collectDataset_new named new
  rw [kept, inside]
  -- The services are walked with the dataset already marked as seen.
  have marked : Collection.HoldsServices
      { state with seen := { state.seen with datasets := insert id state.seen.datasets } } services :=
    ⟨holds.ofServices.services, holds.ofServices.seen⟩
  have walked := marked.collectServices (inlineServices node)
  rw [← collected] at walked
  exact
    { ofDatasets := by
        constructor
        · rw [step, List.map_append, ← holds.ofDatasets.datasets]
          rfl
        · intro other
          rw [step, List.map_append, List.mem_append, ← holds.ofDatasets.seen other]
          simp only [collected, (collectServices_frame _ _).2, Finset.mem_insert]
          simp [or_comm]
      ofServices := ⟨walked.services, walked.seen⟩
      inside := by
        intro entry member service listed
        rw [step, List.mem_append] at member
        rcases member with earlier | last
        · exact List.mem_append_left _ (holds.inside entry earlier service listed)
        · rw [List.mem_singleton.mp last] at listed
          exact List.mem_append_right _ listed }

theorem Holds.collectDataset {datasets services : List Json} (holds : state.Holds datasets services) (node : Json) :
    (collectDataset state node).Holds (datasets ++ [node]) (services ++ servicesInside datasets [node]) := by
  cases named : readId node with
  | none =>
    rw [collectDataset_unnamed named]
    apply holds.passOver
    · rw [firstByKey_append_singleton, keepFirst, named]
    · simp [servicesInside, named]
  | some id =>
    by_cases known : id ∈ state.seen.datasets
    · have listed := (holds.ofDatasets.seen id).mp known
      rw [collectDataset_known named known]
      apply holds.passOver
      · rw [firstByKey_append_singleton, keepFirst, named]
        exact if_pos listed
      · have earlier := (mem_firstByKey_keys readId).mp listed
        rw [servicesInside, named, if_neg (fun first => first.2 earlier)]
        rfl
    · exact holds.collectFirst named known

theorem Holds.collectDatasets {datasets services : List Json} (holds : state.Holds datasets services)
    (nodes : List Json) :
    (nodes.foldl CatalogBroker.collectDataset state).Holds (datasets ++ nodes)
      (services ++ servicesInside datasets nodes) := by
  induction nodes generalizing state datasets services with
  | nil => simpa [servicesInside] using holds
  | cons node nodes ih =>
    have rest := ih (holds.collectDataset node)
    rw [List.append_assoc, List.append_assoc, ← servicesInside_append] at rest
    exact rest

theorem Holds.collectNode {datasets services : List Json} (holds : state.Holds datasets services) (node : Json) :
    (collectNode state node).Holds (datasets ++ readArray node "dataset")
      (services ++ (readArray node "service" ++ servicesInside datasets (readArray node "dataset"))) := by
  have own := holds.ofServices.collectServices (readArray node "service")
  have frame := collectServices_frame state (readArray node "service")
  have before : (collectServices state (readArray node "service")).Holds datasets
      (services ++ readArray node "service") :=
    { ofDatasets := ⟨by rw [frame.1]; exact holds.ofDatasets.datasets, by rw [frame.2]; exact holds.ofDatasets.seen⟩
      ofServices := own
      inside := fun entry member service listed => List.mem_append_left _ (holds.inside entry member service listed) }
  rw [← List.append_assoc]
  exact before.collectDatasets (readArray node "dataset")

theorem Holds.collectNodes {datasets services : List Json} (holds : state.Holds datasets services)
    (nodes : List Json) : (nodes.foldl CatalogBroker.collectNode state).Holds
      (datasets ++ nodes.flatMap fun node => readArray node "dataset") (services ++ servicesOf datasets nodes) := by
  induction nodes generalizing state datasets services with
  | nil => simpa [servicesOf] using holds
  | cons node nodes ih =>
    have rest := ih (holds.collectNode node)
    rw [List.append_assoc, List.append_assoc] at rest
    exact rest

theorem holds_empty : Holds {} [] [] where
  ofDatasets := ⟨rfl, by simp [firstByKey]⟩
  ofServices := ⟨rfl, by simp [firstByKey]⟩
  inside := by simp [firstByKey]

/-- A whole walk holds the first dataset and the first service of every id. -/
theorem holds_collected (value : Json) :
    (collectDatasetsAndServices value {}).Holds (datasetNodes value) (serviceNodes value) := by
  rw [collectDatasetsAndServices_eq]
  exact holds_empty.collectNodes (catalogNodes value)

end Collection

theorem mem_parseProperties {datasetValue : Json} {key : String} (member : key ∈ parseProperties datasetValue) :
    key ∈ datasetPropertyKeys := by
  unfold parseProperties at member
  revert member
  apply List.foldlRecOn (motive := fun properties : Properties => key ∈ properties → key ∈ datasetPropertyKeys)
  · intro empty
    simp at empty
  · intro properties earlier next listed member
    cases read : readString datasetValue next with
    | none =>
      rw [read] at member
      exact earlier member
    | some value =>
      rw [read] at member
      rcases Std.ExtTreeMap.mem_insert.mp member with same | before
      · exact Std.LawfulEqCmp.compare_eq_iff_eq.mp same ▸ listed
      · exact earlier before

theorem parseProperties_keysFree (text : IriText) (datasetValue : Json) :
    (parseProperties datasetValue).KeysFree text GraphSnapshot.reservedDatasetPreds where
  unreserved := by
    intro key member
    have apart :
        ∀ key ∈ datasetPropertyKeys, ∀ predicate ∈ GraphSnapshot.reservedDatasetPreds, key ≠ predicate.iri := by
      decide
    exact apart key (mem_parseProperties member)
  external := by
    intro key member _
    have outside : ∀ key ∈ datasetPropertyKeys, Text.stripPrefix key internalPropertyPrefix = none := by decide
    exact outside key (mem_parseProperties member)

section

variable (text : IriText) (freshId : String) (value : Json) (participant : ParticipantEntry)

theorem parseCatalogResponse_datasets : (parseCatalogResponse freshId value participant).datasets =
    (firstByKey readId (datasetNodes value)).map fun entry => parseDataset entry.1 entry.2 :=
  (Collection.holds_collected value).ofDatasets.datasets

theorem parseCatalogResponse_dataServices : (parseCatalogResponse freshId value participant).dataServices =
    (firstByKey readId (serviceNodes value)).map fun entry => dataServiceOf entry.1 entry.2 :=
  (Collection.holds_collected value).ofServices.services

theorem mem_parsed_datasets {dataset : Dataset} :
    dataset ∈ (parseCatalogResponse freshId value participant).datasets ↔
      ∃ node, (datasetNodes value).find? (fun node => readId node = some dataset.id) = some node ∧
        dataset = parseDataset dataset.id node := by
  rw [parseCatalogResponse_datasets, List.mem_map]
  constructor
  · rintro ⟨entry, member, rfl⟩
    exact ⟨entry.2, (mem_firstByKey readId).mp member, rfl⟩
  · rintro ⟨node, first, same⟩
    exact ⟨(dataset.id, node), (mem_firstByKey readId).mpr first, same.symm⟩

theorem mem_parsed_dataServices {service : DataService} :
    service ∈ (parseCatalogResponse freshId value participant).dataServices ↔
      ∃ node, (serviceNodes value).find? (fun node => readId node = some service.id) = some node ∧
        service = dataServiceOf service.id node := by
  rw [parseCatalogResponse_dataServices, List.mem_map]
  constructor
  · rintro ⟨entry, member, rfl⟩
    exact ⟨entry.2, (mem_firstByKey readId).mp member, rfl⟩
  · rintro ⟨node, first, same⟩
    exact ⟨(service.id, node), (mem_firstByKey readId).mpr first, same.symm⟩

theorem parseCatalogResponse_wellFormed : (parseCatalogResponse freshId value participant).WellFormed text where
  datasetIds := by
    rw [parseCatalogResponse_datasets, List.map_map]
    exact firstByKey_keys_nodup readId (datasetNodes value)
  serviceIds := by
    rw [parseCatalogResponse_dataServices, List.map_map]
    exact firstByKey_keys_nodup readId (serviceNodes value)
  nesting := by
    intro dataset member policy listed
    obtain ⟨node, _, same⟩ := (mem_parsed_datasets freshId value participant).mp member
    rw [same] at listed
    exact parsePolicies_nestWithin node policy listed
  keys := by constructor <;> simp [parseCatalogResponse]
  datasetKeys := by
    intro dataset member
    obtain ⟨node, _, same⟩ := (mem_parsed_datasets freshId value participant).mp member
    rw [same]
    exact parseProperties_keysFree text node

theorem inlineService_listed {dataset : Dataset} {node : Json}
    (first : (datasetNodes value).find? (fun node => readId node = some dataset.id) = some node)
    {service : Json} (inside : service ∈ inlineServices node) {id : String} (named : readId service = some id) :
    ∃ listed ∈ (parseCatalogResponse freshId value participant).dataServices, listed.id = id := by
  have met := (Collection.holds_collected value).inside (dataset.id, node) ((mem_firstByKey readId).mpr first)
    service inside
  obtain ⟨shown, kept⟩ := exists_firstByKey readId met named
  rw [parseCatalogResponse_dataServices]
  exact ⟨_, List.mem_map.mpr ⟨(id, shown), kept, rfl⟩, rfl⟩

/-- The catalog of any response: ids are distinct and the first occurrence of each wins with its own content, a
service inside a kept dataset's distribution is listed and named by it, the store accepts the catalog and
reads it back. -/
theorem parsed_catalog_is_storable :
    ((parseCatalogResponse freshId value participant).datasets.map Dataset.id).Nodup ∧
    ((parseCatalogResponse freshId value participant).dataServices.map DataService.id).Nodup ∧
    (∀ dataset, dataset ∈ (parseCatalogResponse freshId value participant).datasets ↔
      ∃ node, (datasetNodes value).find? (fun node => readId node = some dataset.id) = some node ∧
        dataset = parseDataset dataset.id node) ∧
    (∀ service, service ∈ (parseCatalogResponse freshId value participant).dataServices ↔
      ∃ node, (serviceNodes value).find? (fun node => readId node = some service.id) = some node ∧
        service = dataServiceOf service.id node) ∧
    (∀ dataset ∈ (parseCatalogResponse freshId value participant).datasets, ∀ node,
      (datasetNodes value).find? (fun node => readId node = some dataset.id) = some node →
        ∀ distribution ∈ readArray node "distribution", ∀ service, inlineAccessService distribution = some service →
          ∀ id, readId service = some id → (parseDistribution distribution).accessService = id ∧
            ∃ listed ∈ (parseCatalogResponse freshId value participant).dataServices, listed.id = id) ∧
    (parseCatalogResponse freshId value participant).NestsWithin maxConstraintDepth ∧
    (∀ store : QuadStore, (store.storeCatalog text (parseCatalogResponse freshId value participant)).2 = .ok ()) ∧
    ∃ quads, writeCatalog text (nodeIri text ⟨participant.id⟩) (parseCatalogResponse freshId value participant) =
        .ok quads ∧
      ∀ snapshot : GraphSnapshot, snapshot.quads.Nodup → (∀ quad, quad ∈ snapshot.quads ↔ quad ∈ quads) →
        snapshot.loadCatalog text ⟨participant.id⟩ = .ok (some (parseCatalogResponse freshId value participant)) := by
  -- a well-formed catalog is written, and read back, whole
  have wellFormed := parseCatalogResponse_wellFormed text freshId value participant
  obtain ⟨quads, written, same⟩ := (writeCatalog_writes text (nodeIri text ⟨participant.id⟩)
    (parseCatalogResponse freshId value participant)).emits wellFormed.nesting
  refine ⟨wellFormed.datasetIds, wellFormed.serviceIds, fun dataset => mem_parsed_datasets freshId value participant,
    fun service => mem_parsed_dataServices freshId value participant, ?_, wellFormed.nesting, ?_, quads, written, ?_⟩
  · intro dataset _ node first distribution listed service inside id named
    constructor
    · unfold inlineAccessService at inside
      unfold parseDistribution
      split at inside
      next members found =>
        cases inside
        simp only [found, named, Option.getD_some]
      next => cases inside
    · exact inlineService_listed freshId value participant first
        (List.mem_filterMap.mpr ⟨distribution, listed, inside⟩) named
  · intro store
    rw [QuadStore.storeCatalog]
    simp only [parseCatalogResponse] at written ⊢
    rw [written]
  · intro snapshot nodup holds
    exact wellFormed.loadCatalog_eq nodup fun quad => (holds quad).trans (same quad)

end

-- The first dataset of an id wins, here one without the offer of the second.
example : (parseCatalogResponse "urn:uuid:fresh" (.object [("dataset", .array [.object [("@id", .string "first")],
    .object [("@id", .string "first"), ("hasPolicy", .array [.object []])], .object [("@id", .string "second")]])])
    ⟨"did:web:first", "First", "https://first.example/catalog", .none, none, none⟩).datasets.map
    (fun dataset => (dataset.id, dataset.policies.length)) = [("first", 0), ("second", 0)] := by
  decide +kernel

end CatalogBroker
