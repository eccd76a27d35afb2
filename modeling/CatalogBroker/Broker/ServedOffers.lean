import CatalogBroker.Broker.ServedPolicies
import CatalogBroker.Json.Depth
import CatalogBroker.Library.Text

/-! Offers as the broker serves them, and how deep they nest. -/

set_option autoImplicit false

namespace CatalogBroker

open Library

structure CatalogRequestThumbnail where
  resource : String

structure CatalogRequestCreator where
  name : String
  thumbnail : CatalogRequestThumbnail

structure CatalogRequestService where
  id : String
  kind : String
  endpointDescription : String
  endpointUrl : String

structure CatalogRequestParticipantId where
  id : String

structure CatalogRequestDataset where
  id : String
  kind : String
  hasPolicy : List Json
  name : String
  contentType : String
  title : Option String
  description : Option String
  version : Option String
  creator : Option CatalogRequestCreator
  thumbnail : Option CatalogRequestThumbnail
  keywords : List String

structure CatalogRequestOffer where
  id : String
  kind : String
  dataset : List CatalogRequestDataset
  service : CatalogRequestService
  participantId : CatalogRequestParticipantId
  originator : String

def CatalogRequestThumbnail.toJson (thumbnail : CatalogRequestThumbnail) : Json :=
  .object [("resource", .string thumbnail.resource)]

def CatalogRequestCreator.toJson (creator : CatalogRequestCreator) : Json :=
  .object [("name", .string creator.name), ("thumbnail", creator.thumbnail.toJson)]

def CatalogRequestService.toJson (service : CatalogRequestService) : Json :=
  .object [("@id", .string service.id), ("@type", .string service.kind),
    ("http://www.w3.org/ns/dcat#endpointDescription", .string service.endpointDescription),
    ("http://www.w3.org/ns/dcat#endpointURL", .string service.endpointUrl)]

def CatalogRequestParticipantId.toJson (participant : CatalogRequestParticipantId) : Json :=
  .object [("@id", .string participant.id)]

def CatalogRequestDataset.toJson (dataset : CatalogRequestDataset) : Json :=
  .object ([("@id", .string dataset.id), ("@type", .string dataset.kind),
      ("http://www.w3.org/ns/odrl/2/hasPolicy", .array dataset.hasPolicy), ("name", .string dataset.name),
      ("contenttype", .string dataset.contentType)] ++
    optionalMember "title" (dataset.title.map Json.string) ++
    optionalMember "description" (dataset.description.map Json.string) ++
    optionalMember "version" (dataset.version.map Json.string) ++
    optionalMember "creator" (dataset.creator.map CatalogRequestCreator.toJson) ++
    optionalMember "thumbnail" (dataset.thumbnail.map CatalogRequestThumbnail.toJson) ++
    optionalMember "keywords" (nonemptyArray (dataset.keywords.map Json.string)))

def CatalogRequestOffer.toJson (offer : CatalogRequestOffer) : Json :=
  .object ([("@id", .string offer.id), ("@type", .string offer.kind)] ++
    optionalMember "http://www.w3.org/ns/dcat#dataset"
      (nonemptyArray (offer.dataset.map CatalogRequestDataset.toJson)) ++
    [("http://www.w3.org/ns/dcat#service", offer.service.toJson),
      ("participantId", offer.participantId.toJson), ("originator", .string offer.originator)])

def datasetToOffer (dataset : Dataset) : CatalogRequestDataset :=
  let thumbnailValue := dataset.properties["thumbnail"]?
  { id := dataset.id
    kind := "Dataset"
    hasPolicy := dataset.policies.map policyToJson
    name := dataset.id
    contentType := (dataset.distributions.head?.map Distribution.format).getD ""
    title := dataset.properties["title"]?
    description := dataset.properties["description"]?
    version := dataset.properties["version"]?
    creator := dataset.properties["creatorName"]?.map fun name => ⟨name, ⟨thumbnailValue.getD ""⟩⟩
    thumbnail := thumbnailValue.map CatalogRequestThumbnail.mk
    keywords := (dataset.properties["keywords"]?.map fun raw =>
      ((Text.split raw ',').map Text.trimmed).filter (· ≠ "")).getD [] }

/-- No offer is made of a catalog without a data service. -/
def catalogToOffer (catalog : Catalog) : Option CatalogRequestOffer :=
  catalog.dataServices.head?.map fun dataService =>
    let participantId := catalog.participantId.getD catalog.originNode.id
    { id := catalog.id
      kind := "Catalog"
      dataset := catalog.datasets.map datasetToOffer
      service := ⟨dataService.id, "DataService", dataService.endpointDescription.getD "", dataService.endpointUrl⟩
      participantId := ⟨participantId⟩
      originator := participantId }

structure CatalogRequestConstraint where
  operandLeft : String
  operator : String
  operandRight : String

structure CatalogRequestBody where
  filterExpression : List CatalogRequestConstraint

/-- The served array. `fromSlice` is what `serde_json` reads a request body as. -/
def renderOffers (fromSlice : List UInt8 → Option CatalogRequestBody) (catalogs : List Catalog)
    (body : List UInt8) : Json :=
  let offers := catalogs.filterMap catalogToOffer
  let filter := (fromSlice body).getD ⟨[]⟩
  let datasetIdFilter := filter.filterExpression.findSome? fun constraint =>
    if constraint.operandLeft = "datasets.id" ∧ constraint.operator = "=" then some constraint.operandRight
    else none
  let kept := match datasetIdFilter with
    | some datasetId => offers.filter fun offer : CatalogRequestOffer =>
      offer.dataset.any fun dataset => dataset.id = datasetId
    | none => offers
  .array (kept.map CatalogRequestOffer.toJson)

theorem optionalMember_depth_le {key : String} {value : Option Json} {levels : Nat}
    (each : ∀ written ∈ value, written.depth ≤ levels) :
    ∀ member ∈ optionalMember key value, member.2.depth ≤ levels := by
  intro member listed
  obtain ⟨written, present, rfl⟩ := List.mem_map.mp listed
  exact each written (Option.mem_toList.mp present)

theorem optionalString_depth_le {key : String} (value : Option String) {levels : Nat} :
    ∀ member ∈ optionalMember key (value.map Json.string), member.2.depth ≤ levels := by
  apply optionalMember_depth_le
  intro written present
  obtain ⟨text, _, rfl⟩ := Option.mem_map.mp present
  rw [Json.depth_string]
  exact Nat.zero_le levels

theorem nonemptyArray_depth_le {items : List Json} {levels : Nat} (each : ∀ item ∈ items, item.depth ≤ levels) :
    ∀ written ∈ nonemptyArray items, written.depth ≤ levels + 1 := by
  intro written present
  unfold nonemptyArray at present
  split at present
  · cases present
  · cases present
    exact Json.depth_array_le_iff.mpr each

theorem atomicToJson_depth (leaf : AtomicConstraint) : (atomicToJson leaf).depth ≤ 1 := by
  apply Json.depth_object_le_iff.mpr
  simp

theorem constraintToJson_depth_le (constraint : Constraint) {groupDepth : Nat}
    (within : groupDepth ≤ maxServedGroupDepth) :
    (constraintToJson constraint groupDepth).depth ≤ 2 * (maxServedGroupDepth - groupDepth) + 1 := by
  induction constraint generalizing groupDepth with
  | atomic leaf =>
    rw [constraintToJson]
    exact (atomicToJson_depth leaf).trans (Nat.le_add_left 1 _)
  | logical operator children ih =>
    rw [constraintToJson]
    split
    · exact (atomicToJson_depth _).trans (Nat.le_add_left 1 _)
    · rename_i open_group
      -- the object and its array are two levels, and the children have one group less left
      have room : 2 * (maxServedGroupDepth - groupDepth) = 2 * (maxServedGroupDepth - (groupDepth + 1)) + 1 + 1 := by
        omega
      rw [constraintsToJson_eq, room]
      apply Json.depth_object_le_iff.mpr
      rw [List.forall_mem_singleton]
      apply Json.depth_array_le_iff.mpr
      intro served listed
      obtain ⟨child, member, rfl⟩ := List.mem_map.mp listed
      exact ih child member (by omega)

example : (constraintToJson ((Constraint.logical .or [·])^[60] (.atomic ⟨"a", "b", "c"⟩)) 0).depth = 113 := by
  decide +kernel

theorem ruleToJson_depth_le (rule : Rule) : (ruleToJson rule).depth ≤ 115 := by
  apply Json.depth_object_le_iff.mpr
  rw [List.forall_mem_cons]
  constructor
  · simp
  · apply optionalMember_depth_le
    apply nonemptyArray_depth_le
    intro written listed
    obtain ⟨constraint, _, rfl⟩ := List.mem_map.mp listed
    exact constraintToJson_depth_le constraint (Nat.zero_le _)

theorem rules_depth_le (key : String) (rules : List Rule) :
    ∀ member ∈ optionalMember key (nonemptyArray (rules.map ruleToJson)), member.2.depth ≤ 116 := by
  apply optionalMember_depth_le
  apply nonemptyArray_depth_le
  intro written listed
  obtain ⟨rule, _, rfl⟩ := List.mem_map.mp listed
  exact ruleToJson_depth_le rule

theorem policyToJson_depth_le (policy : Policy) : (policyToJson policy).depth ≤ 117 := by
  apply Json.depth_object_le_iff.mpr
  simp only [List.forall_mem_append]
  refine ⟨⟨⟨⟨⟨⟨?_, ?_⟩, ?_⟩, ?_⟩, ?_⟩, ?_⟩, ?_⟩
  · exact optionalString_depth_le policy.id
  · simp
  · exact rules_depth_le "obligation" policy.obligations
  · exact optionalString_depth_le policy.assignee
  · exact optionalString_depth_le policy.assigner
  · exact rules_depth_le "permission" policy.permissions
  · exact rules_depth_le "prohibition" policy.prohibitions

theorem thumbnail_depth_le (thumbnail : CatalogRequestThumbnail) : thumbnail.toJson.depth ≤ 1 := by
  apply Json.depth_object_le_iff.mpr
  simp

theorem creator_depth_le (creator : CatalogRequestCreator) : creator.toJson.depth ≤ 2 := by
  apply Json.depth_object_le_iff.mpr
  simp [thumbnail_depth_le]

theorem datasetToOffer_depth_le (dataset : Dataset) : (datasetToOffer dataset).toJson.depth ≤ 119 := by
  apply Json.depth_object_le_iff.mpr
  simp only [List.forall_mem_append]
  refine ⟨⟨⟨⟨⟨⟨?_, ?_⟩, ?_⟩, ?_⟩, ?_⟩, ?_⟩, ?_⟩
  · have policies : (Json.array (datasetToOffer dataset).hasPolicy).depth ≤ 118 := by
      apply Json.depth_array_le_iff.mpr
      intro written listed
      obtain ⟨policy, _, rfl⟩ := List.mem_map.mp listed
      exact policyToJson_depth_le policy
    simp [policies]
  · exact optionalString_depth_le _
  · exact optionalString_depth_le _
  · exact optionalString_depth_le _
  · apply optionalMember_depth_le
    intro written present
    obtain ⟨creator, _, rfl⟩ := Option.mem_map.mp present
    exact (creator_depth_le creator).trans (by decide)
  · apply optionalMember_depth_le
    intro written present
    obtain ⟨thumbnail, _, rfl⟩ := Option.mem_map.mp present
    exact (thumbnail_depth_le thumbnail).trans (by decide)
  · apply optionalMember_depth_le
    apply nonemptyArray_depth_le
    intro written listed
    obtain ⟨keyword, _, rfl⟩ := List.mem_map.mp listed
    simp

theorem catalogToOffer_depth_le {catalog : Catalog} {offer : CatalogRequestOffer}
    (built : catalogToOffer catalog = some offer) : offer.toJson.depth ≤ 121 := by
  obtain ⟨dataService, _, rfl⟩ := Option.map_eq_some_iff.mp built
  apply Json.depth_object_le_iff.mpr
  simp only [List.forall_mem_append]
  refine ⟨⟨?_, ?_⟩, ?_⟩
  · simp
  · apply optionalMember_depth_le
    apply nonemptyArray_depth_le
    intro written listed
    simp only [List.map_map, List.mem_map] at listed
    obtain ⟨dataset, _, rfl⟩ := listed
    exact datasetToOffer_depth_le dataset
  · have service (shape : CatalogRequestService) : shape.toJson.depth ≤ 1 := by
      apply Json.depth_object_le_iff.mpr
      simp
    have participant (shape : CatalogRequestParticipantId) : shape.toJson.depth ≤ 1 := by
      apply Json.depth_object_le_iff.mpr
      simp
    simp [(service _).trans, (participant _).trans]

/-- Whatever the catalogs hold, the served array nests 122 levels at most, and is read under the limit. -/
theorem offers_stay_parseable (fromSlice : List UInt8 → Option CatalogRequestBody) (catalogs : List Catalog)
    (body : List UInt8) : (renderOffers fromSlice catalogs body).depth ≤ 122 ∧
      (renderOffers fromSlice catalogs body).readsWithin Json.recursionLimit = true := by
  have bound : (renderOffers fromSlice catalogs body).depth ≤ 122 := by
    apply Json.depth_array_le_iff.mpr
    intro written listed
    obtain ⟨offer, kept, rfl⟩ := List.mem_map.mp listed
    have built : offer ∈ catalogs.filterMap catalogToOffer := by
      split at kept
      · exact List.mem_of_mem_filter kept
      · exact kept
    obtain ⟨catalog, _, made⟩ := List.mem_filterMap.mp built
    exact catalogToOffer_depth_le made
  exact ⟨bound, Json.readsWithin_of_depth_lt _ (bound.trans_lt (by decide))⟩

end CatalogBroker
