import CatalogBroker.Broker.UnmappablePolicies
import CatalogBroker.Crawler.KeptEntries
import CatalogBroker.Store.RoundTrip

/-! Unreadable policy content from the crawler through the store to the visibility decision.

The marker the crawler leaves is written, read back and met by the filter, which does not know its
operator; the three depth limits are one, so no marker lies where it is not visited.
-/

set_option autoImplicit false

namespace CatalogBroker

mutual
/-- A marker is the constraint itself or somewhere below it. -/
def Constraint.holdsMarker : Constraint → Bool
  | .atomic leaf => (Constraint.atomic leaf).isUnmappable
  | .logical _ children => Constraint.anyHoldsMarker children

def Constraint.anyHoldsMarker : List Constraint → Bool
  | [] => false
  | child :: children => child.holdsMarker || anyHoldsMarker children
end

def Policy.holdsMarker (policy : Policy) : Bool :=
  policy.rules.any fun rule => rule.constraints.any Constraint.holdsMarker

theorem Constraint.anyHoldsMarker_eq (children : List Constraint) :
    anyHoldsMarker children = children.any holdsMarker := by
  induction children with
  | nil => rfl
  | cons child children ih => rw [anyHoldsMarker, ih, List.any_cons]

theorem parseOperator_unmappableOperator : parseOperator unmappableOperator = none := by decide

theorem Constraint.not_mappableAt_of_holdsMarker {constraint : Constraint} {depth : Nat}
    (marked : constraint.holdsMarker = true) : constraint.mappableAt depth = false := by
  induction constraint generalizing depth with
  | atomic leaf =>
    have operator : leaf.operator = unmappableOperator := by simpa [holdsMarker, isUnmappable] using marked
    rw [mappableAt, operator, parseOperator_unmappableOperator]
    simp
  | logical operator children ih =>
    rw [holdsMarker, anyHoldsMarker_eq, List.any_eq_true] at marked
    obtain ⟨child, member, below⟩ := marked
    have unmapped : children.all (mappableAt (depth + 1)) = false :=
      List.all_eq_false.mpr ⟨child, member, by simp [ih child member below]⟩
    rw [mappableAt, allMappableAt_eq, unmapped, Bool.and_false]

theorem Policy.not_isMappable_of_holdsMarker {policy : Policy} (marked : policy.holdsMarker = true) :
    policy.isMappable = false := by
  rw [holdsMarker, List.any_eq_true] at marked
  obtain ⟨rule, member, found⟩ := marked
  obtain ⟨constraint, listed, below⟩ := List.any_eq_true.mp found
  have unmapped : rule.isMappable = false :=
    List.all_eq_false.mpr ⟨constraint, listed, by simp [Constraint.not_mappableAt_of_holdsMarker below]⟩
  exact List.all_eq_false.mpr ⟨rule, member, by simp [unmapped]⟩

/-- Under `DropPolicy` a dataset with policies is visible exactly when the engine allows a mappable one. -/
theorem visible_iff_mappable_offer_allows {config : PolicyFilterConfig}
    (drops : config.unmappableConstraintAction = .dropPolicy) {evaluateRequest : EngineRequest → WireDecision}
    {dataset : Dataset} (present : dataset.policies ≠ []) {claims : Claims} {action : String} :
    datasetIsVisible config evaluateRequest dataset claims action = true ↔
      ∃ offer ∈ dataset.policies.zipIdx, offer.1.isMappable = true ∧ ∃ wirePolicy,
        mapPolicy config offer.1 (fallbackId dataset offer.2) = .ok wirePolicy ∧
          evaluateRequest (buildRequest config dataset wirePolicy action claims) = .allow := by
  have nonempty : dataset.policies.isEmpty = false := by simpa using present
  have strict : config.unmappableConstraintAction ≠ .skipConstraint := by simp [drops]
  rw [datasetIsVisible, nonempty, if_neg (by simp), anyOfferAllows_eq_any (by simp [drops]), List.any_eq_true]
  constructor
  · rintro ⟨offer, member, allowed⟩
    exact ⟨offer, member, Policy.isMappable_of_offerAllows strict allowed, offerAllows_eq_true.mp allowed⟩
  · rintro ⟨offer, member, _, allowed⟩
    exact ⟨offer, member, offerAllows_eq_true.mpr allowed⟩

/-- A catalog of harvested datasets: the policies of each are those parsed from its node. -/
structure Catalog.Harvested (text : IriText) (nodeOf : String → Json) (catalog : Catalog) : Prop where
  datasetIds : (catalog.datasets.map Dataset.id).Nodup
  serviceIds : (catalog.dataServices.map DataService.id).Nodup
  keys : catalog.properties.KeysFree text GraphSnapshot.reservedCatalogPreds
  datasetKeys : ∀ dataset ∈ catalog.datasets, dataset.properties.KeysFree text GraphSnapshot.reservedDatasetPreds
  policies : ∀ dataset ∈ catalog.datasets, dataset.policies = parsePolicies (nodeOf dataset.id)

theorem Catalog.Harvested.wellFormed {text : IriText} {nodeOf : String → Json} {catalog : Catalog}
    (harvested : catalog.Harvested text nodeOf) : catalog.WellFormed text where
  datasetIds := harvested.datasetIds
  serviceIds := harvested.serviceIds
  nesting := by
    intro dataset member policy listed
    rw [harvested.policies dataset member] at listed
    exact parsePolicies_nestWithin _ policy listed
  keys := harvested.keys
  datasetKeys := harvested.datasetKeys

/-- Parsed, written, read back and decided under `DropPolicy`: a dataset whose node has a policy entry is visible
exactly when the engine allows one of its policies that holds nothing unmappable, and no policy with
a marker is such a one. -/
theorem unread_content_never_grants (text : IriText) {nodeOf : String → Json} {catalog : Catalog}
    (harvested : catalog.Harvested text nodeOf) (config : PolicyFilterConfig)
    (drops : config.unmappableConstraintAction = .dropPolicy) (evaluateRequest : EngineRequest → WireDecision)
    (claims : Claims) (action : String) :
    ∃ quads, writeCatalog text (nodeIri text catalog.originNode) catalog = .ok quads ∧
      ∀ snapshot : GraphSnapshot, snapshot.quads.Nodup → (∀ quad, quad ∈ snapshot.quads ↔ quad ∈ quads) →
        ∃ loaded, snapshot.loadCatalog text catalog.originNode = .ok (some loaded) ∧
          loaded.datasets.map Dataset.id = catalog.datasets.map Dataset.id ∧
          ∀ dataset ∈ loaded.datasets, entriesUnder (nodeOf dataset.id) "hasPolicy" ≠ [] →
            (datasetIsVisible config evaluateRequest dataset claims action = true ↔
              ∃ offer ∈ (parsePolicies (nodeOf dataset.id)).zipIdx, offer.1.isMappable = true ∧
                ∃ wirePolicy, mapPolicy config offer.1 (fallbackId dataset offer.2) = .ok wirePolicy ∧
                  evaluateRequest (buildRequest config dataset wirePolicy action claims) = .allow) ∧
            ∀ policy ∈ parsePolicies (nodeOf dataset.id), policy.holdsMarker = true → policy.isMappable = false := by
  have wellFormed := harvested.wellFormed
  obtain ⟨quads, written, same⟩ :=
    (writeCatalog_writes text (nodeIri text catalog.originNode) catalog).emits wellFormed.nesting
  refine ⟨quads, written, fun snapshot nodup holds => ⟨catalog, ?_, rfl, ?_⟩⟩
  · exact wellFormed.loadCatalog_eq nodup fun quad => (holds quad).trans (same quad)
  intro dataset member entries
  have policies := harvested.policies dataset member
  -- the parser keeps an entry for each one, so a dataset with entries has policies
  have present : dataset.policies ≠ [] := by
    intro none
    have kept := parsePolicies_kept (nodeOf dataset.id)
    rw [← policies, none, List.forall₂_nil_right_iff] at kept
    exact entries kept
  refine ⟨?_, fun policy _ marked => Policy.not_isMappable_of_holdsMarker marked⟩
  rw [← policies]
  exact visible_iff_mappable_offer_allows drops present

/-- A dataset node whose policy is a bare reference. -/
def referencingNode : Json := .object [("@id", .string "cars"), ("odrl:hasPolicy", .string "urn:policy:7")]

def referencingCatalog : Catalog where
  id := "urn:catalog"
  originNode := ⟨"did:web:provider"⟩
  participantId := none
  datasets := [⟨"cars", ∅, [], parsePolicies referencingNode⟩]
  dataServices := []
  properties := ∅

theorem referencingCatalog_harvested : referencingCatalog.Harvested .urlencoding fun _ => referencingNode where
  datasetIds := by decide
  serviceIds := by decide
  keys := by constructor <;> simp [referencingCatalog]
  datasetKeys := by
    have empty : ∀ dataset ∈ referencingCatalog.datasets, dataset.properties = ∅ := by simp [referencingCatalog]
    intro dataset member
    constructor <;> simp [empty dataset member]
  policies := by simp [referencingCatalog]

theorem referencingCatalog_hidden :
    ∃ quads, writeCatalog .urlencoding (nodeIri .urlencoding ⟨"did:web:provider"⟩) referencingCatalog = .ok quads ∧
      ∀ snapshot : GraphSnapshot, snapshot.quads.Nodup → (∀ quad, quad ∈ snapshot.quads ↔ quad ∈ quads) →
        ∃ loaded, snapshot.loadCatalog .urlencoding ⟨"did:web:provider"⟩ = .ok (some loaded) ∧
          ∀ dataset ∈ loaded.datasets,
            datasetIsVisible ⟨.dropPolicy, .open⟩ (fun _ => .allow) dataset ∅ "use" = false := by
  obtain ⟨quads, written, readBack⟩ := unread_content_never_grants .urlencoding referencingCatalog_harvested
    ⟨.dropPolicy, .open⟩ rfl (fun _ => .allow) ∅ "use"
  refine ⟨quads, written, fun snapshot nodup holds => ?_⟩
  obtain ⟨loaded, read, _, decisions⟩ := readBack snapshot nodup holds
  refine ⟨loaded, read, fun dataset member => ?_⟩
  have decision := (decisions dataset member (by decide)).1
  rw [Bool.eq_false_iff]
  intro visible
  obtain ⟨offer, listed, mappable, _⟩ := decision.mp visible
  have unmapped : ∀ offer ∈ (parsePolicies referencingNode).zipIdx, offer.1.isMappable = false := by decide
  rw [unmapped offer listed] at mappable
  cases mappable

end CatalogBroker
