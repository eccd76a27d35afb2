import CatalogBroker.Store.Visibility

/-! What a restricted caller sees depends on visible resources only.

Two stores whose catalogs agree outside the hidden datasets and services answer
every lookup alike.
-/

set_option autoImplicit false

namespace CatalogBroker

open Library

/-- Two catalogs of one node that differ in hidden datasets and services at most. -/
structure Catalog.AgreeOn (text : IriText) (visible : VisibleIris) (first second : Catalog) : Prop where
  originNode : first.originNode = second.originNode
  id : first.id = second.id
  participantId : first.participantId = second.participantId
  properties : first.properties = second.properties
  datasets : ∀ dataset : Dataset, datasetResourceIri text first.originNode dataset.id ∈ visible →
    (dataset ∈ first.datasets ↔ dataset ∈ second.datasets)
  services : ∀ service : DataService, serviceResourceIri text first.originNode service.id ∈ visible →
    (service ∈ first.dataServices ↔ service ∈ second.dataServices)

def Contents.AgreeOn (text : IriText) (visible : VisibleIris) (first second : Contents) : Prop :=
  ∀ node, Option.Rel (Catalog.AgreeOn text visible) (first node) (second node)

namespace Catalog.AgreeOn

variable {text : IriText} {visible : VisibleIris} {first second : Catalog}

theorem symm (agree : first.AgreeOn text visible second) : second.AgreeOn text visible first where
  originNode := agree.originNode.symm
  id := agree.id.symm
  participantId := agree.participantId.symm
  properties := agree.properties.symm
  datasets dataset listed := (agree.datasets dataset (agree.originNode ▸ listed)).symm
  services service listed := (agree.services service (agree.originNode ▸ listed)).symm

theorem mem_catalogStatements (agree : first.AgreeOn text visible second) {statement : NamedNode × Term}
    (shown : objectIsVisible statement.2 visible = true)
    (stated : statement ∈ catalogStatements text (nodeBase text first.originNode) first) :
    statement ∈ catalogStatements text (nodeBase text second.originNode) second := by
  simp only [catalogStatements, agree.participantId, agree.properties, List.mem_append, List.mem_cons,
    List.cons_append] at stated ⊢
  rcases stated with typed | ((participant | property) | link) | link
  · exact .inl typed
  · exact .inr (.inl (.inl (.inl participant)))
  · exact .inr (.inl (.inl (.inr property)))
  · obtain ⟨dataset, member, rfl⟩ := List.mem_map.mp link
    rw [objectIsVisible, datasetIri_isVisible, decide_eq_true_eq] at shown
    refine .inr (.inl (.inr (List.mem_map.mpr ⟨dataset, (agree.datasets dataset shown).mp member, ?_⟩)))
    rw [agree.originNode]
  · obtain ⟨service, member, rfl⟩ := List.mem_map.mp link
    rw [objectIsVisible, serviceIri_isVisible, decide_eq_true_eq] at shown
    refine .inr (.inr (List.mem_map.mpr ⟨service, (agree.services service shown).mp member, ?_⟩))
    rw [agree.originNode]

theorem mem_catalogQuads (agree : first.AgreeOn text visible second) {graph : NamedNode} {quad : Quad}
    (shown : quadIsVisible quad visible = true) (member : quad ∈ catalogQuads text graph first) :
    quad ∈ catalogQuads text graph second := by
  obtain ⟨unordered, subjectShown, objectShown⟩ := quadIsVisible_iff.mp shown
  rw [CatalogBroker.mem_catalogQuads] at member ⊢
  rcases member with own | ⟨index, bound, below⟩ | ⟨index, bound, below⟩
  · obtain ⟨statement, stated, rfl⟩ := List.mem_map.mp own
    refine .inl (List.mem_map.mpr ⟨statement, agree.mem_catalogStatements objectShown stated, ?_⟩)
    rw [catalogPath, catalogPath, agree.originNode, agree.id]
  · rw [dataset_subject_isVisible below, decide_eq_true_eq] at subjectShown
    obtain ⟨other, otherBound, same⟩ := List.mem_iff_getElem.mp
      ((agree.datasets _ subjectShown).mp (List.getElem_mem bound))
    refine .inr (.inl ⟨other, otherBound, ?_⟩)
    rw [same, ← agree.originNode]
    exact (mem_datasetResource unordered index other).mp below
  · rw [service_subject_isVisible below, decide_eq_true_eq] at subjectShown
    obtain ⟨other, otherBound, same⟩ := List.mem_iff_getElem.mp
      ((agree.services _ subjectShown).mp (List.getElem_mem bound))
    refine .inr (.inr ⟨other, otherBound, ?_⟩)
    rw [same, ← agree.originNode]
    exact (mem_serviceResource unordered index other).mp below

end Catalog.AgreeOn

namespace Contents.AgreeOn

variable {text : IriText} {visible : VisibleIris} {first second : Contents}

theorem symm (agree : first.AgreeOn text visible second) : second.AgreeOn text visible first := by
  intro node
  have pair := agree node
  generalize first node = left at pair
  generalize second node = right at pair
  cases pair with
  | some related => exact .some related.symm
  | none => exact .none

theorem held (agree : first.AgreeOn text visible second) {node : NodeId} {catalog : Catalog}
    (stored : first node = some catalog) :
    ∃ other, second node = some other ∧ catalog.AgreeOn text visible other := by
  have pair := agree node
  rw [stored] at pair
  generalize second node = right at pair
  cases pair with
  | some related => exact ⟨_, rfl, related⟩

theorem isSome_iff (agree : first.AgreeOn text visible second) (node : NodeId) :
    (first node).isSome ↔ (second node).isSome := by
  constructor
  · intro holds
    obtain ⟨catalog, stored⟩ := Option.isSome_iff_exists.mp holds
    obtain ⟨other, otherStored, _⟩ := agree.held stored
    rw [otherStored, Option.isSome_some]
  · intro holds
    obtain ⟨catalog, stored⟩ := Option.isSome_iff_exists.mp holds
    obtain ⟨other, otherStored, _⟩ := agree.symm.held stored
    rw [otherStored, Option.isSome_some]

end Contents.AgreeOn

namespace VisibleDataset

variable {store first second : QuadStore} {visible : VisibleIris} {order firstOrder secondOrder : ReadOrder}

/-- A lookup only returns visible quads, so sharing those is enough. -/
theorem internalQuadsForPattern_subset
    (shared : ∀ quad ∈ first.quads, quadIsVisible quad visible = true → quad ∈ second.quads)
    {subject predicate object : Option Term} {graphName : Option (Option Term)} :
    internalQuadsForPattern first visible firstOrder subject predicate object graphName ⊆
      internalQuadsForPattern second visible secondOrder subject predicate object graphName := by
  intro found returned
  obtain ⟨quad, matched, kept⟩ := List.mem_filterMap.mp returned
  refine List.mem_filterMap.mpr ⟨quad, ?_, kept⟩
  have shown : quadIsVisible quad visible = true := by
    by_contra hidden
    simp [hidden] at kept
  by_cases unmatchable : boundIriHidden visible (subjectPosition subject) object = true
  · rw [if_pos unmatchable] at matched
    cases matched
  · rw [if_neg unmatchable] at matched ⊢
    split at matched
    · obtain ⟨stored, positions⟩ := mem_quadsForPattern.mp matched
      exact mem_quadsForPattern.mpr ⟨shared quad stored shown, positions⟩
    · cases matched

theorem graphHoldsACatalog_iff {graph : GraphName} : graphHoldsACatalog store order graph = true ↔
    ∃ quad ∈ store.quads, quad.predicate = rdfType ∧ quad.object = .namedNode dcatCatalogClass ∧
      quad.graphName = graph := by
  have nonempty (quads : List Quad) : quads.head?.isSome = true ↔ ∃ quad, quad ∈ quads := by
    cases quads <;> simp
  rw [graphHoldsACatalog, nonempty]
  exact exists_congr fun quad => by simp [mem_quadsForPattern]

theorem mem_internalNamedGraphs {graph : Term} : graph ∈ internalNamedGraphs store order ↔
    ∃ name : GraphName, graphHoldsACatalog store order name = true ∧ name.toTerm? = some graph := by
  simp only [internalNamedGraphs, List.mem_filterMap, namedGraphs, List.mem_filter, List.mem_dedup, List.mem_map,
    store.mem_scan]
  constructor
  · rintro ⟨name, _, listed⟩
    split at listed
    · exact ⟨name, by assumption, listed⟩
    · cases listed
  · rintro ⟨name, holds, listed⟩
    obtain ⟨quad, stored, _, _, rfl⟩ := graphHoldsACatalog_iff.mp holds
    refine ⟨quad.graphName, ⟨⟨quad, stored, rfl⟩, decide_eq_true ?_⟩, by rw [if_pos holds, listed]⟩
    rintro default
    rw [default] at listed
    cases listed

end VisibleDataset

namespace Represents

variable {text : IriText} {store : QuadStore} {contents : Contents}

theorem graphHoldsACatalog_iff (represents : Represents text store contents) {order : ReadOrder}
    {graph : GraphName} : VisibleDataset.graphHoldsACatalog store order graph = true ↔
      ∃ node, (contents node).isSome ∧ graph = .namedNode (nodeIri text node) := by
  rw [VisibleDataset.graphHoldsACatalog_iff]
  constructor
  · rintro ⟨quad, stored, _, _, rfl⟩
    obtain ⟨node, catalog, held, member⟩ := (represents.mem_iff quad).mp stored
    exact ⟨node, by rw [held, Option.isSome_some], graphName_of_mem_catalogQuads member⟩
  · rintro ⟨node, holds, rfl⟩
    obtain ⟨catalog, held⟩ := Option.isSome_iff_exists.mp holds
    exact ⟨_, (represents.mem_iff _).mpr ⟨node, catalog, held, type_mem_catalogQuads text _ catalog⟩, rfl, rfl, rfl⟩

theorem visible_subset {other : QuadStore} {otherContents : Contents} {visible : VisibleIris}
    (represents : Represents text store contents) (otherRepresents : Represents text other otherContents)
    (agree : contents.AgreeOn text visible otherContents) (quad : Quad) (stored : quad ∈ store.quads)
    (shown : quadIsVisible quad visible = true) : quad ∈ other.quads := by
  obtain ⟨node, catalog, held, member⟩ := (represents.mem_iff quad).mp stored
  obtain ⟨counterpart, otherHeld, alike⟩ := agree.held held
  exact (otherRepresents.mem_iff quad).mpr ⟨node, counterpart, otherHeld, alike.mem_catalogQuads shown member⟩

end Represents

/-- Two runs whose catalogs agree on the allow-list answer a caller alike. -/
theorem restricted_view_noninterference (text : IriText) (visible : VisibleIris) (first second : List CacheCall)
    (agree : (contentsAfter first).AgreeOn text visible (contentsAfter second)) (firstOrder secondOrder : ReadOrder) :
    (∀ (subject predicate object : Option Term) (graphName : Option (Option Term)) (found : InternalQuad),
      found ∈ VisibleDataset.internalQuadsForPattern (storeAfter text first) visible firstOrder
          subject predicate object graphName ↔
        found ∈ VisibleDataset.internalQuadsForPattern (storeAfter text second) visible secondOrder
          subject predicate object graphName) ∧
    (∀ graph, graph ∈ VisibleDataset.internalNamedGraphs (storeAfter text first) firstOrder ↔
      graph ∈ VisibleDataset.internalNamedGraphs (storeAfter text second) secondOrder) ∧
    ∀ graph, VisibleDataset.containsInternalGraphName (storeAfter text first) firstOrder graph =
      VisibleDataset.containsInternalGraphName (storeAfter text second) secondOrder graph := by
  have left := represents_after text first
  have right := represents_after text second
  -- Which graphs hold a catalog is the same in both runs, since agreeing contents hold the same nodes.
  have graphs : ∀ name, VisibleDataset.graphHoldsACatalog (storeAfter text first) firstOrder name =
      VisibleDataset.graphHoldsACatalog (storeAfter text second) secondOrder name := by
    intro name
    rw [Bool.eq_iff_iff, left.graphHoldsACatalog_iff, right.graphHoldsACatalog_iff]
    exact exists_congr fun node => and_congr_left fun _ => agree.isSome_iff node
  refine ⟨fun subject predicate object graphName found => ⟨?_, ?_⟩, fun graph => ?_, fun graph => ?_⟩
  · exact fun returned => VisibleDataset.internalQuadsForPattern_subset (left.visible_subset right agree) returned
  · exact fun returned =>
      VisibleDataset.internalQuadsForPattern_subset (right.visible_subset left agree.symm) returned
  · simp only [VisibleDataset.mem_internalNamedGraphs, graphs]
  · unfold VisibleDataset.containsInternalGraphName
    split <;> simp only [graphs]

def oldCarsCatalog : Catalog :=
  { groupedCatalog with datasets := [{ id := "cars old", properties := ∅, distributions := [], policies := [] }] }

theorem groupedCatalog_agreeOn : groupedCatalog.AgreeOn .urlencoding
    {datasetResourceIri .urlencoding ⟨"did:web:provider"⟩ "cars old"} oldCarsCatalog where
  originNode := rfl
  id := rfl
  participantId := rfl
  properties := rfl
  datasets dataset listed := by
    have same := datasetIri_injective .urlencoding _ (congrArg NamedNode.mk (Finset.mem_singleton.mp listed))
    have other : dataset ∉ groupedCatalog.datasets.take 1 := by
      intro first
      rw [List.mem_singleton.mp first] at same
      exact absurd same (by decide)
    rw [← List.take_append_drop 1 groupedCatalog.datasets, List.mem_append]
    exact or_iff_right other
  services _ _ := Iff.rfl

theorem contentsAfter_store {catalog : Catalog} (nests : catalog.NestsWithin maxConstraintDepth) :
    contentsAfter [.store catalog] = Function.update (fun _ => none) catalog.originNode (some catalog) := by
  simp only [contentsAfter, List.foldl_cons, List.foldl_nil, Contents.update, if_pos nests]

/-- A caller allowed the second dataset alone cannot tell whether the first is there. -/
theorem groupedCatalog_cars_unseen :
    (∀ (firstOrder secondOrder : ReadOrder) (subject predicate object : Option Term)
      (graphName : Option (Option Term)) (found : InternalQuad),
      found ∈ VisibleDataset.internalQuadsForPattern (storeAfter .urlencoding [.store groupedCatalog])
          {datasetResourceIri .urlencoding ⟨"did:web:provider"⟩ "cars old"} firstOrder
          subject predicate object graphName ↔
        found ∈ VisibleDataset.internalQuadsForPattern (storeAfter .urlencoding [.store oldCarsCatalog])
          {datasetResourceIri .urlencoding ⟨"did:web:provider"⟩ "cars old"} secondOrder
          subject predicate object graphName) ∧
    ∀ (firstOrder secondOrder : ReadOrder) (graph : Term),
      VisibleDataset.containsInternalGraphName (storeAfter .urlencoding [.store groupedCatalog]) firstOrder graph =
        VisibleDataset.containsInternalGraphName (storeAfter .urlencoding [.store oldCarsCatalog]) secondOrder
          graph := by
  have agree : (contentsAfter [.store groupedCatalog]).AgreeOn .urlencoding
      {datasetResourceIri .urlencoding ⟨"did:web:provider"⟩ "cars old"} (contentsAfter [.store oldCarsCatalog]) := by
    intro node
    rw [contentsAfter_store (by decide), contentsAfter_store (by decide)]
    by_cases own : node = groupedCatalog.originNode
    · subst own
      rw [Function.update_self, show groupedCatalog.originNode = oldCarsCatalog.originNode from rfl,
        Function.update_self]
      exact .some groupedCatalog_agreeOn
    · rw [Function.update_of_ne own, Function.update_of_ne (show node ≠ oldCarsCatalog.originNode from own)]
      exact .none
  constructor
  · intro firstOrder secondOrder
    exact (restricted_view_noninterference .urlencoding _ _ _ agree firstOrder secondOrder).1
  · intro firstOrder secondOrder
    exact (restricted_view_noninterference .urlencoding _ _ _ agree firstOrder secondOrder).2.2

end CatalogBroker
