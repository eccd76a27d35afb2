import CatalogBroker.Store.Noninterference

/-! The restricted view against its plain definition.

A lookup that leaves early, or reads one type quad for a whole graph, answers as a
scan of every quad would.
-/

set_option autoImplicit false

namespace CatalogBroker

open Library

/-- Every bound term is the quad's term in that place; a term that cannot stand there never is. -/
def InternalQuad.Matches (quad : InternalQuad) (subject predicate object : Option Term)
    (graphName : Option (Option Term)) : Prop :=
  (∀ term ∈ subject, quad.subject = term) ∧ (∀ term ∈ predicate, quad.predicate = term) ∧
    (∀ term ∈ object, quad.object = term) ∧ ∀ name ∈ graphName, quad.graphName = name

instance (quad : InternalQuad) (subject predicate object : Option Term) (graphName : Option (Option Term)) :
    Decidable (quad.Matches subject predicate object graphName) :=
  inferInstanceAs (Decidable (_ ∧ _ ∧ _ ∧ _))

theorem GraphName.toTerm?_injective : Function.Injective GraphName.toTerm? := by
  intro first second same
  cases first <;> cases second <;> simp_all [GraphName.toTerm?]

namespace VisibleDataset

/-- Every quad of the store that matches, is visible and, when no graph is given, lies in a named one. -/
def fullScan (store : QuadStore) (visible : VisibleIris) (order : ReadOrder) (subject predicate object : Option Term)
    (graphName : Option (Option Term)) : List InternalQuad :=
  ((order.scan store.quads).filter fun quad =>
    quad.internal.Matches subject predicate object graphName ∧ quadIsVisible quad visible = true ∧
      (graphName = none → quad.graphName ≠ .defaultGraph)).map Quad.internal

theorem subjectPosition_iff {subject : Option Term} {quad : Quad} :
    (∃ position, subjectPosition subject = some position ∧ ∀ term ∈ position, quad.subject = term) ↔
      ∀ term ∈ subject, quad.subject.toTerm = term := by
  cases subject with
  | none => simp [subjectPosition]
  | some term => cases term <;> cases quad.subject <;> simp [subjectPosition, NamedOrBlankNode.toTerm]

theorem predicatePosition_iff {predicate : Option Term} {quad : Quad} :
    (∃ position, predicatePosition predicate = some position ∧ ∀ node ∈ position, quad.predicate = node) ↔
      ∀ term ∈ predicate, Term.namedNode quad.predicate = term := by
  cases predicate with
  | none => simp [predicatePosition]
  | some term => cases term <;> simp [predicatePosition]

theorem graphPosition_iff {graphName : Option (Option Term)} {quad : Quad} :
    (∃ position, graphPosition graphName = some position ∧ ∀ name ∈ position, quad.graphName = name) ↔
      ∀ name ∈ graphName, quad.graphName.toTerm? = name := by
  cases graphName with
  | none => simp [graphPosition]
  | some name =>
    cases name with
    | none => cases quad.graphName <;> simp [graphPosition, GraphName.toTerm?]
    | some term => cases term <;> cases quad.graphName <;> simp [graphPosition, GraphName.toTerm?]

theorem positions_iff {subject predicate object : Option Term} {graphName : Option (Option Term)} {quad : Quad} :
    (∃ subjectAt predicateAt graphAt, subjectPosition subject = some subjectAt ∧
      predicatePosition predicate = some predicateAt ∧ graphPosition graphName = some graphAt ∧
      (∀ term ∈ subjectAt, quad.subject = term) ∧ (∀ node ∈ predicateAt, quad.predicate = node) ∧
      (∀ term ∈ object, quad.object = term) ∧ ∀ name ∈ graphAt, quad.graphName = name) ↔
      quad.internal.Matches subject predicate object graphName := by
  rw [InternalQuad.Matches, Quad.internal, ← subjectPosition_iff, ← predicatePosition_iff, ← graphPosition_iff]
  constructor
  · rintro ⟨subjectAt, predicateAt, graphAt, subjectRead, predicateRead, graphRead, onSubject, onPredicate,
      onObject, onGraph⟩
    exact ⟨⟨subjectAt, subjectRead, onSubject⟩, ⟨predicateAt, predicateRead, onPredicate⟩, onObject,
      ⟨graphAt, graphRead, onGraph⟩⟩
  · rintro ⟨⟨subjectAt, subjectRead, onSubject⟩, ⟨predicateAt, predicateRead, onPredicate⟩, onObject,
      ⟨graphAt, graphRead, onGraph⟩⟩
    exact ⟨subjectAt, predicateAt, graphAt, subjectRead, predicateRead, graphRead, onSubject, onPredicate,
      onObject, onGraph⟩

theorem matches_iff_of_read {subject predicate object : Option Term} {graphName : Option (Option Term)} {quad : Quad}
    {subjectAt : Option NamedOrBlankNode} {predicateAt : Option NamedNode} {graphAt : Option GraphName}
    (subjectRead : subjectPosition subject = some subjectAt)
    (predicateRead : predicatePosition predicate = some predicateAt)
    (graphRead : graphPosition graphName = some graphAt) :
    quad.internal.Matches subject predicate object graphName ↔
      (∀ term ∈ subjectAt, quad.subject = term) ∧ (∀ node ∈ predicateAt, quad.predicate = node) ∧
        (∀ term ∈ object, quad.object = term) ∧ ∀ name ∈ graphAt, quad.graphName = name := by
  rw [← positions_iff]
  constructor
  · rintro ⟨_, _, _, subjectSame, predicateSame, graphSame, matched⟩
    cases subjectRead.symm.trans subjectSame
    cases predicateRead.symm.trans predicateSame
    cases graphRead.symm.trans graphSame
    exact matched
  · intro matched
    exact ⟨subjectAt, predicateAt, graphAt, subjectRead, predicateRead, graphRead, matched⟩

/-- Leaving early loses nothing: a quad with a hidden subject or object is hidden. -/
theorem hidden_of_boundIriHidden {visible : VisibleIris} {subject predicate object : Option Term}
    {graphName : Option (Option Term)} {quad : Quad}
    (unmatchable : boundIriHidden visible (subjectPosition subject) object = true)
    (matched : quad.internal.Matches subject predicate object graphName) : quadIsVisible quad visible = false := by
  obtain ⟨subjectAt, _, _, subjectRead, _, _, onSubject, _, onObject, _⟩ := positions_iff.mpr matched
  rw [subjectRead, boundIriHidden, Option.join_some, Bool.or_eq_true] at unmatchable
  by_contra shown
  obtain ⟨_, subjectShown, objectShown⟩ := quadIsVisible_iff.mp (eq_true_of_ne_false shown)
  rcases unmatchable with subjectHidden | objectHidden
  · obtain ⟨term, bound, isHidden⟩ := (Option.any_eq_true _ _).mp subjectHidden
    rw [← onSubject term bound, subjectShown] at isHidden
    exact Bool.noConfusion isHidden
  · obtain ⟨term, bound, isHidden⟩ := (Option.any_eq_true _ _).mp objectHidden
    rw [← onObject term bound, objectShown] at isHidden
    exact Bool.noConfusion isHidden

theorem filterMap_kept {visible : VisibleIris} {graphName : Option (Option Term)} (quads : List Quad) :
    quads.filterMap (fun quad =>
      if graphName.isNone ∧ quad.graphName = .defaultGraph then none
      else if quadIsVisible quad visible then some quad.internal
      else none) =
      (quads.filter fun quad =>
        quadIsVisible quad visible = true ∧ (graphName = none → quad.graphName ≠ .defaultGraph)).map
          Quad.internal := by
  rw [← List.filterMap_eq_map', List.filterMap_filter]
  apply List.filterMap_congr
  intro quad _
  by_cases default : graphName = none ∧ quad.graphName = .defaultGraph
  · simp [default]
  · have named : graphName = none → quad.graphName ≠ .defaultGraph := not_and.mp default
    simp only [Option.isNone_iff_eq_none, if_neg default, eq_true named, and_true, decide_eq_true_eq]

/-- A lookup is the full scan, quad by quad. -/
theorem internalQuadsForPattern_eq (store : QuadStore) (visible : VisibleIris) (order : ReadOrder)
    (subject predicate object : Option Term) (graphName : Option (Option Term)) :
    internalQuadsForPattern store visible order subject predicate object graphName =
      fullScan store visible order subject predicate object graphName := by
  unfold internalQuadsForPattern fullScan
  rw [filterMap_kept]
  congr 1
  -- the fast path skips the store only where every match would be hidden
  by_cases unmatchable : boundIriHidden visible (subjectPosition subject) object = true
  · rw [if_pos unmatchable, List.filter_nil, eq_comm, List.filter_eq_nil_iff]
    intro quad _ kept
    obtain ⟨matched, shown, _⟩ := of_decide_eq_true kept
    rw [hidden_of_boundIriHidden unmatchable matched] at shown
    exact Bool.noConfusion shown
  · rw [if_neg unmatchable]
    split
    · rename_i subjectAt predicateAt graphAt subjectRead predicateRead graphRead
      rw [QuadStore.quadsForPattern, List.filter_filter]
      apply List.filter_congr
      intro quad _
      rw [Bool.eq_iff_iff, Bool.and_eq_true, decide_eq_true_eq, decide_eq_true_eq, and_comm]
      refine and_congr_left fun _ => ?_
      rw [matches_iff_of_read subjectRead predicateRead graphRead]
      simp only [Bool.and_eq_true, Option.all_eq_true, decide_eq_true_eq, and_assoc, Option.mem_def]
    -- a term that cannot stand in its position matches no stored quad
    · rename_i unreadable
      rw [List.filter_nil, eq_comm, List.filter_eq_nil_iff]
      intro quad _ kept
      obtain ⟨subjectAt, predicateAt, graphAt, subjectRead, predicateRead, graphRead, _⟩ :=
        positions_iff.mpr (of_decide_eq_true kept).1
      exact unreadable subjectAt predicateAt graphAt subjectRead predicateRead graphRead

theorem fullScan_perm (store : QuadStore) (visible : VisibleIris) (first second : ReadOrder)
    (subject predicate object : Option Term) (graphName : Option (Option Term)) :
    (fullScan store visible first subject predicate object graphName).Perm
      (fullScan store visible second subject predicate object graphName) :=
  (((first.scan_perm store.quads).trans (second.scan_perm store.quads).symm).filter _).map _

theorem internalNamedGraphs_nodup (store : QuadStore) (order : ReadOrder) :
    (internalNamedGraphs store order).Nodup := by
  apply List.Nodup.filterMap _ ((List.nodup_dedup _).filter _)
  intro first second term fromFirst fromSecond
  split at fromFirst
  · split at fromSecond
    · exact GraphName.toTerm?_injective (Option.mem_def.mp fromFirst |>.trans (Option.mem_def.mp fromSecond).symm)
    · cases fromSecond
  · cases fromFirst

end VisibleDataset

theorem type_isVisible (text : IriText) (visible : VisibleIris) (graph : NamedNode) (catalog : Catalog) :
    quadIsVisible (insertQuad graph (catalogIri text (nodeBase text catalog.originNode) catalog.id) rdfType
      (.namedNode dcatCatalogClass)) visible = true := by
  have subject : owningResourceIri (catalogIri text (nodeBase text catalog.originNode) catalog.id).iri = none := by
    have owner := owningResourceIri_catalog text catalog.originNode catalog []
    rwa [List.append_nil, catalogPath, ← catalogIri_eq] at owner
  have object : owningResourceIri dcatCatalogClass.iri = none := owningResourceIri_outside (by decide)
  have unordered : rdfType ≠ sequenceIndexPred := by decide
  rw [quadIsVisible_iff]
  refine ⟨unordered, ?_, ?_⟩
  · simp only [insertQuad, subjectIsVisible, iriIsVisible, subject, Option.all_none]
  · simp only [insertQuad, objectIsVisible, iriIsVisible, object, Option.all_none]

theorem Represents.graphHoldsACatalog_iff_visible {text : IriText} {store : QuadStore} {contents : Contents}
    (represents : Represents text store contents) (visible : VisibleIris) {order : ReadOrder} {graph : GraphName} :
    VisibleDataset.graphHoldsACatalog store order graph = true ↔
      ∃ quad ∈ store.quads, quadIsVisible quad visible = true ∧ quad.graphName = graph := by
  rw [represents.graphHoldsACatalog_iff]
  constructor
  · rintro ⟨node, holds, rfl⟩
    obtain ⟨catalog, held⟩ := Option.isSome_iff_exists.mp holds
    have typed := type_mem_catalogQuads text (nodeIri text node) catalog
    exact ⟨_, (represents.mem_iff _).mpr ⟨node, catalog, held, typed⟩, type_isVisible text visible _ catalog, rfl⟩
  · rintro ⟨quad, stored, _, rfl⟩
    obtain ⟨node, catalog, held, member⟩ := (represents.mem_iff quad).mp stored
    exact ⟨node, by rw [held, Option.isSome_some], graphName_of_mem_catalogQuads member⟩

theorem VisibleDataset.containsInternalGraphName_iff {store : QuadStore} {order : ReadOrder} {graph : Term} :
    containsInternalGraphName store order graph = true ↔
      ∃ name : GraphName, graphHoldsACatalog store order name = true ∧ name.toTerm? = some graph := by
  unfold containsInternalGraphName
  constructor
  · intro holds
    split at holds
    · exact ⟨_, holds, rfl⟩
    · exact ⟨_, holds, rfl⟩
    · cases holds
  · rintro ⟨name, holds, named⟩
    cases name <;> cases named <;> exact holds

/-- The restricted view answers as its plain definition does, in every store and for every allow-list. -/
theorem restricted_view_eq_fullScan (text : IriText) (calls : List CacheCall) (visible : VisibleIris)
    (order scanOrder : ReadOrder) :
    (∀ (subject predicate object : Option Term) (graphName : Option (Option Term)),
      (VisibleDataset.internalQuadsForPattern (storeAfter text calls) visible order
          subject predicate object graphName).Perm
        (VisibleDataset.fullScan (storeAfter text calls) visible scanOrder subject predicate object graphName)) ∧
    (VisibleDataset.internalNamedGraphs (storeAfter text calls) order).Nodup ∧
    (∀ graph, graph ∈ VisibleDataset.internalNamedGraphs (storeAfter text calls) order ↔
      ∃ quad ∈ (storeAfter text calls).quads, quadIsVisible quad visible = true ∧
        quad.graphName.toTerm? = some graph) ∧
    ∀ graph, VisibleDataset.containsInternalGraphName (storeAfter text calls) order graph = true ↔
      ∃ quad ∈ (storeAfter text calls).quads, quadIsVisible quad visible = true ∧
        quad.graphName.toTerm? = some graph := by
  have represents := represents_after text calls
  -- A graph that holds a catalog shows at least its type quad, whatever the allow-list.
  have shown (graph : Term) : (∃ name : GraphName,
      VisibleDataset.graphHoldsACatalog (storeAfter text calls) order name = true ∧ name.toTerm? = some graph) ↔
      ∃ quad ∈ (storeAfter text calls).quads, quadIsVisible quad visible = true ∧
        quad.graphName.toTerm? = some graph := by
    simp only [represents.graphHoldsACatalog_iff_visible visible]
    constructor
    · rintro ⟨_, ⟨quad, stored, isShown, rfl⟩, named⟩
      exact ⟨quad, stored, isShown, named⟩
    · rintro ⟨quad, stored, isShown, named⟩
      exact ⟨quad.graphName, ⟨quad, stored, isShown, rfl⟩, named⟩
  refine ⟨?_, VisibleDataset.internalNamedGraphs_nodup _ order, fun graph => ?_, fun graph => ?_⟩
  · intro subject predicate object graphName
    rw [VisibleDataset.internalQuadsForPattern_eq]
    exact VisibleDataset.fullScan_perm _ visible order scanOrder subject predicate object graphName
  · rw [VisibleDataset.mem_internalNamedGraphs, shown]
  · rw [VisibleDataset.containsInternalGraphName_iff, shown]

end CatalogBroker
