import CatalogBroker.Store.Cache

/-! The cache refines a map from origin nodes to catalogs.

Each stored catalog owns the quads of one graph, so a call on one node leaves the
other graphs alone, and listings depend on the map only.
-/

set_option autoImplicit false

namespace CatalogBroker

open Library Library.Refinement

/-- What a cache holds: a catalog for some of the origin nodes. -/
abbrev Contents := NodeId → Option Catalog

def Contents.WellFormed (text : IriText) (contents : Contents) : Prop :=
  ∀ node catalog, contents node = some catalog → catalog.WellFormed text

/-- The listing of all catalogs, each once, in the order of their sort keys. -/
structure Contents.Lists (contents : Contents) (listing : List Catalog) : Prop where
  sorted : listing.Pairwise fun first second => first.sortKey < second.sortKey
  mem_iff : ∀ catalog, catalog ∈ listing ↔ contents catalog.originNode = some catalog

theorem Contents.Lists.unique {contents : Contents} {first second : List Catalog}
    (left : contents.Lists first) (right : contents.Lists second) : first = second := by
  have nodup {listing : List Catalog} (lists : contents.Lists listing) : listing.Nodup :=
    lists.sorted.imp fun {a b} before same => (before.ne (congrArg Catalog.sortKey same)).elim
  have order : first.Perm second := (List.perm_ext_iff_of_nodup (nodup left) (nodup right)).mpr
    fun catalog => (left.mem_iff catalog).trans (right.mem_iff catalog).symm
  exact order.eq_of_pairwise (fun a b _ _ before after => absurd before after.asymm) left.sorted right.sorted

/-- The store holds the quads of the catalogs of `contents` and no others. -/
structure Represents (text : IriText) (store : QuadStore) (contents : Contents) : Prop where
  own : ∀ node catalog, contents node = some catalog → catalog.originNode = node
  mem_iff : ∀ quad, quad ∈ store.quads ↔ ∃ node catalog, contents node = some catalog ∧
    quad ∈ catalogQuads text (nodeIri text node) catalog

theorem graphName_of_mem_catalogQuads {text : IriText} {graph : NamedNode} {catalog : Catalog} {quad : Quad}
    (member : quad ∈ catalogQuads text graph catalog) : quad.graphName = .namedNode graph := by
  obtain ⟨description, _, statement, _, rfl⟩ := mem_quadsOf.mp member
  rfl

theorem type_mem_catalogQuads (text : IriText) (graph : NamedNode) (catalog : Catalog) :
    insertQuad graph (catalogIri text (nodeBase text catalog.originNode) catalog.id) rdfType
      (.namedNode dcatCatalogClass) ∈ catalogQuads text graph catalog :=
  mem_quadsOf.mpr ⟨_, mem_catalogDescriptions.mpr (.inl rfl), (rdfType, .namedNode dcatCatalogClass),
    List.mem_cons_self, rfl⟩

namespace Represents

variable {text : IriText} {store : QuadStore} {contents : Contents}

theorem mem_graph (represents : Represents text store contents) {node : NodeId} {quad : Quad} :
    quad ∈ store.quads ∧ quad.graphName = .namedNode (nodeIri text node) ↔
      ∃ catalog, contents node = some catalog ∧ quad ∈ catalogQuads text (nodeIri text node) catalog := by
  rw [represents.mem_iff]
  constructor
  · rintro ⟨⟨other, catalog, held, member⟩, own⟩
    have same : nodeIri text other = nodeIri text node := by
      have named := graphName_of_mem_catalogQuads member
      rw [own] at named
      exact (GraphName.namedNode.inj named).symm
    obtain rfl := nodeIri_injective text same
    exact ⟨catalog, held, member⟩
  · rintro ⟨catalog, held, member⟩
    exact ⟨⟨node, catalog, held, member⟩, graphName_of_mem_catalogQuads member⟩

theorem loadCatalog_eq (represents : Represents text store contents) (wellFormed : contents.WellFormed text)
    {node : NodeId} {snapshot : GraphSnapshot} (nodup : snapshot.quads.Nodup)
    (mem_iff : ∀ quad, quad ∈ snapshot.quads ↔
      quad ∈ store.quads ∧ quad.graphName = .namedNode (nodeIri text node)) :
    snapshot.loadCatalog text node = .ok (contents node) := by
  have about : ∀ quad, quad ∈ snapshot.quads ↔ _ := fun quad => (mem_iff quad).trans represents.mem_graph
  cases held : contents node with
  | none =>
    -- nothing held means an empty graph, whose read finds no catalog
    have empty : snapshot.quads = [] := by
      refine List.eq_nil_iff_forall_not_mem.mpr fun quad member => ?_
      obtain ⟨catalog, found, _⟩ := (about quad).mp member
      rw [held] at found
      cases found
    simp [GraphSnapshot.loadCatalog, GraphSnapshot.matching, empty]
  | some catalog =>
    obtain rfl := represents.own node catalog held
    have holds : snapshot.Holds (nodeIri text catalog.originNode)
        (catalogDescriptions text (nodeBase text catalog.originNode) catalog) :=
      { nodup
        mem_iff quad := by
          rw [about, held]
          constructor
          · rintro ⟨_, same, member⟩
            cases same
            exact member
          · exact fun member => ⟨catalog, rfl, member⟩
        unique := catalogForest_unique text _ (wellFormed _ catalog held) }
    exact holds.loadCatalog_eq (wellFormed _ catalog held)

end Represents

/-! ## Snapshots -/

theorem Quad.graph?_eq_some_iff {quad : Quad} {name : NamedNode} :
    quad.graph? = some name ↔ quad.graphName = .namedNode name := by
  unfold Quad.graph?
  split <;> simp_all

namespace QuadStore

variable (store : QuadStore) (order : ReadOrder)

theorem scan_nodup : (order.scan store.quads).Nodup := (order.scan_perm _).nodup_iff.mpr store.nodup

theorem mem_scan {quad : Quad} : quad ∈ order.scan store.quads ↔ quad ∈ store.quads :=
  (order.scan_perm _).mem_iff

theorem mem_snapshot {graph : NamedNode} {quad : Quad} : quad ∈ (store.snapshot order graph).quads ↔
    quad ∈ store.quads ∧ quad.graphName = .namedNode graph := by
  simp only [snapshot, snapshots, Listing.lookup_map_mk]
  split
  · simp [mem_scan, Quad.graph?_eq_some_iff]
  · rename_i unlisted
    simp only [(order.hashed_perm _).mem_iff, List.mem_dedup, List.mem_filterMap, List.mem_filter, mem_scan,
      Option.all_some, decide_eq_true_eq, Quad.graph?_eq_some_iff, not_exists, not_and] at unlisted
    simp only [Option.getD_none, List.not_mem_nil, false_iff, not_and]
    intro member named
    exact unlisted quad ⟨member, named⟩ named

theorem snapshot_nodup (graph : NamedNode) : (store.snapshot order graph).quads.Nodup := by
  simp only [snapshot, snapshots, Listing.lookup_map_mk]
  split
  · exact ((store.scan_nodup order).filter _).filter _
  · exact List.nodup_nil

def graphNames : List NamedNode := order.hashed ((order.scan store.quads).filterMap Quad.graph?).dedup

theorem graphNames_nodup : (store.graphNames order).Nodup :=
  (order.hashed_perm _).nodup_iff.mpr (List.nodup_dedup _)

theorem mem_graphNames {name : NamedNode} : name ∈ store.graphNames order ↔
    ∃ quad ∈ store.quads, quad.graphName = .namedNode name := by
  simp [graphNames, (order.hashed_perm _).mem_iff, mem_scan, Quad.graph?_eq_some_iff]

theorem snapshots_none : store.snapshots order none = (store.graphNames order).map fun name =>
    (name, ⟨(order.scan store.quads).filter fun quad => quad.graph? = some name⟩) := by
  simp [snapshots, graphNames]

end QuadStore

/-! ## Listings -/

theorem Contents.lists_sortCatalogs {contents : Contents} {results : List Catalog} (nodup : results.Nodup)
    (mem_iff : ∀ catalog, catalog ∈ results ↔ contents catalog.originNode = some catalog) :
    contents.Lists (sortCatalogs results) where
  mem_iff catalog := (List.perm_insertionSort _ _).mem_iff.trans (mem_iff catalog)
  sorted := by
    have ordered : (sortCatalogs results).Pairwise fun first second => first.sortKey ≤ second.sortKey :=
      List.pairwise_insertionSort _ _
    have distinct : (sortCatalogs results).Nodup := (List.perm_insertionSort _ _).nodup_iff.mpr nodup
    refine (ordered.and distinct).imp_of_mem fun {first second} inFirst inSecond both => ?_
    refine lt_of_le_of_ne both.1 fun same => both.2 ?_
    have heldFirst := (mem_iff first).mp ((List.perm_insertionSort _ _).mem_iff.mp inFirst)
    have heldSecond := (mem_iff second).mp ((List.perm_insertionSort _ _).mem_iff.mp inSecond)
    have origin : first.originNode = second.originNode := by
      have keys := congrArg (fun key => (ofLex key).2) same
      exact congrArg NodeId.mk keys
    rw [origin, heldSecond] at heldFirst
    exact (Option.some.inj heldFirst).symm

namespace Represents

variable {text : IriText} {store : QuadStore} {contents : Contents}

/-- Every graph visited is some node's, and is read as what is held for it. -/
theorem catalogOf_eq (represents : Represents text store contents) (wellFormed : contents.WellFormed text)
    (order : ReadOrder) {name : NamedNode} (visited : name ∈ store.graphNames order) :
    ∃ node, name = nodeIri text node ∧ QuadStore.catalogOf text (name,
      ⟨(order.scan store.quads).filter fun quad => quad.graph? = some name⟩) = contents node := by
  obtain ⟨quad, member, named⟩ := (store.mem_graphNames order).mp visited
  obtain ⟨node, catalog, held, inGraph⟩ := (represents.mem_iff quad).mp member
  have same : name = nodeIri text node := by
    rw [graphName_of_mem_catalogQuads inGraph] at named
    exact (GraphName.namedNode.inj named).symm
  subst same
  have loaded : GraphSnapshot.loadCatalog ⟨(order.scan store.quads).filter fun quad =>
      quad.graph? = some (nodeIri text node)⟩ text node = .ok (contents node) := by
    refine represents.loadCatalog_eq wellFormed ((store.scan_nodup order).filter _) fun quad => ?_
    simp [store.mem_scan, Quad.graph?_eq_some_iff]
  exact ⟨node, rfl, by rw [QuadStore.catalogOf, decodeNodeId_nodeIri]; simp only [loaded]⟩

theorem mem_listing (represents : Represents text store contents) (wellFormed : contents.WellFormed text)
    (order : ReadOrder) {catalog : Catalog} :
    catalog ∈ (store.snapshots order none).filterMap (QuadStore.catalogOf text) ↔
      contents catalog.originNode = some catalog := by
  rw [store.snapshots_none, List.filterMap_map, List.mem_filterMap]
  constructor
  · rintro ⟨name, visited, found⟩
    obtain ⟨node, _, read⟩ := represents.catalogOf_eq wellFormed order visited
    have held : contents node = some catalog := read.symm.trans found
    rw [represents.own node catalog held]
    exact held
  · intro held
    have member := (represents.mem_iff _).mpr
      ⟨catalog.originNode, catalog, held, type_mem_catalogQuads text _ catalog⟩
    have visited : nodeIri text catalog.originNode ∈ store.graphNames order :=
      (store.mem_graphNames order).mpr ⟨_, member, rfl⟩
    obtain ⟨node, same, read⟩ := represents.catalogOf_eq wellFormed order visited
    obtain rfl := nodeIri_injective text same
    exact ⟨_, visited, read.trans held⟩

theorem listing_nodup (represents : Represents text store contents) (wellFormed : contents.WellFormed text)
    (order : ReadOrder) :
    ((store.snapshots order none).filterMap (QuadStore.catalogOf text)).Nodup := by
  rw [store.snapshots_none, List.filterMap_map, List.Nodup, List.pairwise_filterMap]
  refine (store.graphNames_nodup order).imp_of_mem fun {first second} inFirst inSecond apart => ?_
  rintro left foundLeft right foundRight rfl
  obtain ⟨node, rfl, readFirst⟩ := represents.catalogOf_eq wellFormed order inFirst
  obtain ⟨other, rfl, readSecond⟩ := represents.catalogOf_eq wellFormed order inSecond
  have heldFirst := represents.own node _ (readFirst.symm.trans foundLeft)
  have heldSecond := represents.own other _ (readSecond.symm.trans foundRight)
  exact apart (by rw [← heldFirst, heldSecond])

theorem lists (represents : Represents text store contents) (wellFormed : contents.WellFormed text)
    (order : ReadOrder) : contents.Lists
      (sortCatalogs ((store.snapshots order none).filterMap (QuadStore.catalogOf text))) :=
  Contents.lists_sortCatalogs (represents.listing_nodup wellFormed order) fun _ =>
    represents.mem_listing wellFormed order

end Represents

/-! ## The simulation -/

/-- What a call does to the map: a catalog nested too deeply is refused. -/
def Contents.update (contents : Contents) : CacheCall → Contents
  | .store catalog =>
    if catalog.NestsWithin maxConstraintDepth then
      Function.update contents catalog.originNode (some catalog)
    else contents
  | .remove node => Function.update contents node none
  | .list _ _ => contents

/-- The replies the map allows. -/
def Contents.Answers (contents : Contents) : CacheCall → CacheReply → Prop
  | .store catalog, reply =>
    if catalog.NestsWithin maxConstraintDepth then reply = .stored (.ok ())
    else ∃ error, reply = .stored (.error error)
  | .remove node, reply => reply = .removed (.ok (contents node).isSome)
  | .list query _, reply => match query.originNode with
    | some node => reply = .listed (.ok (query.page (contents node).toList))
    | none => ∃ listing, contents.Lists listing ∧ reply = .listed (.ok (query.page listing))

/-- Calls on catalogs that are well-formed, or that are refused for their nesting. -/
def CacheCall.Admissible (text : IriText) : CacheCall → Prop
  | .store catalog => catalog.WellFormed text ∨ ¬ catalog.NestsWithin maxConstraintDepth
  | .remove _ => True
  | .list _ _ => True

def CacheCall.Concerns (node : NodeId) : CacheCall → Prop
  | .store catalog => catalog.originNode = node
  | .remove removed => removed = node
  | .list _ _ => False

namespace Represents

variable {text : IriText} {store : QuadStore} {contents : Contents}

theorem empty (text : IriText) : Represents text .empty fun _ => none where
  own := by simp
  mem_iff := by simp [QuadStore.empty]

theorem update_graph (represents : Represents text store contents) {node : NodeId} {held : Option Catalog}
    (own : ∀ catalog, held = some catalog → catalog.originNode = node)
    {after : QuadStore} (mem_iff : ∀ quad, quad ∈ after.quads ↔
      (∃ catalog, held = some catalog ∧ quad ∈ catalogQuads text (nodeIri text node) catalog) ∨
      quad ∈ store.quads ∧ quad.graphName ≠ .namedNode (nodeIri text node)) :
    Represents text after (Function.update contents node held) where
  own other catalog found := by
    by_cases same : other = node
    · subst same
      rw [Function.update_self] at found
      exact own catalog found
    · rw [Function.update_of_ne same] at found
      exact represents.own other catalog found
  -- Two nodes never share a graph, so the quads outside this one belong to the other nodes.
  mem_iff quad := by
    rw [mem_iff, represents.mem_iff]
    constructor
    · rintro (⟨catalog, same, member⟩ | ⟨⟨other, catalog, found, member⟩, outside⟩)
      · exact ⟨node, catalog, by rw [Function.update_self, same], member⟩
      · have apart : other ≠ node := by
          rintro rfl
          exact outside (graphName_of_mem_catalogQuads member)
        exact ⟨other, catalog, by rw [Function.update_of_ne apart, found], member⟩
    · rintro ⟨other, catalog, found, member⟩
      by_cases same : other = node
      · subst same
        rw [Function.update_self] at found
        exact .inl ⟨catalog, found, member⟩
      · rw [Function.update_of_ne same] at found
        refine .inr ⟨⟨other, catalog, found, member⟩, fun named => same ?_⟩
        rw [graphName_of_mem_catalogQuads member] at named
        exact nodeIri_injective text (GraphName.namedNode.inj named)

theorem storeCatalog_fits (represents : Represents text store contents) {catalog : Catalog}
    (nests : catalog.NestsWithin maxConstraintDepth) :
    (store.storeCatalog text catalog).2 = .ok () ∧ Represents text (store.storeCatalog text catalog).1
      (Function.update contents catalog.originNode (some catalog)) := by
  obtain ⟨quads, written, same⟩ :=
    (writeCatalog_writes text (nodeIri text catalog.originNode) catalog).emits nests
  rw [QuadStore.storeCatalog, written]
  refine ⟨rfl, represents.update_graph (fun _ found => ?_) fun quad => ?_⟩
  · cases found
    rfl
  · simp [QuadStore.extend, QuadStore.removeNamedGraph, List.mem_union_iff, same]

end Represents

theorem QuadStore.storeCatalog_refused (text : IriText) (store : QuadStore) {catalog : Catalog}
    (deep : ¬ catalog.NestsWithin maxConstraintDepth) :
    ∃ error, store.storeCatalog text catalog = (store, .error error) := by
  obtain ⟨error, refused⟩ :=
    (writeCatalog_writes text (nodeIri text catalog.originNode) catalog).refuses deep
  exact ⟨error, by rw [QuadStore.storeCatalog, refused]⟩

namespace Represents

variable {text : IriText} {store : QuadStore} {contents : Contents}

theorem existed_iff (represents : Represents text store contents) (node : NodeId) :
    (store.quads.filter fun quad => quad.graphName = .namedNode (nodeIri text node)).head?.isSome =
      (contents node).isSome := by
  cases held : contents node with
  | none =>
    have empty : (store.quads.filter fun quad => quad.graphName = .namedNode (nodeIri text node)) = [] := by
      refine List.eq_nil_iff_forall_not_mem.mpr fun quad member => ?_
      have inGraph : quad ∈ store.quads ∧ quad.graphName = .namedNode (nodeIri text node) := by
        simpa using member
      obtain ⟨catalog, found, _⟩ := represents.mem_graph.mp inGraph
      rw [held] at found
      cases found
    rw [empty]
    rfl
  | some catalog =>
    have typed := represents.mem_graph.mpr ⟨catalog, held, type_mem_catalogQuads text _ catalog⟩
    have nonempty : (store.quads.filter fun quad => quad.graphName = .namedNode (nodeIri text node)) ≠ [] :=
      List.ne_nil_of_mem (List.mem_filter.mpr ⟨typed.1, decide_eq_true typed.2⟩)
    obtain ⟨first, rest, same⟩ := List.exists_cons_of_ne_nil nonempty
    rw [same]
    rfl

theorem removeCatalog_eq (represents : Represents text store contents) (node : NodeId) :
    (store.removeCatalog text node).2 = .ok (contents node).isSome ∧
      Represents text (store.removeCatalog text node).1 (Function.update contents node none) := by
  have existed := represents.existed_iff node
  cases held : contents node with
  | none =>
    rw [held] at existed
    have unchanged : Function.update contents node none = contents := by
      rw [← held, Function.update_eq_self]
    rw [QuadStore.removeCatalog, existed, unchanged]
    exact ⟨rfl, represents⟩
  | some catalog =>
    rw [held] at existed
    rw [QuadStore.removeCatalog, existed]
    refine ⟨rfl, represents.update_graph (by simp) fun quad => ?_⟩
    simp [QuadStore.removeNamedGraph]

theorem catalogs_node (represents : Represents text store contents) (wellFormed : contents.WellFormed text)
    (node : NodeId) (offset : Nat) (limit : Option Nat) (order : ReadOrder) :
    store.catalogs order text ⟨some node, offset, limit⟩ =
      .ok (CatalogQuery.page ⟨some node, offset, limit⟩ (contents node).toList) := by
  have loaded := represents.loadCatalog_eq wellFormed (store.snapshot_nodup order (nodeIri text node))
    fun _ => store.mem_snapshot order
  have alone : sortCatalogs (contents node).toList = (contents node).toList := by
    cases contents node <;> rfl
  simp only [QuadStore.catalogs, loaded, Except.map, alone]

theorem catalogs_all (represents : Represents text store contents) (wellFormed : contents.WellFormed text)
    {listing : List Catalog} (lists : contents.Lists listing) (offset : Nat) (limit : Option Nat) (order : ReadOrder) :
    store.catalogs order text ⟨none, offset, limit⟩ =
      .ok (CatalogQuery.page ⟨none, offset, limit⟩ listing) := by
  rw [lists.unique (represents.lists wellFormed order)]
  rfl

theorem simulates (text : IriText) :
    Simulates (QuadStore.perform text) Contents.update (Represents text) := by
  intro store contents call represents
  cases call with
  | store catalog =>
    by_cases nests : catalog.NestsWithin maxConstraintDepth
    · rw [Contents.update, if_pos nests]
      exact (represents.storeCatalog_fits nests).2
    · obtain ⟨error, refused⟩ := QuadStore.storeCatalog_refused text store nests
      rw [Contents.update, if_neg nests, QuadStore.perform, refused]
      exact represents
  | remove node => exact (represents.removeCatalog_eq node).2
  | list query order => exact represents

theorem answers (represents : Represents text store contents) (wellFormed : contents.WellFormed text)
    (call : CacheCall) : contents.Answers call (store.perform text call).2 := by
  cases call with
  | store catalog =>
    by_cases nests : catalog.NestsWithin maxConstraintDepth
    · simp only [Contents.Answers, if_pos nests]
      exact congrArg _ (represents.storeCatalog_fits nests).1
    · obtain ⟨error, refused⟩ := QuadStore.storeCatalog_refused text store nests
      simp only [Contents.Answers, if_neg nests, QuadStore.perform, refused]
      exact ⟨error, rfl⟩
  | remove node => exact congrArg _ (represents.removeCatalog_eq node).1
  | list query order =>
    obtain ⟨origin, offset, limit⟩ := query
    cases origin with
    | some node => exact congrArg _ (represents.catalogs_node wellFormed node offset limit order)
    | none => exact ⟨_, represents.lists wellFormed order, rfl⟩

theorem update_frame {contents : Contents} {call : CacheCall} {node : NodeId}
    (elsewhere : ¬ call.Concerns node) : contents.update call node = contents node := by
  cases call with
  | store catalog =>
    by_cases nests : catalog.NestsWithin maxConstraintDepth
    · rw [Contents.update, if_pos nests]
      exact Function.update_of_ne (fun same => elsewhere same.symm) _ _
    · rw [Contents.update, if_neg nests]
  | remove removed => exact Function.update_of_ne (fun same => elsewhere same.symm) _ _
  | list query order => rfl

end Represents

/-! ## Runs -/

def storeAfter (text : IriText) (calls : List CacheCall) : QuadStore :=
  runFrom (QuadStore.perform text) .empty calls

def contentsAfter (calls : List CacheCall) : Contents := calls.foldl Contents.update fun _ => none

theorem represents_after (text : IriText) (calls : List CacheCall) :
    Represents text (storeAfter text calls) (contentsAfter calls) :=
  (Represents.simulates text).run (Represents.empty text) calls

theorem Contents.WellFormed.update {text : IriText} {contents : Contents}
    (wellFormed : contents.WellFormed text) {call : CacheCall} (admissible : call.Admissible text) :
    (contents.update call).WellFormed text := by
  intro node catalog held
  cases call with
  | store stored =>
    by_cases nests : stored.NestsWithin maxConstraintDepth
    · rw [Contents.update, if_pos nests] at held
      by_cases same : node = stored.originNode
      · subst same
        rw [Function.update_self] at held
        cases held
        exact admissible.resolve_right (not_not_intro nests)
      · rw [Function.update_of_ne same] at held
        exact wellFormed node catalog held
    · rw [Contents.update, if_neg nests] at held
      exact wellFormed node catalog held
  | remove removed =>
    by_cases same : node = removed
    · subst same
      rw [Contents.update, Function.update_self] at held
      cases held
    · rw [Contents.update, Function.update_of_ne same] at held
      exact wellFormed node catalog held
  | list query order => exact wellFormed node catalog held

theorem contentsAfter_wellFormed {text : IriText} {calls : List CacheCall}
    (admissible : ∀ call ∈ calls, call.Admissible text) : (contentsAfter calls).WellFormed text :=
  List.foldlRecOn calls Contents.update (fun _ _ held => by cases held)
    fun _ wellFormed call member => wellFormed.update (admissible call member)

/-- Whatever was called before, every reply is one the map allows; a refused catalog changes
nothing; reads of one node ignore calls on others; pages of one size join to the listing. -/
theorem cache_refines_contents (text : IriText) (calls : List CacheCall)
    (admissible : ∀ call ∈ calls, call.Admissible text) :
    (∀ call : CacheCall,
      (contentsAfter calls).Answers call ((storeAfter text calls).perform text call).2) ∧
    (∀ catalog error, ((storeAfter text calls).storeCatalog text catalog).2 = .error error →
      ((storeAfter text calls).storeCatalog text catalog).1 = storeAfter text calls) ∧
    (∀ (call : CacheCall) (node : NodeId), call.Admissible text → ¬ call.Concerns node →
      ∀ (before after : ReadOrder) (offset : Nat) (limit : Option Nat),
        ((storeAfter text calls).perform text call).1.catalogs after text ⟨some node, offset, limit⟩ =
          (storeAfter text calls).catalogs before text ⟨some node, offset, limit⟩) ∧
    ∃ listing, (contentsAfter calls).Lists listing ∧
      ∀ (size count : Nat) (orders : Nat → ReadOrder), listing.length ≤ count * size →
        ((List.range count).mapM fun page => (storeAfter text calls).catalogs (orders page) text
          ⟨none, page * size, some size⟩).map List.flatten = .ok listing := by
  have represents := represents_after text calls
  have wellFormed := contentsAfter_wellFormed admissible
  refine ⟨represents.answers wellFormed, ?_, ?_, ?_⟩
  · intro catalog error refused
    cases written : writeCatalog text (nodeIri text catalog.originNode) catalog with
    | error _ => rw [QuadStore.storeCatalog, written]
    | ok quads =>
      rw [QuadStore.storeCatalog, written] at refused
      cases refused
  · intro call node fits elsewhere before after offset limit
    have later := Represents.simulates text _ _ call represents
    rw [later.catalogs_node (wellFormed.update fits), represents.catalogs_node wellFormed,
      Represents.update_frame elsewhere]
  -- The listing does not depend on the read order, so any one order names it.
  · have sorted := represents.lists wellFormed ⟨id, fun _ => .refl _, id, fun _ => .refl _⟩
    refine ⟨_, sorted, fun size count orders covers => ?_⟩
    rw [Listing.mapM_ok fun page _ => represents.catalogs_all wellFormed sorted (page * size) (some size) (orders page)]
    refine congrArg Except.ok ?_
    rw [← List.flatMap_def]
    exact (Listing.flatMap_pages _ size count).trans (List.take_of_length_le covers)

theorem groupedCatalog_cached :
    ((storeAfter .urlencoding [.store groupedCatalog]).perform .urlencoding
      (.remove ⟨"did:web:provider"⟩)).2 = .removed (.ok true) ∧
    ∃ listing, (contentsAfter [.store groupedCatalog]).Lists listing ∧
      ∀ (size count : Nat) (orders : Nat → ReadOrder), listing.length ≤ count * size →
        ((List.range count).mapM fun page => (storeAfter .urlencoding [.store groupedCatalog]).catalogs
          (orders page) .urlencoding ⟨none, page * size, some size⟩).map List.flatten = .ok listing := by
  have admissible : ∀ call ∈ [CacheCall.store groupedCatalog], call.Admissible .urlencoding := by
    intro call member
    rw [List.mem_singleton.mp member]
    exact .inl groupedCatalog_wellFormed
  obtain ⟨answers, _, _, pages⟩ :=
    cache_refines_contents .urlencoding [.store groupedCatalog] admissible
  have held : contentsAfter [.store groupedCatalog] ⟨"did:web:provider"⟩ = some groupedCatalog := by
    have nests : groupedCatalog.NestsWithin maxConstraintDepth := by decide
    simp only [contentsAfter, List.foldl_cons, List.foldl_nil, Contents.update, if_pos nests]
    exact Function.update_self ..
  have removed := answers (.remove ⟨"did:web:provider"⟩)
  simp only [Contents.Answers, held] at removed
  exact ⟨removed, pages⟩

end CatalogBroker
