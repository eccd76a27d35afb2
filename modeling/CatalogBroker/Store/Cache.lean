import CatalogBroker.Library.Refinement
import CatalogBroker.Store.RoundTrip

/-! The catalog cache: replacing, removing and listing catalogs by origin node.

The order of a store scan and of a hash map's keys is a parameter of every read.
-/

set_option autoImplicit false

namespace CatalogBroker

open Library

structure QuadStore where
  quads : List Quad
  nodup : quads.Nodup

/-- The orders third parties return things in, for one read. -/
structure ReadOrder where
  scan : List Quad → List Quad
  scan_perm : ∀ quads, (scan quads).Perm quads
  hashed : List NamedNode → List NamedNode
  hashed_perm : ∀ names, (hashed names).Perm names

structure CatalogQuery where
  originNode : Option NodeId
  offset : Nat
  limit : Option Nat

/-- Catalogs are listed by catalog id, and by origin node where ids are shared. -/
def Catalog.sortKey (catalog : Catalog) : String ×ₗ String := toLex (catalog.id, catalog.originNode.id)

def sortCatalogs (catalogs : List Catalog) : List Catalog :=
  catalogs.insertionSort fun first second => first.sortKey ≤ second.sortKey

def CatalogQuery.page (query : CatalogQuery) (catalogs : List Catalog) : List Catalog :=
  match query.limit with
  | some limit => (catalogs.drop query.offset).take limit
  | none => catalogs.drop query.offset

/-- This backend only ever writes named-node graphs. -/
def Quad.graph? (quad : Quad) : Option NamedNode :=
  match quad.graphName with
  | .namedNode name => some name
  | _ => none

namespace QuadStore

def empty : QuadStore := ⟨[], List.nodup_nil⟩

def removeNamedGraph (store : QuadStore) (graph : NamedNode) : QuadStore :=
  ⟨store.quads.filter fun quad => quad.graphName ≠ .namedNode graph, store.nodup.filter _⟩

/-- `Transaction::extend`: a quad already held is not held twice. -/
def extend (store : QuadStore) (quads : List Quad) : QuadStore :=
  ⟨quads ∪ store.quads, store.nodup.union _⟩

section

variable (store : QuadStore) (order : ReadOrder)

/-- The quads of `graph`, or of every named graph, from one scan and grouped by graph. -/
def snapshots (graph : Option NamedNode) : List (NamedNode × GraphSnapshot) :=
  let scanned := (order.scan store.quads).filter fun quad =>
    graph.all fun name => quad.graphName = .namedNode name
  (order.hashed (scanned.filterMap Quad.graph?).dedup).map fun name =>
    (name, ⟨scanned.filter fun quad => quad.graph? = some name⟩)

def snapshot (graph : NamedNode) : GraphSnapshot :=
  ((store.snapshots order (some graph)).lookup graph).getD ⟨[]⟩

variable (text : IriText)

/-- One graph of the listing: a graph this backend did not write, or cannot read, must not
hide the others. -/
def catalogOf (entry : NamedNode × GraphSnapshot) : Option Catalog :=
  match decodeNodeId text entry.1 with
  | .error _ => none
  | .ok node => match entry.2.loadCatalog text node with
    | .ok found => found
    | .error _ => none

def catalogs (query : CatalogQuery) : StoreResult (List Catalog) :=
  let results : StoreResult (List Catalog) := match query.originNode with
    | some node => ((store.snapshot order (nodeIri text node)).loadCatalog text node).map Option.toList
    | none => .ok ((store.snapshots order none).filterMap (catalogOf text))
  results.map fun results => query.page (sortCatalogs results)

/-- Encodes the whole catalog before the transaction, which replaces the node's graph. -/
def storeCatalog (catalog : Catalog) : QuadStore × StoreResult Unit :=
  let name := nodeIri text catalog.originNode
  match writeCatalog text name catalog with
  | .error e => (store, .error e)
  | .ok quads => ((store.removeNamedGraph name).extend quads, .ok ())

def removeCatalog (node : NodeId) : QuadStore × StoreResult Bool :=
  let graph := nodeIri text node
  let existed := (store.quads.filter fun quad => quad.graphName = .namedNode graph).head?.isSome
  if existed then (store.removeNamedGraph graph, .ok true) else (store, .ok false)

end

end QuadStore

inductive CacheCall where
  | store (catalog : Catalog)
  | remove (node : NodeId)
  | list (query : CatalogQuery) (order : ReadOrder)

inductive CacheReply where
  | stored (result : StoreResult Unit)
  | removed (result : StoreResult Bool)
  | listed (result : StoreResult (List Catalog))

def QuadStore.perform (text : IriText) (store : QuadStore) : CacheCall → QuadStore × CacheReply
  | .store catalog => ((store.storeCatalog text catalog).1, .stored (store.storeCatalog text catalog).2)
  | .remove node => ((store.removeCatalog text node).1, .removed (store.removeCatalog text node).2)
  | .list query order => (store, .listed (store.catalogs order text query))

end CatalogBroker
