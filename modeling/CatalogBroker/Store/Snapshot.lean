import CatalogBroker.Store.Emission
import CatalogBroker.Store.Read

/-! Reading one described node back from a snapshot of its graph.

A snapshot holding some descriptions, in any order, answers every lookup at a
described node from that node's statements alone.
-/

set_option autoImplicit false

namespace CatalogBroker

open Library Library.Descriptions

/-- The snapshot holds each quad of the descriptions once, and no other quad. -/
structure GraphSnapshot.Holds (snapshot : GraphSnapshot) (graph : NamedNode)
    (descriptions : List (Description NamedNode NamedNode Term)) : Prop where
  nodup : snapshot.quads.Nodup
  mem_iff : ∀ quad, quad ∈ snapshot.quads ↔ quad ∈ quadsOf graph descriptions
  unique : (descriptions.map Prod.fst).Nodup

theorem insertQuad_injective (graph subject predicate : NamedNode) :
    Function.Injective (insertQuad graph subject predicate) := by
  intro first second same
  exact congrArg Quad.object same

/-- A term read back as the string it was written for. -/
def Reads (text : IriText) (term : String → Term) : Prop := ∀ value, termAsString text (term value) = .ok value

theorem reads_iriOrLiteralTerm (text : IriText) : Reads text (iriOrLiteralTerm text) :=
  termAsString_iriOrLiteralTerm text

theorem reads_literal (text : IriText) : Reads text fun value => .literal (.ofString value) := by
  intro value
  rfl

namespace GraphSnapshot.Holds

variable {snapshot : GraphSnapshot} {graph node : NamedNode}
  {descriptions : List (Description NamedNode NamedNode Term)} {statements : List (NamedNode × Term)}

theorem mem_matching_subject (holds : snapshot.Holds graph descriptions)
    (described : (node, statements) ∈ descriptions) {quad : Quad} :
    quad ∈ snapshot.matching (some node) none none ↔
      ∃ statement ∈ statements, quad = insertQuad graph node statement.1 statement.2 := by
  have own : ∀ statement, (node, statement) ∈ triples descriptions ↔ statement ∈ statements :=
    fun _ => mem_triples_of_unique holds.unique described
  simp only [matching, List.mem_filter, holds.mem_iff, quadsOf, List.mem_map, Option.all_some,
    Option.all_none, Bool.and_true, decide_eq_true_eq]
  constructor
  · rintro ⟨⟨⟨subject, statement⟩, stated, rfl⟩, about⟩
    obtain rfl : subject = node := by simpa [insertQuad] using about
    exact ⟨statement, (own statement).mp stated, rfl⟩
  · rintro ⟨statement, member, rfl⟩
    exact ⟨⟨(node, statement), (own statement).mpr member, rfl⟩, rfl⟩

theorem matching_perm (holds : snapshot.Holds graph descriptions)
    (described : (node, statements) ∈ descriptions) {predicate : NamedNode}
    (distinct : (objects statements predicate).Nodup) :
    (snapshot.matching (some node) (some predicate) none).Perm
      ((objects statements predicate).map (insertQuad graph node predicate)) := by
  have nodup : (snapshot.matching (some node) (some predicate) none).Nodup := holds.nodup.filter _
  refine (List.perm_ext_iff_of_nodup nodup
    (distinct.map (insertQuad_injective graph node predicate))).mpr fun quad => ?_
  have about : quad ∈ snapshot.matching (some node) (some predicate) none ↔
      quad ∈ snapshot.matching (some node) none none ∧ quad.predicate = predicate := by
    simp [matching, and_assoc]
  rw [about, holds.mem_matching_subject described, List.mem_map]
  constructor
  · rintro ⟨⟨statement, member, rfl⟩, same⟩
    obtain rfl : statement.1 = predicate := same
    exact ⟨statement.2, mem_objects.mpr member, rfl⟩
  · rintro ⟨object, member, rfl⟩
    exact ⟨⟨(predicate, object), mem_objects.mp member, rfl⟩, rfl⟩

theorem matching_eq_nil (holds : snapshot.Holds graph descriptions)
    (described : (node, statements) ∈ descriptions) {predicate : NamedNode}
    (unstated : objects statements predicate = []) :
    snapshot.matching (some node) (some predicate) none = [] := by
  have order := holds.matching_perm described (by rw [unstated]; exact List.nodup_nil)
  rw [unstated] at order
  exact List.perm_nil.mp order

theorem firstObject_eq (holds : snapshot.Holds graph descriptions)
    (described : (node, statements) ∈ descriptions) {predicate : NamedNode} {found : Option Term}
    (stated : objects statements predicate = found.toList) : snapshot.firstObject node predicate = found := by
  have distinct : (objects statements predicate).Nodup := by
    rw [stated]
    cases found <;> simp
  have order := holds.matching_perm described distinct
  rw [stated] at order
  cases found with
  | none => simp [firstObject, List.perm_nil.mp order]
  | some object => simp [firstObject, List.perm_singleton.mp order, insertQuad]

variable {text : IriText}

theorem optionalString_eq (holds : snapshot.Holds graph descriptions)
    (described : (node, statements) ∈ descriptions) {predicate : NamedNode} {term : String → Term}
    {found : Option String} (reads : Reads text term)
    (stated : objects statements predicate = found.toList.map term) :
    snapshot.optionalString text node predicate = .ok found := by
  have first := holds.firstObject_eq described (stated.trans (by cases found <;> rfl : _ = (found.map term).toList))
  cases found with
  | none => simp [optionalString, first]
  | some value =>
    have read := reads value
    simp [optionalString, first, read, Except.map]

theorem requiredString_eq (holds : snapshot.Holds graph descriptions)
    (described : (node, statements) ∈ descriptions) {predicate : NamedNode} {term : String → Term}
    {value name : String} (reads : Reads text term) (stated : objects statements predicate = [term value]) :
    snapshot.requiredString text node predicate name = .ok value := by
  have found : snapshot.optionalString text node predicate = .ok (some value) :=
    holds.optionalString_eq described reads stated
  rw [requiredString, found]
  rfl

theorem sequenceIndex_eq (holds : snapshot.Holds graph descriptions)
    (described : (node, statements) ∈ descriptions) {index : Nat}
    (stated : objects statements sequenceIndexPred = [.literal (.ofIndex index)]) :
    snapshot.sequenceIndex text node = .ok index := by
  have first : snapshot.firstObject node sequenceIndexPred = some (.literal (.ofIndex index)) :=
    holds.firstObject_eq described stated
  rw [sequenceIndex, first]
  simp only [Literal.ofIndex, Text.parseUsize_toString]

theorem loadLinked_eq {α : Type} (holds : snapshot.Holds graph descriptions)
    (described : (node, statements) ∈ descriptions) {predicate : NamedNode} {context : String}
    {load : NamedNode → StoreResult (Nat × α)} {items : List α} (address : Nat → α → NamedNode)
    (stated : objects statements predicate = items.mapIdx fun index item => .namedNode (address index item))
    (distinct : (items.mapIdx address).Nodup)
    (each : ∀ index (bound : index < items.length),
      load (address index items[index]) = .ok (index, items[index])) :
    loadLinked text (snapshot.matching (some node) (some predicate) none) context load = .ok items := by
  have terms : (objects statements predicate).Nodup := by
    rw [stated, ← Listing.map_mapIdx address Term.namedNode]
    exact distinct.map fun _ _ same => Term.namedNode.inj same
  have order := holds.matching_perm described terms
  rw [stated, Listing.map_mapIdx] at order
  obtain ⟨entries, passed, sorted⟩ : ∃ entries,
      (snapshot.matching (some node) (some predicate) none).mapM (fun quad => do
        let subject ← expectNamedNode text quad.object context
        load subject) = .ok entries ∧ Listing.inSequence entries = items :=
    Listing.mapM_inSequence order each
  rw [loadLinked, passed]
  exact congrArg Except.ok sorted

theorem loadIdentified_eq {α : Type} (holds : snapshot.Holds graph descriptions)
    (described : (node, statements) ∈ descriptions) {predicate : NamedNode} {context : String}
    {load : NamedNode → StoreResult (Nat × α)} {items : List α} {id : α → String} {address : String → NamedNode}
    (injective : Function.Injective address) (distinct : (items.map id).Nodup)
    (stated : objects statements predicate = items.map fun item => .namedNode (address (id item)))
    (each : ∀ index (bound : index < items.length),
      load (address (id items[index])) = .ok (index, items[index])) :
    loadLinked text (snapshot.matching (some node) (some predicate) none) context load = .ok items := by
  refine holds.loadLinked_eq described (fun _ item => address (id item)) ?_ ?_ each
  · rw [stated, Listing.mapIdx_eq_map fun item => Term.namedNode (address (id item))]
  · rw [Listing.mapIdx_eq_map fun item => address (id item)]
    have addresses := distinct.map injective
    rwa [List.map_map] at addresses

end GraphSnapshot.Holds

end CatalogBroker
