import Mathlib

/-! Nodes with the statements made about them, and the triples they amount to.

When no node is described twice, a triple about a node is one of that node's
own statements, wherever its description stands in the list.
-/

set_option autoImplicit false

namespace Library.Descriptions

variable {Node Predicate Object : Type}

abbrev Description (Node Predicate Object : Type) := Node × List (Predicate × Object)

def triples (descriptions : List (Description Node Predicate Object)) :
    List (Node × Predicate × Object) :=
  descriptions.flatMap fun description => description.2.map fun statement => (description.1, statement)

theorem mem_triples {descriptions : List (Description Node Predicate Object)}
    {node : Node} {statement : Predicate × Object} :
    (node, statement) ∈ triples descriptions ↔
      ∃ statements, (node, statements) ∈ descriptions ∧ statement ∈ statements := by
  constructor
  · intro member
    obtain ⟨⟨about, statements⟩, described, rest⟩ := List.mem_flatMap.mp member
    obtain ⟨stated, included, same⟩ := List.mem_map.mp rest
    cases same
    exact ⟨statements, described, included⟩
  · rintro ⟨statements, described, included⟩
    exact List.mem_flatMap.mpr ⟨_, described, List.mem_map.mpr ⟨statement, included, rfl⟩⟩

theorem mem_triples_of_unique {descriptions : List (Description Node Predicate Object)}
    (unique : (descriptions.map Prod.fst).Nodup) {node : Node} {statements : List (Predicate × Object)}
    (member : (node, statements) ∈ descriptions) {statement : Predicate × Object} :
    (node, statement) ∈ triples descriptions ↔ statement ∈ statements := by
  rw [mem_triples]
  constructor
  · rintro ⟨others, found, stated⟩
    have same : others = statements := by
      have key := List.inj_on_of_nodup_map unique found member rfl
      exact congrArg Prod.snd key
    exact same ▸ stated
  · exact fun stated => ⟨statements, member, stated⟩

section

variable [DecidableEq Predicate]

def objects (statements : List (Predicate × Object)) (predicate : Predicate) : List Object :=
  statements.filterMap fun statement => if statement.1 = predicate then some statement.2 else none

@[simp] theorem objects_nil (predicate : Predicate) :
    objects ([] : List (Predicate × Object)) predicate = [] := rfl

@[simp] theorem objects_cons (stated : Predicate) (object : Object)
    (statements : List (Predicate × Object)) (predicate : Predicate) :
    objects ((stated, object) :: statements) predicate =
      if stated = predicate then object :: objects statements predicate else objects statements predicate := by
  by_cases same : stated = predicate <;> simp [objects, same]

@[simp] theorem objects_append (left right : List (Predicate × Object)) (predicate : Predicate) :
    objects (left ++ right) predicate = objects left predicate ++ objects right predicate :=
  List.filterMap_append

theorem mem_objects {statements : List (Predicate × Object)} {predicate : Predicate} {object : Object} :
    object ∈ objects statements predicate ↔ (predicate, object) ∈ statements := by
  simp only [objects, List.mem_filterMap, Option.ite_none_right_eq_some, Option.some.injEq]
  constructor
  · rintro ⟨⟨stated, found⟩, member, rfl, rfl⟩
    exact member
  · intro member
    exact ⟨_, member, rfl, rfl⟩

@[simp] theorem objects_map_self {α : Type} (items : List α) (predicate : Predicate) (object : α → Object) :
    objects (items.map fun item => (predicate, object item)) predicate = items.map object := by
  induction items with
  | nil => rfl
  | cons item items ih => simp [ih]

theorem objects_eq_nil {statements : List (Predicate × Object)} {predicate : Predicate}
    (other : ∀ statement ∈ statements, statement.1 ≠ predicate) : objects statements predicate = [] := by
  refine List.filterMap_eq_nil_iff.mpr fun statement member => ?_
  rw [if_neg (other statement member)]

theorem objects_map_other {α : Type} {items : List α} {stated predicate : Predicate} {object : α → Object}
    (other : stated ≠ predicate) : objects (items.map fun item => (stated, object item)) predicate = [] := by
  refine objects_eq_nil fun statement member => ?_
  obtain ⟨item, _, rfl⟩ := List.mem_map.mp member
  exact other

end

end Library.Descriptions
