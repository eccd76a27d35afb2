import CatalogBroker.Library.Descriptions

/-! Trees of resources, each addressed beneath its parent and linked from it.

A tree whose sibling addresses are incomparable gives every resource a path of
its own, whatever the depth.
-/

set_option autoImplicit false

namespace Library

open Descriptions

/-- A resource: its own statements, and the resources beneath it, each with the predicate
that links to it and its address relative to the parent. -/
inductive Resource (Segment Predicate Object : Type) where
  | node (statements : List (Predicate × Object))
      (branches : List (Predicate × List Segment × Resource Segment Predicate Object))

namespace Resource

variable {Segment Predicate Object Node : Type}

@[elab_as_elim, induction_eliminator]
theorem induction {motive : Resource Segment Predicate Object → Prop}
    (node : ∀ statements branches, (∀ branch ∈ branches, motive branch.2.2) →
      motive (.node statements branches))
    (resource : Resource Segment Predicate Object) : motive resource :=
  @Resource.rec _ _ _ motive (fun branches => ∀ branch ∈ branches, motive branch.2.2)
    (fun branch => motive branch.2.2) (fun branch => motive branch.2) node (by simp)
    (fun _ _ head tail => List.forall_mem_cons.mpr ⟨head, tail⟩) (fun _ _ below => below)
    (fun _ _ below => below) resource

mutual
def describe (name : List Segment → Node) (refer : Node → Object) :
    Resource Segment Predicate Object → List Segment → List (Description Node Predicate Object)
  | .node statements branches, path =>
    (name path, statements ++ branches.map fun branch => (branch.1, refer (name (path ++ branch.2.1)))) ::
      describeAll name refer branches path

def describeAll (name : List Segment → Node) (refer : Node → Object) :
    List (Predicate × List Segment × Resource Segment Predicate Object) → List Segment →
      List (Description Node Predicate Object)
  | [], _ => []
  | (_, address, resource) :: branches, path =>
    resource.describe name refer (path ++ address) ++ describeAll name refer branches path
end

theorem describeAll_eq (name : List Segment → Node) (refer : Node → Object)
    (branches : List (Predicate × List Segment × Resource Segment Predicate Object)) (path : List Segment) :
    describeAll name refer branches path =
      branches.flatMap fun branch => branch.2.2.describe name refer (path ++ branch.2.1) := by
  induction branches with
  | nil => rfl
  | cons branch branches ih =>
    obtain ⟨link, address, resource⟩ := branch
    simp [describeAll, ih]

mutual
def paths : Resource Segment Predicate Object → List Segment → List (List Segment)
  | .node _ branches, path => path :: pathsAll branches path

def pathsAll : List (Predicate × List Segment × Resource Segment Predicate Object) → List Segment →
    List (List Segment)
  | [], _ => []
  | (_, address, resource) :: branches, path => resource.paths (path ++ address) ++ pathsAll branches path
end

theorem pathsAll_eq (branches : List (Predicate × List Segment × Resource Segment Predicate Object))
    (path : List Segment) :
    pathsAll branches path = branches.flatMap fun branch => branch.2.2.paths (path ++ branch.2.1) := by
  induction branches with
  | nil => rfl
  | cons branch branches ih =>
    obtain ⟨link, address, resource⟩ := branch
    simp [pathsAll, ih]

theorem mem_paths_node {path found : List Segment} {statements : List (Predicate × Object)}
    {branches : List (Predicate × List Segment × Resource Segment Predicate Object)} :
    found ∈ (Resource.node statements branches).paths path ↔
      found = path ∨ ∃ branch ∈ branches, found ∈ branch.2.2.paths (path ++ branch.2.1) := by
  rw [paths, pathsAll_eq, List.mem_cons, List.mem_flatMap]

theorem mem_describe_node {name : List Segment → Node} {refer : Node → Object} {path : List Segment}
    {statements : List (Predicate × Object)}
    {branches : List (Predicate × List Segment × Resource Segment Predicate Object)}
    {description : Description Node Predicate Object} :
    description ∈ (Resource.node statements branches).describe name refer path ↔
      description = (name path,
        statements ++ branches.map fun branch => (branch.1, refer (name (path ++ branch.2.1)))) ∨
      ∃ branch ∈ branches, description ∈ branch.2.2.describe name refer (path ++ branch.2.1) := by
  rw [describe, describeAll_eq, List.mem_cons, List.mem_flatMap]

theorem map_fst_describe (name : List Segment → Node) (refer : Node → Object)
    (resource : Resource Segment Predicate Object) (path : List Segment) :
    (resource.describe name refer path).map Prod.fst = (resource.paths path).map name := by
  induction resource generalizing path with
  | node statements branches ih =>
    simp only [describe, describeAll_eq, paths, pathsAll_eq, List.map_cons, List.map_flatMap,
      List.cons.injEq, true_and]
    exact List.flatMap_congr fun branch member => ih branch member _

theorem prefix_of_mem_paths {resource : Resource Segment Predicate Object} {path found : List Segment}
    (member : found ∈ resource.paths path) : path <+: found := by
  induction resource generalizing path with
  | node statements branches ih =>
    rcases mem_paths_node.mp member with rfl | ⟨branch, inBranches, below⟩
    · exact List.prefix_rfl
    · exact (List.prefix_append _ _).trans (ih branch inBranches below)

mutual
/-- The statements made in the tree, links between its resources apart. -/
def ownStatements : Resource Segment Predicate Object → List (Predicate × Object)
  | .node statements branches => statements ++ ownStatementsAll branches

def ownStatementsAll : List (Predicate × List Segment × Resource Segment Predicate Object) →
    List (Predicate × Object)
  | [] => []
  | (_, _, resource) :: branches => resource.ownStatements ++ ownStatementsAll branches
end

theorem ownStatementsAll_eq (branches : List (Predicate × List Segment × Resource Segment Predicate Object)) :
    ownStatementsAll branches = branches.flatMap fun branch => branch.2.2.ownStatements := by
  induction branches with
  | nil => rfl
  | cons branch branches ih =>
    obtain ⟨link, address, resource⟩ := branch
    simp [ownStatementsAll, ih]

theorem forall_ownStatements_node {statements : List (Predicate × Object)}
    {branches : List (Predicate × List Segment × Resource Segment Predicate Object)}
    {holds : Predicate × Object → Prop} :
    (∀ statement ∈ (Resource.node statements branches).ownStatements, holds statement) ↔
      (∀ statement ∈ statements, holds statement) ∧
        ∀ branch ∈ branches, ∀ statement ∈ branch.2.2.ownStatements, holds statement := by
  simp only [ownStatements, ownStatementsAll_eq, List.mem_append, List.mem_flatMap, or_imp, forall_and,
    forall_exists_index, and_imp]
  exact and_congr_right fun _ => ⟨fun each branch member statement => each statement branch member,
    fun each statement branch member => each branch member statement⟩

/-- A described statement is one the tree makes or refers to a resource beneath the root. -/
theorem statement_cases {name : List Segment → Node} {refer : Node → Object}
    {resource : Resource Segment Predicate Object} {path : List Segment}
    {description : Description Node Predicate Object} {statement : Predicate × Object}
    (described : description ∈ resource.describe name refer path) (stated : statement ∈ description.2) :
    statement ∈ resource.ownStatements ∨ ∃ below, statement.2 = refer (name (path ++ below)) := by
  induction resource generalizing path with
  | node statements branches ih =>
    rw [ownStatements, ownStatementsAll_eq, List.mem_append, List.mem_flatMap]
    -- The root's description adds the links to its branches; every other description lies in a branch.
    rcases mem_describe_node.mp described with rfl | ⟨branch, inBranches, deeper⟩
    · rcases List.mem_append.mp stated with own | link
      · exact .inl (.inl own)
      · obtain ⟨branch, _, rfl⟩ := List.mem_map.mp link
        exact .inr ⟨branch.2.1, rfl⟩
    · rcases ih branch inBranches deeper with own | ⟨below, referred⟩
      · exact .inl (.inr ⟨branch, inBranches, own⟩)
      · exact .inr ⟨branch.2.1 ++ below, by rw [referred, List.append_assoc]⟩

/-- Neither address leads through the other. -/
def Incomparable (first second : List Segment) : Prop :=
  ¬ first <+: second ∧ ¬ second <+: first

mutual
/-- Addresses are not empty, and those of siblings are incomparable, at every resource. -/
def Separated : Resource Segment Predicate Object → Prop
  | .node _ branches =>
    branches.Pairwise (fun first second => Incomparable first.2.1 second.2.1) ∧ SeparatedAll branches

def SeparatedAll : List (Predicate × List Segment × Resource Segment Predicate Object) → Prop
  | [] => True
  | (_, address, resource) :: branches => (address ≠ [] ∧ resource.Separated) ∧ SeparatedAll branches
end

theorem separatedAll_iff {branches : List (Predicate × List Segment × Resource Segment Predicate Object)} :
    SeparatedAll branches ↔ ∀ branch ∈ branches, branch.2.1 ≠ [] ∧ branch.2.2.Separated := by
  induction branches with
  | nil => simp [SeparatedAll]
  | cons branch branches ih =>
    obtain ⟨link, address, resource⟩ := branch
    simp [SeparatedAll, ih]

theorem separated_node_iff {statements : List (Predicate × Object)}
    {branches : List (Predicate × List Segment × Resource Segment Predicate Object)} :
    (Resource.node statements branches).Separated ↔
      branches.Pairwise (fun first second => Incomparable first.2.1 second.2.1) ∧
        ∀ branch ∈ branches, branch.2.1 ≠ [] ∧ branch.2.2.Separated := by
  rw [Separated, separatedAll_iff]

@[simp] theorem separated_leaf (statements : List (Predicate × Object)) :
    (Resource.node statements [] : Resource Segment Predicate Object).Separated := by
  simp [separated_node_iff]

theorem incomparable_of_length_eq {first second : List Segment} (lengths : first.length = second.length)
    (distinct : first ≠ second) : Incomparable first second :=
  ⟨fun through => distinct (through.eq_of_length lengths),
    fun through => distinct (through.eq_of_length lengths.symm).symm⟩

theorem separated_node_of_length {statements : List (Predicate × Object)} {length : Nat}
    {branches : List (Predicate × List Segment × Resource Segment Predicate Object)} (positive : 0 < length)
    (lengths : ∀ branch ∈ branches, branch.2.1.length = length)
    (distinct : (branches.map fun branch => branch.2.1).Nodup)
    (each : ∀ branch ∈ branches, branch.2.2.Separated) : (Resource.node statements branches).Separated := by
  refine separated_node_iff.mpr ⟨?_, fun branch member => ⟨?_, each branch member⟩⟩
  · have apart := List.pairwise_map.mp distinct
    refine apart.imp_of_mem fun {first second} inFirst inSecond different => ?_
    exact incomparable_of_length_eq ((lengths first inFirst).trans (lengths second inSecond).symm) different
  · intro empty
    have := lengths branch member
    rw [empty, List.length_nil] at this
    omega

theorem disjoint_of_incomparable {first second : Resource Segment Predicate Object}
    {path left right : List Segment} (apart : Incomparable left right) :
    List.Disjoint (first.paths (path ++ left)) (second.paths (path ++ right)) := by
  intro found inFirst inSecond
  rcases List.prefix_or_prefix_of_prefix (prefix_of_mem_paths inFirst) (prefix_of_mem_paths inSecond) with
    through | through
  · exact apart.1 ((List.prefix_append_right_inj _).mp through)
  · exact apart.2 ((List.prefix_append_right_inj _).mp through)

theorem paths_nodup {resource : Resource Segment Predicate Object} (separated : resource.Separated)
    (path : List Segment) : (resource.paths path).Nodup := by
  induction resource generalizing path with
  | node statements branches ih =>
    obtain ⟨apart, each⟩ := separated_node_iff.mp separated
    rw [paths, pathsAll_eq, List.nodup_cons]
    constructor
    · intro member
      obtain ⟨branch, inBranches, below⟩ := List.mem_flatMap.mp member
      have longer := (prefix_of_mem_paths below).length_le
      have nonempty := List.length_pos_iff.mpr (each branch inBranches).1
      rw [List.length_append] at longer
      omega
    · refine List.nodup_flatMap.mpr ⟨fun branch member => ih branch member (each branch member).2 _, ?_⟩
      exact apart.imp fun incomparable => disjoint_of_incomparable incomparable

/-- The descriptions of several resources, each at its own path. -/
def describeForest (name : List Segment → Node) (refer : Node → Object)
    (forest : List (List Segment × Resource Segment Predicate Object)) :
    List (Description Node Predicate Object) :=
  forest.flatMap fun resource => resource.2.describe name refer resource.1

theorem describeForest_unique {name : List Segment → Node} (injective : Function.Injective name)
    (refer : Node → Object) {forest : List (List Segment × Resource Segment Predicate Object)}
    (apart : forest.Pairwise fun first second => Incomparable first.1 second.1)
    (each : ∀ resource ∈ forest, resource.2.Separated) :
    ((describeForest name refer forest).map Prod.fst).Nodup := by
  have names : (describeForest name refer forest).map Prod.fst =
      (forest.flatMap fun resource => resource.2.paths resource.1).map name := by
    simp only [describeForest, List.map_flatMap, map_fst_describe]
  rw [names, List.nodup_map_iff injective]
  refine List.nodup_flatMap.mpr ⟨fun resource member => paths_nodup (each resource member) _, ?_⟩
  exact apart.imp fun {first second} incomparable =>
    @disjoint_of_incomparable _ _ _ first.2 second.2 [] first.1 second.1 incomparable

end Resource

end Library
