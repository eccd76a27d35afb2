import CatalogBroker.Crawler.PolicyParser
import CatalogBroker.Library.Listing

/-! No entry of a harvested policy is dropped.

What each entry becomes is stated by a relation between the JSON and the parsed value: lists
of entries and of results correspond one to one, and what cannot be held leaves a marker.
-/

set_option autoImplicit false

namespace CatalogBroker

open Library

/-- What a node holds under a term, over all spellings of its key. -/
def heldUnder (value : Json) (name : String) : List Json := (spellings name).filterMap value.get?

theorem aliasedAll_eq (value : Json) (name : String) : aliasedAll value name = heldUnder value name := rfl

/-- The entries a node has for a term, over all spellings of its key. -/
def entriesUnder (value : Json) (name : String) : List Json :=
  (spellings name).flatMap fun key => match value.get? key with
    | some found => oneOrMany found
    | none => []

theorem oneOrManyAliased_eq (value : Json) (name : String) : oneOrManyAliased value name = entriesUnder value name := by
  rw [oneOrManyAliased, aliasedAll_eq, heldUnder, entriesUnder]
  induction spellings name with
  | nil => rfl
  | cons key keys ih => cases found : value.get? key <;> simp [found, ih]

/-- The key of `name` is there under exactly one spelling, and holds the scalar `text`. -/
def ReadsScalar (value : Json) (name text : String) : Prop :=
  ∃ raw, heldUnder value name = [raw] ∧ jsonLdScalar raw = some text

structure ReadsAtomic (value : Json) (leaf : AtomicConstraint) : Prop where
  left : ReadsScalar value "leftOperand" leaf.leftOperand
  operator : ReadsScalar value "operator" leaf.operator
  right : ReadsScalar value "rightOperand" leaf.rightOperand
  ungrouped : logicalPresent value = []

/-- One kind of logical key, and no atomic key. -/
structure ReadsGroup (value : Json) (key : String) (operator : LogicalOperator) : Prop where
  only : logicalPresent value = [(key, operator)]
  unmixed : hasAtomicKey value = false

/-- What a constraint entry at `depth` is kept as: its atomic reading, the group of its children, or,
exactly when it has neither reading, a marker. -/
inductive ConstraintKept : Nat → Json → Constraint → Prop
  | atomic {depth : Nat} {value : Json} {leaf : AtomicConstraint} (reads : ReadsAtomic value leaf) :
    ConstraintKept depth value (.atomic leaf)
  | group {depth : Nat} {value : Json} {key : String} {operator : LogicalOperator} {children : List Constraint}
    (reads : ReadsGroup value key operator) (shallow : depth < maxConstraintDepth)
    (all : (entriesUnder value key).length = children.length)
    (below : ∀ pair ∈ (entriesUnder value key).zip children, ConstraintKept (depth + 1) pair.1 pair.2) :
    ConstraintKept depth value (.logical operator children)
  | marker {depth : Nat} {value : Json} (notAtomic : ∀ leaf, ¬ ReadsAtomic value leaf)
    (notGroup : ∀ key operator, ReadsGroup value key operator → maxConstraintDepth ≤ depth) :
    ConstraintKept depth value (.unmappable value.text)

def Rule.HasMarker (rule : Rule) : Prop := ∃ constraint ∈ rule.constraints, constraint.isUnmappable = true

def Policy.HasMarker (policy : Policy) : Prop := ∃ rule ∈ policy.rules, rule.HasMarker

structure RuleKept (entry : Json) (rule : Rule) : Prop where
  constraints : ∃ before parsed after, rule.constraints = before ++ parsed ++ after ∧
    List.Forall₂ (ConstraintKept 0) (entriesUnder entry "constraint") parsed ∧
    ∀ constraint ∈ before ++ after, constraint.isUnmappable = true
  action : ∀ action, ReadsScalar entry "action" action → rule.action = normalizeAction action
  unreadAction : (∀ action, ¬ ReadsScalar entry "action" action) → rule.HasMarker
  unheldKey : ∀ key ∈ ["assignee", "target", "duty"], heldUnder entry key ≠ [] → rule.HasMarker
  notNode : entry.isObject = false → rule.HasMarker

structure PolicyKept (entry : Json) (policy : Policy) : Prop where
  permissions : List.Forall₂ RuleKept (entriesUnder entry "permission") policy.permissions
  prohibitions : List.Forall₂ RuleKept (entriesUnder entry "prohibition") policy.prohibitions
  obligations : ∃ parsed markers, policy.obligations = parsed ++ markers ∧
    List.Forall₂ RuleKept (entriesUnder entry "obligation") parsed ∧
    ∀ rule ∈ markers, ∃ raw, rule = unmappableRule raw
  assignee : ∀ assignee, ReadsScalar entry "assignee" assignee → policy.assignee = some assignee
  unreadAssignee : heldUnder entry "assignee" ≠ [] → (∀ assignee, ¬ ReadsScalar entry "assignee" assignee) →
    policy.HasMarker
  ruleless : (∀ key ∈ ruleKeys, heldUnder entry key = []) → policy.HasMarker
  notNode : entry.isObject = false → policy.HasMarker

theorem aliasedAll_eq_nil_of_no_atomicKey {value : Json} (unmixed : hasAtomicKey value = false) {key : String}
    (listed : key ∈ ["leftOperand", "operator", "rightOperand"]) : aliasedAll value key = [] := by
  rw [hasAtomicKey, List.any_eq_false] at unmixed
  simpa using unmixed key listed

theorem readsScalar_iff {value : Json} {name text : String} :
    ReadsScalar value name text ↔ getField value name = .value text := getField_eq_value_iff.symm

theorem parseConstraintWithin_atomic {levels : Nat} {value : Json} {leaf : AtomicConstraint}
    (reads : ReadsAtomic value leaf) : parseConstraintWithin (levels + 1) value = .atomic leaf := by
  rw [parseConstraintWithin]
  simp only [reads.ungrouped, readsScalar_iff.mp reads.left, readsScalar_iff.mp reads.operator,
    readsScalar_iff.mp reads.right]
  simp

theorem parseConstraintWithin_group {levels : Nat} {value : Json} {key : String} {operator : LogicalOperator}
    (reads : ReadsGroup value key operator) : parseConstraintWithin (levels + 1) value =
      if levels = 0 then .unmappable value.text
      else .logical operator ((oneOrManyAliased value key).map (parseConstraintWithin levels)) := by
  have absent : getField value "leftOperand" = .absent :=
    getField_eq_absent_iff.mpr (aliasedAll_eq_nil_of_no_atomicKey reads.unmixed (by simp))
  rw [parseConstraintWithin]
  simp [reads.only, reads.unmixed, absent]

theorem parseConstraintWithin_marker {levels : Nat} {value : Json} (notAtomic : ∀ leaf, ¬ ReadsAtomic value leaf)
    (notGroup : ∀ key operator, ¬ ReadsGroup value key operator) :
    parseConstraintWithin (levels + 1) value = .unmappable value.text := by
  rw [parseConstraintWithin]
  by_cases mixed : (logicalPresent value).length > 1 ∨ (hasAtomicKey value ∧ logicalPresent value ≠ [])
  · exact if_pos mixed
  have ungrouped : logicalPresent value = [] := by
    cases present : logicalPresent value with
    | nil => rfl
    | cons builder others =>
      rw [present] at mixed
      cases others with
      | nil =>
        cases unmixed : hasAtomicKey value with
        | true => simp [unmixed] at mixed
        | false => exact absurd ⟨present, unmixed⟩ (notGroup builder.1 builder.2)
      | cons other others => simp at mixed
  simp only [if_neg mixed]
  split
  next left operator right leftRead operatorRead rightRead =>
    exact absurd ⟨readsScalar_iff.mpr leftRead, readsScalar_iff.mpr operatorRead, readsScalar_iff.mpr rightRead,
      ungrouped⟩ (notAtomic ⟨left, operator, right⟩)
  next => simp [ungrouped]

/-- The three outcomes of an entry. -/
theorem reads_cases (value : Json) :
    (∃ leaf, ReadsAtomic value leaf) ∨ (∃ key operator, ReadsGroup value key operator) ∨
    (∀ leaf, ¬ ReadsAtomic value leaf) ∧ ∀ key operator, ¬ ReadsGroup value key operator := by
  by_cases atomic : ∃ leaf, ReadsAtomic value leaf
  · exact .inl atomic
  · by_cases group : ∃ key operator, ReadsGroup value key operator
    · exact .inr (.inl group)
    · exact .inr (.inr ⟨by simpa using atomic, by simpa using group⟩)

theorem ReadsGroup.not_readsAtomic {value : Json} {key : String} {operator : LogicalOperator}
    (reads : ReadsGroup value key operator) (leaf : AtomicConstraint) : ¬ ReadsAtomic value leaf := by
  intro atomic
  have only := reads.only
  rw [atomic.ungrouped] at only
  cases only

theorem parseConstraintWithin_kept (levels : Nat) (value : Json) {depth : Nat}
    (within : depth + levels = maxConstraintDepth) :
    ConstraintKept depth value (parseConstraintWithin (levels + 1) value) := by
  induction levels generalizing value depth with
  | zero =>
    rcases reads_cases value with ⟨leaf, atomic⟩ | ⟨key, operator, group⟩ | ⟨notAtomic, notGroup⟩
    · rw [parseConstraintWithin_atomic atomic]
      exact .atomic atomic
    · rw [parseConstraintWithin_group group, if_pos rfl]
      exact .marker group.not_readsAtomic fun _ _ _ => by omega
    · rw [parseConstraintWithin_marker notAtomic notGroup]
      exact .marker notAtomic fun key operator group => absurd group (notGroup key operator)
  | succ levels ih =>
    rcases reads_cases value with ⟨leaf, atomic⟩ | ⟨key, operator, group⟩ | ⟨notAtomic, notGroup⟩
    · rw [parseConstraintWithin_atomic atomic]
      exact .atomic atomic
    · rw [parseConstraintWithin_group group, if_neg (by omega), oneOrManyAliased_eq]
      refine .group group (by omega) (List.length_map _).symm fun pair member => ?_
      rw [Listing.zip_map_self, List.mem_map] at member
      obtain ⟨entry, _, rfl⟩ := member
      exact ih entry (by omega)
    · rw [parseConstraintWithin_marker notAtomic notGroup]
      exact .marker notAtomic fun key operator group => absurd group (notGroup key operator)

@[simp] theorem unmappableRule_hasMarker (raw : Json) : (unmappableRule raw).HasMarker :=
  ⟨.unmappable raw.text, by simp [unmappableRule], by simp⟩

theorem entriesUnder_of_not_object {value : Json} (scalar : value.isObject = false) (name : String) :
    entriesUnder value name = [] := by
  rw [← oneOrManyAliased_eq, oneOrManyAliased, aliasedAll_of_not_object scalar]
  rfl

theorem not_readsScalar_of_not_object {value : Json} (scalar : value.isObject = false) (name text : String) :
    ¬ ReadsScalar value name text := by
  rintro ⟨raw, found, _⟩
  rw [← aliasedAll_eq, aliasedAll_of_not_object scalar] at found
  cases found

theorem isUnmappable_of_unheldKeyMarker {value : Json} {key : String} {constraint : Constraint}
    (marker : unheldKeyMarker value key = some constraint) : constraint.isUnmappable = true := by
  rw [unheldKeyMarker] at marker
  split at marker
  · cases marker
  · cases marker
    simp

theorem parseRule_node {value : Json} (node : value.isObject = true) : ∃ markers,
    (parseRule value).constraints = markers ++ parseConstraints (entriesUnder value "constraint") ++
        ["assignee", "target", "duty"].filterMap (unheldKeyMarker value) ∧
      ((∃ action, ReadsScalar value "action" action ∧ (parseRule value).action = normalizeAction action ∧
          markers = []) ∨
        (∀ action, ¬ ReadsScalar value "action" action) ∧ (parseRule value).action = unmappableAction ∧
          markers = [.unmappable value.text]) := by
  rw [parseRule, node, ← oneOrManyAliased_eq]
  simp only [Bool.not_true, Bool.false_eq_true, if_false, readsScalar_iff]
  cases read : getField value "action" with
  | value action => exact ⟨[], rfl, .inl ⟨action, rfl, rfl, rfl⟩⟩
  | absent => exact ⟨_, rfl, .inr ⟨by simp, rfl, rfl⟩⟩
  | unreadable => exact ⟨_, rfl, .inr ⟨by simp, rfl, rfl⟩⟩

theorem parseConstraints_kept (entries : List Json) :
    List.Forall₂ (ConstraintKept 0) entries (parseConstraints entries) :=
  Listing.forall₂_map fun entry _ => parseConstraintWithin_kept maxConstraintDepth entry (Nat.zero_add _)

theorem parseRule_kept (entry : Json) : RuleKept entry (parseRule entry) := by
  cases node : entry.isObject with
  | false =>
    -- An entry that is no node has no members to keep: its marker stands for all of it.
    have marked : parseRule entry = unmappableRule entry := by rw [parseRule, node]; rfl
    rw [marked]
    exact
      { constraints := ⟨[.unmappable entry.text], [], [], rfl,
          by rw [entriesUnder_of_not_object node]; exact .nil, by simp⟩
        action := fun action reads => absurd reads (not_readsScalar_of_not_object node _ _)
        unreadAction := fun _ => unmappableRule_hasMarker entry
        unheldKey := fun _ _ _ => unmappableRule_hasMarker entry
        notNode := fun _ => unmappableRule_hasMarker entry }
  | true =>
    -- A node keeps its constraints in order, before them its markers, after them those of keys a rule cannot hold.
    obtain ⟨markers, constraints, action⟩ := parseRule_node node
    have marked : ∀ constraint ∈ markers ++ ["assignee", "target", "duty"].filterMap (unheldKeyMarker entry),
        constraint.isUnmappable = true := by
      intro constraint member
      rcases List.mem_append.mp member with first | last
      · rcases action with ⟨_, _, _, rfl⟩ | ⟨_, _, rfl⟩
        · cases first
        · rw [List.mem_singleton.mp first]
          simp
      · obtain ⟨key, _, marker⟩ := List.mem_filterMap.mp last
        exact isUnmappable_of_unheldKeyMarker marker
    exact
      { constraints := ⟨markers, _, _, constraints, parseConstraints_kept _, marked⟩
        action := by
          intro read reads
          rcases action with ⟨found, readsFound, same, _⟩ | ⟨none, _⟩
          · have equal := (readsScalar_iff.mp readsFound).symm.trans (readsScalar_iff.mp reads)
            rw [same, Field.value.inj equal]
          · exact absurd reads (none read)
        unreadAction := by
          intro none
          rcases action with ⟨found, reads, _⟩ | ⟨_, _, same⟩
          · exact absurd reads (none found)
          · exact ⟨.unmappable entry.text, by simp [constraints, same], by simp⟩
        unheldKey := by
          intro key listed present
          rw [← aliasedAll_eq] at present
          have marker : unheldKeyMarker entry key = some (.unmappable (key ++ ": " ++
              ", ".intercalate ((aliasedAll entry key).map Json.text))) := by
            simp [unheldKeyMarker, present]
          refine ⟨_, ?_, isUnmappable_of_unheldKeyMarker marker⟩
          rw [constraints]
          exact List.mem_append_right _ (List.mem_filterMap.mpr ⟨key, listed, marker⟩)
        notNode := by simp [node] }

theorem parseRules_kept (value : Json) (key : String) :
    List.Forall₂ RuleKept (entriesUnder value key) (parseRules value key) := by
  rw [parseRules, oneOrManyAliased_eq]
  exact Listing.forall₂_map fun entry _ => parseRule_kept entry

theorem parsePolicy_obligations (value : Json) : ∃ ruleless unread,
    (parsePolicy value).obligations = parseRules value "obligation" ++ ruleless ++ unread ∧
      (ruleless = [unmappableRule value] ∨ ruleless = [] ∧ ∃ key ∈ ruleKeys, aliasedAll value key ≠ []) ∧
      (unread = [] ∧ (∃ assignee, ReadsScalar value "assignee" assignee ∧
          (parsePolicy value).assignee = some assignee) ∨
        unread = [] ∧ aliasedAll value "assignee" = [] ∨
        unread = [unmappableRule (assigneeExcerpt value)] ∧ ∀ assignee, ¬ ReadsScalar value "assignee" assignee) := by
  have keyed : ∀ ruleless, ruleless = (if ruleKeys.all fun key => (aliasedAll value key).isEmpty
      then [unmappableRule value] else []) →
      ruleless = [unmappableRule value] ∨ ruleless = [] ∧ ∃ key ∈ ruleKeys, aliasedAll value key ≠ [] := by
    rintro ruleless rfl
    split
    · exact .inl rfl
    next keyed => exact .inr ⟨rfl, by simpa using keyed⟩
  unfold parsePolicy
  simp only [readsScalar_iff, ← getField_eq_absent_iff]
  cases getField value "assignee" with
  | value assignee => exact ⟨_, _, rfl, keyed _ rfl, .inl ⟨rfl, assignee, rfl, rfl⟩⟩
  | absent => exact ⟨_, _, rfl, keyed _ rfl, .inr (.inl ⟨rfl, rfl⟩)⟩
  | unreadable => exact ⟨_, _, rfl, keyed _ rfl, .inr (.inr ⟨rfl, by simp⟩)⟩

theorem Policy.hasMarker_of_obligation {policy : Policy} (raw : Json)
    (listed : unmappableRule raw ∈ policy.obligations) : policy.HasMarker :=
  ⟨unmappableRule raw, by simp [Policy.rules, listed], unmappableRule_hasMarker raw⟩

theorem parsePolicy_kept (value : Json) (node : value.isObject = true) : PolicyKept value (parsePolicy value) := by
  -- Whatever cannot be kept in its own place is kept as a marker among the obligations.
  obtain ⟨ruleless, unread, obligations, keyless, assignee⟩ := parsePolicy_obligations value
  exact
    { permissions := parseRules_kept value "permission"
      prohibitions := parseRules_kept value "prohibition"
      obligations := by
        refine ⟨_, ruleless ++ unread, by rw [obligations, List.append_assoc], parseRules_kept value "obligation", ?_⟩
        intro rule member
        rcases List.mem_append.mp member with first | last
        · rcases keyless with rfl | ⟨rfl, _⟩
          · exact ⟨value, List.mem_singleton.mp first⟩
          · cases first
        · rcases assignee with ⟨rfl, _⟩ | ⟨rfl, _⟩ | ⟨rfl, _⟩
          · cases last
          · cases last
          · exact ⟨assigneeExcerpt value, List.mem_singleton.mp last⟩
      assignee := by
        intro read reads
        rcases assignee with ⟨_, found, readsFound, same⟩ | ⟨_, absent⟩ | ⟨_, none⟩
        · have equal := (readsScalar_iff.mp readsFound).symm.trans (readsScalar_iff.mp reads)
          rw [same, Field.value.inj equal]
        · obtain ⟨raw, found, _⟩ := reads
          rw [← aliasedAll_eq, absent] at found
          cases found
        · exact absurd reads (none read)
      unreadAssignee := by
        intro present none
        rcases assignee with ⟨_, found, reads, _⟩ | ⟨_, absent⟩ | ⟨marked, _⟩
        · exact absurd reads (none found)
        · exact absurd absent present
        · exact Policy.hasMarker_of_obligation (assigneeExcerpt value) (by simp [obligations, marked])
      ruleless := by
        intro none
        rcases keyless with marked | ⟨_, key, listed, present⟩
        · exact Policy.hasMarker_of_obligation value (by simp [obligations, marked])
        · exact absurd (none key listed) present
      notNode := by simp [node] }

theorem parsePolicyEntry_kept (entry : Json) : PolicyKept entry (parsePolicyEntry entry) := by
  cases node : entry.isObject with
  | true =>
    rw [parsePolicyEntry, node, if_pos rfl]
    exact parsePolicy_kept entry node
  | false =>
    rw [parsePolicyEntry, node]
    have marked : Policy.HasMarker ⟨none, .default, none, none, [], [], [unmappableRule entry]⟩ :=
      Policy.hasMarker_of_obligation entry (by simp)
    have entries := entriesUnder_of_not_object node
    exact
      { permissions := by rw [entries]; exact .nil
        prohibitions := by rw [entries]; exact .nil
        obligations := ⟨[], [unmappableRule entry], rfl, by rw [entries]; exact .nil,
          fun rule member => ⟨entry, List.mem_singleton.mp member⟩⟩
        assignee := fun _ reads => absurd reads (not_readsScalar_of_not_object node _ _)
        unreadAssignee := fun _ _ => marked
        ruleless := fun _ => marked
        notNode := fun _ => marked }

/-- Every policy entry of a dataset node is kept: one policy an entry, in each one rule an entry of its kind,
in each rule one constraint an entry and in each group one child an entry, markers apart; whatever
cannot be held leaves a marker. -/
theorem parsePolicies_kept (datasetValue : Json) :
    List.Forall₂ PolicyKept (entriesUnder datasetValue "hasPolicy") (parsePolicies datasetValue) := by
  rw [parsePolicies, oneOrManyAliased_eq]
  exact Listing.forall₂_map fun entry _ => parsePolicyEntry_kept entry

-- One offer with one rule, under mixed spellings; its second constraint is no node.
example : (parsePolicies (.object [("odrl:hasPolicy", .object [("permission", .object [("odrl:action", .string "use"),
    ("constraint", .array [.object [("leftOperand", .string "purpose"), ("operator", .string "eq"),
      ("http://www.w3.org/ns/odrl/2/rightOperand", .string "research")], .string "unread"])])])])).map
    (fun policy => policy.permissions.map fun rule => (rule.action, rule.constraints)) =
      [[("odrl:use", [.atomic ⟨"purpose", "eq", "research"⟩, .unmappable "\"unread\""])]] := by
  decide +kernel

theorem Constraint.height_of_isUnmappable {constraint : Constraint} (marker : constraint.isUnmappable = true) :
    constraint.height = 0 := by
  cases constraint with
  | atomic leaf => rfl
  | logical operator children => cases marker

theorem ConstraintKept.height_le {depth : Nat} {value : Json} {constraint : Constraint}
    (kept : ConstraintKept depth value constraint) (within : depth ≤ maxConstraintDepth) :
    constraint.height + depth ≤ maxConstraintDepth := by
  induction kept with
  | atomic => simpa [Constraint.height] using within
  | @group depth value key operator children reads shallow all below ih =>
    have each : ∀ child ∈ children, child.height + 1 ≤ maxConstraintDepth - depth := by
      intro child member
      obtain ⟨index, bound, rfl⟩ := List.mem_iff_getElem.mp member
      have paired : ((entriesUnder value key)[index], children[index]) ∈ (entriesUnder value key).zip children :=
        List.mem_iff_getElem.mpr ⟨index, by simpa [all] using bound, by simp⟩
      have deeper := ih _ paired (by omega)
      simp only at deeper
      omega
    have height : (Constraint.logical operator children).height ≤ maxConstraintDepth - depth :=
      Constraint.height_logical_le_iff.mpr each
    omega
  | marker => simpa [Constraint.height, Constraint.unmappable] using within

theorem RuleKept.height_le {entry : Json} {rule : Rule} (kept : RuleKept entry rule) :
    ∀ constraint ∈ rule.constraints, constraint.height ≤ maxConstraintDepth := by
  obtain ⟨before, parsed, after, constraints, each, markers⟩ := kept.constraints
  intro constraint member
  rw [constraints, List.append_assoc, List.mem_append, List.mem_append] at member
  have marker : constraint ∈ before ∨ constraint ∈ after → constraint.height ≤ maxConstraintDepth := by
    intro added
    rw [Constraint.height_of_isUnmappable (markers constraint (List.mem_append.mpr added))]
    omega
  rcases member with first | listed | last
  · exact marker (.inl first)
  · obtain ⟨value, _, found⟩ := Listing.exists_of_forall₂ each listed
    simpa using found.height_le (Nat.zero_le _)
  · exact marker (.inr last)

theorem PolicyKept.nestsWithin {entry : Json} {policy : Policy} (kept : PolicyKept entry policy) :
    policy.NestsWithin maxConstraintDepth := by
  obtain ⟨parsed, markers, obligations, each, added⟩ := kept.obligations
  have rules : ∀ rule ∈ policy.rules, (∃ raw, rule = unmappableRule raw) ∨ ∃ value, RuleKept value rule := by
    intro rule member
    rw [Policy.rules, obligations, List.mem_append, List.mem_append, List.mem_append] at member
    rcases member with (permission | prohibition) | obligation | marker
    · exact .inr ((Listing.exists_of_forall₂ kept.permissions permission).imp fun _ found => found.2)
    · exact .inr ((Listing.exists_of_forall₂ kept.prohibitions prohibition).imp fun _ found => found.2)
    · exact .inr ((Listing.exists_of_forall₂ each obligation).imp fun _ found => found.2)
    · exact .inl (added rule marker)
  intro rule member
  rcases rules rule member with ⟨raw, rfl⟩ | ⟨value, found⟩
  · intro constraint listed
    rw [List.mem_singleton.mp listed]
    exact Nat.zero_le _
  · exact found.height_le

theorem parsePolicies_nestWithin (datasetValue : Json) :
    ∀ policy ∈ parsePolicies datasetValue, policy.NestsWithin maxConstraintDepth := by
  intro policy member
  rw [parsePolicies, List.mem_map] at member
  obtain ⟨entry, _, rfl⟩ := member
  exact (parsePolicyEntry_kept entry).nestsWithin

end CatalogBroker
