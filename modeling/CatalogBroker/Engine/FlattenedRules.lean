import CatalogBroker.Engine.Evaluate

/-! The decision read off the flattened rules of a request, and what leaves it unchanged. -/

set_option autoImplicit false

namespace CatalogBroker.PolicyEngine

variable {claims : Claims}

theorem combineOutcomes_miss {outcome : Outcome} {constraints : List Constraint} (started : outcome ≠ .miss) :
    combineOutcomes claims outcome constraints = .miss ↔
      ∃ constraint ∈ constraints, constraintOutcome claims constraint = .miss := by
  induction constraints generalizing outcome with
  | nil => simpa [combineOutcomes] using started
  | cons constraint constraints ih =>
    rw [combineOutcomes, List.exists_mem_cons_iff]
    cases found : constraintOutcome claims constraint with
    | miss => simp
    | unevaluable => simp [ih (by simp : Outcome.unevaluable ≠ .miss)]
    | hit => simp [ih started]

theorem combineOutcomes_hit {outcome : Outcome} {constraints : List Constraint} :
    combineOutcomes claims outcome constraints = .hit ↔
      outcome = .hit ∧ ∀ constraint ∈ constraints, constraintOutcome claims constraint = .hit := by
  induction constraints generalizing outcome with
  | nil => simp [combineOutcomes]
  | cons constraint constraints ih =>
    rw [combineOutcomes, List.forall_mem_cons]
    cases found : constraintOutcome claims constraint with
    | miss => simp
    | unevaluable => simp [ih]
    | hit => simp [ih]

/-- No constraint of the rule is a definite miss. -/
def Rule.Applies (claims : Claims) (rule : Rule) : Prop :=
  ∀ constraint ∈ rule.constraints, constraintOutcome claims constraint ≠ .miss

/-- Every constraint of the rule definitely matches. -/
def Rule.Matches (claims : Claims) (rule : Rule) : Prop :=
  ∀ constraint ∈ rule.constraints, constraintOutcome claims constraint = .hit

theorem ruleOutcome_ne_miss_iff {rule : Rule} : ruleOutcome claims rule ≠ .miss ↔ rule.Applies claims := by
  rw [ruleOutcome, Ne, combineOutcomes_miss (by simp), Rule.Applies]
  push Not
  rfl

theorem ruleOutcome_hit_iff {rule : Rule} : ruleOutcome claims rule = .hit ↔ rule.Matches claims := by
  rw [ruleOutcome, combineOutcomes_hit, Rule.Matches]
  simp

theorem prohibitionReason_isSome {policy : Policy} {index : Nat} {rules : List Rule} :
    (prohibitionReason claims policy index rules).isSome = true ↔ ∃ rule ∈ rules, rule.Applies claims := by
  induction rules generalizing index with
  | nil => simp [prohibitionReason]
  | cons rule rules ih =>
    rw [prohibitionReason, List.exists_mem_cons_iff, ← ruleOutcome_ne_miss_iff]
    by_cases applies : ruleOutcome claims rule ≠ .miss
    · simp [applies]
    · rw [if_neg applies, ih]
      simp [applies]

theorem permissionReason_isSome {policy : Policy} {index : Nat} {rules : List Rule} :
    (permissionReason claims policy index rules).isSome = true ↔ ∃ rule ∈ rules, rule.Matches claims := by
  induction rules generalizing index with
  | nil => simp [permissionReason]
  | cons rule rules ih =>
    rw [permissionReason, List.exists_mem_cons_iff, ← ruleOutcome_hit_iff]
    by_cases hits : ruleOutcome claims rule = .hit
    · simp [hits]
    · rw [if_neg hits, ih]
      simp [hits]

/-- Some prohibition of any policy has no constraint that is a definite miss. -/
def Prohibits (claims : Claims) (policies : List Policy) : Prop :=
  ∃ policy ∈ policies, ∃ rule ∈ policy.prohibitions, rule.Applies claims

def DeclaresPermission (policies : List Policy) : Prop := ∃ policy ∈ policies, policy.permissions ≠ []

/-- Some permission of any policy has only constraints that definitely match. -/
def Permits (claims : Claims) (policies : List Policy) : Prop :=
  ∃ policy ∈ policies, ∃ rule ∈ policy.permissions, rule.Matches claims

theorem evaluate_deny_iff (request : EvaluateRequest) : (evaluate request).decision = .deny ↔
    Prohibits request.claims request.policies ∨ DeclaresPermission request.policies ∧
      ¬ Permits request.claims request.policies := by
  have prohibits : (request.policies.findSome? fun policy =>
      prohibitionReason request.claims policy 0 policy.prohibitions).isSome = true ↔
        Prohibits request.claims request.policies := by
    simp only [List.findSome?_isSome_iff, prohibitionReason_isSome, Prohibits]
  have permits : (request.policies.findSome? fun policy =>
      permissionReason request.claims policy 0 policy.permissions).isSome = true ↔
        Permits request.claims request.policies := by
    simp only [List.findSome?_isSome_iff, permissionReason_isSome, Permits]
  have declares : (request.policies.any fun policy => !policy.permissions.isEmpty) = true ↔
      DeclaresPermission request.policies := by
    simp [DeclaresPermission]
  rw [← prohibits, ← permits, ← declares]
  unfold evaluate
  cases request.policies.findSome? fun policy => prohibitionReason request.claims policy 0 policy.prohibitions with
  | some reason => simp
  | none =>
    cases request.policies.any fun policy => !policy.permissions.isEmpty with
    | false => simp
    | true =>
      cases request.policies.findSome? fun policy => permissionReason request.claims policy 0 policy.permissions with
      | some reason => simp
      | none => simp

/-- Rules with the same constraints in any order; their actions may differ. -/
def Rule.Reordered (rule other : Rule) : Prop := rule.constraints.Perm other.constraints

/-- One change of a list of policies. -/
inductive Rearranges : List Policy → List Policy → Prop
  | policies {policies others : List Policy} (order : policies.Perm others) : Rearranges policies others
  /-- Constraints in another order, any actions, and any id, kind, parties and obligations. -/
  | rewrite {policy other : Policy} {rest : List Policy}
    (permissions : List.Forall₂ Rule.Reordered policy.permissions other.permissions)
    (prohibitions : List.Forall₂ Rule.Reordered policy.prohibitions other.prohibitions) :
    Rearranges (policy :: rest) (other :: rest)
  | rules {policy other : Policy} {rest : List Policy} (permissions : policy.permissions.Perm other.permissions)
    (prohibitions : policy.prohibitions.Perm other.prohibitions) : Rearranges (policy :: rest) (other :: rest)
  | duplicatePermission {policy other : Policy} {rest : List Policy} {rule : Rule} (listed : rule ∈ policy.permissions)
    (permissions : other.permissions = rule :: policy.permissions)
    (prohibitions : other.prohibitions = policy.prohibitions) : Rearranges (policy :: rest) (other :: rest)
  | duplicateProhibition {policy other : Policy} {rest : List Policy} {rule : Rule}
    (listed : rule ∈ policy.prohibitions) (permissions : other.permissions = policy.permissions)
    (prohibitions : other.prohibitions = rule :: policy.prohibitions) : Rearranges (policy :: rest) (other :: rest)
  /-- One policy into two, which hold its rules between them. -/
  | split {policy first second : Policy} {rest : List Policy}
    (permissions : policy.permissions = first.permissions ++ second.permissions)
    (prohibitions : policy.prohibitions = first.prohibitions ++ second.prohibitions) :
    Rearranges (policy :: rest) (first :: second :: rest)

/-- What the decision reads of a list of policies. -/
structure SameRules (claims : Claims) (policies others : List Policy) : Prop where
  prohibits : Prohibits claims policies ↔ Prohibits claims others
  declares : DeclaresPermission policies ↔ DeclaresPermission others
  permits : Permits claims policies ↔ Permits claims others

theorem exists_forall₂ {property : Rule → Prop} {rules others : List Rule}
    (same : List.Forall₂ Rule.Reordered rules others)
    (kept : ∀ rule other, Rule.Reordered rule other → (property rule ↔ property other)) :
    (∃ rule ∈ rules, property rule) ↔ ∃ rule ∈ others, property rule := by
  induction same with
  | nil => simp
  | cons first _ ih => rw [List.exists_mem_cons_iff, List.exists_mem_cons_iff, kept _ _ first, ih]

theorem Rule.Reordered.applies_iff {rule other : Rule} (same : rule.Reordered other) :
    rule.Applies claims ↔ other.Applies claims :=
  ⟨fun applies constraint listed => applies constraint (same.mem_iff.mpr listed),
    fun applies constraint listed => applies constraint (same.mem_iff.mp listed)⟩

theorem Rule.Reordered.matches_iff {rule other : Rule} (same : rule.Reordered other) :
    rule.Matches claims ↔ other.Matches claims :=
  ⟨fun hits constraint listed => hits constraint (same.mem_iff.mpr listed),
    fun hits constraint listed => hits constraint (same.mem_iff.mp listed)⟩

theorem SameRules.head {policy other : Policy} {rest : List Policy}
    (prohibits : (∃ rule ∈ policy.prohibitions, rule.Applies claims) ↔ ∃ rule ∈ other.prohibitions, rule.Applies claims)
    (declares : policy.permissions = [] ↔ other.permissions = [])
    (permits : (∃ rule ∈ policy.permissions, rule.Matches claims) ↔ ∃ rule ∈ other.permissions, rule.Matches claims) :
    SameRules claims (policy :: rest) (other :: rest) where
  prohibits := by rw [Prohibits, Prohibits, List.exists_mem_cons_iff, List.exists_mem_cons_iff, prohibits]
  declares := by
    rw [DeclaresPermission, DeclaresPermission, List.exists_mem_cons_iff, List.exists_mem_cons_iff, Ne, declares]
  permits := by rw [Permits, Permits, List.exists_mem_cons_iff, List.exists_mem_cons_iff, permits]

theorem Rearranges.sameRules {policies others : List Policy} (step : Rearranges policies others) :
    SameRules claims policies others := by
  cases step with
  | policies order =>
    constructor
    · simp only [Prohibits, order.mem_iff]
    · simp only [DeclaresPermission, order.mem_iff]
    · simp only [Permits, order.mem_iff]
  | rewrite permissions prohibitions =>
    apply SameRules.head
    · exact exists_forall₂ prohibitions fun _ _ same => same.applies_iff
    · rw [← List.length_eq_zero_iff, ← List.length_eq_zero_iff, permissions.length_eq]
    · exact exists_forall₂ permissions fun _ _ same => same.matches_iff
  | rules permissions prohibitions =>
    apply SameRules.head
    · simp only [prohibitions.mem_iff]
    · rw [← List.length_eq_zero_iff, ← List.length_eq_zero_iff, permissions.length_eq]
    · simp only [permissions.mem_iff]
  | duplicatePermission listed permissions prohibitions =>
    apply SameRules.head
    · rw [prohibitions]
    -- A repeated permission is declared already, and matches where its original does.
    · simp [permissions, List.ne_nil_of_mem listed]
    · rw [permissions, List.exists_mem_cons_iff]
      exact ⟨.inr, fun found => found.elim (fun hits => ⟨_, listed, hits⟩) id⟩
  | duplicateProhibition listed permissions prohibitions =>
    apply SameRules.head
    · rw [prohibitions, List.exists_mem_cons_iff]
      exact ⟨.inr, fun found => found.elim (fun applies => ⟨_, listed, applies⟩) id⟩
    · rw [permissions]
    · rw [permissions]
  | split permissions prohibitions =>
    constructor
    · simp only [Prohibits, List.exists_mem_cons_iff, prohibitions, List.mem_append, or_and_right, exists_or, or_assoc]
    · simp only [DeclaresPermission, List.exists_mem_cons_iff, permissions, ne_eq, List.append_eq_nil_iff,
        not_and_or, or_assoc]
    · simp only [Permits, List.exists_mem_cons_iff, permissions, List.mem_append, or_and_right, exists_or, or_assoc]

theorem sameRules_of_rearranged {policies others : List Policy} (same : Relation.EqvGen Rearranges policies others) :
    SameRules claims policies others := by
  induction same with
  | rel _ _ step => exact step.sameRules
  | refl _ => exact ⟨.rfl, .rfl, .rfl⟩
  | symm _ _ _ ih => exact ⟨ih.prohibits.symm, ih.declares.symm, ih.permits.symm⟩
  | trans _ _ _ _ _ first second =>
    exact ⟨first.prohibits.trans second.prohibits, first.declares.trans second.declares,
      first.permits.trans second.permits⟩

/-- The decision is that of the flattened rules, and no rearrangement of the policies changes it. -/
theorem decision_of_flattened_rules (request : EvaluateRequest) :
    ((evaluate request).decision = .deny ↔ Prohibits request.claims request.policies ∨
      ¬ Prohibits request.claims request.policies ∧ DeclaresPermission request.policies ∧
        ¬ Permits request.claims request.policies) ∧
    ((evaluate request).decision ≠ .deny → (evaluate request).decision = .allow) ∧
    ∀ other : EvaluateRequest, other.claims = request.claims →
      Relation.EqvGen Rearranges request.policies other.policies →
        (evaluate other).decision = (evaluate request).decision := by
  have verdict (left right : Decision) (same : left = .deny ↔ right = .deny) : left = right := by
    cases left <;> cases right <;> simp_all
  refine ⟨?_, ?_, ?_⟩
  · rw [evaluate_deny_iff]
    tauto
  · cases (evaluate request).decision <;> simp
  · intro other claims rearranged
    have same : SameRules request.claims request.policies other.policies := sameRules_of_rearranged rearranged
    apply verdict
    rw [evaluate_deny_iff, evaluate_deny_iff, claims, same.prohibits, same.declares, same.permits]

def residentsOnly : Policy :=
  ⟨none, .offer, none, none, [⟨"use", [⟨"nationality", "eq", "DE"⟩]⟩], [⟨"sell", [⟨"role", "eq", "guest"⟩]⟩], []⟩

theorem residentsOnly_split_alike :
    (evaluate
      ⟨"cars", [{ residentsOnly with prohibitions := [] }, { residentsOnly with permissions := [] }], ∅⟩).decision =
      (evaluate ⟨"cars", [residentsOnly], ∅⟩).decision :=
  (decision_of_flattened_rules ⟨"cars", [residentsOnly], ∅⟩).2.2 _ rfl (.rel _ _ (.split rfl rfl))

end CatalogBroker.PolicyEngine
