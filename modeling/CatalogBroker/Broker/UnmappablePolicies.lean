import CatalogBroker.Broker.PolicyFilter
import CatalogBroker.Library.Listing

/-! Policies the filter cannot map, and what they do to a dataset.

A constraint is mappable when no node of its tree is too deep or has an operator the
engine does not know; the mapping fails on the others, unless it may skip them.
-/

set_option autoImplicit false

namespace CatalogBroker

open Library

mutual
/-- Every node of the tree, its root at `depth`, can be mapped. -/
def Constraint.mappableAt (depth : Nat) : Constraint → Bool
  | .atomic leaf => depth ≤ maxConstraintDepth && (parseOperator leaf.operator).isSome
  | .logical _ children => depth ≤ maxConstraintDepth && Constraint.allMappableAt (depth + 1) children

def Constraint.allMappableAt (depth : Nat) : List Constraint → Bool
  | [] => true
  | child :: children => child.mappableAt depth && allMappableAt depth children
end

def Rule.isMappable (rule : Rule) : Bool := rule.constraints.all (Constraint.mappableAt 0)

/-- No permission, prohibition or obligation holds an unmappable constraint at any depth. -/
def Policy.isMappable (policy : Policy) : Bool := policy.rules.all Rule.isMappable

theorem Constraint.allMappableAt_eq (depth : Nat) (children : List Constraint) :
    allMappableAt depth children = children.all (mappableAt depth) := by
  induction children with
  | nil => rfl
  | cons child children ih => rw [allMappableAt, ih, List.all_cons]

section

variable (config : PolicyFilterConfig)

theorem mapChildren_isOk (children : List Constraint) (depth : Nat) : (mapChildren config children depth).isOk =
    children.all fun child => (catalogConstraintToEngineConstraintAtDepth config child depth).isOk := by
  induction children with
  | nil => rfl
  | cons child children ih =>
    rw [mapChildren, List.all_cons, ← ih]
    cases catalogConstraintToEngineConstraintAtDepth config child depth with
    | error _ => rfl
    | ok mapped => cases mapChildren config children depth <;> rfl

theorem mapRules_isOk (rules : List Rule) : (mapRules config rules).isOk = rules.all fun rule =>
    rule.constraints.all fun constraint => (catalogConstraintToEngineConstraint config constraint).isOk := by
  rw [mapRules, Listing.isOk_bind_pure, Listing.isOk_mapM]
  simp only [catalogRuleToEngineRule, Listing.isOk_bind_pure, Listing.isOk_mapM]

theorem mapPolicy_isOk (policy : Policy) (fallbackId : String) : (mapPolicy config policy fallbackId).isOk =
    policy.rules.all fun rule => rule.constraints.all fun constraint =>
      (catalogConstraintToEngineConstraint config constraint).isOk := by
  rw [Policy.rules, List.all_append, List.all_append, ← mapRules_isOk, ← mapRules_isOk, ← mapRules_isOk]
  unfold mapPolicy
  cases mapRules config policy.permissions with
  | error _ => rfl
  | ok permissions =>
    cases mapRules config policy.prohibitions with
    | error _ => rfl
    | ok prohibitions => cases mapRules config policy.obligations <;> rfl

end

section

variable {config : PolicyFilterConfig}

theorem catalogConstraintToEngineConstraintAtDepth_isOk_of_skip
    (skipping : config.unmappableConstraintAction = .skipConstraint) (constraint : Constraint) (depth : Nat) :
    (catalogConstraintToEngineConstraintAtDepth config constraint depth).isOk = true := by
  have outcome : unmappableOutcome config = .ok none := by rw [unmappableOutcome, skipping]
  induction constraint generalizing depth with
  | atomic leaf =>
    by_cases deep : depth > maxConstraintDepth
    · rw [catalogConstraintToEngineConstraintAtDepth, if_pos deep, outcome]
      rfl
    · rw [catalogConstraintToEngineConstraintAtDepth, if_neg deep]
      cases parseOperator leaf.operator with
      | none => simp only [outcome]; rfl
      | some operator => rfl
  | logical operator children ih =>
    by_cases deep : depth > maxConstraintDepth
    · rw [catalogConstraintToEngineConstraintAtDepth, if_pos deep, outcome]
      rfl
    · have below : (mapChildren config children (depth + 1)).isOk = true := by
        rw [mapChildren_isOk, List.all_eq_true]
        exact fun child member => ih child member (depth + 1)
      rw [catalogConstraintToEngineConstraintAtDepth, if_neg deep]
      exact (Listing.isOk_bind_pure _ _).trans below

theorem mapPolicy_isOk_of_skip (skipping : config.unmappableConstraintAction = .skipConstraint) (policy : Policy)
    (fallbackId : String) : (mapPolicy config policy fallbackId).isOk = true := by
  rw [mapPolicy_isOk, List.all_eq_true]
  intro rule _
  rw [List.all_eq_true]
  exact fun constraint _ => catalogConstraintToEngineConstraintAtDepth_isOk_of_skip skipping constraint 0

variable (strict : config.unmappableConstraintAction ≠ .skipConstraint)
include strict

theorem unmappableOutcome_isOk : (unmappableOutcome config).isOk = false := by
  unfold unmappableOutcome
  split
  · exact absurd (by assumption) strict
  · rfl
  · rfl

theorem catalogConstraintToEngineConstraintAtDepth_isOk (constraint : Constraint) (depth : Nat) :
    (catalogConstraintToEngineConstraintAtDepth config constraint depth).isOk = constraint.mappableAt depth := by
  induction constraint generalizing depth with
  | atomic leaf =>
    by_cases deep : depth > maxConstraintDepth
    · rw [catalogConstraintToEngineConstraintAtDepth, if_pos deep, unmappableOutcome_isOk strict,
        Constraint.mappableAt, decide_eq_false (by omega), Bool.false_and]
    · rw [catalogConstraintToEngineConstraintAtDepth, if_neg deep, Constraint.mappableAt,
        decide_eq_true (by omega), Bool.true_and]
      cases parseOperator leaf.operator with
      | none => exact unmappableOutcome_isOk strict
      | some operator => rfl
  | logical operator children ih =>
    by_cases deep : depth > maxConstraintDepth
    · rw [catalogConstraintToEngineConstraintAtDepth, if_pos deep, unmappableOutcome_isOk strict,
        Constraint.mappableAt, decide_eq_false (by omega), Bool.false_and]
    · have below :
          (mapChildren config children (depth + 1)).isOk = children.all (Constraint.mappableAt (depth + 1)) := by
        rw [mapChildren_isOk, Bool.eq_iff_iff, List.all_eq_true, List.all_eq_true]
        exact forall₂_congr fun child member => by rw [ih child member]
      rw [catalogConstraintToEngineConstraintAtDepth, if_neg deep, Constraint.mappableAt,
        decide_eq_true (by omega), Bool.true_and, Constraint.allMappableAt_eq, ← below]
      exact Listing.isOk_bind_pure _ _

theorem mapPolicy_isOk_eq_isMappable (policy : Policy) (fallbackId : String) :
    (mapPolicy config policy fallbackId).isOk = policy.isMappable := by
  rw [mapPolicy_isOk]
  simp only [catalogConstraintToEngineConstraint, catalogConstraintToEngineConstraintAtDepth_isOk strict]
  rfl

end

theorem mapChildren_congr {config other : PolicyFilterConfig} {children : List Constraint} {depth : Nat}
    (each : ∀ child ∈ children, catalogConstraintToEngineConstraintAtDepth config child depth =
      catalogConstraintToEngineConstraintAtDepth other child depth) :
    mapChildren config children depth = mapChildren other children depth := by
  induction children with
  | nil => rfl
  | cons child children ih =>
    rw [mapChildren, mapChildren, each child (by simp), ih fun next member => each next (by simp [member])]

theorem catalogConstraintToEngineConstraintAtDepth_congr (config other : PolicyFilterConfig)
    {constraint : Constraint} {depth : Nat} (mappable : constraint.mappableAt depth = true) :
    catalogConstraintToEngineConstraintAtDepth config constraint depth =
      catalogConstraintToEngineConstraintAtDepth other constraint depth := by
  induction constraint generalizing depth with
  | atomic leaf =>
    rw [Constraint.mappableAt, Bool.and_eq_true, decide_eq_true_eq] at mappable
    have shallow : ¬ depth > maxConstraintDepth := by omega
    rw [catalogConstraintToEngineConstraintAtDepth, catalogConstraintToEngineConstraintAtDepth,
      if_neg shallow, if_neg shallow]
    cases operator : parseOperator leaf.operator with
    | some operator => rfl
    | none => simp [operator] at mappable
  | logical operator children ih =>
    rw [Constraint.mappableAt, Bool.and_eq_true, decide_eq_true_eq, Constraint.allMappableAt_eq,
      List.all_eq_true] at mappable
    have shallow : ¬ depth > maxConstraintDepth := by omega
    have below : mapChildren config children (depth + 1) = mapChildren other children (depth + 1) :=
      mapChildren_congr fun child member => ih child member (mappable.2 child member)
    rw [catalogConstraintToEngineConstraintAtDepth, catalogConstraintToEngineConstraintAtDepth,
      if_neg shallow, if_neg shallow]
    simp only [below]

theorem mapRules_congr (config other : PolicyFilterConfig) {rules : List Rule}
    (mappable : rules.all Rule.isMappable = true) : mapRules config rules = mapRules other rules := by
  rw [List.all_eq_true] at mappable
  have each : ∀ rule ∈ rules, catalogRuleToEngineRule config rule = catalogRuleToEngineRule other rule := by
    intro rule member
    have constraints : ∀ constraint ∈ rule.constraints,
        catalogConstraintToEngineConstraint config constraint = catalogConstraintToEngineConstraint other constraint :=
      fun constraint listed => catalogConstraintToEngineConstraintAtDepth_congr config other
        (List.all_eq_true.mp (mappable rule member) constraint listed)
    unfold catalogRuleToEngineRule
    rw [Listing.mapM_congr constraints]
  unfold mapRules
  rw [Listing.mapM_congr each]

theorem mapPolicy_congr (config other : PolicyFilterConfig) {policy : Policy} (fallbackId : String)
    (mappable : policy.isMappable = true) :
    mapPolicy config policy fallbackId = mapPolicy other policy fallbackId := by
  rw [Policy.isMappable, Policy.rules, List.all_append, List.all_append, Bool.and_eq_true,
    Bool.and_eq_true] at mappable
  unfold mapPolicy
  rw [mapRules_congr config other mappable.1.1, mapRules_congr config other mappable.1.2,
    mapRules_congr config other mappable.2]

section

variable (config : PolicyFilterConfig) (evaluateRequest : EngineRequest → WireDecision) (dataset : Dataset)
  (claims : Claims) (action : String)

/-- The engine allows the access under this offer, the offer mapped whole. -/
def offerAllows (offer : Policy × Nat) : Bool :=
  match mapPolicy config offer.1 (fallbackId dataset offer.2) with
  | .ok wirePolicy => evaluateRequest (buildRequest config dataset wirePolicy action claims) = .allow
  | .error _ => false

/-- The offers before the first one that cannot be mapped. -/
def offersBeforeUnmappable : List (Policy × Nat) := dataset.policies.zipIdx.takeWhile fun offer => offer.1.isMappable

variable {config evaluateRequest dataset claims action}

theorem offerAllows_eq_true {offer : Policy × Nat} :
    offerAllows config evaluateRequest dataset claims action offer = true ↔
      ∃ wirePolicy, mapPolicy config offer.1 (fallbackId dataset offer.2) = .ok wirePolicy ∧
        evaluateRequest (buildRequest config dataset wirePolicy action claims) = .allow := by
  unfold offerAllows
  cases mapPolicy config offer.1 (fallbackId dataset offer.2) with
  | error _ => simp
  | ok wirePolicy => simp

/-- Without `HideDataset` an offer that cannot be mapped is passed over. -/
theorem anyOfferAllows_eq_any (passing : config.unmappableConstraintAction ≠ .hideDataset)
    (offers : List (Policy × Nat)) : anyOfferAllows config evaluateRequest dataset claims action offers =
      offers.any (offerAllows config evaluateRequest dataset claims action) := by
  induction offers with
  | nil => rfl
  | cons offer offers ih =>
    obtain ⟨policy, index⟩ := offer
    rw [List.any_cons, ← ih, anyOfferAllows, offerAllows, catalogPolicyToWirePolicy]
    cases mapped : mapPolicy config policy (fallbackId dataset index) with
    | ok wirePolicy =>
      by_cases allowed : evaluateRequest (buildRequest config dataset wirePolicy action claims) = .allow <;>
        simp [allowed]
    | error _ =>
      cases setting : config.unmappableConstraintAction with
      | skipConstraint =>
        have always := mapPolicy_isOk_of_skip setting policy (fallbackId dataset index)
        rw [mapped] at always
        cases always
      | dropPolicy => rfl
      | hideDataset => exact absurd setting passing

/-- Under `HideDataset` the loop ends, refusing, at the first offer that cannot be mapped. -/
theorem anyOfferAllows_of_hide (hides : config.unmappableConstraintAction = .hideDataset)
    (offers : List (Policy × Nat)) : anyOfferAllows config evaluateRequest dataset claims action offers =
      (offers.takeWhile fun offer => offer.1.isMappable).any
        (offerAllows config evaluateRequest dataset claims action) := by
  have strict : config.unmappableConstraintAction ≠ .skipConstraint := by simp [hides]
  induction offers with
  | nil => rfl
  | cons offer offers ih =>
    obtain ⟨policy, index⟩ := offer
    have decides := mapPolicy_isOk_eq_isMappable strict policy (fallbackId dataset index)
    rw [List.takeWhile_cons, anyOfferAllows, catalogPolicyToWirePolicy]
    -- The loop has not ended before this offer; it asks about it, or ends here without asking.
    cases mapped : mapPolicy config policy (fallbackId dataset index) with
    | ok wirePolicy =>
      rw [mapped] at decides
      rw [← show true = policy.isMappable from decides, if_pos rfl, List.any_cons, ← ih, offerAllows, mapped]
      by_cases allowed : evaluateRequest (buildRequest config dataset wirePolicy action claims) = .allow <;>
        simp [allowed]
    | error _ =>
      rw [mapped] at decides
      rw [← show false = policy.isMappable from decides, hides]
      rfl

theorem Policy.isMappable_of_offerAllows (strict : config.unmappableConstraintAction ≠ .skipConstraint)
    {offer : Policy × Nat} (allowed : offerAllows config evaluateRequest dataset claims action offer = true) :
    offer.1.isMappable = true := by
  obtain ⟨wirePolicy, mapped, _⟩ := offerAllows_eq_true.mp allowed
  rw [← mapPolicy_isOk_eq_isMappable strict offer.1 (fallbackId dataset offer.2), mapped]
  rfl

theorem offerAllows_of_strict (strict : config.unmappableConstraintAction ≠ .skipConstraint)
    (other : PolicyFilterConfig) (same : other.noPolicyVisibility = config.noPolicyVisibility)
    {offer : Policy × Nat} (allowed : offerAllows config evaluateRequest dataset claims action offer = true) :
    offerAllows other evaluateRequest dataset claims action offer = true := by
  obtain ⟨wirePolicy, mapped, granted⟩ := offerAllows_eq_true.mp allowed
  have mappable := Policy.isMappable_of_offerAllows strict allowed
  rw [offerAllows_eq_true]
  refine ⟨wirePolicy, (mapPolicy_congr other config _ mappable).trans mapped, ?_⟩
  rw [← granted, buildRequest, buildRequest, same]

end

/-- Under `HideDataset` a dataset with an unmappable policy is hidden exactly when the engine allows none
of the offers that stand before the first such policy. -/
theorem hidden_iff_no_earlier_offer_allows {config : PolicyFilterConfig}
    (hides : config.unmappableConstraintAction = .hideDataset) (evaluateRequest : EngineRequest → WireDecision)
    {dataset : Dataset} (unmappable : ∃ policy ∈ dataset.policies, policy.isMappable = false) (claims : Claims)
    (action : String) : datasetIsVisible config evaluateRequest dataset claims action = false ↔
      ∀ offer ∈ offersBeforeUnmappable dataset, ∀ wirePolicy,
        mapPolicy config offer.1 (fallbackId dataset offer.2) = .ok wirePolicy →
          evaluateRequest (buildRequest config dataset wirePolicy action claims) ≠ .allow := by
  have nonempty : dataset.policies.isEmpty = false := by
    obtain ⟨policy, member, _⟩ := unmappable
    cases listed : dataset.policies with
    | nil => simp [listed] at member
    | cons first policies => rfl
  rw [datasetIsVisible, nonempty, if_neg (by simp), anyOfferAllows_of_hide hides, List.any_eq_false]
  constructor
  · intro refused offer earlier wirePolicy mapped allowed
    exact refused offer earlier (offerAllows_eq_true.mpr ⟨wirePolicy, mapped, allowed⟩)
  · intro refused offer earlier allowed
    obtain ⟨wirePolicy, mapped, granted⟩ := offerAllows_eq_true.mp allowed
    exact refused offer earlier wirePolicy mapped granted

def openOffer : Policy := ⟨none, .offer, none, none, [⟨"use", []⟩], [], []⟩

def unreadOffer : Policy := ⟨none, .offer, none, none, [⟨"use", [.unmappable "x"]⟩], [], []⟩

theorem unread_offer_first_hides : datasetIsVisible {} (fun _ => .allow)
    ⟨"urn:dataset", ∅, [], [unreadOffer, openOffer]⟩ ∅ "use" = false := by
  apply (hidden_iff_no_earlier_offer_allows rfl (fun _ => .allow)
    ⟨unreadOffer, List.mem_cons_self, by decide⟩ ∅ "use").mpr
  intro offer earlier
  have none : offersBeforeUnmappable ⟨"urn:dataset", ∅, [], [unreadOffer, openOffer]⟩ = [] := by decide
  rw [none] at earlier
  cases earlier

theorem open_offer_first_shows : ¬ ∀ (config : PolicyFilterConfig) (evaluateRequest : EngineRequest → WireDecision)
    (dataset : Dataset) (claims : Claims) (action : String),
      config.unmappableConstraintAction = .hideDataset →
      (∃ policy ∈ dataset.policies, policy.isMappable = false) →
        datasetIsVisible config evaluateRequest dataset claims action = false := by
  intro always
  have hidden := always {} (fun _ => .allow) ⟨"urn:dataset", ∅, [], [openOffer, unreadOffer]⟩ ∅ "use" rfl
    ⟨unreadOffer, by simp, by decide⟩
  have shown : datasetIsVisible {} (fun _ => .allow) ⟨"urn:dataset", ∅, [], [openOffer, unreadOffer]⟩ ∅ "use"
      = true := rfl
  rw [shown] at hidden
  cases hidden

/-- Whatever is visible under a stricter setting is visible under a laxer one. -/
theorem visibility_follows_strictness (config : PolicyFilterConfig) (evaluateRequest : EngineRequest → WireDecision)
    (dataset : Dataset) (claims : Claims) (action : String) :
    (datasetIsVisible { config with unmappableConstraintAction := .hideDataset } evaluateRequest dataset claims
        action = true →
      datasetIsVisible { config with unmappableConstraintAction := .dropPolicy } evaluateRequest dataset claims
        action = true) ∧
    (datasetIsVisible { config with unmappableConstraintAction := .dropPolicy } evaluateRequest dataset claims
        action = true →
      datasetIsVisible { config with unmappableConstraintAction := .skipConstraint } evaluateRequest dataset claims
        action = true) := by
  unfold datasetIsVisible
  by_cases empty : dataset.policies.isEmpty = true
  · simp only [empty, if_true]
    exact ⟨id, id⟩
  have hide : (PolicyFilterConfig.mk .hideDataset config.noPolicyVisibility).unmappableConstraintAction
      ≠ .skipConstraint := by simp
  have drop : (PolicyFilterConfig.mk .dropPolicy config.noPolicyVisibility).unmappableConstraintAction
      ≠ .skipConstraint := by simp
  rw [if_neg empty, if_neg empty, if_neg empty, anyOfferAllows_of_hide rfl, anyOfferAllows_eq_any (by simp),
    anyOfferAllows_eq_any (by simp)]
  simp only [List.any_eq_true]
  constructor
  -- An offer asked about under `HideDataset` is asked about under `DropPolicy` too, which goes on to the end.
  · rintro ⟨offer, earlier, allowed⟩
    exact ⟨offer, (List.takeWhile_sublist _).mem earlier, offerAllows_of_strict hide ⟨.dropPolicy, _⟩ rfl allowed⟩
  · rintro ⟨offer, member, allowed⟩
    exact ⟨offer, member, offerAllows_of_strict drop ⟨.skipConstraint, _⟩ rfl allowed⟩

theorem openOffer_visible_when_skipping : datasetIsVisible ⟨.skipConstraint, .closed⟩ (fun _ => .allow)
    ⟨"urn:dataset", ∅, [], [openOffer]⟩ ∅ "use" = true := by
  have order := visibility_follows_strictness ⟨.hideDataset, .closed⟩ (fun _ => .allow)
    ⟨"urn:dataset", ∅, [], [openOffer]⟩ ∅ "use"
  exact order.2 (order.1 rfl)

end CatalogBroker
