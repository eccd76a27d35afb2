import CatalogBroker.Engine.FlattenedRules

/-! Fewer claims never turn a denial into a permission.

Outcomes are compared by how much is known: what could not be evaluated may become
anything once more claims are there, a definite outcome stays.
-/

set_option autoImplicit false

namespace CatalogBroker.PolicyEngine

/-- What is known with fewer claims is also known with more. -/
def Outcome.Below (poorer richer : Outcome) : Prop := poorer = .unevaluable ∨ poorer = richer

theorem Outcome.Below.refl (outcome : Outcome) : outcome.Below outcome := .inr rfl

def Claims.without (claims : Claims) (lost : Finset String) : Claims := claims.filter fun key _ => key ∉ lost

variable (claims : Claims) (lost : Finset String)

theorem Claims.without_getElem? (key : String) :
    (claims.without lost)[key]? = none ∨ (claims.without lost)[key]? = claims[key]? := by
  unfold Claims.without
  rw [Std.ExtTreeMap.getElem?_filter']
  cases claims[key]? with
  | none => exact .inl rfl
  | some value =>
    rw [Option.filter_some]
    split
    · exact .inr rfl
    · exact .inl rfl

theorem constraintOutcome_below (constraint : Constraint) :
    (constraintOutcome (claims.without lost) constraint).Below (constraintOutcome claims constraint) := by
  unfold constraintOutcome
  rcases Claims.without_getElem? claims lost constraint.leftOperand with absent | kept
  · rw [absent]
    exact .inl rfl
  · rw [kept]
    exact .refl _

variable {claims lost}

theorem combineOutcomes_unevaluable (constraints : List Constraint) :
    (combineOutcomes claims .unevaluable constraints).Below .miss := by
  have unmatched : combineOutcomes claims .unevaluable constraints ≠ .hit := by
    rw [Ne, combineOutcomes_hit]
    simp
  cases outcome : combineOutcomes claims .unevaluable constraints with
  | hit => exact absurd outcome unmatched
  | miss => exact .inr rfl
  | unevaluable => exact .inl rfl

/-- The loop over the constraints keeps the comparison. -/
theorem combineOutcomes_below {poorer richer : Outcome} (below : poorer.Below richer) (constraints : List Constraint) :
    (combineOutcomes (claims.without lost) poorer constraints).Below (combineOutcomes claims richer constraints) := by
  induction constraints generalizing poorer richer with
  | nil => exact below
  | cons constraint constraints ih =>
    rw [combineOutcomes, combineOutcomes]
    rcases constraintOutcome_below claims lost constraint with unknown | same
    · rw [unknown]
      cases constraintOutcome claims constraint with
      | miss => exact combineOutcomes_unevaluable constraints
      | unevaluable => exact ih (.refl _)
      | hit => exact ih (.inl rfl)
    · rw [same]
      cases constraintOutcome claims constraint with
      | miss => exact .refl _
      | unevaluable => exact ih (.refl _)
      | hit => exact ih below

theorem ruleOutcome_below (rule : Rule) :
    (ruleOutcome (claims.without lost) rule).Below (ruleOutcome claims rule) :=
  combineOutcomes_below (.refl _) rule.constraints

theorem Rule.Applies.without {rule : Rule} (applies : rule.Applies claims) : rule.Applies (claims.without lost) := by
  rw [← ruleOutcome_ne_miss_iff] at applies ⊢
  have below : (ruleOutcome (claims.without lost) rule).Below (ruleOutcome claims rule) := ruleOutcome_below rule
  intro missed
  rcases below with unknown | same
  · rw [unknown] at missed
    cases missed
  · exact applies (same ▸ missed)

theorem Rule.Matches.of_without {rule : Rule} (hits : rule.Matches (claims.without lost)) : rule.Matches claims := by
  have below : (ruleOutcome (claims.without lost) rule).Below (ruleOutcome claims rule) := ruleOutcome_below rule
  rw [← ruleOutcome_hit_iff] at hits ⊢
  rcases below with unknown | same
  · rw [unknown] at hits
    cases hits
  · exact same ▸ hits

/-- Whoever is denied with all claims is denied without some of them. -/
theorem losing_claims_keeps_deny (datasetId : String) (policies : List Policy) (claims : Claims) (lost : Finset String)
    (denied : (evaluate ⟨datasetId, policies, claims⟩).decision = .deny) :
    (evaluate ⟨datasetId, policies, claims.without lost⟩).decision = .deny := by
  rw [evaluate_deny_iff] at denied ⊢
  rcases denied with ⟨policy, listed, rule, held, applies⟩ | ⟨declared, unmatched⟩
  · exact .inl ⟨policy, listed, rule, held, applies.without⟩
  · refine .inr ⟨declared, ?_⟩
    rintro ⟨policy, listed, rule, held, hits⟩
    exact unmatched ⟨policy, listed, rule, held, hits.of_without⟩

def germanGuest : Claims :=
  (∅ : Claims).insert "nationality" (.single "DE") |>.insert "role" (.single "guest")

/-- A guest is denied, and so is one who does not say that they are a guest. -/
theorem germanGuest_denied_without_role :
    (evaluate ⟨"cars", [residentsOnly], germanGuest.without {"role"}⟩).decision = .deny :=
  losing_claims_keeps_deny "cars" [residentsOnly] germanGuest {"role"} (by decide +kernel)

end CatalogBroker.PolicyEngine
