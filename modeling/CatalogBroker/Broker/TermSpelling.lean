import CatalogBroker.Broker.PolicyFilter
import CatalogBroker.Library.Listing

/-! The spellings of an ODRL term, and policies that differ in them only.

Actions, left operands and operators pass through three normalisers. The first two read
every spelling of a term alike; the third does not know the full IRI.
-/

set_option autoImplicit false

namespace CatalogBroker

open Library

structure IsBareTerm (term : String) : Prop where
  nonempty : term ≠ ""
  bare : ':' ∉ term.toList

/-- Two texts that are equal or spell one term. -/
def TermRespelled (left right : String) : Prop :=
  left = right ∨ ∃ term, IsBareTerm term ∧ left ∈ spellings term ∧ right ∈ spellings term

theorem TermRespelled.refl (term : String) : TermRespelled term term := .inl rfl

theorem TermRespelled.congr {α : Type} {read : String → α} {left right : String} (same : TermRespelled left right)
    (value : String → α) (reads : ∀ term, IsBareTerm term → ∀ spelling ∈ spellings term, read spelling = value term) :
    read left = read right := by
  rcases same with rfl | ⟨term, bare, spellsLeft, spellsRight⟩
  · rfl
  · rw [reads term bare left spellsLeft, reads term bare right spellsRight]

section

variable {term : String} (bare : IsBareTerm term)
include bare

theorem IsBareTerm.stripPrefix_odrlNs : Text.stripPrefix term odrlNs = none :=
  Text.stripPrefix_eq_none_of_not_mem ':' (by decide) bare.bare

theorem IsBareTerm.stripPrefix_odrl : Text.stripPrefix term "odrl:" = none :=
  Text.stripPrefix_eq_none_of_not_mem ':' (by decide) bare.bare

omit bare in
theorem stripPrefix_odrlNs_odrl (term : String) : Text.stripPrefix ("odrl:" ++ term) odrlNs = none := by
  rw [Text.stripPrefix_eq_none_iff]
  intro rest same
  have chars := congrArg String.toList same
  simp [String.toList_append, odrlNs] at chars

omit bare in
theorem stripPrefix_odrl_odrlNs (term : String) : Text.stripPrefix (odrlNs ++ term) "odrl:" = none := by
  rw [Text.stripPrefix_eq_none_iff]
  intro rest same
  have chars := congrArg String.toList same
  simp [String.toList_append, odrlNs] at chars

theorem normalizeAction_spelling {spelling : String} (spells : spelling ∈ spellings term) :
    normalizeAction spelling = "odrl:" ++ term := by
  simp only [spellings, List.mem_cons, List.not_mem_nil, or_false] at spells
  rcases spells with rfl | rfl | rfl
  · rw [normalizeAction, if_neg bare.nonempty, bare.stripPrefix_odrlNs]
    simp [bare.bare]
  · have nonempty : "odrl:" ++ term ≠ "" := by simp
    rw [normalizeAction, if_neg nonempty, stripPrefix_odrlNs_odrl]
    simp [String.toList_append]
  · have nonempty : odrlNs ++ term ≠ "" := by simp [odrlNs]
    rw [normalizeAction, if_neg nonempty, Text.stripPrefix_append]

theorem normalizeLeftOperand_spelling {spelling : String} (spells : spelling ∈ spellings term) :
    normalizeLeftOperand spelling = term := by
  simp only [spellings, List.mem_cons, List.not_mem_nil, or_false] at spells
  rcases spells with rfl | rfl | rfl
  · rw [normalizeLeftOperand, bare.stripPrefix_odrlNs, bare.stripPrefix_odrl]
    rfl
  · rw [normalizeLeftOperand, stripPrefix_odrlNs_odrl, Text.stripPrefix_append]
    rfl
  · rw [normalizeLeftOperand, Text.stripPrefix_append]
    rfl

end

theorem TermRespelled.normalizeAction_eq {left right : String} (same : TermRespelled left right) :
    normalizeAction left = normalizeAction right :=
  same.congr (fun term => "odrl:" ++ term) fun _ bare _ spells => normalizeAction_spelling bare spells

theorem TermRespelled.normalizeLeftOperand_eq {left right : String} (same : TermRespelled left right) :
    normalizeLeftOperand left = normalizeLeftOperand right :=
  same.congr id fun _ bare _ spells => normalizeLeftOperand_spelling bare spells

/-- The full IRI of an operator the engine knows: the one spelling `parseOperator` does not read. -/
def SpelledAsIri (operator : String) : Prop := ∃ known ∈ operatorNames, operator = odrlNs ++ known.1

instance (operator : String) : Decidable (SpelledAsIri operator) :=
  inferInstanceAs (Decidable (∃ known ∈ operatorNames, operator = odrlNs ++ known.1))

theorem lookup_operatorNames_iri (term : String) : operatorNames.lookup (odrlNs ++ term) = none := by
  rw [List.lookup_eq_none_iff]
  intro known listed
  have colonless : ':' ∉ known.1.toList := by
    revert known
    decide
  rw [bne_iff_ne]
  rintro same
  rw [← same] at colonless
  simp [String.toList_append, odrlNs] at colonless

theorem parseOperator_iri (term : String) : parseOperator (odrlNs ++ term) = none := by
  rw [parseOperator, stripPrefix_odrl_odrlNs]
  exact lookup_operatorNames_iri term

theorem parseOperator_prefixed (term : String) : parseOperator ("odrl:" ++ term) = operatorNames.lookup term := by
  rw [parseOperator, Text.stripPrefix_append]
  rfl

theorem parseOperator_bare {term : String} (bare : IsBareTerm term) :
    parseOperator term = operatorNames.lookup term := by
  rw [parseOperator, bare.stripPrefix_odrl]
  rfl

theorem spelledAsIri_iff {term : String} :
    SpelledAsIri (odrlNs ++ term) ↔ (operatorNames.lookup term).isSome = true := by
  rw [List.lookup_isSome_iff]
  constructor
  · rintro ⟨known, listed, same⟩
    exact ⟨known, listed, by simpa using same⟩
  · rintro ⟨known, listed, same⟩
    exact ⟨known, listed, by rw [beq_iff_eq.mp same]⟩

theorem not_spelledAsIri_of_spelling {term spelling : String} (bare : IsBareTerm term)
    (spells : spelling = term ∨ spelling = "odrl:" ++ term) : ¬ SpelledAsIri spelling := by
  rintro ⟨known, _, rfl⟩
  rcases spells with same | same
  · apply bare.bare
    simp [← same, String.toList_append, odrlNs]
  · have chars := congrArg String.toList same
    simp [String.toList_append, odrlNs] at chars

/-- What `parseOperator` makes of a spelling: nothing of the IRI of a known operator. -/
theorem parseOperator_spelling {term spelling : String} (bare : IsBareTerm term)
    (spells : spelling ∈ spellings term) :
    parseOperator spelling = if SpelledAsIri spelling then none else operatorNames.lookup term := by
  simp only [spellings, List.mem_cons, List.not_mem_nil, or_false] at spells
  -- `parse_operator` takes off `odrl:` alone, so the full IRI is looked up whole and not found.
  rcases spells with rfl | rfl | rfl
  · rw [if_neg (not_spelledAsIri_of_spelling bare (.inl rfl)), parseOperator_bare bare]
  · rw [if_neg (not_spelledAsIri_of_spelling bare (.inr rfl)), parseOperator_prefixed]
  · simp only [parseOperator_iri, spelledAsIri_iff]
    cases operatorNames.lookup term <;> rfl

theorem TermRespelled.parseOperator_isSome_iff {left right : String} (same : TermRespelled left right) :
    (parseOperator left).isSome = (parseOperator right).isSome ↔ (SpelledAsIri left ↔ SpelledAsIri right) := by
  rcases same with rfl | ⟨term, bare, spellsLeft, spellsRight⟩
  · simp
  rw [parseOperator_spelling bare spellsLeft, parseOperator_spelling bare spellsRight]
  cases known : operatorNames.lookup term with
  | none =>
    -- no spelling of an unknown operator is the IRI of a known one
    have unknown (spelling : String) (spells : spelling ∈ spellings term) : ¬ SpelledAsIri spelling := by
      simp only [spellings, List.mem_cons, List.not_mem_nil, or_false] at spells
      rcases spells with rfl | rfl | rfl
      · exact not_spelledAsIri_of_spelling bare (.inl rfl)
      · exact not_spelledAsIri_of_spelling bare (.inr rfl)
      · simp [spelledAsIri_iff, known]
    simp [unknown left spellsLeft, unknown right spellsRight]
  | some operator =>
    by_cases iriLeft : SpelledAsIri left <;> by_cases iriRight : SpelledAsIri right <;> simp [iriLeft, iriRight]

theorem TermRespelled.parseOperator_eq {left right : String} (same : TermRespelled left right)
    (iri : SpelledAsIri left ↔ SpelledAsIri right) : parseOperator left = parseOperator right := by
  rcases same with rfl | ⟨term, bare, spellsLeft, spellsRight⟩
  · rfl
  · rw [parseOperator_spelling bare spellsLeft, parseOperator_spelling bare spellsRight]
    simp only [iri]

section

variable (operators : String → String → Prop)

mutual
/-- Left operands respelled, operators replaced as `operators` allows, all else kept. -/
def Constraint.Respelled : Constraint → Constraint → Prop
  | .atomic left, .atomic right => TermRespelled left.leftOperand right.leftOperand ∧
    operators left.operator right.operator ∧ left.rightOperand = right.rightOperand
  | .logical operator children, .logical other others => operator = other ∧ Constraint.AllRespelled children others
  | .atomic _, .logical _ _ => False
  | .logical _ _, .atomic _ => False

def Constraint.AllRespelled : List Constraint → List Constraint → Prop
  | [], [] => True
  | child :: children, other :: others => Constraint.Respelled child other ∧ AllRespelled children others
  | [], _ :: _ => False
  | _ :: _, [] => False
end

structure Rule.Respelled (left right : Rule) : Prop where
  action : TermRespelled left.action right.action
  constraints : List.Forall₂ (Constraint.Respelled operators) left.constraints right.constraints

structure Policy.Respelled (left right : Policy) : Prop where
  id : left.id = right.id
  kind : left.kind = right.kind
  assigner : left.assigner = right.assigner
  assignee : left.assignee = right.assignee
  permissions : List.Forall₂ (Rule.Respelled operators) left.permissions right.permissions
  prohibitions : List.Forall₂ (Rule.Respelled operators) left.prohibitions right.prohibitions
  obligations : List.Forall₂ (Rule.Respelled operators) left.obligations right.obligations

structure Dataset.Respelled (left right : Dataset) : Prop where
  id : left.id = right.id
  policies : List.Forall₂ (Policy.Respelled operators) left.policies right.policies

variable {operators}

theorem Constraint.allRespelled_iff {children others : List Constraint} :
    AllRespelled operators children others ↔ List.Forall₂ (Constraint.Respelled operators) children others := by
  induction children generalizing others with
  | nil => cases others <;> simp [AllRespelled]
  | cons child children ih => cases others <;> simp [AllRespelled, ih]

variable (config : PolicyFilterConfig)
  (alike : ∀ left right, operators left right → parseOperator left = parseOperator right)
include alike

omit alike in
theorem mapChildren_forall₂ {children others : List Constraint} {depth : Nat}
    (same : List.Forall₂ (fun child other => catalogConstraintToEngineConstraintAtDepth config child depth =
      catalogConstraintToEngineConstraintAtDepth config other depth) children others) :
    mapChildren config children depth = mapChildren config others depth := by
  induction same with
  | nil => rfl
  | cons first _ ih => rw [mapChildren, mapChildren, first, ih]

theorem Constraint.Respelled.mapped_eq {left right : Constraint} (same : left.Respelled operators right) (depth : Nat) :
    catalogConstraintToEngineConstraintAtDepth config left depth =
      catalogConstraintToEngineConstraintAtDepth config right depth := by
  induction left generalizing right depth with
  | atomic leaf =>
    cases right with
    | atomic other =>
      obtain ⟨leftOperand, operator, rightOperand⟩ := same
      unfold catalogConstraintToEngineConstraintAtDepth
      simp only [alike _ _ operator, leftOperand.normalizeLeftOperand_eq, rightOperand]
    | logical => cases same
  | logical operator children ih =>
    cases right with
    | atomic => cases same
    | logical other others =>
      obtain ⟨rfl, below⟩ := same
      have mapped : mapChildren config children (depth + 1) = mapChildren config others (depth + 1) := by
        have pairs := (List.forall₂_and_left children others).mpr
          ⟨fun child member => member, Constraint.allRespelled_iff.mp below⟩
        exact mapChildren_forall₂ config
          (pairs.imp fun child other found => ih child found.1 found.2 (depth + 1))
      unfold catalogConstraintToEngineConstraintAtDepth
      simp only [mapped]

theorem mapRules_respelled {rules others : List Rule} (same : List.Forall₂ (Rule.Respelled operators) rules others) :
    mapRules config rules = mapRules config others := by
  have each : List.Forall₂ (fun rule other => catalogRuleToEngineRule config rule =
      catalogRuleToEngineRule config other) rules others := by
    apply same.imp
    intro rule other respelled
    have constraints : List.Forall₂ (fun constraint other => catalogConstraintToEngineConstraint config constraint =
        catalogConstraintToEngineConstraint config other) rule.constraints other.constraints :=
      respelled.constraints.imp fun _ _ constraint => constraint.mapped_eq config alike 0
    unfold catalogRuleToEngineRule
    rw [Listing.mapM_forall₂ constraints, respelled.action.normalizeAction_eq]
  rw [mapRules, mapRules, Listing.mapM_forall₂ each]

theorem Policy.Respelled.wirePolicy_eq {left right : Policy} (same : left.Respelled operators right)
    (fallbackId : String) :
    catalogPolicyToWirePolicy config left fallbackId = catalogPolicyToWirePolicy config right fallbackId := by
  have mapped : mapPolicy config left fallbackId = mapPolicy config right fallbackId := by
    unfold mapPolicy
    rw [mapRules_respelled config alike same.permissions, mapRules_respelled config alike same.prohibitions,
      mapRules_respelled config alike same.obligations, same.id, same.kind, same.assigner, same.assignee]
  rw [catalogPolicyToWirePolicy, catalogPolicyToWirePolicy, mapped]

variable (evaluateRequest : EngineRequest → WireDecision) (claims : Claims) (action : String)

theorem anyOfferAllows_respelled {dataset other : Dataset} (same : dataset.id = other.id)
    {policies others : List Policy} (each : List.Forall₂ (Policy.Respelled operators) policies others) (index : Nat) :
    anyOfferAllows config evaluateRequest dataset claims action (policies.zipIdx index) =
      anyOfferAllows config evaluateRequest other claims action (others.zipIdx index) := by
  induction each generalizing index with
  | nil => rfl
  | cons first _ ih =>
    rw [List.zipIdx_cons, List.zipIdx_cons, anyOfferAllows, anyOfferAllows, ih (index + 1),
      first.wirePolicy_eq config alike, fallbackId, fallbackId, same]
    have asked (wirePolicy : WirePolicy) : buildRequest config dataset wirePolicy action claims =
        buildRequest config other wirePolicy action claims := by rw [buildRequest, buildRequest, same]
    simp only [asked]

theorem Dataset.Respelled.visible_eq {dataset other : Dataset} (same : dataset.Respelled operators other) :
    datasetIsVisible config evaluateRequest dataset claims action =
      datasetIsVisible config evaluateRequest other claims action := by
  have empty : dataset.policies.isEmpty = other.policies.isEmpty := by
    rw [Bool.eq_iff_iff, List.isEmpty_iff_length_eq_zero, List.isEmpty_iff_length_eq_zero, same.policies.length_eq]
  rw [datasetIsVisible, datasetIsVisible, empty,
    anyOfferAllows_respelled config alike evaluateRequest claims action same.id same.policies]

omit alike in
theorem anyOfferAllows_append {dataset other : Dataset} (same : dataset.id = other.id) {offers : List (Policy × Nat)}
    (allows : anyOfferAllows config evaluateRequest dataset claims action offers = true)
    (rest : List (Policy × Nat)) :
    anyOfferAllows config evaluateRequest other claims action (offers ++ rest) = true := by
  induction offers with
  | nil => cases allows
  | cons offer offers ih =>
    rw [anyOfferAllows] at allows
    rw [List.cons_append, anyOfferAllows, fallbackId, ← same]
    split at allows
    · cases allows
    case h_2 skipped =>
      rw [fallbackId] at skipped
      rw [skipped]
      exact ih allows
    case h_3 wirePolicy mapped =>
      have asked : buildRequest config dataset wirePolicy action claims =
          buildRequest config other wirePolicy action claims := by rw [buildRequest, buildRequest, same]
      rw [fallbackId] at mapped
      rw [mapped]
      dsimp only
      rw [← asked]
      split at allows
      case isTrue allowed => rw [if_pos allowed]
      case isFalse refused =>
        rw [if_neg refused]
        exact ih allows

/-- Offers after one that allows are never reached, whatever their operators are replaced by. -/
theorem Dataset.Respelled.visible_of_earlier {dataset other : Dataset} (same : dataset.Respelled operators other)
    (allows : anyOfferAllows config evaluateRequest dataset claims action dataset.policies.zipIdx = true)
    (rest others : List Policy) :
    datasetIsVisible config evaluateRequest { dataset with policies := dataset.policies ++ rest } claims action = true ∧
      datasetIsVisible config evaluateRequest { other with policies := other.policies ++ others } claims action =
        true := by
  have visible {first : Dataset} (allows : anyOfferAllows config evaluateRequest first claims action
      first.policies.zipIdx = true) (more : List Policy) :
      datasetIsVisible config evaluateRequest { first with policies := first.policies ++ more } claims action =
        true := by
    have offered : (first.policies ++ more).isEmpty = false := by
      cases policies : first.policies with
      | nil => simp [policies, anyOfferAllows] at allows
      | cons policy policies => rfl
    simp only [datasetIsVisible, offered, List.zipIdx_append, Bool.false_eq_true, if_false]
    exact anyOfferAllows_append config evaluateRequest claims action (by rfl) allows _
  refine ⟨visible allows rest, visible ?_ others⟩
  rw [← anyOfferAllows_respelled config alike evaluateRequest claims action same.id same.policies]
  exact allows

end

def constrainedDataset (operator : String) : Dataset :=
  ⟨"urn:dataset", ∅, [], [⟨none, .offer, none, none, [⟨"use", [.atomic ⟨"purpose", operator, "research"⟩]⟩], [], []⟩]⟩

theorem constrainedDataset_respelled {operators : String → String → Prop} {left right : String}
    (replaced : operators left right) :
    (constrainedDataset left).Respelled operators (constrainedDataset right) := by
  have constraint : Constraint.Respelled operators (.atomic ⟨"purpose", left, "research"⟩)
      (.atomic ⟨"purpose", right, "research"⟩) := ⟨.refl _, replaced, rfl⟩
  have rule : Rule.Respelled operators ⟨"use", [.atomic ⟨"purpose", left, "research"⟩]⟩
      ⟨"use", [.atomic ⟨"purpose", right, "research"⟩]⟩ := ⟨.refl _, .cons constraint .nil⟩
  exact ⟨rfl, .cons ⟨rfl, rfl, rfl, rfl, .cons rule .nil, .nil, .nil⟩ .nil⟩

theorem constrainedDataset_visible (operator : String) :
    datasetIsVisible {} (fun _ => .allow) (constrainedDataset operator) ∅ "use" = (parseOperator operator).isSome := by
  have shallow : ¬ 0 > maxConstraintDepth := by decide
  cases parsed : parseOperator operator <;>
    simp [datasetIsVisible, constrainedDataset, anyOfferAllows, catalogPolicyToWirePolicy, mapPolicy, mapRules,
      catalogRuleToEngineRule, catalogConstraintToEngineConstraint, catalogConstraintToEngineConstraintAtDepth,
      shallow, parsed, unmappableOutcome, bind, Except.bind, pure, Except.pure]

/-- Respelling policy terms keeps every decision exactly when no operator changes between the full IRI of an
operator the engine knows and another spelling of it. -/
theorem respelling_keeps_visibility_iff {operators : String → String → Prop}
    (respells : ∀ left right, operators left right → TermRespelled left right) :
    (∀ (config : PolicyFilterConfig) (evaluateRequest : EngineRequest → WireDecision) (dataset other : Dataset)
        (claims : Claims) (action : String), dataset.Respelled operators other →
      datasetIsVisible config evaluateRequest dataset claims action =
        datasetIsVisible config evaluateRequest other claims action) ↔
    ∀ left right, operators left right → (SpelledAsIri left ↔ SpelledAsIri right) := by
  constructor
  -- One dataset tells: under a permissive engine it is visible just when its operator is read.
  · intro invariant left right replaced
    have same := invariant {} (fun _ => .allow) _ _ ∅ "use" (constrainedDataset_respelled replaced)
    rw [constrainedDataset_visible, constrainedDataset_visible] at same
    exact (respells left right replaced).parseOperator_isSome_iff.mp same
  · intro alike config evaluateRequest dataset other claims action same
    exact same.visible_eq config (fun left right replaced =>
      (respells left right replaced).parseOperator_eq (alike left right replaced)) evaluateRequest claims action

theorem bareTerm_eq : TermRespelled "eq" "odrl:eq" :=
  .inr ⟨"eq", ⟨by decide, by decide⟩, by decide, by decide⟩

theorem prefixed_eq_visible_as_bare :
    datasetIsVisible {} (fun _ => .allow) (constrainedDataset "eq") ∅ "use" =
      datasetIsVisible {} (fun _ => .allow) (constrainedDataset "odrl:eq") ∅ "use" := by
  have respells : ∀ left right : String, left = "eq" ∧ right = "odrl:eq" → TermRespelled left right := by
    rintro left right ⟨rfl, rfl⟩
    exact bareTerm_eq
  apply (respelling_keeps_visibility_iff respells).mpr
  · rintro left right ⟨rfl, rfl⟩
    decide
  · exact constrainedDataset_respelled ⟨rfl, rfl⟩

theorem iri_eq_hides : ¬ ∀ (config : PolicyFilterConfig) (evaluateRequest : EngineRequest → WireDecision)
    (dataset other : Dataset) (claims : Claims) (action : String), dataset.Respelled TermRespelled other →
      datasetIsVisible config evaluateRequest dataset claims action =
        datasetIsVisible config evaluateRequest other claims action := by
  intro invariant
  have respelled : TermRespelled "eq" (odrlNs ++ "eq") := .inr ⟨"eq", ⟨by decide, by decide⟩, by decide, by decide⟩
  have same := invariant {} (fun _ => .allow) _ _ ∅ "use" (constrainedDataset_respelled respelled)
  rw [constrainedDataset_visible, constrainedDataset_visible] at same
  revert same
  decide

end CatalogBroker
