import CatalogBroker.Crawler.KeptEntries

/-! ODRL keys may be respelled without changing what the crawler reads.

A key stands for its term; a node of which no two keys stand for one term is read by terms alone.
-/

set_option autoImplicit false

namespace CatalogBroker

open Library

/-! ## Keys and terms -/

def odrlKeys : List String :=
  ["hasPolicy", "assigner", "assignee", "permission", "prohibition", "obligation", "action", "constraint", "target",
   "duty", "leftOperand", "operator", "rightOperand", "xone", "or", "and", "andSequence"]

/-- Two keys that are equal or spell one ODRL term. -/
def KeyRespelled (key other : String) : Prop :=
  key = other ∨ ∃ term ∈ odrlKeys, key ∈ spellings term ∧ other ∈ spellings term

/-- The term a key spells, any other key standing for itself. -/
def termOf (key : String) : String := (odrlKeys.find? fun term => key ∈ spellings term).getD key

theorem odrlKeys_colonless : ∀ term ∈ odrlKeys, ':' ∉ term.toList := by decide

theorem spellings_nodup : ∀ term ∈ odrlKeys, (spellings term).Nodup := by decide

theorem spellings_disjoint {term other key : String} (termListed : term ∈ odrlKeys) (otherListed : other ∈ odrlKeys)
    (spellsTerm : key ∈ spellings term) (spellsOther : key ∈ spellings other) : term = other := by
  have bare := odrlKeys_colonless term termListed
  have otherBare := odrlKeys_colonless other otherListed
  simp only [spellings, List.mem_cons, List.not_mem_nil, or_false] at spellsTerm spellsOther
  have colon (lead rest : String) (inside : ':' ∈ lead.toList) : ':' ∈ (lead ++ rest).toList := by
    rw [String.toList_append]
    exact List.mem_append_left _ inside
  have apart (left right : String) : "odrl:" ++ left ≠ odrlNs ++ right := by
    intro same
    have chars := congrArg String.toList same
    simp [String.toList_append, odrlNs] at chars
  rcases spellsTerm with rfl | rfl | rfl
  · rcases spellsOther with same | same | same
    · exact same
    · exact absurd (by rw [same]; exact colon _ _ (by decide)) bare
    · exact absurd (by rw [same]; exact colon _ _ (by decide)) bare
  · rcases spellsOther with same | same | same
    · exact absurd (by rw [← same]; exact colon _ _ (by decide)) otherBare
    · simpa using same
    · exact absurd same (apart _ _)
  · rcases spellsOther with same | same | same
    · exact absurd (by rw [← same]; exact colon _ _ (by decide)) otherBare
    · exact absurd same.symm (apart _ _)
    · simpa using same

theorem termOf_eq_iff {key term : String} (listed : term ∈ odrlKeys) : termOf key = term ↔ key ∈ spellings term := by
  unfold termOf
  cases found : odrlKeys.find? fun term => key ∈ spellings term with
  | some other =>
    have otherListed := List.mem_of_find?_eq_some found
    have spells : key ∈ spellings other := by simpa using List.find?_some found
    constructor
    · rintro rfl
      exact spells
    · intro spellsTerm
      exact spellings_disjoint otherListed listed spells spellsTerm
  | none =>
    have unspelled := List.find?_eq_none.mp found
    constructor
    · rintro rfl
      exact absurd (by simp [spellings]) (unspelled key listed)
    · intro spells
      exact absurd (by simpa using spells) (unspelled term listed)

def IsPlainKey (name : String) : Prop := ∀ term ∈ odrlKeys, name ∉ spellings term

instance (name : String) : Decidable (IsPlainKey name) :=
  inferInstanceAs (Decidable (∀ term ∈ odrlKeys, name ∉ spellings term))

theorem termOf_eq_plain_iff {key name : String} (plain : IsPlainKey name) : termOf key = name ↔ key = name := by
  unfold termOf
  cases found : odrlKeys.find? fun term => key ∈ spellings term with
  | some other =>
    have listed := List.mem_of_find?_eq_some found
    constructor
    · rintro rfl
      exact absurd (by simp [spellings]) (plain other listed)
    · rintro rfl
      exact absurd (by simpa using List.find?_some found) (plain other listed)
  | none => simp

theorem eq_plain_iff {key other name : String} (terms : termOf key = termOf other) (plain : IsPlainKey name) :
    key = name ↔ other = name := by
  rw [← termOf_eq_plain_iff plain, terms, termOf_eq_plain_iff plain]

theorem KeyRespelled.termOf_eq {key other : String} (same : KeyRespelled key other) : termOf key = termOf other := by
  rcases same with rfl | ⟨term, listed, spells, otherSpells⟩
  · rfl
  · rw [(termOf_eq_iff listed).mpr spells, (termOf_eq_iff listed).mpr otherSpells]

/-! ## Nodes -/

/-- No two keys of a node spell one term. -/
def DistinctTerms (members : List (String × Json)) : Prop := (members.map fun member => termOf member.1).Nodup

mutual
/-- One value with keys of its nodes respelled, their order aside; no node has two spellings of a key. -/
def Json.Respelled : Json → Json → Prop
  | .array items, other => match other with
    | .array others => Json.AllRespelled items others
    | _ => False
  | .object members, other => match other with
    | .object others => DistinctTerms members ∧ DistinctTerms others ∧
      ∃ reordered, reordered.Perm others ∧ Json.MembersRespelled members reordered
    | _ => False
  | .null, other => other = .null
  | .bool value, other => other = .bool value
  | .number value, other => other = .number value
  | .string value, other => other = .string value

def Json.AllRespelled : List Json → List Json → Prop
  | [], [] => True
  | item :: items, other :: others => Json.Respelled item other ∧ AllRespelled items others
  | [], _ :: _ => False
  | _ :: _, [] => False

def Json.MembersRespelled : List (String × Json) → List (String × Json) → Prop
  | [], [] => True
  | (key, value) :: members, (other, otherValue) :: others =>
    KeyRespelled key other ∧ Json.Respelled value otherValue ∧ MembersRespelled members others
  | [], _ :: _ => False
  | _ :: _, [] => False
end

theorem Json.allRespelled_iff {items others : List Json} :
    AllRespelled items others ↔ List.Forall₂ Respelled items others := by
  induction items generalizing others with
  | nil => cases others <;> simp [AllRespelled]
  | cons item items ih => cases others <;> simp [AllRespelled, ih]

def valueOf (members : List (String × Json)) (term : String) : Option Json :=
  (members.find? fun member => termOf member.1 = term).map Prod.snd

theorem valueOf_cons (key term : String) (own : Json) (members : List (String × Json)) :
    valueOf ((key, own) :: members) term = if termOf key = term then some own else valueOf members term := by
  unfold valueOf
  rw [List.find?_cons]
  by_cases same : termOf key = term <;> simp [same]

theorem valueOf_eq_some_iff {members : List (String × Json)} (distinct : DistinctTerms members) {term : String}
    {value : Json} : valueOf members term = some value ↔ ∃ key, (key, value) ∈ members ∧ termOf key = term := by
  induction members with
  | nil => simp [valueOf]
  | cons member members ih =>
    -- no other key spells the term of this one
    rw [DistinctTerms, List.map_cons, List.nodup_cons] at distinct
    obtain ⟨key, own⟩ := member
    rw [valueOf_cons]
    by_cases same : termOf key = term
    · rw [if_pos same]
      constructor
      · rintro ⟨⟩
        exact ⟨key, List.mem_cons_self, same⟩
      · rintro ⟨other, listed, named⟩
        rcases List.mem_cons.mp listed with equal | later
        · cases equal
          rfl
        · exact absurd (List.mem_map.mpr ⟨(other, value), later, named.trans same.symm⟩) distinct.1
    · rw [if_neg same, ih distinct.2]
      constructor
      · rintro ⟨other, later, named⟩
        exact ⟨other, List.mem_cons_of_mem _ later, named⟩
      · rintro ⟨other, listed, named⟩
        rcases List.mem_cons.mp listed with equal | later
        · cases equal
          exact absurd named same
        · exact ⟨other, later, named⟩

theorem lookup_eq_valueOf {name : String} (plain : IsPlainKey name) (members : List (String × Json)) :
    members.lookup name = valueOf members name := by
  induction members with
  | nil => rfl
  | cons member members ih =>
    obtain ⟨key, own⟩ := member
    rw [valueOf_cons, List.lookup_cons, ih]
    by_cases same : key = name
    · simp [same, (termOf_eq_plain_iff plain).mpr rfl]
    · rw [if_neg (fun named => same ((termOf_eq_plain_iff plain).mp named)), beq_false_of_ne (Ne.symm same)]

/-- The one spelling a node has for a term is found under the three keys looked up. -/
theorem aliasedAll_eq_valueOf {members : List (String × Json)} (distinct : DistinctTerms members) {term : String}
    (listed : term ∈ odrlKeys) : aliasedAll (.object members) term = (valueOf members term).toList := by
  induction members with
  | nil => simp [aliasedAll, Json.get?, valueOf]
  | cons member members ih =>
    rw [DistinctTerms, List.map_cons, List.nodup_cons] at distinct
    obtain ⟨key, own⟩ := member
    have rest := ih distinct.2
    rw [valueOf_cons]
    have found (name : String) : (Json.object ((key, own) :: members)).get? name =
        if name = key then some own else (Json.object members).get? name := by
      by_cases same : name = key
      · simp [Json.get?, same]
      · simp [Json.get?, same, List.lookup_cons, beq_false_of_ne same]
    by_cases same : termOf key = term
    · -- the other keys of the term are not in the node
      have spells := (termOf_eq_iff listed).mp same
      have absent : valueOf members term = none := by
        rw [valueOf, Option.map_eq_none_iff, List.find?_eq_none]
        intro other member named
        rw [decide_eq_true_eq] at named
        exact distinct.1 (List.mem_map.mpr ⟨other, member, named.trans same.symm⟩)
      rw [absent, aliasedAll] at rest
      have none_left : ∀ name ∈ spellings term, (Json.object members).get? name = none :=
        List.filterMap_eq_nil_iff.mp rest
      rw [if_pos same, aliasedAll]
      apply Listing.filterMap_eq_singleton (spellings_nodup term listed) spells
      · rw [found, if_pos rfl]
      · intro name listedName other
        rw [found, if_neg other]
        exact none_left name listedName
    -- This member spells another term, so none of the three keys meets it.
    · have others : ∀ name ∈ spellings term, (Json.object ((key, own) :: members)).get? name =
          (Json.object members).get? name := by
        intro name spells
        rw [found, if_neg]
        rintro rfl
        exact same ((termOf_eq_iff listed).mpr spells)
      rw [if_neg same, ← rest, aliasedAll, aliasedAll]
      exact List.filterMap_congr others

/-! ## What respelled values have in common -/

theorem DistinctTerms.perm {members others : List (String × Json)} (order : members.Perm others)
    (distinct : DistinctTerms others) : DistinctTerms members :=
  (order.map fun member : String × Json => termOf member.1).nodup_iff.mpr distinct

theorem valueOf_perm {members others : List (String × Json)} (order : members.Perm others)
    (distinct : DistinctTerms others) (term : String) : valueOf members term = valueOf others term := by
  ext value
  rw [valueOf_eq_some_iff (distinct.perm order), valueOf_eq_some_iff distinct]
  simp only [order.mem_iff]

theorem valueOf_membersRespelled {members others : List (String × Json)}
    (same : Json.MembersRespelled members others) (term : String) :
    Option.Rel Json.Respelled (valueOf members term) (valueOf others term) := by
  induction members generalizing others with
  | nil =>
    cases others with
    | nil => exact .none
    | cons => exact same.elim
  | cons member members ih =>
    cases others with
    | nil => exact same.elim
    | cons other others =>
      obtain ⟨keys, values, rest⟩ := same
      rw [valueOf_cons, valueOf_cons, keys.termOf_eq]
      split
      · exact .some values
      · exact ih rest

theorem Json.Respelled.valueOf {members others : List (String × Json)}
    (same : Json.Respelled (.object members) (.object others)) (term : String) :
    Option.Rel Json.Respelled (CatalogBroker.valueOf members term) (CatalogBroker.valueOf others term) := by
  obtain ⟨_, distinct, reordered, order, respelled⟩ := same
  rw [← valueOf_perm order distinct]
  exact valueOf_membersRespelled respelled term

theorem Json.Respelled.isObject_eq {value other : Json} (same : value.Respelled other) :
    value.isObject = other.isObject := by
  cases value <;> cases other <;> first | rfl | cases same

theorem Json.Respelled.aliasedAll {value other : Json} (same : value.Respelled other) {term : String}
    (listed : term ∈ odrlKeys) :
    List.Forall₂ Json.Respelled (CatalogBroker.aliasedAll value term) (CatalogBroker.aliasedAll other term) := by
  cases node : value.isObject with
  | false =>
    rw [aliasedAll_of_not_object node, aliasedAll_of_not_object (same.isObject_eq ▸ node)]
    exact .nil
  | true =>
    cases value with
    | object members =>
      cases other with
      | object others =>
        rw [aliasedAll_eq_valueOf same.1 listed, aliasedAll_eq_valueOf same.2.1 listed]
        exact Listing.forall₂_toList (same.valueOf term)
      | _ => cases same
    | _ => cases node

theorem Json.Respelled.get? {value other : Json} (same : value.Respelled other) (name : String)
    (plain : IsPlainKey name) : Option.Rel Json.Respelled (value.get? name) (other.get? name) := by
  cases value with
  | object members =>
    cases other with
    | object others =>
      rw [Json.get?, Json.get?, lookup_eq_valueOf plain, lookup_eq_valueOf plain]
      exact same.valueOf name
    | _ => cases same
  | _ => cases other <;> first | exact .none | cases same

theorem Json.Respelled.asStr?_eq {value other : Json} (same : value.Respelled other) :
    value.asStr? = other.asStr? := by
  cases value <;> cases other <;> first | rfl | cases same <;> rfl

theorem Json.Respelled.bind_asStr? {value other : Option Json} (same : Option.Rel Json.Respelled value other) :
    value.bind Json.asStr? = other.bind Json.asStr? := by
  cases same with
  | none => rfl
  | some related => exact related.asStr?_eq

theorem Json.Respelled.of_single {key : String} {inner : Json} {others : List (String × Json)}
    (same : Json.Respelled (.object [(key, inner)]) (.object others)) :
    ∃ otherKey otherInner, others = [(otherKey, otherInner)] ∧ termOf key = termOf otherKey ∧
      inner.Respelled otherInner := by
  obtain ⟨_, _, reordered, order, respelled⟩ := same
  cases reordered with
  | nil => exact respelled.elim
  | cons first rest =>
    obtain ⟨keys, values, none_left⟩ := respelled
    cases rest with
    | nil => exact ⟨first.1, first.2, List.singleton_perm.mp order |>.symm ▸ rfl, keys.termOf_eq, values⟩
    | cons => exact none_left.elim

theorem Json.MembersRespelled.length_eq {members others : List (String × Json)}
    (same : Json.MembersRespelled members others) : members.length = others.length := by
  induction members generalizing others with
  | nil => cases others with
    | nil => rfl
    | cons => exact same.elim
  | cons member members ih => cases others with
    | nil => exact same.elim
    | cons other others => rw [List.length_cons, List.length_cons, ih same.2.2]

theorem oneOrMany_of_length_ne {members : List (String × Json)} (several : members.length ≠ 1) :
    oneOrMany (.object members) = [.object members] := by
  cases members with
  | nil => rfl
  | cons first rest => cases rest with
    | nil => exact absurd rfl several
    | cons => rfl

theorem Json.Respelled.oneOrMany {value other : Json} (same : value.Respelled other) :
    List.Forall₂ Json.Respelled (CatalogBroker.oneOrMany value) (CatalogBroker.oneOrMany other) := by
  induction value generalizing other with
  | array items =>
    cases other with
    | array others => exact Json.allRespelled_iff.mp same
    | _ => cases same
  | object members ih =>
    cases other with
    | object others =>
      -- `@list` and `@set` are unwrapped where they are the only key, and no respelling makes or hides them
      by_cases single : members.length = 1
      · obtain ⟨⟨key, inner⟩, rfl⟩ := List.length_eq_one_iff.mp single
        obtain ⟨otherKey, otherInner, rfl, terms, below⟩ := same.of_single
        have list : key = "@list" ↔ otherKey = "@list" := eq_plain_iff terms (by decide)
        have set : key = "@set" ↔ otherKey = "@set" := eq_plain_iff terms (by decide)
        simp only [CatalogBroker.oneOrMany, list, set]
        split
        · exact ih (key, inner) List.mem_cons_self below
        · exact .cons same .nil
      · have several : others.length ≠ 1 := by
          obtain ⟨_, _, reordered, order, respelled⟩ := same
          rwa [← order.length_eq, ← respelled.length_eq]
        rw [oneOrMany_of_length_ne single, oneOrMany_of_length_ne several]
        exact .cons same .nil
    | _ => cases same
  | _ => cases other <;> first | exact .cons same .nil | cases same

theorem forall₂_flatMap {items others : List Json} (same : List.Forall₂ Json.Respelled items others) :
    List.Forall₂ Json.Respelled (items.flatMap oneOrMany) (others.flatMap oneOrMany) := by
  induction same with
  | nil => exact .nil
  | cons first _ ih => exact List.rel_append first.oneOrMany ih

theorem Json.Respelled.entries {value other : Json} (same : value.Respelled other) {term : String}
    (listed : term ∈ odrlKeys) :
    List.Forall₂ Json.Respelled (oneOrManyAliased value term) (oneOrManyAliased other term) :=
  forall₂_flatMap (same.aliasedAll listed)

/-! ## Scalars -/

theorem Json.MembersRespelled.all_keys {members others : List (String × Json)}
    (same : Json.MembersRespelled members others) (names : List String) (plain : ∀ name ∈ names, IsPlainKey name) :
    (members.all fun member => member.1 ∈ names) = others.all fun member => member.1 ∈ names := by
  induction members generalizing others with
  | nil => cases others with
    | nil => rfl
    | cons => exact same.elim
  | cons member members ih => cases others with
    | nil => exact same.elim
    | cons other others =>
      obtain ⟨keys, _, rest⟩ := same
      have known : member.1 ∈ names ↔ other.1 ∈ names := by
        constructor
        · intro listed
          rwa [(eq_plain_iff keys.termOf_eq (plain _ listed)).mp rfl]
        · intro listed
          rwa [(eq_plain_iff keys.termOf_eq (plain _ listed)).mpr rfl]
      rw [List.all_cons, List.all_cons, ih rest]
      simp only [known]

theorem Json.Respelled.node_scalar {members others : List (String × Json)}
    (same : Json.Respelled (.object members) (.object others)) :
    jsonLdScalar (.object members) = jsonLdScalar (.object others) := by
  have held := same.get? "@value" (by decide)
  have reference := same.get? "@id" (by decide)
  have keys : (members.all fun member => member.1 = "@id" ∨ member.1 = "@type") =
      others.all fun member => member.1 = "@id" ∨ member.1 = "@type" := by
    obtain ⟨_, _, reordered, order, respelled⟩ := same
    have listed := respelled.all_keys ["@id", "@type"] (by decide)
    rw [← order.all_eq]
    simpa using listed
  have named : (members.lookup "@id").bind Json.asStr? = (others.lookup "@id").bind Json.asStr? :=
    Json.Respelled.bind_asStr? reference
  change Option.Rel Json.Respelled (members.lookup "@value") (others.lookup "@value") at held
  simp only [jsonLdScalar, keys, named]
  generalize members.lookup "@value" = value at held ⊢
  generalize others.lookup "@value" = other at held ⊢
  cases held with
  | none => rfl
  | @some value other related =>
    cases value <;> cases other <;> first | rfl | cases related <;> rfl

theorem Json.Respelled.scalar {value other : Json} (same : value.Respelled other) :
    jsonLdScalar value = jsonLdScalar other := by
  induction value generalizing other with
  | array items ih =>
    cases other with
    | array others =>
      have pairs := Json.allRespelled_iff.mp same
      cases pairs with
      | nil => rfl
      | cons first rest =>
        cases rest with
        | nil =>
          have entry := ih _ List.mem_cons_self first
          exact entry
        | cons => rfl
    | _ => cases same
  | object members _ =>
    cases other with
    | object others => exact same.node_scalar
    | _ => cases same
  | _ => cases other <;> first | rfl | cases same <;> rfl

theorem Json.Respelled.getField {value other : Json} (same : value.Respelled other) {term : String}
    (listed : term ∈ odrlKeys) : CatalogBroker.getField value term = CatalogBroker.getField other term := by
  have pairs := same.aliasedAll listed
  unfold CatalogBroker.getField
  generalize CatalogBroker.aliasedAll value term = left at pairs ⊢
  generalize CatalogBroker.aliasedAll other term = right at pairs ⊢
  cases pairs with
  | nil => rfl
  | cons first rest =>
    cases rest with
    | nil => simp only [first.scalar]
    | cons => rfl

theorem Json.Respelled.absent_eq {value other : Json} (same : value.Respelled other) {term : String}
    (listed : term ∈ odrlKeys) :
    (CatalogBroker.aliasedAll value term).isEmpty = (CatalogBroker.aliasedAll other term).isEmpty := by
  have lengths := (same.aliasedAll listed).length_eq
  rw [Bool.eq_iff_iff, List.isEmpty_iff_length_eq_zero, List.isEmpty_iff_length_eq_zero, lengths]

/-! ## Policies up to the text of their markers -/

def AtomicConstraint.withoutExcerpt (leaf : AtomicConstraint) : AtomicConstraint :=
  if leaf.leftOperand = "" ∧ leaf.operator = unmappableOperator then { leaf with rightOperand := "" } else leaf

mutual
def Constraint.withoutExcerpts : Constraint → Constraint
  | .atomic leaf => .atomic leaf.withoutExcerpt
  | .logical operator children => .logical operator (Constraint.allWithoutExcerpts children)

def Constraint.allWithoutExcerpts : List Constraint → List Constraint
  | [] => []
  | child :: children => child.withoutExcerpts :: allWithoutExcerpts children
end

def Rule.withoutExcerpts (rule : Rule) : Rule :=
  { rule with constraints := rule.constraints.map Constraint.withoutExcerpts }

def Policy.withoutExcerpts (policy : Policy) : Policy :=
  { policy with
    permissions := policy.permissions.map Rule.withoutExcerpts
    prohibitions := policy.prohibitions.map Rule.withoutExcerpts
    obligations := policy.obligations.map Rule.withoutExcerpts }

theorem Constraint.allWithoutExcerpts_eq (children : List Constraint) :
    allWithoutExcerpts children = children.map withoutExcerpts := by
  induction children with
  | nil => rfl
  | cons child children ih => rw [allWithoutExcerpts, ih, List.map_cons]

@[simp] theorem Constraint.withoutExcerpts_unmappable (raw : String) :
    (unmappable raw).withoutExcerpts = .atomic ⟨"", unmappableOperator, ""⟩ := by
  simp [unmappable, withoutExcerpts, AtomicConstraint.withoutExcerpt]

@[simp] theorem Rule.withoutExcerpts_unmappableRule (raw : Json) :
    (unmappableRule raw).withoutExcerpts = ⟨unmappableAction, [.atomic ⟨"", unmappableOperator, ""⟩]⟩ := by
  simp [unmappableRule, withoutExcerpts]

section

variable {value other : Json} (same : value.Respelled other)
include same

theorem logicalPresent_respelled : logicalPresent value = logicalPresent other := by
  unfold logicalPresent
  apply List.filter_congr
  intro builder listed
  have known : builder.1 ∈ odrlKeys := by
    revert builder
    decide
  rw [same.absent_eq known]

theorem hasAtomicKey_respelled : hasAtomicKey value = hasAtomicKey other := by
  simp only [hasAtomicKey, List.any_cons, List.any_nil, same.absent_eq (show "leftOperand" ∈ odrlKeys by decide),
    same.absent_eq (show "operator" ∈ odrlKeys by decide), same.absent_eq (show "rightOperand" ∈ odrlKeys by decide)]

theorem readsScalar_respelled {term text : String} (listed : term ∈ odrlKeys) :
    ReadsScalar value term text ↔ ReadsScalar other term text := by
  rw [readsScalar_iff, readsScalar_iff, same.getField listed]

theorem readsAtomic_respelled {leaf : AtomicConstraint} : ReadsAtomic value leaf ↔ ReadsAtomic other leaf := by
  have left (text : String) : ReadsScalar value "leftOperand" text ↔ ReadsScalar other "leftOperand" text :=
    readsScalar_respelled same (by decide)
  have operator (text : String) : ReadsScalar value "operator" text ↔ ReadsScalar other "operator" text :=
    readsScalar_respelled same (by decide)
  have right (text : String) : ReadsScalar value "rightOperand" text ↔ ReadsScalar other "rightOperand" text :=
    readsScalar_respelled same (by decide)
  have present := logicalPresent_respelled same
  constructor
  · intro reads
    exact ⟨(left _).mp reads.left, (operator _).mp reads.operator, (right _).mp reads.right, present ▸ reads.ungrouped⟩
  · intro reads
    exact ⟨(left _).mpr reads.left, (operator _).mpr reads.operator, (right _).mpr reads.right,
      present.trans reads.ungrouped⟩

theorem readsGroup_respelled {key : String} {operator : LogicalOperator} :
    ReadsGroup value key operator ↔ ReadsGroup other key operator := by
  have present := logicalPresent_respelled same
  have atomic := hasAtomicKey_respelled same
  constructor
  · intro reads
    exact ⟨present ▸ reads.only, atomic ▸ reads.unmixed⟩
  · intro reads
    exact ⟨present.trans reads.only, atomic.trans reads.unmixed⟩

end

theorem ReadsGroup.key_listed {value : Json} {key : String} {operator : LogicalOperator}
    (reads : ReadsGroup value key operator) : key ∈ odrlKeys := by
  have builders : ∀ builder ∈ logicalConstraintBuilders, builder.1 ∈ odrlKeys := by decide
  have listed : (key, operator) ∈ logicalPresent value := by
    rw [reads.only]
    exact List.mem_singleton_self _
  exact builders (key, operator) (List.mem_of_mem_filter listed)

theorem parseConstraintWithin_respelled (levels : Nat) {value other : Json} (same : value.Respelled other) :
    (parseConstraintWithin levels value).withoutExcerpts = (parseConstraintWithin levels other).withoutExcerpts := by
  induction levels generalizing value other with
  | zero => simp [parseConstraintWithin]
  | succ levels ih =>
    rcases reads_cases value with ⟨leaf, reads⟩ | ⟨key, operator, reads⟩ | ⟨notAtomic, notGroup⟩
    · rw [parseConstraintWithin_atomic reads, parseConstraintWithin_atomic ((readsAtomic_respelled same).mp reads)]
    · rw [parseConstraintWithin_group reads, parseConstraintWithin_group ((readsGroup_respelled same).mp reads)]
      by_cases last : levels = 0
      · simp [last]
      · have children := Listing.map_forall₂ (same.entries reads.key_listed) fun _ _ related => ih related
        rw [if_neg last, if_neg last]
        simp only [Constraint.withoutExcerpts, Constraint.allWithoutExcerpts_eq, List.map_map]
        exact congrArg _ children
    · rw [parseConstraintWithin_marker notAtomic notGroup,
        parseConstraintWithin_marker (fun leaf reads => notAtomic leaf ((readsAtomic_respelled same).mpr reads))
          fun key operator reads => notGroup key operator ((readsGroup_respelled same).mpr reads)]
      simp

theorem unheldKeyMarker_respelled {value other : Json} (same : value.Respelled other) {key : String}
    (listed : key ∈ odrlKeys) : ((unheldKeyMarker value key).map Constraint.withoutExcerpts) =
      (unheldKeyMarker other key).map Constraint.withoutExcerpts := by
  rw [unheldKeyMarker, unheldKeyMarker, same.absent_eq listed]
  split
  · rfl
  · simp

theorem parseRule_respelled {value other : Json} (same : value.Respelled other) :
    (parseRule value).withoutExcerpts = (parseRule other).withoutExcerpts := by
  rw [parseRule, parseRule, same.isObject_eq]
  by_cases node : other.isObject = true
  · have action := same.getField (show "action" ∈ odrlKeys by decide)
    have constraints : (parseConstraints (oneOrManyAliased value "constraint")).map Constraint.withoutExcerpts =
        (parseConstraints (oneOrManyAliased other "constraint")).map Constraint.withoutExcerpts := by
      rw [parseConstraints, parseConstraints, List.map_map, List.map_map]
      exact Listing.map_forall₂ (same.entries (by decide)) fun _ _ related => parseConstraintWithin_respelled _ related
    have unheld : (["assignee", "target", "duty"].filterMap (unheldKeyMarker value)).map Constraint.withoutExcerpts =
        (["assignee", "target", "duty"].filterMap (unheldKeyMarker other)).map Constraint.withoutExcerpts := by
      rw [List.map_filterMap, List.map_filterMap]
      apply List.filterMap_congr
      intro key listed
      have known : key ∈ odrlKeys := by
        revert key
        decide
      exact unheldKeyMarker_respelled same known
    simp only [node, Bool.not_true, Bool.false_eq_true, if_false, action]
    cases getField other "action" <;> simp [Rule.withoutExcerpts, constraints, unheld]
  · simp [node]

theorem parseRules_respelled {value other : Json} (same : value.Respelled other) {key : String}
    (listed : key ∈ odrlKeys) :
    (parseRules value key).map Rule.withoutExcerpts = (parseRules other key).map Rule.withoutExcerpts := by
  rw [parseRules, parseRules, List.map_map, List.map_map]
  exact Listing.map_forall₂ (same.entries listed) fun _ _ related => parseRule_respelled related

theorem parsePolicy_respelled {value other : Json} (same : value.Respelled other) :
    (parsePolicy value).withoutExcerpts = (parsePolicy other).withoutExcerpts := by
  have id := Json.Respelled.bind_asStr? (same.get? "@id" (by decide))
  have kind : parsePolicyKind value = parsePolicyKind other := by
    rw [parsePolicyKind, parsePolicyKind, Json.Respelled.bind_asStr? (same.get? "@type" (by decide))]
  have assigner := same.getField (show "assigner" ∈ odrlKeys by decide)
  have assignee := same.getField (show "assignee" ∈ odrlKeys by decide)
  have permissions := parseRules_respelled same (show "permission" ∈ odrlKeys by decide)
  have prohibitions := parseRules_respelled same (show "prohibition" ∈ odrlKeys by decide)
  have obligations := parseRules_respelled same (show "obligation" ∈ odrlKeys by decide)
  have ruleless : (ruleKeys.all fun key => (aliasedAll value key).isEmpty) =
      ruleKeys.all fun key => (aliasedAll other key).isEmpty := by
    simp only [ruleKeys, List.all_cons, List.all_nil, same.absent_eq (show "permission" ∈ odrlKeys by decide),
      same.absent_eq (show "prohibition" ∈ odrlKeys by decide), same.absent_eq (show "obligation" ∈ odrlKeys by decide)]
  unfold parsePolicy
  rw [id, kind, assigner, assignee, ruleless]
  cases getField other "assignee" <;> split <;>
    simp [Policy.withoutExcerpts, permissions, prohibitions, obligations]

theorem parsePolicyEntry_respelled {value other : Json} (same : value.Respelled other) :
    (parsePolicyEntry value).withoutExcerpts = (parsePolicyEntry other).withoutExcerpts := by
  rw [parsePolicyEntry, parsePolicyEntry, same.isObject_eq]
  split
  · exact parsePolicy_respelled same
  · simp [Policy.withoutExcerpts]

/-- Respelling the keys of a dataset node changes nothing but the text of markers. -/
theorem parsePolicies_respelled {value other : Json} (same : value.Respelled other) :
    (parsePolicies value).map Policy.withoutExcerpts = (parsePolicies other).map Policy.withoutExcerpts := by
  rw [parsePolicies, parsePolicies, List.map_map, List.map_map]
  exact Listing.map_forall₂ (same.entries (by decide)) fun _ _ related => parsePolicyEntry_respelled related

def compactNode : Json := .object [("@id", .string "cars"),
  ("hasPolicy", .object [("prohibition", .array [.object [("action", .string "use"), ("duty", .string "pay")]])])]

def prefixedNode : Json := .object [("@id", .string "cars"),
  ("odrl:hasPolicy", .object [("http://www.w3.org/ns/odrl/2/prohibition",
    .array [.object [("odrl:action", .string "use"), ("duty", .string "pay")]])])]

theorem prefixedNode_respells : compactNode.Respelled prefixedNode := by
  have rule : Json.Respelled (.object [("action", .string "use"), ("duty", .string "pay")])
      (.object [("odrl:action", .string "use"), ("duty", .string "pay")]) :=
    ⟨by unfold DistinctTerms; decide, by unfold DistinctTerms; decide, _, .refl _,
      .inr ⟨"action", by decide, by decide, by decide⟩, rfl, .inl rfl, rfl, trivial⟩
  have policy : Json.Respelled
      (.object [("prohibition", .array [.object [("action", .string "use"), ("duty", .string "pay")]])])
      (.object [("http://www.w3.org/ns/odrl/2/prohibition",
        .array [.object [("odrl:action", .string "use"), ("duty", .string "pay")]])]) :=
    ⟨by unfold DistinctTerms; decide, by unfold DistinctTerms; decide, _, .refl _,
      .inr ⟨"prohibition", by decide, by decide, by decide⟩, ⟨rule, trivial⟩, trivial⟩
  exact ⟨by unfold DistinctTerms; decide, by unfold DistinctTerms; decide, _, .refl _, .inl rfl, rfl,
    .inr ⟨"hasPolicy", by decide, by decide, by decide⟩, policy, trivial⟩

theorem prefixedNode_parsed_alike : (parsePolicies compactNode).map Policy.withoutExcerpts =
    (parsePolicies prefixedNode).map Policy.withoutExcerpts :=
  parsePolicies_respelled prefixedNode_respells

end CatalogBroker
