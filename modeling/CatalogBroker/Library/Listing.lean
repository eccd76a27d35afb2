import Mathlib

/-! Lists read back from an unordered source and put in order by position. -/

set_option autoImplicit false

namespace Library.Listing

variable {α β γ ε : Type}

/-- A stable sort by position, after which the positions are dropped. -/
def inSequence (entries : List (Nat × α)) : List α :=
  (entries.insertionSort fun first second => first.1 ≤ second.1).map Prod.snd

theorem map_mapIdx (f : Nat → α → β) (g : β → γ) (items : List α) :
    (items.mapIdx f).map g = items.mapIdx fun i item => g (f i item) :=
  List.ext_getElem (by simp) (by simp)

theorem mapIdx_eq_map (f : α → β) (items : List α) : (items.mapIdx fun _ item => f item) = items.map f :=
  List.ext_getElem (by simp) (by simp)

theorem zip_map_self (f : α → β) (items : List α) :
    items.zip (items.map f) = items.map fun item => (item, f item) := by
  induction items with
  | nil => rfl
  | cons item items ih => rw [List.map_cons, List.zip_cons_cons, ih, List.map_cons]

theorem forall₂_map {relation : α → β → Prop} {f : α → β} {items : List α}
    (each : ∀ item ∈ items, relation item (f item)) : List.Forall₂ relation items (items.map f) :=
  List.forall₂_map_right_iff.mpr (List.forall₂_same.mpr each)

theorem forall₂_toList {relation : α → β → Prop} {item : Option α} {other : Option β}
    (same : Option.Rel relation item other) : List.Forall₂ relation item.toList other.toList := by
  cases same with
  | none => exact .nil
  | some related => exact .cons related .nil

theorem map_forall₂ {relation : α → β → Prop} {f : α → γ} {g : β → γ} {items : List α} {others : List β}
    (same : List.Forall₂ relation items others) (each : ∀ item other, relation item other → f item = g other) :
    items.map f = others.map g := by
  induction same with
  | nil => rfl
  | cons first _ ih => rw [List.map_cons, List.map_cons, each _ _ first, ih]

theorem exists_of_forall₂ {relation : α → β → Prop} {items : List α} {others : List β}
    (same : List.Forall₂ relation items others) {other : β} (member : other ∈ others) :
    ∃ item ∈ items, relation item other := by
  induction same with
  | nil => cases member
  | cons first _ ih =>
    rcases List.mem_cons.mp member with rfl | later
    · exact ⟨_, List.mem_cons_self, first⟩
    · obtain ⟨item, listed, related⟩ := ih later
      exact ⟨item, List.mem_cons_of_mem _ listed, related⟩

theorem filterMap_eq_singleton {f : α → Option β} {items : List α} (nodup : items.Nodup) {item : α}
    (member : item ∈ items) {value : β} (own : f item = some value)
    (others : ∀ other ∈ items, other ≠ item → f other = none) : items.filterMap f = [value] := by
  induction items with
  | nil => cases member
  | cons head items ih =>
    obtain ⟨fresh, rest⟩ := List.nodup_cons.mp nodup
    rcases List.mem_cons.mp member with rfl | later
    · have none_left : items.filterMap f = [] := List.filterMap_eq_nil_iff.mpr fun other listed =>
        others other (List.mem_cons_of_mem _ listed) fun same => fresh (same ▸ listed)
      rw [List.filterMap_cons_some own, none_left]
    · rw [List.filterMap_cons_none (others head List.mem_cons_self fun same => fresh (same ▸ later))]
      exact ih rest later fun other listed => others other (List.mem_cons_of_mem _ listed)

theorem lookup_map_mk [DecidableEq α] (f : α → β) (keys : List α) (key : α) :
    (keys.map fun key => (key, f key)).lookup key = if key ∈ keys then some (f key) else none := by
  induction keys with
  | nil => rfl
  | cons head keys ih =>
    by_cases same : key = head
    · subst same
      simp
    · rw [List.map_cons, List.lookup_cons, beq_false_of_ne same, ih]
      simp [same]

theorem nodup_mapIdx {f : Nat → α → β} {items : List α}
    (distinct : ∀ i j (boundI : i < items.length) (boundJ : j < items.length),
      f i items[i] = f j items[j] → i = j) : (items.mapIdx f).Nodup := by
  rw [List.nodup_iff_injective_getElem]
  intro ⟨i, boundI⟩ ⟨j, boundJ⟩ same
  simp only [List.getElem_mapIdx] at same
  simp only [List.length_mapIdx] at boundI boundJ
  exact Fin.ext (distinct i j boundI boundJ same)

theorem pairwise_mapIdx_mk (items : List α) :
    (items.mapIdx Prod.mk).Pairwise fun first second => first.1 ≤ second.1 := by
  rw [List.pairwise_iff_getElem]
  intro i j boundI boundJ before
  simp only [List.getElem_mapIdx]
  omega

theorem inSequence_of_perm {entries : List (Nat × α)} {items : List α}
    (same : entries.Perm (items.mapIdx Prod.mk)) : inSequence entries = items := by
  have sorted : (entries.insertionSort fun first second => first.1 ≤ second.1) = items.mapIdx Prod.mk := by
    refine @List.Perm.eq_of_pairwise _ (fun first second => first.1 ≤ second.1) _ _ ?_
      (List.pairwise_insertionSort _ _) (pairwise_mapIdx_mk items)
      ((List.perm_insertionSort _ _).trans same)
    intro first second memberFirst memberSecond below above
    have fromFirst := ((List.perm_insertionSort _ _).trans same).mem_iff.mp memberFirst
    obtain ⟨i, boundI, rfl⟩ := List.mem_mapIdx.mp fromFirst
    obtain ⟨j, boundJ, rfl⟩ := List.mem_mapIdx.mp memberSecond
    have : i = j := Nat.le_antisymm below above
    subst this
    rfl
  rw [inSequence, sorted]
  exact List.ext_getElem (by simp) (by simp)

theorem mapM_cons_eq_ok {f : α → Except ε β} {item : α} {items : List α} {results : List β} :
    (item :: items).mapM f = .ok results ↔
      ∃ value values, f item = .ok value ∧ items.mapM f = .ok values ∧ results = value :: values := by
  rw [List.mapM_cons]
  cases first : f item with
  | error e => simp [bind, Except.bind]
  | ok value =>
    cases rest : items.mapM f with
    | error e => simp [bind, Except.bind]
    | ok values => simp [bind, Except.bind, pure, Except.pure, eq_comm]

theorem mapM_ok {f : α → Except ε β} {g : α → β} {items : List α}
    (each : ∀ item ∈ items, f item = .ok (g item)) : items.mapM f = .ok (items.map g) := by
  induction items with
  | nil => rfl
  | cons item items ih =>
    exact mapM_cons_eq_ok.mpr ⟨g item, items.map g, each item (by simp),
      ih fun other member => each other (by simp [member]), rfl⟩

theorem mapM_congr {f g : α → Except ε β} {items : List α} (each : ∀ item ∈ items, f item = g item) :
    items.mapM f = items.mapM g := by
  induction items with
  | nil => rfl
  | cons item items ih =>
    rw [List.mapM_cons, List.mapM_cons, each item (by simp), ih fun other member => each other (by simp [member])]

theorem mapM_forall₂ {f : α → Except ε γ} {g : β → Except ε γ} {items : List α} {others : List β}
    (same : List.Forall₂ (fun item other => f item = g other) items others) : items.mapM f = others.mapM g := by
  induction same with
  | nil => rfl
  | cons first _ ih => rw [List.mapM_cons, List.mapM_cons, first, ih]

@[simp] theorem isOk_bind_pure (result : Except ε α) (next : α → β) :
    (result >>= fun value => pure (next value)).isOk = result.isOk := by
  cases result <;> rfl

theorem isOk_mapM (f : α → Except ε β) (items : List α) :
    (items.mapM f).isOk = items.all fun item => (f item).isOk := by
  induction items with
  | nil => rfl
  | cons item items ih =>
    rw [List.mapM_cons, List.all_cons, ← ih]
    cases f item with
    | error e => rfl
    | ok value => cases items.mapM f <;> rfl

/-- Consecutive pages of one size, joined, are a beginning of the list. -/
theorem flatMap_pages (items : List α) (size count : Nat) :
    ((List.range count).flatMap fun i => (items.drop (i * size)).take size) = items.take (count * size) := by
  induction count with
  | zero => simp
  | succ count ih => rw [List.range_succ, List.flatMap_append, ih, Nat.succ_mul, List.take_add]; simp

theorem mapM_perm {f : α → Except ε β} {items others : List α} {results : List β}
    (order : items.Perm others) (passed : others.mapM f = .ok results) :
    ∃ collected, items.mapM f = .ok collected ∧ collected.Perm results := by
  induction order generalizing results with
  | nil => exact ⟨results, passed, .refl _⟩
  | cons item order ih =>
    obtain ⟨value, values, first, rest, rfl⟩ := mapM_cons_eq_ok.mp passed
    obtain ⟨collected, done, perm⟩ := ih rest
    exact ⟨value :: collected, mapM_cons_eq_ok.mpr ⟨value, collected, first, done, rfl⟩, perm.cons value⟩
  | swap first second items =>
    obtain ⟨value, rest, one, next, rfl⟩ := mapM_cons_eq_ok.mp passed
    obtain ⟨other, values, two, last, rfl⟩ := mapM_cons_eq_ok.mp next
    refine ⟨other :: value :: values, mapM_cons_eq_ok.mpr ⟨other, _, two, ?_, rfl⟩, .swap _ _ _⟩
    exact mapM_cons_eq_ok.mpr ⟨value, values, one, last, rfl⟩
  | trans order others ih ihOthers =>
    obtain ⟨between, done, perm⟩ := ihOthers passed
    obtain ⟨collected, finished, permBetween⟩ := ih done
    exact ⟨collected, finished, permBetween.trans perm⟩

theorem mergeSort_eq_of_perm {Key : Type} [LE Key] [DecidableLE Key] [Std.IsLinearOrder Key] {key : α → Key}
    {first second : List α} (perm : first.Perm second) (distinct : (first.map key).Nodup) :
    (first.mergeSort fun left right => key left ≤ key right) =
      second.mergeSort fun left right => key left ≤ key right := by
  have sorted (items : List α) :
      (items.mergeSort fun left right => key left ≤ key right).Pairwise fun left right => key left ≤ key right := by
    have ordered : (items.mergeSort fun left right => key left ≤ key right).Pairwise
        fun left right => decide (key left ≤ key right) = true := by
      apply List.pairwise_mergeSort
      · intro left middle right below above
        simpa using Std.IsPreorder.le_trans _ _ _ (of_decide_eq_true below) (of_decide_eq_true above)
      · intro left right
        simpa using Std.Total.total (key left) (key right)
    simpa using ordered
  refine List.Perm.eq_of_pairwise ?_ (sorted first) (sorted second)
    ((List.mergeSort_perm ..).trans (perm.trans (List.mergeSort_perm ..).symm))
  -- Two sorted lists of the same items agree where equal keys mean equal items.
  intro left right memberLeft memberRight below above
  have same : key left = key right := Std.IsPartialOrder.le_antisymm _ _ below above
  have fromLeft := List.mem_mergeSort.mp memberLeft
  have fromRight := perm.mem_iff.mpr (List.mem_mergeSort.mp memberRight)
  exact List.inj_on_of_nodup_map distinct fromLeft fromRight same

theorem mapM_mapIdx {f : α → Except ε β} {source : Nat → γ → α} {target : Nat → γ → β} {items : List γ}
    (each : ∀ i (bound : i < items.length), f (source i items[i]) = .ok (target i items[i])) :
    (items.mapIdx source).mapM f = .ok (items.mapIdx target) := by
  induction items generalizing source target with
  | nil => rfl
  | cons item items ih =>
    have first : f (source 0 item) = .ok (target 0 item) := each 0 (by simp)
    have rest : (items.mapIdx fun i => source (i + 1)).mapM f = .ok (items.mapIdx fun i => target (i + 1)) :=
      ih fun i bound => each (i + 1) (by simpa using bound)
    rw [List.mapIdx_cons, List.mapIdx_cons]
    exact mapM_cons_eq_ok.mpr ⟨_, _, first, rest, rfl⟩

theorem mapM_inSequence {f : α → Except ε (Nat × β)} {link : Nat → β → α} {found : List α} {items : List β}
    (order : found.Perm (items.mapIdx link))
    (each : ∀ i (bound : i < items.length), f (link i items[i]) = .ok (i, items[i])) :
    ∃ entries, found.mapM f = .ok entries ∧ inSequence entries = items := by
  have straight : (items.mapIdx link).mapM f = .ok (items.mapIdx Prod.mk) := mapM_mapIdx each
  obtain ⟨entries, done, perm⟩ := mapM_perm order straight
  exact ⟨entries, done, inSequence_of_perm perm⟩

/-- A map's entries inserted in any order build the same map. -/
theorem foldl_insert_eq {Key Value : Type} {order : Key → Key → Ordering} [Std.TransCmp order]
    [Std.LawfulEqCmp order] [DecidableEq Key] {map : Std.ExtTreeMap Key Value order}
    {entries : List (Key × Value)} (same : entries.Perm map.toList) :
    entries.foldl (fun built entry => built.insert entry.1 entry.2) ∅ = map := by
  have distinct : entries.Pairwise fun first second => ¬ order first.1 second.1 = .eq :=
    (same.pairwise_iff fun {first second} apart equal => apart (Std.OrientedCmp.eq_symm equal)).mpr
      Std.ExtTreeMap.distinct_keys_toList
  rw [← Std.ExtTreeMap.ofList_eq_foldl]
  refine Std.ExtTreeMap.ext_getElem? fun key => ?_
  cases present : map[key]? with
  | some value =>
    have member := same.mem_iff.mpr (Std.ExtTreeMap.mem_toList_iff_getElem?_eq_some.mpr present)
    exact Std.ExtTreeMap.getElem?_ofList_of_mem Std.ReflCmp.compare_self distinct member
  | none =>
    refine Std.ExtTreeMap.getElem?_ofList_of_contains_eq_false ?_
    by_contra listed
    rw [Bool.not_eq_false, List.contains_iff_mem] at listed
    obtain ⟨⟨_, value⟩, member, rfl⟩ := List.mem_map.mp listed
    have found := Std.ExtTreeMap.mem_toList_iff_getElem?_eq_some.mp (same.mem_iff.mp member)
    rw [present] at found
    cases found

section

variable {Key : Type} [DecidableEq Key] (key : α → Option Key)

def keepFirst (kept : List (Key × α)) (item : α) : List (Key × α) :=
  match key item with
  | some found => if found ∈ kept.map Prod.fst then kept else kept ++ [(found, item)]
  | none => kept

/-- The items that are the first of their key, in order and with it. -/
def firstByKey (items : List α) : List (Key × α) := items.foldl (keepFirst key) []

theorem firstByKey_append_singleton (items : List α) (item : α) :
    firstByKey key (items ++ [item]) = keepFirst key (firstByKey key items) item := by
  rw [firstByKey, List.foldl_append]
  rfl

theorem mem_firstByKey {items : List α} {found : Key} {item : α} :
    (found, item) ∈ firstByKey key items ↔ items.find? (fun other => key other = some found) = some item := by
  induction items using List.reverseRecOn generalizing item with
  | nil => simp [firstByKey]
  | append_singleton items last ih =>
    have listed : found ∈ (firstByKey key items).map Prod.fst ↔
        (items.find? fun other => key other = some found).isSome = true := by
      rw [List.mem_map, Option.isSome_iff_exists]
      constructor
      · rintro ⟨⟨_, earlier⟩, member, rfl⟩
        exact ⟨earlier, ih.mp member⟩
      · rintro ⟨earlier, first⟩
        exact ⟨(found, earlier), ih.mpr first, rfl⟩
    rw [firstByKey_append_singleton, List.find?_append, keepFirst]
    cases named : key last with
    | none => simp [named, ih]
    | some name =>
      by_cases same : name = found
      · subst same
        cases earlier : items.find? fun other => key other = some name with
        | some first =>
          have known := listed.mpr (by rw [earlier]; rfl)
          simp only [if_pos known, ih, earlier, Option.some_or]
        | none =>
          have fresh : name ∉ (firstByKey key items).map Prod.fst := fun known => by
            rw [listed, earlier] at known
            cases known
          simp only [if_neg fresh, List.mem_append, ih, earlier]
          simp [named, eq_comm]
      -- An item of another key, kept or not, changes nothing for this one.
      · have apart : ¬ some name = some found := by simpa using same
        by_cases known : name ∈ (firstByKey key items).map Prod.fst
        · simp only [if_pos known, ih]
          simp [named, same]
        · simp only [if_neg known, List.mem_append, ih]
          simp [named, same, Ne.symm same]

theorem firstByKey_keys_nodup (items : List α) : ((firstByKey key items).map Prod.fst).Nodup := by
  induction items using List.reverseRecOn with
  | nil => simp [firstByKey]
  | append_singleton items last ih =>
    rw [firstByKey_append_singleton, keepFirst]
    cases key last with
    | none => exact ih
    | some name =>
      by_cases known : name ∈ (firstByKey key items).map Prod.fst
      · simpa only [if_pos known] using ih
      · simp only [if_neg known, List.map_append, List.map_cons, List.map_nil]
        exact List.nodup_append.mpr ⟨ih, List.nodup_singleton name, by
          intro earlier member last single same
          rw [List.mem_singleton.mp single] at same
          exact known (same ▸ member)⟩

theorem mem_firstByKey_keys {items : List α} {found : Key} :
    found ∈ (firstByKey key items).map Prod.fst ↔ some found ∈ items.map key := by
  rw [List.mem_map, List.mem_map]
  constructor
  · rintro ⟨⟨_, item⟩, member, rfl⟩
    have first := (mem_firstByKey key).mp member
    exact ⟨item, List.mem_of_find?_eq_some first, by simpa using List.find?_some first⟩
  · rintro ⟨item, member, named⟩
    have present : (items.find? fun other => key other = some found).isSome = true := by
      rw [List.find?_isSome]
      exact ⟨item, member, by simp [named]⟩
    obtain ⟨first, isFirst⟩ := Option.isSome_iff_exists.mp present
    exact ⟨(found, first), (mem_firstByKey key).mpr isFirst, rfl⟩

theorem exists_firstByKey {items : List α} {item : α} {found : Key} (member : item ∈ items)
    (named : key item = some found) : ∃ first, (found, first) ∈ firstByKey key items := by
  have listed := (mem_firstByKey_keys key).mpr (List.mem_map.mpr ⟨item, member, named⟩)
  obtain ⟨⟨_, first⟩, kept, rfl⟩ := List.mem_map.mp listed
  exact ⟨first, kept⟩

end

theorem getElem?_set_cases {items : List α} {index other : Nat} {item found : α}
    (reads : (items.set index item)[other]? = some found) :
    other = index ∧ found = item ∨ other ≠ index ∧ items[other]? = some found := by
  by_cases same : index = other
  · subst same
    have bound : index < items.length := by
      by_contra outside
      rw [List.set_eq_of_length_le (by omega), List.getElem?_eq_none (by omega)] at reads
      cases reads
    rw [List.getElem?_set_self bound] at reads
    exact .inl ⟨rfl, (Option.some.inj reads).symm⟩
  · rw [List.getElem?_set_ne same] at reads
    exact .inr ⟨Ne.symm same, reads⟩

theorem getElem?_concat_cases {items : List α} {index : Nat} {item found : α}
    (reads : (items ++ [item])[index]? = some found) :
    items[index]? = some found ∨ index = items.length ∧ found = item := by
  rw [List.getElem?_append] at reads
  split at reads
  · exact .inl reads
  · obtain ⟨bound, same⟩ := List.getElem?_eq_some_iff.mp reads
    rw [List.length_singleton] at bound
    have last : index = items.length := by omega
    simp only [last, Nat.sub_self, List.getElem_cons_zero] at same
    exact .inr ⟨last, same.symm⟩

theorem sum_map_set_lt {weight : α → Nat} {items : List α} {index : Nat} {item other : α}
    (found : items[index]? = some item) (lighter : weight other < weight item) :
    ((items.set index other).map weight).sum < (items.map weight).sum := by
  obtain ⟨bound, rfl⟩ := List.getElem?_eq_some_iff.mp found
  have before := ((List.getElem_cons_eraseIdx_perm bound).map weight).sum_eq
  have after := ((List.set_perm_cons_eraseIdx bound other).map weight).sum_eq
  rw [List.map_cons, List.sum_cons] at before after
  omega

theorem countP_set_add (counted : α → Bool) {items : List α} {index : Nat} {item : α}
    (found : items[index]? = some item) (other : α) :
    (items.set index other).countP counted + (if counted item then 1 else 0) =
      items.countP counted + if counted other then 1 else 0 := by
  obtain ⟨bound, rfl⟩ := List.getElem?_eq_some_iff.mp found
  have before := (List.getElem_cons_eraseIdx_perm bound).countP_eq counted
  have after := (List.set_perm_cons_eraseIdx bound other).countP_eq counted
  rw [List.countP_cons] at before after
  omega

end Library.Listing
