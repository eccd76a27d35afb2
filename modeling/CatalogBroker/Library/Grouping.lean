import CatalogBroker.Library.Fallible

/-! Items grouped by a key into an ordered map, and maps built from fallible entries.

What a group holds depends on the order of the items only through the order of its
values.
-/

set_option autoImplicit false

namespace Library.Grouping

open Fallible

variable {Item Key Value Result ε : Type} [Ord Key] [Std.TransOrd Key] [Std.LawfulEqOrd Key] [DecidableEq Key]

/-- Append every item's value to the group of its key; an item without a key is passed over. -/
def collect (key : Item → Option Key) (value : Item → Value) (items : List Item) : Std.ExtTreeMap Key (List Value) :=
  items.foldl (fun found item =>
    match key item with
    | some name => found.insert name (found.getD name [] ++ [value item])
    | none => found) ∅

def group (key : Item → Option Key) (value : Item → Value) (items : List Item) (name : Key) : List Value :=
  (items.filter fun item => key item = some name).map value

variable {key : Item → Option Key} {value : Item → Value}

omit [Ord Key] [Std.TransOrd Key] [Std.LawfulEqOrd Key] in
theorem mem_group {items : List Item} {name : Key} {found : Value} :
    found ∈ group key value items name ↔ ∃ item ∈ items, key item = some name ∧ value item = found := by
  simp only [group, List.mem_map, List.mem_filter, decide_eq_true_eq, and_assoc]

omit [Ord Key] [Std.TransOrd Key] [Std.LawfulEqOrd Key] in
theorem group_perm {first second : List Item} (perm : first.Perm second) (name : Key) :
    (group key value first name).Perm (group key value second name) :=
  (perm.filter _).map value

theorem getElem?_collect (items : List Item) (name : Key) :
    (collect key value items)[name]? =
      if group key value items name = [] then none else some (group key value items name) := by
  induction items using List.reverseRecOn with
  | nil => simp [collect, group]
  | append_singleton items item ih =>
    have earlier : (collect key value items).getD name [] = group key value items name := by
      rw [Std.ExtTreeMap.getD_eq_getD_getElem?, ih]
      split
      · rename_i empty
        rw [empty]
        rfl
      · rfl
    -- the last item is added to what its group has so far
    have step : collect key value (items ++ [item]) = match key item with
        | some other => (collect key value items).insert other ((collect key value items).getD other [] ++ [value item])
        | none => collect key value items := by
      rw [collect, List.foldl_append]
      rfl
    have grown : group key value (items ++ [item]) name =
        group key value items name ++ if key item = some name then [value item] else [] := by
      unfold group
      rw [List.filter_append, List.map_append]
      by_cases same : key item = some name
      · simp [same]
      · simp [same]
    rw [step, grown]
    cases named : key item with
    | none => simpa using ih
    | some other =>
      dsimp only
      rw [Std.ExtTreeMap.getElem?_insert]
      by_cases same : other = name
      · subst same
        simp [earlier]
      · have apart : compare other name ≠ .eq := fun equal => same (Std.LawfulEqCmp.compare_eq_iff_eq.mp equal)
        rw [if_neg apart, ih, if_neg (fun equal => same (Option.some.inj equal)), List.append_nil]

theorem getD_collect (items : List Item) (name : Key) :
    (collect key value items).getD name [] = group key value items name := by
  rw [Std.ExtTreeMap.getD_eq_getD_getElem?, getElem?_collect]
  split
  · rename_i empty
    rw [empty]
    rfl
  · rfl

/-- Turn every entry of a map into one of another, under the same key. -/
def traverse (action : Key → Value → Except ε Result) (entries : Std.ExtTreeMap Key Value) :
    Except ε (Std.ExtTreeMap Key Result) := do
  let results ← entries.toList.mapM fun entry => (action entry.1 entry.2).map fun result => (entry.1, result)
  return Std.ExtTreeMap.ofList results compare

variable {action : Key → Value → Except ε Result} {entries : Std.ExtTreeMap Key Value}
  {results : Std.ExtTreeMap Key Result}

theorem traverse_getElem? (traversed : traverse action entries = .ok results) (name : Key) :
    results[name]? = entries[name]?.bind fun value => (action name value).toOption := by
  obtain ⟨listed, passed, same⟩ := bind_eq_ok.mp traversed
  cases same
  have pointwise := mapM_eq_ok.mp passed
  -- The names go through unchanged, so the rebuilt list has the map's own distinct keys.
  have keys : listed.map Prod.fst = entries.toList.map Prod.fst := by
    clear passed traversed
    generalize entries.toList = stored at pointwise
    induction pointwise with
    | nil => rfl
    | cons first rest ih =>
      obtain ⟨result, _, rfl⟩ := map_eq_ok.mp first
      rw [List.map_cons, List.map_cons, ih]
  have distinct : listed.Pairwise fun first second => ¬compare first.1 second.1 = .eq := by
    have ordered : (entries.toList.map Prod.fst).Pairwise fun first second => ¬compare first second = .eq :=
      List.pairwise_map.mpr Std.ExtTreeMap.distinct_keys_toList
    rw [← keys] at ordered
    exact List.pairwise_map.mp ordered
  cases held : entries[name]? with
  | none =>
    have absent : name ∉ listed.map Prod.fst := by
      rw [keys]
      intro member
      obtain ⟨⟨other, value⟩, stored, rfl⟩ := List.mem_map.mp member
      rw [Std.ExtTreeMap.mem_toList_iff_getElem?_eq_some, held] at stored
      cases stored
    exact Std.ExtTreeMap.getElem?_ofList_of_contains_eq_false (by simpa using absent)
  | some value =>
    have member := Std.ExtTreeMap.mem_toList_iff_getElem?_eq_some.mpr held
    obtain ⟨entry, stored, passes⟩ := exists_of_mapM passed member
    obtain ⟨result, acts, rfl⟩ := map_eq_ok.mp passes
    rw [Option.bind_some, acts]
    exact Std.ExtTreeMap.getElem?_ofList_of_mem (Std.LawfulEqCmp.compare_eq_iff_eq.mpr rfl) distinct stored

theorem traverse_eq_ok : traverse action entries = .ok results ↔
    (∀ name value, entries[name]? = some value → ∃ result, action name value = .ok result) ∧
      ∀ name, results[name]? = entries[name]?.bind fun value => (action name value).toOption := by
  constructor
  · intro traversed
    refine ⟨?_, traverse_getElem? traversed⟩
    intro name value held
    obtain ⟨listed, passed, _⟩ := bind_eq_ok.mp traversed
    obtain ⟨_, _, passes⟩ := exists_of_mapM passed (Std.ExtTreeMap.mem_toList_iff_getElem?_eq_some.mpr held)
    obtain ⟨result, acts, _⟩ := map_eq_ok.mp passes
    exact ⟨result, acts⟩
  -- two maps with the same lookups are the same map
  · rintro ⟨passes, lookups⟩
    have passed : ∃ listed, entries.toList.mapM
        (fun entry => (action entry.1 entry.2).map fun result => (entry.1, result)) = .ok listed := by
      apply exists_mapM_eq_ok
      rintro ⟨name, value⟩ member
      obtain ⟨result, acts⟩ := passes name value (Std.ExtTreeMap.mem_toList_iff_getElem?_eq_some.mp member)
      exact ⟨(name, result), map_eq_ok.mpr ⟨result, acts, rfl⟩⟩
    obtain ⟨listed, passed⟩ := passed
    have traversed : traverse action entries = .ok (Std.ExtTreeMap.ofList listed compare) :=
      bind_eq_ok.mpr ⟨listed, passed, rfl⟩
    rw [traversed]
    congr 1
    apply Std.ExtTreeMap.ext_getElem?
    intro name
    rw [traverse_getElem? traversed, lookups]

end Library.Grouping
