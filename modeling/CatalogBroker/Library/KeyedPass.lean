import Mathlib

/-! A pass over items that each change the entry of their own key.

The state is read through one function, so a map, a function and a record of maps are
passed over alike.
-/

set_option autoImplicit false

namespace Library.KeyedPass

variable {State Item Key Entry : Type} [DecidableEq Key] {key : Item → Key} {step : State → Item → State}
  (read : State → Key → Entry) (change : Item → Entry → Entry)

theorem foldl_of_not_mem
    (steps : ∀ state item found, read (step state item) found =
      if key item = found then change item (read state found) else read state found)
    {items : List Item} {found : Key} (absent : found ∉ items.map key) (state : State) :
    read (items.foldl step state) found = read state found := by
  induction items generalizing state with
  | nil => rfl
  | cons item items ih =>
    rw [List.map_cons, List.mem_cons, not_or] at absent
    rw [List.foldl_cons, ih absent.2, steps, if_neg (Ne.symm absent.1)]

theorem foldl_of_mem
    (steps : ∀ state item found, read (step state item) found =
      if key item = found then change item (read state found) else read state found)
    {items : List Item} (distinct : (items.map key).Nodup) {item : Item} (member : item ∈ items) (state : State) :
    read (items.foldl step state) (key item) = change item (read state (key item)) := by
  induction items generalizing state with
  | nil => cases member
  | cons first items ih =>
    rw [List.map_cons, List.nodup_cons] at distinct
    rw [List.foldl_cons]
    rcases List.mem_cons.mp member with rfl | later
    · rw [foldl_of_not_mem read change steps distinct.1, steps, if_pos rfl]
    · have apart : key first ≠ key item := by
        intro same
        exact distinct.1 (same ▸ List.mem_map_of_mem later)
      rw [ih distinct.2 later, steps, if_neg apart]

theorem foldl_keys {step : State → Key → State} (change : Key → Entry → Entry)
    (steps : ∀ state item found, read (step state item) found =
      if item = found then change item (read state found) else read state found)
    {items : List Key} (distinct : items.Nodup) (state : State) (found : Key) :
    read (items.foldl step state) found =
      if found ∈ items then change found (read state found) else read state found := by
  have keys : items.map (fun item => item) = items := List.map_id' items
  by_cases listed : found ∈ items
  · rw [if_pos listed]
    exact foldl_of_mem read change steps (by rwa [keys]) listed state
  · rw [if_neg listed]
    exact foldl_of_not_mem read change steps (by rwa [keys]) state

omit [DecidableEq Key] in
theorem foldl_untouched (steps : ∀ state item found, read (step state item) found = read state found)
    (items : List Item) (state : State) (found : Key) : read (items.foldl step state) found = read state found := by
  induction items generalizing state with
  | nil => rfl
  | cons item items ih => rw [List.foldl_cons, ih, steps]

end Library.KeyedPass
