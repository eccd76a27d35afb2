import CatalogBroker.Json.Value

/-! How deep a value nests, and the limit a reader puts on it. -/

set_option autoImplicit false

namespace CatalogBroker.Json

mutual
def depth : Json → Nat
  | .null => 0
  | .bool _ => 0
  | .number _ => 0
  | .string _ => 0
  | .array items => itemsDepth items + 1
  | .object members => membersDepth members + 1

def itemsDepth : List Json → Nat
  | [] => 0
  | item :: items => max item.depth (itemsDepth items)

def membersDepth : List (String × Json) → Nat
  | [] => 0
  | (_, value) :: members => max value.depth (membersDepth members)
end

mutual
/-- `serde_json`'s check on what it reads: an array or object takes one of the remaining levels, and may
not take the last. -/
def readsWithin (remaining : Nat) : Json → Bool
  | .null => true
  | .bool _ => true
  | .number _ => true
  | .string _ => true
  | .array items => remaining - 1 ≠ 0 && itemsReadWithin (remaining - 1) items
  | .object members => remaining - 1 ≠ 0 && membersReadWithin (remaining - 1) members

def itemsReadWithin (remaining : Nat) : List Json → Bool
  | [] => true
  | item :: items => item.readsWithin remaining && itemsReadWithin remaining items

def membersReadWithin (remaining : Nat) : List (String × Json) → Bool
  | [] => true
  | (_, value) :: members => value.readsWithin remaining && membersReadWithin remaining members
end

def recursionLimit : Nat := 128

theorem itemsDepth_le_iff {items : List Json} {levels : Nat} :
    itemsDepth items ≤ levels ↔ ∀ item ∈ items, item.depth ≤ levels := by
  induction items with
  | nil => simp [itemsDepth]
  | cons item items ih => rw [itemsDepth, max_le_iff, ih, List.forall_mem_cons]

theorem membersDepth_le_iff {members : List (String × Json)} {levels : Nat} :
    membersDepth members ≤ levels ↔ ∀ member ∈ members, member.2.depth ≤ levels := by
  induction members with
  | nil => simp [membersDepth]
  | cons member members ih =>
    obtain ⟨key, value⟩ := member
    rw [membersDepth, max_le_iff, ih, List.forall_mem_cons]

theorem depth_array_le_iff {items : List Json} {levels : Nat} :
    (Json.array items).depth ≤ levels + 1 ↔ ∀ item ∈ items, item.depth ≤ levels := by
  rw [depth, Nat.add_le_add_iff_right, itemsDepth_le_iff]

theorem depth_object_le_iff {members : List (String × Json)} {levels : Nat} :
    (Json.object members).depth ≤ levels + 1 ↔ ∀ member ∈ members, member.2.depth ≤ levels := by
  rw [depth, Nat.add_le_add_iff_right, membersDepth_le_iff]

@[simp] theorem depth_string (value : String) : (Json.string value).depth = 0 := by rw [depth]

theorem itemsReadWithin_eq_all (remaining : Nat) (items : List Json) :
    itemsReadWithin remaining items = items.all fun item => item.readsWithin remaining := by
  induction items with
  | nil => rfl
  | cons item items ih => rw [itemsReadWithin, ih, List.all_cons]

theorem membersReadWithin_eq_all (remaining : Nat) (members : List (String × Json)) :
    membersReadWithin remaining members = members.all fun member => member.2.readsWithin remaining := by
  induction members with
  | nil => rfl
  | cons member members ih =>
    obtain ⟨key, value⟩ := member
    rw [membersReadWithin, ih, List.all_cons]

theorem readsWithin_of_depth_lt (value : Json) {remaining : Nat} (shallow : value.depth < remaining) :
    value.readsWithin remaining = true := by
  induction value generalizing remaining with
  | null => rw [readsWithin]
  | bool value => rw [readsWithin]
  | number value => rw [readsWithin]
  | string value => rw [readsWithin]
  | array items ih =>
    rw [depth] at shallow
    have below : itemsDepth items ≤ remaining - 2 := by omega
    rw [readsWithin, itemsReadWithin_eq_all, Bool.and_eq_true, decide_eq_true_eq, List.all_eq_true]
    refine ⟨by omega, fun item member => ih item member ?_⟩
    have itemBelow := itemsDepth_le_iff.mp below item member
    omega
  | object members ih =>
    rw [depth] at shallow
    have below : membersDepth members ≤ remaining - 2 := by omega
    rw [readsWithin, membersReadWithin_eq_all, Bool.and_eq_true, decide_eq_true_eq, List.all_eq_true]
    refine ⟨by omega, fun member listed => ih member listed ?_⟩
    have memberBelow := membersDepth_le_iff.mp below member listed
    omega

end CatalogBroker.Json
