import CatalogBroker.Library.Maps

/-! Maps kept below a number of entries by dropping one of least stamp. -/

set_option autoImplicit false

namespace Library.CappedMap

open Maps

variable {Key Value Stamp : Type} {order : Key → Key → Ordering} [Std.TransCmp order]
  [LinearOrder Stamp]

/-- Room for one more of `cap` entries: if there is none, the first of least stamp that `visit` meets goes. -/
def evictOldest (cap : Nat) (stamp : Value → Stamp) (visit : List (Key × Value))
    (entries : Std.ExtTreeMap Key Value order) : Std.ExtTreeMap Key Value order :=
  if cap ≤ entries.size then
    match visit.argmin fun entry => stamp entry.2 with
    | some oldest => entries.erase oldest.1
    | none => entries
  else entries

def Oldest (stamp : Value → Stamp) (entries : Std.ExtTreeMap Key Value order) (key : Key) (value : Value) : Prop :=
  entries[key]? = some value ∧ ∀ (other : Key) held, entries[other]? = some held → stamp value ≤ stamp held

variable {cap : Nat} {stamp : Value → Stamp} {visit : List (Key × Value)} {entries : Std.ExtTreeMap Key Value order}

theorem evictOldest_of_room (room : entries.size < cap) : evictOldest cap stamp visit entries = entries :=
  if_neg (not_le.mpr room)

variable [Std.LawfulEqCmp order]

theorem evictOldest_of_full (room : 0 < cap) (full : cap ≤ entries.size) (all : visit.Perm entries.toList) :
    ∃ key value, Oldest stamp entries key value ∧ evictOldest cap stamp visit entries = entries.erase key := by
  unfold evictOldest
  rw [if_pos full]
  cases least : visit.argmin fun entry => stamp entry.2 with
  | none =>
    have nothing : visit = [] := List.argmin_eq_none.mp least
    have length : visit.length = entries.size := all.length_eq.trans Std.ExtTreeMap.length_toList
    rw [nothing, List.length_nil] at length
    omega
  | some oldest =>
    refine ⟨oldest.1, oldest.2, ⟨?_, ?_⟩, rfl⟩
    · exact Std.ExtTreeMap.mem_toList_iff_getElem?_eq_some.mp (all.mem_iff.mp (List.argmin_mem least))
    · intro other held found
      have member : (other, held) ∈ visit :=
        all.mem_iff.mpr (Std.ExtTreeMap.mem_toList_iff_getElem?_eq_some.mpr found)
      exact @List.le_of_mem_argmin _ _ _ (fun entry => stamp entry.2) visit (other, held) oldest member least

theorem evictOldest_cases (stamp : Value → Stamp) (room : 0 < cap) (all : visit.Perm entries.toList) :
    (entries.size < cap ∧ evictOldest cap stamp visit entries = entries) ∨
      cap ≤ entries.size ∧ ∃ key value, Oldest stamp entries key value ∧
        evictOldest cap stamp visit entries = entries.erase key := by
  by_cases full : cap ≤ entries.size
  · exact .inr ⟨full, evictOldest_of_full room full all⟩
  · exact .inl ⟨not_le.mp full, evictOldest_of_room (not_le.mp full)⟩

theorem size_evictOldest_lt (stamp : Value → Stamp) (room : 0 < cap) (bounded : entries.size ≤ cap)
    (all : visit.Perm entries.toList) :
    (evictOldest cap stamp visit entries).size < cap := by
  rcases evictOldest_cases stamp room all with ⟨below, same⟩ | ⟨full, key, value, oldest, less⟩
  · rw [same]
    exact below
  · have member : key ∈ entries := mem_of_getElem? oldest.1
    rw [less, Std.ExtTreeMap.size_erase, if_pos (Std.ExtTreeMap.contains_iff_mem.mpr member)]
    omega

end Library.CappedMap
