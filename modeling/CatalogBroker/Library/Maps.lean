import Mathlib

/-! What a map holds after one of its entries is dropped, added or filtered out. -/

set_option autoImplicit false

namespace Library.Maps

variable {Key Value : Type} {order : Key → Key → Ordering} [Std.TransCmp order]
  {entries : Std.ExtTreeMap Key Value order}

theorem filter_eq_self_or_size_lt (keeps : Key → Value → Bool) (entries : Std.ExtTreeMap Key Value order) :
    entries.filter keeps = entries ∨ (entries.filter keeps).size < entries.size := by
  rcases eq_or_lt_of_le (Std.ExtTreeMap.size_filter_le_size (t := entries) (f := keeps)) with same | less
  · exact .inl (Std.ExtTreeMap.filter_eq_self_iff.mpr (Std.ExtTreeMap.size_filter_eq_size_iff.mp same))
  · exact .inr less

variable {key other : Key}

theorem mem_of_getElem? {value : Value} (found : entries[key]? = some value) : key ∈ entries :=
  Std.ExtTreeMap.mem_iff_isSome_getElem?.mpr (by rw [found]; rfl)

theorem not_mem_iff_getElem? : key ∉ entries ↔ entries[key]? = none := by
  rw [Std.ExtTreeMap.mem_iff_isSome_getElem?, Option.not_isSome_iff_eq_none]

variable [Std.LawfulEqCmp order]

theorem getElem?_erase_of_ne (apart : other ≠ key) : (entries.erase key)[other]? = entries[other]? := by
  rw [Std.ExtTreeMap.getElem?_erase, if_neg]
  intro same
  exact apart (Std.LawfulEqCmp.compare_eq_iff_eq.mp same).symm

theorem getElem?_insert_of_ne {value : Value} (apart : other ≠ key) :
    (entries.insert key value)[other]? = entries[other]? := by
  rw [Std.ExtTreeMap.getElem?_insert, if_neg]
  intro same
  exact apart (Std.LawfulEqCmp.compare_eq_iff_eq.mp same).symm

theorem getElem?_erase_some {value : Value} (found : (entries.erase key)[other]? = some value) :
    entries[other]? = some value := by
  by_cases same : other = key
  · subst same
    rw [Std.ExtTreeMap.getElem?_erase_self] at found
    cases found
  · rwa [getElem?_erase_of_ne same] at found

theorem getElem?_insert_some {new value : Value} (found : (entries.insert key new)[other]? = some value) :
    (other = key ∧ value = new) ∨ other ≠ key ∧ entries[other]? = some value := by
  by_cases same : other = key
  · subst same
    rw [Std.ExtTreeMap.getElem?_insert_self] at found
    exact .inl ⟨rfl, (Option.some.inj found).symm⟩
  · rw [getElem?_insert_of_ne same] at found
    exact .inr ⟨same, found⟩

theorem getElem?_filter_eq_some {keeps : Key → Value → Bool} {value : Value} :
    (entries.filter keeps)[key]? = some value ↔ entries[key]? = some value ∧ keeps key value = true := by
  rw [Std.ExtTreeMap.getElem?_filter', Option.filter_eq_some_iff]

theorem foldl_insert_some {listed : List (Key × Value)} {value : Value}
    (found : (listed.foldl (fun entries entry => entries.insert entry.1 entry.2) entries)[key]? = some value) :
    (∃ before after, listed = before ++ (key, value) :: after ∧ ∀ entry ∈ after, entry.1 ≠ key) ∨
      entries[key]? = some value := by
  induction listed using List.reverseRecOn with
  | nil => exact .inr found
  | append_singleton listed entry ih =>
    rw [List.foldl_append, List.foldl_cons, List.foldl_nil] at found
    rcases getElem?_insert_some found with ⟨rfl, rfl⟩ | ⟨apart, earlier⟩
    · exact .inl ⟨listed, [], rfl, by simp⟩
    · rcases ih earlier with ⟨before, after, same, last⟩ | kept
      · refine .inl ⟨before, after ++ [entry], by rw [same, List.append_assoc, List.cons_append], ?_⟩
        rw [List.forall_mem_append, List.forall_mem_singleton]
        exact ⟨last, fun equal => apart equal.symm⟩
      · exact .inr kept

theorem foldl_insert_last {before after : List (Key × Value)} {value : Value}
    (last : ∀ entry ∈ after, entry.1 ≠ key) :
    ((before ++ (key, value) :: after).foldl (fun entries entry => entries.insert entry.1 entry.2) entries)[key]? =
      some value := by
  rw [List.foldl_append, List.foldl_cons]
  induction after using List.reverseRecOn with
  | nil => exact Std.ExtTreeMap.getElem?_insert_self
  | append_singleton after entry ih =>
    rw [List.forall_mem_append, List.forall_mem_singleton] at last
    rw [List.foldl_append, List.foldl_cons, List.foldl_nil, getElem?_insert_of_ne fun equal => last.2 equal.symm]
    exact ih last.1

end Library.Maps
