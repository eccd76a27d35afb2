import Mathlib

/-! Replacing a pattern in a list, and the escapes it takes back.

The pattern is an item and the rest behind it, so it is never empty. Matches are found
from the left and do not overlap.
-/

set_option autoImplicit false

namespace Library.Replacement

variable {α : Type} [DecidableEq α]

def replaceAll (lead : α) (rest replacement : List α) : List α → List α
  | [] => []
  | item :: items =>
    if lead :: rest <+: item :: items then replacement ++ replaceAll lead rest replacement (items.drop rest.length)
    else item :: replaceAll lead rest replacement items
termination_by items => items.length
decreasing_by
  · simp only [List.length_drop, List.length_cons]
    omega
  · exact Nat.lt_succ_self _

def escapeMark (mark lead : α) (rest items : List α) : List α :=
  items.flatMap fun item => if item = mark then lead :: rest else [item]

variable {mark lead : α} {rest items : List α}

theorem escapeMark_cons (item : α) : escapeMark mark lead rest (item :: items) =
    (if item = mark then lead :: rest else [item]) ++ escapeMark mark lead rest items :=
  List.flatMap_cons

theorem not_mem_escapeMark (other : mark ∉ lead :: rest) : mark ∉ escapeMark mark lead rest items := by
  intro member
  obtain ⟨item, _, found⟩ := List.mem_flatMap.mp member
  split at found
  · exact other found
  · rename_i differs
    exact differs (List.mem_singleton.mp found).symm

theorem replaceAll_of_free {replacement : List α} (free : ¬lead :: rest <:+: items) :
    replaceAll lead rest replacement items = items := by
  induction items with
  | nil => rw [replaceAll]
  | cons item items ih =>
    have later := ih fun inside => free (inside.trans (List.suffix_cons ..).isInfix)
    rw [replaceAll, if_neg fun begins => free begins.isInfix, later]

theorem isPrefix_of_replaceAll {found : List α} (other : mark ∉ found)
    (begins : found <+: replaceAll lead rest [mark] items) : found <+: items := by
  induction items generalizing found with
  | nil =>
    rw [replaceAll] at begins
    exact begins
  | cons item items ih =>
    cases found with
    | nil => exact List.nil_prefix
    | cons first found =>
      rw [List.mem_cons, not_or] at other
      rw [replaceAll] at begins
      split at begins
      · -- here the mark comes first
        exact absurd (List.cons_prefix_cons.mp begins).1.symm other.1
      · obtain ⟨rfl, behind⟩ := List.cons_prefix_cons.mp begins
        exact List.cons_prefix_cons.mpr ⟨rfl, ih other.2 behind⟩

/-- Putting the mark in makes no text that was not there. -/
theorem isInfix_of_replaceAll {found : List α} (other : mark ∉ found)
    (inside : found <:+: replaceAll lead rest [mark] items) : found <:+: items := by
  induction items using replaceAll.induct lead rest with
  | case1 =>
    rw [replaceAll] at inside
    exact inside
  | case2 item items begins ih =>
    rw [replaceAll, if_pos begins] at inside
    rcases List.infix_cons_iff.mp inside with front | behind
    · cases found with
      | nil => exact List.nil_infix
      | cons first found => exact absurd (List.cons_prefix_cons.mp front).1 fun same => other (by simp [same])
    · exact (ih behind).trans ((List.drop_suffix ..).isInfix.trans (List.suffix_cons ..).isInfix)
  | case3 item items differs ih =>
    rw [replaceAll, if_neg differs] at inside
    rcases List.infix_cons_iff.mp inside with front | behind
    · cases found with
      | nil => exact List.nil_infix
      | cons first found =>
        rw [List.mem_cons, not_or] at other
        obtain ⟨rfl, follows⟩ := List.cons_prefix_cons.mp front
        exact (List.cons_prefix_cons.mpr ⟨rfl, isPrefix_of_replaceAll other.2 follows⟩).isInfix
    · exact (ih behind).trans (List.suffix_cons ..).isInfix

theorem replaceAll_free (other : mark ∉ lead :: rest) : ¬lead :: rest <:+: replaceAll lead rest [mark] items := by
  intro inside
  induction items using replaceAll.induct lead rest with
  | case1 =>
    rw [replaceAll] at inside
    simp at inside
  | case2 item items begins ih =>
    rw [replaceAll, if_pos begins] at inside
    rcases List.infix_cons_iff.mp inside with front | behind
    · exact other (by simp [(List.cons_prefix_cons.mp front).1])
    · exact ih behind
  | case3 item items differs ih =>
    rw [replaceAll, if_neg differs] at inside
    rcases List.infix_cons_iff.mp inside with front | behind
    · rw [List.mem_cons, not_or] at other
      obtain ⟨rfl, follows⟩ := List.cons_prefix_cons.mp front
      exact differs (List.cons_prefix_cons.mpr ⟨rfl, isPrefix_of_replaceAll other.2 follows⟩)
    · exact ih behind

theorem isPrefix_of_escapeMark {found : List α} (leadless : lead ∉ found)
    (begins : found <+: escapeMark mark lead rest items) : found <+: items := by
  induction items generalizing found with
  | nil => exact begins
  | cons item items ih =>
    cases found with
    | nil => exact List.nil_prefix
    | cons first found =>
      rw [List.mem_cons, not_or] at leadless
      rw [escapeMark_cons] at begins
      split at begins
      · exact absurd (List.cons_prefix_cons.mp begins).1.symm leadless.1
      · obtain ⟨rfl, behind⟩ := List.cons_prefix_cons.mp begins
        exact List.cons_prefix_cons.mpr ⟨rfl, ih leadless.2 behind⟩

theorem replaceAll_escapeMark (apart : lead ∉ rest) (free : ¬lead :: rest <:+: items) :
    replaceAll lead rest [mark] (escapeMark mark lead rest items) = items := by
  induction items with
  | nil => exact replaceAll.eq_1 ..
  | cons item items ih =>
    have later := ih fun inside => free (inside.trans (List.suffix_cons ..).isInfix)
    rw [escapeMark_cons]
    split
    · rename_i same
      subst same
      rw [List.cons_append, replaceAll, if_pos (List.cons_prefix_cons.mpr ⟨rfl, List.prefix_append ..⟩),
        List.drop_left, later]
      rfl
    · rw [List.singleton_append, replaceAll, if_neg, later]
      intro begins
      obtain ⟨rfl, behind⟩ := List.cons_prefix_cons.mp begins
      exact free (List.cons_prefix_cons.mpr ⟨rfl, isPrefix_of_escapeMark apart behind⟩).isInfix

end Library.Replacement
