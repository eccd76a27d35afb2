import Mathlib

/-! Computations that stop at the first error. -/

set_option autoImplicit false

namespace Library.Fallible

variable {α β ε : Type}

def okOr (item : Option α) (error : ε) : Except ε α :=
  match item with
  | some value => .ok value
  | none => .error error

theorem okOr_eq_ok {item : Option α} {error : ε} {value : α} : okOr item error = .ok value ↔ item = some value := by
  cases item with
  | none => simp [okOr]
  | some found => simp [okOr]

theorem bind_eq_ok {first : Except ε α} {next : α → Except ε β} {result : β} :
    first >>= next = .ok result ↔ ∃ value, first = .ok value ∧ next value = .ok result := by
  cases first with
  | error e => simp [bind, Except.bind]
  | ok value => simp [bind, Except.bind]

theorem guard_eq_ok {refused : Prop} [Decidable refused] {error : ε} {next : Except ε β} {result : β} :
    (if refused then .error error else next) = .ok result ↔ ¬refused ∧ next = .ok result := by
  by_cases stops : refused
  · simp [stops]
  · simp [stops]

theorem require_eq_ok {accepted : Prop} [Decidable accepted] {error : ε} {next : Except ε β} {result : β} :
    (if accepted then next else .error error) = .ok result ↔ accepted ∧ next = .ok result := by
  by_cases passes : accepted
  · simp [passes]
  · simp [passes]

theorem map_eq_ok {first : Except ε α} {next : α → β} {result : β} :
    first.map next = .ok result ↔ ∃ value, first = .ok value ∧ next value = result := by
  cases first with
  | error e => simp [Except.map]
  | ok value => simp [Except.map]

theorem mapError_eq_ok {ε' : Type} {first : Except ε α} {next : ε → ε'} {value : α} :
    first.mapError next = .ok value ↔ first = .ok value := by
  cases first with
  | error e => simp [Except.mapError]
  | ok value => simp [Except.mapError]

variable {items : List α} {action : α → Except ε β}

theorem forM_eq_ok {action : α → Except ε Unit} :
    items.forM action = .ok () ↔ ∀ item ∈ items, action item = .ok () := by
  induction items with
  | nil => exact iff_of_true rfl (by simp)
  | cons item items ih =>
    rw [List.forM, bind_eq_ok, List.forall_mem_cons, ← ih]
    exact ⟨fun ⟨⟨⟩, first, rest⟩ => ⟨first, rest⟩, fun ⟨first, rest⟩ => ⟨⟨⟩, first, rest⟩⟩

theorem mapM_eq_ok {results : List β} :
    items.mapM action = .ok results ↔ List.Forall₂ (fun item result => action item = .ok result) items results := by
  induction items generalizing results with
  | nil =>
    rw [List.mapM_nil, List.forall₂_nil_left_iff]
    exact ⟨fun same => (Except.ok.inj same).symm, fun same => congrArg _ same.symm⟩
  | cons item items ih =>
    rw [List.mapM_cons, bind_eq_ok, List.forall₂_cons_left_iff]
    constructor
    · rintro ⟨result, first, later⟩
      obtain ⟨rest, passed, same⟩ := bind_eq_ok.mp later
      exact ⟨result, rest, first, ih.mp passed, (Except.ok.inj same).symm⟩
    · rintro ⟨result, rest, first, passed, rfl⟩
      exact ⟨result, first, bind_eq_ok.mpr ⟨rest, ih.mpr passed, rfl⟩⟩

theorem exists_of_mapM {results : List β} (passed : items.mapM action = .ok results) {item : α}
    (member : item ∈ items) : ∃ result ∈ results, action item = .ok result := by
  have pointwise := mapM_eq_ok.mp passed
  clear passed
  induction pointwise with
  | nil => cases member
  | cons first rest ih =>
    rcases List.mem_cons.mp member with rfl | later
    · exact ⟨_, List.mem_cons_self, first⟩
    · obtain ⟨result, listed, passes⟩ := ih later
      exact ⟨result, List.mem_cons_of_mem _ listed, passes⟩

theorem exists_mapM_eq_ok (passes : ∀ item ∈ items, ∃ result, action item = .ok result) :
    ∃ results, items.mapM action = .ok results := by
  induction items with
  | nil => exact ⟨[], rfl⟩
  | cons item items ih =>
    rw [List.forall_mem_cons] at passes
    obtain ⟨result, first⟩ := passes.1
    obtain ⟨results, rest⟩ := ih passes.2
    rw [mapM_eq_ok] at rest
    exact ⟨result :: results, mapM_eq_ok.mpr (.cons first rest)⟩

end Library.Fallible
