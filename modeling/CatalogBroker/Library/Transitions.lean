import Mathlib

/-! Runs of a step function that may refuse an event.

The condition every step of a run must meet is a parameter, so that one rule serves
arbitrary runs and restricted ones.
-/

set_option autoImplicit false

namespace Library.Transitions

variable {State Event : Type}

/-- A run of `step` whose every event is `allowed` in the state it is taken in. -/
inductive Run (step : State → Event → Option State) (allowed : State → Event → Prop) :
    State → List Event → State → Prop
  | nil (state : State) : Run step allowed state [] state
  | cons {state next last : State} {event : Event} {events : List Event} (allows : allowed state event)
      (steps : step state event = some next) (rest : Run step allowed next events last) :
      Run step allowed state (event :: events) last

namespace Run

variable {step : State → Event → Option State} {allowed : State → Event → Prop}
  {first last : State} {events : List Event}

theorem invariant {Inv : State → Prop}
    (keeps : ∀ state event next, Inv state → allowed state event → step state event = some next → Inv next)
    (start : Inv first) (run : Run step allowed first events last) : Inv last := by
  induction run with
  | nil state => exact start
  | cons allows steps rest ih => exact ih (keeps _ _ _ start allows steps)

theorem snoc {state next : State} {event : Event} {done : List Event} (run : Run step allowed first done state)
    (allows : allowed state event) (steps : step state event = some next) :
    Run step allowed first (done ++ [event]) next := by
  induction run with
  | nil state => exact .cons allows steps (.nil next)
  | cons firstAllows firstSteps rest ih => exact .cons firstAllows firstSteps (ih allows steps)

theorem append {state : State} {done rest : List Event} (run : Run step allowed first done state)
    (later : Run step allowed state rest last) : Run step allowed first (done ++ rest) last := by
  induction run with
  | nil state => exact later
  | cons allows steps _ ih => exact .cons allows steps (ih later)

theorem mono {wider : State → Event → Prop} (within : ∀ state event, allowed state event → wider state event)
    (run : Run step allowed first events last) : Run step wider first events last := by
  induction run with
  | nil state => exact .nil state
  | cons allows steps _ ih => exact .cons (within _ _ allows) steps ih

theorem of_foldlM (taken : events.foldlM step first = some last) : Run step (fun _ _ => True) first events last := by
  induction events generalizing first with
  | nil =>
    cases taken
    exact .nil last
  | cons event events ih =>
    obtain ⟨next, steps, taken⟩ := Option.bind_eq_some_iff.mp taken
    exact .cons trivial steps (ih taken)

/-- What holds of every state may speak of the events that led to it. -/
theorem history {Inv : List Event → State → Prop} (start : Inv [] first)
    (keeps : ∀ done state event next, Run step allowed first done state → Inv done state → allowed state event →
      step state event = some next → Inv (done ++ [event]) next)
    (run : Run step allowed first events last) : Inv events last := by
  suffices onward : ∀ (done rest : List Event) (state : State), Run step allowed first done state →
      Inv done state → Run step allowed state rest last → Inv (done ++ rest) last by
    exact onward [] events first (.nil first) start run
  intro done rest state before holds later
  induction later generalizing done with
  | nil state =>
    rw [List.append_nil]
    exact holds
  | cons allows steps rest ih =>
    rw [List.append_cons]
    exact ih run _ (before.snoc allows steps) (keeps _ _ _ _ before holds allows steps)

/-- A state on the way: some prefix of the events leads to it. -/
def Passes (step : State → Event → Option State) (allowed : State → Event → Prop) (first : State)
    (events : List Event) (state : State) : Prop :=
  ∃ before after, events = before ++ after ∧ Run step allowed first before state

theorem passes_last (run : Run step allowed first events last) : Passes step allowed first events last :=
  ⟨events, [], (List.append_nil events).symm, run⟩

theorem Passes.append {state : State} (passes : Passes step allowed first events state) (more : List Event) :
    Passes step allowed first (events ++ more) state := by
  obtain ⟨before, after, rfl, run⟩ := passes
  exact ⟨before, after ++ more, List.append_assoc before after more, run⟩

theorem measure_le {Inv : State → Prop} {measure : State → Nat}
    (keeps : ∀ state event next, Inv state → allowed state event → step state event = some next → Inv next)
    (rises : ∀ state event next, Inv state → allowed state event → step state event = some next →
      measure state ≤ measure next)
    (start : Inv first) (run : Run step allowed first events last) : measure first ≤ measure last := by
  induction run with
  | nil state => exact le_rfl
  | cons allows steps rest ih =>
    exact (rises _ _ _ start allows steps).trans (ih (keeps _ _ _ start allows steps))

/-- Where every counted event lowers a measure that no event raises, it bounds how many of them a run has. -/
theorem countP_le_of_falls {Inv : State → Prop} (measure : State → Nat) (counted : Event → Bool)
    (keeps : ∀ state event next, Inv state → allowed state event → step state event = some next → Inv next)
    (falls : ∀ state event next, Inv state → allowed state event → step state event = some next →
      measure next + (if counted event then 1 else 0) ≤ measure state)
    (start : Inv first) (run : Run step allowed first events last) :
    events.countP counted + measure last ≤ measure first := by
  induction run with
  | nil state => simp
  | cons allows steps rest ih =>
    have fell := falls _ _ _ start allows steps
    have later := ih (keeps _ _ _ start allows steps)
    rw [List.countP_cons]
    omega

theorem length_le_of_falls {measure : State → Nat}
    (falls : ∀ state event next, allowed state event → step state event = some next → measure next < measure state)
    (run : Run step allowed first events last) : events.length + measure last ≤ measure first := by
  have bound := run.countP_le_of_falls _ (fun _ => true) (fun _ _ _ _ _ _ => trivial)
    (fun state event next _ allows steps => falls state event next allows steps) trivial
  rwa [List.countP_true] at bound

/-- Where every state that is not done has an allowed step that lowers a measure, a run no longer than that gets it
done. -/
theorem exists_of_progress {Inv Done : State → Prop} (measure : State → Nat)
    (progress : ∀ state, Inv state → ¬ Done state → ∃ event next, allowed state event ∧
      step state event = some next ∧ Inv next ∧ measure next < measure state)
    (start : Inv first) : ∃ events last, events.length ≤ measure first ∧ Run step allowed first events last ∧
      Inv last ∧ Done last := by
  induction size : measure first using Nat.strong_induction_on generalizing first with
  | h size' ih =>
    subst size
    by_cases done : Done first
    · exact ⟨[], first, Nat.zero_le _, .nil first, start, done⟩
    · obtain ⟨event, next, allows, steps, kept, fell⟩ := progress first start done
      obtain ⟨events, last, short, run, holds, done⟩ := ih (measure next) fell kept rfl
      exact ⟨event :: events, last, by rw [List.length_cons]; omega, .cons allows steps run, holds, done⟩

/-- Between two states of one measure, every step is taken at that measure and keeps it. -/
theorem forall_events_of_level {Inv : State → Prop} {measure : State → Nat} (holds : Nat → Event → Prop)
    (keeps : ∀ state event next, Inv state → allowed state event → step state event = some next → Inv next)
    (rises : ∀ state event next, Inv state → allowed state event → step state event = some next →
      measure state ≤ measure next)
    (level : ∀ state event next, Inv state → allowed state event → step state event = some next →
      measure next = measure state → holds (measure state) event)
    (start : Inv first) (run : Run step allowed first events last) (same : measure last = measure first) :
    ∀ event ∈ events, holds (measure first) event := by
  induction run with
  | nil state => simp
  | cons allows steps rest ih =>
    have kept := keeps _ _ _ start allows steps
    have above := rises _ _ _ start allows steps
    have below := measure_le keeps rises kept rest
    have equal := le_antisymm (same ▸ below) above
    rw [List.forall_mem_cons]
    refine ⟨level _ _ _ start allows steps equal, ?_⟩
    rw [← equal]
    exact ih kept (same.trans equal.symm)

end Run

end Library.Transitions
