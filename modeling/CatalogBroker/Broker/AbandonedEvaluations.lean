import CatalogBroker.Broker.SparqlAnswers

/-! How long an evaluation whose request is over keeps its slot.

Its own steps are bounded by its phase alone: the retries that are left do not count,
since the token is read before each of them.
-/

set_option autoImplicit false

namespace CatalogBroker

open Library Listing Transitions

/-- The steps a reader whose token is set may still take. -/
def ReaderPhase.stepsLeft : ReaderPhase → Nat
  | .idle => 0
  | .replied _ _ => 0
  | .attempting _ | .rechecking _ => 1
  | .confirming _ _ _ => 2
  | .evaluating _ _ _ _ => 3
  | .remembering _ _ _ => 4
  | .comparing _ _ _ => 5
  | .building _ _ _ => 6
  | .scanning _ _ => 7
  | .finding _ _ => 8
  | .waiting _ _ => 9

/-- With one more step to return, and so to give the slot back. -/
def TaskPhase.stepsLeft : TaskPhase → Nat
  | .unspawned | .ended _ => 0
  | .queued | .unfiltered _ => 1
  | .filtered reader => reader.stepsLeft + 1

theorem ReaderPhase.stepsLeft_le (reader : ReaderPhase) : reader.stepsLeft ≤ 9 := by
  cases reader <;> simp [stepsLeft]

theorem TaskPhase.stepsLeft_le (task : TaskPhase) : task.stepsLeft ≤ 10 := by
  cases task with
  | filtered reader =>
    have bound := reader.stepsLeft_le
    simp only [stepsLeft]
    omega
  | _ => simp [stepsLeft]

/-- A lookup with the token set fails; an evaluation that looks nothing up runs to its end. -/
def ReaderPhase.Honours (cancelled : Bool) (reader : ReaderPhase) (event : ReaderEvent) : Prop :=
  match reader, event with
  | .evaluating _ _ _ (.lookup _ _), .lookup _ => cancelled = false
  | _, _ => True

section

variable {text : IriText} {allowList : String → Catalog → VisibleIris} {evaluate : String → Evaluation}
  {system : System}

/-- With its token set, a reader has fewer steps left after each one. -/
theorem readerStep_falls {reader : ReaderPhase} {event : ReaderEvent} (sees : event.sees true = true)
    (honours : reader.Honours true event) {next : ReaderPhase × AllowListCaches}
    (stepped : system.readerStep text allowList evaluate reader event = some next) :
    next.1.stepsLeft < reader.stepsLeft := by
  unfold System.readerStep at stepped
  split at stepped
  case h_1 | h_2 => cases sees
  case h_3 attempt cancelled now =>
    have set : cancelled = true := by simpa [ReaderEvent.sees] using sees
    split at stepped
    · cases stepped
      simp [ReaderPhase.stepsLeft]
    · cases stepped
      simp [ReaderPhase.stepsLeft]
  case h_4 attempt since cancelled now =>
    have set : cancelled = true := by simpa [ReaderEvent.sees] using sees
    split at stepped
    · cases stepped
      simp [ReaderPhase.stepsLeft]
    · cases stepped
      simp [ReaderPhase.stepsLeft]
  case h_8 attempt before graphs run =>
    generalize system.caches.buildAllowList text (fun _ => allowList attempt.key) attempt.key before graphs run
      = outcome at stepped
    obtain ⟨caches, built⟩ := outcome
    cases built with
    | error error =>
      cases stepped
      simp [ReaderPhase.stepsLeft]
    | ok visible =>
      cases stepped
      simp [ReaderPhase.stepsLeft]
  -- a lookup would leave as many steps as before: the evaluator honours its token
  case h_11 attempt before visible evaluation order =>
    split at stepped
    · cases stepped
      simp [ReaderPhase.stepsLeft]
    · cases honours
  case h_14 attempt cancelled =>
    have set : cancelled = true := by simpa [ReaderEvent.sees] using sees
    rw [if_pos set] at stepped
    cases stepped
    simp [ReaderPhase.stepsLeft]
  case h_6 | h_7 | h_10 | h_12 =>
    cases stepped
    simp [ReaderPhase.stepsLeft]
  case h_15 => cases stepped
  all_goals
    split at stepped
    · cases stepped
      simp [ReaderPhase.stepsLeft]
    · cases stepped
      simp [ReaderPhase.stepsLeft]

theorem readerStep_enabled (text : IriText) (allowList : String → Catalog → VisibleIris)
    (evaluate : String → Evaluation) (system : System) {reader : ReaderPhase} (called : reader.asks ≠ none)
    (waits : ∀ attempt reply, reader ≠ .replied attempt reply) :
    ∃ event, event.sees true = true ∧ reader.Honours true event ∧
      (system.readerStep text allowList evaluate reader event).isSome = true := by
  cases reader with
  | idle => exact absurd rfl called
  | attempting attempt =>
    refine ⟨.attempt true 0, rfl, trivial, ?_⟩
    simp only [System.readerStep, if_true]
    split <;> rfl
  | waiting attempt since =>
    refine ⟨.load true since, rfl, trivial, ?_⟩
    simp only [System.readerStep, if_true]
    split <;> rfl
  | finding attempt before =>
    refine ⟨.find 0, rfl, trivial, ?_⟩
    simp only [System.readerStep]
    split <;> rfl
  | scanning attempt before => exact ⟨.scan anyOrder, rfl, trivial, rfl⟩
  | building attempt before graphs =>
    refine ⟨.build ⟨0, fun _ => ⟨true, true⟩, true, 0, .asListed⟩, rfl, trivial, ?_⟩
    simp only [System.readerStep]
    split <;> rfl
  | comparing attempt before visible =>
    refine ⟨.compare, rfl, trivial, ?_⟩
    simp only [System.readerStep]
    split <;> rfl
  | remembering attempt before visible => exact ⟨.remember 0 .asListed, rfl, trivial, rfl⟩
  -- the evaluator may always give up at the token
  | evaluating attempt before visible evaluation =>
    exact ⟨.lookupFails .cancelled, rfl, by cases evaluation <;> trivial, rfl⟩
  | confirming attempt before result =>
    refine ⟨.confirm, rfl, trivial, ?_⟩
    simp only [System.readerStep]
    split <;> rfl
  | rechecking attempt => exact ⟨.recheck true, rfl, trivial, rfl⟩
  | replied attempt reply => exact absurd rfl (waits attempt reply)

end

def EndpointEvent.isTask (index : Nat) : EndpointEvent → Bool
  | .task other _ => other = index
  | _ => false

namespace SparqlEndpoint

/-- The evaluator looks nothing up for a token that is set. -/
def Honours (endpoint : SparqlEndpoint) : EndpointEvent → Prop
  | .task index (.read event) => ∀ call reader, endpoint.calls[index]? = some call → call.task = .filtered reader →
      reader.Honours call.cancelled event
  | _ => True

/-- A handler that is gone has set its token, and a reader that runs has been called. -/
structure Tended (call : SparqlCall) : Prop where
  left : call.handler ≠ .waiting → call.cancelled = true
  called : ∀ reader, call.task = .filtered reader → reader.asks ≠ none

section

variable {Material DecodingKey : Type} {state : SparqlState Material DecodingKey} {text : IriText}
  {allowList : String → Catalog → VisibleIris} {evaluate : String → Evaluation}
  {evaluateWhole : ReadOrder → QuadStore → String → SparqlQueryResult (List UInt8)} {endpoint next : SparqlEndpoint}
  {index : Nat} {call : SparqlCall}

theorem step_at {event : EndpointEvent} (found : endpoint.calls[index]? = some call)
    (stepped : endpoint.step state text allowList evaluate evaluateWhole event = some next) :
    (event.isTask index = false ∧ ∃ moved, next.calls[index]? = some moved ∧ moved.task = call.task ∧
        (call.cancelled = true → moved.cancelled = true)) ∨
      ∃ own, event = .task index own ∧
        endpoint.taskStep state text allowList evaluate evaluateWhole index call own = some next := by
  have bound : index < endpoint.calls.length := (List.getElem?_eq_some_iff.mp found).1
  cases event with
  | write event =>
    obtain ⟨_, after, _, rfl⟩ := writeStep_eq_some stepped
    exact .inl ⟨rfl, call, found, rfl, id⟩
  | request now arrival headers query =>
    cases stepped
    obtain ⟨added, slots, changed, _⟩ := requestStep_cases state endpoint now arrival headers query
    rw [changed]
    exact .inl ⟨rfl, call, (List.getElem?_append_left bound).trans found, rfl, id⟩
  | task other own =>
    obtain ⟨there, located, moved⟩ := Option.bind_eq_some_iff.mp stepped
    by_cases same : other = index
    · subst same
      cases located.symm.trans found
      exact .inr ⟨own, rfl, moved⟩
    · refine .inl ⟨by simp [EndpointEvent.isTask, same], call, ?_, rfl, id⟩
      obtain ⟨_, ⟨_, _, task, rfl, _⟩ | ⟨_, _, _, _, _, _, _, _, rfl⟩ | ⟨_, rfl, _⟩⟩ := taskStep_cases moved
      -- a task of another request writes its own entry only
      all_goals exact (List.getElem?_set_ne same).trans found
  | handler other own =>
    obtain ⟨there, located, moved⟩ := Option.bind_eq_some_iff.mp stepped
    obtain ⟨handler, _, _, rfl, _⟩ := handlerStep_cases moved
    by_cases same : other = index
    · subst same
      cases located.symm.trans found
      exact .inl ⟨rfl, { call with cancelled := true, handler }, List.getElem?_set_self bound, rfl, fun _ => rfl⟩
    · exact .inl ⟨rfl, call, (List.getElem?_set_ne same).trans found, rfl, id⟩
  | drain =>
    cases stepped
    exact .inl ⟨rfl, call, found, rfl, id⟩

/-- An evaluation with its token set only goes on to end, and one that has not begun ends at once. -/
theorem taskStep_cancelled {event : TaskEvent} (found : endpoint.calls[index]? = some call)
    (cancelled : call.cancelled = true) (honours : endpoint.Honours (.task index event))
    (stepped : endpoint.taskStep state text allowList evaluate evaluateWhole index call event = some next) :
    ∃ task, next.calls[index]? = some { call with task } ∧ task.stepsLeft < call.task.stepsLeft ∧
      (call.task = .queued → task = .ended (.finished (.error .cancelled))) := by
  have bound : index < endpoint.calls.length := (List.getElem?_eq_some_iff.mp found).1
  obtain ⟨held, kind⟩ := taskStep_cases stepped
  rcases kind with ⟨_, live, _⟩ | ⟨reader, own, after, caches, running, rfl, sees, read, rfl⟩ | ⟨outcome, rfl, _⟩
  -- a task whose token is set does not begin
  · rw [cancelled] at live
    cases live
  · rw [cancelled] at sees
    have honoured := honours call reader found running
    rw [cancelled] at honoured
    have fell := readerStep_falls sees honoured read
    dsimp only at fell
    refine ⟨.filtered after, List.getElem?_set_self bound, ?_, ?_⟩
    · rw [running]
      simp only [TaskPhase.stepsLeft]
      omega
    · intro queued
      rw [queued] at running
      cases running
  · refine ⟨.ended outcome, List.getElem?_set_self bound, ?_, ?_⟩
    · cases phase : call.task with
      | unspawned | ended =>
        rw [phase] at held
        cases held
      | _ => simp [TaskPhase.stepsLeft]
    · intro queued
      unfold taskStep at stepped
      rw [queued] at stepped
      cases event with
      | start =>
        simp only [cancelled, if_true, Option.some.injEq] at stepped
        have moved := congrArg (fun endpoint => endpoint.calls[index]?) stepped
        simp only [endTask, SparqlEndpoint.put, List.getElem?_set_self bound, Option.some.injEq,
          SparqlCall.mk.injEq] at moved
        exact moved.2.2.2.2.2.symm
      | _ => cases stepped

variable (state text allowList evaluate evaluateWhole) in
theorem taskStep_enabled (found : endpoint.calls[index]? = some call) (cancelled : call.cancelled = true)
    (held : call.task.holdsSlot = true) (called : ∀ reader, call.task = .filtered reader → reader.asks ≠ none) :
    ∃ event, event ≠ .panic ∧ endpoint.Honours (.task index event) ∧
      (endpoint.taskStep state text allowList evaluate evaluateWhole index call event).isSome = true := by
  unfold taskStep
  cases running : call.task with
  | unspawned | ended =>
    rw [running] at held
    cases held
  | queued => exact ⟨.start, by simp, trivial, by simp [cancelled]⟩
  | unfiltered snapshot => exact ⟨.complete anyOrder, by simp, trivial, rfl⟩
  | filtered reader =>
    by_cases waits : ∀ attempt reply, reader ≠ .replied attempt reply
    · obtain ⟨event, sees, honours, steps⟩ :=
        readerStep_enabled text allowList evaluate (endpoint.system reader) (called reader running) waits
      refine ⟨.read event, by simp, ?_, ?_⟩
      · intro other own located same
        cases located.symm.trans found
        cases same.symm.trans running
        rw [cancelled]
        exact honours
      · simpa [cancelled, sees] using steps
    · push Not at waits
      obtain ⟨attempt, reply, rfl⟩ := waits
      exact ⟨.finish, by simp, trivial, rfl⟩

theorem tended_put {call : SparqlCall} (tended : ∀ call ∈ endpoint.calls, Tended call) (own : Tended call)
    (index : Nat) : ∀ other ∈ (endpoint.put index call).calls, Tended other := by
  intro other member
  rcases List.mem_or_eq_of_mem_set member with kept | rfl
  · exact tended other kept
  · exact own

theorem tended_step {event : EndpointEvent} (tended : ∀ call ∈ endpoint.calls, Tended call)
    (stepped : endpoint.step state text allowList evaluate evaluateWhole event = some next) :
    ∀ call ∈ next.calls, Tended call := by
  cases event with
  | write event =>
    obtain ⟨_, after, _, rfl⟩ := writeStep_eq_some stepped
    exact tended
  | request now arrival headers query =>
    cases stepped
    obtain ⟨added, slots, changed, kind⟩ := requestStep_cases state endpoint now arrival headers query
    rw [changed]
    intro call member
    rcases List.mem_append.mp member with kept | fresh
    · exact tended call kept
    · cases List.mem_singleton.mp fresh
      -- a request that is refused is over from the start
      rcases kind with ⟨_, _, _, cancelled, unspawned, _⟩ | ⟨waiting, queued, _⟩
      · refine ⟨fun _ => cancelled, fun reader running => ?_⟩
        rw [unspawned] at running
        cases running
      · refine ⟨fun left => absurd waiting left, fun reader running => ?_⟩
        rw [queued] at running
        cases running
  | task index own =>
    obtain ⟨call, found, moved⟩ := Option.bind_eq_some_iff.mp stepped
    have before := tended call (List.mem_of_getElem? found)
    obtain ⟨_, ⟨_, _, task, rfl, begins⟩ | ⟨reader, own, after, caches, running, _, sees, read, rfl⟩ |
      ⟨outcome, rfl, _⟩⟩ := taskStep_cases moved
    · have own : Tended { call with task } := by
        refine ⟨before.left, fun reader running => ?_⟩
        rcases begins with ⟨_, rfl⟩ | ⟨_, rfl⟩
        · cases running
          exact Option.some_ne_none _
        · cases running
      exact tended_put tended own index
    · have own : Tended { call with task := .filtered after } := by
        refine ⟨before.left, fun other running => ?_⟩
        cases running
        exact readerStep_asks sees read ▸ before.called reader running
      exact tended_put tended own index
    · have own : Tended { call with task := .ended outcome } := ⟨before.left, fun reader running => by cases running⟩
      exact tended_put tended own index
  | handler index own =>
    obtain ⟨call, found, moved⟩ := Option.bind_eq_some_iff.mp stepped
    obtain ⟨handler, _, _, rfl, _⟩ := handlerStep_cases moved
    have own : Tended { call with cancelled := true, handler } :=
      ⟨fun _ => rfl, (tended call (List.mem_of_getElem? found)).called⟩
    exact tended_put tended own index
  | drain =>
    cases stepped
    exact tended

theorem tended_of_run {allowed : SparqlEndpoint → EndpointEvent → Prop} {last : SparqlEndpoint}
    {events : List EndpointEvent}
    (run : Run (step state text allowList evaluate evaluateWhole) allowed endpoint events last)
    (tended : ∀ call ∈ endpoint.calls, Tended call) : ∀ call ∈ last.calls, Tended call := by
  refine @run.invariant _ _ _ _ _ _ _ (fun endpoint => ∀ call ∈ endpoint.calls, Tended call) ?_ tended
  exact fun _ _ _ tended _ stepped => tended_step tended stepped

def stepsLeft (index : Nat) (endpoint : SparqlEndpoint) : Nat :=
  ((endpoint.calls[index]?).map fun call => call.task.stepsLeft).getD 0

/-- A request whose token is set; its evaluation, if it had not begun, never does. -/
def Abandoned (first : SparqlCall) (index : Nat) (endpoint : SparqlEndpoint) : Prop :=
  ∃ call, endpoint.calls[index]? = some call ∧ call.cancelled = true ∧
    (first.task = .queued → call.task = .queued ∨ call.task = .ended (.finished (.error .cancelled)))

theorem abandoned_step {first : SparqlCall} {event : EndpointEvent} (abandoned : Abandoned first index endpoint)
    (honours : endpoint.Honours event)
    (stepped : endpoint.step state text allowList evaluate evaluateWhole event = some next) :
    Abandoned first index next ∧
      stepsLeft index next + (if event.isTask index then 1 else 0) ≤ stepsLeft index endpoint := by
  obtain ⟨call, found, cancelled, waits⟩ := abandoned
  rcases step_at found stepped with ⟨other, moved, reads, same, keeps⟩ | ⟨own, rfl, moved⟩
  · refine ⟨⟨moved, reads, keeps cancelled, same ▸ waits⟩, ?_⟩
    rw [other, stepsLeft, stepsLeft, reads, found]
    simp [same]
  · obtain ⟨task, reads, fell, ends⟩ := taskStep_cancelled found cancelled honours moved
    refine ⟨⟨{ call with task }, reads, cancelled, ?_⟩, ?_⟩
    · intro queued
      rcases waits queued with still | ended
      · exact .inr (ends still)
      · rw [ended] at fell
        simp [TaskPhase.stepsLeft] at fell
    · rw [stepsLeft, stepsLeft, reads, found]
      simpa [EndpointEvent.isTask] using fell

end

/-- Once a request is over, its evaluation takes ten steps at most, whatever else happens and however often the store
changes; until it has ended it can always take one; and if it had not begun, it never reads the store. The evaluator is
assumed to look nothing up for a token that is set. -/
theorem abandoned_evaluation_ends {Material DecodingKey : Type} (state : SparqlState Material DecodingKey)
    (text : IriText) (allowList : String → Catalog → VisibleIris) (evaluate : String → Evaluation)
    (evaluateWhole : ReadOrder → QuadStore → String → SparqlQueryResult (List UInt8)) (events : List EndpointEvent)
    (endpoint : SparqlEndpoint)
    (run : Run (step state text allowList evaluate evaluateWhole) (fun _ _ => True) (initial state) events endpoint)
    (index : Nat) (call : SparqlCall) (found : endpoint.calls[index]? = some call) (leaves : call.handler ≠ .waiting)
    (later : List EndpointEvent) (final : SparqlEndpoint)
    (onward : Run (step state text allowList evaluate evaluateWhole) Honours endpoint later final) :
    later.countP (fun event => event.isTask index) ≤ 10 ∧
    ∃ last, final.calls[index]? = some last ∧
      (last.task.holdsSlot = true → ∃ event, event ≠ .panic ∧ final.Honours (.task index event) ∧
        (final.step state text allowList evaluate evaluateWhole (.task index event)).isSome = true) ∧
      (call.task = .queued → last.task = .queued ∨ last.task = .ended (.finished (.error .cancelled))) := by
  have tended : ∀ call ∈ endpoint.calls, Tended call := tended_of_run run fun _ member => absurd member List.not_mem_nil
  have abandoned : Abandoned call index endpoint :=
    ⟨call, found, (tended call (List.mem_of_getElem? found)).left leaves, fun queued => .inl queued⟩
  -- every step of this task takes one of its steps away, no other step gives one back
  have bound := onward.countP_le_of_falls (stepsLeft index) (fun event => event.isTask index)
    (fun _ _ _ known honours stepped => (abandoned_step known honours stepped).1)
    (fun _ _ _ known honours stepped => (abandoned_step known honours stepped).2) abandoned
  have most : stepsLeft index endpoint ≤ 10 := by
    rw [stepsLeft, found]
    exact call.task.stepsLeft_le
  obtain ⟨last, reads, cancelled, waits⟩ := onward.invariant
    (fun _ _ _ known honours stepped => (abandoned_step known honours stepped).1) abandoned
  refine ⟨by omega, last, reads, ?_, waits⟩
  intro held
  have known := tended_of_run onward tended last (List.mem_of_getElem? reads)
  obtain ⟨event, calm, honours, steps⟩ := taskStep_enabled state text allowList evaluate evaluateWhole reads cancelled
    held known.called
  refine ⟨event, calm, honours, ?_⟩
  simpa only [SparqlEndpoint.step, reads, Option.bind_eq_bind, Option.bind_some] using steps

end SparqlEndpoint

def disconnectedEvents : List EndpointEvent :=
  [.request 0 0 ⟨none, none⟩ (some "ASK {}"), .task 0 .start, .handler 0 .disconnect]

def endingEvents : List EndpointEvent := [.task 0 (.read (.attempt true 0)), .task 0 .finish]

theorem disconnected_slot_returns : ∃ endpoint final,
    Run oneSlotStep (fun _ _ => True) (.initial oneSlotState) disconnectedEvents endpoint ∧
    Run oneSlotStep SparqlEndpoint.Honours endpoint endingEvents final ∧ endpoint.slots = 0 ∧ final.slots = 1 ∧
    endingEvents.countP (fun event => event.isTask 0) ≤ 10 := by
  have run : ∃ endpoint final,
      Run oneSlotStep (fun _ _ => True) (.initial oneSlotState) disconnectedEvents endpoint ∧
      Run oneSlotStep SparqlEndpoint.Honours endpoint endingEvents final ∧ endpoint.slots = 0 ∧ final.slots = 1 ∧
      ∃ call, endpoint.calls[0]? = some call ∧ call.handler = .gone := by
    refine ⟨_, _, .cons trivial rfl (.cons trivial rfl (.cons trivial rfl (.nil _))),
      .cons ?_ rfl (.cons trivial rfl (.nil _)), rfl, rfl, _, rfl, rfl⟩
    intro call reader found running
    cases found
    cases running
    trivial
  obtain ⟨endpoint, final, run, onward, taken, free, call, found, gone⟩ := run
  have bound :=
    SparqlEndpoint.abandoned_evaluation_ends _ _ _ _ _ _ endpoint run 0 call found (by simp [gone]) _ _ onward
  exact ⟨endpoint, final, run, onward, taken, free, bound.1⟩

end CatalogBroker
