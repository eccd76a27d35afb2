import CatalogBroker.Broker.Lifecycle

/-! What ends the process, and when.

Each step has one inversion lemma; what a run has brought about is read off the events
that led to it, and off the moments it has passed.
-/

set_option autoImplicit false

namespace CatalogBroker

open Library Transitions

namespace SparqlEndpoint

variable {Material DecodingKey : Type} {state : SparqlState Material DecodingKey} {text : IriText}
  {allowList : String → Catalog → VisibleIris} {evaluate : String → Evaluation}
  {evaluateWhole : ReadOrder → QuadStore → String → SparqlQueryResult (List UInt8)} {endpoint next : SparqlEndpoint}

def Quiet (endpoint : SparqlEndpoint) : Prop := ∀ call ∈ endpoint.calls, call.handler ≠ .waiting

theorem Quiet.put (quiet : endpoint.Quiet) (index : Nat) {call : SparqlCall} (left : call.handler ≠ .waiting) :
    (endpoint.put index call).Quiet := by
  intro other member
  rcases List.mem_or_eq_of_mem_set member with kept | rfl
  · exact quiet other kept
  · exact left

theorem step_frame {event : EndpointEvent}
    (stepped : endpoint.step state text allowList evaluate evaluateWhole event = some next) :
    (event ≠ .drain → next.draining = endpoint.draining) ∧
    ((∀ now arrival headers query, event ≠ .request now arrival headers query) → endpoint.Quiet → next.Quiet) := by
  cases event with
  | write event =>
    obtain ⟨_, after, _, rfl⟩ := writeStep_eq_some stepped
    exact ⟨fun _ => rfl, fun _ quiet => quiet⟩
  | request now arrival headers query =>
    cases stepped
    obtain ⟨added, slots, changed, _⟩ := requestStep_cases state endpoint now arrival headers query
    rw [changed]
    exact ⟨fun _ => rfl, fun other => absurd rfl (other now arrival headers query)⟩
  | task index own =>
    obtain ⟨call, found, moved⟩ := Option.bind_eq_some_iff.mp stepped
    have member : call ∈ endpoint.calls := List.mem_of_getElem? found
    obtain ⟨_, ⟨_, _, task, rfl, _⟩ | ⟨_, _, after, caches, _, _, _, _, rfl⟩ | ⟨outcome, rfl, _⟩⟩ :=
      taskStep_cases moved
    · exact ⟨fun _ => rfl, fun _ quiet => quiet.put index (quiet call member)⟩
    · exact ⟨fun _ => rfl, fun _ quiet => quiet.put index (quiet call member)⟩
    · exact ⟨fun _ => rfl, fun _ quiet => quiet.put index (quiet call member)⟩
  | handler index own =>
    obtain ⟨call, found, moved⟩ := Option.bind_eq_some_iff.mp stepped
    obtain ⟨handler, _, left, rfl, _⟩ := handlerStep_cases moved
    exact ⟨fun _ => rfl, fun _ quiet => quiet.put index left⟩
  | drain =>
    cases stepped
    exact ⟨fun other => absurd rfl other, fun _ quiet => quiet⟩

end SparqlEndpoint

section

variable {concurrency : Nat} {scheduler next : Scheduler} {event : SchedulerEvent}

theorem CrawlerTask.over_step (stepped : scheduler.step concurrency event = some next) (panicked : Bool) :
    (CrawlerTask.over ⟨scheduler, panicked⟩ = true → CrawlerTask.over ⟨next, panicked⟩ = true) ∧
    (CrawlerTask.over ⟨next, panicked⟩ = true → event = .stop ∨ CrawlerTask.over ⟨scheduler, panicked⟩ = true) := by
  unfold CrawlerTask.over
  cases Scheduler.step_stepped stepped with
  | stop phase => exact ⟨fun _ => rfl, fun _ => .inl rfl⟩
  | land phase found =>
    rw [phase]
    exact ⟨fun _ => rfl, fun _ => .inr rfl⟩
  | tick crawls phase => simp [phase]
  | crawl phase steps => simp [phase]
  | settle now hashed deleted phase exhausted => simp [phase]
  | remove phase => simp [phase]
  | record cycleEnd phase => simp [phase]

theorem CrawlerTask.stop_isSome {task : CrawlerTask} (running : task.over = false) :
    ∃ next, task.scheduler.step concurrency .stop = some next ∧ CrawlerTask.over ⟨next, task.panicked⟩ = true := by
  unfold CrawlerTask.over at running ⊢
  unfold Scheduler.step
  cases phase : task.scheduler.phase with
  | stopped contents handed =>
    rw [phase] at running
    cases running
  | expiring summary deleted stale expiry =>
    cases stale with
    | nil => exact ⟨⟨task.scheduler.harvester, .stopped task.scheduler.contents task.scheduler.handed⟩, rfl, rfl⟩
    | cons id stale =>
      exact ⟨⟨task.scheduler.harvester, .stopped task.scheduler.contents task.scheduler.handed⟩, rfl, rfl⟩
  | _ => exact ⟨⟨task.scheduler.harvester, .stopped task.scheduler.contents task.scheduler.handed⟩, rfl, rfl⟩

end

namespace Signals

variable {signals after : Signals} {kind : SignalKind}

theorem count_set_true (signals : Signals) (kind : SignalKind) : (signals.set kind true).count ≤ signals.count + 1 := by
  cases kind with
  | interrupt =>
    simp only [count, set, Bool.toNat_true]
    omega
  | terminate =>
    simp only [count, set, Bool.toNat_true]
    omega

theorem count_next (read : signals.next kind = some after) : after.count + 1 = signals.count := by
  unfold next at read
  split at read
  · rename_i pending
    cases read
    cases kind with
    | interrupt =>
      have pending : signals.interrupt = true := pending
      simp only [count, set, pending, Bool.toNat_true, Bool.toNat_false]
      omega
    | terminate =>
      have pending : signals.terminate = true := pending
      simp only [count, set, pending, Bool.toNat_true, Bool.toNat_false]
  · cases read

end Signals

def BrokerEvent.isSignal : BrokerEvent → Bool
  | .signal _ => true
  | _ => false

namespace Broker

section

variable {Material DecodingKey : Type} {config : BrokerConfig Material DecodingKey} {text : IriText}
  {allowList : String → Catalog → VisibleIris} {evaluate : String → Evaluation}
  {evaluateWhole : ReadOrder → QuadStore → String → SparqlQueryResult (List UInt8)} {broker next : Broker}

theorem step_eq_some {event : BrokerEvent} :
    step config text allowList evaluate evaluateWhole broker event = some next ↔
      (∀ code, broker.main ≠ .exited code) ∧
        move config text allowList evaluate evaluateWhole broker event = some next := by
  unfold step
  cases broker.main <;> simp

theorem time_cases {later : Instant}
    (stepped : move config text allowList evaluate evaluateWhole broker (.time later) = some next) :
    broker.now ≤ later ∧ next = { broker with now := later } := by
  unfold move at stepped
  dsimp only at stepped
  split at stepped
  · rename_i goesOn
    cases stepped
    exact ⟨goesOn, rfl⟩
  · cases stepped

theorem handleStep_cases {kind : SignalKind} (stepped : broker.handleStep kind = some next) :
    ∃ signals, broker.signals.next kind = some signals ∧
      (broker.handler = .first ∧ next = { broker with signals, handler := .second, shutdown := true } ∨
        broker.handler = .second ∧ next = { broker with signals, main := .exited 130 }) := by
  obtain ⟨signals, read, rfl⟩ := Option.map_eq_some_iff.mp stepped
  refine ⟨signals, read, ?_⟩
  cases broker.handler with
  | first => exact .inl ⟨rfl, rfl⟩
  | second => exact .inr ⟨rfl, rfl⟩

theorem stopStep_cases (stepped : stopStep config broker = some next) : ∃ stop, next = { broker with stop } ∧
    (broker.stop = .waiting ∧ broker.shutdown = true ∧ (config.shutdownDelay = 0 ∧ stop = .done ∨
        stop = .sleeping (broker.now + config.shutdownDelay)) ∨
      ∃ wakesAt, broker.stop = .sleeping wakesAt ∧ wakesAt ≤ broker.now ∧ stop = .done) := by
  unfold stopStep at stepped
  cases phase : broker.stop with
  | waiting =>
    rw [phase] at stepped
    dsimp only at stepped
    split at stepped
    · cases stepped
    · rename_i begun
      have begun : broker.shutdown = true := by simpa using begun
      split at stepped
      · rename_i immediate
        cases stepped
        exact ⟨.done, rfl, .inl ⟨rfl, begun, .inl ⟨immediate, rfl⟩⟩⟩
      · cases stepped
        exact ⟨_, rfl, .inl ⟨rfl, begun, .inr rfl⟩⟩
  -- the sleep ends on the clock alone
  | sleeping wakesAt =>
    rw [phase] at stepped
    dsimp only at stepped
    split at stepped
    · rename_i due
      cases stepped
      exact ⟨.done, rfl, .inr ⟨wakesAt, rfl, due, rfl⟩⟩
    · cases stepped
  | done =>
    rw [phase] at stepped
    cases stepped

theorem drainStep_cases (stepped : broker.drainStep = some next) :
    broker.stop = .done ∧ next = { broker with endpoint := { broker.endpoint with draining := true } } := by
  unfold drainStep at stepped
  split at stepped
  · rename_i done
    cases stepped
    exact ⟨done, rfl⟩
  · cases stepped

theorem closeStep_cases (stepped : broker.closeStep = some next) :
    broker.server = .accepting ∧ broker.endpoint.draining = true ∧ next = { broker with server := .closing } := by
  unfold closeStep at stepped
  split at stepped
  · rename_i accepting
    split at stepped
    · rename_i draining
      cases stepped
      exact ⟨accepting, draining, rfl⟩
    · cases stepped
  · cases stepped

theorem returnStep_cases {result : Except String Unit} (stepped : broker.returnStep result = some next) :
    next = { broker with server := .returned result } ∧ (∀ before, broker.server ≠ .returned before) ∧
      (result = .ok () → broker.server = .closing ∧ broker.answering = false) := by
  unfold returnStep at stepped
  cases phase : broker.server with
  | returned before =>
    rw [phase] at stepped
    cases stepped
  | accepting =>
    rw [phase] at stepped
    cases result with
    | ok done => cases stepped
    | error error =>
      cases stepped
      exact ⟨rfl, fun _ => ServerPhase.noConfusion, fun impossible => by cases impossible⟩
  | closing =>
    rw [phase] at stepped
    cases result with
    | ok done =>
      dsimp only at stepped
      split at stepped
      · cases stepped
      · rename_i quiet
        cases stepped
        exact ⟨rfl, fun _ => ServerPhase.noConfusion, fun _ => ⟨rfl, eq_false_of_ne_true quiet⟩⟩
    | error error =>
      cases stepped
      exact ⟨rfl, fun _ => ServerPhase.noConfusion, fun impossible => by cases impossible⟩

theorem sparqlStep_cases {event : EndpointEvent}
    (stepped : sparqlStep config text allowList evaluate evaluateWhole broker event = some next) :
    event ≠ .drain ∧
    (∀ now arrival headers query result, event = .request now arrival headers query →
      broker.server ≠ .returned result) ∧
    ∃ endpoint, broker.endpoint.step config.sparql text allowList evaluate evaluateWhole event = some endpoint ∧
      next = { broker with endpoint } := by
  unfold sparqlStep at stepped
  dsimp only at stepped
  split at stepped
  · cases stepped
  · cases stepped
  · rename_i undrained unrequested
    obtain ⟨endpoint, moved, rfl⟩ := Option.map_eq_some_iff.mp stepped
    exact ⟨undrained, unrequested, endpoint, moved, rfl⟩

theorem crawlStep_cases {event : SchedulerEvent} (stepped : crawlStep config broker event = some next) :
    ∃ task scheduler, broker.crawler = some task ∧
      task.scheduler.step config.concurrency event = some scheduler ∧
      next = { broker with crawler := some { task with scheduler } } ∧ (event = .stop → broker.shutdown = true) := by
  obtain ⟨task, found, stepped⟩ := Option.bind_eq_some_iff.mp stepped
  obtain ⟨scheduler, moved, stepped⟩ := Option.bind_eq_some_iff.mp stepped
  dsimp only at stepped
  split at stepped
  · split at stepped
    · rename_i stopping
      cases stepped
      exact ⟨task, scheduler, found, moved, rfl, fun _ => stopping⟩
    · cases stepped
  · rename_i goesOn
    cases stepped
    exact ⟨task, scheduler, found, moved, rfl, fun stops => absurd stops goesOn⟩

theorem panicStep_cases (stepped : panicStep config broker = some next) : ∃ task scheduler,
    broker.crawler = some task ∧ task.scheduler.step config.concurrency .stop = some scheduler ∧
      next = { broker with crawler := some ⟨scheduler, true⟩ } := by
  obtain ⟨task, found, stepped⟩ := Option.bind_eq_some_iff.mp stepped
  obtain ⟨scheduler, moved, stepped⟩ := Option.bind_eq_some_iff.mp stepped
  cases stepped
  exact ⟨task, scheduler, found, moved, rfl⟩

theorem servedStep_cases (stepped : broker.servedStep = some next) :
    (∃ error, broker.server = .returned (.error error) ∧ next = { broker with main := .leaving 101 }) ∨
    broker.server = .returned (.ok ()) ∧
      (broker.main = .serverOrCrawler ∧ next = { broker with shutdown := true, main := .crawler } ∨
        broker.main = .server ∧ next = { broker with main := .leaving 0 }) := by
  unfold servedStep at stepped
  split at stepped
  · rename_i waited returned
    cases stepped
    exact .inr ⟨returned, .inl ⟨waited, rfl⟩⟩
  · rename_i waited returned
    cases stepped
    exact .inr ⟨returned, .inr ⟨waited, rfl⟩⟩
  · rename_i error waited failed
    cases stepped
    exact .inl ⟨error, failed, rfl⟩
  · rename_i error waited failed
    cases stepped
    exact .inl ⟨error, failed, rfl⟩
  · cases stepped

theorem joinedStep_cases (stepped : broker.joinedStep = some next) :
    ∃ task, broker.crawler = some task ∧ task.over = true ∧
      (broker.main = .serverOrCrawler ∧ (broker.shutdown = false ∧ next = { broker with main := .exited 1 } ∨
          next = { broker with main := .server }) ∨
        broker.main = .crawler ∧ next = { broker with main := .leaving 0 }) := by
  obtain ⟨task, found, stepped⟩ := Option.bind_eq_some_iff.mp stepped
  refine ⟨task, found, ?_⟩
  split at stepped
  · cases stepped
  · rename_i ended
    refine ⟨by simpa using ended, ?_⟩
    split at stepped
    · rename_i waited
      split at stepped
      · rename_i undisturbed
        cases stepped
        exact .inl ⟨waited, .inl ⟨undisturbed, rfl⟩⟩
      · cases stepped
        exact .inl ⟨waited, .inr rfl⟩
    · rename_i waited
      cases stepped
      exact .inr ⟨waited, rfl⟩
    · cases stepped

theorem exitStep_cases (stepped : broker.exitStep = some next) : ∃ code, broker.main = .leaving code ∧
    broker.endpoint.blocking = false ∧ next = { broker with main := .exited code } := by
  unfold exitStep at stepped
  split at stepped
  · rename_i code leaving
    split at stepped
    · cases stepped
    · rename_i idle
      cases stepped
      exact ⟨code, leaving, eq_false_of_ne_true idle, rfl⟩
  · cases stepped

theorem endpoint_step {event : BrokerEvent}
    (stepped : step config text allowList evaluate evaluateWhole broker event = some next) :
    next.endpoint = broker.endpoint ∨
      ∃ own, broker.endpoint.step config.sparql text allowList evaluate evaluateWhole own = some next.endpoint := by
  have moved := (step_eq_some.mp stepped).2
  cases event with
  | time later =>
    obtain ⟨_, rfl⟩ := time_cases moved
    exact .inl rfl
  | signal kind =>
    cases moved
    exact .inl rfl
  | handle kind =>
    obtain ⟨signals, _, ⟨_, rfl⟩ | ⟨_, rfl⟩⟩ := handleStep_cases moved
    · exact .inl rfl
    · exact .inl rfl
  | stop =>
    obtain ⟨stop, rfl, _⟩ := stopStep_cases moved
    exact .inl rfl
  | drain =>
    obtain ⟨_, rfl⟩ := drainStep_cases moved
    exact .inr ⟨.drain, rfl⟩
  | close =>
    obtain ⟨_, _, rfl⟩ := closeStep_cases moved
    exact .inl rfl
  | serverReturns | serverFails error =>
    obtain ⟨rfl, _⟩ := returnStep_cases moved
    exact .inl rfl
  | sparql event =>
    obtain ⟨_, _, endpoint, own, rfl⟩ := sparqlStep_cases moved
    exact .inr ⟨event, own⟩
  -- what the crawler writes reaches the store as an event of the endpoint
  | crawl event =>
    obtain ⟨_, _, _, _, rfl, _⟩ := crawlStep_cases moved
    exact .inl rfl
  | crawlerPanics =>
    obtain ⟨_, _, _, _, rfl⟩ := panicStep_cases moved
    exact .inl rfl
  | served =>
    rcases servedStep_cases moved with ⟨_, _, rfl⟩ | ⟨_, ⟨_, rfl⟩ | ⟨_, rfl⟩⟩
    · exact .inl rfl
    · exact .inl rfl
    · exact .inl rfl
  | joined =>
    obtain ⟨_, _, _, ⟨_, ⟨_, rfl⟩ | rfl⟩ | ⟨_, rfl⟩⟩ := joinedStep_cases moved
    · exact .inl rfl
    · exact .inl rfl
    · exact .inl rfl
  | exit =>
    obtain ⟨_, _, _, rfl⟩ := exitStep_cases moved
    exact .inl rfl

end

section

variable {Material DecodingKey : Type} (config : BrokerConfig Material DecodingKey) (text : IriText)
  (allowList : String → Catalog → VisibleIris) (evaluate : String → Evaluation)
  (evaluateWhole : ReadOrder → QuadStore → String → SparqlQueryResult (List UInt8)) (begins : Instant)

abbrev BrokerRun (events : List BrokerEvent) (broker : Broker) : Prop :=
  Run (step config text allowList evaluate evaluateWhole) (fun _ _ => True) (start config begins) events broker

/-- At some moment so far the shutdown had begun, and the delay after it is over by the given time. -/
def DelayedUntil (events : List BrokerEvent) (time : Instant) : Prop :=
  ∃ moment : Broker, Run.Passes (step config text allowList evaluate evaluateWhole) (fun _ _ => True)
      (start config begins) events moment ∧
    moment.shutdown = true ∧ moment.now + config.shutdownDelay ≤ time

def crawlerOver (broker : Broker) : Prop := ∀ task, broker.crawler = some task → task.over = true

/-- Why `main` has returned, or panicked. -/
def LeftFor (broker : Broker) : Nat → Prop
  | 0 => broker.server = .returned (.ok ()) ∧ broker.crawlerOver
  | 101 => ∃ error, broker.server = .returned (.error error)
  | _ => False

/-- Why the process has exited with a code. -/
def ExitedFor (events : List BrokerEvent) (broker : Broker) : Nat → Prop
  | 0 => broker.server = .returned (.ok ()) ∧ broker.crawlerOver ∧ broker.endpoint.blocking = false
  | 1 => (∃ task, broker.crawler = some task ∧ task.panicked = true) ∧ broker.shutdown = false
  | 101 => (∃ error, broker.server = .returned (.error error)) ∧ broker.endpoint.blocking = false
  | 130 => 2 ≤ events.countP BrokerEvent.isSignal
  | _ => False

def handled (broker : Broker) : Nat :=
  match broker.handler with
  | .first => 0
  | .second => 1

/-- The stop sleeps, or is done, for a delay that began with the shutdown. -/
def Slept (events : List BrokerEvent) (now : Instant) : StopPhase → Prop
  | .waiting => True
  | .sleeping wakesAt => DelayedUntil config text allowList evaluate evaluateWhole begins events wakesAt
  | .done => DelayedUntil config text allowList evaluate evaluateWhole begins events now

/-- The server closes to drain, and returns once nobody waits. -/
def Served (endpoint : SparqlEndpoint) : ServerPhase → Prop
  | .accepting | .returned (.error _) => True
  | .closing => endpoint.draining = true
  | .returned (.ok ()) => endpoint.draining = true ∧ endpoint.Quiet

/-- `main` waits for what there is to wait for. -/
def Waits (broker : Broker) : MainPhase → Prop
  | .serverOrCrawler => broker.crawler.isSome = true
  | .server => broker.crawlerOver
  | .crawler => broker.server = .returned (.ok ()) ∧ broker.crawler.isSome = true
  | .leaving code => broker.LeftFor code
  | .exited _ => True

structure Sound (events : List BrokerEvent) (broker : Broker) : Prop where
  signalled : broker.handled + broker.signals.count ≤ events.countP BrokerEvent.isSignal
  begun : broker.shutdown = true → broker.handler = .second
  asked : broker.shutdown = false → broker.stop = .waiting
  slept : Slept config text allowList evaluate evaluateWhole begins events broker.now broker.stop
  drained : broker.endpoint.draining = true → broker.stop = .done
  served : Served broker.endpoint broker.server
  crawled : ∀ task, broker.crawler = some task → task.over = true → task.panicked = true ∨ broker.shutdown = true
  waits : Waits broker broker.main
  exited : ∀ code, broker.main = .exited code → ExitedFor events broker code

variable {config text allowList evaluate evaluateWhole begins} {events : List BrokerEvent} {broker next : Broker}

theorem LeftFor.cases {code : Nat} (left : broker.LeftFor code) :
    code = 0 ∧ broker.server = .returned (.ok ()) ∧ broker.crawlerOver ∨
      code = 101 ∧ ∃ error, broker.server = .returned (.error error) := by
  unfold LeftFor at left
  split at left
  · exact .inl ⟨rfl, left⟩
  · exact .inr ⟨rfl, left⟩
  · exact left.elim

theorem DelayedUntil.mono {time later : Instant} (delayed : DelayedUntil config text allowList evaluate evaluateWhole
    begins events time) (more : List BrokerEvent) (goesOn : time ≤ later) :
    DelayedUntil config text allowList evaluate evaluateWhole begins (events ++ more) later := by
  obtain ⟨moment, passes, stopping, past⟩ := delayed
  exact ⟨moment, passes.append more, stopping, past.trans goesOn⟩

theorem Slept.mono {now later : Instant} {stop : StopPhase}
    (slept : Slept config text allowList evaluate evaluateWhole begins events now stop) (more : List BrokerEvent)
    (goesOn : now ≤ later) : Slept config text allowList evaluate evaluateWhole begins (events ++ more) later stop := by
  cases stop with
  | waiting => trivial
  | sleeping wakesAt => exact DelayedUntil.mono slept more le_rfl
  | done => exact DelayedUntil.mono slept more goesOn

theorem countP_more (counted : BrokerEvent → Bool) (events more : List BrokerEvent) :
    events.countP counted ≤ (events ++ more).countP counted := by
  rw [List.countP_append]
  exact Nat.le_add_right _ _

theorem Sound.initial : Sound config text allowList evaluate evaluateWhole begins [] (start config begins) where
  signalled := le_rfl
  begun stopping := by cases stopping
  asked _ := rfl
  slept := trivial
  drained draining := by cases draining
  served := trivial
  crawled task found ended := by
    obtain ⟨crawled, _, rfl⟩ := Option.map_eq_some_iff.mp found
    cases ended
  waits := by
    unfold start
    cases config.crawled with
    | none =>
      intro task found
      cases found
    | some crawled => rfl
  exited code exits := by
    unfold start at exits
    dsimp only at exits
    split at exits <;> cases exits

theorem Sound.signal (sound : Sound config text allowList evaluate evaluateWhole begins events broker)
    (running : ∀ code, broker.main ≠ .exited code) (kind : SignalKind) :
    Sound config text allowList evaluate evaluateWhole begins (events ++ [.signal kind])
      { broker with signals := broker.signals.set kind true } where
  signalled := by
    have before := sound.signalled
    have more := broker.signals.count_set_true kind
    rw [List.countP_append]
    change broker.handled + (broker.signals.set kind true).count ≤ events.countP BrokerEvent.isSignal + 1
    omega
  begun := sound.begun
  asked := sound.asked
  slept := sound.slept.mono _ le_rfl
  drained := sound.drained
  served := sound.served
  crawled := sound.crawled
  waits := sound.waits
  exited code exits := absurd exits (running code)

theorem Sound.handle (sound : Sound config text allowList evaluate evaluateWhole begins events broker)
    (running : ∀ code, broker.main ≠ .exited code) (kind : SignalKind)
    (stepped : broker.handleStep kind = some next) :
    Sound config text allowList evaluate evaluateWhole begins (events ++ [.handle kind]) next := by
  have before := sound.signalled
  have same : (events ++ [BrokerEvent.handle kind]).countP BrokerEvent.isSignal = events.countP BrokerEvent.isSignal :=
    List.countP_append
  unfold handled at before
  obtain ⟨signals, read, ⟨waited, rfl⟩ | ⟨waited, rfl⟩⟩ := handleStep_cases stepped
  · have fewer := Signals.count_next read
    rw [waited] at before
    dsimp only at before
    exact {
      signalled := by
        rw [same]
        change 1 + signals.count ≤ _
        omega
      begun := fun _ => rfl
      asked := by simp
      slept := sound.slept.mono _ le_rfl
      drained := sound.drained
      served := sound.served
      crawled := fun _ _ _ => .inr rfl
      waits := sound.waits
      exited := fun code exits => absurd exits (running code) }
  · have fewer := Signals.count_next read
    rw [waited] at before
    dsimp only at before
    exact {
      signalled := by
        rw [same]
        unfold handled
        dsimp only
        rw [waited]
        dsimp only
        omega
      begun := fun _ => waited
      asked := sound.asked
      slept := sound.slept.mono _ le_rfl
      drained := sound.drained
      served := sound.served
      crawled := sound.crawled
      waits := trivial
      exited := by
        intro code exits
        cases exits
        change 2 ≤ _
        omega }

theorem Sound.moveStop (sound : Sound config text allowList evaluate evaluateWhole begins events broker)
    (running : ∀ code, broker.main ≠ .exited code) (stopping : broker.shutdown = true) {stop : StopPhase}
    (undrained : broker.endpoint.draining = true → stop = .done)
    (slept : Slept config text allowList evaluate evaluateWhole begins (events ++ [.stop]) broker.now stop) :
    Sound config text allowList evaluate evaluateWhole begins (events ++ [.stop]) { broker with stop } where
  signalled := sound.signalled.trans (countP_more BrokerEvent.isSignal events [.stop])
  begun := sound.begun
  asked refused := by
    rw [stopping] at refused
    cases refused
  slept := slept
  drained := undrained
  served := sound.served
  crawled := sound.crawled
  waits := sound.waits
  exited code exits := absurd exits (running code)

theorem Sound.stopping_of_asleep (sound : Sound config text allowList evaluate evaluateWhole begins events broker)
    (asleep : broker.stop ≠ .waiting) : broker.shutdown = true := by
  cases asked : broker.shutdown with
  | true => rfl
  | false => exact absurd (sound.asked asked) asleep

/-- The delay begins at a moment the run has passed. -/
theorem Sound.stop (sound : Sound config text allowList evaluate evaluateWhole begins events broker)
    (run : BrokerRun config text allowList evaluate evaluateWhole begins events broker)
    (running : ∀ code, broker.main ≠ .exited code) (stepped : stopStep config broker = some next) :
    Sound config text allowList evaluate evaluateWhole begins (events ++ [.stop]) next := by
  -- if the delay starts here, this is the moment it is counted from
  have here := run.passes_last.append [.stop]
  have slept := sound.slept
  obtain ⟨stop, rfl, ⟨phase, stopping, ⟨immediate, rfl⟩ | rfl⟩ | ⟨wakesAt, phase, due, rfl⟩⟩ := stopStep_cases stepped
  · refine sound.moveStop running stopping (fun _ => rfl) ⟨broker, here, stopping, ?_⟩
    rw [immediate]
    exact le_rfl
  · refine sound.moveStop running stopping (fun draining => ?_) ⟨broker, here, stopping, le_rfl⟩
    cases phase.symm.trans (sound.drained draining)
  · rw [phase] at slept
    exact sound.moveStop running (sound.stopping_of_asleep (by simp [phase])) (fun _ => rfl)
      (DelayedUntil.mono slept [.stop] due)

theorem Served.mono {endpoint after : SparqlEndpoint} {server : ServerPhase} (served : Served endpoint server)
    (drains : endpoint.draining = true → after.draining = true)
    (quiet : server = .returned (.ok ()) → endpoint.Quiet → after.Quiet) : Served after server := by
  cases server with
  | accepting => trivial
  | closing => exact drains served
  | returned result =>
    cases result with
    | error error => trivial
    | ok done => exact ⟨drains served.1, quiet rfl served.2⟩

theorem Sound.moveEndpoint (sound : Sound config text allowList evaluate evaluateWhole begins events broker)
    (running : ∀ code, broker.main ≠ .exited code) (event : BrokerEvent) {endpoint : SparqlEndpoint}
    (drained : endpoint.draining = true → broker.stop = .done) (served : Served endpoint broker.server) :
    Sound config text allowList evaluate evaluateWhole begins (events ++ [event]) { broker with endpoint } where
  signalled := sound.signalled.trans (countP_more _ _ _)
  begun := sound.begun
  asked := sound.asked
  slept := sound.slept.mono _ le_rfl
  drained := drained
  served := served
  crawled := sound.crawled
  waits := sound.waits
  exited code exits := absurd exits (running code)

theorem Sound.drain (sound : Sound config text allowList evaluate evaluateWhole begins events broker)
    (running : ∀ code, broker.main ≠ .exited code) (stepped : broker.drainStep = some next) :
    Sound config text allowList evaluate evaluateWhole begins (events ++ [.drain]) next := by
  obtain ⟨done, rfl⟩ := drainStep_cases stepped
  exact sound.moveEndpoint running .drain (fun _ => done) (sound.served.mono (fun _ => rfl) fun _ quiet => quiet)

theorem Sound.moveServer (sound : Sound config text allowList evaluate evaluateWhole begins events broker)
    (running : ∀ code, broker.main ≠ .exited code) (event : BrokerEvent) {server : ServerPhase}
    (served : Served broker.endpoint server) (before : ∀ result, broker.server ≠ .returned result) :
    Sound config text allowList evaluate evaluateWhole begins (events ++ [event]) { broker with server } where
  signalled := sound.signalled.trans (countP_more _ _ _)
  begun := sound.begun
  asked := sound.asked
  slept := sound.slept.mono _ le_rfl
  drained := sound.drained
  served := served
  crawled := sound.crawled
  waits := by
    have waits := sound.waits
    cases waited : broker.main with
    | crawler =>
      rw [waited] at waits
      exact absurd waits.1 (before _)
    -- `main` leaves once the server has returned, so the server is past this step
    | leaving code =>
      rw [waited] at waits
      rcases LeftFor.cases waits with ⟨_, returned, _⟩ | ⟨_, error, failed⟩
      · exact absurd returned (before _)
      · exact absurd failed (before _)
    | _ =>
      rw [waited] at waits
      exact waits
  exited code exits := absurd exits (running code)

theorem Sound.close (sound : Sound config text allowList evaluate evaluateWhole begins events broker)
    (running : ∀ code, broker.main ≠ .exited code) (stepped : broker.closeStep = some next) :
    Sound config text allowList evaluate evaluateWhole begins (events ++ [.close]) next := by
  obtain ⟨accepting, draining, rfl⟩ := closeStep_cases stepped
  exact sound.moveServer running .close draining (by simp [accepting])

theorem answering_eq_false : broker.answering = false ↔ broker.endpoint.Quiet := by
  unfold answering SparqlEndpoint.Quiet
  rw [List.any_eq_false]
  constructor
  · intro none call member waits
    have waited := none call member
    rw [waits] at waited
    exact waited rfl
  · intro quiet call member waits
    have left := quiet call member
    split at waits
    · rename_i waiting
      exact left waiting
    · cases waits

theorem Sound.returns (sound : Sound config text allowList evaluate evaluateWhole begins events broker)
    (running : ∀ code, broker.main ≠ .exited code) (event : BrokerEvent) (result : Except String Unit)
    (stepped : broker.returnStep result = some next) :
    Sound config text allowList evaluate evaluateWhole begins (events ++ [event]) next := by
  obtain ⟨rfl, unreturned, calm⟩ := returnStep_cases stepped
  refine sound.moveServer running event ?_ unreturned
  cases result with
  | error error => trivial
  | ok done =>
    obtain ⟨closing, quiet⟩ := calm rfl
    have served := sound.served
    rw [closing] at served
    exact ⟨served, answering_eq_false.mp quiet⟩

theorem Sound.sparql (sound : Sound config text allowList evaluate evaluateWhole begins events broker)
    (running : ∀ code, broker.main ≠ .exited code) (event : EndpointEvent)
    (stepped : sparqlStep config text allowList evaluate evaluateWhole broker event = some next) :
    Sound config text allowList evaluate evaluateWhole begins (events ++ [.sparql event]) next := by
  obtain ⟨undrained, unrequested, endpoint, moved, rfl⟩ := sparqlStep_cases stepped
  obtain ⟨draining, quiet⟩ := SparqlEndpoint.step_frame moved
  have draining : endpoint.draining = broker.endpoint.draining := draining undrained
  refine sound.moveEndpoint running (.sparql event) (fun drains => sound.drained (draining ▸ drains)) ?_
  refine sound.served.mono (fun drains => draining.trans drains) fun returned => quiet ?_
  intro now arrival headers query same
  exact unrequested now arrival headers query _ same returned

theorem Sound.moveCrawler (sound : Sound config text allowList evaluate evaluateWhole begins events broker)
    (running : ∀ code, broker.main ≠ .exited code) (event : BrokerEvent) {task after : CrawlerTask}
    (found : broker.crawler = some task) (stays : task.over = true → after.over = true)
    (crawled : after.over = true → after.panicked = true ∨ broker.shutdown = true) :
    Sound config text allowList evaluate evaluateWhole begins (events ++ [event])
      { broker with crawler := some after } where
  signalled := sound.signalled.trans (countP_more _ _ _)
  begun := sound.begun
  asked := sound.asked
  slept := sound.slept.mono _ le_rfl
  drained := sound.drained
  served := sound.served
  crawled other same := by
    cases same
    exact crawled
  waits := by
    have waits := sound.waits
    dsimp only
    cases waited : broker.main with
    | serverOrCrawler => rfl
    | server =>
      rw [waited] at waits
      intro other same
      cases same
      exact stays (waits task found)
    | crawler =>
      rw [waited] at waits
      exact ⟨waits.1, rfl⟩
    -- `main` left for 0 because the crawler was over, and it stays over
    | leaving code =>
      rw [waited] at waits
      rcases LeftFor.cases waits with ⟨rfl, returned, ended⟩ | ⟨rfl, failed⟩
      · refine ⟨returned, ?_⟩
        intro other same
        cases same
        exact stays (ended task found)
      · exact failed
    | exited code => trivial
  exited code exits := absurd exits (running code)

theorem Sound.crawl (sound : Sound config text allowList evaluate evaluateWhole begins events broker)
    (running : ∀ code, broker.main ≠ .exited code) (event : SchedulerEvent)
    (stepped : crawlStep config broker event = some next) :
    Sound config text allowList evaluate evaluateWhole begins (events ++ [.crawl event]) next := by
  obtain ⟨task, scheduler, found, moved, rfl, asked⟩ := crawlStep_cases stepped
  obtain ⟨stays, ended⟩ := CrawlerTask.over_step moved task.panicked
  refine sound.moveCrawler running (.crawl event) found stays fun ends => ?_
  rcases ended ends with stops | already
  · exact .inr (asked stops)
  · exact sound.crawled task found already

theorem Sound.panic (sound : Sound config text allowList evaluate evaluateWhole begins events broker)
    (running : ∀ code, broker.main ≠ .exited code) (stepped : panicStep config broker = some next) :
    Sound config text allowList evaluate evaluateWhole begins (events ++ [.crawlerPanics]) next := by
  obtain ⟨task, scheduler, found, moved, rfl⟩ := panicStep_cases stepped
  exact sound.moveCrawler running .crawlerPanics found (CrawlerTask.over_step moved true).1 fun _ => .inl rfl

theorem Sound.time (sound : Sound config text allowList evaluate evaluateWhole begins events broker)
    (running : ∀ code, broker.main ≠ .exited code) {later : Instant} (goesOn : broker.now ≤ later) :
    Sound config text allowList evaluate evaluateWhole begins (events ++ [.time later])
      { broker with now := later } where
  signalled := sound.signalled.trans (countP_more _ _ _)
  begun := sound.begun
  asked := sound.asked
  slept := sound.slept.mono _ goesOn
  drained := sound.drained
  served := sound.served
  crawled := sound.crawled
  waits := sound.waits
  exited code exits := absurd exits (running code)

theorem Sound.moveMain (sound : Sound config text allowList evaluate evaluateWhole begins events broker)
    (event : BrokerEvent) {main : MainPhase} (waits : Waits broker main)
    (exited : ∀ code, main = .exited code → ExitedFor (events ++ [event]) broker code) :
    Sound config text allowList evaluate evaluateWhole begins (events ++ [event]) { broker with main } where
  signalled := sound.signalled.trans (countP_more _ _ _)
  begun := sound.begun
  asked := sound.asked
  slept := sound.slept.mono _ le_rfl
  drained := sound.drained
  served := sound.served
  crawled := sound.crawled
  waits := by
    cases main with
    | _ => exact waits
  exited code exits := by
    have reason := exited code exits
    cases exits
    unfold ExitedFor at reason ⊢
    exact reason

theorem Sound.stopping_of_draining
    (sound : Sound config text allowList evaluate evaluateWhole begins events broker)
    (draining : broker.endpoint.draining = true) : broker.shutdown = true := by
  refine sound.stopping_of_asleep ?_
  rw [sound.drained draining]
  exact StopPhase.noConfusion

theorem Sound.stopping_of_served (sound : Sound config text allowList evaluate evaluateWhole begins events broker)
    (returned : broker.server = .returned (.ok ())) : broker.shutdown = true := by
  have served := sound.served
  rw [returned] at served
  exact sound.stopping_of_draining served.1

theorem Sound.serverEnded (sound : Sound config text allowList evaluate evaluateWhole begins events broker)
    (stepped : broker.servedStep = some next) :
    Sound config text allowList evaluate evaluateWhole begins (events ++ [.served]) next := by
  have waits := sound.waits
  rcases servedStep_cases stepped with ⟨error, failed, rfl⟩ | ⟨returned, ⟨waited, rfl⟩ | ⟨waited, rfl⟩⟩
  · exact sound.moveMain .served ⟨error, failed⟩ fun _ exits => by cases exits
  · rw [waited] at waits
    have moved : Sound config text allowList evaluate evaluateWhole begins (events ++ [.served])
        { broker with main := .crawler } := sound.moveMain .served ⟨returned, waits⟩ fun _ exits => by cases exits
    -- the token `main` sets has been set by a signal: no server closes before
    exact { moved with
      begun := fun _ => sound.begun (sound.stopping_of_served returned)
      asked := by simp
      crawled := fun _ _ _ => .inr rfl
      waits := ⟨returned, waits⟩
      exited := fun _ exits => by cases exits }
  · rw [waited] at waits
    exact sound.moveMain .served ⟨returned, waits⟩ fun _ exits => by cases exits

theorem Sound.crawlerEnded (sound : Sound config text allowList evaluate evaluateWhole begins events broker)
    (stepped : broker.joinedStep = some next) :
    Sound config text allowList evaluate evaluateWhole begins (events ++ [.joined]) next := by
  have waits := sound.waits
  obtain ⟨task, found, ended, reason⟩ := joinedStep_cases stepped
  have only : broker.crawlerOver := by
    intro other same
    rw [found] at same
    cases same
    exact ended
  rcases reason with ⟨_, ⟨undisturbed, rfl⟩ | rfl⟩ | ⟨waited, rfl⟩
  · refine sound.moveMain .joined trivial fun code exits => ?_
    cases exits
    refine ⟨⟨task, found, ?_⟩, undisturbed⟩
    -- nobody could have stopped it
    exact (sound.crawled task found ended).resolve_right (by simp [undisturbed])
  · exact sound.moveMain .joined only fun _ exits => by cases exits
  · rw [waited] at waits
    exact sound.moveMain .joined ⟨waits.1, only⟩ fun _ exits => by cases exits

theorem Sound.exit (sound : Sound config text allowList evaluate evaluateWhole begins events broker)
    (stepped : broker.exitStep = some next) :
    Sound config text allowList evaluate evaluateWhole begins (events ++ [.exit]) next := by
  have waits := sound.waits
  obtain ⟨code, left, idle, rfl⟩ := exitStep_cases stepped
  rw [left] at waits
  refine sound.moveMain .exit trivial fun other exits => ?_
  cases exits
  rcases LeftFor.cases waits with ⟨rfl, returned, ended⟩ | ⟨rfl, failed⟩
  · exact ⟨returned, ended, idle⟩
  · exact ⟨failed, idle⟩

theorem Sound.step (sound : Sound config text allowList evaluate evaluateWhole begins events broker)
    (run : BrokerRun config text allowList evaluate evaluateWhole begins events broker) {event : BrokerEvent}
    (stepped : Broker.step config text allowList evaluate evaluateWhole broker event = some next) :
    Sound config text allowList evaluate evaluateWhole begins (events ++ [event]) next := by
  obtain ⟨running, moved⟩ := step_eq_some.mp stepped
  cases event with
  | time later =>
    obtain ⟨goesOn, rfl⟩ := time_cases moved
    exact sound.time running goesOn
  | signal kind =>
    cases moved
    exact sound.signal running kind
  | handle kind => exact sound.handle running kind moved
  | stop => exact sound.stop run running moved
  | drain => exact sound.drain running moved
  | close => exact sound.close running moved
  | serverReturns => exact sound.returns running _ _ moved
  | serverFails error => exact sound.returns running _ _ moved
  | sparql event => exact sound.sparql running event moved
  | crawl event => exact sound.crawl running event moved
  | crawlerPanics => exact sound.panic running moved
  | served => exact sound.serverEnded moved
  | joined => exact sound.crawlerEnded moved
  | exit => exact sound.exit moved

theorem Sound.of_run (run : BrokerRun config text allowList evaluate evaluateWhole begins events broker) :
    Sound config text allowList evaluate evaluateWhole begins events broker :=
  run.history Sound.initial fun _ _ _ _ earlier sound _ stepped => sound.step earlier stepped

/-- Whatever happens, the process exits with 0, 1, 101 or 130, each for a reason of its own. No shutdown begins
without a signal; no connection is refused before the delay after it is over; and the server returns only to nobody
who waits. -/
theorem exits_explained (config : BrokerConfig Material DecodingKey) (text : IriText)
    (allowList : String → Catalog → VisibleIris) (evaluate : String → Evaluation)
    (evaluateWhole : ReadOrder → QuadStore → String → SparqlQueryResult (List UInt8)) (begins : Instant)
    (events : List BrokerEvent) (broker : Broker)
    (run : BrokerRun config text allowList evaluate evaluateWhole begins events broker) :
    (∀ code, broker.main = .exited code → ExitedFor events broker code) ∧
    (broker.shutdown = true → 1 ≤ events.countP BrokerEvent.isSignal) ∧
    (broker.endpoint.draining = true ∨ broker.server = .closing ∨ broker.server = .returned (.ok ()) →
      DelayedUntil config text allowList evaluate evaluateWhole begins events broker.now) ∧
    (broker.server = .returned (.ok ()) → broker.endpoint.Quiet) := by
  have sound := Sound.of_run run
  have signalled := sound.signalled
  have served := sound.served
  refine ⟨sound.exited, ?_, ?_, ?_⟩
  · intro stopping
    unfold handled at signalled
    rw [sound.begun stopping] at signalled
    dsimp only at signalled
    omega
  · intro closes
    have draining : broker.endpoint.draining = true := by
      rcases closes with draining | closing | returned
      · exact draining
      · rw [closing] at served
        exact served
      · rw [returned] at served
        exact served.1
    have slept := sound.slept
    rw [sound.drained draining] at slept
    exact slept
  · intro returned
    rw [returned] at served
    exact served.2

end

/-- A broker with one participant and one slot, which goes on serving for half a minute. -/
def oneSlotBroker : BrokerConfig Unit Unit :=
  ⟨oneSlotState, some ([openParticipant "did:web:first"], ⟨60⟩), 1, 30⟩

def terminateEvents : List BrokerEvent :=
  [.signal .terminate, .handle .terminate, .stop, .crawl .stop, .time 30, .stop, .drain, .close, .serverReturns,
   .served, .joined, .exit]

/-- Told to terminate at 0, the process ends at 30. -/
theorem terminated_exit : ∃ broker, broker.main = .exited 0 ∧ broker.now = 30 ∧ ExitedFor terminateEvents broker 0 ∧
    DelayedUntil oneSlotBroker .urlencoding (fun _ _ => ∅) (fun _ => .result (.ok [116])) (fun _ _ _ => .ok []) 0
      terminateEvents broker.now := by
  have run : ∃ broker, broker.main = .exited 0 ∧ broker.now = 30 ∧ broker.endpoint.draining = true ∧
      BrokerRun oneSlotBroker .urlencoding (fun _ _ => ∅) (fun _ => .result (.ok [116])) (fun _ _ _ => .ok []) 0
        terminateEvents broker := by
    exact ⟨_, rfl, rfl, rfl, .cons trivial rfl (.cons trivial rfl (.cons trivial rfl (.cons trivial rfl
      (.cons trivial rfl (.cons trivial rfl (.cons trivial rfl (.cons trivial rfl (.cons trivial rfl
      (.cons trivial rfl (.cons trivial rfl (.cons trivial rfl (.nil _))))))))))))⟩
  obtain ⟨broker, exited, past, draining, run⟩ := run
  obtain ⟨explained, _, delayed, _⟩ := exits_explained _ _ _ _ _ _ _ broker run
  exact ⟨broker, exited, past, explained 0 exited, delayed (.inl draining)⟩

end Broker

end CatalogBroker
