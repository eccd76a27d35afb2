import CatalogBroker.Broker.Exits

/-! `GET /ready` while the broker runs.

A load balancer that asks it may take the answers for progress: from starting to ready to
stopping, and never back.
-/

set_option autoImplicit false

namespace CatalogBroker

open Library Transitions

structure ParticipantReport where
  id : String
  lastAttempt : Option SystemTime
  lastSuccess : Option SystemTime
  lastError : Option String
  cached : Bool
  catalogAgeSecs : Option Nat

structure CrawlerReport where
  cyclesCompleted : Nat
  participants : Option (List ParticipantReport)

structure ReadyResponse where
  code : Nat
  status : String
  crawler : Option CrawlerReport

/-- System times count milliseconds here; a clock that went back makes no age. -/
def report (status : CrawlStatus) (now : SystemTime) (showDetails : Bool) : CrawlerReport where
  cyclesCompleted := status.cyclesCompleted
  participants := if showDetails then
      some (status.participants.toList.map fun (id, participant) =>
        ⟨id, participant.lastAttempt, participant.lastSuccess, participant.lastError, participant.cached,
          (participant.lastSuccess.filter fun _ => participant.cached).map fun success => (now - success) / 1000⟩)
    else none

namespace Broker

section

variable {Material DecodingKey : Type} (config : BrokerConfig Material DecodingKey)

/-- A participant that calls back during its crawl cannot wait for this broker to be ready. -/
def needsHolderCallbacks : Bool :=
  config.crawled.any fun crawled => crawled.1.any fun participant => participant.credentialProtocol ≠ .none

def crawlStatus (broker : Broker) : Option CrawlStatus :=
  broker.crawler.map fun task => task.scheduler.harvester.status

def showDetails (seconds : Nat) (headers : RequestHeaders) : Bool :=
  config.sparql.oauth2.isNone || match checkOauth2Bearer config.sparql.jwt config.sparql.oauth2 seconds headers with
    | .ok (some _) => true
    | _ => false

/-- `GET /ready`. -/
def ready (broker : Broker) (seconds : Nat) (now : SystemTime) (headers : RequestHeaders) : ReadyResponse :=
  let crawler := broker.crawlStatus.map fun status => report status now (showDetails config seconds headers)
  if broker.shutdown then ⟨503, "stopping", crawler⟩
  else if broker.crawlStatus.any fun status => status.cyclesCompleted = 0 && !needsHolderCallbacks config then
    ⟨503, "starting", crawler⟩
  else ⟨200, "ready", crawler⟩

end

end Broker

section

variable {concurrency : Nat} {scheduler next : Scheduler} {event : SchedulerEvent}

theorem Scheduler.step_cyclesCompleted (stepped : scheduler.step concurrency event = some next) :
    next.harvester.status.cyclesCompleted = scheduler.harvester.status.cyclesCompleted ∨
      ∃ cycleEnd, event = .record cycleEnd ∧
        next.harvester.status.cyclesCompleted = scheduler.harvester.status.cyclesCompleted + 1 := by
  cases Scheduler.step_stepped stepped with
  | record cycleEnd phase =>
    refine .inr ⟨cycleEnd, rfl, ?_⟩
    dsimp only
    rw [recordStatus_cyclesCompleted]
  | _ => exact .inl rfl

end

namespace Broker

section

variable {Material DecodingKey : Type} {config : BrokerConfig Material DecodingKey} {text : IriText}
  {allowList : String → Catalog → VisibleIris} {evaluate : String → Evaluation}
  {evaluateWhole : ReadOrder → QuadStore → String → SparqlQueryResult (List UInt8)} {broker next : Broker}

/-- The crawler stays as it is, or its scheduler takes a step, which a panic is not more than. -/
def CrawlerMoves (config : BrokerConfig Material DecodingKey) (broker next : Broker) (event : BrokerEvent) : Prop :=
  next.crawler = broker.crawler ∨ ∃ task after inner, broker.crawler = some task ∧ next.crawler = some after ∧
    task.scheduler.step config.concurrency inner = some after.scheduler ∧ (event = .crawl inner ∨ inner = .stop)

theorem step_frame {event : BrokerEvent}
    (stepped : step config text allowList evaluate evaluateWhole broker event = some next) :
    (broker.shutdown = true → next.shutdown = true) ∧ CrawlerMoves config broker next event := by
  have moved := (step_eq_some.mp stepped).2
  cases event with
  | time later =>
    obtain ⟨_, rfl⟩ := time_cases moved
    exact ⟨id, .inl rfl⟩
  | signal kind =>
    cases moved
    exact ⟨id, .inl rfl⟩
  | handle kind =>
    obtain ⟨signals, _, ⟨_, rfl⟩ | ⟨_, rfl⟩⟩ := handleStep_cases moved
    · exact ⟨fun _ => rfl, .inl rfl⟩
    · exact ⟨id, .inl rfl⟩
  | stop =>
    obtain ⟨stop, rfl, _⟩ := stopStep_cases moved
    exact ⟨id, .inl rfl⟩
  | drain =>
    obtain ⟨_, rfl⟩ := drainStep_cases moved
    exact ⟨id, .inl rfl⟩
  | close =>
    obtain ⟨_, _, rfl⟩ := closeStep_cases moved
    exact ⟨id, .inl rfl⟩
  | serverReturns =>
    obtain ⟨rfl, _⟩ := returnStep_cases moved
    exact ⟨id, .inl rfl⟩
  | serverFails error =>
    obtain ⟨rfl, _⟩ := returnStep_cases moved
    exact ⟨id, .inl rfl⟩
  | sparql event =>
    obtain ⟨_, _, endpoint, _, rfl⟩ := sparqlStep_cases moved
    exact ⟨id, .inl rfl⟩
  | crawl event =>
    obtain ⟨task, scheduler, found, inner, rfl, _⟩ := crawlStep_cases moved
    exact ⟨id, .inr ⟨task, { task with scheduler }, event, found, rfl, inner, .inl rfl⟩⟩
  | crawlerPanics =>
    obtain ⟨task, scheduler, found, inner, rfl⟩ := panicStep_cases moved
    exact ⟨id, .inr ⟨task, ⟨scheduler, true⟩, .stop, found, rfl, inner, .inr rfl⟩⟩
  -- the server returning sets the token as well
  | served =>
    rcases servedStep_cases moved with ⟨_, _, rfl⟩ | ⟨_, ⟨_, rfl⟩ | ⟨_, rfl⟩⟩
    · exact ⟨id, .inl rfl⟩
    · exact ⟨fun _ => rfl, .inl rfl⟩
    · exact ⟨id, .inl rfl⟩
  | joined =>
    obtain ⟨task, _, _, ⟨_, ⟨_, rfl⟩ | rfl⟩ | ⟨_, rfl⟩⟩ := joinedStep_cases moved
    · exact ⟨id, .inl rfl⟩
    · exact ⟨id, .inl rfl⟩
    · exact ⟨id, .inl rfl⟩
  | exit =>
    obtain ⟨_, _, _, rfl⟩ := exitStep_cases moved
    exact ⟨id, .inl rfl⟩

/-- The crawler is there if the config lists participants, and the cycles it has completed are recorded. -/
def CyclesRecorded (config : BrokerConfig Material DecodingKey) (events : List BrokerEvent) (broker : Broker) : Prop :=
  broker.crawler.isSome = config.crawled.isSome ∧
  ∀ task, broker.crawler = some task → task.scheduler.harvester.status.cyclesCompleted ≠ 0 →
    ∃ cycleEnd, .crawl (.record cycleEnd) ∈ events

theorem CyclesRecorded.initial (config : BrokerConfig Material DecodingKey) (begins : Instant) :
    CyclesRecorded config [] (start config begins) := by
  refine ⟨Option.isSome_map, ?_⟩
  intro task found completed
  obtain ⟨crawled, _, rfl⟩ := Option.map_eq_some_iff.mp found
  exact absurd rfl completed

theorem CyclesRecorded.step {events : List BrokerEvent} {event : BrokerEvent}
    (recorded : CyclesRecorded config events broker)
    (stepped : Broker.step config text allowList evaluate evaluateWhole broker event = some next) :
    CyclesRecorded config (events ++ [event]) next := by
  obtain ⟨present, cycles⟩ := recorded
  rcases (step_frame stepped).2 with same | ⟨task, after, inner, found, reached, moved, kind⟩
  · rw [CyclesRecorded, same]
    refine ⟨present, fun task found completed => ?_⟩
    obtain ⟨cycleEnd, member⟩ := cycles task found completed
    exact ⟨cycleEnd, List.mem_append_left _ member⟩
  · rw [CyclesRecorded, reached]
    rw [found] at present
    refine ⟨present, ?_⟩
    intro other same completed
    cases same
    rcases Scheduler.step_cyclesCompleted moved with unchanged | ⟨cycleEnd, rfl, _⟩
    · rw [unchanged] at completed
      obtain ⟨cycleEnd, member⟩ := cycles task found completed
      exact ⟨cycleEnd, List.mem_append_left _ member⟩
    · -- a panic records nothing
      rcases kind with rfl | impossible
      · exact ⟨cycleEnd, List.mem_append_right _ (List.mem_singleton.mpr rfl)⟩
      · cases impossible

theorem CyclesRecorded.of_run {begins : Instant} {events : List BrokerEvent}
    (run : BrokerRun config text allowList evaluate evaluateWhole begins events broker) :
    CyclesRecorded config events broker :=
  run.history (CyclesRecorded.initial config begins) fun _ _ _ _ _ recorded _ stepped => recorded.step stepped

def awaitsFirstCycle (config : BrokerConfig Material DecodingKey) (broker : Broker) : Bool :=
  broker.crawlStatus.any fun status => status.cyclesCompleted = 0 && !needsHolderCallbacks config

theorem CyclesRecorded.passed {events : List BrokerEvent} (recorded : CyclesRecorded config events broker)
    (passed : awaitsFirstCycle config broker = false) :
    config.crawled = none ∨ needsHolderCallbacks config = true ∨ ∃ cycleEnd, .crawl (.record cycleEnd) ∈ events := by
  obtain ⟨present, cycles⟩ := recorded
  unfold awaitsFirstCycle crawlStatus at passed
  cases found : broker.crawler with
  | none =>
    rw [found] at present
    exact .inl (by simpa using present.symm)
  | some task =>
    rw [found] at passed
    simp only [Option.map_some, Option.any_some, Bool.and_eq_false_iff, decide_eq_false_iff_not,
      Bool.not_eq_false'] at passed
    rcases passed with completed | callbacks
    · exact .inr (.inr (cycles task found completed))
    · exact .inr (.inl callbacks)

theorem awaitsFirstCycle_of_step {event : BrokerEvent}
    (stepped : step config text allowList evaluate evaluateWhole broker event = some next)
    (goesOn : awaitsFirstCycle config broker = false) : awaitsFirstCycle config next = false := by
  unfold awaitsFirstCycle crawlStatus at goesOn ⊢
  rcases (step_frame stepped).2 with same | ⟨task, after, inner, found, reached, moved, _⟩
  · rw [same]
    exact goesOn
  · rw [found] at goesOn
    rw [reached]
    simp only [Option.map_some, Option.any_some, Bool.and_eq_false_iff, decide_eq_false_iff_not] at goesOn ⊢
    rcases goesOn with completed | callbacks
    · left
      rcases Scheduler.step_cyclesCompleted moved with unchanged | ⟨_, _, more⟩
      · rw [unchanged]
        exact completed
      · omega
    · exact .inr callbacks

theorem stays_of_run {last : Broker} {later : List BrokerEvent}
    (onward : Run (step config text allowList evaluate evaluateWhole) (fun _ _ => True) broker later last) :
    (broker.shutdown = true → last.shutdown = true) ∧
    (awaitsFirstCycle config broker = false → awaitsFirstCycle config last = false) := by
  induction onward with
  | nil state => exact ⟨id, id⟩
  | cons _ stepped _ ih =>
    obtain ⟨stopping, goesOn⟩ := ih
    exact ⟨fun begun => stopping ((step_frame stepped).1 begun),
      fun passed => goesOn (awaitsFirstCycle_of_step stepped passed)⟩

theorem ready_cases (config : BrokerConfig Material DecodingKey) (broker : Broker) (seconds : Nat) (now : SystemTime)
    (headers : RequestHeaders) :
    let response := ready config broker seconds now headers
    (broker.shutdown = true ∧ response.code = 503 ∧ response.status = "stopping") ∨
    (broker.shutdown = false ∧ awaitsFirstCycle config broker = true ∧ response.code = 503 ∧
      response.status = "starting") ∨
    broker.shutdown = false ∧ awaitsFirstCycle config broker = false ∧ response.code = 200 ∧
      response.status = "ready" := by
  unfold ready
  dsimp only
  cases broker.shutdown with
  | true => exact .inl ⟨rfl, rfl, rfl⟩
  | false =>
    rw [if_neg Bool.false_ne_true]
    split
    · rename_i awaits
      exact .inr (.inl ⟨rfl, awaits, rfl, rfl⟩)
    · rename_i goesOn
      exact .inr (.inr ⟨rfl, eq_false_of_ne_true goesOn, rfl, rfl⟩)

theorem ready_crawler (config : BrokerConfig Material DecodingKey) (broker : Broker) (seconds : Nat) (now : SystemTime)
    (headers : RequestHeaders) : (ready config broker seconds now headers).crawler =
      broker.crawlStatus.map fun status => report status now (showDetails config seconds headers) := by
  unfold ready
  dsimp only
  split
  · rfl
  · split <;> rfl

/-- `/ready` answers 200 only while nobody shuts down, and only once a cycle was recorded, if there is one to wait for;
its answers go from starting to ready to stopping and never back; and it names participants only to callers that the
gate lets in. -/
theorem readiness_moves_forward (config : BrokerConfig Material DecodingKey) (text : IriText)
    (allowList : String → Catalog → VisibleIris) (evaluate : String → Evaluation)
    (evaluateWhole : ReadOrder → QuadStore → String → SparqlQueryResult (List UInt8)) (begins : Instant)
    (events : List BrokerEvent) (broker : Broker)
    (run : BrokerRun config text allowList evaluate evaluateWhole begins events broker) (later : List BrokerEvent)
    (last : Broker)
    (onward : Run (step config text allowList evaluate evaluateWhole) (fun _ _ => True) broker later last)
    (seconds next : Nat) (now after : SystemTime) (headers others : RequestHeaders) :
    let first := ready config broker seconds now headers
    let second := ready config last next after others
    (first.code = 200 → broker.shutdown = false ∧ (config.crawled = none ∨ needsHolderCallbacks config = true ∨
      ∃ cycleEnd, .crawl (.record cycleEnd) ∈ events)) ∧
    (first.status = "ready" → second.status ≠ "starting") ∧
    (first.status = "stopping" → second.status = "stopping") ∧
    ∀ report details, first.crawler = some report → report.participants = some details →
      config.sparql.oauth2 = none ∨
        ∃ claims, checkOauth2Bearer config.sparql.jwt config.sparql.oauth2 seconds headers = .ok (some claims) := by
  have recorded := CyclesRecorded.of_run run
  -- the token stays set and a recorded cycle stays recorded; the rest reads the branches of `ready`
  obtain ⟨stopping, goesOn⟩ := stays_of_run onward
  have answered := ready_cases config broker seconds now headers
  have answers := ready_cases config last next after others
  dsimp only at answered answers ⊢
  refine ⟨?_, ?_, ?_, ?_⟩
  · intro success
    rcases answered with ⟨_, refused, _⟩ | ⟨_, _, refused, _⟩ | ⟨undisturbed, passed, _, _⟩
    · exact absurd (success.symm.trans refused) (by decide)
    · exact absurd (success.symm.trans refused) (by decide)
    · exact ⟨undisturbed, recorded.passed passed⟩
  · intro stated starts
    rcases answered with ⟨_, _, other⟩ | ⟨_, _, _, other⟩ | ⟨_, passed, _, _⟩
    · exact absurd (stated.symm.trans other) (by decide)
    · exact absurd (stated.symm.trans other) (by decide)
    · rcases answers with ⟨_, _, other⟩ | ⟨_, awaits, _, _⟩ | ⟨_, _, _, other⟩
      · exact absurd (starts.symm.trans other) (by decide)
      · rw [goesOn passed] at awaits
        cases awaits
      · exact absurd (starts.symm.trans other) (by decide)
  · intro stated
    rcases answered with ⟨begun, _, _⟩ | ⟨_, _, _, other⟩ | ⟨_, _, _, other⟩
    · rcases answers with ⟨_, _, same⟩ | ⟨undisturbed, _⟩ | ⟨undisturbed, _⟩
      · exact same
      · cases (stopping begun).symm.trans undisturbed
      · cases (stopping begun).symm.trans undisturbed
    · exact absurd (stated.symm.trans other) (by decide)
    · exact absurd (stated.symm.trans other) (by decide)
  · intro reported details given named
    rw [ready_crawler] at given
    obtain ⟨status, _, rfl⟩ := Option.map_eq_some_iff.mp given
    have shown : showDetails config seconds headers = true := by
      cases hides : showDetails config seconds headers with
      | true => rfl
      | false =>
        rw [hides] at named
        cases named
    unfold showDetails at shown
    rcases Bool.or_eq_true_iff.mp shown with ungated | admitted
    · exact .inl (Option.isNone_iff_eq_none.mp ungated)
    · split at admitted
      · rename_i claims passes
        exact .inr ⟨claims, passes⟩
      · cases admitted

end

def firstCycleEvents : List BrokerEvent :=
  [.crawl (.tick unevenCrawls), .crawl (.crawl .start), .crawl (.crawl (.work 0 ())), .crawl (.crawl (.work 0 ())),
   .crawl (.settle 5 .asListed fun _ => .ok true), .crawl (.record 5)]

/-- Ready after a first cycle, although its only crawl failed, and then told to terminate. -/
theorem first_cycle_ready : ∃ broker last, broker.shutdown = false ∧
    (needsHolderCallbacks oneSlotBroker = true ∨ ∃ cycleEnd, .crawl (.record cycleEnd) ∈ firstCycleEvents) ∧
    (ready oneSlotBroker broker 0 5 ⟨none, none⟩).status = "ready" ∧
    (ready oneSlotBroker last 1 1005 ⟨none, none⟩).status ≠ "starting" := by
  have run : ∃ broker, (ready oneSlotBroker broker 0 5 ⟨none, none⟩).code = 200 ∧
      (ready oneSlotBroker broker 0 5 ⟨none, none⟩).status = "ready" ∧ broker.main = .serverOrCrawler ∧
      broker.handler = .first ∧
      BrokerRun oneSlotBroker .urlencoding (fun _ _ => ∅) (fun _ => .result (.ok [116])) (fun _ _ _ => .ok []) 0
        firstCycleEvents broker :=
    ⟨_, rfl, rfl, rfl, rfl, .cons trivial rfl (.cons trivial rfl (.cons trivial rfl (.cons trivial rfl
      (.cons trivial rfl (.cons trivial rfl (.nil _))))))⟩
  obtain ⟨broker, success, stated, waits, unsignalled, run⟩ := run
  have onward : Run (step oneSlotBroker .urlencoding (fun _ _ => ∅) (fun _ => .result (.ok [116])) fun _ _ _ => .ok [])
      (fun _ _ => True) broker [.signal .terminate, .handle .terminate]
      { broker with
        signals := (broker.signals.set .terminate true).set .terminate false
        handler := .second
        shutdown := true } := by
    refine .cons trivial (step_eq_some.mpr ⟨by simp [waits], rfl⟩) (.cons trivial (step_eq_some.mpr ?_) (.nil _))
    refine ⟨by simp [waits], ?_⟩
    simp [move, handleStep, Signals.next, Signals.set, Signals.pending, unsignalled]
  obtain ⟨undisturbed, later, _, _⟩ := readiness_moves_forward _ _ _ _ _ _ _ broker run _ _ onward 0 1 5 1005
    ⟨none, none⟩ ⟨none, none⟩
  obtain ⟨running, listed | callbacks | recorded⟩ := undisturbed success
  · cases listed
  · exact ⟨broker, _, running, .inl callbacks, stated, later stated⟩
  · exact ⟨broker, _, running, .inr recorded, stated, later stated⟩

end Broker

end CatalogBroker
