import CatalogBroker.Broker.Exits

/-! A shutdown comes to its end.

Once the listener closes, every `/sparql` request can be answered without its evaluation. The
process still waits for the evaluations and the store writes that have begun, which have only
so many steps of their own left.
-/

set_option autoImplicit false

namespace CatalogBroker

open Library Transitions

def WriterPhase.stepsLeft : WriterPhase → Nat
  | .finished => 0
  | .closing | .committed => 1
  | .buffered _ | .unwinding => 2
  | .writing _ => 3
  | .opened _ => 4
  | .checking _ => 5
  | .called _ => 6

theorem WriterPhase.stepsLeft_le (writer : WriterPhase) : writer.stepsLeft ≤ 6 := by
  cases writer <;> simp [stepsLeft]

/-- A writer that holds the lock, or nobody to wait for, has a step to take, and needs no failure for it. -/
theorem WriterPhase.step_enabled (store : QuadStore) (free : Bool) (writer : WriterPhase)
    (unended : writer.ended = false) (allows : writer.locking = false → free = true ∨ writer = .committed) :
    ∃ event next, event ≠ .fail ∧ writer.step store free event = some next ∧ next.stepsLeft < writer.stepsLeft := by
  cases writer with
  | finished => cases unended
  | called work =>
    obtain rfl : free = true := (allows rfl).resolve_right WriterPhase.noConfusion
    cases work with
    | replace node quads => exact ⟨.start, _, by decide, rfl, by simp [stepsLeft]⟩
    | remove graph => exact ⟨.start, _, by decide, rfl, by simp [stepsLeft]⟩
  | checking graph =>
    by_cases present : (store.quads.filter fun quad => quad.graphName = .namedNode graph).head?.isSome = true
    · exact ⟨.check, .opened (.remove graph), by decide, if_pos present, by simp [stepsLeft]⟩
    · exact ⟨.check, .closing, by decide, if_neg present, by simp [stepsLeft]⟩
  | opened work => exact ⟨.begin, _, by decide, rfl, by simp [stepsLeft]⟩
  | writing work => exact ⟨.buffer, _, by decide, rfl, by simp [stepsLeft]⟩
  | buffered work => exact ⟨.commit, _, by decide, rfl, by simp [stepsLeft]⟩
  | unwinding => exact ⟨.drop, _, by decide, rfl, by decide⟩
  | closing => exact ⟨.close, _, by decide, rfl, by decide⟩
  | committed => exact ⟨.drop, _, by decide, rfl, by decide⟩

namespace SparqlEndpoint

section

variable {Material DecodingKey : Type} (state : SparqlState Material DecodingKey) (text : IriText)
  (allowList : String → Catalog → VisibleIris) (evaluate : String → Evaluation)
  (evaluateWhole : ReadOrder → QuadStore → String → SparqlQueryResult (List UInt8)) {endpoint : SparqlEndpoint}

/-- A store write goes on, or an evaluation that has begun does, as the evaluator honours its token; none panics or
fails. -/
def Finishes (endpoint : SparqlEndpoint) : EndpointEvent → Prop
  | .write (.writer _ event) => event ≠ .fail
  | .task index event => event ≠ .start ∧ event ≠ .panic ∧ endpoint.Honours (.task index event)
  | _ => False

/-- The steps that all evaluations and writes have left. -/
def allStepsLeft (endpoint : SparqlEndpoint) : Nat :=
  (endpoint.calls.map fun call => call.task.stepsLeft).sum + (endpoint.writers.map WriterPhase.stepsLeft).sum

variable {state text allowList evaluate evaluateWhole}

theorem allStepsLeft_le (endpoint : SparqlEndpoint) :
    endpoint.allStepsLeft ≤ 10 * endpoint.calls.length + 6 * endpoint.writers.length := by
  have tasks := List.sum_le_card_nsmul (endpoint.calls.map fun call => call.task.stepsLeft) 10 (by
    intro left member
    obtain ⟨call, _, rfl⟩ := List.mem_map.mp member
    exact call.task.stepsLeft_le)
  have writes := List.sum_le_card_nsmul (endpoint.writers.map WriterPhase.stepsLeft) 6 (by
    intro left member
    obtain ⟨writer, _, rfl⟩ := List.mem_map.mp member
    exact writer.stepsLeft_le)
  rw [List.length_map, smul_eq_mul] at tasks writes
  unfold allStepsLeft
  omega

theorem exists_writer (unended : ∃ writer ∈ endpoint.writers, writer.ended = false) :
    ∃ (index : Nat) (writer next : WriterPhase) (event : WriterEvent), endpoint.writers[index]? = some writer ∧
      event ≠ .fail ∧ writer.step endpoint.store (!(endpoint.system .idle).locked) event = some next ∧
      next.stepsLeft < writer.stepsLeft := by
  obtain ⟨writer, member, going, allows⟩ : ∃ writer ∈ endpoint.writers, writer.ended = false ∧
      (writer.locking = false → (!(endpoint.system .idle).locked) = true ∨ writer = .committed) := by
    cases held : (endpoint.system .idle).locked with
    | false =>
      obtain ⟨writer, member, going⟩ := unended
      exact ⟨writer, member, going, fun _ => .inl rfl⟩
    | true =>
      obtain ⟨writer, member, locking⟩ := List.any_eq_true.mp held
      refine ⟨writer, member, ?_, fun free => ?_⟩
      · cases writer with
        | finished => cases locking
        | _ => rfl
      · rw [free] at locking
        cases locking
  obtain ⟨index, bound, rfl⟩ := List.mem_iff_getElem.mp member
  obtain ⟨event, next, fails, steps, fell⟩ := WriterPhase.step_enabled endpoint.store _ _ going allows
  exact ⟨index, _, next, event, List.getElem?_eq_getElem bound, fails, steps, fell⟩

variable (state text allowList evaluate evaluateWhole) in
theorem writer_progress (unended : ∃ writer ∈ endpoint.writers, writer.ended = false) :
    ∃ event next, endpoint.Finishes event ∧
      endpoint.step state text allowList evaluate evaluateWhole event = some next ∧
      next.allStepsLeft < endpoint.allStepsLeft := by
  obtain ⟨index, writer, after, event, found, fails, steps, fell⟩ := exists_writer unended
  refine ⟨.write (.writer index event), { endpoint with
    store := writer.publish event endpoint.store
    writeSequence := if event = .begin ∨ event = .drop then fetchAdd endpoint.writeSequence else endpoint.writeSequence
    writers := endpoint.writers.set index after }, fails, ?_, ?_⟩
  · have read : (endpoint.system .idle).writers[index]? = some writer := found
    have moves : writer.step (endpoint.system .idle).store (!(endpoint.system .idle).locked) event = some after := steps
    simp only [SparqlEndpoint.step, writeStep, System.step, System.writerStep, read, moves, Option.bind_eq_bind,
      Option.bind_some, Option.pure_def, Option.map_some]
    rfl
  · have lighter := Listing.sum_map_set_lt found fell
    unfold allStepsLeft
    dsimp only
    omega

theorem taskStep_frame {index : Nat} {call : SparqlCall} {event : TaskEvent} {next : SparqlEndpoint}
    (stepped : endpoint.taskStep state text allowList evaluate evaluateWhole index call event = some next) :
    ∃ task, next.calls = endpoint.calls.set index { call with task } ∧ next.writers = endpoint.writers := by
  obtain ⟨_, ⟨_, _, task, rfl, _⟩ | ⟨_, _, after, _, _, _, _, _, rfl⟩ | ⟨outcome, rfl, _⟩⟩ := taskStep_cases stepped
  · exact ⟨task, rfl, rfl⟩
  · exact ⟨.filtered after, rfl, rfl⟩
  · exact ⟨.ended outcome, rfl, rfl⟩

variable (state text allowList evaluate evaluateWhole) in
theorem task_progress {call : SparqlCall} (member : call ∈ endpoint.calls) (begun : call.task.begun = true)
    (cancelled : call.cancelled = true) (tended : Tended call) :
    ∃ event next, endpoint.Finishes event ∧
      endpoint.step state text allowList evaluate evaluateWhole event = some next ∧
      next.allStepsLeft < endpoint.allStepsLeft := by
  obtain ⟨index, bound, same⟩ := List.mem_iff_getElem.mp member
  have found : endpoint.calls[index]? = some call := by rw [List.getElem?_eq_getElem bound, same]
  have held : call.task.holdsSlot = true := by
    cases phase : call.task with
    | filtered | unfiltered => rfl
    | _ =>
      rw [phase] at begun
      cases begun
  obtain ⟨event, calm, honours, steps⟩ := taskStep_enabled state text allowList evaluate evaluateWhole found cancelled
    held tended.called
  obtain ⟨next, moved⟩ := Option.isSome_iff_exists.mp steps
  obtain ⟨task, reads, fell, _⟩ := taskStep_cancelled found cancelled honours moved
  obtain ⟨own, calls, writers⟩ := taskStep_frame moved
  refine ⟨.task index event, next, ⟨?_, calm, honours⟩, ?_, ?_⟩
  · -- what has begun does not begin again
    rintro rfl
    unfold taskStep at moved
    cases phase : call.task with
    | filtered | unfiltered =>
      rw [phase] at moved
      cases moved
    | _ =>
      rw [phase] at begun
      cases begun
  · simpa only [SparqlEndpoint.step, found, Option.bind_eq_bind, Option.bind_some] using moved
  · rw [calls, List.getElem?_set_self bound, Option.some.injEq, SparqlCall.mk.injEq] at reads
    obtain ⟨_, _, _, _, _, rfl⟩ := reads
    have lighter := @Listing.sum_map_set_lt _ (fun call : SparqlCall => call.task.stepsLeft) _ _ _
      { call with task := own } found fell
    unfold allStepsLeft
    rw [calls, writers]
    omega

variable (state text allowList evaluate evaluateWhole) in
/-- With every token set, what has begun can always be worked off. -/
theorem exists_finished (tended : ∀ call ∈ endpoint.calls, Tended call) (quiet : endpoint.Quiet) :
    ∃ later last, later.length ≤ endpoint.allStepsLeft ∧
      Run (step state text allowList evaluate evaluateWhole) Finishes endpoint later last ∧ last.blocking = false := by
  obtain ⟨later, last, short, run, _, done⟩ := @Run.exists_of_progress _ _
    (step state text allowList evaluate evaluateWhole) Finishes endpoint
    (fun endpoint => (∀ call ∈ endpoint.calls, Tended call) ∧ endpoint.Quiet)
    (fun endpoint => endpoint.blocking = false)
    allStepsLeft (by
      rintro endpoint ⟨tended, quiet⟩ blocked
      obtain ⟨event, next, finishes, stepped, fell⟩ : ∃ event next, endpoint.Finishes event ∧
          endpoint.step state text allowList evaluate evaluateWhole event = some next ∧
          next.allStepsLeft < endpoint.allStepsLeft := by
        rcases Bool.or_eq_true_iff.mp (eq_true_of_ne_false blocked) with begun | unended
        · obtain ⟨call, member, begun⟩ := List.any_eq_true.mp begun
          exact task_progress state text allowList evaluate evaluateWhole member begun
            ((tended call member).left (quiet call member)) (tended call member)
        · obtain ⟨writer, member, unended⟩ := List.any_eq_true.mp unended
          exact writer_progress state text allowList evaluate evaluateWhole ⟨writer, member, by simpa using unended⟩
      refine ⟨event, next, finishes, stepped, ⟨tended_step tended stepped, (step_frame stepped).2 ?_ quiet⟩, fell⟩
      rintro now arrival headers query rfl
      exact finishes) ⟨tended, quiet⟩
  exact ⟨later, last, short, run, done⟩

end

end SparqlEndpoint

namespace Broker

section

variable {Material DecodingKey : Type} {config : BrokerConfig Material DecodingKey} {text : IriText}
  {allowList : String → Catalog → VisibleIris} {evaluate : String → Evaluation}
  {evaluateWhole : ReadOrder → QuadStore → String → SparqlQueryResult (List UInt8)} {broker : Broker}

/-- What a shutdown may rest on: time passes, everybody takes the way out, and what has begun finishes. No client, no
queued evaluation and no second signal has to do anything. -/
def Calm (broker : Broker) : BrokerEvent → Prop
  | .time _ | .stop | .drain | .close | .serverReturns | .served | .joined | .exit => True
  | .sparql (.handler _ .stopping) | .crawl .stop => True
  | .sparql event => broker.endpoint.Finishes event
  | _ => False

variable (config text allowList evaluate evaluateWhole) in
abbrev CalmRun (broker : Broker) (later : List BrokerEvent) (last : Broker) : Prop :=
  Run (step config text allowList evaluate evaluateWhole) Calm broker later last

variable (text allowList evaluate evaluateWhole) in
theorem exists_stopped (running : ∀ code, broker.main ≠ .exited code) (stopping : broker.shutdown = true) :
    ∃ later now, later.length ≤ 3 ∧
      CalmRun config text allowList evaluate evaluateWhole broker later { broker with now, stop := .done } := by
  obtain ⟨now, signals, handler, shutdown, stop, server, crawler, endpoint, main⟩ := broker
  dsimp only at running stopping
  subst stopping
  cases stop with
  | done => exact ⟨[], now, Nat.zero_le _, .nil _⟩
  | sleeping wakesAt =>
    refine ⟨[.time (max now wakesAt), .stop], max now wakesAt, by simp, ?_⟩
    refine .cons trivial (step_eq_some.mpr ⟨running, if_pos (le_max_left _ _)⟩) ?_
    exact .cons trivial (step_eq_some.mpr ⟨running, if_pos (le_max_right _ _)⟩) (.nil _)
  | waiting =>
    by_cases immediate : config.shutdownDelay = 0
    · refine ⟨[.stop], now, by simp, .cons trivial (step_eq_some.mpr ⟨running, ?_⟩) (.nil _)⟩
      simp [move, stopStep, immediate]
    · refine ⟨[.stop, .time (now + config.shutdownDelay), .stop], now + config.shutdownDelay, by simp, ?_⟩
      refine .cons trivial (step_eq_some.mpr ⟨running, by simp [move, stopStep, immediate]; rfl⟩) ?_
      refine .cons trivial (step_eq_some.mpr ⟨running, if_pos (Nat.le_add_right _ _)⟩) ?_
      exact .cons trivial (step_eq_some.mpr ⟨running, if_pos le_rfl⟩) (.nil _)

variable (config text allowList evaluate evaluateWhole) in
theorem exists_quiet_below (running : ∀ code, broker.main ≠ .exited code)
    (draining : broker.endpoint.draining = true) (count : Nat) : ∃ later endpoint, later.length ≤ count ∧
      CalmRun config text allowList evaluate evaluateWhole broker later { broker with endpoint } ∧
      endpoint.draining = true ∧ endpoint.calls.length = broker.endpoint.calls.length ∧
      endpoint.writers = broker.endpoint.writers ∧
      ∀ index < count, ∀ call, endpoint.calls[index]? = some call → call.handler ≠ .waiting := by
  induction count with
  | zero =>
    exact ⟨[], broker.endpoint, le_rfl, .nil _, draining, rfl, rfl,
      fun _ below => absurd below (Nat.not_lt_zero _)⟩
  | succ count ih =>
    obtain ⟨later, endpoint, short, run, drains, same, writers, quiet⟩ := ih
    -- only a request that still waits has to be told
    by_cases waits : ∃ call, endpoint.calls[count]? = some call ∧ call.handler = .waiting
    · obtain ⟨call, found, waiting⟩ := waits
      have told : step config text allowList evaluate evaluateWhole { broker with endpoint }
          (.sparql (.handler count .stopping)) =
            some { broker with endpoint := endpoint.leave count call (.answered shuttingDown) } := by
        refine step_eq_some.mpr ⟨running, ?_⟩
        simp [move, sparqlStep, SparqlEndpoint.step, SparqlEndpoint.handlerStep, found, waiting, drains]
      refine ⟨later ++ [.sparql (.handler count .stopping)], endpoint.leave count call (.answered shuttingDown),
        ?_, run.snoc (by trivial) told, drains, ?_, writers, ?_⟩
      · rw [List.length_append]
        exact Nat.succ_le_succ short
      · exact List.length_set.trans same
      · intro index below other reads
        unfold SparqlEndpoint.leave SparqlEndpoint.put at reads
        dsimp only at reads
        rw [List.getElem?_set] at reads
        split at reads
        · split at reads
          · cases reads
            exact HandlerPhase.noConfusion
          · cases reads
        · exact quiet index (by omega) other reads
    · refine ⟨later, endpoint, by omega, run, drains, same, writers, ?_⟩
      intro index below call reads waiting
      by_cases last : index = count
      · subst last
        exact waits ⟨call, reads, waiting⟩
      · exact quiet index (by omega) call reads waiting

variable (config text allowList evaluate evaluateWhole broker) in
theorem exists_quiet (running : ∀ code, broker.main ≠ .exited code) (draining : broker.endpoint.draining = true) :
    ∃ later endpoint, later.length ≤ broker.endpoint.calls.length ∧
      CalmRun config text allowList evaluate evaluateWhole broker later { broker with endpoint } ∧
      endpoint.draining = true ∧ endpoint.Quiet ∧ endpoint.calls.length = broker.endpoint.calls.length ∧
      endpoint.writers = broker.endpoint.writers := by
  obtain ⟨later, endpoint, short, run, drains, same, writers, quiet⟩ :=
    exists_quiet_below config text allowList evaluate evaluateWhole running draining broker.endpoint.calls.length
  refine ⟨later, endpoint, short, run, drains, ?_, same, writers⟩
  intro call member
  obtain ⟨index, below, reads⟩ := List.mem_iff_getElem.mp member
  exact quiet index (same ▸ below) call (List.getElem?_eq_some_iff.mpr ⟨below, reads⟩)

variable (config text allowList evaluate evaluateWhole broker) in
theorem exists_returned (running : ∀ code, broker.main ≠ .exited code) (draining : broker.endpoint.draining = true)
    (quiet : broker.endpoint.Quiet) (unfailed : ∀ error, broker.server ≠ .returned (.error error)) :
    ∃ later, later.length ≤ 2 ∧
      CalmRun config text allowList evaluate evaluateWhole broker later
        { broker with server := .returned (.ok ()) } := by
  obtain ⟨now, signals, handler, shutdown, stop, server, crawler, endpoint, main⟩ := broker
  dsimp only at running draining quiet unfailed
  have returns : step config text allowList evaluate evaluateWhole
      ⟨now, signals, handler, shutdown, stop, .closing, crawler, endpoint, main⟩ .serverReturns =
        some ⟨now, signals, handler, shutdown, stop, .returned (.ok ()), crawler, endpoint, main⟩ := by
    have unanswered : answering ⟨now, signals, handler, shutdown, stop, .closing, crawler, endpoint, main⟩ = false :=
      answering_eq_false.mpr quiet
    refine step_eq_some.mpr ⟨running, ?_⟩
    simp [move, returnStep, unanswered]
  -- it may have closed, or returned, on its own already
  cases server with
  | accepting =>
    refine ⟨[.close, .serverReturns], le_rfl, .cons trivial (step_eq_some.mpr ⟨running, ?_⟩)
      (.cons trivial returns (.nil _))⟩
    exact if_pos draining
  | closing => exact ⟨[.serverReturns], by simp, .cons trivial returns (.nil _)⟩
  | returned result =>
    cases result with
    | error error => exact absurd rfl (unfailed error)
    | ok done => exact ⟨[], Nat.zero_le _, .nil _⟩

variable (config text allowList evaluate evaluateWhole broker) in
theorem exists_crawlerOver (running : ∀ code, broker.main ≠ .exited code) (stopping : broker.shutdown = true) :
    ∃ later crawler, later.length ≤ 1 ∧
      CalmRun config text allowList evaluate evaluateWhole broker later { broker with crawler } ∧
      crawler.isSome = broker.crawler.isSome ∧ ∀ task, crawler = some task → task.over = true := by
  cases found : broker.crawler with
  | none =>
    refine ⟨[], broker.crawler, Nat.zero_le _, .nil _, by rw [found], ?_⟩
    intro task same
    rw [found] at same
    cases same
  | some task =>
    cases ended : task.over with
    | true =>
      refine ⟨[], broker.crawler, Nat.zero_le _, .nil _, by rw [found], ?_⟩
      intro other same
      rw [found] at same
      cases same
      exact ended
    | false =>
      -- the shutdown token stops it wherever it stands
      obtain ⟨scheduler, stopped, ends⟩ := @CrawlerTask.stop_isSome config.concurrency task ended
      refine ⟨[.crawl .stop], some { task with scheduler }, le_rfl,
        .cons trivial (step_eq_some.mpr ⟨running, ?_⟩) (.nil _), rfl, ?_⟩
      · simp [move, crawlStep, found, stopped, stopping]
      · intro other same
        cases same
        exact ends

/-- What `main` has to wait for is there, and it has not left after a failure. -/
def CanLeave (broker : Broker) : Prop :=
  match broker.main with
  | .serverOrCrawler | .crawler => broker.crawler.isSome = true
  | .server => True
  | .leaving code => code = 0
  | .exited _ => False

variable (config text allowList evaluate evaluateWhole broker) in
theorem exists_left (returned : broker.server = .returned (.ok ())) (ended : broker.crawlerOver)
    (leaves : broker.CanLeave) :
    ∃ later last, later.length ≤ 2 ∧ CalmRun config text allowList evaluate evaluateWhole broker later last ∧
      last.main = .leaving 0 ∧ last.endpoint = broker.endpoint := by
  unfold CanLeave at leaves
  cases waited : broker.main with
  | exited code =>
    rw [waited] at leaves
    exact leaves.elim
  | leaving code =>
    rw [waited] at leaves
    cases leaves
    exact ⟨[], broker, Nat.zero_le _, .nil _, waited, rfl⟩
  | server =>
    refine ⟨[.served], { broker with main := .leaving 0 }, by simp, ?_, rfl, rfl⟩
    refine .cons trivial (step_eq_some.mpr ⟨by simp [waited], ?_⟩) (.nil _)
    simp [move, servedStep, waited, returned]
  | crawler =>
    rw [waited] at leaves
    obtain ⟨task, found⟩ := Option.isSome_iff_exists.mp leaves
    refine ⟨[.joined], { broker with main := .leaving 0 }, by simp, ?_, rfl, rfl⟩
    refine .cons trivial (step_eq_some.mpr ⟨by simp [waited], ?_⟩) (.nil _)
    simp [move, joinedStep, found, ended task found, waited]
  -- the server is seen first, and the crawler joined after it
  | serverOrCrawler =>
    rw [waited] at leaves
    obtain ⟨task, found⟩ := Option.isSome_iff_exists.mp leaves
    have served : step config text allowList evaluate evaluateWhole broker .served =
        some { broker with shutdown := true, main := .crawler } := by
      refine step_eq_some.mpr ⟨by simp [waited], ?_⟩
      simp [move, servedStep, waited, returned]
    refine ⟨[.served, .joined], { broker with shutdown := true, main := .leaving 0 }, le_rfl, ?_, rfl, rfl⟩
    refine .cons trivial served (.cons trivial (step_eq_some.mpr ⟨fun _ => MainPhase.noConfusion, ?_⟩) (.nil _))
    simp [move, joinedStep, found, ended task found]

variable (config) in
theorem run_of_finishes {endpoint last : SparqlEndpoint} {later : List EndpointEvent}
    (run : Run (SparqlEndpoint.step config.sparql text allowList evaluate evaluateWhole) SparqlEndpoint.Finishes
      endpoint later last) (running : ∀ code, broker.main ≠ .exited code) (here : broker.endpoint = endpoint) :
    CalmRun config text allowList evaluate evaluateWhole broker (later.map .sparql)
      { broker with endpoint := last } := by
  induction run generalizing broker with
  | nil endpoint =>
    subst here
    exact .nil broker
  | @cons endpoint next last event later finishes stepped _ ih =>
    subst here
    have moved : step config text allowList evaluate evaluateWhole broker (.sparql event) =
        some { broker with endpoint := next } := by
      refine step_eq_some.mpr ⟨running, ?_⟩
      cases event with
      | request => exact finishes.elim
      | drain => exact finishes.elim
      | handler => exact finishes.elim
      | _ => simp [move, sparqlStep, stepped]
    have calm : broker.Calm (.sparql event) := by
      cases event with
      | handler => exact finishes.elim
      | _ => exact finishes
    exact .cons calm moved (@ih { broker with endpoint := next } running rfl)

variable (config text allowList evaluate evaluateWhole broker) in
theorem exists_exited (left : broker.main = .leaving 0)
    (tended : ∀ call ∈ broker.endpoint.calls, SparqlEndpoint.Tended call) (quiet : broker.endpoint.Quiet) :
    ∃ later last, later.length ≤ broker.endpoint.allStepsLeft + 1 ∧
      CalmRun config text allowList evaluate evaluateWhole broker later last ∧ last.main = .exited 0 := by
  obtain ⟨later, endpoint, short, run, idle⟩ := SparqlEndpoint.exists_finished config.sparql text allowList evaluate
    evaluateWhole tended quiet
  have onward := run_of_finishes config run (by simp [left]) rfl
  refine ⟨later.map .sparql ++ [.exit], { broker with endpoint, main := .exited 0 }, ?_,
    onward.snoc (by trivial) ?_, rfl⟩
  · rw [List.length_append, List.length_map]
    exact Nat.succ_le_succ short
  · refine step_eq_some.mpr ⟨by simp [left], ?_⟩
    simp [move, exitStep, left, idle]

theorem tended_of_run {begins : Instant} {events : List BrokerEvent}
    (run : BrokerRun config text allowList evaluate evaluateWhole begins events broker) :
    ∀ call ∈ broker.endpoint.calls, SparqlEndpoint.Tended call := by
  refine @run.invariant _ _ _ _ _ _ _ (fun broker => ∀ call ∈ broker.endpoint.calls, SparqlEndpoint.Tended call) ?_ ?_
  · intro before event after tended _ stepped
    rcases endpoint_step stepped with same | ⟨own, moved⟩
    · rw [same]
      exact tended
    · exact SparqlEndpoint.tended_step tended moved
  · exact fun _ member => absurd member List.not_mem_nil

/-- Once the shutdown has begun, and unless the server fails, the process can always come to the exit code 0, although
it waits for every evaluation and store write that has begun: in a number of steps bounded by the requests and the
writes it has had, with no client, queued evaluation or further signal doing anything. -/
theorem shutdown_completes (config : BrokerConfig Material DecodingKey) (text : IriText)
    (allowList : String → Catalog → VisibleIris) (evaluate : String → Evaluation)
    (evaluateWhole : ReadOrder → QuadStore → String → SparqlQueryResult (List UInt8)) (begins : Instant)
    (events : List BrokerEvent) (broker : Broker)
    (run : BrokerRun config text allowList evaluate evaluateWhole begins events broker)
    (running : ∀ code, broker.main ≠ .exited code) (stopping : broker.shutdown = true)
    (unfailed : ∀ error, broker.server ≠ .returned (.error error)) :
    ∃ later last, later.length ≤ 11 * broker.endpoint.calls.length + 6 * broker.endpoint.writers.length + 10 ∧
      CalmRun config text allowList evaluate evaluateWhole broker later last ∧ last.main = .exited 0 := by
  have waits := (Sound.of_run run).waits
  have leaves : broker.CanLeave := by
    unfold CanLeave
    cases waited : broker.main with
    | serverOrCrawler =>
      rw [waited] at waits
      exact waits
    | server => trivial
    | crawler =>
      rw [waited] at waits
      exact waits.2
    | leaving code =>
      rw [waited] at waits
      rcases LeftFor.cases waits with ⟨rfl, _⟩ | ⟨_, error, failed⟩
      · rfl
      · exact absurd failed (unfailed error)
    | exited code => exact absurd waited (running code)
  -- the delay passes, the requests are told, the listener closes, the crawler stops, `main` sees it all and leaves,
  -- and what has begun ends
  obtain ⟨sleep, now, sleeps, stopped⟩ := exists_stopped text allowList evaluate evaluateWhole running stopping
  let drained : Broker :=
    { broker with now, stop := .done, endpoint := { broker.endpoint with draining := true } }
  have drain : step config text allowList evaluate evaluateWhole { broker with now, stop := .done } .drain =
      some drained := step_eq_some.mpr ⟨running, rfl⟩
  obtain ⟨tell, endpoint, tells, told, draining, quiet, calls, writers⟩ :=
    exists_quiet config text allowList evaluate evaluateWhole drained running rfl
  obtain ⟨close, closes, closed⟩ := exists_returned config text allowList evaluate evaluateWhole
    { drained with endpoint } running draining quiet unfailed
  obtain ⟨cut, crawler, cuts, crawled, same, ended⟩ := exists_crawlerOver config text allowList evaluate evaluateWhole
    { drained with endpoint, server := .returned (.ok ()) } running stopping
  obtain ⟨leave, gone, leave_le, left, leaving, kept⟩ := exists_left config text allowList evaluate evaluateWhole
    { drained with endpoint, server := .returned (.ok ()), crawler } rfl ended (by
      unfold CanLeave at leaves ⊢
      cases waited : broker.main with
      | serverOrCrawler | crawler =>
        rw [waited] at leaves
        exact same.trans leaves
      | _ =>
        rw [waited] at leaves
        exact leaves)
  have calmly := ((((stopped.snoc (by trivial) drain).append told).append closed).append crawled).append left
  have reached := run.append (calmly.mono fun _ _ _ => trivial)
  obtain ⟨finish, last, finishes, finished, exited⟩ := exists_exited config text allowList evaluate evaluateWhole gone
    leaving (tended_of_run reached) (kept ▸ quiet)
  refine ⟨_, last, ?_, calmly.append finished, exited⟩
  have bound := gone.endpoint.allStepsLeft_le
  rw [kept] at bound finishes
  dsimp only at bound finishes
  have tells : tell.length ≤ broker.endpoint.calls.length := tells
  have calls : endpoint.calls.length = broker.endpoint.calls.length := calls
  have writers : endpoint.writers = broker.endpoint.writers := writers
  simp only [calls, writers] at bound
  simp only [List.length_append, List.length_singleton]
  omega

end

def interruptedEvents : List BrokerEvent :=
  [.sparql (.request 0 0 ⟨none, none⟩ (some "ASK {}")), .sparql (.task 0 .start), .crawl (.tick unevenCrawls),
   .signal .interrupt, .handle .interrupt]

/-- Interrupted in the middle of an evaluation, which is waited for, and of a crawl. -/
theorem interrupted_completes : ∃ broker, broker.endpoint.slots = 0 ∧ ∃ later last, later.length ≤ 21 ∧
    CalmRun oneSlotBroker .urlencoding (fun _ _ => ∅) (fun _ => .result (.ok [116])) (fun _ _ _ => .ok []) broker later
      last ∧ last.main = .exited 0 := by
  have run : ∃ broker, broker.endpoint.slots = 0 ∧ broker.endpoint.calls.length = 1 ∧
      broker.endpoint.writers.length = 0 ∧
      broker.main = .serverOrCrawler ∧ broker.server = .accepting ∧ broker.shutdown = true ∧
      BrokerRun oneSlotBroker .urlencoding (fun _ _ => ∅) (fun _ => .result (.ok [116])) (fun _ _ _ => .ok []) 0
        interruptedEvents broker := by
    exact ⟨_, rfl, rfl, rfl, rfl, rfl, rfl, .cons trivial rfl (.cons trivial rfl (.cons trivial rfl (.cons trivial rfl
      (.cons trivial rfl (.nil _)))))⟩
  obtain ⟨broker, taken, one, none, waits, accepting, stopping, run⟩ := run
  obtain ⟨later, last, short, calm, exited⟩ := shutdown_completes _ _ _ _ _ _ _ broker run (by simp [waits]) stopping
    (by simp [accepting])
  rw [one, none] at short
  exact ⟨broker, taken, later, last, short, calm, exited⟩

end Broker

end CatalogBroker
