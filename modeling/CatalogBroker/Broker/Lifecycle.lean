import CatalogBroker.Broker.AbandonedEvaluations
import CatalogBroker.Crawler.Scheduler

/-! The broker as one process, from the moment it listens: signals, the server, the crawler, and `main` waiting for
them.

The tasks share the shutdown token and move on their own. Of the requests only those to
`/sparql` are followed.
-/

set_option autoImplicit false

namespace CatalogBroker

open Library Transitions

inductive SignalKind where
  | interrupt
  | terminate
  deriving DecidableEq, Repr

/-- The listeners: a signal stays pending until it is read, and the same one again adds nothing. -/
structure Signals where
  interrupt : Bool := false
  terminate : Bool := false

namespace Signals

def pending (signals : Signals) : SignalKind → Bool
  | .interrupt => signals.interrupt
  | .terminate => signals.terminate

def set (signals : Signals) (kind : SignalKind) (value : Bool) : Signals :=
  match kind with
  | .interrupt => { signals with interrupt := value }
  | .terminate => { signals with terminate := value }

def next (signals : Signals) (kind : SignalKind) : Option Signals :=
  if signals.pending kind then some (signals.set kind false) else none

def count (signals : Signals) : Nat := signals.interrupt.toNat + signals.terminate.toNat

end Signals

/-- Which signal `handle_signals` waits for. -/
inductive SignalHandler where
  | first
  | second

inductive StopPhase where
  | waiting
  | sleeping (wakesAt : Instant)
  | done

/-- The server takes connections, or only finishes those it has, or has returned. -/
inductive ServerPhase where
  | accepting
  | closing
  | returned (result : Except String Unit)

/-- The scheduler's task, which a panic ends like a stop. -/
structure CrawlerTask where
  scheduler : Scheduler
  panicked : Bool

def CrawlerTask.over (task : CrawlerTask) : Bool :=
  match task.scheduler.phase with
  | .stopped _ _ => true
  | _ => false

/-- What `main` waits for. Once it has returned, or panicked, its runtime is dropped, which waits for the blocking tasks
that have begun; only then is the process gone with its code. -/
inductive MainPhase where
  | serverOrCrawler
  | server
  | crawler
  | leaving (code : Nat)
  | exited (code : Nat)

/-- Whether an evaluation has begun, which the blocking pool does not let go. -/
def TaskPhase.begun : TaskPhase → Bool
  | .filtered _ | .unfiltered _ => true
  | _ => false

def WriterPhase.ended : WriterPhase → Bool
  | .finished => true
  | _ => false

/-- Whether the blocking pool has work: a queued evaluation is dropped with it, one that has begun is not. -/
def SparqlEndpoint.blocking (endpoint : SparqlEndpoint) : Bool :=
  (endpoint.calls.any fun call => call.task.begun) || endpoint.writers.any fun writer => !writer.ended

structure Broker where
  now : Instant
  signals : Signals
  handler : SignalHandler
  /-- The shutdown token. -/
  shutdown : Bool
  stop : StopPhase
  server : ServerPhase
  crawler : Option CrawlerTask
  endpoint : SparqlEndpoint
  main : MainPhase

inductive BrokerEvent where
  | time (later : Instant)
  | signal (kind : SignalKind)
  | handle (kind : SignalKind)
  | stop
  | drain
  | close
  | serverReturns
  | serverFails (error : String)
  | sparql (event : EndpointEvent)
  | crawl (event : SchedulerEvent)
  | crawlerPanics
  | served
  | joined
  | exit

structure BrokerConfig (Material DecodingKey : Type) where
  sparql : SparqlState Material DecodingKey
  /-- The participants the config lists, if any. -/
  crawled : Option (List ParticipantEntry × CrawlLimits)
  concurrency : Nat
  shutdownDelay : Nat

namespace Broker

section

variable {Material DecodingKey : Type} (config : BrokerConfig Material DecodingKey) (text : IriText)
  (allowList : String → Catalog → VisibleIris) (evaluate : String → Evaluation)
  (evaluateWhole : ReadOrder → QuadStore → String → SparqlQueryResult (List UInt8))

/-- Where `main` is once the server is spawned. -/
def start (now : Instant) : Broker where
  now
  signals := {}
  handler := .first
  shutdown := false
  stop := .waiting
  server := .accepting
  crawler := config.crawled.map fun crawled => ⟨.start crawled.1 crawled.2, false⟩
  endpoint := .initial config.sparql
  main := if config.crawled.isSome then .serverOrCrawler else .server

def answering (broker : Broker) : Bool :=
  broker.endpoint.calls.any fun call => match call.handler with
    | .waiting => true
    | _ => false

/-- Requests come in until the server has returned, draining is the server's own doing. -/
def sparqlStep (broker : Broker) (event : EndpointEvent) : Option Broker :=
  let stepped := (broker.endpoint.step config.sparql text allowList evaluate evaluateWhole event).map fun endpoint =>
    { broker with endpoint }
  match event, broker.server with
  | .drain, _ => none
  | .request _ _ _ _, .returned _ => none
  | _, _ => stepped

def crawlStep (broker : Broker) (event : SchedulerEvent) : Option Broker := do
  let task ← broker.crawler
  let scheduler ← task.scheduler.step config.concurrency event
  let moved := { broker with crawler := some { task with scheduler } }
  match event with
  | .stop => if broker.shutdown then some moved else none
  | _ => some moved

def servedStep (broker : Broker) : Option Broker :=
  match broker.main, broker.server with
  | .serverOrCrawler, .returned (.ok ()) => some { broker with shutdown := true, main := .crawler }
  | .server, .returned (.ok ()) => some { broker with main := .leaving 0 }
  | .serverOrCrawler, .returned (.error _) | .server, .returned (.error _) => some { broker with main := .leaving 101 }
  | _, _ => none

def joinedStep (broker : Broker) : Option Broker := do
  let task ← broker.crawler
  if task.over = false then none
  else match broker.main with
    | .serverOrCrawler =>
      -- with nobody shutting down, catalogs would go stale behind a healthy-looking broker: this exits at once
      if broker.shutdown = false then some { broker with main := .exited 1 } else some { broker with main := .server }
    | .crawler => some { broker with main := .leaving 0 }
    | _ => none

/-- The runtime is gone once nothing blocks. -/
def exitStep (broker : Broker) : Option Broker :=
  match broker.main with
  | .leaving code => if broker.endpoint.blocking then none else some { broker with main := .exited code }
  | _ => none

def handleStep (broker : Broker) (kind : SignalKind) : Option Broker :=
  (broker.signals.next kind).map fun signals => match broker.handler with
    | .first => { broker with signals, handler := .second, shutdown := true }
    | .second => { broker with signals, main := .exited 130 }

def stopStep (broker : Broker) : Option Broker :=
  match broker.stop with
  | .waiting =>
    if broker.shutdown = false then none
    else if config.shutdownDelay = 0 then some { broker with stop := .done }
    else some { broker with stop := .sleeping (broker.now + config.shutdownDelay) }
  | .sleeping wakesAt => if wakesAt ≤ broker.now then some { broker with stop := .done } else none
  | .done => none

/-- The server's own steps: it drains once the stop is due, then closes, then returns. -/
def drainStep (broker : Broker) : Option Broker :=
  match broker.stop with
  | .done => some { broker with endpoint := { broker.endpoint with draining := true } }
  | _ => none

def closeStep (broker : Broker) : Option Broker :=
  match broker.server with
  | .accepting => if broker.endpoint.draining then some { broker with server := .closing } else none
  | _ => none

def returnStep (broker : Broker) (result : Except String Unit) : Option Broker :=
  match broker.server, result with
  | .returned _, _ => none
  -- an assumption about axum: a graceful shutdown returns once every request it took is answered
  | .closing, .ok () => if broker.answering then none else some { broker with server := .returned result }
  | .accepting, .ok () => none
  | _, .error _ => some { broker with server := .returned result }

def panicStep (broker : Broker) : Option Broker := do
  let task ← broker.crawler
  let scheduler ← task.scheduler.step config.concurrency .stop
  return { broker with crawler := some ⟨scheduler, true⟩ }

def move (broker : Broker) : BrokerEvent → Option Broker
  | .time later => if broker.now ≤ later then some { broker with now := later } else none
  | .signal kind => some { broker with signals := broker.signals.set kind true }
  | .handle kind => broker.handleStep kind
  | .stop => stopStep config broker
  | .drain => broker.drainStep
  | .close => broker.closeStep
  | .serverReturns => broker.returnStep (.ok ())
  | .serverFails error => broker.returnStep (.error error)
  | .sparql event => sparqlStep config text allowList evaluate evaluateWhole broker event
  | .crawl event => crawlStep config broker event
  | .crawlerPanics => panicStep config broker
  | .served => broker.servedStep
  | .joined => broker.joinedStep
  | .exit => broker.exitStep

/-- Nothing moves once the process has exited; until then also the tasks of a runtime that is being dropped may. -/
def step (broker : Broker) (event : BrokerEvent) : Option Broker :=
  match broker.main with
  | .exited _ => none
  | _ => move config text allowList evaluate evaluateWhole broker event

end

end Broker

end CatalogBroker
