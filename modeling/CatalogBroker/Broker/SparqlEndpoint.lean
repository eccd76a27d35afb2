import CatalogBroker.Broker.AllowListKey
import CatalogBroker.Broker.OAuth2
import CatalogBroker.Store.WriteBrackets

/-! `/sparql`: any number of requests, their evaluations on the blocking pool, and the store they read.

A handler and its evaluation go separate ways: a handler that is gone leaves its evaluation
running, and an evaluation keeps its slot until it really ends. Each step is one atomic
operation of one of them, or of a writer.
-/

set_option autoImplicit false

namespace CatalogBroker

open Library Transitions

def sparqlResultsJson : String := "application/sparql-results+json"

/-- Whether the `Accept` header allows the one media type there is. -/
def acceptsSparqlResultsJson (headers : RequestHeaders) : Bool :=
  match headers.accept with
  | none => true
  | some accept => (Text.split accept ',').any fun range =>
    Text.trimmed (Text.beforeFirst range ';') ∈ [sparqlResultsJson, "application/json", "*/*", "application/*"]

def SparqlError.display : SparqlError → String
  | .parse message => "invalid SPARQL query: " ++ message
  | .evaluation message => "SPARQL query evaluation failed: " ++ message
  | .store message => "catalog store read failed: " ++ message
  | .unsupportedGraphResult =>
    "CONSTRUCT/DESCRIBE queries are not supported by this endpoint - only SELECT and ASK are"
  | .serialize message => "failed to serialize SPARQL results: " ++ message
  | .cancelled => "SPARQL query was cancelled before it finished"
  | .tooManyRows limit =>
    "SPARQL query returned more than " ++ toString limit ++ " rows - add a LIMIT or narrow the query"
  | .storeBusy => "the catalog store kept changing while the query ran - retry later"

/-- The time limit in milliseconds, the row limit, and how many evaluations may run at once. -/
structure SparqlLimitsConfig where
  timeout : Nat := 10000
  maxRows : Nat := 10000
  maxConcurrent : Nat := 4

def maxPermits : Nat := 2 ^ 61 - 1

def plainResponse (status : Nat) (message : String) : RouteResponse := { status, body := .text message }

def errorResponse (error : SparqlError) (timeout : Nat) : RouteResponse :=
  match error with
  | .parse _ | .evaluation _ | .unsupportedGraphResult | .tooManyRows _ => plainResponse 400 error.display
  | .store _ => internalError "SPARQL evaluation failed"
  | .storeBusy => plainResponse 503 error.display
  | .cancelled => plainResponse 503 ("SPARQL query ran past the " ++ toString timeout ++
      " ms time limit and was stopped - add a LIMIT or narrow the query")
  | .serialize _ => plainResponse 500 error.display

structure SparqlState (Material DecodingKey : Type) extends GateState Material DecodingKey where
  limits : SparqlLimitsConfig
  /-- The parser of the store. -/
  checkSparql : String → Except String Unit
  /-- How the claims of an allow-list key are spelled. -/
  serializeKey : List (String × ClaimValue) → String

section

variable {Material DecodingKey : Type} (state : SparqlState Material DecodingKey)

def SparqlState.busy : RouteResponse :=
  plainResponse 503 ("the SPARQL endpoint is busy: " ++ toString state.limits.maxConcurrent ++
    " queries are already running - retry later")

def shuttingDown : RouteResponse :=
  plainResponse 503 "the broker is shutting down; the SPARQL query was stopped"

/-- The checks before a slot is asked for: the query to evaluate, and the caller's claims. -/
def SparqlState.admit (now : Nat) (headers : RequestHeaders) (query : Option String) :
    Except RouteResponse (String × Option Json) := do
  let claims ← checkOauth2Bearer state.jwt state.oauth2 now headers
  if acceptsSparqlResultsJson headers = false then
    .error (plainResponse 406 ("this endpoint only produces " ++ sparqlResultsJson))
  else match query.filter fun query => Text.trimmed query ≠ "" with
    | none => .error (plainResponse 400 "missing required 'query' parameter")
    | some query => match state.checkSparql query with
      | .error message => .error (plainResponse 400 (SparqlError.parse message).display)
      | .ok () => .ok (query, claims)

end

inductive HandlerPhase where
  | waiting
  | answered (response : RouteResponse)
  | gone

/-- How an evaluation ended: with its result, or in a panic. -/
inductive TaskOutcome where
  | finished (result : SparqlQueryResult (List UInt8))
  | panicked

/-- The evaluation of a request; one over the whole store reads a snapshot of it. -/
inductive TaskPhase where
  | unspawned
  | queued
  | filtered (reader : ReaderPhase)
  | unfiltered (snapshot : QuadStore)
  | ended (outcome : TaskOutcome)

def TaskPhase.holdsSlot : TaskPhase → Bool
  | .queued | .filtered _ | .unfiltered _ => true
  | .unspawned | .ended _ => false

structure SparqlCall where
  query : String
  claims : Option Json
  since : Instant
  /-- Its cancellation token. -/
  cancelled : Bool
  handler : HandlerPhase
  task : TaskPhase

structure SparqlEndpoint where
  store : QuadStore
  writeSequence : Nat
  writers : List WriterPhase
  caches : AllowListCaches
  slots : Nat
  draining : Bool
  calls : List SparqlCall

inductive TaskEvent where
  | start
  | read (event : ReaderEvent)
  | complete (order : ReadOrder)
  | stop (error : SparqlError)
  | finish
  | panic

inductive HandlerEvent where
  | answer
  | timeout (now : Instant)
  | stopping
  | disconnect

inductive EndpointEvent where
  | write (event : Event)
  | request (now : Nat) (arrival : Instant) (headers : RequestHeaders) (query : Option String)
  | task (index : Nat) (event : TaskEvent)
  | handler (index : Nat) (event : HandlerEvent)
  | drain

/-- The reader sees its token as it is, and is called once. -/
def ReaderEvent.sees (cancelled : Bool) : ReaderEvent → Bool
  | .call _ _ => false
  | .attempt seen _ | .load seen _ | .recheck seen => seen = cancelled
  | _ => true

namespace SparqlEndpoint

def system (endpoint : SparqlEndpoint) (reader : ReaderPhase) : System :=
  ⟨endpoint.store, endpoint.writeSequence, endpoint.writers, endpoint.caches, reader⟩

def put (endpoint : SparqlEndpoint) (index : Nat) (call : SparqlCall) : SparqlEndpoint :=
  { endpoint with calls := endpoint.calls.set index call }

section

variable {Material DecodingKey : Type} (state : SparqlState Material DecodingKey) (text : IriText)
  (allowList : String → Catalog → VisibleIris) (evaluate : String → Evaluation)
  (evaluateWhole : ReadOrder → QuadStore → String → SparqlQueryResult (List UInt8))

def capacity : Nat := min state.limits.maxConcurrent maxPermits

def initial : SparqlEndpoint := ⟨.empty, 0, [], .empty, capacity state, false, []⟩

def writeStep (endpoint : SparqlEndpoint) (event : Event) : Option SparqlEndpoint :=
  match event with
  | .reader _ => none
  | event => ((endpoint.system .idle).step text allowList evaluate event).map fun next =>
    { endpoint with store := next.store, writeSequence := next.writeSequence, writers := next.writers }

def endTask (endpoint : SparqlEndpoint) (index : Nat) (call : SparqlCall) (outcome : TaskOutcome) : SparqlEndpoint :=
  { endpoint.put index { call with task := .ended outcome } with slots := endpoint.slots + 1 }

def taskStep (endpoint : SparqlEndpoint) (index : Nat) (call : SparqlCall) (event : TaskEvent) :
    Option SparqlEndpoint :=
  match call.task, event with
  | .queued, .start =>
    if call.cancelled then some (endpoint.endTask index call (.finished (.error .cancelled)))
    else if state.shouldFilterByPolicy then
      let key := allowListKey state.serializeKey call.claims
      some (endpoint.put index { call with
        task := .filtered (.attempting ⟨call.query, key, policyFilteredAttempts⟩) })
    -- without a policy filter the query is evaluated on a snapshot
    else some (endpoint.put index { call with task := .unfiltered endpoint.store })
  | .filtered reader, .read event =>
    if event.sees call.cancelled then
      ((endpoint.system reader).readerStep text allowList evaluate reader event).map fun next =>
        { endpoint.put index { call with task := .filtered next.1 } with caches := next.2 }
    else none
  | .filtered (.replied _ reply), .finish => some (endpoint.endTask index call (.finished reply))
  | .unfiltered snapshot, .complete order =>
    some (endpoint.endTask index call (.finished (evaluateWhole order snapshot call.query)))
  | .unfiltered _, .stop error => some (endpoint.endTask index call (.finished (.error error)))
  -- the slot is returned by its guard, a panic included
  | .filtered _, .panic | .unfiltered _, .panic => some (endpoint.endTask index call .panicked)
  | _, _ => none

/-- However a handler ends, its token is set on the way out. -/
def leave (endpoint : SparqlEndpoint) (index : Nat) (call : SparqlCall) (handler : HandlerPhase) : SparqlEndpoint :=
  endpoint.put index { call with cancelled := true, handler }

def outcomeResponse (outcome : TaskOutcome) : RouteResponse :=
  match outcome with
  | .finished (.ok body) => { status := 200, body := .document sparqlResultsJson body }
  | .finished (.error error) => errorResponse error state.limits.timeout
  | .panicked => internalError "SPARQL evaluation failed"

def handlerStep (endpoint : SparqlEndpoint) (index : Nat) (call : SparqlCall) (event : HandlerEvent) :
    Option SparqlEndpoint :=
  match call.handler, call.task, event with
  | .waiting, .ended outcome, .answer =>
    some (endpoint.leave index call (.answered (outcomeResponse state outcome)))
  | .waiting, _, .timeout now =>
    if call.since + state.limits.timeout ≤ now then
      some (endpoint.leave index call (.answered (errorResponse .cancelled state.limits.timeout)))
    else none
  | .waiting, _, .stopping =>
    if endpoint.draining then some (endpoint.leave index call (.answered shuttingDown)) else none
  | .waiting, _, .disconnect => some (endpoint.leave index call .gone)
  | _, _, _ => none

def requestStep (endpoint : SparqlEndpoint) (now : Nat) (arrival : Instant) (headers : RequestHeaders)
    (query : Option String) : SparqlEndpoint :=
  let refused (response : RouteResponse) : SparqlEndpoint :=
    { endpoint with calls := endpoint.calls ++
      [⟨query.getD "", none, arrival, true, .answered response, .unspawned⟩] }
  match state.admit now headers query with
  | .error response => refused response
  | .ok (query, claims) =>
    if endpoint.slots = 0 then refused state.busy
    else { endpoint with
      slots := endpoint.slots - 1
      calls := endpoint.calls ++ [⟨query, claims, arrival, false, .waiting, .queued⟩] }

def step (endpoint : SparqlEndpoint) : EndpointEvent → Option SparqlEndpoint
  | .write event => endpoint.writeStep text allowList evaluate event
  | .request now arrival headers query => some (endpoint.requestStep state now arrival headers query)
  | .task index event => do
    let call ← endpoint.calls[index]?
    endpoint.taskStep state text allowList evaluate evaluateWhole index call event
  | .handler index event => do
    let call ← endpoint.calls[index]?
    endpoint.handlerStep state index call event
  | .drain => some { endpoint with draining := true }

end

end SparqlEndpoint

end CatalogBroker
