import CatalogBroker.Library.Transitions
import CatalogBroker.Store.AllowListCache

/-! Writers and a policy-filtered query on one store, interleaved step by step.

Each step is one atomic operation on the store, on its writer lock or on the write
sequence; a query reads the live store once for each lookup.
-/

set_option autoImplicit false

namespace CatalogBroker

open Library

/-- One read of the store by the evaluator. Listing the named graphs is a `namedGraphs` read
followed by a `holdsACatalog` read for each of them. -/
inductive Lookup where
  | quads (subject predicate object : Option Term) (graphName : Option (Option Term))
  | namedGraphs
  | holdsACatalog (graph : GraphName)

inductive Answer where
  | quads (found : List InternalQuad)
  | graphs (names : List GraphName)
  | holds (value : Bool)

def VisibleDataset.answer (store : QuadStore) (visible : VisibleIris) (order : ReadOrder) : Lookup → Answer
  | .quads subject predicate object graphName =>
    .quads (internalQuadsForPattern store visible order subject predicate object graphName)
  | .namedGraphs => .graphs (namedGraphs store order)
  | .holdsACatalog graph => .holds (graphHoldsACatalog store order graph)

/-- A query being evaluated: its serialized result, or the lookup it waits for. -/
inductive Evaluation where
  | result (value : SparqlQueryResult (List UInt8))
  | lookup (request : Lookup) (next : Answer → Evaluation)

/-- Evaluated on one store state throughout, `evaluation` ends with `value`. -/
inductive Evaluation.Yields (store : QuadStore) (visible : VisibleIris) :
    Evaluation → SparqlQueryResult (List UInt8) → Prop
  | result (value : SparqlQueryResult (List UInt8)) : Yields store visible (.result value) value
  | lookup (order : ReadOrder) {request : Lookup} {next : Answer → Evaluation}
      {value : SparqlQueryResult (List UInt8)}
      (rest : Yields store visible (next (VisibleDataset.answer store visible order request)) value) :
      Yields store visible (.lookup request next) value

/-- The write sequence is a 64-bit counter. -/
def fetchAdd (sequence : Nat) : Nat := (sequence + 1) % 2 ^ 64

/-- What a write transaction buffers. -/
inductive WriteWork where
  | replace (graph : NamedNode) (quads : List Quad)
  | remove (graph : NamedNode)

def WriteWork.apply (store : QuadStore) : WriteWork → QuadStore
  | .replace graph quads => (store.removeNamedGraph graph).extend quads
  | .remove graph => store.removeNamedGraph graph

/-- Where a call of `store_catalog` or `remove_catalog` stands. The guard is alive from `writing`
to `unwinding`, and in `committed`; the store's writer lock is held up to `closing`. -/
inductive WriterPhase where
  | called (work : WriteWork)
  | checking (graph : NamedNode)
  | opened (work : WriteWork)
  | writing (work : WriteWork)
  | buffered (work : WriteWork)
  | unwinding
  | closing
  | committed
  | finished

def WriterPhase.guarded : WriterPhase → Bool
  | .writing _ | .buffered _ | .unwinding | .committed => true
  | _ => false

def WriterPhase.locking : WriterPhase → Bool
  | .checking _ | .opened _ | .writing _ | .buffered _ | .unwinding | .closing => true
  | _ => false

inductive WriterEvent where
  | start
  | check
  | begin
  | buffer
  | commit
  | drop
  | close
  | fail
  deriving DecidableEq, Repr

/-- The next phase of a writer, `free` when nobody holds the writer lock. -/
def WriterPhase.step (store : QuadStore) (free : Bool) : WriterPhase → WriterEvent → Option WriterPhase
  | .called work, .start =>
    if free then
      match work with
      | .replace _ _ => some (.opened work)
      | .remove graph => some (.checking graph)
    else none
  | .called _, .fail => some .finished
  | .checking graph, .check =>
    if (store.quads.filter fun quad => quad.graphName = .namedNode graph).head?.isSome then
      some (.opened (.remove graph))
    else some .closing
  | .checking _, .fail => some .closing
  | .opened work, .begin => some (.writing work)
  | .writing work, .buffer => some (.buffered work)
  | .writing _, .fail => some .unwinding
  | .buffered _, .commit => some .committed
  -- A failed commit has consumed the transaction, so only the guard is left.
  | .buffered _, .fail => some .committed
  | .unwinding, .drop => some .closing
  | .closing, .close => some .finished
  | .committed, .drop => some .finished
  | _, _ => none

/-- The store after an event of a writer: a commit publishes what was buffered. -/
def WriterPhase.publish (phase : WriterPhase) (event : WriterEvent) (store : QuadStore) : QuadStore :=
  match phase, event with
  | .buffered work, .commit => work.apply store
  | _, _ => store

/-- One call of `sparql_query_json_policy_filtered`, and how many attempts it has left. -/
structure Attempt where
  query : String
  key : String
  left : Nat

inductive ReaderPhase where
  | idle
  | attempting (attempt : Attempt)
  | waiting (attempt : Attempt) (since : Instant)
  | finding (attempt : Attempt) (before : Nat)
  | scanning (attempt : Attempt) (before : Nat)
  | building (attempt : Attempt) (before : Nat) (graphs : List (NamedNode × GraphSnapshot))
  | comparing (attempt : Attempt) (before : Nat) (visible : VisibleIris)
  | remembering (attempt : Attempt) (before : Nat) (visible : VisibleIris)
  | evaluating (attempt : Attempt) (before : Nat) (visible : VisibleIris) (evaluation : Evaluation)
  | confirming (attempt : Attempt) (before : Nat) (result : SparqlQueryResult (List UInt8))
  | rechecking (attempt : Attempt)
  | replied (attempt : Attempt) (reply : SparqlQueryResult (List UInt8))

/-- A step of the reader, with the clock, cancellation and orders it meets. -/
inductive ReaderEvent where
  | call (query key : String)
  | attempt (cancelled : Bool) (now : Instant)
  | load (cancelled : Bool) (now : Instant)
  | find (now : Instant)
  | scan (order : ReadOrder)
  | scanFails (error : SparqlError)
  | build (run : BuildRun)
  | compare
  | remember (now : Instant) (order : HashOrder CachedAllowList)
  | lookup (order : ReadOrder)
  | lookupFails (error : SparqlError)
  | confirm
  | recheck (cancelled : Bool)

structure System where
  store : QuadStore
  writeSequence : Nat
  writers : List WriterPhase
  caches : AllowListCaches
  reader : ReaderPhase

inductive Event where
  | storeCatalog (catalog : Catalog)
  | removeCatalog (node : NodeId)
  | writer (index : Nat) (event : WriterEvent)
  | reader (event : ReaderEvent)

namespace System

def initial : System := ⟨.empty, 0, [], .empty, .idle⟩

def locked (system : System) : Bool := system.writers.any WriterPhase.locking

def writerStep (system : System) (index : Nat) (event : WriterEvent) : Option System := do
  let phase ← system.writers[index]?
  let next ← phase.step system.store (!system.locked) event
  return { system with
    writers := system.writers.set index next
    writeSequence := if event = .begin ∨ event = .drop then fetchAdd system.writeSequence
      else system.writeSequence
    store := phase.publish event system.store }

section

variable (text : IriText) (allowList : String → Catalog → VisibleIris) (evaluate : String → Evaluation)

/-- What the reader does next, and what it leaves in the allow-list caches. -/
def readerStep (system : System) : ReaderPhase → ReaderEvent → Option (ReaderPhase × AllowListCaches)
  | .idle, .call query key => some (.attempting ⟨query, key, policyFilteredAttempts⟩, system.caches)
  | .replied _ _, .call query key => some (.attempting ⟨query, key, policyFilteredAttempts⟩, system.caches)
  | .attempting attempt, .attempt cancelled now =>
    if attempt.left = 0 then some (.replied attempt (.error .storeBusy), system.caches)
    else if cancelled then some (.replied attempt (.error .cancelled), system.caches)
    else some (.waiting { attempt with left := attempt.left - 1 } now, system.caches)
  -- an odd sequence is a writer at work: it is waited out, up to the limit
  | .waiting attempt since, .load cancelled now =>
    if system.writeSequence % 2 = 0 then some (.finding attempt system.writeSequence, system.caches)
    else if cancelled then some (.replied attempt (.error .cancelled), system.caches)
    else if writeWait ≤ now - since then some (.replied attempt (.error .storeBusy), system.caches)
    else some (.waiting attempt since, system.caches)
  | .finding attempt before, .find now =>
    match system.caches.cachedAllowList attempt.key before now with
    | some visible => some (.evaluating attempt before visible (evaluate attempt.query), system.caches)
    | none => some (.scanning attempt before, system.caches)
  | .scanning attempt before, .scan order =>
    some (.building attempt before (system.store.snapshots order none), system.caches)
  | .scanning attempt _, .scanFails error => some (.replied attempt (.error error), system.caches)
  | .building attempt before graphs, .build run =>
    let (caches, built) :=
      system.caches.buildAllowList text (fun _ => allowList attempt.key) attempt.key before graphs run
    match built with
    | .error error => some (.replied attempt (.error error), caches)
    | .ok visible => some (.comparing attempt before visible, caches)
  -- a list built across a write is used for this query but not remembered
  | .comparing attempt before visible, .compare =>
    if system.writeSequence = before then some (.remembering attempt before visible, system.caches)
    else some (.evaluating attempt before visible (evaluate attempt.query), system.caches)
  | .remembering attempt before visible, .remember now order =>
    some (.evaluating attempt before visible (evaluate attempt.query),
      system.caches.rememberAllowList attempt.key before visible now order)
  | .evaluating attempt before visible evaluation, .lookup order =>
    match evaluation with
    | .result value => some (.confirming attempt before value, system.caches)
    | .lookup request next => some (.evaluating attempt before visible
        (next (VisibleDataset.answer system.store visible order request)), system.caches)
  | .evaluating attempt before _ _, .lookupFails error =>
    some (.confirming attempt before (.error error), system.caches)
  -- the answer counts only if nothing was written since; else all of it is done again
  | .confirming attempt before result, .confirm =>
    if system.writeSequence = before then some (.replied attempt result, system.caches)
    else some (.rechecking attempt, system.caches)
  | .rechecking attempt, .recheck cancelled =>
    if cancelled then some (.replied attempt (.error .cancelled), system.caches)
    else some (.attempting attempt, system.caches)
  | _, _ => none

def step (system : System) : Event → Option System
  | .storeCatalog catalog =>
    let name := nodeIri text catalog.originNode
    match writeCatalog text name catalog with
    | .error _ => some system
    | .ok quads => some { system with writers := system.writers ++ [.called (.replace name quads)] }
  | .removeCatalog node =>
    some { system with writers := system.writers ++ [.called (.remove (nodeIri text node))] }
  | .writer index event => system.writerStep index event
  | .reader event =>
    (system.readerStep text allowList evaluate system.reader event).map fun next =>
      { system with reader := next.1, caches := next.2 }

end

end System

end CatalogBroker
