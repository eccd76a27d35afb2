import CatalogBroker.Broker.SparqlEndpoint
import CatalogBroker.Library.Listing

/-! What `/sparql` answers, and how many evaluations it runs, whatever the order of its steps.

Every reader of the store is consistent with it for itself; the write sequence and the
allow-list caches are all that the readers share.
-/

set_option autoImplicit false

namespace CatalogBroker

open Library Listing Transitions

def ReaderPhase.asks : ReaderPhase → Option (String × String)
  | .idle => none
  | .attempting attempt | .waiting attempt _ | .finding attempt _ | .scanning attempt _ | .building attempt _ _
  | .comparing attempt _ _ | .remembering attempt _ _ | .evaluating attempt _ _ _ | .confirming attempt _ _
  | .rechecking attempt | .replied attempt _ => some (attempt.query, attempt.key)

section

variable {text : IriText} {allowList : String → Catalog → VisibleIris} {evaluate : String → Evaluation}
  {system : System}

theorem readerStep_asks {cancelled : Bool} {reader : ReaderPhase} {event : ReaderEvent}
    (sees : event.sees cancelled = true) {next : ReaderPhase × AllowListCaches}
    (stepped : system.readerStep text allowList evaluate reader event = some next) : next.1.asks = reader.asks := by
  unfold System.readerStep at stepped
  split at stepped
  case h_1 | h_2 => cases sees
  case h_3 =>
    split at stepped
    · cases stepped
      rfl
    · split at stepped <;> cases stepped <;> rfl
  case h_4 =>
    split at stepped
    · cases stepped
      rfl
    · split at stepped
      · cases stepped
        rfl
      · split at stepped <;> cases stepped <;> rfl
  -- a build touches the caches, and the query only stays where it was
  case h_8 attempt before graphs run =>
    generalize system.caches.buildAllowList text (fun _ => allowList attempt.key) attempt.key before graphs run
      = outcome at stepped
    obtain ⟨caches, built⟩ := outcome
    cases built with
    | error error =>
      cases stepped
      rfl
    | ok visible =>
      cases stepped
      rfl
  case h_6 | h_7 | h_10 | h_12 =>
    cases stepped
    rfl
  case h_15 => cases stepped
  all_goals
    split at stepped
    · cases stepped
      rfl
    · cases stepped
      rfl

theorem Consistent.withReader {other : System} (consistent : Consistent text allowList evaluate system)
    (own : Consistent text allowList evaluate other) (store : system.store = other.store)
    (sequence : system.writeSequence = other.writeSequence) :
    Consistent text allowList evaluate { system with reader := other.reader } :=
  ⟨consistent.parity, consistent.finished, consistent.kept, by
    have known := own.reader
    rw [← store, ← sequence] at known
    exact known⟩

end

def okResponse (body : List UInt8) : RouteResponse := { status := 200, body := .document sparqlResultsJson body }

section

variable {Material DecodingKey : Type} {state : SparqlState Material DecodingKey} {text : IriText}
  {allowList : String → Catalog → VisibleIris} {evaluate : String → Evaluation}
  {evaluateWhole : ReadOrder → QuadStore → String → SparqlQueryResult (List UInt8)}

theorem errorResponse_status (error : SparqlError) (timeout : Nat) : (errorResponse error timeout).status ≠ 200 := by
  cases error <;> simp [errorResponse, plainResponse, internalError]

theorem checkOauth2Bearer_error_status {jwt : JwtLibrary Material DecodingKey}
    {oauth2 : Option (OAuth2Verifier DecodingKey)} {now : Nat} {headers : RequestHeaders} {response : RouteResponse}
    (refused : checkOauth2Bearer jwt oauth2 now headers = .error response) :
    response.status = 401 ∨ response.status = 403 := by
  unfold checkOauth2Bearer at refused
  cases oauth2 with
  | none => cases refused
  | some verifier =>
    cases bearer : bearerToken headers with
    | none =>
      rw [bearer] at refused
      cases refused
      exact .inl rfl
    | some token =>
      rw [bearer] at refused
      dsimp only at refused
      split at refused
      · cases refused
      · cases refused
        exact .inr rfl
      · cases refused
        exact .inl rfl

theorem admit_error_status {now : Nat} {headers : RequestHeaders} {query : Option String} {response : RouteResponse}
    (refused : state.admit now headers query = .error response) : response.status ≠ 200 := by
  unfold SparqlState.admit at refused
  cases gate : checkOauth2Bearer state.jwt state.oauth2 now headers with
  | error answer =>
    rw [gate] at refused
    cases refused
    rcases checkOauth2Bearer_error_status gate with unauthorized | forbidden
    · omega
    · omega
  | ok claims =>
    rw [gate] at refused
    simp only [bind, Except.bind] at refused
    split at refused
    · cases refused
      simp [plainResponse]
    · split at refused
      · cases refused
        simp [plainResponse]
      · split at refused
        · cases refused
          simp [plainResponse]
        · cases refused

namespace SparqlEndpoint

variable {endpoint next : SparqlEndpoint} {index : Nat} {call : SparqlCall}

/-- An evaluation that takes a step begins, or goes on reading, or ends; only what it read is answered with. -/
theorem taskStep_cases {event : TaskEvent}
    (stepped : endpoint.taskStep state text allowList evaluate evaluateWhole index call event = some next) :
    call.task.holdsSlot = true ∧
      ((call.task = .queued ∧ call.cancelled = false ∧ ∃ task, next = endpoint.put index { call with task } ∧
          (state.shouldFilterByPolicy = true ∧ task = .filtered
              (.attempting ⟨call.query, allowListKey state.serializeKey call.claims, policyFilteredAttempts⟩) ∨
            state.shouldFilterByPolicy = false ∧ task = .unfiltered endpoint.store)) ∨
        (∃ reader own after caches, call.task = .filtered reader ∧ event = .read own ∧ own.sees call.cancelled = true ∧
          (endpoint.system reader).readerStep text allowList evaluate reader own = some (after, caches) ∧
          next = { endpoint.put index { call with task := .filtered after } with caches }) ∨
        ∃ outcome, next = endpoint.endTask index call outcome ∧ ∀ body, outcome = .finished (.ok body) →
          (∃ attempt, call.task = .filtered (.replied attempt (.ok body))) ∨
          ∃ snapshot order, call.task = .unfiltered snapshot ∧ evaluateWhole order snapshot call.query = .ok body) := by
  unfold taskStep at stepped
  split at stepped
  case h_1 _ queued =>
    refine ⟨by rw [queued]; rfl, ?_⟩
    split at stepped
    · cases stepped
      exact .inr (.inr ⟨_, rfl, by simp⟩)
    · rename_i live
      have live : call.cancelled = false := by simpa using live
      split at stepped
      · rename_i filters
        cases stepped
        exact .inl ⟨queued, live, _, rfl, .inl ⟨filters, rfl⟩⟩
      · rename_i filters
        cases stepped
        exact .inl ⟨queued, live, _, rfl, .inr ⟨by simpa using filters, rfl⟩⟩
  case h_2 reader own running =>
    refine ⟨by rw [running]; rfl, .inr (.inl ?_)⟩
    split at stepped
    · rename_i sees
      obtain ⟨⟨after, caches⟩, read, rfl⟩ := Option.map_eq_some_iff.mp stepped
      exact ⟨reader, own, after, caches, running, rfl, sees, read, rfl⟩
    · cases stepped
  case h_3 attempt reply running =>
    cases stepped
    refine ⟨by rw [running]; rfl, .inr (.inr ⟨_, rfl, ?_⟩)⟩
    intro body same
    cases same
    exact .inl ⟨attempt, running⟩
  case h_4 snapshot order running =>
    cases stepped
    refine ⟨by rw [running]; rfl, .inr (.inr ⟨_, rfl, ?_⟩)⟩
    intro body same
    exact .inr ⟨snapshot, order, running, TaskOutcome.finished.inj same⟩
  case h_5 snapshot error running =>
    cases stepped
    exact ⟨by rw [running]; rfl, .inr (.inr ⟨_, rfl, by simp⟩)⟩
  -- a panic, of a filtered or an unfiltered evaluation
  case h_6 running | h_7 running =>
    cases stepped
    exact ⟨by rw [running]; rfl, .inr (.inr ⟨_, rfl, by simp⟩)⟩
  case h_8 => cases stepped

/-- A handler steps once, by leaving; 200 is the answer to a body its own evaluation ended with. -/
theorem handlerStep_cases {event : HandlerEvent}
    (stepped : endpoint.handlerStep state index call event = some next) :
    ∃ handler, call.handler = .waiting ∧ handler ≠ .waiting ∧ next = endpoint.leave index call handler ∧
      ∀ response, handler = .answered response → response.status = 200 →
        ∃ body, response = okResponse body ∧ call.task = .ended (.finished (.ok body)) := by
  unfold handlerStep at stepped
  split at stepped
  case h_1 outcome waiting ended =>
    cases stepped
    refine ⟨_, waiting, by simp, rfl, ?_⟩
    intro response same success
    cases same
    cases outcome with
    | panicked => simp [outcomeResponse, internalError] at success
    | finished result =>
      cases result with
      | error error => exact absurd success (errorResponse_status _ _)
      | ok body => exact ⟨body, rfl, ended⟩
  -- a timeout, a drain and a client that leaves are no success
  case h_2 now waiting =>
    split at stepped
    · cases stepped
      refine ⟨_, waiting, by simp, rfl, ?_⟩
      intro response same success
      cases same
      exact absurd success (errorResponse_status _ _)
    · cases stepped
  case h_3 waiting =>
    split at stepped
    · cases stepped
      refine ⟨_, waiting, by simp, rfl, ?_⟩
      intro response same success
      cases same
      simp [shuttingDown, plainResponse] at success
    · cases stepped
  case h_4 waiting =>
    cases stepped
    exact ⟨.gone, waiting, by simp, rfl, by simp⟩
  case h_5 => cases stepped

variable (state) in
theorem requestStep_cases (endpoint : SparqlEndpoint) (now : Nat) (arrival : Instant) (headers : RequestHeaders)
    (query : Option String) :
    ∃ call slots, endpoint.requestStep state now arrival headers query =
        { endpoint with slots, calls := endpoint.calls ++ [call] } ∧
      ((∃ response, call.handler = .answered response ∧ response.status ≠ 200 ∧ call.cancelled = true ∧
          call.task = .unspawned ∧ slots = endpoint.slots) ∨
        call.handler = .waiting ∧ call.task = .queued ∧ endpoint.slots = slots + 1) := by
  unfold requestStep
  cases admitted : state.admit now headers query with
  | error response => exact ⟨_, _, rfl, .inl ⟨response, rfl, admit_error_status admitted, rfl, rfl, rfl⟩⟩
  | ok asked =>
    obtain ⟨query, claims⟩ := asked
    dsimp only
    split
    · exact ⟨_, _, rfl, .inl ⟨_, rfl, by simp [SparqlState.busy, plainResponse], rfl, rfl, rfl⟩⟩
    · exact ⟨_, _, rfl, .inr ⟨rfl, rfl, by omega⟩⟩

theorem writeStep_eq_some {event : Event} (stepped : endpoint.writeStep text allowList evaluate event = some next) :
    (∀ own, event ≠ .reader own) ∧
      ∃ after, (endpoint.system .idle).step text allowList evaluate event = some after ∧
        next = { endpoint with
          store := after.store, writeSequence := after.writeSequence, writers := after.writers } := by
  unfold writeStep at stepped
  split at stepped
  · cases stepped
  · rename_i event quiet
    obtain ⟨after, written, rfl⟩ := Option.map_eq_some_iff.mp stepped
    exact ⟨quiet, after, written, rfl⟩

end SparqlEndpoint

end

theorem System.step_withReader {text : IriText} {allowList : String → Catalog → VisibleIris}
    {evaluate : String → Evaluation} {system next : System} {event : Event} (quiet : ∀ own, event ≠ .reader own)
    (stepped : system.step text allowList evaluate event = some next) (reader : ReaderPhase) :
    System.step text allowList evaluate { system with reader } event = some { next with reader } := by
  cases event with
  | reader own => exact absurd rfl (quiet own)
  | removeCatalog node =>
    cases stepped
    rfl
  | storeCatalog catalog =>
    simp only [System.step] at stepped ⊢
    split at stepped
    · cases stepped
      rfl
    · cases stepped
      rfl
  -- a writer looks at the store and the lock, never at the reader
  | writer index change =>
    simp only [System.step, System.writerStep] at stepped ⊢
    cases found : system.writers[index]? with
    | none => simp [found] at stepped
    | some phase =>
      cases advanced : phase.step system.store (!system.locked) change with
      | none => simp [found, advanced] at stepped
      | some after =>
        simp only [found, advanced, Option.bind_eq_bind, Option.bind_some, pure, Option.some.injEq] at stepped
        subst stepped
        have same : System.locked { system with reader } = system.locked := rfl
        simp only [same, advanced, Option.bind_eq_bind, Option.bind_some, pure]

namespace SparqlEndpoint

/-- The commits of a run are bracketed, as far as the store is concerned. -/
def Bracketed (endpoint : SparqlEndpoint) : EndpointEvent → Prop
  | .write event => CatalogBroker.Bracketed (endpoint.system .idle) event
  | _ => True

section

variable {Material DecodingKey : Type} (state : SparqlState Material DecodingKey) (text : IriText)
  (allowList : String → Catalog → VisibleIris) (evaluate : String → Evaluation)
  (evaluateWhole : ReadOrder → QuadStore → String → SparqlQueryResult (List UInt8))

/-- A body that `store` gives a request: all of the store, or what its caller may see of it. -/
def Gives (store : QuadStore) (call : SparqlCall) (body : List UInt8) : Prop :=
  if state.shouldFilterByPolicy then
    ∃ visible, AllowListOf text (allowList (allowListKey state.serializeKey call.claims)) store visible ∧
      (evaluate call.query).Yields store visible (.ok body)
  else ∃ order, evaluateWhole order store call.query = .ok body

/-- At some moment of the run the request had its slot, and the store was such. -/
def WhileRunning (events : List EndpointEvent) (index : Nat) (holds : QuadStore → Prop) : Prop :=
  ∃ moment asked, Run.Passes (step state text allowList evaluate evaluateWhole) Bracketed (initial state) events
      moment ∧
    moment.calls[index]? = some asked ∧ asked.task.holdsSlot = true ∧ holds moment.store

structure Accounted (events : List EndpointEvent) (endpoint : SparqlEndpoint) (index : Nat) (call : SparqlCall) :
    Prop where
  left : call.handler ≠ .waiting → call.cancelled = true
  answered : ∀ response, call.handler = .answered response → response.status = 200 →
    ∃ body, response = okResponse body ∧ call.task = .ended (.finished (.ok body))
  reading : ∀ reader, call.task = .filtered reader → state.shouldFilterByPolicy = true ∧
    reader.asks = some (call.query, allowListKey state.serializeKey call.claims) ∧
    Consistent text allowList evaluate (endpoint.system reader)
  snapshot : ∀ store, call.task = .unfiltered store → state.shouldFilterByPolicy = false ∧
    WhileRunning state text allowList evaluate evaluateWhole events index (· = store)
  result : ∀ body, ((∃ attempt, call.task = .filtered (.replied attempt (.ok body))) ∨
      call.task = .ended (.finished (.ok body))) →
    WhileRunning state text allowList evaluate evaluateWhole events index
      (Gives state text allowList evaluate evaluateWhole · call body)

structure Sound (events : List EndpointEvent) (endpoint : SparqlEndpoint) : Prop where
  slots : endpoint.slots + endpoint.calls.countP (fun call => call.task.holdsSlot) = capacity state
  store : Consistent text allowList evaluate (endpoint.system .idle)
  calls : ∀ index call, endpoint.calls[index]? = some call →
    Accounted state text allowList evaluate evaluateWhole events endpoint index call

variable {state text allowList evaluate evaluateWhole} {endpoint next : SparqlEndpoint} {events : List EndpointEvent}
  {index : Nat} {call : SparqlCall}

theorem WhileRunning.append {holds : QuadStore → Prop}
    (running : WhileRunning state text allowList evaluate evaluateWhole events index holds)
    (more : List EndpointEvent) :
    WhileRunning state text allowList evaluate evaluateWhole (events ++ more) index holds := by
  obtain ⟨moment, asked, passes, had⟩ := running
  exact ⟨moment, asked, passes.append more, had⟩

theorem Accounted.frame (accounted : Accounted state text allowList evaluate evaluateWhole events endpoint index call)
    (next : SparqlEndpoint) (more : List EndpointEvent)
    (readers : ∀ reader, Consistent text allowList evaluate (endpoint.system reader) →
      Consistent text allowList evaluate (next.system reader)) :
    Accounted state text allowList evaluate evaluateWhole (events ++ more) next index call where
  left := accounted.left
  answered := accounted.answered
  reading reader running := by
    obtain ⟨filters, asks, consistent⟩ := accounted.reading reader running
    exact ⟨filters, asks, readers reader consistent⟩
  snapshot store running := by
    obtain ⟨whole, seen⟩ := accounted.snapshot store running
    exact ⟨whole, seen.append more⟩
  result body produced := (accounted.result body produced).append more

theorem Sound.put (sound : Sound state text allowList evaluate evaluateWhole events endpoint)
    (found : endpoint.calls[index]? = some call) (moved : SparqlCall) {slots : Nat} {caches : AllowListCaches}
    (balance : slots + (if moved.task.holdsSlot then 1 else 0) =
      endpoint.slots + if call.task.holdsSlot then 1 else 0) (more : List EndpointEvent)
    (readers : ∀ reader, Consistent text allowList evaluate (endpoint.system reader) →
      Consistent text allowList evaluate
        (System.mk endpoint.store endpoint.writeSequence endpoint.writers caches reader))
    (accounted : Accounted state text allowList evaluate evaluateWhole (events ++ more)
      { endpoint.put index moved with slots, caches } index moved) :
    Sound state text allowList evaluate evaluateWhole (events ++ more)
      { endpoint.put index moved with slots, caches } where
  slots := by
    have total := sound.slots
    have changed := countP_set_add (fun call => call.task.holdsSlot) found moved
    dsimp only [SparqlEndpoint.put]
    omega
  store := readers .idle sound.store
  calls := by
    intro other found reads
    rcases getElem?_set_cases reads with ⟨rfl, rfl⟩ | ⟨_, kept⟩
    · exact accounted
    · exact (sound.calls other found kept).frame _ more readers

theorem Sound.initial : Sound state text allowList evaluate evaluateWhole [] (initial state) where
  slots := rfl
  store := Consistent.initial
  calls index call found := by simp [SparqlEndpoint.initial] at found

theorem Sound.write (sound : Sound state text allowList evaluate evaluateWhole events endpoint) {event : Event}
    (bracketed : CatalogBroker.Bracketed (endpoint.system .idle) event)
    (stepped : endpoint.writeStep text allowList evaluate event = some next) (more : List EndpointEvent) :
    Sound state text allowList evaluate evaluateWhole (events ++ more) next := by
  obtain ⟨quiet, after, written, rfl⟩ := writeStep_eq_some stepped
  have caches : after.caches = endpoint.caches := (step_frame quiet written).1
  have readers (reader : ReaderPhase) (consistent : Consistent text allowList evaluate (endpoint.system reader)) :
      Consistent text allowList evaluate
        (System.mk after.store after.writeSequence after.writers endpoint.caches reader) := by
    have beside : CatalogBroker.Bracketed (endpoint.system reader) event := by
      cases event with
      | writer index change => cases change <;> exact bracketed
      | _ => trivial
    rw [← caches]
    exact consistent.step beside (System.step_withReader quiet written reader)
  exact ⟨sound.slots, readers .idle sound.store,
    fun index call found => (sound.calls index call found).frame _ more readers⟩

theorem Sound.request (sound : Sound state text allowList evaluate evaluateWhole events endpoint) (now : Nat)
    (arrival : Instant) (headers : RequestHeaders) (query : Option String) (more : List EndpointEvent) :
    Sound state text allowList evaluate evaluateWhole (events ++ more)
      (endpoint.requestStep state now arrival headers query) := by
  obtain ⟨call, slots, changed, kind⟩ := requestStep_cases state endpoint now arrival headers query
  rw [changed]
  have total := sound.slots
  refine ⟨?_, sound.store, ?_⟩
  · dsimp only
    rw [List.countP_append, List.countP_singleton]
    -- a refused request takes no slot, an admitted one is queued with its own
    rcases kind with ⟨response, _, _, _, unspawned, same⟩ | ⟨_, queued, taken⟩
    · have free : call.task.holdsSlot = false := by rw [unspawned]; rfl
      rw [free, if_neg Bool.false_ne_true]
      omega
    · have held : call.task.holdsSlot = true := by rw [queued]; rfl
      rw [held, if_pos rfl]
      omega
  · intro index found reads
    rcases getElem?_concat_cases reads with earlier | ⟨_, rfl⟩
    · exact (sound.calls index found earlier).frame _ more fun _ => id
    · rcases kind with ⟨response, answered, refused, cancelled, unspawned, _⟩ | ⟨waiting, queued, _⟩
      · refine ⟨fun _ => cancelled, ?_, by simp [unspawned], by simp [unspawned], by simp [unspawned]⟩
        intro other same success
        rw [answered] at same
        cases same
        exact absurd success refused
      · exact ⟨fun leaves => absurd waiting leaves, by simp [waiting], by simp [queued], by simp [queued],
          by simp [queued]⟩

theorem Sound.handler (sound : Sound state text allowList evaluate evaluateWhole events endpoint)
    (found : endpoint.calls[index]? = some call) {event : HandlerEvent}
    (stepped : endpoint.handlerStep state index call event = some next) (more : List EndpointEvent) :
    Sound state text allowList evaluate evaluateWhole (events ++ more) next := by
  obtain ⟨handler, _, _, rfl, success⟩ := handlerStep_cases stepped
  have before := sound.calls index call found
  refine sound.put found { call with cancelled := true, handler } rfl more (fun _ => id) ?_
  have later := before.frame endpoint more fun _ => id
  exact ⟨fun _ => rfl, success, later.reading, later.snapshot, later.result⟩

theorem Sound.task (sound : Sound state text allowList evaluate evaluateWhole events endpoint)
    (run : Run (step state text allowList evaluate evaluateWhole) Bracketed (SparqlEndpoint.initial state) events
      endpoint)
    (found : endpoint.calls[index]? = some call) {event : TaskEvent}
    (stepped : endpoint.taskStep state text allowList evaluate evaluateWhole index call event = some next)
    (more : List EndpointEvent) : Sound state text allowList evaluate evaluateWhole (events ++ more) next := by
  have before := sound.calls index call found
  obtain ⟨held, kind⟩ := taskStep_cases stepped
  have here (holds : QuadStore → Prop) (known : holds endpoint.store) :
      WhileRunning state text allowList evaluate evaluateWhole (events ++ more) index holds :=
    ⟨endpoint, call, run.passes_last.append more, found, held, known⟩
  have answered (task : TaskPhase) (response : RouteResponse) (same : call.handler = .answered response)
      (success : response.status = 200) :
      ∃ body, response = okResponse body ∧ task = .ended (.finished (.ok body)) := by
    obtain ⟨body, _, ended⟩ := before.answered response same success
    rw [ended] at held
    cases held
  -- it begins, takes a step of its reader, or ends
  rcases kind with ⟨_, _, task, rfl, begins⟩ | ⟨reader, own, after, caches, running, rfl, sees, read, rfl⟩ |
    ⟨outcome, rfl, source⟩
  · have live : task.holdsSlot = true := by
      rcases begins with ⟨_, rfl⟩ | ⟨_, rfl⟩ <;> rfl
    refine sound.put found { call with task } (by rw [held, live]) more (fun _ => id) ?_
    refine ⟨before.left, answered task, ?_, ?_, ?_⟩
    · intro reader same
      rcases begins with ⟨filters, rfl⟩ | ⟨_, rfl⟩
      · cases same
        exact ⟨filters, rfl, sound.store.moveTo_none rfl⟩
      · cases same
    · intro store same
      rcases begins with ⟨_, rfl⟩ | ⟨whole, rfl⟩
      · cases same
      · cases same
        exact ⟨whole, here _ rfl⟩
    · rintro body (⟨_, same⟩ | same)
      · rcases begins with ⟨_, rfl⟩ | ⟨_, rfl⟩ <;> cases same
      · rcases begins with ⟨_, rfl⟩ | ⟨_, rfl⟩ <;> cases same
  · obtain ⟨filters, asks, consistent⟩ := before.reading reader running
    -- the caches are shared, so the other readers have to agree with what this step left in them
    have readAfter := consistent.readerStep read
    have readers (other : ReaderPhase) (known : Consistent text allowList evaluate (endpoint.system other)) :
        Consistent text allowList evaluate
          (System.mk endpoint.store endpoint.writeSequence endpoint.writers caches other) :=
      readAfter.withReader known rfl rfl
    refine sound.put found { call with task := .filtered after } (by rw [held]; rfl) more readers ?_
    refine ⟨before.left, answered _, ?_, by simp, ?_⟩
    · intro other same
      cases same
      exact ⟨filters, (readerStep_asks sees read).trans asks, readAfter⟩
    · rintro body (⟨attempt, same⟩ | same)
      · -- The reader replies while the sequence is the one it has read under.
        cases same
        obtain ⟨sequence, confirming, current⟩ := @readerStep_replied_ok _ _ _ (endpoint.system reader) _ _ _ _ read
        dsimp only [SparqlEndpoint.system] at confirming current
        subst confirming
        obtain ⟨visible, listed, yields⟩ := (consistent.reader _ _ rfl).current current body rfl
        have asked : attempt.query = call.query ∧ attempt.key = allowListKey state.serializeKey call.claims :=
          Prod.mk.inj (Option.some.inj asks)
        have gives : Gives state text allowList evaluate evaluateWhole endpoint.store call body := by
          unfold Gives
          rw [if_pos filters, ← asked.1, ← asked.2]
          exact ⟨visible, listed, yields⟩
        exact here _ gives
      · cases same
  · refine sound.put found { call with task := .ended outcome } (by rw [held]; rfl) more (fun _ => id) ?_
    refine ⟨before.left, answered _, by simp, by simp, ?_⟩
    rintro body (⟨_, same⟩ | same)
    · cases same
    · cases same
      rcases source body rfl with ⟨attempt, replied⟩ | ⟨snapshot, order, running, evaluated⟩
      · exact (before.result body (.inl ⟨attempt, replied⟩)).append more
      · obtain ⟨whole, moment, asked, passes, located, holding, rfl⟩ := before.snapshot snapshot running
        have gives : Gives state text allowList evaluate evaluateWhole moment.store call body := by
          unfold Gives
          rw [whole, if_neg Bool.false_ne_true]
          exact ⟨order, evaluated⟩
        exact ⟨moment, asked, passes.append more, located, holding, gives⟩

theorem Sound.step (sound : Sound state text allowList evaluate evaluateWhole events endpoint)
    (run : Run (step state text allowList evaluate evaluateWhole) Bracketed (SparqlEndpoint.initial state) events
      endpoint)
    {event : EndpointEvent} (bracketed : endpoint.Bracketed event)
    (stepped : endpoint.step state text allowList evaluate evaluateWhole event = some next) :
    Sound state text allowList evaluate evaluateWhole (events ++ [event]) next := by
  cases event with
  | write event => exact sound.write bracketed stepped [.write event]
  | request now arrival headers query =>
    cases stepped
    exact sound.request now arrival headers query _
  | task index event =>
    obtain ⟨call, found, moved⟩ := Option.bind_eq_some_iff.mp stepped
    exact sound.task run found moved _
  | handler index event =>
    obtain ⟨call, found, moved⟩ := Option.bind_eq_some_iff.mp stepped
    exact sound.handler found moved _
  | drain =>
    cases stepped
    exact ⟨sound.slots, sound.store, fun index call found => (sound.calls index call found).frame _ _ fun _ => id⟩

theorem Sound.of_run
    (run : Run (SparqlEndpoint.step state text allowList evaluate evaluateWhole) Bracketed
      (SparqlEndpoint.initial state) events endpoint) :
    Sound state text allowList evaluate evaluateWhole events endpoint :=
  run.history Sound.initial fun _ _ _ _ earlier sound bracketed stepped => sound.step earlier bracketed stepped

end

end SparqlEndpoint

def oneSlotState : SparqlState Unit Unit :=
  ⟨⟨oneKeyLibrary, none, true⟩, { maxConcurrent := 1 }, fun _ => .ok (), fun _ => "anyone"⟩

def anyOrder : ReadOrder := ⟨id, List.Perm.refl, id, List.Perm.refl⟩

def oneSlotStep : SparqlEndpoint → EndpointEvent → Option SparqlEndpoint :=
  SparqlEndpoint.step oneSlotState .urlencoding (fun _ _ => ∅) (fun _ => .result (.ok [116])) fun _ _ _ => .ok []

end CatalogBroker
