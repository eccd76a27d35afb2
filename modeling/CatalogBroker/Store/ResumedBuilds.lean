import CatalogBroker.Library.Transitions
import CatalogBroker.Store.AllowListCache

/-! Allow-list builds on one store state, taking up each other's cancelled progress.

Between taking progress and leaving it a build touches nothing shared, so calls
interleave at their scan, at taking and at their end.
-/

set_option autoImplicit false

namespace CatalogBroker

open Library Library.Transitions Maps

/-- How often a scan of the store asks whether it is cancelled: every 4096 quads. -/
def QuadStore.scanChecks (store : QuadStore) : Nat := (store.quads.length + 4095) / 4096

/-- `snapshots_until` over every graph; `none` once cancelled. -/
def QuadStore.snapshotsUntil (store : QuadStore) (order : ReadOrder) (cancelled : Nat → Bool) :
    Option (List (NamedNode × GraphSnapshot)) :=
  if (List.range store.scanChecks).any cancelled then none else some (store.snapshots order none)

/-- One call of `build_allow_list`. Moments of the call are numbered; `full` is what the callback
answers for a key unless cancelled. -/
structure BuildCall (full : String → Catalog → VisibleIris) where
  key : String
  hashed : List NamedNode → List NamedNode
  hashed_perm : ∀ names, (hashed names).Perm names
  cancelled : Nat → Bool
  stays : ∀ moment, cancelled moment = true → cancelled (moment + 1) = true
  allowList : Nat → Catalog → VisibleIris
  answers : ∀ moment catalog,
    allowList moment catalog = full key catalog ∨
      cancelled moment = true ∧ allowList moment catalog ⊆ full key catalog
  takenAt : Instant
  keptAt : Instant
  room : HashOrder PartialAllowList

namespace BuildCall

variable {full : String → Catalog → VisibleIris} (call : BuildCall full)

/-- The store is read in its own order; the graphs of a snapshot come in the order of a hash map. -/
def order (stored : ReadOrder) : ReadOrder :=
  { stored with hashed := call.hashed, hashed_perm := call.hashed_perm }

/-- A pass checks the token, has the callback answer, and checks again, after `scanChecks` moments of scanning. -/
def run (scanChecks graphs : Nat) : BuildRun where
  takenAt := call.takenAt
  passes pass :=
    ⟨call.cancelled (scanChecks + 3 * pass), call.cancelled (scanChecks + 3 * pass + 2)⟩
  cancelledAtEnd := call.cancelled (scanChecks + 3 * graphs)
  keptAt := call.keptAt
  order := call.room

def answer (scanChecks : Nat) (pass : Nat) : Catalog → VisibleIris :=
  call.allowList (scanChecks + 3 * pass + 1)

end BuildCall

/-- What a build does once it has its progress. -/
def AllowListCaches.finishBuild (text : IriText) (allowList : Nat → Catalog → VisibleIris) (caches : AllowListCaches)
    (key : String) (graphs : List (NamedNode × GraphSnapshot)) (run : BuildRun) (taken : PartialAllowList) :
    AllowListCaches × SparqlQueryResult VisibleIris :=
  let (progress, finished) := decideGraphs text allowList run.passes taken graphs
  if finished && !run.cancelledAtEnd then (caches, .ok progress.visible)
  else (caches.keepPartial key progress run.keptAt run.order, .error .cancelled)

theorem AllowListCaches.buildAllowList_eq (text : IriText) (allowList : Nat → Catalog → VisibleIris)
    (caches : AllowListCaches) (key : String) (writeSequence : Nat) (graphs : List (NamedNode × GraphSnapshot))
    (run : BuildRun) :
    caches.buildAllowList text allowList key writeSequence graphs run =
      (caches.takeProgress key writeSequence run.takenAt).2.finishBuild text allowList key graphs run
        (caches.takeProgress key writeSequence run.takenAt).1 := rfl

inductive BuildPhase where
  | called
  | scanned (graphs : List (NamedNode × GraphSnapshot))
  | deciding (graphs : List (NamedNode × GraphSnapshot)) (taken : PartialAllowList)
  | replied (reply : SparqlQueryResult VisibleIris)

inductive BuildEvent where
  | scan (index : Nat)
  | scanFails (index : Nat) (message : String)
  | take (index : Nat)
  | finish (index : Nat)

structure Builds where
  caches : AllowListCaches
  phases : Nat → BuildPhase

namespace Builds

def initial (caches : AllowListCaches) : Builds := ⟨caches, fun _ => .called⟩

def enter (builds : Builds) (index : Nat) (phase : BuildPhase) (caches : AllowListCaches) : Builds :=
  ⟨caches, Function.update builds.phases index phase⟩

variable {full : String → Catalog → VisibleIris} (text : IriText) (store : QuadStore) (stored : ReadOrder)
  (writeSequence : Nat) (calls : Nat → BuildCall full)

def step (builds : Builds) : BuildEvent → Option Builds
  | .scan index => match builds.phases index with
    | .called => match store.snapshotsUntil ((calls index).order stored) (calls index).cancelled with
      | none => some (builds.enter index (.replied (.error .cancelled)) builds.caches)
      | some graphs => some (builds.enter index (.scanned graphs) builds.caches)
    | _ => none
  | .scanFails index message => match builds.phases index with
    | .called => some (builds.enter index (.replied (.error (.store message))) builds.caches)
    | _ => none
  -- from here to the end other calls may take and keep progress of their own
  | .take index => match builds.phases index with
    | .scanned graphs =>
      let (taken, caches) :=
        builds.caches.takeProgress (calls index).key writeSequence (calls index).takenAt
      some (builds.enter index (.deciding graphs taken) caches)
    | _ => none
  | .finish index => match builds.phases index with
    | .deciding graphs taken =>
      let (caches, reply) := builds.caches.finishBuild text ((calls index).answer store.scanChecks) (calls index).key
        graphs ((calls index).run store.scanChecks graphs.length) taken
      some (builds.enter index (.replied reply) caches)
    | _ => none

end Builds

/-- The catalogs of the store that can be decoded. -/
def QuadStore.decodable (store : QuadStore) (text : IriText) (stored : ReadOrder) : List Catalog :=
  (store.snapshots stored none).filterMap (catalogOf text)

/-! ## Cancelled answers are never kept -/

section

variable {text : IriText} {answer : Catalog → VisibleIris}

theorem decideGraph_full {answered : Catalog → VisibleIris} {pass : BuildPass}
    (exact : pass.cancelledAfter = false → answered = answer) (progress : PartialAllowList)
    (entry : NamedNode × GraphSnapshot) :
    decideGraph text answered pass progress entry = decideGraph text answer pass progress entry := by
  cases after : pass.cancelledAfter with
  | false => rw [exact after]
  | true => simp only [decideGraph, after, if_true]

/-- A loop whose uncancelled passes have the full answer is one whose every pass has it. -/
theorem decideGraphs_full {answered : Nat → Catalog → VisibleIris} {passes : Nat → BuildPass}
    (exact : ∀ pass, (passes pass).cancelledAfter = false → answered pass = answer) (progress : PartialAllowList)
    (entries : List (NamedNode × GraphSnapshot)) :
    decideGraphs text answered passes progress entries =
      decideGraphs text (fun _ => answer) passes progress entries := by
  induction entries generalizing answered passes progress with
  | nil => rfl
  | cons entry entries ih =>
    simp only [decideGraphs]
    rw [decideGraph_full (exact 0)]
    split
    · exact ih (fun pass => exact (pass + 1)) _
    · rfl

end

theorem BuildCall.answer_full {full : String → Catalog → VisibleIris} (call : BuildCall full) (scanChecks graphs : Nat)
    (pass : Nat) (uncancelled : ((call.run scanChecks graphs).passes pass).cancelledAfter = false) :
    call.answer scanChecks pass = full call.key := by
  funext catalog
  rcases call.answers (scanChecks + 3 * pass + 1) catalog with whole | ⟨cancelled, _⟩
  · exact whole
  · have after := call.stays _ cancelled
    -- The token of this call was set before the second check, which would have seen it.
    exact absurd (uncancelled.symm.trans after) Bool.false_ne_true

/-! ## Progress on an unchanged store -/

def QuadStore.graphSet (store : QuadStore) : Finset NamedNode := (store.quads.filterMap Quad.graph?).toFinset

def QuadStore.decisionAt (store : QuadStore) (text : IriText) (stored : ReadOrder) (answer : Catalog → VisibleIris)
    (name : NamedNode) : VisibleIris :=
  decisionOn text answer (name, ⟨(stored.scan store.quads).filter fun quad => quad.graph? = some name⟩)

/-- The catalogs already decided are graphs of the store, and nothing else is on the list so far. -/
structure PartialAllowList.DecidedBy (decision : NamedNode → VisibleIris) (graphs : Finset NamedNode)
    (progress : PartialAllowList) : Prop where
  among : progress.done ⊆ graphs
  adds : progress.visible = progress.done.biUnion decision

section

variable {text : IriText} {store : QuadStore} {stored : ReadOrder} {answer : Catalog → VisibleIris}

theorem mem_snapshots_call {full : String → Catalog → VisibleIris} {call : BuildCall full}
    {entry : NamedNode × GraphSnapshot} (scanned : entry ∈ store.snapshots (call.order stored) none) :
    entry.1 ∈ store.graphSet ∧ decisionOn text answer entry = store.decisionAt text stored answer entry.1 := by
  rw [store.snapshots_none] at scanned
  obtain ⟨name, visited, rfl⟩ := List.mem_map.mp scanned
  constructor
  · simpa only [QuadStore.graphSet, List.mem_toFinset, List.mem_filterMap, Quad.graph?_eq_some_iff] using
      (store.mem_graphNames _).mp visited
  · rfl

theorem graphSet_subset_snapshots (order : ReadOrder) :
    store.graphSet ⊆ ((store.snapshots order none).map Prod.fst).toFinset := by
  intro name member
  rw [List.mem_toFinset, mem_snapshots_names]
  simpa only [QuadStore.graphSet, List.mem_toFinset, List.mem_filterMap, Quad.graph?_eq_some_iff] using member

theorem PartialAllowList.DecidedBy.fresh (decision : NamedNode → VisibleIris) (graphs : Finset NamedNode)
    (writeSequence : Nat) (now : Instant) : DecidedBy decision graphs ⟨writeSequence, now, ∅, ∅⟩ :=
  ⟨Finset.empty_subset _, rfl⟩

theorem PartialAllowList.DecidedBy.insert {decision : NamedNode → VisibleIris} {graphs : Finset NamedNode}
    {progress : PartialAllowList} (decided : progress.DecidedBy decision graphs) {name : NamedNode}
    (held : name ∈ graphs) {added : VisibleIris} (same : added = decision name) :
    DecidedBy decision graphs { progress with
      done := Insert.insert name progress.done
      visible := progress.visible ∪ added } where
  among := Finset.insert_subset held decided.among
  adds := by
    dsimp only
    rw [same, decided.adds, Finset.biUnion_insert, Finset.union_comm]

/-- A finished build has the whole list; a cancelled one leaves progress of the same kind. -/
theorem AllowListCaches.finishBuild_cases {full : String → Catalog → VisibleIris} (caches : AllowListCaches)
    {call : BuildCall full} {graphs : List (NamedNode × GraphSnapshot)} {taken : PartialAllowList}
    (scanned : graphs = store.snapshots (call.order stored) none)
    (decided : taken.DecidedBy (store.decisionAt text stored (full call.key)) store.graphSet) :
    let outcome := caches.finishBuild text (call.answer store.scanChecks) call.key graphs
      (call.run store.scanChecks graphs.length) taken
    outcome = (caches, .ok (store.graphSet.biUnion (store.decisionAt text stored (full call.key)))) ∨
      ∃ progress, progress.writeSequence = taken.writeSequence ∧
        progress.DecidedBy (store.decisionAt text stored (full call.key)) store.graphSet ∧
        outcome = (caches.keepPartial call.key progress call.keptAt call.room, .error .cancelled) := by
  dsimp only [finishBuild]
  -- An answer cut short by the cancellation is dropped, so the callback may be taken to answer in full.
  rw [decideGraphs_full (call.answer_full store.scanChecks graphs.length)]
  generalize (call.run store.scanChecks graphs.length).passes = passes
  have sequence : (decideGraphs text (fun _ => full call.key) passes taken graphs).1.writeSequence =
      taken.writeSequence := decideGraphs_writeSequence passes taken graphs
  have each : ∀ entry ∈ graphs, ∀ progress : PartialAllowList, entry.1 ∉ progress.done →
      progress.DecidedBy (store.decisionAt text stored (full call.key)) store.graphSet →
      PartialAllowList.DecidedBy (store.decisionAt text stored (full call.key)) store.graphSet { progress with
        done := insert entry.1 progress.done
        visible := progress.visible ∪ decisionOn text (full call.key) entry } := by
    intro entry member progress _ decided
    rw [scanned] at member
    obtain ⟨held, same⟩ := mem_snapshots_call member
    exact decided.insert held same
  have kept := decideGraphs_keeps _ each passes decided
  generalize decideGraphs text (fun _ => full call.key) passes taken graphs = outcome at sequence kept ⊢
  obtain ⟨progress, finished⟩ := outcome
  obtain ⟨decided, passed⟩ := kept
  dsimp only at sequence passed ⊢
  split
  · rename_i ended
    -- The loop ran to its end: every graph of the scan is decided, by this build or by those before it.
    have every : progress.done = store.graphSet := by
      apply decided.among.antisymm
      rw [passed (Bool.and_eq_true_iff.mp ended).1, scanned]
      exact (graphSet_subset_snapshots _).trans Finset.subset_union_right
    left
    rw [decided.adds, every]
  · exact .inr ⟨progress, sequence, decided, rfl⟩

end

/-! ## Runs -/

namespace Builds

variable {full : String → Catalog → VisibleIris} {text : IriText} {store : QuadStore} {stored : ReadOrder}
  {writeSequence : Nat} {calls : Nat → BuildCall full}

def wholeList (text : IriText) (store : QuadStore) (stored : ReadOrder) (call : BuildCall full) : VisibleIris :=
  store.graphSet.biUnion (store.decisionAt text stored (full call.key))

/-- What a call holds in its phase is true of the store. -/
def PhaseExact (text : IriText) (store : QuadStore) (stored : ReadOrder) (writeSequence : Nat)
    (call : BuildCall full) : BuildPhase → Prop
  | .called => True
  | .scanned graphs => graphs = store.snapshots (call.order stored) none
  | .deciding graphs taken => graphs = store.snapshots (call.order stored) none ∧
      taken.writeSequence = writeSequence ∧
      taken.DecidedBy (store.decisionAt text stored (full call.key)) store.graphSet
  | .replied reply => ∀ visible, reply = .ok visible → visible = wholeList text store stored call

/-- Progress kept for a call's key on this store state is true of the store, whichever call left it. -/
def CachesExact (text : IriText) (store : QuadStore) (stored : ReadOrder) (writeSequence : Nat)
    (calls : Nat → BuildCall full) (caches : AllowListCaches) : Prop :=
  ∀ index progress, caches.partialAllowLists[(calls index).key]? = some progress →
    progress.writeSequence = writeSequence →
    progress.DecidedBy (store.decisionAt text stored (full (calls index).key)) store.graphSet

structure Exact (text : IriText) (store : QuadStore) (stored : ReadOrder) (writeSequence : Nat)
    (calls : Nat → BuildCall full) (builds : Builds) : Prop where
  caches : CachesExact text store stored writeSequence calls builds.caches
  phases : ∀ index, PhaseExact text store stored writeSequence (calls index) (builds.phases index)

theorem Exact.enter {builds : Builds} (exact : builds.Exact text store stored writeSequence calls) {index : Nat}
    {phase : BuildPhase} {caches : AllowListCaches}
    (kept : CachesExact text store stored writeSequence calls caches)
    (entered : PhaseExact text store stored writeSequence (calls index) phase) :
    (builds.enter index phase caches).Exact text store stored writeSequence calls where
  caches := kept
  phases := by
    intro other
    unfold Builds.enter
    dsimp only
    by_cases same : other = index
    · subst same
      rw [Function.update_self]
      exact entered
    · rw [Function.update_of_ne same]
      exact exact.phases other

theorem CachesExact.takeProgress {caches : AllowListCaches}
    (kept : CachesExact text store stored writeSequence calls caches) (key : String) (now : Instant) :
    CachesExact text store stored writeSequence calls (caches.takeProgress key writeSequence now).2 :=
  fun index progress found => kept index progress (getElem?_erase_some found)

theorem CachesExact.taken {caches : AllowListCaches}
    (kept : CachesExact text store stored writeSequence calls caches) (index : Nat) (now : Instant) :
    let taken := (caches.takeProgress (calls index).key writeSequence now).1
    taken.writeSequence = writeSequence ∧
      taken.DecidedBy (store.decisionAt text stored (full (calls index).key)) store.graphSet := by
  rcases caches.takeProgress_cases (calls index).key writeSequence now with fresh | ⟨found, same⟩
  · rw [fresh]
    exact ⟨rfl, .fresh _ _ writeSequence now⟩
  · exact ⟨same, kept index _ found same⟩

theorem CachesExact.keepPartial {caches : AllowListCaches}
    (kept : CachesExact text store stored writeSequence calls caches) {key : String} {progress : PartialAllowList}
    (decided : progress.DecidedBy (store.decisionAt text stored (full key)) store.graphSet) (now : Instant)
    (room : HashOrder PartialAllowList) :
    CachesExact text store stored writeSequence calls (caches.keepPartial key progress now room) := by
  intro index other found current
  rcases AllowListCaches.keepPartial_some found with ⟨same, rfl⟩ | earlier
  · rw [same]
    exact decided
  · exact kept index other earlier current

theorem step_exact {builds next : Builds} {event : BuildEvent}
    (exact : builds.Exact text store stored writeSequence calls)
    (steps : builds.step text store stored writeSequence calls event = some next) :
    next.Exact text store stored writeSequence calls := by
  cases event with
  | scan index =>
    simp only [step] at steps
    split at steps
    · unfold QuadStore.snapshotsUntil at steps
      split at steps
      · rename_i stopped
        cases steps
        exact exact.enter exact.caches (by intro visible ok; cases ok)
      · rename_i graphs scanned
        cases steps
        split at scanned
        · cases scanned
        · exact exact.enter exact.caches (Option.some.inj scanned).symm
    · cases steps
  | scanFails index message =>
    simp only [step] at steps
    split at steps
    · cases steps
      exact exact.enter exact.caches (by intro visible ok; cases ok)
    · cases steps
  | take index =>
    simp only [step] at steps
    split at steps
    · rename_i graphs phase
      cases steps
      -- The progress taken up is that of any earlier build of the same key on this store.
      have scanned := exact.phases index
      rw [phase] at scanned
      exact exact.enter (exact.caches.takeProgress _ _) ⟨scanned, exact.caches.taken index _⟩
    · cases steps
  | finish index =>
    simp only [step] at steps
    split at steps
    · rename_i graphs taken phase
      cases steps
      have held := exact.phases index
      rw [phase] at held
      obtain ⟨scanned, _, decided⟩ := held
      -- Finished, the list is whole; cancelled, what is kept is again decided on this store.
      rcases builds.caches.finishBuild_cases scanned decided with whole | ⟨progress, _, later, cancelled⟩
      · rw [whole]
        refine exact.enter exact.caches ?_
        intro visible ok
        cases ok
        rfl
      · rw [cancelled]
        exact exact.enter (exact.caches.keepPartial later _ _) (by intro visible ok; cases ok)
    · cases steps

theorem mem_wholeList {call : BuildCall full} {iri : String} :
    iri ∈ wholeList text store stored call ↔
      ∃ catalog ∈ store.decodable text stored, iri ∈ full call.key catalog := by
  have visited (name : NamedNode) : name ∈ store.graphSet ↔ name ∈ store.graphNames stored := by
    simp only [QuadStore.graphSet, List.mem_toFinset, List.mem_filterMap, Quad.graph?_eq_some_iff,
      store.mem_graphNames]
  simp only [wholeList, Finset.mem_biUnion, visited, QuadStore.decisionAt, decisionOn, QuadStore.decodable,
    store.snapshots_none, List.filterMap_map, List.mem_filterMap, Function.comp_def]
  constructor
  · rintro ⟨name, held, listed⟩
    cases read : QuadStore.catalogOf text (name,
        ⟨(stored.scan store.quads).filter fun quad => quad.graph? = some name⟩) with
    | none =>
      rw [read] at listed
      exact absurd listed (Finset.notMem_empty _)
    | some catalog =>
      rw [read] at listed
      exact ⟨catalog, ⟨name, held, read⟩, listed⟩
  · rintro ⟨catalog, ⟨name, held, read⟩, listed⟩
    refine ⟨name, held, ?_⟩
    rw [read]
    exact listed

end Builds

/-- Every list a build returns is the whole one: what earlier calls left of their work, in whatever order they
were cancelled, is neither lost nor counted for more than it is. -/
theorem resumed_builds_exact (text : IriText) (full : String → Catalog → VisibleIris) (store : QuadStore)
    (stored : ReadOrder) (writeSequence : Nat) (calls : Nat → BuildCall full) (caches : AllowListCaches)
    (older : ∀ index progress, caches.partialAllowLists[(calls index).key]? = some progress →
      progress.writeSequence ≠ writeSequence)
    {events : List BuildEvent} {last : Builds}
    (run : Run (Builds.step text store stored writeSequence calls) (fun _ _ => True) (.initial caches) events last)
    (index : Nat) (visible : VisibleIris) (returned : last.phases index = .replied (.ok visible)) (iri : String) :
    iri ∈ visible ↔ ∃ catalog ∈ store.decodable text stored, iri ∈ full (calls index).key catalog := by
  have start : (Builds.initial caches).Exact text store stored writeSequence calls := by
    constructor
    · intro index progress found current
      exact absurd current (older index progress found)
    · intro index
      trivial
  have exact := run.invariant (fun _ _ _ exact _ steps => Builds.step_exact exact steps) start
  have whole := exact.phases index
  rw [returned] at whole
  rw [whole visible rfl, Builds.mem_wholeList]

/-- Two calls for one key. The first is cancelled once it has decided one catalog. -/
def twoBuilds (answer : Catalog → VisibleIris) (scanChecks : Nat) (index : Nat) : BuildCall fun _ => answer where
  key := "caller"
  hashed := id
  hashed_perm := List.Perm.refl
  cancelled moment := decide (index = 0 ∧ scanChecks + 2 < moment)
  stays moment := by
    simp only [decide_eq_true_eq]
    omega
  allowList moment catalog := if index = 0 ∧ scanChecks + 2 < moment then ∅ else answer catalog
  answers moment catalog := by
    split
    · rename_i cancelled
      exact .inr ⟨decide_eq_true cancelled, Finset.empty_subset _⟩
    · exact .inl rfl
  takenAt := 0
  keptAt := 0
  room := .asListed

def storedOrder : ReadOrder := ⟨id, List.Perm.refl, id, List.Perm.refl⟩

def plainCatalog (id : String) : Catalog where
  id
  originNode := ⟨"did:web:" ++ id⟩
  participantId := none
  properties := ∅
  dataServices := []
  datasets := []

def twoCatalogs : QuadStore := storeAfter .urlencoding [.store (plainCatalog "first"), .store (plainCatalog "second")]

def Builds.visibleTo (builds : Builds) (index : Nat) : Option VisibleIris :=
  match builds.phases index with
  | .replied (.ok visible) => some visible
  | _ => none

theorem Builds.visibleTo_eq_some {builds : Builds} {index : Nat} {visible : VisibleIris}
    (replied : builds.visibleTo index = some visible) : builds.phases index = .replied (.ok visible) := by
  unfold visibleTo at replied
  split at replied
  · rename_i answer phase
    cases replied
    exact phase
  · cases replied

def cancelledBuild : List BuildEvent := [.scan 0, .take 0, .finish 0]

def resumingBuild : List BuildEvent := [.scan 1, .take 1, .finish 1]

/-- The second call takes up the catalog that the first has decided, and returns both. -/
theorem twoCatalogs_resumed :
    let calls := twoBuilds (fun catalog => {catalog.id}) twoCatalogs.scanChecks
    ∃ kept progress last visible,
      Run (Builds.step .urlencoding twoCatalogs storedOrder 0 calls) (fun _ _ => True) (.initial .empty)
        cancelledBuild kept ∧
      kept.caches.partialAllowLists["caller"]? = some progress ∧ progress.done.card = 1 ∧
      Run (Builds.step .urlencoding twoCatalogs storedOrder 0 calls) (fun _ _ => True) kept
        resumingBuild last ∧
      last.phases 1 = .replied (.ok visible) ∧
      ∀ iri, iri ∈ visible ↔ ∃ catalog ∈ twoCatalogs.decodable .urlencoding storedOrder, iri = catalog.id := by
  intro calls
  have first : (cancelledBuild.foldlM (Builds.step .urlencoding twoCatalogs storedOrder 0 calls)
      (.initial .empty)).bind (fun builds => builds.caches.partialAllowLists["caller"]?.map fun progress =>
        progress.done.card) = some 1 := by
    decide +kernel
  have both : ((cancelledBuild ++ resumingBuild).foldlM
      (Builds.step .urlencoding twoCatalogs storedOrder 0 calls) (.initial .empty)).bind (Builds.visibleTo · 1) =
        some {"first", "second"} := by
    decide +kernel
  obtain ⟨kept, taken, decided⟩ := Option.bind_eq_some_iff.mp first
  obtain ⟨progress, held, one⟩ := Option.map_eq_some_iff.mp decided
  obtain ⟨last, all, replied⟩ := Option.bind_eq_some_iff.mp both
  rw [List.foldlM_append, taken] at all
  have before := Run.of_foldlM taken
  have after := Run.of_foldlM all
  have replied := Builds.visibleTo_eq_some replied
  refine ⟨kept, progress, last, _, before, held, one, after, replied, fun iri => ?_⟩
  have older : ∀ index progress, AllowListCaches.empty.partialAllowLists[(calls index).key]? = some progress →
      progress.writeSequence ≠ 0 := by
    intro index progress found
    simp [AllowListCaches.empty] at found
  have exact := resumed_builds_exact .urlencoding _ twoCatalogs storedOrder 0 calls .empty older
    (before.append after) 1 _ replied iri
  simpa only [Finset.mem_singleton] using exact

end CatalogBroker
