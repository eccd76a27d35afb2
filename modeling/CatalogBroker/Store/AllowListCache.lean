import CatalogBroker.Library.Maps
import CatalogBroker.Store.Visibility

/-! Allow-lists kept between queries, finished or part way.

A finished list serves one store state for a few seconds; the progress of a cancelled
build waits for the next request of the same caller.
-/

set_option autoImplicit false

namespace CatalogBroker

open Library Maps

/-- A reading of the monotonic clock, in milliseconds. -/
abbrev Instant := Nat

def policyFilteredAttempts : Nat := 5
def writeWait : Nat := 2000
def allowListCacheTtl : Nat := 5000
def allowListCacheEntries : Nat := 64
def partialAllowListTtl : Nat := 30000

inductive SparqlError where
  | parse (message : String)
  | evaluation (message : String)
  | store (message : String)
  | unsupportedGraphResult
  | serialize (message : String)
  | cancelled
  | tooManyRows (limit : Nat)
  | storeBusy
  deriving DecidableEq, Repr

abbrev SparqlQueryResult := Except SparqlError

/-- Progress of an allow-list build that was cancelled part way. -/
structure PartialAllowList where
  writeSequence : Nat
  startedAt : Instant
  done : Finset NamedNode
  visible : VisibleIris

/-- An allow-list and the store state it was built from. -/
structure CachedAllowList where
  writeSequence : Nat
  builtAt : Instant
  visible : VisibleIris

def PartialAllowList.isFresh (progress : PartialAllowList) (now : Instant) : Bool :=
  now - progress.startedAt < partialAllowListTtl

def CachedAllowList.isFresh (entry : CachedAllowList) (writeSequence : Nat) (now : Instant) : Bool :=
  entry.writeSequence = writeSequence && now - entry.builtAt < allowListCacheTtl

/-- The order a hash map is visited in, for one visit. -/
structure HashOrder (Entry : Type) where
  visit : List (String × Entry) → List (String × Entry)
  visit_perm : ∀ entries, (visit entries).Perm entries

def HashOrder.asListed {Entry : Type} : HashOrder Entry := ⟨id, List.Perm.refl⟩

/-- Room for a new key in a full map: stale entries go, and the oldest if none was. -/
def makeRoom {Entry : Type} (entries : Std.ExtTreeMap String Entry) (key : String) (isFresh : Entry → Bool)
    (stamp : Entry → Instant) (order : HashOrder Entry) : Std.ExtTreeMap String Entry :=
  if allowListCacheEntries ≤ entries.size ∧ key ∉ entries then
    let kept := entries.filter fun _ entry => isFresh entry
    if allowListCacheEntries ≤ kept.size then
      match (order.visit kept.toList).argmin fun entry => stamp entry.2 with
      | some oldest => kept.erase oldest.1
      | none => kept
    else kept
  else entries

structure AllowListCaches where
  allowLists : Std.ExtTreeMap String CachedAllowList
  partialAllowLists : Std.ExtTreeMap String PartialAllowList

/-- The answers of the two cancellation checks around one catalog. -/
structure BuildPass where
  cancelledBefore : Bool
  cancelledAfter : Bool

/-- The clock, the cancellation checks and the map order one build meets. -/
structure BuildRun where
  takenAt : Instant
  passes : Nat → BuildPass
  cancelledAtEnd : Bool
  keptAt : Instant
  order : HashOrder PartialAllowList

/-- One pass of the loop of a build, `allowList` being the callback's answers at that pass;
whether the loop goes on. -/
def decideGraph (text : IriText) (allowList : Catalog → VisibleIris) (pass : BuildPass)
    (progress : PartialAllowList) (entry : NamedNode × GraphSnapshot) : PartialAllowList × Bool :=
  if pass.cancelledBefore then (progress, false)
  else if entry.1 ∈ progress.done then (progress, true)
  else match QuadStore.catalogOf text entry with
    | none => ({ progress with done := insert entry.1 progress.done }, true)
    | some catalog =>
      -- A cancelled callback may have answered in part, so its answer is dropped.
      if pass.cancelledAfter then (progress, false)
      else ({ progress with
        done := insert entry.1 progress.done
        visible := progress.visible ∪ allowList catalog }, true)

/-- The loop over the graphs of a snapshot; whether it ran to its end. -/
def decideGraphs (text : IriText) (allowList : Nat → Catalog → VisibleIris) (passes : Nat → BuildPass)
    (progress : PartialAllowList) : List (NamedNode × GraphSnapshot) → PartialAllowList × Bool
  | [] => (progress, true)
  | entry :: entries =>
    let (next, continues) := decideGraph text (allowList 0) (passes 0) progress entry
    if continues then
      decideGraphs text (fun pass => allowList (pass + 1)) (fun pass => passes (pass + 1)) next entries
    else (next, false)

namespace AllowListCaches

def empty : AllowListCaches := ⟨∅, ∅⟩

def cachedAllowList (caches : AllowListCaches) (key : String) (writeSequence : Nat) (now : Instant) :
    Option VisibleIris :=
  (caches.allowLists[key]?.filter fun entry => entry.isFresh writeSequence now).map CachedAllowList.visible

def rememberAllowList (caches : AllowListCaches) (key : String) (writeSequence : Nat) (visible : VisibleIris)
    (now : Instant) (order : HashOrder CachedAllowList) : AllowListCaches :=
  let room := makeRoom caches.allowLists key (fun entry => entry.isFresh writeSequence now)
    CachedAllowList.builtAt order
  { caches with allowLists := room.insert key ⟨writeSequence, now, visible⟩ }

def keepPartial (caches : AllowListCaches) (key : String) (progress : PartialAllowList) (now : Instant)
    (order : HashOrder PartialAllowList) : AllowListCaches :=
  let room := makeRoom caches.partialAllowLists key (fun entry => entry.isFresh now)
    PartialAllowList.startedAt order
  { caches with partialAllowLists := room.insert key progress }

/-- The progress kept for `key` on this store state, or none, taken out of the map either way. -/
def takeProgress (caches : AllowListCaches) (key : String) (writeSequence : Nat) (now : Instant) :
    PartialAllowList × AllowListCaches :=
  let kept := caches.partialAllowLists[key]?.filter fun progress =>
    progress.writeSequence = writeSequence && progress.isFresh now
  (kept.getD ⟨writeSequence, now, ∅, ∅⟩,
    { caches with partialAllowLists := caches.partialAllowLists.erase key })

/-- `build_allow_list` once the graphs are scanned. -/
def buildAllowList (text : IriText) (allowList : Nat → Catalog → VisibleIris) (caches : AllowListCaches)
    (key : String) (writeSequence : Nat) (graphs : List (NamedNode × GraphSnapshot)) (run : BuildRun) :
    AllowListCaches × SparqlQueryResult VisibleIris :=
  let (taken, rest) := caches.takeProgress key writeSequence run.takenAt
  let (progress, finished) := decideGraphs text allowList run.passes taken graphs
  if finished && !run.cancelledAtEnd then (rest, .ok progress.visible)
  else (rest.keepPartial key progress run.keptAt run.order, .error .cancelled)

end AllowListCaches

section

variable (text : IriText) (answer : Catalog → VisibleIris)

def decisionOn (entry : NamedNode × GraphSnapshot) : VisibleIris :=
  ((QuadStore.catalogOf text entry).map answer).getD ∅

/-- `visible` is what the catalogs of `graphs`, each read from `store` in some order, add up to. -/
def DecidedOver (store : QuadStore) (graphs : Finset NamedNode) (visible : VisibleIris) : Prop :=
  ∃ decision : NamedNode → VisibleIris,
    (∀ graph ∈ graphs, ∃ order, ∃ entry ∈ store.snapshots order none,
      entry.1 = graph ∧ decision graph = decisionOn text answer entry) ∧
    visible = graphs.biUnion decision

/-- The allow-list of a store: what the catalogs of all its graphs add up to. -/
def AllowListOf (store : QuadStore) (visible : VisibleIris) : Prop :=
  ∃ graphs : Finset NamedNode,
    (∀ name, name ∈ graphs ↔ ∃ quad ∈ store.quads, quad.graphName = .namedNode name) ∧
      DecidedOver text answer store graphs visible

variable {text answer} {store : QuadStore} {graphs : Finset NamedNode} {visible : VisibleIris}

theorem DecidedOver.empty : DecidedOver text answer store ∅ ∅ :=
  ⟨fun _ => ∅, by simp, by simp⟩

theorem DecidedOver.insert (decided : DecidedOver text answer store graphs visible) {order : ReadOrder}
    {entry : NamedNode × GraphSnapshot} (scanned : entry ∈ store.snapshots order none) (new : entry.1 ∉ graphs) :
    DecidedOver text answer store (Insert.insert entry.1 graphs) (visible ∪ decisionOn text answer entry) := by
  obtain ⟨decision, each, rfl⟩ := decided
  refine ⟨Function.update decision entry.1 (decisionOn text answer entry), ?_, ?_⟩
  · intro graph member
    rcases Finset.mem_insert.mp member with rfl | member
    · exact ⟨order, entry, scanned, rfl, Function.update_self ..⟩
    · obtain ⟨order, other, found, named, equal⟩ := each graph member
      have different : graph ≠ entry.1 := fun same => new (same ▸ member)
      exact ⟨order, other, found, named, (Function.update_of_ne different _ _).trans equal⟩
  · rw [Finset.biUnion_insert, Function.update_self, Finset.union_comm]
    refine congrArg _ (Finset.biUnion_congr rfl fun graph member => ?_)
    have different : graph ≠ entry.1 := fun same => new (same ▸ member)
    exact (Function.update_of_ne different _ _).symm

/-- What `progress` holds was decided on `store`. -/
def PartialAllowList.On (text : IriText) (answer : Catalog → VisibleIris) (store : QuadStore)
    (progress : PartialAllowList) : Prop :=
  DecidedOver text answer store progress.done progress.visible

theorem decideGraph_cases (text : IriText) (answer : Catalog → VisibleIris) (pass : BuildPass)
    (progress : PartialAllowList) (entry : NamedNode × GraphSnapshot) :
    decideGraph text answer pass progress entry = (progress, false) ∨
      (entry.1 ∈ progress.done ∧ decideGraph text answer pass progress entry = (progress, true)) ∨
      (entry.1 ∉ progress.done ∧ decideGraph text answer pass progress entry =
        ({ progress with
            done := insert entry.1 progress.done
            visible := progress.visible ∪ decisionOn text answer entry }, true)) := by
  unfold decideGraph decisionOn
  split
  · exact .inl rfl
  · split
    · rename_i known
      exact .inr (.inl ⟨known, rfl⟩)
    · rename_i new
      split
      · rename_i unreadable
        rw [unreadable, Option.map_none, Option.getD_none, Finset.union_empty]
        exact .inr (.inr ⟨new, rfl⟩)
      · rename_i catalog read
        rw [read, Option.map_some, Option.getD_some]
        split
        · exact .inl rfl
        · exact .inr (.inr ⟨new, rfl⟩)

/-- What holds of progress and survives a decided graph survives a pass; its graph is decided when the
loop goes on. -/
theorem decideGraph_keeps (Keeps : PartialAllowList → Prop) {entry : NamedNode × GraphSnapshot}
    (adds : ∀ progress, entry.1 ∉ progress.done → Keeps progress → Keeps { progress with
      done := insert entry.1 progress.done
      visible := progress.visible ∪ decisionOn text answer entry })
    (pass : BuildPass) {progress : PartialAllowList} (kept : Keeps progress) :
    let outcome := decideGraph text answer pass progress entry
    Keeps outcome.1 ∧ (outcome.2 = true → outcome.1.done = insert entry.1 progress.done) := by
  dsimp only
  rcases decideGraph_cases text answer pass progress entry with
    stopped | ⟨known, passed⟩ | ⟨new, decides⟩
  · rw [stopped]
    exact ⟨kept, by simp⟩
  · rw [passed]
    exact ⟨kept, fun _ => (Finset.insert_eq_of_mem known).symm⟩
  · rw [decides]
    exact ⟨adds progress new kept, fun _ => rfl⟩

theorem decideGraphs_keeps (Keeps : PartialAllowList → Prop) {entries : List (NamedNode × GraphSnapshot)}
    (adds : ∀ entry ∈ entries, ∀ progress, entry.1 ∉ progress.done → Keeps progress → Keeps { progress with
      done := insert entry.1 progress.done
      visible := progress.visible ∪ decisionOn text answer entry })
    (passes : Nat → BuildPass) {progress : PartialAllowList} (kept : Keeps progress) :
    let outcome := decideGraphs text (fun _ => answer) passes progress entries
    Keeps outcome.1 ∧
      (outcome.2 = true → outcome.1.done = progress.done ∪ (entries.map Prod.fst).toFinset) := by
  induction entries generalizing passes progress with
  | nil => exact ⟨kept, fun _ => by simp [decideGraphs]⟩
  | cons entry entries ih =>
    obtain ⟨head, tail⟩ := List.forall_mem_cons.mp adds
    obtain ⟨next, passed⟩ := decideGraph_keeps Keeps head (passes 0) kept
    unfold decideGraphs
    generalize decideGraph text answer (passes 0) progress entry = outcome at next passed
    obtain ⟨reached, continues⟩ := outcome
    cases continues with
    | false => exact ⟨next, by simp⟩
    | true =>
      obtain ⟨rest, restPassed⟩ := ih tail (fun pass => passes (pass + 1)) next
      refine ⟨rest, fun ended => (restPassed ended).trans ?_⟩
      rw [passed rfl, List.map_cons, List.toFinset_cons, Finset.insert_union, Finset.union_insert]

theorem decideGraphs_writeSequence (passes : Nat → BuildPass) (progress : PartialAllowList)
    (entries : List (NamedNode × GraphSnapshot)) :
    (decideGraphs text (fun _ => answer) passes progress entries).1.writeSequence = progress.writeSequence :=
  (decideGraphs_keeps (fun reached => reached.writeSequence = progress.writeSequence)
    (fun _ _ _ _ same => same) passes rfl).1

theorem decideGraphs_on {order : ReadOrder} {entries : List (NamedNode × GraphSnapshot)}
    (scanned : entries ⊆ store.snapshots order none) (passes : Nat → BuildPass) {progress : PartialAllowList}
    (decided : progress.On text answer store) :
    let outcome := decideGraphs text (fun _ => answer) passes progress entries
    outcome.1.On text answer store ∧
      (outcome.2 = true → outcome.1.done = progress.done ∪ (entries.map Prod.fst).toFinset) :=
  decideGraphs_keeps (PartialAllowList.On text answer store)
    (fun _ member _ new kept => DecidedOver.insert kept (scanned member) new) passes decided

theorem mem_snapshots_names (order : ReadOrder) {name : NamedNode} :
    name ∈ (store.snapshots order none).map Prod.fst ↔
      ∃ quad ∈ store.quads, quad.graphName = .namedNode name := by
  rw [store.snapshots_none, List.map_map]
  simp only [Function.comp_def, List.map_id', store.mem_graphNames]

theorem PartialAllowList.On.allowListOf {progress : PartialAllowList} (order : ReadOrder)
    (decided : progress.On text answer store)
    (passed : ((store.snapshots order none).map Prod.fst).toFinset ⊆ progress.done) :
    AllowListOf text answer store progress.visible := by
  refine ⟨progress.done, fun name => ?_, decided⟩
  rw [← mem_snapshots_names order]
  constructor
  · intro member
    obtain ⟨decision, each, _⟩ := decided
    obtain ⟨other, entry, scanned, rfl, _⟩ := each name member
    exact (mem_snapshots_names order).mpr ((mem_snapshots_names other).mp (List.mem_map_of_mem scanned))
  · exact fun member => passed (List.mem_toFinset.mpr member)

end

theorem getElem?_makeRoom_some {Entry : Type} {entries : Std.ExtTreeMap String Entry} {key other : String}
    {isFresh : Entry → Bool} {stamp : Entry → Instant} {order : HashOrder Entry} {entry : Entry}
    (found : (makeRoom entries key isFresh stamp order)[other]? = some entry) : entries[other]? = some entry := by
  have kept : (entries.filter fun _ entry => isFresh entry)[other]? = some entry →
      entries[other]? = some entry := by
    intro found
    exact (getElem?_filter_eq_some.mp found).1
  unfold makeRoom at found
  split at found
  · dsimp only at found
    split at found
    · split at found
      · exact kept (getElem?_erase_some found)
      · exact kept found
    · exact kept found
  · exact found

namespace AllowListCaches

variable {caches : AllowListCaches} {key other : String} {writeSequence : Nat}

theorem rememberAllowList_some {visible : VisibleIris} {now : Instant} {order : HashOrder CachedAllowList}
    {entry : CachedAllowList}
    (found : (caches.rememberAllowList key writeSequence visible now order).allowLists[other]? = some entry) :
    (other = key ∧ entry = ⟨writeSequence, now, visible⟩) ∨ caches.allowLists[other]? = some entry :=
  (getElem?_insert_some found).imp_right fun earlier => getElem?_makeRoom_some earlier.2

theorem keepPartial_some {progress entry : PartialAllowList} {now : Instant} {order : HashOrder PartialAllowList}
    (found : (caches.keepPartial key progress now order).partialAllowLists[other]? = some entry) :
    (other = key ∧ entry = progress) ∨ caches.partialAllowLists[other]? = some entry :=
  (getElem?_insert_some found).imp_right fun earlier => getElem?_makeRoom_some earlier.2

variable {text : IriText} {answer : Catalog → VisibleIris} {store : QuadStore}

theorem takeProgress_cases (caches : AllowListCaches) (key : String) (writeSequence : Nat) (now : Instant) :
    (caches.takeProgress key writeSequence now).1 = ⟨writeSequence, now, ∅, ∅⟩ ∨
      caches.partialAllowLists[key]? = some (caches.takeProgress key writeSequence now).1 ∧
        (caches.takeProgress key writeSequence now).1.writeSequence = writeSequence := by
  unfold takeProgress
  cases kept : caches.partialAllowLists[key]?.filter fun progress =>
      progress.writeSequence = writeSequence && progress.isFresh now with
  | none => exact .inl rfl
  | some progress =>
    obtain ⟨found, current⟩ := Option.filter_eq_some_iff.mp kept
    rw [Bool.and_eq_true, decide_eq_true_eq] at current
    exact .inr ⟨found, current.1⟩

/-- A build keeps progress under its own key and store state only. If the graphs it goes through
are one scan of `store`, the progress was decided on `store` and an `Ok` list is the store's. -/
theorem buildAllowList_spec (run : BuildRun) {graphs : List (NamedNode × GraphSnapshot)} {current : Prop}
    (scanned : current → ∃ order, graphs = store.snapshots order none)
    (resumed : current → ∀ progress, caches.partialAllowLists[key]? = some progress →
      progress.writeSequence = writeSequence → progress.On text answer store) :
    let outcome := caches.buildAllowList text (fun _ => answer) key writeSequence graphs run
    outcome.1.allowLists = caches.allowLists ∧
      (∀ visible, outcome.2 = .ok visible → current → AllowListOf text answer store visible) ∧
      ∀ other progress, outcome.1.partialAllowLists[other]? = some progress →
        (other = key ∧ progress.writeSequence = writeSequence ∧ (current → progress.On text answer store)) ∨
          caches.partialAllowLists[other]? = some progress := by
  -- Fresh progress has decided nothing; taken-up progress was decided on the state it is kept for.
  have start : (caches.takeProgress key writeSequence run.takenAt).1.writeSequence = writeSequence ∧
      (current → (caches.takeProgress key writeSequence run.takenAt).1.On text answer store) := by
    rcases caches.takeProgress_cases key writeSequence run.takenAt with fresh | ⟨found, same⟩
    · rw [fresh]
      exact ⟨rfl, fun _ => DecidedOver.empty⟩
    · exact ⟨same, fun now => resumed now _ found same⟩
  have erased : ∀ other progress,
      (caches.takeProgress key writeSequence run.takenAt).2.partialAllowLists[other]? = some progress →
        caches.partialAllowLists[other]? = some progress :=
    fun other progress found => getElem?_erase_some found
  unfold buildAllowList
  dsimp only
  generalize (caches.takeProgress key writeSequence run.takenAt).1 = taken at start ⊢
  have sequence : (decideGraphs text (fun _ => answer) run.passes taken graphs).1.writeSequence = writeSequence :=
    (decideGraphs_writeSequence run.passes taken graphs).trans start.1
  -- Each pass of the loop decides one more graph of the scan on this store.
  have decided : current → (decideGraphs text (fun _ => answer) run.passes taken graphs).1.On text answer store ∧
      ((decideGraphs text (fun _ => answer) run.passes taken graphs).2 = true →
        (decideGraphs text (fun _ => answer) run.passes taken graphs).1.done =
          taken.done ∪ (graphs.map Prod.fst).toFinset) := by
    intro now
    obtain ⟨order, rfl⟩ := scanned now
    exact decideGraphs_on (List.Subset.refl (store.snapshots order none)) run.passes (start.2 now)
  split
  · rename_i finished
    refine ⟨rfl, ?_, fun other progress found => .inr (erased other progress found)⟩
    intro visible equal now
    cases equal
    obtain ⟨kept, passed⟩ := decided now
    obtain ⟨order, rfl⟩ := scanned now
    refine kept.allowListOf order ?_
    rw [passed (Bool.and_eq_true_iff.mp finished).1]
    exact Finset.subset_union_right
  · refine ⟨rfl, ?_, ?_⟩
    · intro visible impossible
      cases impossible
    · intro other progress found
      rcases keepPartial_some found with ⟨same, rfl⟩ | kept
      · exact .inl ⟨same, sequence, fun now => (decided now).1⟩
      · exact .inr (erased other progress kept)

end AllowListCaches

end CatalogBroker
