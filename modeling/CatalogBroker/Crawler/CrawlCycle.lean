import CatalogBroker.Crawler.Collect
import CatalogBroker.Library.KeyedPass
import CatalogBroker.Store.CacheRefinement
import CatalogBroker.Store.AllowListCache

/-! One crawl cycle: every participant crawled at the same time, the summary in participant order. -/

set_option autoImplicit false

namespace CatalogBroker

open Library

abbrev SystemTime := Nat

def StoreError.display : StoreError → String
  | .backend message => "catalog store backend error: " ++ message

/-- `CatalogCache::upsert`: an answer of `Err` leaves the cache as it was. -/
def Contents.upsert (contents : Contents) (catalog : Catalog) : StoreResult Unit → Contents
  | .ok () => Function.update contents catalog.originNode (some catalog)
  | .error _ => contents

def Contents.delete (contents : Contents) (node : NodeId) : StoreResult Bool → Contents
  | .ok _ => Function.update contents node none
  | .error _ => contents

theorem Represents.upsert {text : IriText} {store : QuadStore} {contents : Contents}
    (represents : Represents text store contents) (catalog : Catalog) :
    Represents text (store.storeCatalog text catalog).1
      (contents.upsert catalog (store.storeCatalog text catalog).2) := by
  by_cases nests : catalog.NestsWithin maxConstraintDepth
  · obtain ⟨answered, stored⟩ := represents.storeCatalog_fits nests
    rw [answered]
    exact stored
  · obtain ⟨error, refused⟩ := QuadStore.storeCatalog_refused text store nests
    rw [refused]
    exact represents

theorem Represents.delete {text : IriText} {store : QuadStore} {contents : Contents}
    (represents : Represents text store contents) (node : NodeId) :
    Represents text (store.removeCatalog text node).1 (contents.delete node (store.removeCatalog text node).2) := by
  obtain ⟨answered, removed⟩ := represents.removeCatalog_eq node
  rw [answered]
  exact removed

/-- What one participant's crawl meets: the body its fetch ends with, and how the cache answers. -/
structure Crawl where
  fetched : Except String Json
  freshId : String
  upserted : StoreResult Unit
  finishedAt : SystemTime
  finishedInstant : Instant

def crawlOne (participant : ParticipantEntry) (crawl : Crawl) : Except String Catalog :=
  crawl.fetched.map fun body => parseCatalogResponse crawl.freshId body participant

def crawlAndCache (participant : ParticipantEntry) (crawl : Crawl) (contents : Contents) :
    Contents × Except String Unit :=
  match crawlOne participant crawl with
  | .error e => (contents, .error e)
  | .ok catalog => (contents.upsert catalog crawl.upserted,
      crawl.upserted.mapError fun e => "failed to cache crawl result: " ++ e.display)

structure Outcome where
  result : Except String Unit
  finishedAt : SystemTime
  finishedInstant : Instant

structure CrawlSummary where
  attempted : Nat := 0
  succeeded : Nat := 0
  failed : Nat := 0
  succeededIds : List String := []
  failures : List (String × String) := []
  finishedAt : Std.ExtTreeMap String SystemTime := ∅
  finishedInstants : Std.ExtTreeMap String Instant := ∅

def CrawlSummary.add (summary : CrawlSummary) (entry : ParticipantEntry × Outcome) : CrawlSummary :=
  let id := entry.1.id
  let timed := { summary with
    attempted := summary.attempted + 1
    finishedAt := summary.finishedAt.insert id entry.2.finishedAt
    finishedInstants := summary.finishedInstants.insert id entry.2.finishedInstant }
  match entry.2.result with
  | .ok () => { timed with succeeded := timed.succeeded + 1, succeededIds := timed.succeededIds ++ [id] }
  | .error e => { timed with failed := timed.failed + 1, failures := timed.failures ++ [(id, e)] }

/-- One cycle's crawls by participant index, the orders their upserts and their ends come in, the clocks
afterwards, and how the cache answers a delete. -/
structure CycleRun where
  crawls : Nat → Crawl
  written : List (Nat × ParticipantEntry) → List (Nat × ParticipantEntry)
  written_perm : ∀ crawls, (written crawls).Perm crawls
  completed : List (Nat × ParticipantEntry) → List (Nat × ParticipantEntry)
  completed_perm : ∀ crawls, (completed crawls).Perm crawls
  now : Instant
  hashed : HashOrder Instant
  deleted : String → StoreResult Bool
  cycleEnd : SystemTime

def crawlOnce (participants : List ParticipantEntry) (run : CycleRun) (contents : Contents) :
    Contents × CrawlSummary :=
  let crawls := participants.mapIdx Prod.mk
  let cached := (run.written crawls).foldl (fun contents (index, participant) =>
    (crawlAndCache participant (run.crawls index) contents).1) contents
  -- What a crawl ends with does not depend on what else is cached.
  let outcomes := (run.completed crawls).map fun (index, participant) =>
    let crawl := run.crawls index
    (index, (⟨(crawlAndCache participant crawl contents).2, crawl.finishedAt, crawl.finishedInstant⟩ : Outcome))
  (cached, (participants.zip (Listing.inSequence outcomes)).foldl CrawlSummary.add {})

def Crawl.cached (participant : ParticipantEntry) (crawl : Crawl) : Option (Catalog × Instant) :=
  match crawlOne participant crawl, crawl.upserted with
  | .ok catalog, .ok () => some (catalog, crawl.finishedInstant)
  | _, _ => none

def crawledIn (participants : List ParticipantEntry) (run : CycleRun) (id : String) : Option (Catalog × Instant) :=
  ((participants.mapIdx Prod.mk).find? fun entry => entry.2.id = id).bind fun entry =>
    (run.crawls entry.1).cached entry.2

def Crawl.outcome (participant : ParticipantEntry) (crawl : Crawl) : Outcome :=
  ⟨(crawlAndCache participant crawl fun _ => none).2, crawl.finishedAt, crawl.finishedInstant⟩

section

variable {participants : List ParticipantEntry} {participant : ParticipantEntry} {crawl : Crawl} {run : CycleRun}
  {contents : Contents}

theorem crawlAndCache_result (contents : Contents) :
    (crawlAndCache participant crawl contents).2 = (crawl.outcome participant).result := by
  unfold Crawl.outcome crawlAndCache
  cases crawlOne participant crawl with
  | error e => rfl
  | ok catalog => rfl

theorem crawlAndCache_contents (found : String) : (crawlAndCache participant crawl contents).1 ⟨found⟩ =
    if participant.id = found then ((crawl.cached participant).map Prod.fst).or (contents ⟨found⟩)
    else contents ⟨found⟩ := by
  unfold crawlAndCache Crawl.cached
  cases fetched : crawlOne participant crawl with
  | error e => simp
  | ok catalog =>
    -- a crawled catalog is filed under its participant
    have own : catalog.originNode = ⟨participant.id⟩ := by
      unfold crawlOne at fetched
      cases body : crawl.fetched with
      | error e =>
        rw [body] at fetched
        cases fetched
      | ok body =>
        rw [body] at fetched
        cases fetched
        rfl
    cases answered : crawl.upserted with
    | error e => simp [Contents.upsert]
    | ok done =>
      by_cases same : participant.id = found
      · subst same
        simp [Contents.upsert, own]
      · have apart : (⟨found⟩ : NodeId) ≠ catalog.originNode := by
          rw [own]
          exact fun equal => same (congrArg NodeId.id equal).symm
        simp [Contents.upsert, Function.update_of_ne apart, same]

theorem outcome_isOk : (crawl.outcome participant).result.isOk = (crawl.cached participant).isSome := by
  unfold Crawl.outcome crawlAndCache Crawl.cached
  cases crawlOne participant crawl with
  | error e => rfl
  | ok catalog => cases answered : crawl.upserted <;> rfl

theorem crawledIn_cases (participants : List ParticipantEntry) (run : CycleRun) (id : String) :
    (∃ entry ∈ participants.mapIdx Prod.mk, entry.2.id = id ∧
      crawledIn participants run id = (run.crawls entry.1).cached entry.2) ∨
    id ∉ (participants.mapIdx Prod.mk).map (fun entry => entry.2.id) ∧ crawledIn participants run id = none := by
  unfold crawledIn
  cases found : (participants.mapIdx Prod.mk).find? fun entry => entry.2.id = id with
  | none =>
    right
    refine ⟨?_, rfl⟩
    rw [List.find?_eq_none] at found
    intro listed
    obtain ⟨entry, member, same⟩ := List.mem_map.mp listed
    exact found entry member (decide_eq_true same)
  | some entry =>
    left
    have same := List.find?_some found
    exact ⟨entry, List.mem_of_find?_eq_some found, of_decide_eq_true same, rfl⟩

theorem map_id_mapIdx : (participants.mapIdx Prod.mk).map (fun entry => entry.2.id) =
    participants.map ParticipantEntry.id := by
  rw [Listing.map_mapIdx]
  exact Listing.mapIdx_eq_map _ _

/-- Whatever order the upserts come in, each node has its own participant's catalog. -/
theorem crawlOnce_contents (distinct : (participants.map ParticipantEntry.id).Nodup) (id : String) :
    (crawlOnce participants run contents).1 ⟨id⟩ =
      ((crawledIn participants run id).map Prod.fst).or (contents ⟨id⟩) := by
  have ids : ((run.written (participants.mapIdx Prod.mk)).map fun entry => entry.2.id).Perm
      ((participants.mapIdx Prod.mk).map fun entry => entry.2.id) :=
    (run.written_perm _).map _
  let read (held : Contents) (id : String) := held ⟨id⟩
  let change (entry : Nat × ParticipantEntry) (held : Option Catalog) :=
    (((run.crawls entry.1).cached entry.2).map Prod.fst).or held
  have steps (held : Contents) (entry : Nat × ParticipantEntry) (found : String) :
      read (crawlAndCache entry.2 (run.crawls entry.1) held).1 found =
        if entry.2.id = found then change entry (read held found) else read held found :=
    crawlAndCache_contents found
  -- Distinct ids: one upsert at most is for this id, whatever stands before and after it.
  rcases crawledIn_cases participants run id with ⟨entry, member, rfl, crawled⟩ | ⟨absent, crawled⟩
  · rw [crawled]
    apply KeyedPass.foldl_of_mem read change steps _ ((run.written_perm _).mem_iff.mpr member) contents
    rw [ids.nodup_iff, map_id_mapIdx]
    exact distinct
  · rw [crawled]
    exact KeyedPass.foldl_of_not_mem read change steps (fun listed => absent (ids.mem_iff.mp listed)) contents

def outcomesOf (participants : List ParticipantEntry) (crawls : Nat → Crawl) : List (ParticipantEntry × Outcome) :=
  participants.mapIdx fun index participant => (participant, (crawls index).outcome participant)

/-- The order crawls end in leaves no trace. -/
theorem crawlOnce_summary : (crawlOnce participants run contents).2 =
    (outcomesOf participants run.crawls).foldl CrawlSummary.add {} := by
  unfold crawlOnce
  dsimp only
  have outcome (entry : Nat × ParticipantEntry) :
      (⟨(crawlAndCache entry.2 (run.crawls entry.1) contents).2, (run.crawls entry.1).finishedAt,
        (run.crawls entry.1).finishedInstant⟩ : Outcome) = (run.crawls entry.1).outcome entry.2 := by
    rw [crawlAndCache_result]
    rfl
  simp only [outcome]
  -- Every outcome carries its participant's index, so sorting by it undoes the order of completion.
  have ended := (run.completed_perm (participants.mapIdx Prod.mk)).map fun entry =>
    (entry.1, (run.crawls entry.1).outcome entry.2)
  have indexed : (participants.mapIdx Prod.mk).map (fun entry =>
      (entry.1, (run.crawls entry.1).outcome entry.2)) =
      (participants.mapIdx fun index participant => (run.crawls index).outcome participant).mapIdx Prod.mk :=
    List.ext_getElem (by simp) (by simp)
  rw [indexed] at ended
  rw [Listing.inSequence_of_perm ended]
  congr 1
  exact List.ext_getElem (by simp [outcomesOf]) (by simp [outcomesOf])

theorem map_id_outcomesOf (crawls : Nat → Crawl) :
    (outcomesOf participants crawls).map (fun entry => entry.1.id) = participants.map ParticipantEntry.id := by
  rw [outcomesOf, Listing.map_mapIdx]
  exact Listing.mapIdx_eq_map _ _

end

namespace CrawlSummary

variable (summary : CrawlSummary) (entries : List (ParticipantEntry × Outcome))

theorem foldl_add_succeededIds : (entries.foldl add summary).succeededIds =
    summary.succeededIds ++ (entries.filter fun entry => entry.2.result.isOk).map fun entry => entry.1.id := by
  induction entries generalizing summary with
  | nil => rw [List.foldl_nil, List.filter_nil, List.map_nil, List.append_nil]
  | cons entry entries ih =>
    rw [List.foldl_cons, ih, List.filter_cons]
    unfold add
    cases result : entry.2.result with
    | ok done => simp [Except.isOk, Except.toBool]
    | error e => simp [Except.isOk, Except.toBool]

theorem foldl_add_failures : (entries.foldl add summary).failures.map Prod.fst =
    summary.failures.map Prod.fst ++ (entries.filter fun entry => !entry.2.result.isOk).map fun entry =>
      entry.1.id := by
  induction entries generalizing summary with
  | nil => rw [List.foldl_nil, List.filter_nil, List.map_nil, List.append_nil]
  | cons entry entries ih =>
    rw [List.foldl_cons, ih, List.filter_cons]
    unfold add
    cases result : entry.2.result with
    | ok done => simp [Except.isOk, Except.toBool]
    | error e => simp [Except.isOk, Except.toBool]

theorem foldl_add_finishedInstants (distinct : (entries.map fun entry => entry.1.id).Nodup)
    {entry : ParticipantEntry × Outcome} (member : entry ∈ entries) :
    (entries.foldl add summary).finishedInstants[entry.1.id]? = some entry.2.finishedInstant := by
  let read (summary : CrawlSummary) (id : String) := summary.finishedInstants[id]?
  let change (entry : ParticipantEntry × Outcome) (_ : Option Instant) := some entry.2.finishedInstant
  have steps (summary : CrawlSummary) (entry : ParticipantEntry × Outcome) (found : String) :
      read (summary.add entry) found =
        if entry.1.id = found then change entry (read summary found) else read summary found := by
    unfold add
    split <;> simp [read, change, Std.ExtTreeMap.getElem?_insert]
  exact KeyedPass.foldl_of_mem read change steps distinct member summary

end CrawlSummary

section

variable {participants : List ParticipantEntry} {run : CycleRun} {contents : Contents}

theorem succeededIds_eq : (crawlOnce participants run contents).2.succeededIds =
    ((outcomesOf participants run.crawls).filter fun entry => entry.2.result.isOk).map fun entry => entry.1.id := by
  rw [crawlOnce_summary, CrawlSummary.foldl_add_succeededIds, List.nil_append]

theorem failures_eq : (crawlOnce participants run contents).2.failures.map Prod.fst =
    ((outcomesOf participants run.crawls).filter fun entry => !entry.2.result.isOk).map fun entry => entry.1.id := by
  rw [crawlOnce_summary, CrawlSummary.foldl_add_failures, List.map_nil, List.nil_append]

theorem succeededIds_sublist :
    (crawlOnce participants run contents).2.succeededIds.Sublist (participants.map ParticipantEntry.id) := by
  rw [succeededIds_eq, ← map_id_outcomesOf run.crawls]
  exact List.filter_sublist.map _

theorem failures_sublist : ((crawlOnce participants run contents).2.failures.map Prod.fst).Sublist
    (participants.map ParticipantEntry.id) := by
  rw [failures_eq, ← map_id_outcomesOf run.crawls]
  exact List.filter_sublist.map _

theorem succeeded_failed_perm : ((crawlOnce participants run contents).2.succeededIds ++
    (crawlOnce participants run contents).2.failures.map Prod.fst).Perm (participants.map ParticipantEntry.id) := by
  rw [succeededIds_eq, failures_eq, ← map_id_outcomesOf run.crawls, ← List.map_append]
  exact (List.filter_append_perm _ _).map _

theorem mem_outcomesOf {entry : Nat × ParticipantEntry} (member : entry ∈ participants.mapIdx Prod.mk)
    (crawls : Nat → Crawl) : (entry.2, (crawls entry.1).outcome entry.2) ∈ outcomesOf participants crawls := by
  obtain ⟨index, bound, rfl⟩ := List.mem_mapIdx.mp member
  exact List.mem_mapIdx.mpr ⟨index, bound, rfl⟩

theorem finishedInstants_eq (distinct : (participants.map ParticipantEntry.id).Nodup) {id : String}
    {catalog : Catalog} {instant : Instant} (crawled : crawledIn participants run id = some (catalog, instant)) :
    (crawlOnce participants run contents).2.finishedInstants[id]? = some instant := by
  rcases crawledIn_cases participants run id with ⟨entry, member, rfl, found⟩ | ⟨_, none⟩
  · rw [crawlOnce_summary]
    have ended := CrawlSummary.foldl_add_finishedInstants {} (outcomesOf participants run.crawls)
      (by rw [map_id_outcomesOf]; exact distinct) (mem_outcomesOf member run.crawls)
    rw [found] at crawled
    rw [ended]
    unfold Crawl.cached at crawled
    split at crawled
    · cases crawled
      rfl
    · cases crawled
  · rw [none] at crawled
    cases crawled

theorem find?_id_of_mem (distinct : (participants.map ParticipantEntry.id).Nodup) {entry : Nat × ParticipantEntry}
    (member : entry ∈ participants.mapIdx Prod.mk) :
    ((participants.mapIdx Prod.mk).find? fun other => other.2.id = entry.2.id) = some entry := by
  have ids : ((participants.mapIdx Prod.mk).map fun entry => entry.2.id).Nodup := by rwa [map_id_mapIdx]
  cases found : (participants.mapIdx Prod.mk).find? fun other => other.2.id = entry.2.id with
  | none =>
    rw [List.find?_eq_none] at found
    exact absurd (decide_eq_true rfl) (found entry member)
  | some other =>
    have same : other.2.id = entry.2.id := by simpa using List.find?_some found
    exact congrArg some (List.inj_on_of_nodup_map ids (List.mem_of_find?_eq_some found) member same)

theorem crawledIn_of_getElem? (distinct : (participants.map ParticipantEntry.id).Nodup) {index : Nat}
    {participant : ParticipantEntry} (listed : participants[index]? = some participant) :
    crawledIn participants run participant.id = (run.crawls index).cached participant := by
  obtain ⟨bound, rfl⟩ := List.getElem?_eq_some_iff.mp listed
  have member : (index, participants[index]) ∈ participants.mapIdx Prod.mk := List.mem_mapIdx.mpr ⟨index, bound, rfl⟩
  unfold crawledIn
  rw [find?_id_of_mem distinct member]
  rfl

theorem mem_succeededIds_iff (distinct : (participants.map ParticipantEntry.id).Nodup) {id : String} :
    id ∈ (crawlOnce participants run contents).2.succeededIds ↔ (crawledIn participants run id).isSome := by
  rw [succeededIds_eq, List.mem_map]
  rcases crawledIn_cases participants run id with ⟨entry, member, rfl, found⟩ | ⟨absent, none⟩
  · rw [found]
    constructor
    · rintro ⟨other, kept, same⟩
      obtain ⟨listed, ok⟩ := List.mem_filter.mp kept
      have equal : other = (entry.2, (run.crawls entry.1).outcome entry.2) :=
        List.inj_on_of_nodup_map (by rw [map_id_outcomesOf]; exact distinct) listed
          (mem_outcomesOf member run.crawls) same
      rw [equal] at ok
      rwa [← outcome_isOk]
    · intro cached
      exact ⟨_, List.mem_filter.mpr ⟨mem_outcomesOf member run.crawls, by rwa [outcome_isOk]⟩, rfl⟩
  · rw [none]
    constructor
    · rintro ⟨other, kept, rfl⟩
      have listed : other.1.id ∈ participants.map ParticipantEntry.id := by
        rw [← map_id_outcomesOf run.crawls]
        exact List.mem_map_of_mem (List.mem_filter.mp kept).1
      rw [← map_id_mapIdx] at listed
      exact absurd listed absent
    · intro impossible
      cases impossible

end

end CatalogBroker
