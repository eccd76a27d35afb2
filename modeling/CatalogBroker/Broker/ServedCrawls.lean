import CatalogBroker.Broker.CatalogRoutes
import CatalogBroker.Crawler.StorableCatalogs

/-! What `GET /catalog` answers while the scheduler runs.

The store behind the scheduler's cache can hold nothing but parsed responses, so every
listing is made of them, whatever cycle is in progress.
-/

set_option autoImplicit false

namespace CatalogBroker

open Library Transitions

section

variable {participants : List ParticipantEntry} {limits : CrawlLimits} {concurrency : Nat}
  {events : List SchedulerEvent} {scheduler : Scheduler} {id : String}

/-- A catalog parsed from what a crawl of the participant fetched in some cycle. -/
def CrawledFrom (participants : List ParticipantEntry) (events : List SchedulerEvent) (participant : ParticipantEntry)
    (catalog : Catalog) : Prop :=
  ∃ crawls ∈ ticks events, ∃ index body, participants[index]? = some participant ∧ (crawls index).fetched = .ok body ∧
    catalog = parseCatalogResponse (crawls index).freshId body participant

variable (id) in
theorem Scheduler.held_crawledFrom (distinct : (participants.map ParticipantEntry.id).Nodup)
    (run : Run (Scheduler.step concurrency) (fun _ _ => True) (Scheduler.start participants limits) events scheduler)
    {catalog : Catalog} (held : scheduler.contents ⟨id⟩ = some catalog) :
    ∃ participant ∈ participants, participant.id = id ∧ CrawledFrom participants events participant catalog := by
  obtain ⟨crawls, member, instant, crawled⟩ := Scheduler.held_crawled distinct run held
  obtain ⟨index, participant, listed, own, parsed⟩ := ownCrawl_crawlOne crawled
  unfold crawlOne at parsed
  cases fetched : (crawls index).fetched with
  | error e =>
    rw [fetched] at parsed
    cases parsed
  | ok body =>
    rw [fetched] at parsed
    cases parsed
    exact ⟨participant, List.mem_of_getElem? listed, own, crawls, member, index, body, listed, fetched, rfl⟩

theorem CrawledFrom.wellFormed {participant : ParticipantEntry} {catalog : Catalog}
    (crawled : CrawledFrom participants events participant catalog) (text : IriText) : catalog.WellFormed text := by
  obtain ⟨crawls, _, index, body, _, _, rfl⟩ := crawled
  exact parseCatalogResponse_wellFormed text _ body participant

theorem contentsAfter_stores {contents : Contents}
    (own : ∀ node catalog, contents node = some catalog → catalog.originNode = node)
    (nests : ∀ node catalog, contents node = some catalog → catalog.NestsWithin maxConstraintDepth)
    (ids : List String) (node : NodeId) :
    contentsAfter (ids.filterMap fun id => (contents ⟨id⟩).map CacheCall.store) node =
      if node.id ∈ ids then contents node else none := by
  induction ids using List.reverseRecOn with
  | nil => simp [contentsAfter]
  | append_singleton ids id ih =>
    have last : node = ⟨id⟩ ↔ node.id = id := by
      cases node
      simp
    cases held : contents ⟨id⟩ with
    | none =>
      rw [List.filterMap_append, List.filterMap_cons_none (by rw [held]; rfl), List.filterMap_nil, List.append_nil, ih]
      by_cases same : node.id = id
      · rw [last.mpr same, held]
        simp
      · simp [same]
    | some catalog =>
      rw [List.filterMap_append, List.filterMap_cons_some (by rw [held]; rfl), List.filterMap_nil, contentsAfter,
        List.foldl_append, List.foldl_cons, List.foldl_nil, Contents.update, if_pos (nests _ _ held), own _ _ held]
      by_cases same : node.id = id
      · rw [last.mpr same, Function.update_self, held]
        simp
      · rw [Function.update_of_ne (fun other => same (last.mp other))]
        rw [contentsAfter] at ih
        rw [ih]
        simp [same]

theorem Scheduler.exists_calls (distinct : (participants.map ParticipantEntry.id).Nodup)
    (run : Run (Scheduler.step concurrency) (fun _ _ => True) (Scheduler.start participants limits) events scheduler)
    (text : IriText) :
    ∃ calls, (∀ call ∈ calls, CacheCall.Admissible text call) ∧ contentsAfter calls = scheduler.contents := by
  have held {node : NodeId} {catalog : Catalog} (found : scheduler.contents node = some catalog) :=
    Scheduler.held_crawledFrom node.id distinct run found
  have own (node : NodeId) (catalog : Catalog) (found : scheduler.contents node = some catalog) :
      catalog.originNode = node := by
    obtain ⟨participant, _, same, crawls, _, index, body, _, _, rfl⟩ := held found
    exact congrArg NodeId.mk same
  have nests (node : NodeId) (catalog : Catalog) (found : scheduler.contents node = some catalog) :
      catalog.NestsWithin maxConstraintDepth := by
    obtain ⟨_, _, _, crawled⟩ := held found
    exact (crawled.wellFormed text).nesting
  -- what the scheduler holds is reached by storing each of its catalogs once
  refine ⟨(participants.map ParticipantEntry.id).filterMap fun id => (scheduler.contents ⟨id⟩).map CacheCall.store, ?_,
    funext fun node => ?_⟩
  · intro call member
    obtain ⟨id, _, stores⟩ := List.mem_filterMap.mp member
    obtain ⟨catalog, found, rfl⟩ := Option.map_eq_some_iff.mp stores
    obtain ⟨_, _, _, crawled⟩ := held found
    exact .inl (crawled.wellFormed text)
  · rw [contentsAfter_stores own nests]
    split
    · rfl
    · rename_i absent
      cases found : scheduler.contents node with
      | none => rfl
      | some catalog =>
        obtain ⟨participant, member, same, _⟩ := held found
        exact absurd (same ▸ List.mem_map_of_mem member) absent

end

/-- The entry of one node in a listing. -/
theorem Contents.Lists.filter_node {contents : Contents} {listing : List Catalog} (lists : contents.Lists listing)
    (own : ∀ node catalog, contents node = some catalog → catalog.originNode = node) (node : NodeId) :
    (listing.filter fun catalog => catalog.originNode = node) = (contents node).toList := by
  have nodup : listing.Nodup :=
    lists.sorted.imp fun {a b} before same => (before.ne (congrArg Catalog.sortKey same)).elim
  have perm : (listing.filter fun catalog => catalog.originNode = node).Perm (contents node).toList := by
    refine (List.perm_ext_iff_of_nodup (nodup.filter _) (by cases contents node <;> simp)).mpr fun catalog => ?_
    rw [List.mem_filter, lists.mem_iff, decide_eq_true_eq, Option.mem_toList]
    constructor
    · rintro ⟨held, rfl⟩
      exact held
    · intro held
      have same := own _ _ held
      exact ⟨same ▸ held, same⟩
  cases held : contents node with
  | none =>
    rw [held] at perm
    exact perm.eq_nil
  | some catalog =>
    rw [held] at perm
    exact List.perm_singleton.mp perm

/-- While the scheduler runs, and after it has stopped: whatever the order it is read in, the store lists each
participant at most once, with a catalog parsed from what one of its own crawls fetched, under its own id and DID, and
less what the caller may not see; a request for one node is answered with that node's entry. -/
theorem catalog_served_at_any_moment {Material DecodingKey : Type} (state : CatalogState Material DecodingKey)
    (text : IriText) (participants : List ParticipantEntry) (distinct : (participants.map ParticipantEntry.id).Nodup)
    (limits : CrawlLimits) (concurrency : Nat) {events : List SchedulerEvent} {scheduler : Scheduler}
    (run : Run (Scheduler.step concurrency) (fun _ _ => True) (Scheduler.start participants limits) events scheduler) :
    (∃ calls, (∀ call ∈ calls, CacheCall.Admissible text call) ∧ contentsAfter calls = scheduler.contents) ∧
    ∀ calls, contentsAfter calls = scheduler.contents → ∀ now headers claims,
      checkOauth2Bearer state.jwt state.oauth2 now.seconds headers = .ok claims → ∃ listing : List Catalog,
        listing.Pairwise (fun first second => first.sortKey < second.sortKey) ∧
        (listing.map Catalog.originNode).Nodup ∧
        (∀ order, state.getCatalog text (storeAfter text calls) order now headers none = .ok listing ∧
          ∀ nodeId, state.getCatalog text (storeAfter text calls) order now headers (some nodeId) =
            .ok (listing.filter fun catalog => catalog.originNode = ⟨nodeId⟩)) ∧
        ∀ served ∈ listing, ∃ participant ∈ participants, ∃ catalog,
          CrawledFrom participants events participant catalog ∧
          served = state.shown now claims .hideGatedOnly catalog ∧ served.originNode = ⟨participant.id⟩ ∧
          served.participantId = participant.providerDid := by
  refine ⟨Scheduler.exists_calls distinct run text, ?_⟩
  intro calls holds now headers claims admitted
  have represents := represents_after text calls
  rw [holds] at represents
  have held {node : NodeId} {catalog : Catalog} (found : scheduler.contents node = some catalog) :=
    Scheduler.held_crawledFrom node.id distinct run found
  have wellFormed : scheduler.contents.WellFormed text := by
    intro node catalog found
    obtain ⟨_, _, _, crawled⟩ := held found
    exact crawled.wellFormed text
  -- the listing is the cache in key order; showing a catalog changes neither its key nor its node
  obtain ⟨listing, lists⟩ := exists_lists represents wellFormed
  have keeps := state.shown_sortKey now claims .hideGatedOnly
  have node (nodeId : String) : (listing.map (state.shown now claims .hideGatedOnly)).filter
      (fun catalog => catalog.originNode = ⟨nodeId⟩) =
      ((scheduler.contents ⟨nodeId⟩).map (state.shown now claims .hideGatedOnly)).toList := by
    rw [List.filter_map, Option.toList_map, ← lists.filter_node represents.own]
    congr 1
    refine List.filter_congr fun catalog _ => ?_
    simp only [Function.comp_apply, (keeps catalog).2]
  refine ⟨listing.map (state.shown now claims .hideGatedOnly), ?_, ?_, ?_, ?_⟩
  · rw [List.pairwise_map]
    exact lists.sorted.imp fun {a b} before => by rwa [(keeps a).1, (keeps b).1]
  · have origins : Catalog.originNode ∘ state.shown now claims .hideGatedOnly = Catalog.originNode :=
      funext fun catalog => (keeps catalog).2
    rw [List.map_map, origins]
    refine List.Nodup.map_on ?_
      (lists.sorted.imp fun {a b} before same => (before.ne (congrArg Catalog.sortKey same)).elim)
    intro first left second right same
    have found := (lists.mem_iff first).mp left
    rw [same, (lists.mem_iff second).mp right] at found
    exact (Option.some.inj found).symm
  · intro order
    refine ⟨getCatalog_all represents wellFormed lists order admitted, fun nodeId => ?_⟩
    rw [getCatalog_node represents wellFormed order admitted, node]
  · intro served member
    obtain ⟨catalog, listed, rfl⟩ := List.mem_map.mp member
    obtain ⟨participant, among, own, crawled⟩ := held ((lists.mem_iff catalog).mp listed)
    refine ⟨participant, among, catalog, crawled, rfl, ?_, ?_⟩
    · rw [(keeps catalog).2, own]
    · obtain ⟨_, _, _, _, _, _, same⟩ := crawled
      rw [state.shown_participantId, same]
      rfl

def openCrawls (_ : Nat) : Crawl := ⟨.ok (.object []), "urn:uuid:fresh", .ok (), 5, 5⟩

/-- The first cycle is in progress, and its one crawl is cached. -/
theorem crawled_catalog_served : ∃ scheduler : Scheduler,
    scheduler.contents ⟨"provider"⟩ = some (parseCatalogResponse "urn:uuid:fresh" (.object []) openProvider) ∧
    ∃ calls, contentsAfter calls = scheduler.contents ∧ ∃ listing : List Catalog,
      (listing.map Catalog.originNode).Nodup ∧ ∀ order,
        closedState.getCatalog .urlencoding (storeAfter .urlencoding calls) order ⟨0, ""⟩ ⟨none, none⟩ none =
          .ok listing := by
  have run : ∃ scheduler : Scheduler,
      scheduler.contents ⟨"provider"⟩ = some (parseCatalogResponse "urn:uuid:fresh" (.object []) openProvider) ∧
      Run (Scheduler.step 1) (fun _ _ => True) (Scheduler.start [openProvider] ⟨60⟩)
        [.tick openCrawls, .crawl .start, .crawl (.work 0 ()), .crawl (.work 0 ())] scheduler :=
    ⟨_, rfl, .cons trivial rfl (.cons trivial rfl (.cons trivial rfl (.cons trivial rfl (.nil _))))⟩
  obtain ⟨scheduler, held, run⟩ := run
  obtain ⟨⟨calls, _, holds⟩, answers⟩ := catalog_served_at_any_moment closedState .urlencoding [openProvider]
    (by decide) ⟨60⟩ 1 run
  obtain ⟨listing, _, nodup, listed, _⟩ := answers calls holds ⟨0, ""⟩ ⟨none, none⟩ none rfl
  exact ⟨scheduler, held, calls, holds, listing, nodup, fun order => (listed order).1⟩

end CatalogBroker
