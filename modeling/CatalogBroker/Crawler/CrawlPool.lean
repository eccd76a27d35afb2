import CatalogBroker.Crawler.CrawlCycle
import CatalogBroker.Library.WorkerPool

/-! The crawls of one cycle, some at a time and step by step.

Crawls take turns on the cache in any order; a cycle that runs to its end is `crawlOnce`, and one cut off
has left each node with the catalog it had or with the one just crawled.
-/

set_option autoImplicit false

namespace CatalogBroker

open Library WorkerPool Transitions

/-- Where `crawl_and_cache` stands for one participant. -/
inductive CrawlPhase where
  | fetching
  | writing (catalog : Catalog)
  | ended (result : Except String Unit)

/-- The cache the crawls write to, and the crawls that are done with it, in that order. -/
structure CrawlCache where
  contents : Contents
  written : List (Nat × ParticipantEntry)

abbrev CrawlPool := Pool (Nat × ParticipantEntry) CrawlPhase Outcome CrawlCache

def crawlWork (crawls : Nat → Crawl) : Work (Nat × ParticipantEntry) CrawlPhase Outcome CrawlCache Unit
  | (index, participant), .fetching, (), cache =>
    match crawlOne participant (crawls index) with
    | .error e => some ({ cache with written := cache.written ++ [(index, participant)] }, .inl (.ended (.error e)))
    | .ok catalog => some (cache, .inl (.writing catalog))
  | (index, participant), .writing catalog, (), cache =>
    let answered := (crawls index).upserted
    some (⟨cache.contents.upsert catalog answered, cache.written ++ [(index, participant)]⟩,
      .inl (.ended (answered.mapError fun e => "failed to cache crawl result: " ++ e.display)))
  | (index, _), .ended result, (), cache =>
    some (cache, .inr ⟨result, (crawls index).finishedAt, (crawls index).finishedInstant⟩)

namespace CrawlPool

def firstPhase (_ : Nat × ParticipantEntry) : CrawlPhase := .fetching

def initial (participants : List ParticipantEntry) (contents : Contents) : CrawlPool :=
  Pool.initial (participants.mapIdx Prod.mk) ⟨contents, []⟩

/-- `buffer_unordered` with as many crawls at once as configured, and one at least. -/
def step (concurrency : Nat) (crawls : Nat → Crawl) (pool : CrawlPool) : Event Unit → Option CrawlPool :=
  Pool.step (max concurrency 1) firstPhase (crawlWork crawls) pool

def summary (participants : List ParticipantEntry) (pool : CrawlPool) : CrawlSummary :=
  (participants.zip (Listing.inSequence (pool.finished.map fun ended => (ended.1.1, ended.2)))).foldl
    CrawlSummary.add {}

def unwritten : CrawlPhase → Bool
  | .fetching => true
  | .writing _ => true
  | .ended _ => false

def toWrite (pool : CrawlPool) : List (Nat × ParticipantEntry) :=
  pool.waiting ++ (pool.running.filter fun entry => unwritten entry.2).map Prod.fst

/-- A phase holds what the participant's own crawl gives. -/
def Reached (crawls : Nat → Crawl) (job : Nat × ParticipantEntry) : CrawlPhase → Prop
  | .fetching => True
  | .writing catalog => crawlOne job.2 (crawls job.1) = .ok catalog
  | .ended result => result = ((crawls job.1).outcome job.2).result

def contentsAfter (crawls : Nat → Crawl) (before : Contents) (written : List (Nat × ParticipantEntry)) : Contents :=
  written.foldl (fun contents entry => (crawlAndCache entry.2 (crawls entry.1) contents).1) before

structure Sound (participants : List ParticipantEntry) (concurrency : Nat) (crawls : Nat → Crawl) (before : Contents)
    (pool : CrawlPool) : Prop where
  within : pool.running.length ≤ max concurrency 1
  jobs : pool.jobs.Perm (participants.mapIdx Prod.mk)
  reached : ∀ entry ∈ pool.running, Reached crawls entry.1 entry.2
  results : ∀ entry ∈ pool.finished, entry.2 = (crawls entry.1.1).outcome entry.1.2
  contents : pool.shared.contents = contentsAfter crawls before pool.shared.written
  written : (pool.toWrite ++ pool.shared.written).Perm (participants.mapIdx Prod.mk)

variable {participants : List ParticipantEntry} {concurrency : Nat} {crawls : Nat → Crawl} {before : Contents}
  {pool next : CrawlPool} {event : Event Unit}

theorem sound_initial (participants : List ParticipantEntry) (concurrency : Nat) (crawls : Nat → Crawl)
    (before : Contents) : Sound participants concurrency crawls before (initial participants before) where
  within := Nat.zero_le _
  jobs := by
    simp only [initial, Pool.initial, Pool.jobs, List.map_nil, List.append_nil]
    exact .refl _
  reached := by simp [initial, Pool.initial]
  results := by simp [initial, Pool.initial]
  contents := rfl
  written := by
    simp only [initial, Pool.initial, toWrite, List.filter_nil, List.map_nil, List.append_nil]
    exact .refl _

theorem crawlWork_cases {job : Nat × ParticipantEntry} {phase : CrawlPhase} {cache cache' : CrawlCache}
    {outcome : CrawlPhase ⊕ Outcome} (reached : Reached crawls job phase)
    (worked : crawlWork crawls job phase () cache = some (cache', outcome)) :
    (∃ catalog, cache' = cache ∧ outcome = .inl (.writing catalog) ∧ phase = .fetching ∧
      crawlOne job.2 (crawls job.1) = .ok catalog) ∨
    (∃ result, unwritten phase = true ∧ outcome = .inl (.ended result) ∧
      result = ((crawls job.1).outcome job.2).result ∧
      cache' = ⟨(crawlAndCache job.2 (crawls job.1) cache.contents).1, cache.written ++ [job]⟩) ∨
    ∃ result, phase = .ended result ∧ cache' = cache ∧
      outcome = .inr ⟨result, (crawls job.1).finishedAt, (crawls job.1).finishedInstant⟩ := by
  obtain ⟨index, participant⟩ := job
  cases phase with
  -- a fetch that fails ends at once: it writes nothing
  | fetching =>
    unfold crawlWork at worked
    dsimp only at worked
    cases fetched : crawlOne participant (crawls index) with
    | error e =>
      rw [fetched] at worked
      cases worked
      refine .inr (.inl ⟨_, rfl, rfl, ?_, ?_⟩)
      · simp [Crawl.outcome, crawlAndCache, fetched]
      · simp [crawlAndCache, fetched]
    | ok catalog =>
      rw [fetched] at worked
      cases worked
      exact .inl ⟨catalog, rfl, rfl, rfl, rfl⟩
  | writing catalog =>
    cases worked
    dsimp only [Reached] at reached
    refine .inr (.inl ⟨_, rfl, rfl, ?_, ?_⟩)
    · simp [Crawl.outcome, crawlAndCache, reached]
    · simp [crawlAndCache, reached]
  | ended result =>
    cases worked
    exact .inr (.inr ⟨result, rfl, rfl, rfl⟩)

theorem toWrite_perm {index : Nat} {job : Nat × ParticipantEntry} {phase : CrawlPhase}
    (running : pool.running[index]? = some (job, phase)) : pool.toWrite.Perm
      (pool.waiting ++ ((if unwritten phase then [job] else []) ++
        ((pool.running.eraseIdx index).filter fun entry => unwritten entry.2).map Prod.fst)) := by
  have moved := ((Pool.running_perm running).filter fun entry => unwritten entry.2).map Prod.fst
  rw [List.filter_cons] at moved
  apply List.Perm.append_left
  cases settled : unwritten phase with
  | true => simpa only [settled, if_true, List.map_cons, List.singleton_append] using moved
  | false => simpa only [settled, Bool.false_eq_true, if_false, List.nil_append] using moved

theorem toWrite_record {index : Nat} {job : Nat × ParticipantEntry} {phase : CrawlPhase} (later : CrawlPhase)
    (cache : CrawlCache) (running : pool.running[index]? = some (job, phase)) :
    (toWrite (pool.record index job cache (.inl later))).Perm
      (pool.waiting ++ ((if unwritten later then [job] else []) ++
        ((pool.running.eraseIdx index).filter fun entry => unwritten entry.2).map Prod.fst)) := by
  have moved := ((Pool.set_perm running (job, later)).filter fun entry => unwritten entry.2).map Prod.fst
  rw [List.filter_cons] at moved
  simp only [toWrite, Pool.record]
  apply List.Perm.append_left
  cases settled : unwritten later with
  | true => simpa only [settled, if_true, List.map_cons, List.singleton_append] using moved
  | false => simpa only [settled, Bool.false_eq_true, if_false, List.nil_append] using moved

theorem written_perm {index : Nat} {job : Nat × ParticipantEntry} {phase : CrawlPhase} {cache : CrawlCache}
    {outcome : CrawlPhase ⊕ Outcome} (running : pool.running[index]? = some (job, phase))
    (reached : Reached crawls job phase) (worked : crawlWork crawls job phase () pool.shared = some (cache, outcome)) :
    (toWrite (pool.record index job cache outcome) ++ cache.written).Perm (pool.toWrite ++ pool.shared.written) := by
  have before := toWrite_perm running
  rcases crawlWork_cases reached worked with ⟨catalog, rfl, rfl, rfl, _⟩ | ⟨result, first, rfl, _, rfl⟩ |
    ⟨result, rfl, rfl, rfl⟩
  · exact ((toWrite_record (.writing catalog) _ running).trans before.symm).append_right _
  · -- the crawl leaves the list of those to be written and joins the written ones
    have after := toWrite_record (.ended result)
      ⟨(crawlAndCache job.2 (crawls job.1) pool.shared.contents).1, pool.shared.written ++ [job]⟩ running
    simp only [unwritten, Bool.false_eq_true, if_false, List.nil_append] at after
    simp only [first, if_true, List.singleton_append] at before
    refine (after.append_right _).trans (List.Perm.trans ?_ (before.append_right _).symm)
    simp only [List.append_assoc]
    apply List.Perm.append_left
    rw [List.cons_append, ← List.append_assoc]
    exact List.perm_append_singleton _ _
  · have same : toWrite (pool.record index job pool.shared
        (.inr ⟨result, (crawls job.1).finishedAt, (crawls job.1).finishedInstant⟩)) = pool.waiting ++
          ((pool.running.eraseIdx index).filter fun entry => unwritten entry.2).map Prod.fst := rfl
    simp only [unwritten, Bool.false_eq_true, if_false, List.nil_append] at before
    rw [same]
    exact before.symm.append_right _

theorem contentsAfter_append (written : List (Nat × ParticipantEntry)) (job : Nat × ParticipantEntry) :
    contentsAfter crawls before (written ++ [job]) =
      (crawlAndCache job.2 (crawls job.1) (contentsAfter crawls before written)).1 := by
  rw [contentsAfter, List.foldl_append]
  rfl

theorem Sound.step (sound : Sound participants concurrency crawls before pool)
    (steps : pool.step concurrency crawls event = some next) :
    Sound participants concurrency crawls before next := by
  obtain ⟨reached, results⟩ := Pool.phases_keep (Reached crawls)
    (fun job outcome => outcome = (crawls job.1).outcome job.2)
    (fun job => show Reached crawls job (firstPhase job) from trivial)
    (fun job phase action cache cache' later reached worked => by
      rcases crawlWork_cases reached worked with ⟨catalog, _, same, _, fetched⟩ | ⟨result, _, same, ended, _⟩ |
        ⟨result, _, _, same⟩
      · cases same
        exact fetched
      · cases same
        exact ended
      · cases same)
    (fun job phase action cache cache' outcome reached worked => by
      rcases crawlWork_cases reached worked with ⟨catalog, _, same, _⟩ | ⟨result, _, same, _⟩ |
        ⟨result, rfl, _, same⟩
      · cases same
      · cases same
      · cases same
        rw [reached]
        rfl)
    sound.reached sound.results steps
  suffices kept : next.shared.contents = contentsAfter crawls before next.shared.written ∧
      (next.toWrite ++ next.shared.written).Perm (participants.mapIdx Prod.mk) from
    ⟨Pool.length_running_le sound.within steps, (Pool.jobs_perm steps).trans sound.jobs, reached, results, kept.1,
      kept.2⟩
  rcases Pool.step_cases steps with ⟨job, waiting, taken, _, rfl⟩ |
    ⟨index, ⟨⟩, job, phase, cache, outcome, running, worked, rfl⟩
  · refine ⟨sound.contents, List.Perm.trans ?_ sound.written⟩
    -- a crawl that starts is still to be written
    apply List.Perm.append_right
    simp only [toWrite, taken, List.filter_append, List.map_append, List.cons_append]
    rw [← List.append_assoc]
    exact List.perm_append_singleton _ _
  · have held := sound.reached _ (List.mem_of_getElem? running)
    have moved := (written_perm running held worked).trans sound.written
    have shared : (pool.record index job cache outcome).shared = cache := by cases outcome <;> rfl
    rw [shared]
    refine ⟨?_, moved⟩
    rcases crawlWork_cases held worked with ⟨catalog, rfl, _⟩ | ⟨result, _, _, _, rfl⟩ | ⟨result, _, rfl, _⟩
    · exact sound.contents
    · rw [contentsAfter_append, sound.contents]
    · exact sound.contents

theorem Sound.run {allowed : CrawlPool → Event Unit → Prop} {events : List (Event Unit)}
    (sound : Sound participants concurrency crawls before pool)
    (run : Run (CrawlPool.step concurrency crawls) allowed pool events next) :
    Sound participants concurrency crawls before next :=
  run.invariant (fun _ _ _ sound _ steps => sound.step steps) sound

/-- A fetch, a write and an end are the most a crawl has before it. -/
def phaseCost : CrawlPhase → Nat
  | .fetching => 3
  | .writing _ => 2
  | .ended _ => 1

theorem phaseCost_pos (phase : CrawlPhase) : 0 < phaseCost phase := by
  cases phase <;> exact Nat.succ_pos _

theorem phaseCost_first (job : Nat × ParticipantEntry) : phaseCost (firstPhase job) ≤ 3 := Nat.le_refl 3

theorem crawlWork_enters (job : Nat × ParticipantEntry) (phase : CrawlPhase) (action : Unit) (cache cache' : CrawlCache)
    (later : CrawlPhase) (worked : crawlWork crawls job phase action cache = some (cache', .inl later)) :
    phaseCost later < phaseCost phase := by
  obtain ⟨index, participant⟩ := job
  cases phase with
  | fetching =>
    simp only [crawlWork] at worked
    cases fetched : crawlOne participant (crawls index) with
    | error e =>
      rw [fetched] at worked
      cases worked
      exact Nat.lt_of_sub_eq_succ rfl
    | ok catalog =>
      rw [fetched] at worked
      cases worked
      exact Nat.lt_of_sub_eq_succ rfl
  | writing catalog =>
    cases worked
    exact Nat.lt_of_sub_eq_succ rfl
  | ended result => cases worked

theorem crawlWork_acts (job : Nat × ParticipantEntry) (phase : CrawlPhase) (cache : CrawlCache) :
    ∃ action, (crawlWork crawls job phase action cache).isSome := by
  refine ⟨(), ?_⟩
  cases phase with
  | fetching =>
    simp only [crawlWork]
    split <;> rfl
  | writing catalog => rfl
  | ended result => rfl

theorem exists_exhausting_run (concurrency : Nat) (crawls : Nat → Crawl) (pool : CrawlPool) : ∃ events last,
    Run (CrawlPool.step concurrency crawls) (fun _ _ => True) pool events last ∧ last.Exhausted :=
  Pool.exists_exhausting_run (Nat.lt_of_lt_of_le Nat.zero_lt_one (Nat.le_max_right _ _)) crawlWork_acts
    phaseCost_first crawlWork_enters (fun _ phase _ _ _ _ _ => phaseCost_pos phase) pool

theorem step_falls (steps : pool.step concurrency crawls event = some next) :
    next.left phaseCost 3 < pool.left phaseCost 3 :=
  Pool.left_falls phaseCost_first crawlWork_enters (fun _ phase _ _ _ _ _ => phaseCost_pos phase) steps

theorem length_le {events : List (Event Unit)} {last : CrawlPool}
    (run : Run (CrawlPool.step concurrency crawls) (fun _ _ => True) (initial participants before) events last) :
    events.length ≤ 4 * participants.length := by
  have bound := run.length_le_of_falls fun _ _ _ _ steps => step_falls steps
  have whole : (initial participants before).left phaseCost 3 = 4 * participants.length := by
    simp [initial, Pool.initial, Pool.left, Nat.mul_comm]
  omega

/-- The items of one list in an order of their own, any other list as it is. -/
def reorder {α : Type} [DecidableEq α] (listed order items : List α) : List α := if items = listed then order else items

theorem reorder_perm {α : Type} [DecidableEq α] {listed order : List α} (same : order.Perm listed) (items : List α) :
    (reorder listed order items).Perm items := by
  unfold reorder
  split
  · rename_i equal
    rw [equal]
    exact same
  · exact .refl _

theorem reorder_self {α : Type} [DecidableEq α] (listed order : List α) : reorder listed order listed = order :=
  if_pos rfl

theorem Sound.written_all (sound : Sound participants concurrency crawls before pool) (exhausted : pool.Exhausted) :
    pool.shared.written.Perm (participants.mapIdx Prod.mk) := by
  have all := sound.written
  rwa [toWrite, exhausted.1, exhausted.2] at all

theorem Sound.finished_all (sound : Sound participants concurrency crawls before pool) (exhausted : pool.Exhausted) :
    (pool.finished.map Prod.fst).Perm (participants.mapIdx Prod.mk) := by
  have all := sound.jobs
  rwa [Pool.jobs, exhausted.1, exhausted.2] at all

/-- The cycle a worked-off pool was: its orders are those the crawls were written and ended in. -/
def cycleRun (participants : List ParticipantEntry) (concurrency : Nat) (crawls : Nat → Crawl) (before : Contents)
    (pool : CrawlPool) (sound : Sound participants concurrency crawls before pool) (exhausted : pool.Exhausted)
    (now : Instant) (hashed : HashOrder Instant) (deleted : String → StoreResult Bool) (cycleEnd : SystemTime) :
    CycleRun where
  crawls
  written := reorder (participants.mapIdx Prod.mk) pool.shared.written
  written_perm := reorder_perm (sound.written_all exhausted)
  completed := reorder (participants.mapIdx Prod.mk) (pool.finished.map Prod.fst)
  completed_perm := reorder_perm (sound.finished_all exhausted)
  now
  hashed
  deleted
  cycleEnd

theorem crawlOnce_cycleRun (sound : Sound participants concurrency crawls before pool) (exhausted : pool.Exhausted)
    (now : Instant) (hashed : HashOrder Instant) (deleted : String → StoreResult Bool) (cycleEnd : SystemTime) :
    crawlOnce participants (cycleRun participants concurrency crawls before pool sound exhausted now hashed deleted
      cycleEnd) before = (pool.shared.contents, pool.summary participants) := by
  have ended : (pool.finished.map Prod.fst).map (fun entry => (entry.1,
      (⟨(crawlAndCache entry.2 (crawls entry.1) before).2, (crawls entry.1).finishedAt,
        (crawls entry.1).finishedInstant⟩ : Outcome))) = pool.finished.map fun ended => (ended.1.1, ended.2) := by
    rw [List.map_map]
    apply List.map_congr_left
    intro entry listed
    rw [sound.results entry listed, Function.comp, crawlAndCache_result]
    rfl
  unfold crawlOnce cycleRun
  simp only [reorder_self]
  rw [summary, sound.contents, ended]
  rfl

theorem Sound.contents_cases (sound : Sound participants concurrency crawls before pool)
    (distinct : (participants.map ParticipantEntry.id).Nodup) (id : String) :
    pool.shared.contents ⟨id⟩ = before ⟨id⟩ ∨
      ∃ entry ∈ participants.mapIdx Prod.mk, entry.2.id = id ∧ ∃ catalog instant,
        (crawls entry.1).cached entry.2 = some (catalog, instant) ∧ pool.shared.contents ⟨id⟩ = some catalog := by
  let read (held : Contents) (id : String) := held ⟨id⟩
  let change (entry : Nat × ParticipantEntry) (held : Option Catalog) :=
    (((crawls entry.1).cached entry.2).map Prod.fst).or held
  have steps (held : Contents) (entry : Nat × ParticipantEntry) (found : String) :
      read (crawlAndCache entry.2 (crawls entry.1) held).1 found =
        if entry.2.id = found then change entry (read held found) else read held found :=
    crawlAndCache_contents found
  have ids : (pool.shared.written.map fun entry => entry.2.id).Nodup := by
    have all := (sound.written.map fun entry => entry.2.id).nodup_iff.mpr (by rwa [map_id_mapIdx])
    rw [List.map_append, List.nodup_append] at all
    exact all.2.1
  rw [sound.contents, contentsAfter]
  -- the writes so far are of different ids, so at most one is of this one
  by_cases listed : id ∈ pool.shared.written.map fun entry => entry.2.id
  · obtain ⟨entry, member, rfl⟩ := List.mem_map.mp listed
    have own : read (pool.shared.written.foldl _ before) entry.2.id = change entry (before ⟨entry.2.id⟩) :=
      KeyedPass.foldl_of_mem read change steps ids member before
    dsimp only [read, change] at own
    cases cached : (crawls entry.1).cached entry.2 with
    | none =>
      left
      rw [own, cached]
      rfl
    | some found =>
      right
      refine ⟨entry, sound.written.mem_iff.mp (List.mem_append_right _ member), rfl, found.1, found.2, cached, ?_⟩
      rw [own, cached]
      rfl
  · left
    exact KeyedPass.foldl_of_not_mem read change steps listed before

end CrawlPool

/-- However the crawls of a cycle interleave, no more than the configured number run at once, the cycle comes to its
end, and it ends with the cache and the summary of `crawlOnce`; cut off anywhere, it has left every node with its old
catalog or with the one its own participant's crawl gave. -/
theorem interleaved_crawls_refine_cycle (participants : List ParticipantEntry)
    (distinct : (participants.map ParticipantEntry.id).Nodup) (concurrency : Nat) (crawls : Nat → Crawl)
    (before : Contents) {events : List (Event Unit)} {pool : CrawlPool}
    (run : Run (CrawlPool.step concurrency crawls) (fun _ _ => True) (CrawlPool.initial participants before) events
      pool) :
    pool.running.length ≤ max concurrency 1 ∧ events.length ≤ 4 * participants.length ∧
    (∃ later last, Run (CrawlPool.step concurrency crawls) (fun _ _ => True) pool later last ∧ last.Exhausted) ∧
    (pool.Exhausted → ∀ now hashed deleted cycleEnd, ∃ run : CycleRun,
      (run.crawls = crawls ∧ run.now = now ∧ run.hashed = hashed ∧ run.deleted = deleted ∧ run.cycleEnd = cycleEnd) ∧
        crawlOnce participants run before = (pool.shared.contents, pool.summary participants)) ∧
    ∀ id, pool.shared.contents ⟨id⟩ = before ⟨id⟩ ∨
      ∃ entry ∈ participants.mapIdx Prod.mk, entry.2.id = id ∧ ∃ catalog instant,
        (crawls entry.1).cached entry.2 = some (catalog, instant) ∧ pool.shared.contents ⟨id⟩ = some catalog := by
  have sound := (CrawlPool.sound_initial participants concurrency crawls before).run run
  refine ⟨sound.within, CrawlPool.length_le run, CrawlPool.exists_exhausting_run concurrency crawls pool, ?_,
    sound.contents_cases distinct⟩
  intro exhausted now hashed deleted cycleEnd
  exact ⟨CrawlPool.cycleRun participants concurrency crawls before pool sound exhausted now hashed deleted cycleEnd,
    ⟨rfl, rfl, rfl, rfl, rfl⟩, CrawlPool.crawlOnce_cycleRun sound exhausted now hashed deleted cycleEnd⟩

def openParticipant (id : String) : ParticipantEntry :=
  ⟨id, id, "https://participant.example/catalog", .none, none, none⟩

/-- The first participant does not answer in time, the second serves an empty catalog. -/
def unevenCrawls (index : Nat) : Crawl :=
  ⟨if index = 0 then .error "timed out" else .ok (.object []), "urn:uuid:fresh", .ok (), 5, 5⟩

/-- Two crawls at once, of which the second one taken is the first to end. -/
theorem overtaking_crawl : ∃ pool : CrawlPool,
    pool.finished.map (fun ended => ended.1.2.id) = ["did:web:second"] ∧ pool.running.length ≤ max 2 1 ∧
    (pool.shared.contents ⟨"did:web:first"⟩ = none ∨ ∃ entry ∈
      [openParticipant "did:web:first", openParticipant "did:web:second"].mapIdx Prod.mk,
      entry.2.id = "did:web:first" ∧
      ∃ catalog instant, (unevenCrawls entry.1).cached entry.2 = some (catalog, instant) ∧
        pool.shared.contents ⟨"did:web:first"⟩ = some catalog) := by
  have run : ∃ pool, pool.finished.map (fun ended => ended.1.2.id) = ["did:web:second"] ∧
      Run (CrawlPool.step 2 unevenCrawls) (fun _ _ => True)
        (CrawlPool.initial [openParticipant "did:web:first", openParticipant "did:web:second"] fun _ => none)
        [.start, .start, .work 1 (), .work 1 (), .work 1 ()] pool :=
    ⟨_, rfl, .cons trivial rfl (.cons trivial rfl (.cons trivial rfl (.cons trivial rfl (.cons trivial rfl
      (.nil _)))))⟩
  obtain ⟨pool, ended, run⟩ := run
  obtain ⟨within, _, _, _, left⟩ := interleaved_crawls_refine_cycle _ (by decide) 2 unevenCrawls _ run
  exact ⟨pool, ended, within, left "did:web:first"⟩

end CatalogBroker
