import CatalogBroker.Crawler.CrawlPool
import CatalogBroker.Crawler.Harvester

/-! The crawl scheduler: a cycle for each tick, until it is told to stop.

Readers of the cache meet it at any moment: between two crawls of a cycle, between two
removals, or after a stop that cut a cycle off.
-/

set_option autoImplicit false

namespace CatalogBroker

open Library WorkerPool Transitions

/-- A catalog write handed to the blocking pool, which no stop takes back. -/
structure HandedWrite where
  catalog : Catalog
  answered : StoreResult Unit

/-- Where the scheduler's task stands. -/
inductive SchedulerPhase where
  | waiting
  | crawling (crawls : Nat → Crawl) (pool : CrawlPool)
  | expiring (summary : CrawlSummary) (deleted : String → StoreResult Bool) (stale : List String) (expiry : Expiry)
  | stopped (contents : Contents) (handed : List HandedWrite)

/-- The harvester as its last complete cycle left it, and the cycle in progress. -/
structure Scheduler where
  harvester : Harvester
  phase : SchedulerPhase

inductive SchedulerEvent where
  | tick (crawls : Nat → Crawl)
  | crawl (event : Event Unit)
  | settle (now : Instant) (hashed : HashOrder Instant) (deleted : String → StoreResult Bool)
  | remove
  | record (cycleEnd : SystemTime)
  | stop
  | land (index : Nat)

def Harvester.answered (harvester : Harvester) (summary : CrawlSummary) (now : Instant) :
    Std.ExtTreeMap String Instant :=
  summary.succeededIds.foldl (fun known id => known.insert id (summary.finishedInstants[id]?.getD now))
    harvester.lastSuccess

def CrawlPool.handed (crawls : Nat → Crawl) (pool : CrawlPool) : List HandedWrite :=
  pool.running.filterMap fun
    | ((index, _), .writing catalog) => some ⟨catalog, (crawls index).upserted⟩
    | _ => none

namespace Scheduler

def start (participants : List ParticipantEntry) (limits : CrawlLimits) : Scheduler :=
  ⟨.new participants limits, .waiting⟩

def contents (scheduler : Scheduler) : Contents :=
  match scheduler.phase with
  | .waiting => scheduler.harvester.contents
  | .crawling _ pool => pool.shared.contents
  | .expiring _ _ _ expiry => expiry.contents
  | .stopped contents _ => contents

def handed (scheduler : Scheduler) : List HandedWrite :=
  match scheduler.phase with
  | .crawling crawls pool => pool.handed crawls
  | .stopped _ handed => handed
  | _ => []

def step (concurrency : Nat) (scheduler : Scheduler) (event : SchedulerEvent) : Option Scheduler :=
  let harvester := scheduler.harvester
  match scheduler.phase, event with
  | .waiting, .tick crawls =>
    some ⟨harvester, .crawling crawls (CrawlPool.initial harvester.participants harvester.contents)⟩
  | .crawling crawls pool, .crawl event =>
    (pool.step concurrency crawls event).map fun pool => ⟨harvester, .crawling crawls pool⟩
  | .crawling _ pool, .settle now hashed deleted =>
    if pool.waiting.isEmpty && pool.running.isEmpty then
      let summary := pool.summary harvester.participants
      let lastSuccess := harvester.answered summary now
      some ⟨harvester, .expiring summary deleted (Harvester.staleIds harvester.limits lastSuccess now hashed)
        ⟨pool.shared.contents, lastSuccess, []⟩⟩
    else none
  | .expiring summary deleted (id :: stale) expiry, .remove =>
    some ⟨harvester, .expiring summary deleted stale (expiry.remove deleted id)⟩
  | .expiring summary _ [] expiry, .record cycleEnd =>
    some ⟨{ harvester with
      contents := expiry.contents
      lastSuccess := expiry.lastSuccess
      status := Harvester.recordStatus harvester.status summary expiry.expired cycleEnd }, .waiting⟩
  | .stopped contents handed, .land index => do
    let write ← handed[index]?
    some ⟨harvester, .stopped (contents.upsert write.catalog write.answered) (handed.eraseIdx index)⟩
  | .stopped _ _, .stop => none
  -- The cycle in flight is dropped, up to the writes it has handed over.
  | _, .stop => some ⟨harvester, .stopped scheduler.contents scheduler.handed⟩
  | _, _ => none

end Scheduler

/-- The crawls of each tick, in order. -/
def ticks (events : List SchedulerEvent) : List (Nat → Crawl) :=
  events.filterMap fun
    | .tick crawls => some crawls
    | _ => none

/-- When the removals of the last settled cycle were decided. -/
def lastSettled (events : List SchedulerEvent) : Option Instant :=
  (events.filterMap fun
    | .settle now _ _ => some now
    | _ => none).getLast?

/-- What an id's own participant's crawl gives once it is cached. -/
def ownCrawl (participants : List ParticipantEntry) (crawls : Nat → Crawl) (id : String) :
    Option (Catalog × Instant) :=
  ((participants.mapIdx Prod.mk).find? fun entry => entry.2.id = id).bind fun entry =>
    (crawls entry.1).cached entry.2

/-- The catalog last crawled under an id, where the cycle in progress counts as well. -/
def latestOf (participants : List ParticipantEntry) (runs : List CycleRun) (begun : Option (Nat → Crawl))
    (id : String) : Option (Catalog × Instant) :=
  (begun.bind (ownCrawl participants · id)).or (latestSuccess participants runs id)

section

variable {participants : List ParticipantEntry} {crawls : Nat → Crawl}

theorem ownCrawl_of_mem (distinct : (participants.map ParticipantEntry.id).Nodup) {entry : Nat × ParticipantEntry}
    (member : entry ∈ participants.mapIdx Prod.mk) :
    ownCrawl participants crawls entry.2.id = (crawls entry.1).cached entry.2 := by
  unfold ownCrawl
  rw [find?_id_of_mem distinct member]
  rfl

theorem crawlOne_originNode {participant : ParticipantEntry} {crawl : Crawl} {catalog : Catalog}
    (crawled : crawlOne participant crawl = .ok catalog) : catalog.originNode = ⟨participant.id⟩ := by
  unfold crawlOne at crawled
  cases fetched : crawl.fetched with
  | error e =>
    rw [fetched] at crawled
    cases crawled
  | ok body =>
    rw [fetched] at crawled
    cases crawled
    rfl

end

/-- How an id's catalog came about since the cycle before: left alone, crawled, or too old and removed. -/
def Harvester.Explains (harvester : Harvester) (begun : Option (Nat → Crawl)) (settled : Option Instant) (id : String)
    (held : Option Catalog) : Prop :=
  let own := begun.bind (ownCrawl harvester.participants · id)
  held = harvester.contents ⟨id⟩ ∨ (∃ catalog instant, own = some (catalog, instant) ∧ held = some catalog) ∨
    held = none ∧ ∃ instant now, settled = some now ∧
      (own.map Prod.snd).or harvester.lastSuccess[id]? = some instant ∧ harvester.limits.maxCatalogAge < now - instant

/-- A write handed over carries the catalog of its own participant's crawl. -/
def Harvester.Awaits (harvester : Harvester) (begun : Option (Nat → Crawl)) (write : HandedWrite) : Prop :=
  write.answered = .ok () → ∃ instant,
    begun.bind (ownCrawl harvester.participants · write.catalog.originNode.id) = some (write.catalog, instant)

/-- A cycle whose crawls are over, with the removals made so far. -/
structure Settling (harvester : Harvester) (run : CycleRun) (summary : CrawlSummary)
    (deleted : String → StoreResult Bool) (done stale : List String) (expiry : Expiry) : Prop where
  deletes : run.deleted = deleted
  summed : (crawlOnce harvester.participants run harvester.contents).2 = summary
  listed : Harvester.staleIds harvester.limits (harvester.answered summary run.now) run.now run.hashed = done ++ stale
  removed : expiry = done.foldl (Expiry.remove deleted)
    ⟨(crawlOnce harvester.participants run harvester.contents).1, harvester.answered summary run.now, []⟩

namespace SchedulerPhase

def Sound (concurrency : Nat) (harvester : Harvester) (begun : Option (Nat → Crawl)) (settled : Option Instant) :
    SchedulerPhase → Prop
  | .waiting => begun = none
  | .crawling crawls pool => begun = some crawls ∧
    CrawlPool.Sound harvester.participants concurrency crawls harvester.contents pool
  | .expiring summary deleted stale expiry => ∃ run done, begun = some run.crawls ∧ settled = some run.now ∧
    Settling harvester run summary deleted done stale expiry
  | .stopped contents handed => (∀ id, harvester.Explains begun settled id (contents ⟨id⟩)) ∧
    ∀ write ∈ handed, harvester.Awaits begun write

end SchedulerPhase

section

variable {harvester : Harvester} {concurrency : Nat} {crawls : Nat → Crawl} {pool : CrawlPool} {run : CycleRun}
  {summary : CrawlSummary} {deleted : String → StoreResult Bool} {done stale : List String} {expiry : Expiry}

theorem CrawlPool.Sound.explains (sound : Sound harvester.participants concurrency crawls harvester.contents pool)
    (distinct : (harvester.participants.map ParticipantEntry.id).Nodup) (settled : Option Instant) (id : String) :
    harvester.Explains (some crawls) settled id (pool.shared.contents ⟨id⟩) := by
  rcases sound.contents_cases distinct id with kept | ⟨entry, member, rfl, catalog, instant, cached, held⟩
  · exact .inl kept
  · exact .inr (.inl ⟨catalog, instant, (ownCrawl_of_mem distinct member).trans cached, held⟩)

theorem CrawlPool.Sound.awaits (sound : Sound harvester.participants concurrency crawls harvester.contents pool)
    (distinct : (harvester.participants.map ParticipantEntry.id).Nodup) {write : HandedWrite}
    (handed : write ∈ pool.handed crawls) : harvester.Awaits (some crawls) write := by
  obtain ⟨⟨⟨index, participant⟩, phase⟩, running, handed⟩ := List.mem_filterMap.mp handed
  cases phase with
  | fetching => cases handed
  | ended result => cases handed
  | writing catalog =>
    cases handed
    intro answered
    dsimp only at answered
    have crawled : crawlOne participant (crawls index) = .ok catalog := sound.reached _ running
    have member : (index, participant) ∈ harvester.participants.mapIdx Prod.mk := by
      refine sound.jobs.mem_iff.mp (List.mem_append_right _ (List.mem_append_left _ ?_))
      exact List.mem_map_of_mem (f := Prod.fst) running
    refine ⟨(crawls index).finishedInstant, ?_⟩
    rw [crawlOne_originNode crawled]
    refine (ownCrawl_of_mem distinct member).trans ?_
    simp only [Crawl.cached, crawled, answered]

theorem Harvester.Explains.upsert {begun : Option (Nat → Crawl)} {settled : Option Instant} {contents : Contents}
    {write : HandedWrite} (explains : ∀ id, harvester.Explains begun settled id (contents ⟨id⟩))
    (awaits : harvester.Awaits begun write) (id : String) :
    harvester.Explains begun settled id (contents.upsert write.catalog write.answered ⟨id⟩) := by
  cases answered : write.answered with
  | error e => exact explains id
  | ok done =>
    by_cases own : (⟨id⟩ : NodeId) = write.catalog.originNode
    · obtain ⟨instant, crawled⟩ := awaits answered
      rw [← own] at crawled
      refine .inr (.inl ⟨write.catalog, instant, crawled, ?_⟩)
      rw [Contents.upsert, own, Function.update_self]
    · rw [Contents.upsert, Function.update_of_ne own]
      exact explains id

/-- While removals go on, an id has what the cycle crawled for it, or nothing once it is found too old. -/
theorem Settling.explains (settling : Settling harvester run summary deleted done stale expiry)
    (distinct : (harvester.participants.map ParticipantEntry.id).Nodup) (id : String) :
    harvester.Explains (some run.crawls) (some run.now) id (expiry.contents ⟨id⟩) := by
  have nodup : done.Nodup := by
    have all := staleIds_nodup harvester.limits (harvester.answered summary run.now) run.now run.hashed
    rw [settling.listed] at all
    exact all.of_append_left
  obtain ⟨contents, _⟩ := foldl_remove_held nodup
    ⟨(crawlOnce harvester.participants run harvester.contents).1, harvester.answered summary run.now, []⟩ id
  rw [settling.removed, contents]
  by_cases gone : id ∈ done ∧ (deleted id).isOk = true
  · rw [if_pos gone]
    have old : id ∈ Harvester.staleIds harvester.limits (harvester.answered summary run.now) run.now run.hashed := by
      rw [settling.listed]
      exact List.mem_append_left _ gone.1
    obtain ⟨instant, known, old⟩ := mem_staleIds.mp old
    have times : (harvester.answered summary run.now)[id]? = _ := settling.summed ▸ lastSuccess_crawled distinct id
    exact .inr (.inr ⟨rfl, instant, run.now, rfl, times.symm.trans known, old⟩)
  · rw [if_neg gone]
    dsimp only
    rw [crawlOnce_contents distinct]
    cases crawled : crawledIn harvester.participants run id with
    | none => exact .inl rfl
    | some found => exact .inr (.inl ⟨found.1, found.2, crawled, rfl⟩)

theorem CrawlPool.Sound.settling
    (sound : Sound harvester.participants concurrency crawls harvester.contents pool) (exhausted : pool.Exhausted)
    (now : Instant) (hashed : HashOrder Instant) (deleted : String → StoreResult Bool) :
    ∃ run : CycleRun, run.crawls = crawls ∧ run.now = now ∧
      Settling harvester run (pool.summary harvester.participants) deleted []
        (Harvester.staleIds harvester.limits (harvester.answered (pool.summary harvester.participants) now) now hashed)
        ⟨pool.shared.contents, harvester.answered (pool.summary harvester.participants) now, []⟩ := by
  have cycle := CrawlPool.crawlOnce_cycleRun sound exhausted now hashed deleted now
  refine ⟨CrawlPool.cycleRun harvester.participants concurrency crawls harvester.contents pool sound exhausted now
    hashed deleted now, rfl, rfl, rfl, ?_, rfl, ?_⟩
  · rw [cycle]
  · rw [cycle]
    rfl

theorem Settling.remove {id : String} (settling : Settling harvester run summary deleted done (id :: stale) expiry) :
    Settling harvester run summary deleted (done ++ [id]) stale (expiry.remove deleted id) where
  deletes := settling.deletes
  summed := settling.summed
  listed := by
    rw [← List.append_cons]
    exact settling.listed
  removed := by
    rw [List.foldl_append, ← settling.removed]
    rfl

theorem Settling.record (settling : Settling harvester run summary deleted done [] expiry) (cycleEnd : SystemTime) :
    { harvester with
      contents := expiry.contents
      lastSuccess := expiry.lastSuccess
      status := Harvester.recordStatus harvester.status summary expiry.expired cycleEnd } =
    (harvester.runCycle { run with cycleEnd }).1 := by
  obtain ⟨rfl, rfl, listed, rfl⟩ := settling
  rw [List.append_nil] at listed
  rw [← listed]
  rfl

end

namespace SchedulerPhase

variable {harvester : Harvester} {concurrency : Nat} {begun : Option (Nat → Crawl)}
  {settled : Option Instant}

theorem Sound.explains {phase : SchedulerPhase} (sound : phase.Sound concurrency harvester begun settled)
    (distinct : (harvester.participants.map ParticipantEntry.id).Nodup) (id : String) :
    harvester.Explains begun settled id ((Scheduler.mk harvester phase).contents ⟨id⟩) := by
  cases phase with
  | waiting => exact .inl rfl
  | crawling crawls pool =>
    obtain ⟨rfl, sound⟩ := sound
    exact sound.explains distinct settled id
  | expiring summary deleted stale expiry =>
    obtain ⟨run, done, rfl, rfl, settling⟩ := sound
    exact settling.explains distinct id
  | stopped contents handed => exact sound.1 id

theorem Sound.awaits {phase : SchedulerPhase} (sound : phase.Sound concurrency harvester begun settled)
    (distinct : (harvester.participants.map ParticipantEntry.id).Nodup) {write : HandedWrite}
    (handed : write ∈ (Scheduler.mk harvester phase).handed) : harvester.Awaits begun write := by
  cases phase with
  | waiting => cases handed
  | crawling crawls pool =>
    obtain ⟨rfl, sound⟩ := sound
    exact sound.awaits distinct handed
  | expiring summary deleted stale expiry => cases handed
  | stopped contents writes => exact sound.2 write handed

end SchedulerPhase

namespace Scheduler

variable {scheduler next : Scheduler} {concurrency : Nat} {event : SchedulerEvent}
  {begun : Option (Nat → Crawl)}

/-- What the scheduler does with an event, in the phase it meets it in. -/
inductive Stepped (concurrency : Nat) (scheduler : Scheduler) : SchedulerEvent → Scheduler → Prop
  | tick (crawls : Nat → Crawl) (phase : scheduler.phase = .waiting) :
      Stepped concurrency scheduler (.tick crawls) ⟨scheduler.harvester,
        .crawling crawls (CrawlPool.initial scheduler.harvester.participants scheduler.harvester.contents)⟩
  | crawl {crawls : Nat → Crawl} {pool next : CrawlPool} {event : Event Unit}
      (phase : scheduler.phase = .crawling crawls pool) (steps : pool.step concurrency crawls event = some next) :
      Stepped concurrency scheduler (.crawl event) ⟨scheduler.harvester, .crawling crawls next⟩
  | settle {crawls : Nat → Crawl} {pool : CrawlPool} (now : Instant) (hashed : HashOrder Instant)
      (deleted : String → StoreResult Bool) (phase : scheduler.phase = .crawling crawls pool)
      (exhausted : pool.Exhausted) :
      Stepped concurrency scheduler (.settle now hashed deleted) ⟨scheduler.harvester,
        .expiring (pool.summary scheduler.harvester.participants) deleted
          (Harvester.staleIds scheduler.harvester.limits
            (scheduler.harvester.answered (pool.summary scheduler.harvester.participants) now) now hashed)
          ⟨pool.shared.contents,
            scheduler.harvester.answered (pool.summary scheduler.harvester.participants) now, []⟩⟩
  | remove {summary : CrawlSummary} {deleted : String → StoreResult Bool} {id : String} {stale : List String}
      {expiry : Expiry} (phase : scheduler.phase = .expiring summary deleted (id :: stale) expiry) :
      Stepped concurrency scheduler .remove
        ⟨scheduler.harvester, .expiring summary deleted stale (expiry.remove deleted id)⟩
  | record {summary : CrawlSummary} {deleted : String → StoreResult Bool} {expiry : Expiry} (cycleEnd : SystemTime)
      (phase : scheduler.phase = .expiring summary deleted [] expiry) :
      Stepped concurrency scheduler (.record cycleEnd) ⟨{ scheduler.harvester with
        contents := expiry.contents
        lastSuccess := expiry.lastSuccess
        status := Harvester.recordStatus scheduler.harvester.status summary expiry.expired cycleEnd }, .waiting⟩
  | stop (phase : ∀ contents handed, scheduler.phase ≠ .stopped contents handed) :
      Stepped concurrency scheduler .stop ⟨scheduler.harvester, .stopped scheduler.contents scheduler.handed⟩
  | land {contents : Contents} {handed : List HandedWrite} {index : Nat} {write : HandedWrite}
      (phase : scheduler.phase = .stopped contents handed) (found : handed[index]? = some write) :
      Stepped concurrency scheduler (.land index) ⟨scheduler.harvester,
        .stopped (contents.upsert write.catalog write.answered) (handed.eraseIdx index)⟩

theorem step_stepped (steps : scheduler.step concurrency event = some next) :
    Stepped concurrency scheduler event next := by
  unfold step at steps
  dsimp only at steps
  split at steps
  -- one case for each branch of the loop
  · rename_i crawls phase
    cases steps
    exact .tick crawls phase
  · rename_i phase
    obtain ⟨pool, stepped, rfl⟩ := Option.map_eq_some_iff.mp steps
    exact .crawl phase stepped
  · rename_i now hashed deleted phase
    split at steps
    · rename_i finished
      cases steps
      simp only [Bool.and_eq_true, List.isEmpty_iff] at finished
      exact .settle now hashed deleted phase finished
    · cases steps
  · rename_i phase
    cases steps
    exact .remove phase
  · rename_i cycleEnd phase
    cases steps
    exact .record cycleEnd phase
  · rename_i phase
    obtain ⟨write, found, steps⟩ := Option.bind_eq_some_iff.mp steps
    cases steps
    exact .land phase found
  · cases steps
  · rename_i running
    cases steps
    exact .stop running
  · cases steps

variable {participants : List ParticipantEntry} {limits : CrawlLimits} {events : List SchedulerEvent}

/-- The run so far was some complete cycles, and one more at most that a tick has begun. -/
def Traced (participants : List ParticipantEntry) (limits : CrawlLimits) (concurrency : Nat)
    (events : List SchedulerEvent) (scheduler : Scheduler) : Prop :=
  ∃ runs begun, ticks events = runs.map CycleRun.crawls ++ begun.toList ∧
    scheduler.harvester = Harvester.after participants limits runs ∧
    scheduler.phase.Sound concurrency scheduler.harvester begun (lastSettled events)

theorem ticks_append (events : List SchedulerEvent) (event : SchedulerEvent) :
    ticks (events ++ [event]) = ticks events ++ ticks [event] := List.filterMap_append

theorem lastSettled_append (events : List SchedulerEvent) (event : SchedulerEvent) :
    lastSettled (events ++ [event]) = (lastSettled [event]).or (lastSettled events) := by
  unfold lastSettled
  rw [List.filterMap_append, List.getLast?_append]

theorem Traced.step (distinct : (participants.map ParticipantEntry.id).Nodup)
    (traced : Traced participants limits concurrency events scheduler)
    (taken : scheduler.step concurrency event = some next) :
    Traced participants limits concurrency (events ++ [event]) next := by
  obtain ⟨runs, begun, ticked, after, sound⟩ := traced
  have same : scheduler.harvester.participants = participants := by
    rw [after]
    exact (Harvester.after_knowsOf distinct limits runs).1
  have apart : (scheduler.harvester.participants.map ParticipantEntry.id).Nodup := by rwa [same]
  unfold Traced
  rw [ticks_append, ticked, lastSettled_append]
  -- what is begun is settled at the end of the crawls and becomes a run with the record
  cases step_stepped taken with
  | tick crawls phase =>
    rw [phase] at sound
    cases sound
    refine ⟨runs, some crawls, by simp [ticks], after, rfl, ?_⟩
    exact CrawlPool.sound_initial _ concurrency crawls _
  | crawl phase steps =>
    rw [phase] at sound
    obtain ⟨rfl, sound⟩ := sound
    exact ⟨runs, _, List.append_nil _, after, rfl, sound.step steps⟩
  | settle now hashed deleted phase exhausted =>
    rw [phase] at sound
    obtain ⟨rfl, sound⟩ := sound
    obtain ⟨run, rfl, rfl, settling⟩ := sound.settling exhausted now hashed deleted
    exact ⟨runs, _, List.append_nil _, after, run, [], rfl, rfl, settling⟩
  | remove phase =>
    rw [phase] at sound
    obtain ⟨run, done, rfl, settled, settling⟩ := sound
    exact ⟨runs, _, List.append_nil _, after, run, _, rfl, settled, settling.remove⟩
  | record cycleEnd phase =>
    rw [phase] at sound
    obtain ⟨run, done, rfl, _, settling⟩ := sound
    refine ⟨runs ++ [{ run with cycleEnd }], none, by simp [ticks], ?_, rfl⟩
    rw [settling.record cycleEnd, Harvester.after_append, after]
  -- the writes that were handed over stay explained by the cycle that was cut off
  | stop phase =>
    refine ⟨runs, begun, List.append_nil _, after, ?_, ?_⟩
    · exact sound.explains apart
    · intro write handed
      exact sound.awaits apart handed
  | land phase found =>
    rw [phase] at sound
    refine ⟨runs, begun, List.append_nil _, after, ?_, ?_⟩
    · exact Harvester.Explains.upsert sound.1 (sound.2 _ (List.mem_of_getElem? found))
    · intro write handed
      exact sound.2 write (List.mem_of_mem_eraseIdx handed)

theorem traced_of_run (distinct : (participants.map ParticipantEntry.id).Nodup)
    {allowed : Scheduler → SchedulerEvent → Prop}
    (run : Run (step concurrency) allowed (start participants limits) events scheduler) :
    Traced participants limits concurrency events scheduler := by
  refine run.history ?_ ?_
  · exact ⟨[], none, rfl, rfl, rfl⟩
  · intro done state event next _ traced _ steps
    exact traced.step distinct steps

/-- The steps a cycle in progress takes: no new tick, and no stop. -/
def Proceeds (_ : Scheduler) : SchedulerEvent → Prop
  | .tick _ => False
  | .stop => False
  | _ => True

theorem crawls_run (harvester : Harvester) {crawls : Nat → Crawl} {pool last : CrawlPool} {events : List (Event Unit)}
    (run : Run (CrawlPool.step concurrency crawls) (fun _ _ => True) pool events last) :
    Run (step concurrency) Proceeds ⟨harvester, .crawling crawls pool⟩ (events.map .crawl)
      ⟨harvester, .crawling crawls last⟩ := by
  induction run with
  | nil pool => exact .nil _
  | cons _ steps rest ih =>
    refine .cons trivial ?_ ih
    simp only [step, steps, Option.map_some]

variable (concurrency) in
theorem exists_recorded (harvester : Harvester) (summary : CrawlSummary) (deleted : String → StoreResult Bool)
    (stale : List String) (expiry : Expiry) : ∃ later last,
      Run (step concurrency) Proceeds ⟨harvester, .expiring summary deleted stale expiry⟩ later last ∧
        last.phase = .waiting := by
  induction stale generalizing expiry with
  | nil => exact ⟨[.record 0], _, .cons trivial rfl (.nil _), rfl⟩
  | cons id stale ih =>
    obtain ⟨later, last, run, waiting⟩ := ih (expiry.remove deleted id)
    exact ⟨.remove :: later, last, .cons trivial rfl run, waiting⟩

variable (concurrency) in
/-- Unless it is told to stop, a cycle can be brought to its end, whichever of its crawls and removals fail. -/
theorem exists_waiting (running : ∀ contents handed, scheduler.phase ≠ .stopped contents handed) : ∃ later last,
    Run (step concurrency) Proceeds scheduler later last ∧ last.phase = .waiting := by
  obtain ⟨harvester, phase⟩ := scheduler
  cases phase with
  | waiting => exact ⟨[], _, .nil _, rfl⟩
  | crawling crawls pool =>
    obtain ⟨crawled, finished, run, exhausted⟩ := CrawlPool.exists_exhausting_run concurrency crawls pool
    let summary := finished.summary harvester.participants
    let lastSuccess := harvester.answered summary 0
    obtain ⟨later, last, recorded, waiting⟩ := exists_recorded concurrency harvester summary
      (fun _ => .ok true) (Harvester.staleIds harvester.limits lastSuccess 0 .asListed)
      ⟨finished.shared.contents, lastSuccess, []⟩
    refine ⟨crawled.map .crawl ++ .settle 0 .asListed (fun _ => .ok true) :: later, last, ?_, waiting⟩
    refine (crawls_run harvester run).append (.cons trivial ?_ recorded)
    simp [step, exhausted.1, exhausted.2, summary, lastSuccess]
  | expiring summary deleted stale expiry => exact exists_recorded _ harvester summary deleted stale expiry
  | stopped contents handed => exact absurd rfl (running contents handed)

theorem ticks_of_proceeds {later : List SchedulerEvent} {last : Scheduler}
    (run : Run (step concurrency) Proceeds scheduler later last) : ticks later = [] := by
  induction run with
  | nil scheduler => rfl
  | @cons scheduler next last event events allows steps rest ih =>
    unfold ticks at ih ⊢
    rw [List.filterMap_cons, ih]
    cases event with
    | tick crawls => exact absurd allows id
    | crawl event => rfl
    | settle now hashed deleted => rfl
    | remove => rfl
    | record cycleEnd => rfl
    | stop => rfl
    | land index => rfl

end Scheduler

theorem foldl_change_cyclesCompleted {Item : Type} (id : Item → String)
    (change : Item → ParticipantStatus → ParticipantStatus) (items : List Item) (status : CrawlStatus) :
    (items.foldl (fun status item => status.change (id item) (change item)) status).cyclesCompleted =
      status.cyclesCompleted := by
  induction items generalizing status with
  | nil => rfl
  | cons item items ih =>
    rw [List.foldl_cons, ih]
    rfl

theorem recordStatus_cyclesCompleted (status : CrawlStatus) (summary : CrawlSummary) (expired : List String)
    (cycleEnd : SystemTime) : (Harvester.recordStatus status summary expired cycleEnd).cyclesCompleted =
      status.cyclesCompleted + 1 := by
  unfold Harvester.recordStatus
  dsimp only
  rw [foldl_change_cyclesCompleted (fun id => id), foldl_change_cyclesCompleted Prod.fst,
    foldl_change_cyclesCompleted (fun id => id)]

theorem Harvester.after_cyclesCompleted (participants : List ParticipantEntry) (limits : CrawlLimits)
    (runs : List CycleRun) : (after participants limits runs).status.cyclesCompleted = runs.length := by
  induction runs using List.reverseRecOn with
  | nil => rfl
  | append_singleton runs run ih =>
    rw [after_append, List.length_append, List.length_singleton, ← ih]
    exact recordStatus_cyclesCompleted _ _ _ _

theorem Harvester.Explains.latest {participants : List ParticipantEntry} {limits : CrawlLimits}
    {runs : List CycleRun} {begun : Option (Nat → Crawl)} {settled : Option Instant} {id : String}
    {held : Option Catalog} (distinct : (participants.map ParticipantEntry.id).Nodup)
    (explains : (after participants limits runs).Explains begun settled id held) :
    held = (after participants limits runs).contents ⟨id⟩ ∨
      (∃ catalog instant, begun.bind (ownCrawl participants · id) = some (catalog, instant) ∧ held = some catalog) ∨
      held = none ∧ ∃ catalog instant now, latestOf participants runs begun id = some (catalog, instant) ∧
        settled = some now ∧ limits.maxCatalogAge < now - instant := by
  obtain ⟨same, sameLimits, knowsOf⟩ := after_knowsOf distinct limits runs
  unfold Explains at explains
  rw [same, sameLimits] at explains
  rcases explains with kept | crawled | ⟨gone, instant, now, decided, known, old⟩
  · exact .inl kept
  · exact .inr (.inl crawled)
  · refine .inr (.inr ⟨gone, ?_⟩)
    cases own : begun.bind (ownCrawl participants · id) with
    | some found =>
      rw [own] at known
      cases known
      refine ⟨found.1, found.2, now, ?_, decided, old⟩
      rw [latestOf, own]
      rfl
    | none =>
      -- the cycle in progress has nothing of this id: its age is that of the latest crawl before
      rw [own] at known
      rcases knowsOf id with ⟨_, untimed, _⟩ | ⟨catalog, since, last, _, timed, _⟩
      · cases untimed.symm.trans known
      · cases timed.symm.trans known
        refine ⟨catalog, instant, now, ?_, decided, old⟩
        rw [latestOf, own, last]
        rfl

/-- Whenever the cache is read, also in the middle of a cycle and after a stop, each id has what the last complete cycle
left, the catalog its own participant's crawl of the cycle in progress gave, or nothing because the latest crawl is too
old; and a cycle not stopped can be brought to its end. -/
theorem scheduler_at_any_moment (participants : List ParticipantEntry)
    (distinct : (participants.map ParticipantEntry.id).Nodup) (limits : CrawlLimits) (concurrency : Nat)
    {events : List SchedulerEvent} {scheduler : Scheduler}
    (run : Run (Scheduler.step concurrency) (fun _ _ => True) (Scheduler.start participants limits) events
      scheduler) :
    ∃ (runs : List CycleRun) (begun : Option (Nat → Crawl)),
      ticks events = runs.map CycleRun.crawls ++ begun.toList ∧
      scheduler.harvester = Harvester.after participants limits runs ∧
      scheduler.harvester.status.cyclesCompleted = runs.length ∧
      (scheduler.phase = .waiting → begun = none) ∧
      (∀ id, scheduler.contents ⟨id⟩ = scheduler.harvester.contents ⟨id⟩ ∨
        (∃ catalog instant, begun.bind (ownCrawl participants · id) = some (catalog, instant) ∧
          scheduler.contents ⟨id⟩ = some catalog) ∨
        scheduler.contents ⟨id⟩ = none ∧ ∃ catalog instant now,
          latestOf participants runs begun id = some (catalog, instant) ∧ lastSettled events = some now ∧
            limits.maxCatalogAge < now - instant) ∧
      ((∀ contents handed, scheduler.phase ≠ .stopped contents handed) → ∃ later last,
        Run (Scheduler.step concurrency) Scheduler.Proceeds scheduler later last ∧ last.phase = .waiting ∧
          last.harvester.status.cyclesCompleted = (ticks events).length) := by
  obtain ⟨runs, begun, ticked, after, sound⟩ := Scheduler.traced_of_run distinct run
  have apart : (scheduler.harvester.participants.map ParticipantEntry.id).Nodup := by
    rw [after, (Harvester.after_knowsOf distinct limits runs).1]
    exact distinct
  refine ⟨runs, begun, ticked, after, ?_, ?_, ?_, ?_⟩
  · rw [after, Harvester.after_cyclesCompleted]
  · intro waiting
    rw [waiting] at sound
    exact sound
  · intro id
    have explains : scheduler.harvester.Explains begun (lastSettled events) id (scheduler.contents ⟨id⟩) :=
      sound.explains apart id
    rw [after] at explains ⊢
    exact explains.latest distinct
  · intro running
    obtain ⟨later, last, proceeds, waiting⟩ := Scheduler.exists_waiting concurrency running
    refine ⟨later, last, proceeds, waiting, ?_⟩
    -- the cycles completed then are those of all ticks, of which none is new
    have whole := run.append (proceeds.mono fun _ _ _ => trivial)
    obtain ⟨cycles, _, allTicked, allAfter, finished⟩ := Scheduler.traced_of_run distinct whole
    rw [waiting] at finished
    cases finished
    have same : ticks (events ++ later) = ticks events ++ ticks later := List.filterMap_append
    rw [same, Scheduler.ticks_of_proceeds proceeds] at allTicked
    have count := congrArg List.length allTicked
    simp only [List.length_append, List.length_map, List.length_nil, Option.toList_none, Nat.add_zero] at count
    rw [allAfter, Harvester.after_cyclesCompleted, count]

/-- Stopped while a write is handed over: the write lands, and the catalog is there although the cycle is not. -/
theorem stopped_write_lands : ∃ scheduler : Scheduler,
    (scheduler.contents ⟨"did:web:second"⟩).isSome ∧ ∃ (runs : List CycleRun) (begun : Option (Nat → Crawl)),
      [unevenCrawls] = runs.map CycleRun.crawls ++ begun.toList ∧
        scheduler.harvester.status.cyclesCompleted = runs.length := by
  have run : ∃ scheduler, (scheduler.contents ⟨"did:web:second"⟩).isSome ∧
      Run (Scheduler.step 2) (fun _ _ => True)
        (Scheduler.start [openParticipant "did:web:first", openParticipant "did:web:second"] ⟨60⟩)
        [.tick unevenCrawls, .crawl .start, .crawl .start, .crawl (.work 1 ()), .stop, .land 0] scheduler :=
    ⟨_, rfl, .cons trivial rfl (.cons trivial rfl (.cons trivial rfl (.cons trivial rfl (.cons trivial rfl
      (.cons trivial rfl (.nil _))))))⟩
  obtain ⟨scheduler, landed, run⟩ := run
  obtain ⟨runs, begun, ticked, _, completed, _⟩ := scheduler_at_any_moment _ (by decide) ⟨60⟩ 2 run
  exact ⟨scheduler, landed, runs, begun, ticked, completed⟩

end CatalogBroker
