import CatalogBroker.Crawler.CrawlCycle

/-! The harvester: crawl cycles in a row, and the removal of catalogs gone stale.

What is cached is known in three places, the cache, the times of the last success and
the status record; each cycle changes all three.
-/

set_option autoImplicit false

namespace CatalogBroker

open Library

structure CrawlLimits where
  maxCatalogAge : Nat

structure ParticipantStatus where
  lastAttempt : Option SystemTime := none
  lastSuccess : Option SystemTime := none
  lastError : Option String := none
  cached : Bool := false

structure CrawlStatus where
  cyclesCompleted : Nat
  participants : Std.ExtTreeMap String ParticipantStatus

/-- `entry(id).or_default()`, changed in place. -/
def CrawlStatus.change (status : CrawlStatus) (id : String) (change : ParticipantStatus → ParticipantStatus) :
    CrawlStatus :=
  { status with participants := status.participants.insert id (change (status.participants[id]?.getD {})) }

structure CycleReport where
  summary : CrawlSummary
  expired : List String

/-- A harvester and the catalogs its cache holds. -/
structure Harvester where
  contents : Contents
  participants : List ParticipantEntry
  limits : CrawlLimits
  lastSuccess : Std.ExtTreeMap String Instant
  status : CrawlStatus

structure Expiry where
  contents : Contents
  lastSuccess : Std.ExtTreeMap String Instant
  expired : List String

/-- A failed delete keeps the id, so that the next cycle tries again. -/
def Expiry.remove (deleted : String → StoreResult Bool) (expiry : Expiry) (id : String) : Expiry :=
  let contents := expiry.contents.delete ⟨id⟩ (deleted id)
  match deleted id with
  | .ok _ => ⟨contents, expiry.lastSuccess.erase id, expiry.expired ++ [id]⟩
  | .error _ => { expiry with contents }

namespace Harvester

/-- Every configured participant has a status record from the start. -/
def new (participants : List ParticipantEntry) (limits : CrawlLimits) : Harvester where
  contents _ := none
  participants
  limits
  lastSuccess := ∅
  status := ⟨0, Std.ExtTreeMap.ofList (participants.map fun participant => (participant.id, ({} : ParticipantStatus)))⟩

def staleIds (limits : CrawlLimits) (lastSuccess : Std.ExtTreeMap String Instant) (now : Instant)
    (hashed : HashOrder Instant) : List String :=
  (((hashed.visit lastSuccess.toList).filter fun entry => limits.maxCatalogAge < now - entry.2).map
    Prod.fst).insertionSort (· ≤ ·)

def recordStatus (status : CrawlStatus) (summary : CrawlSummary) (expired : List String) (cycleEnd : SystemTime) :
    CrawlStatus :=
  let finished (id : String) := summary.finishedAt[id]?.getD cycleEnd
  let status := summary.succeededIds.foldl (fun status id => status.change id fun entry =>
    { entry with
      lastAttempt := some (finished id)
      lastSuccess := some (finished id)
      lastError := none
      cached := true }) status
  let status := summary.failures.foldl (fun status failure => status.change failure.1 fun entry =>
    { entry with lastAttempt := some (finished failure.1), lastError := some failure.2 }) status
  let status := expired.foldl (fun status id => status.change id fun entry => { entry with cached := false }) status
  { status with cyclesCompleted := status.cyclesCompleted + 1 }

def runCycle (harvester : Harvester) (run : CycleRun) : Harvester × CycleReport :=
  let (contents, summary) := crawlOnce harvester.participants run harvester.contents
  -- Age counts from when the participant's own crawl ended.
  let lastSuccess := summary.succeededIds.foldl (fun known id =>
    known.insert id (summary.finishedInstants[id]?.getD run.now)) harvester.lastSuccess
  let stale := staleIds harvester.limits lastSuccess run.now run.hashed
  let expiry := stale.foldl (Expiry.remove run.deleted) ⟨contents, lastSuccess, []⟩
  ({ harvester with
      contents := expiry.contents
      lastSuccess := expiry.lastSuccess
      status := recordStatus harvester.status summary expiry.expired run.cycleEnd },
    ⟨summary, expiry.expired⟩)

def after (participants : List ParticipantEntry) (limits : CrawlLimits) (runs : List CycleRun) : Harvester :=
  runs.foldl (fun harvester run => (harvester.runCycle run).1) (new participants limits)

end Harvester

/-- The catalog of the latest successful crawl of an id, and when that crawl ended. -/
def latestSuccess (participants : List ParticipantEntry) (runs : List CycleRun) (id : String) :
    Option (Catalog × Instant) :=
  runs.foldl (fun latest run => (crawledIn participants run id).or latest) none

def CrawlStatus.saysCached (status : CrawlStatus) (id : String) : Bool :=
  (status.participants[id]?).any ParticipantStatus.cached

section

variable {deleted : String → StoreResult Bool}

theorem foldl_remove_expired (stale : List String) (expiry : Expiry) :
    (stale.foldl (Expiry.remove deleted) expiry).expired =
      expiry.expired ++ stale.filter fun id => (deleted id).isOk := by
  induction stale generalizing expiry with
  | nil => rw [List.foldl_nil, List.filter_nil, List.append_nil]
  | cons id stale ih =>
    rw [List.foldl_cons, ih, List.filter_cons]
    unfold Expiry.remove
    cases answered : deleted id with
    | ok existed => simp [Except.isOk, Except.toBool]
    | error e => simp [Except.isOk, Except.toBool]

/-- What is expired is gone from the cache and from the times, and nothing else is. -/
theorem foldl_remove_held {stale : List String} (distinct : stale.Nodup) (expiry : Expiry) (id : String) :
    let passed := stale.foldl (Expiry.remove deleted) expiry
    let gone := id ∈ stale ∧ (deleted id).isOk = true
    passed.contents ⟨id⟩ = (if gone then none else expiry.contents ⟨id⟩) ∧
      passed.lastSuccess[id]? = if gone then none else expiry.lastSuccess[id]? := by
  let read (expiry : Expiry) (id : String) := (expiry.contents ⟨id⟩, expiry.lastSuccess[id]?)
  let change (id : String) (held : Option Catalog × Option Instant) :=
    if (deleted id).isOk then (none, none) else held
  have steps (expiry : Expiry) (id found : String) : read (Expiry.remove deleted expiry id) found =
      if id = found then change id (read expiry found) else read expiry found := by
    unfold Expiry.remove
    cases answered : deleted id with
    | error e => simp [read, change, answered, Contents.delete, Except.isOk, Except.toBool]
    | ok existed =>
      by_cases same : id = found
      · subst same
        simp [read, change, answered, Contents.delete, Except.isOk, Except.toBool]
      · have apart : (⟨found⟩ : NodeId) ≠ ⟨id⟩ := fun equal => same (congrArg NodeId.id equal).symm
        simp [read, Contents.delete, Function.update_of_ne apart, Std.ExtTreeMap.getElem?_erase, same]
  -- the two maps are read together, since one removal changes both
  have held := KeyedPass.foldl_keys read change steps distinct expiry id
  simp only [change, ← ite_and] at held
  by_cases gone : id ∈ stale ∧ (deleted id).isOk = true
  · rw [if_pos gone] at held
    simp only [if_pos gone]
    exact Prod.mk.inj held
  · rw [if_neg gone] at held
    simp only [if_neg gone]
    exact Prod.mk.inj held

end

theorem mem_staleIds {limits : CrawlLimits} {lastSuccess : Std.ExtTreeMap String Instant} {now : Instant}
    {hashed : HashOrder Instant} {id : String} : id ∈ Harvester.staleIds limits lastSuccess now hashed ↔
      ∃ instant, lastSuccess[id]? = some instant ∧ limits.maxCatalogAge < now - instant := by
  unfold Harvester.staleIds
  rw [List.mem_insertionSort, List.mem_map]
  constructor
  · rintro ⟨⟨name, instant⟩, kept, rfl⟩
    obtain ⟨listed, old⟩ := List.mem_filter.mp kept
    have member := (hashed.visit_perm _).mem_iff.mp listed
    exact ⟨instant, Std.ExtTreeMap.mem_toList_iff_getElem?_eq_some.mp member, of_decide_eq_true old⟩
  · rintro ⟨instant, known, old⟩
    refine ⟨(id, instant), List.mem_filter.mpr ⟨?_, decide_eq_true old⟩, rfl⟩
    exact (hashed.visit_perm _).mem_iff.mpr (Std.ExtTreeMap.mem_toList_iff_getElem?_eq_some.mpr known)

theorem staleIds_nodup (limits : CrawlLimits) (lastSuccess : Std.ExtTreeMap String Instant) (now : Instant)
    (hashed : HashOrder Instant) : (Harvester.staleIds limits lastSuccess now hashed).Nodup := by
  have keys : (lastSuccess.toList.map Prod.fst).Nodup := by
    rw [List.Nodup, List.pairwise_map]
    apply Std.ExtTreeMap.distinct_keys_toList.imp
    intro first second apart same
    exact apart (Std.LawfulEqCmp.compare_eq_iff_eq.mpr same)
  unfold Harvester.staleIds
  rw [(List.perm_insertionSort _ _).nodup_iff]
  exact (((hashed.visit_perm _).map Prod.fst).nodup_iff.mpr keys).sublist (List.filter_sublist.map _)

theorem saysCached_change (status : CrawlStatus) (id found : String) (change : ParticipantStatus → ParticipantStatus) :
    (status.change id change).saysCached found =
      if id = found then (change (status.participants[found]?.getD {})).cached else status.saysCached found := by
  unfold CrawlStatus.saysCached CrawlStatus.change
  by_cases same : id = found
  · subst same
    simp
  · simp [Std.ExtTreeMap.getElem?_insert, same]

theorem cached_getD (status : CrawlStatus) (id : String) :
    (status.participants[id]?.getD {}).cached = status.saysCached id := by
  unfold CrawlStatus.saysCached
  cases status.participants[id]? <;> rfl

theorem recordStatus_saysCached (status : CrawlStatus) {summary : CrawlSummary} {expired : List String}
    (succeeded : summary.succeededIds.Nodup) (distinct : expired.Nodup) (cycleEnd : SystemTime) (id : String) :
    (Harvester.recordStatus status summary expired cycleEnd).saysCached id =
      if id ∈ expired then false else if id ∈ summary.succeededIds then true else status.saysCached id := by
  let finished (id : String) := summary.finishedAt[id]?.getD cycleEnd
  have succeeds (status : CrawlStatus) (id found : String) := saysCached_change status id found fun entry =>
    { entry with
      lastAttempt := some (finished id)
      lastSuccess := some (finished id)
      lastError := none
      cached := true }
  have fails (status : CrawlStatus) (failure : String × String) (found : String) :
      (status.change failure.1 fun entry =>
        { entry with lastAttempt := some (finished failure.1), lastError := some failure.2 }).saysCached found =
        status.saysCached found := by
    rw [saysCached_change]
    split
    · exact cached_getD status found
    · rfl
  have expires (status : CrawlStatus) (id found : String) := saysCached_change status id found fun entry =>
    { entry with cached := false }
  unfold Harvester.recordStatus
  dsimp only
  -- three passes: successes set the mark, failures leave it, expiry clears it
  generalize afterFirst : summary.succeededIds.foldl _ status = first
  generalize afterSecond : summary.failures.foldl _ first = second
  have passed := KeyedPass.foldl_keys CrawlStatus.saysCached (fun _ _ => false) expires distinct second id
  have left : second.saysCached id = first.saysCached id := by
    rw [← afterSecond]
    exact KeyedPass.foldl_untouched CrawlStatus.saysCached fails summary.failures first id
  have set : first.saysCached id = if id ∈ summary.succeededIds then true else status.saysCached id := by
    rw [← afterFirst]
    exact KeyedPass.foldl_keys CrawlStatus.saysCached (fun _ _ => true) succeeds succeeded status id
  rw [← set, ← left]
  exact passed

section

variable {harvester : Harvester} {run : CycleRun}

theorem lastSuccess_crawled (distinct : (harvester.participants.map ParticipantEntry.id).Nodup) (id : String) :
    let summary := (crawlOnce harvester.participants run harvester.contents).2
    (summary.succeededIds.foldl (fun known id => known.insert id (summary.finishedInstants[id]?.getD run.now))
      harvester.lastSuccess)[id]? =
      ((crawledIn harvester.participants run id).map Prod.snd).or harvester.lastSuccess[id]? := by
  intro summary
  have nodup : summary.succeededIds.Nodup := succeededIds_sublist.nodup distinct
  let read (known : Std.ExtTreeMap String Instant) (id : String) := known[id]?
  let change (id : String) (_ : Option Instant) := some (summary.finishedInstants[id]?.getD run.now)
  have steps (known : Std.ExtTreeMap String Instant) (id found : String) :
      read (known.insert id (summary.finishedInstants[id]?.getD run.now)) found =
        if id = found then change id (read known found) else read known found := by
    simp [read, change, Std.ExtTreeMap.getElem?_insert]
  -- one pass over ids that occur once, so an id has what its own step gave
  have passed := KeyedPass.foldl_keys read change steps nodup harvester.lastSuccess id
  refine passed.trans ?_
  cases crawled : crawledIn harvester.participants run id with
  | none =>
    have failed : id ∉ summary.succeededIds := by
      rw [mem_succeededIds_iff distinct, crawled]
      exact Bool.false_ne_true
    rw [if_neg failed]
    rfl
  | some found =>
    have succeeded : id ∈ summary.succeededIds := by
      rw [mem_succeededIds_iff distinct, crawled]
      rfl
    have ended : summary.finishedInstants[id]? = some found.2 := finishedInstants_eq distinct crawled
    rw [if_pos succeeded]
    simp only [change, ended, Option.getD_some, Option.map_some, Option.some_or]

theorem Harvester.expired_eq (harvester : Harvester) (run : CycleRun) :
    let summary := (crawlOnce harvester.participants run harvester.contents).2
    (harvester.runCycle run).2.expired = (staleIds harvester.limits (summary.succeededIds.foldl (fun known id =>
      known.insert id (summary.finishedInstants[id]?.getD run.now)) harvester.lastSuccess) run.now run.hashed).filter
        fun id => (run.deleted id).isOk :=
  foldl_remove_expired _ _

theorem Harvester.expired_nodup (harvester : Harvester) (run : CycleRun) :
    (harvester.runCycle run).2.expired.Nodup := by
  rw [expired_eq]
  exact (staleIds_nodup _ _ _ _).filter _

/-- What one cycle does to an id: its crawl first, then its expiry, in all three places. -/
theorem Harvester.runCycle_spec (harvester : Harvester) (run : CycleRun)
    (distinct : (harvester.participants.map ParticipantEntry.id).Nodup) (id : String) :
    let crawled := crawledIn harvester.participants run id
    let outcome := harvester.runCycle run
    let known := (crawled.map Prod.snd).or harvester.lastSuccess[id]?
    (id ∈ outcome.2.expired ↔ (run.deleted id).isOk = true ∧
      ∃ instant, known = some instant ∧ harvester.limits.maxCatalogAge < run.now - instant) ∧
    outcome.1.contents ⟨id⟩ =
      (if id ∈ outcome.2.expired then none else (crawled.map Prod.fst).or (harvester.contents ⟨id⟩)) ∧
    outcome.1.lastSuccess[id]? = (if id ∈ outcome.2.expired then none else known) ∧
    outcome.1.status.saysCached id =
      if id ∈ outcome.2.expired then false else crawled.isSome || harvester.status.saysCached id := by
  intro crawled outcome known
  let contents := (crawlOnce harvester.participants run harvester.contents).1
  let summary := (crawlOnce harvester.participants run harvester.contents).2
  let lastSuccess := summary.succeededIds.foldl (fun known id =>
    known.insert id (summary.finishedInstants[id]?.getD run.now)) harvester.lastSuccess
  let stale := Harvester.staleIds harvester.limits lastSuccess run.now run.hashed
  have cached : contents ⟨id⟩ = (crawled.map Prod.fst).or (harvester.contents ⟨id⟩) := crawlOnce_contents distinct id
  have times : lastSuccess[id]? = known := lastSuccess_crawled distinct id
  -- An id is reported as expired when it is stale and its delete was answered with `Ok`.
  have gone : id ∈ outcome.2.expired ↔ id ∈ stale ∧ (run.deleted id).isOk = true := by
    rw [harvester.expired_eq run, List.mem_filter]
  obtain ⟨left, timesLeft⟩ : outcome.1.contents ⟨id⟩ =
        (if id ∈ stale ∧ (run.deleted id).isOk = true then none else contents ⟨id⟩) ∧
      outcome.1.lastSuccess[id]? = if id ∈ stale ∧ (run.deleted id).isOk = true then none else lastSuccess[id]? :=
    foldl_remove_held (staleIds_nodup _ _ _ _) ⟨contents, lastSuccess, []⟩ id
  refine ⟨?_, ?_, ?_, ?_⟩
  · rw [gone, mem_staleIds, times, and_comm]
  · rw [left, cached]
    simp only [gone]
  · rw [timesLeft, times]
    simp only [gone]
  · have succeeded : summary.succeededIds.Nodup := succeededIds_sublist.nodup distinct
    have recorded : outcome.1.status.saysCached id = if id ∈ outcome.2.expired then false
        else if id ∈ summary.succeededIds then true else harvester.status.saysCached id :=
      recordStatus_saysCached harvester.status succeeded (harvester.expired_nodup run) run.cycleEnd id
    rw [recorded]
    simp only [summary, mem_succeededIds_iff distinct, crawled]
    cases (crawledIn harvester.participants run id).isSome <;> rfl

end

/-- What the cache, the times and the status know of an id is nothing, or the latest successful crawl. -/
def Harvester.KnowsOf (harvester : Harvester) (latest : Option (Catalog × Instant)) (id : String) : Prop :=
  (harvester.contents ⟨id⟩ = none ∧ harvester.lastSuccess[id]? = none ∧ harvester.status.saysCached id = false) ∨
    ∃ catalog instant, latest = some (catalog, instant) ∧ harvester.contents ⟨id⟩ = some catalog ∧
      harvester.lastSuccess[id]? = some instant ∧ harvester.status.saysCached id = true

theorem Harvester.KnowsOf.runCycle {harvester : Harvester} {latest : Option (Catalog × Instant)} {id : String}
    (knows : harvester.KnowsOf latest id) (distinct : (harvester.participants.map ParticipantEntry.id).Nodup)
    (run : CycleRun) :
    (harvester.runCycle run).1.KnowsOf ((crawledIn harvester.participants run id).or latest) id := by
  obtain ⟨_, contents, times, flags⟩ := harvester.runCycle_spec run distinct id
  unfold KnowsOf
  rw [contents, times, flags]
  by_cases gone : id ∈ (harvester.runCycle run).2.expired
  · rw [if_pos gone, if_pos gone, if_pos gone]
    exact .inl ⟨rfl, rfl, rfl⟩
  · simp only [if_neg gone]
    cases crawled : crawledIn harvester.participants run id with
    | none =>
      simp only [Option.map_none, Option.none_or, Option.isSome_none, Bool.false_or]
      exact knows
    | some found => exact .inr ⟨found.1, found.2, rfl, rfl, rfl, rfl⟩

theorem latestSuccess_append (participants : List ParticipantEntry) (runs : List CycleRun) (run : CycleRun)
    (id : String) : latestSuccess participants (runs ++ [run]) id =
      (crawledIn participants run id).or (latestSuccess participants runs id) := by
  rw [latestSuccess, List.foldl_append]
  rfl

theorem Harvester.after_append (participants : List ParticipantEntry) (limits : CrawlLimits) (runs : List CycleRun)
    (run : CycleRun) :
    after participants limits (runs ++ [run]) = ((after participants limits runs).runCycle run).1 := by
  rw [after, List.foldl_append]
  rfl

theorem foldl_insert_uncached (entries : List (String × ParticipantStatus))
    (uncached : ∀ entry ∈ entries, entry.2.cached = false) (records : Std.ExtTreeMap String ParticipantStatus)
    (start : ∀ id : String, records[id]?.any ParticipantStatus.cached = false) (id : String) :
    (entries.foldl (fun records entry => records.insert entry.1 entry.2) records)[id]?.any
      ParticipantStatus.cached = false := by
  induction entries generalizing records with
  | nil => exact start id
  | cons entry entries ih =>
    obtain ⟨first, rest⟩ := List.forall_mem_cons.mp uncached
    apply ih rest
    intro found
    rw [Std.ExtTreeMap.getElem?_insert]
    split
    · exact first
    · exact start found

theorem Harvester.new_knowsOf (participants : List ParticipantEntry) (limits : CrawlLimits) (id : String) :
    (new participants limits).KnowsOf none id := by
  refine .inl ⟨rfl, Std.ExtTreeMap.getElem?_empty, ?_⟩
  unfold CrawlStatus.saysCached new
  dsimp only
  rw [Std.ExtTreeMap.ofList_eq_foldl]
  apply foldl_insert_uncached
  · intro entry member
    obtain ⟨participant, _, rfl⟩ := List.mem_map.mp member
    rfl
  · intro found
    rw [Std.ExtTreeMap.getElem?_empty]
    rfl

/-- The configuration stays what it was, and every id is known as its latest success or not at all. -/
theorem Harvester.after_knowsOf {participants : List ParticipantEntry}
    (distinct : (participants.map ParticipantEntry.id).Nodup) (limits : CrawlLimits) (runs : List CycleRun) :
    (after participants limits runs).participants = participants ∧
      (after participants limits runs).limits = limits ∧
      ∀ id, (after participants limits runs).KnowsOf (latestSuccess participants runs id) id := by
  induction runs using List.reverseRecOn with
  | nil => exact ⟨rfl, rfl, new_knowsOf participants limits⟩
  | append_singleton runs run ih =>
    obtain ⟨sameParticipants, sameLimits, knows⟩ := ih
    rw [after_append]
    refine ⟨sameParticipants, sameLimits, fun id => ?_⟩
    rw [latestSuccess_append]
    have next := (knows id).runCycle (by rwa [sameParticipants]) run
    rwa [sameParticipants] at next

namespace Harvester

variable {harvester : Harvester} {latest : Option (Catalog × Instant)} {id : String}

theorem KnowsOf.agree (knows : harvester.KnowsOf latest id) :
    (id ∈ harvester.lastSuccess ↔ (harvester.contents ⟨id⟩).isSome) ∧
      (harvester.status.saysCached id = true ↔ (harvester.contents ⟨id⟩).isSome) := by
  rw [← Std.ExtTreeMap.isSome_getElem?_iff_mem]
  rcases knows with ⟨absent, untimed, unflagged⟩ | ⟨catalog, instant, _, held, timed, flagged⟩
  · rw [absent, untimed, unflagged]
    simp
  · rw [held, timed, flagged]
    simp

theorem KnowsOf.latest_of_held (knows : harvester.KnowsOf latest id) {catalog : Catalog}
    (held : harvester.contents ⟨id⟩ = some catalog) : ∃ instant, latest = some (catalog, instant) := by
  rcases knows with ⟨absent, _, _⟩ | ⟨kept, instant, last, holds, _, _⟩
  · rw [absent] at held
    cases held
  · rw [holds] at held
    cases held
    exact ⟨instant, last⟩

variable (distinct : (harvester.participants.map ParticipantEntry.id).Nodup) (run : CycleRun)

include distinct

theorem KnowsOf.tooOld_gone (knows : (harvester.runCycle run).1.KnowsOf latest id) {catalog : Catalog}
    {instant : Instant} (last : latest = some (catalog, instant))
    (old : harvester.limits.maxCatalogAge < run.now - instant) :
    (harvester.runCycle run).1.contents ⟨id⟩ = none ∨ ∃ error, run.deleted id = .error error := by
  rcases knows with ⟨absent, _, _⟩ | ⟨kept, since, known, _, timed, _⟩
  · exact .inl absent
  · rw [last] at known
    cases known
    obtain ⟨expired, _, times, _⟩ := harvester.runCycle_spec run distinct id
    -- Still timed, so not expired: with its age, only the delete can have failed.
    cases answered : run.deleted id with
    | error error => exact .inr ⟨error, rfl⟩
    | ok existed =>
      have kept : id ∉ (harvester.runCycle run).2.expired := by
        intro gone
        rw [if_pos gone] at times
        cases times.symm.trans timed
      rw [if_neg kept] at times
      have gone := expired.mpr ⟨by rw [answered]; rfl, instant, times.symm.trans timed, old⟩
      exact absurd gone kept

theorem KnowsOf.mem_expired_iff (knew : harvester.KnowsOf latest id) :
    id ∈ (harvester.runCycle run).2.expired ↔
      ((harvester.contents ⟨id⟩).isSome ∨ id ∈ (harvester.runCycle run).2.summary.succeededIds) ∧
        (harvester.runCycle run).1.contents ⟨id⟩ = none := by
  obtain ⟨expired, contents, _, _⟩ := harvester.runCycle_spec run distinct id
  have succeeded : id ∈ (harvester.runCycle run).2.summary.succeededIds ↔
      (crawledIn harvester.participants run id).isSome := mem_succeededIds_iff distinct
  rw [succeeded]
  constructor
  · intro gone
    obtain ⟨_, instant, known, _⟩ := expired.mp gone
    refine ⟨?_, contents.trans (if_pos gone)⟩
    -- A stale id has a time: from this cycle's crawl, or from before with its cache entry.
    rcases knew with ⟨_, untimed, _⟩ | ⟨catalog, _, _, held, _, _⟩
    · right
      rw [untimed, Option.or_none] at known
      obtain ⟨found, crawled, _⟩ := Option.map_eq_some_iff.mp known
      rw [crawled]
      rfl
    · left
      rw [held]
      rfl
  · intro ⟨known, absent⟩
    by_contra kept
    rw [contents, if_neg kept, Option.or_eq_none_iff, Option.map_eq_none_iff] at absent
    rcases known with held | crawled
    · rw [absent.2] at held
      cases held
    · rw [absent.1] at crawled
      cases crawled

end Harvester

theorem Harvester.runCycle_stored (harvester : Harvester) (run : CycleRun)
    (distinct : (harvester.participants.map ParticipantEntry.id).Nodup) {index : Nat} {participant : ParticipantEntry}
    {catalog : Catalog} (listed : harvester.participants[index]? = some participant)
    (crawled : crawlOne participant (run.crawls index) = .ok catalog) (stored : (run.crawls index).upserted = .ok ()) :
    participant.id ∈ (harvester.runCycle run).2.summary.succeededIds ∧
      (run.now - (run.crawls index).finishedInstant ≤ harvester.limits.maxCatalogAge →
        (harvester.runCycle run).1.contents ⟨participant.id⟩ = some catalog) := by
  have cached : crawledIn harvester.participants run participant.id =
      some (catalog, (run.crawls index).finishedInstant) := by
    rw [crawledIn_of_getElem? distinct listed]
    simp only [Crawl.cached, crawled, stored]
  constructor
  · exact (mem_succeededIds_iff distinct).mpr (by rw [cached]; rfl)
  · intro young
    obtain ⟨expired, contents, _⟩ := harvester.runCycle_spec run distinct participant.id
    rw [cached] at expired contents
    rw [contents, if_neg]
    · rfl
    · intro gone
      obtain ⟨_, instant, known, old⟩ := expired.mp gone
      have same : (run.crawls index).finishedInstant = instant := Option.some.inj known
      rw [← same] at old
      exact absurd young (not_le.mpr old)

/-- Whichever crawls, cache writes and deletes fail, and in whatever order crawls end: after each cycle the
cache, the times and the status name the same ids, each with its latest successful crawl; what is too old is
gone or could not be deleted; and the report names what was removed, what succeeded and what failed. -/
theorem harvester_cycle (participants : List ParticipantEntry)
    (distinct : (participants.map ParticipantEntry.id).Nodup) (limits : CrawlLimits) (runs : List CycleRun)
    (run : CycleRun) :
    let before := Harvester.after participants limits runs
    let after := (before.runCycle run).1
    let report := (before.runCycle run).2
    let latest := latestSuccess participants (runs ++ [run])
    (∀ id, (id ∈ after.lastSuccess ↔ (after.contents ⟨id⟩).isSome) ∧
      (after.status.saysCached id = true ↔ (after.contents ⟨id⟩).isSome)) ∧
    (∀ id catalog, after.contents ⟨id⟩ = some catalog → ∃ instant, latest id = some (catalog, instant)) ∧
    (∀ id catalog instant, latest id = some (catalog, instant) → limits.maxCatalogAge < run.now - instant →
      after.contents ⟨id⟩ = none ∨ ∃ error, run.deleted id = .error error) ∧
    (∀ id, id ∈ report.expired ↔
      ((before.contents ⟨id⟩).isSome ∨ id ∈ report.summary.succeededIds) ∧ after.contents ⟨id⟩ = none) ∧
    report.expired.Nodup ∧
    (report.summary.succeededIds ++ report.summary.failures.map Prod.fst).Perm
      (participants.map ParticipantEntry.id) ∧
    report.summary.succeededIds.Sublist (participants.map ParticipantEntry.id) ∧
    (report.summary.failures.map Prod.fst).Sublist (participants.map ParticipantEntry.id) ∧
    (∀ other : CycleRun, other.crawls = run.crawls → (before.runCycle other).2.summary = report.summary) ∧
    ∀ index participant catalog, participants[index]? = some participant →
      crawlOne participant (run.crawls index) = .ok catalog → (run.crawls index).upserted = .ok () →
      participant.id ∈ report.summary.succeededIds ∧
        (run.now - (run.crawls index).finishedInstant ≤ limits.maxCatalogAge →
          after.contents ⟨participant.id⟩ = some catalog) := by
  intro before after report latest
  obtain ⟨sameParticipants, sameLimits, knewOf⟩ := Harvester.after_knowsOf distinct limits runs
  -- all of it is read off what the harvester knows of an id, which every run of cycles keeps
  have knowsOf : ∀ id, after.KnowsOf (latest id) id := by
    intro id
    have knows := (Harvester.after_knowsOf distinct limits (runs ++ [run])).2.2 id
    rwa [Harvester.after_append] at knows
  have distinctBefore : (before.participants.map ParticipantEntry.id).Nodup := by rwa [sameParticipants]
  refine ⟨?_, ?_, ?_, ?_, before.expired_nodup run, ?_, ?_, ?_, ?_, ?_⟩
  · exact fun id => (knowsOf id).agree
  · exact fun id catalog => (knowsOf id).latest_of_held
  · intro id catalog instant last old
    exact (knowsOf id).tooOld_gone distinctBefore run last (by rwa [sameLimits])
  · exact fun id => (knewOf id).mem_expired_iff distinctBefore run
  · rw [← sameParticipants]
    exact succeeded_failed_perm
  · rw [← sameParticipants]
    exact succeededIds_sublist
  · rw [← sameParticipants]
    exact failures_sublist
  · intro other same
    have summary (run : CycleRun) : (before.runCycle run).2.summary =
        (outcomesOf before.participants run.crawls).foldl CrawlSummary.add {} := crawlOnce_summary
    rw [summary, same, ← summary run]
  · intro index participant catalog listed crawled stored
    rw [← sameLimits]
    exact before.runCycle_stored run distinctBefore (by rwa [sameParticipants]) crawled stored

def twoParticipants : List ParticipantEntry :=
  [⟨"did:web:first", "First", "https://first.example/catalog", .none, none, none⟩,
    ⟨"did:web:second", "Second", "https://second.example/catalog", .none, none, none⟩]

/-- A cycle in which the crawls end in reverse order. -/
def reversedRun (fetched : Nat → Except String Json) (now : Instant) : CycleRun where
  crawls index := ⟨fetched index, "urn:uuid:fresh", .ok (), now, now⟩
  written := id
  written_perm := List.Perm.refl
  completed := List.reverse
  completed_perm := List.reverse_perm
  now
  hashed := .asListed
  deleted _ := .ok true
  cycleEnd := now

/-- The first participant answers once and is then down for longer than the age limit. -/
theorem downParticipant_gone :
    let runs := [reversedRun (fun _ => .ok (.object [])) 1000]
    let run := reversedRun (fun index => if index = 0 then .error "connection refused" else .ok (.object [])) 9000
    let outcome := (Harvester.after twoParticipants ⟨5000⟩ runs).runCycle run
    outcome.1.contents ⟨"did:web:first"⟩ = none ∧
      (outcome.2.summary.succeededIds ++ outcome.2.summary.failures.map Prod.fst).Perm
        ["did:web:first", "did:web:second"] := by
  intro runs run outcome
  have cycle := harvester_cycle twoParticipants (by decide) ⟨5000⟩ runs run
  have last : ∃ catalog, latestSuccess twoParticipants (runs ++ [run]) "did:web:first" = some (catalog, 1000) :=
    ⟨_, rfl⟩
  obtain ⟨catalog, last⟩ := last
  refine ⟨?_, cycle.2.2.2.2.2.1⟩
  rcases cycle.2.2.1 _ catalog 1000 last (by decide) with gone | ⟨error, refused⟩
  · exact gone
  · cases refused

end CatalogBroker
