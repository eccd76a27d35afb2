import CatalogBroker.Library.Transitions
import CatalogBroker.Store.CacheEviction

/-! Callers that build, keep, remember and look up allow-lists on the same maps, in any interleaving.

Each event is one critical section or one pass of a build's loop, at its moment. The decisions
made, the builds completed and the lists remembered are written down beside the maps, and
no step reads them.
-/

set_option autoImplicit false

namespace CatalogBroker

open Library CappedMap Maps Transitions

/-- One answer of the callback: in a build for which key and store state, when, and whether the token was set
by its end. -/
structure Decision where
  key : String
  writeSequence : Nat
  moment : Instant
  catalog : Catalog
  answer : VisibleIris
  cancelled : Bool

/-- A build that ran to its end: when it took up its progress, and when it ended. -/
structure Completion where
  key : String
  writeSequence : Nat
  takenAt : Instant
  completedAt : Instant
  visible : VisibleIris

inductive CallerPhase where
  | idle
  | deciding (key : String) (writeSequence : Nat) (takenAt : Instant) (graphs : List (NamedNode × GraphSnapshot))
      (progress : PartialAllowList)
  | keeping (key : String) (progress : PartialAllowList)
  | completed (completion : Completion)

inductive CallerEvent where
  | take (key : String) (writeSequence : Nat) (graphs : List (NamedNode × GraphSnapshot))
  | decide (pass : BuildPass) (allowList : Catalog → VisibleIris)
  | finish (cancelled : Bool)
  | keep (order : HashOrder PartialAllowList)
  | remember (order : HashOrder CachedAllowList)
  | discard
  | lookup (key : String) (writeSequence : Nat)

structure SharedEvent where
  caller : Nat
  moment : Instant
  event : CallerEvent

structure SharedAllowLists where
  caches : AllowListCaches
  phases : Nat → CallerPhase
  clock : Instant
  decisions : List Decision
  completions : List Completion
  remembered : List (Completion × Instant)

/-- What a pass asks the callback, if it does. -/
def decisionsOf (text : IriText) (allowList : Catalog → VisibleIris) (pass : BuildPass) (key : String)
    (writeSequence : Nat) (moment : Instant) (progress : PartialAllowList) (entry : NamedNode × GraphSnapshot) :
    List Decision :=
  if pass.cancelledBefore ∨ entry.1 ∈ progress.done then []
  else ((QuadStore.catalogOf text entry).map fun catalog =>
    ⟨key, writeSequence, moment, catalog, allowList catalog, pass.cancelledAfter⟩).toList

/-- What an event does to its caller, to the maps and to the records. -/
structure Effect where
  phase : CallerPhase
  caches : AllowListCaches
  decisions : List Decision := []
  completions : List Completion := []
  remembered : List (Completion × Instant) := []

namespace SharedAllowLists

def initial : SharedAllowLists := ⟨.empty, fun _ => .idle, 0, [], [], []⟩

def effect (text : IriText) (caches : AllowListCaches) (moment : Instant) :
    CallerPhase → CallerEvent → Option Effect
  | .idle, .take key writeSequence graphs =>
    let (taken, rest) := caches.takeProgress key writeSequence moment
    some { phase := .deciding key writeSequence moment graphs taken, caches := rest }
  | .deciding key writeSequence takenAt (entry :: graphs) progress, .decide pass allowList =>
    let (next, continues) := decideGraph text allowList pass progress entry
    some {
      phase := if continues then .deciding key writeSequence takenAt graphs next else .keeping key next
      caches
      decisions := decisionsOf text allowList pass key writeSequence moment progress entry }
  | .deciding key writeSequence takenAt [] progress, .finish cancelled =>
    if cancelled then some { phase := .keeping key progress, caches }
    else
      let completion := ⟨key, writeSequence, takenAt, moment, progress.visible⟩
      some { phase := .completed completion, caches, completions := [completion] }
  | .keeping key progress, .keep order =>
    some { phase := .idle, caches := caches.keepPartial key progress moment order }
  | .completed completion, .remember order =>
    some {
      phase := .idle
      caches := caches.rememberAllowList completion.key completion.writeSequence completion.visible moment order
      remembered := [(completion, moment)] }
  -- The store has changed since the build began, so its list is not remembered.
  | .completed _, .discard => some { phase := .idle, caches }
  | phase, .lookup _ _ => some { phase, caches }
  | _, _ => none

def apply (shared : SharedAllowLists) (caller : Nat) (moment : Instant) (effect : Effect) : SharedAllowLists where
  caches := effect.caches
  phases := Function.update shared.phases caller effect.phase
  clock := moment
  decisions := shared.decisions ++ effect.decisions
  completions := shared.completions ++ effect.completions
  remembered := shared.remembered ++ effect.remembered

/-- The clock does not go back. -/
def step (text : IriText) (shared : SharedAllowLists) (event : SharedEvent) : Option SharedAllowLists :=
  if event.moment < shared.clock then none
  else (effect text shared.caches event.moment (shared.phases event.caller) event.event).map
    (shared.apply event.caller event.moment)

end SharedAllowLists

/-- `visible` adds up whole answers given for the key on the store state, at `since` or later. -/
def DecidedSince (decisions : List Decision) (key : String) (writeSequence : Nat) (since : Instant)
    (visible : VisibleIris) : Prop :=
  ∃ made : List Decision, made ⊆ decisions ∧
    (∀ decision ∈ made, decision.key = key ∧ decision.writeSequence = writeSequence ∧ since ≤ decision.moment ∧
      decision.cancelled = false) ∧
    ∀ iri, iri ∈ visible ↔ ∃ decision ∈ made, iri ∈ decision.answer

namespace DecidedSince

variable {decisions : List Decision} {key : String} {writeSequence : Nat} {since : Instant} {visible : VisibleIris}

theorem empty : DecidedSince decisions key writeSequence since ∅ :=
  ⟨[], List.nil_subset _, by simp, by simp⟩

theorem mono {more : List Decision} (grows : decisions ⊆ more)
    (decided : DecidedSince decisions key writeSequence since visible) :
    DecidedSince more key writeSequence since visible := by
  obtain ⟨made, listed, each, adds⟩ := decided
  exact ⟨made, List.Subset.trans listed grows, each, adds⟩

theorem add (decided : DecidedSince decisions key writeSequence since visible) {decision : Decision}
    (listed : decision ∈ decisions) (forKey : decision.key = key) (onState : decision.writeSequence = writeSequence)
    (later : since ≤ decision.moment) (whole : decision.cancelled = false) :
    DecidedSince decisions key writeSequence since (visible ∪ decision.answer) := by
  obtain ⟨made, among, each, adds⟩ := decided
  refine ⟨decision :: made, List.cons_subset.mpr ⟨listed, among⟩,
    List.forall_mem_cons.mpr ⟨⟨forKey, onState, later, whole⟩, each⟩, fun iri => ?_⟩
  rw [Finset.mem_union, adds, List.exists_mem_cons_iff, or_comm]

end DecidedSince

theorem decideGraph_answers (text : IriText) (allowList : Catalog → VisibleIris) (pass : BuildPass) (key : String)
    (writeSequence : Nat) (moment : Instant) (progress : PartialAllowList) (entry : NamedNode × GraphSnapshot) :
    let next := (decideGraph text allowList pass progress entry).1
    next.writeSequence = progress.writeSequence ∧ next.startedAt = progress.startedAt ∧
      (next.visible = progress.visible ∨
        ∃ decision ∈ decisionsOf text allowList pass key writeSequence moment progress entry,
          decision.key = key ∧ decision.writeSequence = writeSequence ∧ decision.moment = moment ∧
            decision.cancelled = false ∧ next.visible = progress.visible ∪ decision.answer) := by
  unfold decideGraph decisionsOf
  cases before : pass.cancelledBefore with
  | true => simp
  | false =>
    by_cases known : entry.1 ∈ progress.done
    · simp [known]
    · cases QuadStore.catalogOf text entry with
      | none => simp [known]
      | some catalog => cases after : pass.cancelledAfter <;> simp [known]

namespace SharedAllowLists

/-- Progress for `key` rests on decisions no older than itself. -/
structure Rests (shared : SharedAllowLists) (key : String) (progress : PartialAllowList) : Prop where
  started : progress.startedAt ≤ shared.clock
  decided : DecidedSince shared.decisions key progress.writeSequence progress.startedAt progress.visible

/-- A finished build rests on decisions made since its progress was first taken up, not too long ago. -/
structure Fresh (shared : SharedAllowLists) (completion : Completion) : Prop where
  ended : completion.completedAt ≤ shared.clock
  decided : ∃ since, completion.takenAt < since + partialAllowListTtl ∧
    DecidedSince shared.decisions completion.key completion.writeSequence since completion.visible

def PhaseRests (shared : SharedAllowLists) : CallerPhase → Prop
  | .idle => True
  | .deciding key writeSequence takenAt _ progress =>
    progress.writeSequence = writeSequence ∧ takenAt < progress.startedAt + partialAllowListTtl ∧
      shared.Rests key progress
  | .keeping key progress => shared.Rests key progress
  | .completed completion => completion ∈ shared.completions

/-- The list under `key` was remembered from a completed build for it. -/
def Remembers (shared : SharedAllowLists) (key : String) (entry : CachedAllowList) : Prop :=
  ∃ completion, (completion, entry.builtAt) ∈ shared.remembered ∧ completion.key = key ∧
    completion.writeSequence = entry.writeSequence ∧ completion.visible = entry.visible

structure Sound (shared : SharedAllowLists) : Prop where
  finishedSize : shared.caches.allowLists.size ≤ allowListCacheEntries
  partialSize : shared.caches.partialAllowLists.size ≤ allowListCacheEntries
  finished : ∀ key entry, shared.caches.allowLists[key]? = some entry → shared.Remembers key entry
  partials : ∀ key progress, shared.caches.partialAllowLists[key]? = some progress → shared.Rests key progress
  phases : ∀ caller, shared.PhaseRests (shared.phases caller)
  completions : ∀ completion ∈ shared.completions, shared.Fresh completion
  remembered : ∀ entry ∈ shared.remembered, entry.1 ∈ shared.completions ∧ entry.1.completedAt ≤ entry.2 ∧
    entry.2 ≤ shared.clock

/-- What is written down stays, and time goes on. -/
structure Grows (shared next : SharedAllowLists) : Prop where
  clock : shared.clock ≤ next.clock
  decisions : shared.decisions ⊆ next.decisions
  completions : shared.completions ⊆ next.completions
  remembered : shared.remembered ⊆ next.remembered

section

variable {shared next : SharedAllowLists}

theorem Rests.grow (grows : shared.Grows next) {key : String} {progress : PartialAllowList}
    (rests : shared.Rests key progress) : next.Rests key progress :=
  ⟨rests.started.trans grows.clock, rests.decided.mono grows.decisions⟩

theorem Fresh.grow (grows : shared.Grows next) {completion : Completion} (fresh : shared.Fresh completion) :
    next.Fresh completion := by
  obtain ⟨since, recent, decided⟩ := fresh.decided
  exact ⟨fresh.ended.trans grows.clock, since, recent, decided.mono grows.decisions⟩

theorem PhaseRests.grow (grows : shared.Grows next) {phase : CallerPhase} (rests : shared.PhaseRests phase) :
    next.PhaseRests phase := by
  cases phase with
  | idle => trivial
  | deciding key writeSequence takenAt graphs progress => exact ⟨rests.1, rests.2.1, rests.2.2.grow grows⟩
  | keeping key progress => exact Rests.grow grows rests
  | completed completion => exact grows.completions rests

theorem Remembers.grow (grows : shared.Grows next) {key : String} {entry : CachedAllowList}
    (remembers : shared.Remembers key entry) : next.Remembers key entry := by
  obtain ⟨completion, listed, same⟩ := remembers
  exact ⟨completion, grows.remembered listed, same⟩

theorem grows_apply {moment : Instant} (later : shared.clock ≤ moment) (caller : Nat) (effect : Effect) :
    shared.Grows (shared.apply caller moment effect) :=
  ⟨later, List.subset_append_left _ _, List.subset_append_left _ _, List.subset_append_left _ _⟩

theorem Sound.apply (sound : shared.Sound) {caller : Nat} {moment : Instant} (later : shared.clock ≤ moment)
    {effect : Effect} (own : (shared.apply caller moment effect).PhaseRests effect.phase)
    (finishedSize : effect.caches.allowLists.size ≤ allowListCacheEntries)
    (partialSize : effect.caches.partialAllowLists.size ≤ allowListCacheEntries)
    (finished : ∀ key entry, effect.caches.allowLists[key]? = some entry →
      (shared.apply caller moment effect).Remembers key entry ∨ shared.caches.allowLists[key]? = some entry)
    (partials : ∀ key progress, effect.caches.partialAllowLists[key]? = some progress →
      (shared.apply caller moment effect).Rests key progress ∨
        shared.caches.partialAllowLists[key]? = some progress)
    (completions : ∀ completion ∈ effect.completions, (shared.apply caller moment effect).Fresh completion)
    (remembered : ∀ entry ∈ effect.remembered, entry.1 ∈ shared.completions ∧ entry.1.completedAt ≤ entry.2 ∧
      entry.2 ≤ moment) : (shared.apply caller moment effect).Sound := by
  have grows := grows_apply later caller effect
  refine ⟨finishedSize, partialSize, ?_, ?_, ?_, ?_, ?_⟩
  · intro key entry found
    exact (finished key entry found).elim id fun before => (sound.finished key entry before).grow grows
  · intro key progress found
    exact (partials key progress found).elim id fun before => (sound.partials key progress before).grow grows
  -- Only the caller that moved has a new phase; what the others rest on has grown at most.
  · intro other
    by_cases same : other = caller
    · simp only [SharedAllowLists.apply, same, Function.update_self]
      exact own
    · simp only [SharedAllowLists.apply, Function.update_of_ne same]
      exact (sound.phases other).grow grows
  · intro completion listed
    rcases List.mem_append.mp listed with earlier | added
    · exact (sound.completions completion earlier).grow grows
    · exact completions completion added
  · intro entry listed
    rcases List.mem_append.mp listed with earlier | added
    · obtain ⟨completed, ended, past⟩ := sound.remembered entry earlier
      exact ⟨grows.completions completed, ended, past.trans later⟩
    · obtain ⟨completed, ended, past⟩ := remembered entry added
      exact ⟨grows.completions completed, ended, past⟩

theorem Sound.move (sound : shared.Sound) {caller : Nat} {moment : Instant} (later : shared.clock ≤ moment)
    {effect : Effect} (caches : effect.caches = shared.caches) (remembered : effect.remembered = [])
    (own : (shared.apply caller moment effect).PhaseRests effect.phase)
    (completions : ∀ completion ∈ effect.completions, (shared.apply caller moment effect).Fresh completion) :
    (shared.apply caller moment effect).Sound := by
  apply sound.apply later own
  · exact caches ▸ sound.finishedSize
  · exact caches ▸ sound.partialSize
  · exact fun key entry found => .inr (caches ▸ found)
  · exact fun key progress found => .inr (caches ▸ found)
  · exact completions
  · intro entry listed
    rw [remembered] at listed
    cases listed

theorem sound_initial : initial.Sound where
  finishedSize := by decide
  partialSize := by decide
  finished key entry found := by simp [initial, AllowListCaches.empty] at found
  partials key progress found := by simp [initial, AllowListCaches.empty] at found
  phases caller := trivial
  completions completion listed := by cases listed
  remembered entry listed := by cases listed

/-- What a build takes up was decided for its key on its store state, and was first taken up not too long ago. -/
theorem take_rests (sound : shared.Sound) (key : String) (writeSequence : Nat) {moment : Instant}
    (later : shared.clock ≤ moment) :
    let taken := (shared.caches.takeProgress key writeSequence moment).1
    taken.writeSequence = writeSequence ∧ moment < taken.startedAt + partialAllowListTtl ∧
      taken.startedAt ≤ moment ∧
      DecidedSince shared.decisions key taken.writeSequence taken.startedAt taken.visible := by
  unfold AllowListCaches.takeProgress
  dsimp only
  cases kept : shared.caches.partialAllowLists[key]?.filter fun progress =>
      progress.writeSequence = writeSequence && progress.isFresh moment with
  | none =>
    -- A build with nothing to take up starts now.
    have positive : 0 < partialAllowListTtl := by decide
    exact ⟨rfl, Nat.lt_add_of_pos_right positive, le_refl moment, .empty⟩
  | some progress =>
    obtain ⟨found, usable⟩ := Option.filter_eq_some_iff.mp kept
    rw [Bool.and_eq_true, decide_eq_true_eq] at usable
    have rests := sound.partials key progress found
    have started : progress.startedAt ≤ moment := rests.started.trans later
    have recent : moment - progress.startedAt < partialAllowListTtl := of_decide_eq_true usable.2
    exact ⟨usable.1, (Nat.sub_lt_iff_lt_add' started).mp recent, started, rests.decided⟩

theorem take_sound (sound : shared.Sound) {caller : Nat} {moment : Instant} (later : shared.clock ≤ moment)
    (key : String) (writeSequence : Nat) (graphs : List (NamedNode × GraphSnapshot)) :
    (shared.apply caller moment
      { phase := .deciding key writeSequence moment graphs (shared.caches.takeProgress key writeSequence moment).1
        caches := (shared.caches.takeProgress key writeSequence moment).2 }).Sound := by
  obtain ⟨onState, recent, started, decided⟩ := take_rests sound key writeSequence later
  apply sound.apply later
  · exact ⟨onState, recent, started, decided.mono (List.subset_append_left _ _)⟩
  · exact sound.finishedSize
  · exact Std.ExtTreeMap.size_erase_le.trans sound.partialSize
  · exact fun other entry found => .inr found
  · exact fun other progress found => .inr (getElem?_erase_some found)
  · simp
  · simp

theorem decide_sound (sound : shared.Sound) {text : IriText} {caller : Nat} {moment : Instant}
    (later : shared.clock ≤ moment) {key : String} {writeSequence : Nat} {takenAt : Instant}
    {entry : NamedNode × GraphSnapshot} {graphs : List (NamedNode × GraphSnapshot)} {progress : PartialAllowList}
    (own : shared.PhaseRests (.deciding key writeSequence takenAt (entry :: graphs) progress)) (pass : BuildPass)
    (allowList : Catalog → VisibleIris) :
    (shared.apply caller moment
      { phase := if (decideGraph text allowList pass progress entry).2 then
          .deciding key writeSequence takenAt graphs (decideGraph text allowList pass progress entry).1
          else .keeping key (decideGraph text allowList pass progress entry).1
        caches := shared.caches
        decisions := decisionsOf text allowList pass key writeSequence moment progress entry }).Sound := by
  obtain ⟨onState, recent, rests⟩ := own
  obtain ⟨sameState, sameStart, answers⟩ :=
    decideGraph_answers text allowList pass key writeSequence moment progress entry
  generalize decideGraph text allowList pass progress entry = outcome at sameState sameStart answers ⊢
  generalize decisionsOf text allowList pass key writeSequence moment progress entry = asked at answers ⊢
  have decided : DecidedSince (shared.decisions ++ asked) key outcome.1.writeSequence outcome.1.startedAt
      outcome.1.visible := by
    -- A decision made now is no earlier than the start time, which a resumed build keeps.
    have before := rests.decided.mono (List.subset_append_left shared.decisions asked)
    rw [sameState, sameStart]
    rcases answers with same | ⟨decision, made, forKey, onThis, atMoment, whole, adds⟩
    · rw [same]
      exact before
    · rw [adds]
      apply before.add (List.mem_append_right _ made) forKey (onThis.trans onState.symm) _ whole
      rw [atMoment]
      exact rests.started.trans later
  have started : outcome.1.startedAt ≤ moment := sameStart.trans_le (rests.started.trans later)
  apply sound.move later rfl rfl _ (by simp)
  cases outcome.2 with
  | true => exact ⟨sameState.trans onState, sameStart.symm ▸ recent, started, decided⟩
  | false => exact ⟨started, decided⟩

theorem finish_sound (sound : shared.Sound) {caller : Nat} {moment : Instant} (later : shared.clock ≤ moment)
    {key : String} {writeSequence : Nat} {takenAt : Instant} {progress : PartialAllowList}
    (own : shared.PhaseRests (.deciding key writeSequence takenAt [] progress)) :
    (shared.apply caller moment
      { phase := .completed ⟨key, writeSequence, takenAt, moment, progress.visible⟩
        caches := shared.caches
        completions := [⟨key, writeSequence, takenAt, moment, progress.visible⟩] }).Sound := by
  obtain ⟨onState, recent, rests⟩ := own
  apply sound.move later rfl rfl
  · exact List.mem_append_right _ (List.mem_singleton_self _)
  · intro completion listed
    rw [List.mem_singleton.mp listed]
    have decided := rests.decided.mono (List.subset_append_left shared.decisions [])
    exact ⟨le_refl moment, progress.startedAt, recent, onState ▸ decided⟩

theorem keep_sound (sound : shared.Sound) {caller : Nat} {moment : Instant} (later : shared.clock ≤ moment)
    {key : String} {progress : PartialAllowList} (own : shared.Rests key progress)
    (order : HashOrder PartialAllowList) :
    (shared.apply caller moment
      { phase := .idle, caches := shared.caches.keepPartial key progress moment order }).Sound := by
  apply sound.apply later
  · trivial
  · exact sound.finishedSize
  · exact size_insert_makeRoom_le sound.partialSize progress
  · exact fun other entry found => .inr found
  · intro other entry found
    rcases AllowListCaches.keepPartial_some found with ⟨rfl, rfl⟩ | before
    · exact .inl (own.grow (grows_apply later caller _))
    · exact .inr before
  · simp
  · simp

theorem remember_sound (sound : shared.Sound) {caller : Nat} {moment : Instant} (later : shared.clock ≤ moment)
    {completion : Completion} (own : completion ∈ shared.completions) (order : HashOrder CachedAllowList) :
    (shared.apply caller moment
      { phase := .idle
        caches := shared.caches.rememberAllowList completion.key completion.writeSequence completion.visible moment
          order
        remembered := [(completion, moment)] }).Sound := by
  apply sound.apply later
  · trivial
  · exact size_insert_makeRoom_le sound.finishedSize _
  · exact sound.partialSize
  · intro other entry found
    rcases AllowListCaches.rememberAllowList_some found with ⟨rfl, rfl⟩ | before
    · exact .inl ⟨completion, List.mem_append_right _ (List.mem_singleton_self _), rfl, rfl, rfl⟩
    · exact .inr before
  · exact fun other progress found => .inr found
  · simp
  · intro entry listed
    rw [List.mem_singleton.mp listed]
    exact ⟨own, (sound.completions completion own).ended.trans later, le_refl moment⟩

theorem effect_sound {text : IriText} {caller : Nat} {moment : Instant} (sound : shared.Sound)
    (later : shared.clock ≤ moment) {phase : CallerPhase} (own : shared.PhaseRests phase) {event : CallerEvent}
    {effect : Effect} (does : SharedAllowLists.effect text shared.caches moment phase event = some effect) :
    (shared.apply caller moment effect).Sound := by
  unfold SharedAllowLists.effect at does
  split at does
  · cases does
    exact take_sound sound later _ _ _
  · cases does
    exact decide_sound sound later own _ _
  · split at does
    · cases does
      exact sound.move later rfl rfl (own.2.2.grow (grows_apply later caller _)) (by simp)
    · cases does
      exact finish_sound sound later own
  · cases does
    exact keep_sound sound later own _
  · cases does
    exact remember_sound sound later own _
  · cases does
    exact sound.move later rfl rfl trivial (by simp)
  · cases does
    exact sound.move later rfl rfl (own.grow (grows_apply later caller _)) (by simp)
  · cases does

theorem step_sound {text : IriText} {event : SharedEvent} (sound : shared.Sound)
    (steps : shared.step text event = some next) : next.Sound := by
  unfold step at steps
  split at steps
  · cases steps
  · rename_i forward
    obtain ⟨effect, does, rfl⟩ := Option.map_eq_some_iff.mp steps
    exact effect_sound sound (not_lt.mp forward) (sound.phases event.caller) does

end

theorem Sound.found {shared : SharedAllowLists} (sound : shared.Sound) {key : String} {writeSequence : Nat}
    {moment : Instant} {visible : VisibleIris} (later : shared.clock ≤ moment)
    (found : shared.caches.cachedAllowList key writeSequence moment = some visible) :
    ∃ completion rememberedAt, (completion, rememberedAt) ∈ shared.remembered ∧
      moment < rememberedAt + allowListCacheTtl ∧ completion ∈ shared.completions ∧
      completion.completedAt ≤ rememberedAt ∧ completion.key = key ∧
      completion.writeSequence = writeSequence ∧ completion.visible = visible := by
  obtain ⟨entry, held, rfl⟩ := Option.map_eq_some_iff.mp found
  obtain ⟨listed, usable⟩ := Option.filter_eq_some_iff.mp held
  simp only [CachedAllowList.isFresh, Bool.and_eq_true, decide_eq_true_eq] at usable
  obtain ⟨completion, written, forKey, onState, same⟩ := sound.finished key entry listed
  obtain ⟨completed, ended, past⟩ := sound.remembered _ written
  have recent := (Nat.sub_lt_iff_lt_add' (past.trans later)).mp usable.2
  exact ⟨completion, entry.builtAt, written, recent, completed, ended, forKey, onState.trans usable.1, same⟩

section

variable {shared : SharedAllowLists} {caller : Nat}

theorem step_of_effect (text : IriText) {moment : Instant} {phase : CallerPhase} {event : CallerEvent} {effect : Effect}
    (later : shared.clock ≤ moment) (stands : shared.phases caller = phase)
    (does : SharedAllowLists.effect text shared.caches moment phase event = some effect) :
    ∃ next, shared.step text ⟨caller, moment, event⟩ = some next ∧ next.caches = effect.caches ∧
      next.clock ≤ moment ∧ next.phases caller = effect.phase := by
  refine ⟨shared.apply caller moment effect, ?_, rfl, le_refl moment, Function.update_self ..⟩
  unfold step
  rw [if_neg (not_lt.mpr later), stands, does, Option.map_some]

theorem effect_take (text : IriText) (caches : AllowListCaches) (moment : Instant) (key : String) (writeSequence : Nat)
    (graphs : List (NamedNode × GraphSnapshot)) :
    effect text caches moment .idle (.take key writeSequence graphs) = some
      { phase := .deciding key writeSequence moment graphs (caches.takeProgress key writeSequence moment).1
        caches := (caches.takeProgress key writeSequence moment).2 } := rfl

theorem effect_decide (text : IriText) (caches : AllowListCaches) (moment : Instant) (key : String)
    (writeSequence : Nat) (takenAt : Instant) (entry : NamedNode × GraphSnapshot)
    (graphs : List (NamedNode × GraphSnapshot)) (progress : PartialAllowList) (pass : BuildPass)
    (allowList : Catalog → VisibleIris) :
    effect text caches moment (.deciding key writeSequence takenAt (entry :: graphs) progress)
        (.decide pass allowList) = some
      { phase := if (decideGraph text allowList pass progress entry).2 then
          .deciding key writeSequence takenAt graphs (decideGraph text allowList pass progress entry).1
          else .keeping key (decideGraph text allowList pass progress entry).1
        caches
        decisions := decisionsOf text allowList pass key writeSequence moment progress entry } := rfl

theorem decideGraphs_run (text : IriText) (allowList : Nat → Catalog → VisibleIris) (passes : Nat → BuildPass)
    {key : String} {writeSequence : Nat} {takenAt moment : Instant} {graphs : List (NamedNode × GraphSnapshot)}
    {progress : PartialAllowList} (later : shared.clock ≤ moment)
    (stands : shared.phases caller = .deciding key writeSequence takenAt graphs progress) :
    ∃ events last, Run (step text) (fun _ _ => True) shared events last ∧ last.caches = shared.caches ∧
      last.clock ≤ moment ∧ last.phases caller =
        if (decideGraphs text allowList passes progress graphs).2 then
          .deciding key writeSequence takenAt [] (decideGraphs text allowList passes progress graphs).1
        else .keeping key (decideGraphs text allowList passes progress graphs).1 := by
  induction graphs generalizing shared allowList passes progress with
  | nil => exact ⟨[], shared, .nil shared, rfl, later, stands⟩
  | cons entry graphs ih =>
    obtain ⟨next, steps, caches, now, moved⟩ := step_of_effect text later stands
      (effect_decide text shared.caches moment key writeSequence takenAt entry graphs progress (passes 0)
        (allowList 0))
    simp only [decideGraphs]
    by_cases continues : (decideGraph text (allowList 0) (passes 0) progress entry).2 = true
    · simp only [if_pos continues] at moved ⊢
      obtain ⟨events, last, run, kept, past, reached⟩ := ih (fun pass => allowList (pass + 1))
        (fun pass => passes (pass + 1)) now moved
      exact ⟨_ :: events, last, .cons trivial steps run, kept.trans caches, past, reached⟩
    · simp only [if_neg continues] at moved ⊢
      exact ⟨[_], next, .cons trivial steps (.nil next), caches, now, moved⟩

theorem buildAllowList_run (text : IriText) (allowList : Nat → Catalog → VisibleIris) (key : String)
    (writeSequence : Nat) (graphs : List (NamedNode × GraphSnapshot)) (build : BuildRun)
    (later : shared.clock ≤ build.takenAt) (ordered : build.takenAt ≤ build.keptAt)
    (idle : shared.phases caller = .idle) :
    let outcome := shared.caches.buildAllowList text allowList key writeSequence graphs build
    ∃ events last, Run (step text) (fun _ _ => True) shared events last ∧ last.caches = outcome.1 ∧
      last.phases caller = match outcome.2 with
        | .ok visible => .completed ⟨key, writeSequence, build.takenAt, build.takenAt, visible⟩
        | .error _ => .idle := by
  unfold AllowListCaches.buildAllowList
  dsimp only
  obtain ⟨begun, takes, rest, now, stands⟩ := step_of_effect text later idle
    (effect_take text shared.caches build.takenAt key writeSequence graphs)
  generalize shared.caches.takeProgress key writeSequence build.takenAt = taken at rest stands ⊢
  obtain ⟨decidings, decided, run, caches, past, reached⟩ := decideGraphs_run text allowList build.passes now stands
  have toDecided : Run (step text) (fun _ _ => True) shared (_ :: decidings) decided := .cons trivial takes run
  generalize decideGraphs text allowList build.passes taken.1 graphs = outcome at reached ⊢
  -- A cancelled build leaves its progress once it gets the lock.
  have keeps {state : SharedAllowLists} (past : state.clock ≤ build.takenAt) (same : state.caches = taken.2)
      (keeping : state.phases caller = .keeping key outcome.1) :
      ∃ events last, Run (step text) (fun _ _ => True) state events last ∧
        last.caches = taken.2.keepPartial key outcome.1 build.keptAt build.order ∧ last.phases caller = .idle := by
    obtain ⟨last, steps, kept, _, left⟩ := step_of_effect text (past.trans ordered) keeping
      (show effect text state.caches build.keptAt (.keeping key outcome.1) (.keep build.order) = some
        { phase := .idle, caches := state.caches.keepPartial key outcome.1 build.keptAt build.order } from rfl)
    rw [same] at kept
    exact ⟨[_], last, .cons trivial steps (.nil last), kept, left⟩
  obtain ⟨progress, finished⟩ := outcome
  cases finished with
  | false =>
    obtain ⟨events, last, keeping, kept, left⟩ := keeps past (caches.trans rest) reached
    exact ⟨_, last, toDecided.append keeping, kept, left⟩
  | true =>
    cases cancelled : build.cancelledAtEnd with
    | false =>
      obtain ⟨last, steps, kept, _, left⟩ := step_of_effect text past reached
        (show effect text decided.caches build.takenAt (.deciding key writeSequence build.takenAt [] progress)
          (.finish false) = some
            { phase := .completed ⟨key, writeSequence, build.takenAt, build.takenAt, progress.visible⟩
              caches := decided.caches
              completions := [⟨key, writeSequence, build.takenAt, build.takenAt, progress.visible⟩] } from rfl)
      exact ⟨_, last, toDecided.snoc trivial steps, kept.trans (caches.trans rest), left⟩
    | true =>
      obtain ⟨next, steps, same, stillPast, cancels⟩ := step_of_effect text past reached
        (show effect text decided.caches build.takenAt (.deciding key writeSequence build.takenAt [] progress)
          (.finish true) = some { phase := .keeping key progress, caches := decided.caches } from rfl)
      obtain ⟨events, last, keeping, kept, left⟩ := keeps stillPast (same.trans (caches.trans rest)) cancels
      exact ⟨_, last, (toDecided.snoc trivial steps).append keeping, kept, left⟩

end

end SharedAllowLists

/-- Over every interleaving of callers, neither map outgrows its limit, a full map gives way to a new key by
its stale entries or one oldest, and a list that is found was remembered a short while ago, once a build for its key
and store state had completed it from decisions for these two, the first of them not long before it took them up. -/
theorem allowLists_bounded_and_fresh {text : IriText} {events : List SharedEvent} {shared : SharedAllowLists}
    (run : Run (SharedAllowLists.step text) (fun _ _ => True) .initial events shared) :
    (shared.caches.allowLists.size ≤ allowListCacheEntries ∧
      shared.caches.partialAllowLists.size ≤ allowListCacheEntries) ∧
    (∀ key writeSequence visible moment order,
      let before := shared.caches.allowLists
      let after := (shared.caches.rememberAllowList key writeSequence visible moment order).allowLists
      (before.size = allowListCacheEntries → key ∉ before →
        GivesWay before after key (fun entry => entry.isFresh writeSequence moment) CachedAllowList.builtAt) ∧
      (before.size < allowListCacheEntries ∨ key ∈ before → LeavesOthers before after key)) ∧
    (∀ key progress moment order,
      let before := shared.caches.partialAllowLists
      let after := (shared.caches.keepPartial key progress moment order).partialAllowLists
      (before.size = allowListCacheEntries → key ∉ before →
        GivesWay before after key (fun entry => entry.isFresh moment) PartialAllowList.startedAt) ∧
      (before.size < allowListCacheEntries ∨ key ∈ before → LeavesOthers before after key)) ∧
    ∀ key writeSequence moment visible, shared.clock ≤ moment →
      shared.caches.cachedAllowList key writeSequence moment = some visible →
      ∃ completion rememberedAt, (completion, rememberedAt) ∈ shared.remembered ∧
        moment < rememberedAt + allowListCacheTtl ∧
        completion ∈ shared.completions ∧ completion.completedAt ≤ rememberedAt ∧
        completion.key = key ∧ completion.writeSequence = writeSequence ∧ completion.visible = visible ∧
        ∃ since, completion.takenAt < since + partialAllowListTtl ∧
          DecidedSince shared.decisions key writeSequence since visible := by
  -- the eviction clauses are about one call; the rest is read off the invariant
  have sound := run.invariant (fun _ _ _ sound _ steps => SharedAllowLists.step_sound sound steps)
    SharedAllowLists.sound_initial
  refine ⟨⟨sound.finishedSize, sound.partialSize⟩, ?_, ?_, ?_⟩
  · intro key writeSequence visible moment order before after
    exact ⟨fun full absent => insert_givesWay full absent _, fun possible => insert_leavesOthers possible _⟩
  · intro key progress moment order before after
    exact ⟨fun full absent => insert_givesWay full absent _, fun possible => insert_leavesOthers possible _⟩
  · intro key writeSequence moment visible later found
    obtain ⟨completion, rememberedAt, written, recent, completed, ended, rfl, rfl, rfl⟩ := sound.found later found
    exact ⟨completion, rememberedAt, written, recent, completed, ended, rfl, rfl, rfl,
      (sound.completions completion completed).decided⟩

/-- The graphs of a store with one catalog. -/
def storedGraphs : List (NamedNode × GraphSnapshot) :=
  (QuadStore.empty.storeCatalog .urlencoding
    ⟨"first", ⟨"did:web:first"⟩, none, [], [], ∅⟩).1.snapshots ⟨id, List.Perm.refl, id, List.Perm.refl⟩ none

/-- One caller is cancelled once it has decided the catalog, another takes up its decision and completes. -/
def resumedRun : List SharedEvent :=
  [⟨0, 0, .take "caller" 0 storedGraphs⟩, ⟨0, 5, .decide ⟨false, false⟩ fun catalog => {catalog.id}⟩,
    ⟨0, 10, .finish true⟩, ⟨0, 12, .keep .asListed⟩, ⟨1, 20, .take "caller" 0 storedGraphs⟩,
    ⟨1, 22, .decide ⟨false, false⟩ fun _ => ∅⟩, ⟨1, 25, .finish false⟩, ⟨1, 26, .remember .asListed⟩]

theorem resumedRun_found : ∃ shared,
    Run (SharedAllowLists.step .urlencoding) (fun _ _ => True) .initial resumedRun shared ∧ shared.clock ≤ 3000 ∧
      shared.caches.cachedAllowList "caller" 0 3000 = some {"first"} := by
  have decided : (resumedRun.foldlM (SharedAllowLists.step .urlencoding) .initial).map (fun shared =>
      (shared.clock, shared.caches.cachedAllowList "caller" 0 3000)) = some (26, some {"first"}) := by
    decide +kernel
  obtain ⟨shared, taken, same⟩ := Option.map_eq_some_iff.mp decided
  have clock : shared.clock = 26 := congrArg Prod.fst same
  exact ⟨shared, .of_foldlM taken, by rw [clock]; decide, congrArg Prod.snd same⟩

theorem resumedRun_fresh : ∃ shared completion rememberedAt,
    Run (SharedAllowLists.step .urlencoding) (fun _ _ => True) .initial resumedRun shared ∧
      (completion, rememberedAt) ∈ shared.remembered ∧ 3000 < rememberedAt + allowListCacheTtl ∧
      completion.key = "caller" ∧ completion.visible = {"first"} := by
  obtain ⟨shared, run, past, found⟩ := resumedRun_found
  obtain ⟨_, _, _, lookups⟩ := allowLists_bounded_and_fresh run
  obtain ⟨completion, rememberedAt, written, recent, _, _, forKey, _, whole, _⟩ :=
    lookups "caller" 0 3000 {"first"} past found
  exact ⟨shared, completion, rememberedAt, run, written, recent, forKey, whole⟩

/-- A list completed at once but remembered a millisecond later. -/
def delayedRun : List SharedEvent :=
  [⟨0, 0, .take "caller" 0 []⟩, ⟨0, 0, .finish false⟩, ⟨0, 1, .remember .asListed⟩]

/-- It is found when no build has completed for as long as a list may be kept. -/
theorem delayed_list_outlives : ∃ shared,
    Run (SharedAllowLists.step .urlencoding) (fun _ _ => True) .initial delayedRun shared ∧ shared.clock ≤ 5000 ∧
      shared.caches.cachedAllowList "caller" 0 5000 = some ∅ ∧
      ∀ completion ∈ shared.completions, ¬ 5000 < completion.completedAt + allowListCacheTtl := by
  refine ⟨_, .cons trivial rfl (.cons trivial rfl (.cons trivial rfl (.nil _))), ?_, ?_, ?_⟩
  · decide +kernel
  · decide +kernel
  · decide +kernel

end CatalogBroker
