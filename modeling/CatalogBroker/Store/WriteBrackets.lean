import CatalogBroker.Store.PolicyFilteredQuery

/-! What an unchanged even write sequence says about the store.

The sequence counts live guards modulo two, so it is even while two brackets overlap;
where commits only happen under an odd sequence, an unchanged even one means no commit.
-/

set_option autoImplicit false

namespace CatalogBroker

open Library.Transitions

namespace System

def guards (system : System) : Nat := system.writers.countP WriterPhase.guarded

def otherGuards (system : System) (index : Nat) : Nat :=
  (system.writers.eraseIdx index).countP WriterPhase.guarded

end System

def Event.IsCommit : Event → Prop
  | .writer _ .commit => True
  | _ => False

/-- A commit is taken while an even number of other writers' guards is alive, and the counter
does not wrap. -/
def Bracketed (system : System) : Event → Prop
  | .writer index .commit => system.otherGuards index % 2 = 0
  | .writer _ .begin => system.writeSequence + 1 < 2 ^ 64
  | .writer _ .drop => system.writeSequence + 1 < 2 ^ 64
  | _ => True

/-! ## What a writer's step can do -/

theorem fetchAdd_mod_two (sequence : Nat) : fetchAdd sequence % 2 = (sequence + 1) % 2 := by
  unfold fetchAdd
  omega

theorem WriterPhase.step_guarded {store : QuadStore} {free : Bool} {phase next : WriterPhase}
    {event : WriterEvent} (stepped : phase.step store free event = some next) :
    (event = .begin ∨ event = .drop) ∧ next.guarded = !phase.guarded ∨
      event ≠ .begin ∧ event ≠ .drop ∧ next.guarded = phase.guarded ∧ (event = .commit → phase.guarded = true) := by
  unfold WriterPhase.step at stepped
  split at stepped
  case h_1 work =>
    split at stepped
    · cases work <;> cases stepped <;> exact .inr (by simp [guarded])
    · cases stepped
  case h_3 graph =>
    split at stepped <;> cases stepped <;> exact .inr (by simp [guarded])
  case h_5 | h_10 | h_12 =>
    cases stepped
    exact .inl (by simp [guarded])
  case h_13 => cases stepped
  all_goals
    cases stepped
    exact .inr (by simp [guarded])

theorem WriterPhase.publish_of_ne (phase : WriterPhase) {event : WriterEvent} (other : event ≠ .commit)
    (store : QuadStore) : phase.publish event store = store := by
  unfold publish
  split
  · exact absurd rfl other
  · rfl

namespace System

variable {system next : System}

theorem guards_eq {index : Nat} {phase : WriterPhase} (found : system.writers[index]? = some phase) :
    system.guards = system.otherGuards index + if phase.guarded then 1 else 0 := by
  obtain ⟨bound, rfl⟩ := List.getElem?_eq_some_iff.mp found
  have perm := (List.getElem_cons_eraseIdx_perm bound).countP_eq WriterPhase.guarded
  rw [List.countP_cons] at perm
  exact perm.symm

theorem guards_set {index : Nat} (phase : WriterPhase) (bound : index < system.writers.length) :
    (system.writers.set index phase).countP WriterPhase.guarded =
      system.otherGuards index + if phase.guarded then 1 else 0 := by
  rw [(List.set_perm_cons_eraseIdx bound phase).countP_eq, List.countP_cons]
  rfl

theorem writerStep_cases {index : Nat} {event : WriterEvent} (stepped : system.writerStep index event = some next) :
    next.caches = system.caches ∧ next.reader = system.reader ∧
      ((event = .begin ∨ event = .drop) ∧ next.store = system.store ∧
          next.writeSequence = fetchAdd system.writeSequence ∧ next.guards % 2 = (system.guards + 1) % 2 ∨
        event = .commit ∧ next.writeSequence = system.writeSequence ∧ next.guards = system.guards ∧
          system.guards = system.otherGuards index + 1 ∨
        event ≠ .begin ∧ event ≠ .drop ∧ event ≠ .commit ∧ next.store = system.store ∧
          next.writeSequence = system.writeSequence ∧ next.guards = system.guards) := by
  unfold writerStep at stepped
  cases found : system.writers[index]? with
  | none => simp [found] at stepped
  | some phase =>
    cases advanced : phase.step system.store (!system.locked) event with
    | none => simp [found, advanced] at stepped
    | some after =>
      simp only [found, advanced, Option.bind_eq_bind, Option.bind_some, pure, Option.some.injEq] at stepped
      subst stepped
      have before := guards_eq found
      have bound := (List.getElem?_eq_some_iff.mp found).1
      have later := guards_set after bound
      refine ⟨rfl, rfl, ?_⟩
      -- only begin and drop move a guard, and they move the sequence with it
      rcases WriterPhase.step_guarded advanced with ⟨edge, toggled⟩ | ⟨notBegin, notDrop, kept, guarded⟩
      · refine .inl ⟨edge, phase.publish_of_ne (by rcases edge with rfl | rfl <;> decide) _, if_pos edge, ?_⟩
        have parity : (system.writers.set index after).countP WriterPhase.guarded % 2 = (system.guards + 1) % 2 := by
          rw [later, before, toggled]
          cases phase.guarded with
          | false => rfl
          | true =>
            simp only [Bool.not_true, Bool.false_eq_true, if_false, if_true]
            omega
        exact parity
      · have advance : ¬ (event = .begin ∨ event = .drop) := not_or.mpr ⟨notBegin, notDrop⟩
        have same : (system.writers.set index after).countP WriterPhase.guarded = system.guards := by
          rw [later, kept, before]
        by_cases commits : event = .commit
        · rw [guarded commits] at before
          exact .inr (.inl ⟨commits, if_neg advance, same, before⟩)
        · exact .inr (.inr ⟨notBegin, notDrop, commits, phase.publish_of_ne commits _, if_neg advance, same⟩)

end System

/-- An even sequence seen earlier; while it is still current, `holds` is true of the store. -/
structure Since (store : QuadStore) (sequence before : Nat) (holds : QuadStore → Prop) : Prop where
  le : before ≤ sequence
  even : before % 2 = 0
  current : sequence = before → holds store

theorem Since.mono {store : QuadStore} {sequence before : Nat} {holds other : QuadStore → Prop}
    (since : Since store sequence before holds) (implies : sequence = before → holds store → other store) :
    Since store sequence before other :=
  ⟨since.le, since.even, fun current => implies current (since.current current)⟩

section

variable {text : IriText} {allowList : String → Catalog → VisibleIris} {evaluate : String → Evaluation}
  {system next : System}

theorem step_cases {event : Event} (stepped : system.step text allowList evaluate event = some next) :
    (∃ index change, event = .writer index change ∧ system.writerStep index change = some next) ∨
      ¬ event.IsCommit ∧ next.store = system.store ∧ next.writeSequence = system.writeSequence ∧
        next.guards = system.guards := by
  cases event with
  | writer index change => exact .inl ⟨index, change, rfl, stepped⟩
  | storeCatalog catalog =>
    simp only [System.step] at stepped
    split at stepped
    · cases stepped
      exact .inr ⟨id, rfl, rfl, rfl⟩
    · cases stepped
      exact .inr ⟨id, rfl, rfl, by simp [System.guards, WriterPhase.guarded]⟩
  | removeCatalog node =>
    cases stepped
    exact .inr ⟨id, rfl, rfl, by simp [System.guards, WriterPhase.guarded]⟩
  | reader event =>
    obtain ⟨outcome, _, rfl⟩ := Option.map_eq_some_iff.mp stepped
    exact .inr ⟨id, rfl, rfl, rfl⟩

theorem step_frame {event : Event} (other : ∀ own, event ≠ .reader own)
    (stepped : system.step text allowList evaluate event = some next) :
    next.caches = system.caches ∧ next.reader = system.reader := by
  cases event with
  | writer index change =>
    obtain ⟨caches, reader, _⟩ := System.writerStep_cases stepped
    exact ⟨caches, reader⟩
  | storeCatalog catalog =>
    simp only [System.step] at stepped
    split at stepped <;> cases stepped <;> exact ⟨rfl, rfl⟩
  | removeCatalog node =>
    cases stepped
    exact ⟨rfl, rfl⟩
  | reader own => exact absurd rfl (other own)

theorem readerStep_replied_ok {event : ReaderEvent} {attempt : Attempt} {body : List UInt8}
    {caches : AllowListCaches}
    (stepped : system.readerStep text allowList evaluate system.reader event =
      some (.replied attempt (.ok body), caches)) :
    ∃ before, system.reader = .confirming attempt before (.ok body) ∧ system.writeSequence = before := by
  unfold System.readerStep at stepped
  split at stepped
  case h_13 attempt before result reading =>
    split at stepped
    · rename_i current
      cases stepped
      exact ⟨before, reading, current⟩
    · cases stepped
  -- Every other phase is left for another one, or with an error.
  all_goals
    try dsimp only at stepped
    repeat' split at stepped
    all_goals cases stepped

theorem parity_step {event : Event} (parity : system.writeSequence % 2 = system.guards % 2)
    (stepped : system.step text allowList evaluate event = some next) :
    next.writeSequence % 2 = next.guards % 2 := by
  rcases step_cases stepped with ⟨index, change, rfl, advanced⟩ | ⟨_, _, sequence, guards⟩
  · obtain ⟨_, _, ⟨_, _, sequence, guards⟩ | ⟨_, sequence, guards, _⟩ | ⟨_, _, _, _, sequence, guards⟩⟩ :=
      System.writerStep_cases advanced
    · rw [sequence, fetchAdd_mod_two, guards]
      omega
    · rw [sequence, guards, parity]
    · rw [sequence, guards, parity]
  · rw [sequence, guards, parity]

theorem bracketed_step {event : Event} (parity : system.writeSequence % 2 = system.guards % 2)
    (bracketed : Bracketed system event) (stepped : system.step text allowList evaluate event = some next) :
    system.writeSequence < next.writeSequence ∨ next.writeSequence = system.writeSequence ∧
      (event.IsCommit ∧ system.writeSequence % 2 = 1 ∨ ¬ event.IsCommit ∧ next.store = system.store) := by
  rcases step_cases stepped with ⟨index, change, rfl, advanced⟩ | ⟨quiet, store, sequence, _⟩
  · obtain ⟨_, _, ⟨edge, _, sequence, _⟩ | ⟨commits, sequence, _, own⟩ | ⟨_, _, quiet, store, sequence, _⟩⟩ :=
      System.writerStep_cases advanced
    · have bound : system.writeSequence + 1 < 2 ^ 64 := by
        rcases edge with rfl | rfl <;> exact bracketed
      rw [sequence, fetchAdd, Nat.mod_eq_of_lt bound]
      omega
    · subst commits
      have others : system.otherGuards index % 2 = 0 := bracketed
      exact .inr ⟨sequence, .inl ⟨trivial, by omega⟩⟩
    · have calm : ¬ (Event.writer index change).IsCommit := by
        cases change <;> first | exact id | exact absurd rfl quiet
      exact .inr ⟨sequence, .inr ⟨calm, store⟩⟩
  · exact .inr ⟨sequence, .inr ⟨quiet, store⟩⟩

/-- What was true of the store under an even sequence stays so while that sequence lasts. -/
theorem Since.step {event : Event} {before : Nat} {holds : QuadStore → Prop}
    (parity : system.writeSequence % 2 = system.guards % 2) (bracketed : Bracketed system event)
    (stepped : system.step text allowList evaluate event = some next)
    (since : Since system.store system.writeSequence before holds) :
    Since next.store next.writeSequence before holds := by
  have le := since.le
  have even := since.even
  rcases bracketed_step parity bracketed stepped with later | ⟨same, ⟨_, odd⟩ | ⟨_, store⟩⟩
  · exact ⟨by omega, even, fun current => by omega⟩
  · exact ⟨by omega, even, fun current => by omega⟩
  · refine ⟨by omega, even, fun current => ?_⟩
    rw [store]
    exact since.current (same ▸ current)

end

/-! ## What the reader and its caches know -/

section

variable (text : IriText) (allowList : String → Catalog → VisibleIris) (evaluate : String → Evaluation)

/-- The sequence a phase rests on, and what it takes the store to be while that sequence lasts. -/
def ReaderPhase.belief : ReaderPhase → Option (Nat × (QuadStore → Prop))
  | .finding _ before => some (before, fun _ => True)
  | .scanning _ before => some (before, fun _ => True)
  | .building _ before graphs => some (before, fun store => ∃ order, graphs = store.snapshots order none)
  | .comparing attempt before visible =>
    some (before, fun store => AllowListOf text (allowList attempt.key) store visible)
  | .remembering attempt before visible =>
    some (before, fun store => AllowListOf text (allowList attempt.key) store visible)
  | .evaluating attempt before visible evaluation => some (before, fun store =>
      AllowListOf text (allowList attempt.key) store visible ∧
        ∀ value, evaluation.Yields store visible value → (evaluate attempt.query).Yields store visible value)
  | .confirming attempt before result => some (before, fun store => ∀ body, result = .ok body →
      ∃ visible, AllowListOf text (allowList attempt.key) store visible ∧
        (evaluate attempt.query).Yields store visible (.ok body))
  | _ => none

/-- Everything the reader or its caches took from the store is still true of it, where the
sequence has not moved on. -/
structure Consistent (system : System) : Prop where
  parity : system.writeSequence % 2 = system.guards % 2
  finished : ∀ (key : String) (entry : CachedAllowList), system.caches.allowLists[key]? = some entry →
    Since system.store system.writeSequence entry.writeSequence fun store =>
      AllowListOf text (allowList key) store entry.visible
  kept : ∀ (key : String) (progress : PartialAllowList), system.caches.partialAllowLists[key]? = some progress →
    Since system.store system.writeSequence progress.writeSequence fun store =>
      progress.On text (allowList key) store
  reader : ∀ before holds, system.reader.belief text allowList evaluate = some (before, holds) →
    Since system.store system.writeSequence before holds

variable {text : IriText} {allowList : String → Catalog → VisibleIris} {evaluate : String → Evaluation}
  {system next : System}

theorem Consistent.initial : Consistent text allowList evaluate System.initial where
  parity := rfl
  finished key entry found := by simp [System.initial, AllowListCaches.empty] at found
  kept key progress found := by simp [System.initial, AllowListCaches.empty] at found
  reader before holds known := by cases known

namespace Consistent

variable (consistent : Consistent text allowList evaluate system)
include consistent

/-- The reader moves on without touching the caches. -/
theorem moveTo {phase : ReaderPhase}
    (known : ∀ before holds, phase.belief text allowList evaluate = some (before, holds) →
      Since system.store system.writeSequence before holds) :
    Consistent text allowList evaluate { system with reader := phase } :=
  ⟨consistent.parity, consistent.finished, consistent.kept, known⟩

theorem moveTo_some {phase : ReaderPhase} {before : Nat} {holds : QuadStore → Prop}
    (belief : phase.belief text allowList evaluate = some (before, holds))
    (since : Since system.store system.writeSequence before holds) :
    Consistent text allowList evaluate { system with reader := phase } := by
  refine consistent.moveTo fun other claimed known => ?_
  rw [belief] at known
  cases known
  exact since

theorem moveTo_none {phase : ReaderPhase} (belief : phase.belief text allowList evaluate = none) :
    Consistent text allowList evaluate { system with reader := phase } := by
  refine consistent.moveTo fun before holds known => ?_
  rw [belief] at known
  cases known

theorem cachedAllowList {key : String} {before : Nat} {now : Instant} {visible : VisibleIris}
    (found : system.caches.cachedAllowList key before now = some visible) :
    Since system.store system.writeSequence before fun store => AllowListOf text (allowList key) store visible := by
  obtain ⟨entry, fresh, rfl⟩ := Option.map_eq_some_iff.mp found
  obtain ⟨stored, valid⟩ := Option.filter_eq_some_iff.mp fresh
  rw [CachedAllowList.isFresh, Bool.and_eq_true, decide_eq_true_eq] at valid
  rw [← valid.1]
  exact consistent.finished key entry stored

theorem buildAllowList (attempt : Attempt) {before : Nat} {graphs : List (NamedNode × GraphSnapshot)}
    (run : BuildRun)
    (scanned : Since system.store system.writeSequence before fun store =>
      ∃ order, graphs = store.snapshots order none) :
    let outcome := system.caches.buildAllowList text (fun _ => allowList attempt.key) attempt.key before graphs run
    Consistent text allowList evaluate { system with caches := outcome.1, reader := .idle } ∧
      ∀ visible, outcome.2 = .ok visible → Since system.store system.writeSequence before fun store =>
        AllowListOf text (allowList attempt.key) store visible := by
  have resumed : system.writeSequence = before → ∀ progress : PartialAllowList,
      system.caches.partialAllowLists[attempt.key]? = some progress → progress.writeSequence = before →
        progress.On text (allowList attempt.key) system.store := by
    intro current progress found same
    exact (consistent.kept attempt.key progress found).current (current.trans same.symm)
  obtain ⟨finished, built, kept⟩ := AllowListCaches.buildAllowList_spec run scanned.current resumed
  refine ⟨⟨consistent.parity, ?_, ?_, fun _ _ known => by cases known⟩, fun visible ok =>
    scanned.mono fun current _ => built visible ok current⟩
  · intro key entry found
    exact consistent.finished key entry (finished ▸ found)
  · intro key progress found
    rcases kept key progress found with ⟨rfl, same, decided⟩ | old
    · rw [same]
      exact scanned.mono fun current _ => decided current
    · exact consistent.kept key progress old

theorem rememberAllowList {attempt : Attempt} {before : Nat} {visible : VisibleIris} (now : Instant)
    (order : HashOrder CachedAllowList)
    (listed : Since system.store system.writeSequence before fun store =>
      AllowListOf text (allowList attempt.key) store visible) :
    Consistent text allowList evaluate { system with
      caches := system.caches.rememberAllowList attempt.key before visible now order } := by
  refine ⟨consistent.parity, ?_, consistent.kept, consistent.reader⟩
  intro key entry found
  rcases AllowListCaches.rememberAllowList_some found with ⟨rfl, rfl⟩ | old
  · exact listed
  · exact consistent.finished key entry old

theorem readerStep {event : ReaderEvent} {phase : ReaderPhase} {caches : AllowListCaches}
    (stepped : system.readerStep text allowList evaluate system.reader event = some (phase, caches)) :
    Consistent text allowList evaluate { system with reader := phase, caches := caches } := by
  have known := consistent.reader
  unfold System.readerStep at stepped
  split at stepped
  -- Called, and the attempt that follows: nothing of the store is known yet.
  case h_1 | h_2 =>
    cases stepped
    exact consistent.moveTo_none rfl
  case h_3 =>
    split at stepped
    · cases stepped
      exact consistent.moveTo_none rfl
    · split at stepped <;> cases stepped <;> exact consistent.moveTo_none rfl
  -- The sequence is loaded: from here on it is the one the reads are compared with.
  case h_4 =>
    split at stepped
    · rename_i even
      cases stepped
      exact consistent.moveTo_some rfl ⟨le_rfl, even, fun _ => trivial⟩
    · split at stepped
      · cases stepped
        exact consistent.moveTo_none rfl
      · split at stepped <;> cases stepped <;> exact consistent.moveTo_none rfl
  -- A finished list is found in the cache, or the scan for a new one begins.
  case h_5 attempt before now reading =>
    rw [reading] at known
    split at stepped
    · rename_i visible found
      cases stepped
      exact consistent.moveTo_some rfl ((consistent.cachedAllowList found).mono fun _ listed => ⟨listed, fun _ => id⟩)
    · cases stepped
      exact consistent.moveTo_some rfl (known before _ rfl)
  case h_6 attempt before order reading =>
    rw [reading] at known
    cases stepped
    exact consistent.moveTo_some rfl ((known before _ rfl).mono fun _ _ => ⟨order, rfl⟩)
  case h_7 =>
    cases stepped
    exact consistent.moveTo_none rfl
  -- The list is built, with what it leaves in the partial cache, and then compared and remembered.
  case h_8 attempt before graphs run reading =>
    rw [reading] at known
    obtain ⟨updated, built⟩ := consistent.buildAllowList attempt run (known before _ rfl)
    generalize system.caches.buildAllowList text (fun _ => allowList attempt.key) attempt.key before graphs run
      = outcome at stepped updated built
    obtain ⟨after, result⟩ := outcome
    cases result with
    | error error =>
      cases stepped
      exact updated.moveTo_none rfl
    | ok visible =>
      cases stepped
      exact updated.moveTo_some rfl (built visible rfl)
  case h_9 attempt before visible reading =>
    rw [reading] at known
    have listed := known before _ rfl
    split at stepped
    · cases stepped
      exact consistent.moveTo_some rfl listed
    · cases stepped
      exact consistent.moveTo_some rfl (listed.mono fun _ listed => ⟨listed, fun _ => id⟩)
  case h_10 attempt before visible now order reading =>
    rw [reading] at known
    have listed := known before _ rfl
    cases stepped
    exact (consistent.rememberAllowList now order listed).moveTo_some rfl
      (listed.mono fun _ listed => ⟨listed, fun _ => id⟩)
  -- The query is evaluated lookup by lookup, each on the store as it then is.
  case h_11 attempt before visible evaluation order reading =>
    rw [reading] at known
    have evaluated := known before _ rfl
    split at stepped
    · rename_i value
      cases stepped
      refine consistent.moveTo_some rfl (evaluated.mono fun _ holds body same => ?_)
      exact ⟨visible, holds.1, holds.2 _ (same ▸ .result value)⟩
    · cases stepped
      refine consistent.moveTo_some rfl (evaluated.mono fun _ holds => ⟨holds.1, fun value rest => ?_⟩)
      exact holds.2 value (.lookup order rest)
  case h_12 attempt before visible evaluation error reading =>
    rw [reading] at known
    cases stepped
    refine consistent.moveTo_some rfl ((known before _ rfl).mono fun _ _ body impossible => ?_)
    cases impossible
  -- What is left replies or starts over, and believes nothing.
  case h_13 =>
    split at stepped <;> cases stepped <;> exact consistent.moveTo_none rfl
  case h_14 =>
    split at stepped <;> cases stepped <;> exact consistent.moveTo_none rfl
  case h_15 => cases stepped

theorem step {event : Event} (bracketed : Bracketed system event)
    (stepped : system.step text allowList evaluate event = some next) :
    Consistent text allowList evaluate next := by
  by_cases reading : ∃ own, event = .reader own
  · obtain ⟨own, rfl⟩ := reading
    obtain ⟨⟨phase, caches⟩, advanced, rfl⟩ := Option.map_eq_some_iff.mp stepped
    exact consistent.readerStep advanced
  · obtain ⟨caches, reader⟩ := step_frame (fun own same => reading ⟨own, same⟩) stepped
    have later {before : Nat} {holds : QuadStore → Prop} :
        Since system.store system.writeSequence before holds → Since next.store next.writeSequence before holds :=
      Since.step consistent.parity bracketed stepped
    refine ⟨parity_step consistent.parity stepped, ?_, ?_, ?_⟩
    · exact fun key entry found => later (consistent.finished key entry (caches ▸ found))
    · exact fun key progress found => later (consistent.kept key progress (caches ▸ found))
    · exact fun before holds known => later (consistent.reader before holds (reader ▸ known))

theorem rises {event : Event} (bracketed : Bracketed system event)
    (stepped : system.step text allowList evaluate event = some next) : system.writeSequence ≤ next.writeSequence := by
  rcases bracketed_step consistent.parity bracketed stepped with later | ⟨equal, _⟩
  · exact later.le
  · exact equal.ge

/-- A step that leaves an even sequence as it is commits nothing. -/
theorem quiet_of_level {event : Event} (bracketed : Bracketed system event)
    (stepped : system.step text allowList evaluate event = some next)
    (equal : next.writeSequence = system.writeSequence) (even : system.writeSequence % 2 = 0) : ¬ event.IsCommit := by
  rcases bracketed_step consistent.parity bracketed stepped with later | ⟨_, ⟨_, odd⟩ | ⟨quiet, _⟩⟩
  · omega
  · omega
  · exact quiet

theorem unbracketed_commit {index : Nat}
    (stepped : system.step text allowList evaluate (.writer index .commit) = some next)
    (unbracketed : ¬ Bracketed system (.writer index .commit)) :
    system.writeSequence % 2 = 0 ∧ next.writeSequence = system.writeSequence := by
  obtain ⟨_, _, ⟨edge, _⟩ | ⟨_, same, _, own⟩ | ⟨_, _, other, _⟩⟩ := System.writerStep_cases stepped
  · rcases edge with impossible | impossible <;> cases impossible
  · have others : system.otherGuards index % 2 ≠ 0 := unbracketed
    have parity := consistent.parity
    exact ⟨by omega, same⟩
  · exact absurd rfl other

/-- An `Ok` reply is sent while the sequence is still the one loaded before the reads. -/
theorem replied_ok {event : Event} {attempt : Attempt} {body : List UInt8}
    (stepped : system.step text allowList evaluate event = some next)
    (returns : next.reader ≠ system.reader) (replied : next.reader = .replied attempt (.ok body)) :
    ∃ visible, AllowListOf text (allowList attempt.key) system.store visible ∧
      (evaluate attempt.query).Yields system.store visible (.ok body) := by
  by_cases reading : ∃ own, event = .reader own
  · obtain ⟨own, rfl⟩ := reading
    obtain ⟨⟨phase, caches⟩, advanced, rfl⟩ := Option.map_eq_some_iff.mp stepped
    have same : phase = .replied attempt (.ok body) := replied
    subst same
    obtain ⟨before, confirming, current⟩ := readerStep_replied_ok advanced
    have known := consistent.reader
    rw [confirming] at known
    exact (known before _ rfl).current current body rfl
  · exact absurd (step_frame (fun own same => reading ⟨own, same⟩) stepped).2 returns

end Consistent

end

/-! ## Runs -/

/-- In a run whose commits all meet the condition: between two states with the same even
sequence no write was committed, and an `Ok` reply is the query evaluated on one store with the
allow-list of that store. A commit that misses the condition leaves the sequence even and the same. -/
theorem even_sequence_brackets_reads (text : IriText) (allowList : String → Catalog → VisibleIris)
    (evaluate : String → Evaluation) (events : List Event) (system : System)
    (run : Run (System.step text allowList evaluate) Bracketed .initial events system) :
    (∀ between later, Run (System.step text allowList evaluate) Bracketed system between later →
      later.writeSequence = system.writeSequence → system.writeSequence % 2 = 0 →
        ∀ event ∈ between, ¬ event.IsCommit) ∧
    (∀ event next attempt body, system.step text allowList evaluate event = some next →
      next.reader ≠ system.reader → next.reader = .replied attempt (.ok body) →
        ∃ visible, AllowListOf text (allowList attempt.key) system.store visible ∧
          (evaluate attempt.query).Yields system.store visible (.ok body)) ∧
    ∀ index next, system.step text allowList evaluate (.writer index .commit) = some next →
      ¬ Bracketed system (.writer index .commit) →
        system.writeSequence % 2 = 0 ∧ next.writeSequence = system.writeSequence := by
  have keeps : ∀ state event next, Consistent text allowList evaluate state → Bracketed state event →
      state.step text allowList evaluate event = some next → Consistent text allowList evaluate next :=
    fun state event next consistent bracketed stepped => consistent.step bracketed stepped
  have consistent := run.invariant keeps Consistent.initial
  refine ⟨?_, fun event next attempt body => consistent.replied_ok, fun index next => consistent.unbracketed_commit⟩
  intro between later onward same even
  have quiet := onward.forall_events_of_level (fun sequence event => sequence % 2 = 0 → ¬ event.IsCommit) keeps
    (fun state event next known bracketed => known.rises bracketed)
    (fun state event next known bracketed => known.quiet_of_level bracketed) consistent same
  exact fun event member => quiet event member even

def emptyCatalog (participant : String) : Catalog where
  id := "catalog"
  originNode := ⟨participant⟩
  participantId := some participant
  properties := ∅
  dataServices := []
  datasets := []

def closedStep : System → Event → Option System :=
  System.step .urlencoding (fun _ _ => ∅) fun query => .result (.error (.parse ("cannot read " ++ query)))

theorem single_writer_brackets : ∃ system,
    Run closedStep Bracketed .initial [.storeCatalog (emptyCatalog "did:web:first"), .writer 0 .start,
      .writer 0 .begin, .writer 0 .buffer, .writer 0 .commit, .writer 0 .drop] system ∧
    ∀ between later, Run closedStep Bracketed system between later →
      later.writeSequence = system.writeSequence → ∀ event ∈ between, ¬ event.IsCommit := by
  have run : ∃ system, Run closedStep Bracketed .initial [.storeCatalog (emptyCatalog "did:web:first"),
      .writer 0 .start, .writer 0 .begin, .writer 0 .buffer, .writer 0 .commit, .writer 0 .drop] system ∧
      system.writeSequence % 2 = 0 := by
    have first : 0 + 1 < 2 ^ 64 := by decide
    have second : 1 + 1 < 2 ^ 64 := by decide
    exact ⟨_, .cons trivial rfl (.cons trivial rfl (.cons first rfl (.cons trivial rfl (.cons rfl rfl
      (.cons second rfl (.nil _)))))), rfl⟩
  obtain ⟨system, run, even⟩ := run
  have brackets := even_sequence_brackets_reads .urlencoding _ _ _ system run
  exact ⟨system, run, fun between later onward same => brackets.1 between later onward same even⟩

/-- Two writers, the second begun before the first drops its guard: the sequence is 2 before and
after the second commit. -/
theorem overlapping_brackets : ∃ before after,
    Run closedStep (fun _ _ => True) .initial
      [.storeCatalog (emptyCatalog "did:web:first"), .storeCatalog (emptyCatalog "did:web:second"),
       .writer 0 .start, .writer 0 .begin, .writer 0 .buffer, .writer 0 .commit,
       .writer 1 .start, .writer 1 .begin] before ∧
    Run closedStep (fun _ _ => True) before [.writer 1 .buffer, .writer 1 .commit] after ∧
    before.writeSequence = 2 ∧ after.writeSequence = 2 ∧ (Event.writer 1 .commit).IsCommit := by
  refine ⟨_, _, .cons trivial rfl (.cons trivial rfl (.cons trivial rfl (.cons trivial rfl (.cons trivial rfl
    (.cons trivial rfl (.cons trivial rfl (.cons trivial rfl (.nil _)))))))),
    .cons trivial rfl (.cons trivial rfl (.nil _)), rfl, rfl, trivial⟩

end CatalogBroker
