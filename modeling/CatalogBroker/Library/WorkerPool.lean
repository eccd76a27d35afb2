import CatalogBroker.Library.Transitions

/-! Jobs taken in order by a bounded number of workers, each going through phases of its own.

A worker's step may change what the workers share; the result of a job is kept where the jobs end.
-/

set_option autoImplicit false

namespace Library.WorkerPool

open Transitions

variable {Job Phase Result Shared Action : Type}

structure Pool (Job Phase Result Shared : Type) where
  waiting : List Job
  running : List (Job × Phase)
  finished : List (Job × Result)
  shared : Shared

/-- A worker takes the next job, or one that is running acts. -/
inductive Event (Action : Type) where
  | start
  | work (index : Nat) (action : Action)

/-- What a worker does: it enters another phase, or the job ends. -/
abbrev Work (Job Phase Result Shared Action : Type) :=
  Job → Phase → Action → Shared → Option (Shared × (Phase ⊕ Result))

namespace Pool

def initial (jobs : List Job) (shared : Shared) : Pool Job Phase Result Shared := ⟨jobs, [], [], shared⟩

variable (limit : Nat) (first : Job → Phase) (work : Work Job Phase Result Shared Action)

def start (pool : Pool Job Phase Result Shared) : Option (Pool Job Phase Result Shared) :=
  match pool.waiting with
  | [] => none
  | job :: waiting =>
    if pool.running.length < limit then
      some { pool with waiting, running := pool.running ++ [(job, first job)] }
    else none

/-- Where a worker's act leaves the pool. -/
def record (pool : Pool Job Phase Result Shared) (index : Nat) (job : Job) (shared : Shared) :
    Phase ⊕ Result → Pool Job Phase Result Shared
  | .inl phase => { pool with running := pool.running.set index (job, phase), shared }
  | .inr result =>
    { pool with running := pool.running.eraseIdx index, finished := pool.finished ++ [(job, result)], shared }

def act (pool : Pool Job Phase Result Shared) (index : Nat) (action : Action) :
    Option (Pool Job Phase Result Shared) := do
  let (job, phase) ← pool.running[index]?
  let (shared, outcome) ← work job phase action pool.shared
  return pool.record index job shared outcome

def step (pool : Pool Job Phase Result Shared) : Event Action → Option (Pool Job Phase Result Shared)
  | .start => pool.start limit first
  | .work index action => pool.act work index action

def Exhausted (pool : Pool Job Phase Result Shared) : Prop := pool.waiting = [] ∧ pool.running = []

def jobs (pool : Pool Job Phase Result Shared) : List Job :=
  pool.waiting ++ (pool.running.map Prod.fst ++ pool.finished.map Prod.fst)

variable {limit first work} {pool next : Pool Job Phase Result Shared} {event : Event Action}

theorem step_cases (steps : pool.step limit first work event = some next) :
    (∃ job waiting, pool.waiting = job :: waiting ∧ pool.running.length < limit ∧
      next = { pool with waiting, running := pool.running ++ [(job, first job)] }) ∨
    ∃ index action job phase shared outcome, pool.running[index]? = some (job, phase) ∧
      work job phase action pool.shared = some (shared, outcome) ∧
      next = pool.record index job shared outcome := by
  cases event with
  | start =>
    left
    simp only [step, start] at steps
    cases waiting : pool.waiting with
    | nil =>
      simp only [waiting] at steps
      cases steps
    | cons job rest =>
      simp only [waiting] at steps
      by_cases room : pool.running.length < limit
      · rw [if_pos room] at steps
        exact ⟨job, rest, rfl, room, (Option.some.inj steps).symm⟩
      · rw [if_neg room] at steps
        cases steps
  | work index action =>
    right
    obtain ⟨⟨job, phase⟩, running, steps⟩ := Option.bind_eq_some_iff.mp steps
    obtain ⟨⟨shared, outcome⟩, worked, steps⟩ := Option.bind_eq_some_iff.mp steps
    exact ⟨index, action, job, phase, shared, outcome, running, worked, (Option.some.inj steps).symm⟩

theorem running_perm {index : Nat} {entry : Job × Phase} (running : pool.running[index]? = some entry) :
    pool.running.Perm (entry :: pool.running.eraseIdx index) := by
  obtain ⟨bound, rfl⟩ := List.getElem?_eq_some_iff.mp running
  exact (List.getElem_cons_eraseIdx_perm bound).symm

theorem set_perm {index : Nat} {entry : Job × Phase} (running : pool.running[index]? = some entry)
    (other : Job × Phase) : (pool.running.set index other).Perm (other :: pool.running.eraseIdx index) :=
  List.set_perm_cons_eraseIdx (List.getElem?_eq_some_iff.mp running).1 other

theorem length_running_le (within : pool.running.length ≤ limit)
    (steps : pool.step limit first work event = some next) : next.running.length ≤ limit := by
  rcases step_cases steps with ⟨job, waiting, _, room, rfl⟩ | ⟨index, action, job, phase, shared, outcome, _, _, rfl⟩
  · simp only [List.length_append, List.length_singleton]
    omega
  · cases outcome with
    | inl phase => simpa only [record, List.length_set] using within
    | inr result =>
      have shorter := List.length_eraseIdx_le pool.running index
      simp only [record]
      omega

theorem jobs_perm (steps : pool.step limit first work event = some next) : next.jobs.Perm pool.jobs := by
  rcases step_cases steps with ⟨job, waiting, taken, _, rfl⟩ |
    ⟨index, action, job, phase, shared, outcome, running, _, rfl⟩
  · simp only [jobs, taken, List.map_append, List.map_singleton, List.append_assoc, List.cons_append, List.nil_append]
    exact (List.perm_middle.append_left _).trans List.perm_middle
  · have before := (running_perm running).map Prod.fst
    cases outcome with
    | inl phase =>
      have after := (set_perm running (job, phase)).map Prod.fst
      exact .append_left _ (.append_right _ (after.trans before.symm))
    | inr result =>
      simp only [jobs, record, List.map_append, List.map_singleton]
      apply List.Perm.append_left
      rw [← List.append_assoc]
      refine List.perm_append_comm.trans ?_
      exact (List.Perm.append_right _ before).symm

theorem phases_keep (holds : Job → Phase → Prop) (ends : Job → Result → Prop) (starts : ∀ job, holds job (first job))
    (enters : ∀ job phase action shared shared' later, holds job phase →
      work job phase action shared = some (shared', .inl later) → holds job later)
    (results : ∀ job phase action shared shared' result, holds job phase →
      work job phase action shared = some (shared', .inr result) → ends job result)
    (running : ∀ entry ∈ pool.running, holds entry.1 entry.2)
    (finished : ∀ entry ∈ pool.finished, ends entry.1 entry.2)
    (steps : pool.step limit first work event = some next) :
    (∀ entry ∈ next.running, holds entry.1 entry.2) ∧ ∀ entry ∈ next.finished, ends entry.1 entry.2 := by
  rcases step_cases steps with ⟨job, waiting, _, _, rfl⟩ |
    ⟨index, action, job, phase, shared, outcome, found, worked, rfl⟩
  · refine ⟨?_, finished⟩
    rw [List.forall_mem_append, List.forall_mem_singleton]
    exact ⟨running, starts job⟩
  -- a job that works moves on in its place, or leaves it with a result
  · have held := running _ (List.mem_of_getElem? found)
    cases outcome with
    | inl later =>
      refine ⟨?_, finished⟩
      intro entry listed
      rcases List.mem_or_eq_of_mem_set listed with other | rfl
      · exact running entry other
      · exact enters job phase action _ _ later held worked
    | inr result =>
      refine ⟨fun entry listed => running entry (List.mem_of_mem_eraseIdx listed), ?_⟩
      simp only [record]
      rw [List.forall_mem_append, List.forall_mem_singleton]
      exact ⟨finished, results job phase action _ _ result held worked⟩

/-- The steps still to come when every phase has a bound of its own. -/
def left (cost : Phase → Nat) (whole : Nat) (pool : Pool Job Phase Result Shared) : Nat :=
  pool.waiting.length * (whole + 1) + (pool.running.map fun entry => cost entry.2).sum

theorem left_falls {cost : Phase → Nat} {whole : Nat} (starts : ∀ job, cost (first job) ≤ whole)
    (enters : ∀ job phase action shared shared' later,
      work job phase action shared = some (shared', .inl later) → cost later < cost phase)
    (ends : ∀ job phase action shared shared' result,
      work job phase action shared = some (shared', .inr result) → 0 < cost phase)
    (steps : pool.step limit first work event = some next) : next.left cost whole < pool.left cost whole := by
  rcases step_cases steps with ⟨job, waiting, taken, _, rfl⟩ |
    ⟨index, action, job, phase, shared, outcome, running, worked, rfl⟩
  · have bound := starts job
    simp only [left, taken, List.length_cons, List.map_append, List.map_singleton, List.sum_append, List.sum_singleton,
      Nat.add_mul]
    omega
  · have before := ((running_perm running).map fun entry => cost entry.2).sum_eq
    simp only [List.map_cons, List.sum_cons] at before
    cases outcome with
    | inl later =>
      have after := ((set_perm running (job, later)).map fun entry => cost entry.2).sum_eq
      simp only [List.map_cons, List.sum_cons] at after
      have falls := enters job phase action _ _ later worked
      simp only [left, record]
      omega
    | inr result =>
      have falls := ends job phase action _ _ result worked
      simp only [left, record]
      omega

/-- A pool that is not exhausted can move: an idle worker takes a job, and a busy one acts. -/
theorem exists_step (workers : 0 < limit) (acts : ∀ job phase shared, ∃ action, (work job phase action shared).isSome)
    (unfinished : ¬pool.Exhausted) : ∃ event next, pool.step limit first work event = some next := by
  cases running : pool.running with
  | nil =>
    cases waiting : pool.waiting with
    | nil => exact absurd ⟨waiting, running⟩ unfinished
    | cons job rest =>
      refine ⟨.start, { pool with waiting := rest, running := pool.running ++ [(job, first job)] }, ?_⟩
      simp [step, start, waiting, running, workers]
  | cons entry rest =>
    obtain ⟨action, enabled⟩ := acts entry.1 entry.2 pool.shared
    obtain ⟨⟨shared, outcome⟩, worked⟩ := Option.isSome_iff_exists.mp enabled
    refine ⟨.work 0 action, pool.record 0 entry.1 shared outcome, ?_⟩
    simp [step, act, running, worked]

/-- From wherever it stands, a pool can be worked off. -/
theorem exists_exhausting_run {cost : Phase → Nat} {whole : Nat} (workers : 0 < limit)
    (acts : ∀ job phase shared, ∃ action, (work job phase action shared).isSome)
    (starts : ∀ job, cost (first job) ≤ whole)
    (enters : ∀ job phase action shared shared' later,
      work job phase action shared = some (shared', .inl later) → cost later < cost phase)
    (ends : ∀ job phase action shared shared' result,
      work job phase action shared = some (shared', .inr result) → 0 < cost phase)
    (pool : Pool Job Phase Result Shared) :
    ∃ events last, Run (step limit first work) (fun _ _ => True) pool events last ∧ last.Exhausted := by
  induction bound : pool.left cost whole using Nat.strong_induction_on generalizing pool with
  | _ bound ih =>
    by_cases finished : pool.Exhausted
    · exact ⟨[], pool, .nil pool, finished⟩
    · obtain ⟨event, next, steps⟩ := exists_step workers acts finished
      have falls := left_falls starts enters ends steps
      obtain ⟨events, last, run, exhausted⟩ := ih (next.left cost whole) (bound ▸ falls) next rfl
      exact ⟨event :: events, last, .cons trivial steps run, exhausted⟩

end Pool

end Library.WorkerPool
