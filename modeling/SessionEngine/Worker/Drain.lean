import SessionEngine.Worker.Pool

namespace SessionEngine.Worker

/-- Where the one caller of `Stop` is: not yet called, blocked in `wg.Wait()`, or returned. -/
inductive StopPhase where
  | idle
  | waiting
  | returned
  deriving DecidableEq, Repr

/-- A started pool together with the goroutines that call `Submit` on it and the caller of
    `Stop`. `senders` are the `Submit` calls that have not returned; `calls` records every
    `Submit` call; `unwound` are the jobs whose panic has run its worker's deferred calls, each
    of which the runtime is about to raise; `panic` is set once the process dies of an
    unrecovered panic. -/
structure Drain where
  pool : Pool
  senders : List Job
  calls : List Job
  stop : StopPhase
  unwound : List Job
  panic : Option Panic
  deriving DecidableEq, Repr

/-- The scheduler's choices: a producer calls `Submit`, a blocked send completes (into the
    buffer or straight to a waiting worker), a worker steps, `Stop` proceeds, or the runtime
    ends the process with an unwound panic. -/
inductive DrainAction where
  | submit (job : Job)
  | send (k : Nat)
  | handoff (k w : Nat)
  | receive (w : Nat)
  | finish (w : Nat)
  | unwind (w : Nat)
  | stop
  | wait
  | crash (k : Nat)
  deriving DecidableEq, Repr

def Drain.init (c : Config) : Drain :=
  { pool := c.start, senders := [], calls := [], stop := .idle, unwound := [], panic := none }

/-- Apply the outcome of a pool operation; a panic ends the process. -/
def Drain.apply (s : Drain) : Except Panic Pool → Drain
  | .ok p => { s with pool := p }
  | .error e => { s with panic := some e }

def Drain.step (c : Config) (s : Drain) (a : DrainAction) : Option Drain :=
  if s.panic.isSome then none
  else
    match a with
    | .submit job => some { s with senders := s.senders ++ [job], calls := s.calls ++ [job] }
    | .send k => do
      let job ← s.senders[k]?
      let result ← s.pool.send c job
      some { s.apply result with senders := s.senders.eraseIdx k }
    | .handoff k w => do
      let job ← s.senders[k]?
      let p ← s.pool.handoff job w
      some { s with pool := p, senders := s.senders.eraseIdx k }
    | .receive w => (s.pool.receive w).map fun p => { s with pool := p }
    | .finish w => (s.pool.finish w).map fun p => { s with pool := p }
    | .unwind w => (s.pool.unwind w).map fun r => { s with pool := r.2, unwound := s.unwound ++ [r.1] }
    | .stop => if s.stop = .idle then some { s.apply s.pool.close with stop := .waiting } else none
    | .wait => if s.stop = .waiting ∧ s.pool.drained then some { s with stop := .returned } else none
    | .crash k => s.unwound[k]?.map fun job => { s with panic := some (.job job) }

/-- The states a run reaches from a pool of configuration `c`, when every step the
    scheduler takes satisfies `allowed`. -/
inductive Drain.Reachable (c : Config) (allowed : Drain → DrainAction → Prop) : Drain → Prop
  | init : Drain.Reachable c allowed (Drain.init c)
  | step {s s' : Drain} {a : DrainAction} : Drain.Reachable c allowed s → allowed s a →
      s.step c a = some s' → Drain.Reachable c allowed s'

/-- Runs without a panic: no job panics, `Submit` is never called once `Stop` has
    been, and `Stop` is called after the last `Submit` returned. -/
def Disciplined (s : Drain) : DrainAction → Prop
  | .submit job => s.stop = .idle ∧ job.panics = false
  | .stop => s.senders = []
  | _ => True

/-- The invariant of disciplined runs: the pool's own invariant, every `Submit` call is
    either accepted or still sending, the channel is closed exactly once `Stop` has started,
    and after that nobody is sending. -/
structure Drain.Inv (c : Config) (s : Drain) : Prop where
  pool : s.pool.Inv c
  calls : s.calls.Perm (s.pool.accepted ++ s.senders)
  closed : s.pool.closed = true ↔ s.stop ≠ .idle
  quiet : s.stop ≠ .idle → s.senders = []
  returned : s.stop = .returned → s.pool.drained = true
  safe : ∀ job ∈ s.calls, job.panics = false
  calm : ∀ job, WorkerState.panicking job ∉ s.pool.workers
  unwound : s.unwound = []
  alive : s.panic = none

section Disciplined

variable {c : Config} {s s' : Drain}

theorem Drain.init_inv (c : Config) : (Drain.init c).Inv c :=
  ⟨c.start_inv, by simp [Drain.init, Config.start], by simp [Drain.init, Config.start],
    by simp [Drain.init], by simp [Drain.init], by simp [Drain.init],
    by simp [Drain.init, Config.start, List.mem_replicate], rfl, rfl⟩

theorem Drain.step_alive {a : DrainAction} (alive : s.panic = none) :
    s.step c a = match a with
      | .submit job => some { s with senders := s.senders ++ [job], calls := s.calls ++ [job] }
      | .send k => s.senders[k]?.bind fun job => (s.pool.send c job).bind fun result =>
          some { s.apply result with senders := s.senders.eraseIdx k }
      | .handoff k w => s.senders[k]?.bind fun job => (s.pool.handoff job w).bind fun p =>
          some { s with pool := p, senders := s.senders.eraseIdx k }
      | .receive w => (s.pool.receive w).map fun p => { s with pool := p }
      | .finish w => (s.pool.finish w).map fun p => { s with pool := p }
      | .unwind w => (s.pool.unwind w).map fun r => { s with pool := r.2, unwound := s.unwound ++ [r.1] }
      | .stop => if s.stop = .idle then some { s.apply s.pool.close with stop := .waiting } else none
      | .wait => if s.stop = .waiting ∧ s.pool.drained then some { s with stop := .returned } else none
      | .crash k => s.unwound[k]?.map fun job => { s with panic := some (.job job) } := by
  simp only [Drain.step, alive, Option.isSome_none, Bool.false_eq_true, ↓reduceIte]
  rfl

theorem Drain.Inv.mem_calls (inv : s.Inv c) {job : Job} (running : job ∈ s.pool.running) :
    job ∈ s.calls :=
  inv.calls.symm.subset (List.mem_append_left _ (inv.pool.conserved.symm.subset (by simp [running])))

theorem Drain.not_returned {w : Nat} {x : WorkerState} (returned : s.stop = .returned → s.pool.drained = true)
    (found : s.pool.workers[w]? = some x) (busy : x ≠ .exited) : s.stop ≠ .returned := by
  intro done
  have exited := List.all_eq_true.mp (returned done) x (List.getElem?_mem found)
  exact busy (by simpa using exited)

theorem panicking_set {workers : List WorkerState} {P : Job → Prop}
    (panicking : ∀ job, WorkerState.panicking job ∈ workers → P job) {x : WorkerState}
    (fresh : ∀ job, .panicking job = x → P job) (w : Nat) :
    ∀ job, WorkerState.panicking job ∈ workers.set w x → P job :=
  fun job member => (List.mem_or_eq_of_mem_set member).elim (panicking job) (fresh job)

theorem Drain.Inv.step {a : DrainAction} (inv : s.Inv c) (allowed : Disciplined s a)
    (stepped : s.step c a = some s') : s'.Inv c := by
  rw [Drain.step_alive inv.alive] at stepped
  cases a <;> dsimp only at stepped allowed
  case submit job =>
    obtain ⟨idle, harmless⟩ := allowed
    cases stepped
    refine ⟨inv.pool, ?_, inv.closed, fun busy => absurd idle busy, inv.returned, ?_, inv.calm, inv.unwound,
      inv.alive⟩
    · simpa using inv.calls.append_right [job]
    · simp only [List.mem_append, List.mem_singleton]
      rintro other (member | rfl)
      exacts [inv.safe other member, harmless]
  case send k =>
    simp only [Option.bind_eq_some, Option.some.injEq] at stepped
    obtain ⟨job, found, result, sent, rfl⟩ := stepped
    rcases Pool.send_cases sent with ⟨closed, rfl⟩ | ⟨-, -, rfl⟩
    · simp [inv.quiet (inv.closed.mp closed)] at found
    · dsimp only [Drain.apply]
      refine ⟨Pool.send_inv sent inv.pool, ?_, inv.closed, fun busy => ?_, inv.returned, inv.safe,
        inv.calm, inv.unwound, inv.alive⟩
      · simpa using inv.calls.trans ((perm_cons_eraseIdx found).append_left s.pool.accepted)
      · simp [inv.quiet busy] at found
  case handoff k w =>
    simp only [Option.bind_eq_some, Option.some.injEq] at stepped
    obtain ⟨job, found, p, handed, rfl⟩ := stepped
    have pool := Pool.handoff_inv handed inv.pool
    obtain ⟨-, -, waiting, rfl⟩ := Pool.handoff_cases handed
    refine ⟨pool, ?_, inv.closed, fun busy => ?_,
      fun done => (Drain.not_returned inv.returned waiting (by simp) done).elim, inv.safe,
      panicking_set inv.calm (by simp) w, inv.unwound, inv.alive⟩
    · simpa using inv.calls.trans ((perm_cons_eraseIdx found).append_left s.pool.accepted)
    · simp [inv.quiet busy] at found
  case receive w =>
    obtain ⟨p, received, rfl⟩ := Option.map_eq_some'.mp stepped
    have pool := Pool.receive_inv received inv.pool
    obtain ⟨found, ⟨job, rest, -, rfl⟩ | ⟨-, -, rfl⟩⟩ := Pool.receive_cases received <;>
      exact ⟨pool, inv.calls, inv.closed, inv.quiet,
        fun done => (Drain.not_returned inv.returned found (by simp) done).elim, inv.safe,
        panicking_set inv.calm (by simp) w, inv.unwound, inv.alive⟩
  case finish w =>
    obtain ⟨p, finished, rfl⟩ := Option.map_eq_some'.mp stepped
    obtain ⟨job, found, ⟨panics, -⟩ | ⟨-, rfl⟩⟩ := Pool.finish_cases finished
    · have harmless := inv.safe job (inv.mem_calls (Pool.mem_running found))
      simp [panics] at harmless
    · exact ⟨Pool.finish_inv finished inv.pool, inv.calls, inv.closed, inv.quiet,
        fun done => (Drain.not_returned inv.returned found (by simp) done).elim, inv.safe,
        panicking_set inv.calm (by simp) w, inv.unwound, inv.alive⟩
  case unwind w =>
    obtain ⟨r, unwound, -⟩ := Option.map_eq_some'.mp stepped
    exact absurd (List.getElem?_mem (Pool.unwind_cases unwound).1) (inv.calm r.1)
  case stop =>
    split at stepped
    · rename_i idle
      cases stepped
      have open_ : s.pool.closed = false := by simpa [idle] using inv.closed
      have closing : s.pool.close = .ok { s.pool with closed := true } := by simp [Pool.close, open_]
      rw [closing]
      dsimp only [Drain.apply]
      exact ⟨Pool.close_inv closing inv.pool, inv.calls, by simp, fun _ => allowed,
        fun done => (nomatch done), inv.safe, inv.calm, inv.unwound, inv.alive⟩
    · cases stepped
  case wait =>
    split at stepped
    · rename_i ready
      cases stepped
      have closed : s.pool.closed = true := inv.closed.mpr (by simp [ready.1])
      exact ⟨inv.pool, inv.calls, by simp [closed], fun _ => inv.quiet (by simp [ready.1]),
        fun _ => ready.2, inv.safe, inv.calm, inv.unwound, inv.alive⟩
    · cases stepped
  case crash k =>
    obtain ⟨job, found, -⟩ := Option.map_eq_some'.mp stepped
    simp [inv.unwound] at found

theorem Drain.Reachable.inv (reach : Drain.Reachable c Disciplined s) : s.Inv c := by
  induction reach with
  | init => exact Drain.init_inv c
  | step _ allowed stepped ih => exact ih.step allowed stepped

end Disciplined

theorem newWorkerPool_bounds {workerCount : Int} {c : Config}
    (created : newWorkerPool workerCount = some c) :
    (c.capacity : Int) ≤ 4 * max workerCount 1 ∧ 0 < c.workerCount := by
  unfold newWorkerPool at created
  split at created
  · cases created
  · rename_i nonneg
    cases created
    have count : (normalisedCount workerCount : Int) = max workerCount 1 := by
      unfold normalisedCount
      split <;> omega
    have wrapped : queueSize workerCount ≤ normalisedCount workerCount * 4 := by
      unfold queueSize
      rw [Int.bmod_def]
      split <;> omega
    have positive : 0 < normalisedCount workerCount := by
      unfold normalisedCount
      split <;> omega
    exact ⟨by dsimp only; omega, positive⟩

theorem drain_runs_every_job_once (workerCount : Int) (c : Config) (s : Drain)
    (created : newWorkerPool workerCount = some c) (reach : Drain.Reachable c Disciplined s) :
    s.panic = none ∧ (s.pool.queue.length : Int) ≤ 4 * max workerCount 1 ∧
      (s.stop = .returned → s.pool.executed.Perm s.calls) := by
  have inv := reach.inv
  obtain ⟨capacity, started⟩ := newWorkerPool_bounds created
  refine ⟨inv.alive, by have := inv.pool.bounded; omega, fun done => ?_⟩
  obtain ⟨-, -, executed⟩ := inv.pool.drained_executed started (inv.returned done)
  have quiet := inv.quiet (by simp [done])
  exact (inv.calls.trans (by simpa [quiet] using executed)).symm

theorem drain_runs_one_job :
    ∃ s, Drain.Reachable ⟨1, 4⟩ Disciplined s ∧ s.calls = [⟨0, false⟩] ∧ s.stop = .returned ∧
      s.pool.executed.Perm s.calls := by
  have reach : Drain.Reachable ⟨1, 4⟩ Disciplined _ :=
    .step (.step (.step (.step (.step (.step (.step .init
      (a := .submit ⟨0, false⟩) ⟨rfl, rfl⟩ rfl) (a := .send 0) trivial rfl) (a := .receive 0) trivial rfl)
      (a := .finish 0) trivial rfl) (a := .stop) rfl rfl) (a := .receive 0) trivial rfl) (a := .wait) trivial rfl
  exact ⟨_, reach, rfl, rfl, (drain_runs_every_job_once 1 ⟨1, 4⟩ _ rfl reach).2.2 rfl⟩

/-- What holds in every run, whatever the jobs and whenever `Submit` and `Stop` are called:
    `Stop` returns only once every worker has, a job's call returns only if the job does not
    panic, and every panic being unwound, unwound or raised is a job's own. -/
structure Drain.Crash (s : Drain) : Prop where
  returned : s.stop = .returned → s.pool.drained = true
  executed : ∀ job ∈ s.pool.executed, job.panics = false
  panicking : ∀ job, WorkerState.panicking job ∈ s.pool.workers → job.panics = true
  unwound : ∀ job ∈ s.unwound, job.panics = true
  panicked : ∀ job, s.panic = some (.job job) → job ∈ s.unwound

section Unrestricted

variable {c : Config} {s s' : Drain}

theorem Drain.Crash.step {a : DrainAction} (crash : s.Crash) (stepped : s.step c a = some s') :
    s'.Crash := by
  have alive : s.panic = none := by
    cases panic : s.panic
    · rfl
    · simp [Drain.step, panic] at stepped
  rw [Drain.step_alive alive] at stepped
  cases a <;> dsimp only at stepped
  case submit job =>
    cases stepped
    exact { crash with panicked := by simp [alive] }
  case send k =>
    simp only [Option.bind_eq_some, Option.some.injEq] at stepped
    obtain ⟨job, found, result, sent, rfl⟩ := stepped
    rcases Pool.send_cases sent with ⟨-, rfl⟩ | ⟨-, -, rfl⟩
    · exact { crash with panicked := by simp [Drain.apply] }
    · exact { crash with panicked := by simp [Drain.apply, alive] }
  case handoff k w =>
    simp only [Option.bind_eq_some, Option.some.injEq] at stepped
    obtain ⟨job, found, p, handed, rfl⟩ := stepped
    obtain ⟨-, -, waiting, rfl⟩ := Pool.handoff_cases handed
    exact ⟨fun done => (Drain.not_returned crash.returned waiting (by simp) done).elim, crash.executed,
      panicking_set crash.panicking (by simp) w, crash.unwound, by simp [alive]⟩
  case receive w =>
    obtain ⟨p, received, rfl⟩ := Option.map_eq_some'.mp stepped
    obtain ⟨found, ⟨job, rest, -, rfl⟩ | ⟨-, -, rfl⟩⟩ := Pool.receive_cases received <;>
      exact ⟨fun done => (Drain.not_returned crash.returned found (by simp) done).elim, crash.executed,
        panicking_set crash.panicking (by simp) w, crash.unwound, by simp [alive]⟩
  case finish w =>
    obtain ⟨p, finished, rfl⟩ := Option.map_eq_some'.mp stepped
    obtain ⟨job, found, outcome⟩ := Pool.finish_cases finished
    have running := Drain.not_returned crash.returned found (by simp)
    rcases outcome with ⟨panics, rfl⟩ | ⟨harmless, rfl⟩
    · refine ⟨fun done => absurd done running, crash.executed, panicking_set crash.panicking ?_ w, crash.unwound,
        by simp [alive]⟩
      rintro other ⟨⟩
      exact panics
    · refine ⟨fun done => absurd done running, ?_, panicking_set crash.panicking (by simp) w, crash.unwound,
        by simp [alive]⟩
      simp only [List.mem_append, List.mem_singleton]
      rintro other (member | rfl)
      exacts [crash.executed other member, harmless]
  case unwind w =>
    obtain ⟨⟨job, p⟩, unwound, rfl⟩ := Option.map_eq_some'.mp stepped
    obtain ⟨found, rfl⟩ := Pool.unwind_cases unwound
    refine ⟨fun done => (Drain.not_returned crash.returned found (by simp) done).elim, crash.executed,
      panicking_set crash.panicking (by simp) w, ?_, by simp [alive]⟩
    simp only [List.mem_append, List.mem_singleton]
    rintro other (member | rfl)
    exacts [crash.unwound other member, crash.panicking other (List.getElem?_mem found)]
  case stop =>
    split at stepped
    · cases stepped
      unfold Pool.close
      split
      · exact { crash with returned := fun done => (nomatch done), panicked := by simp [Drain.apply] }
      · exact { crash with returned := fun done => (nomatch done), panicked := by simp [Drain.apply, alive] }
    · cases stepped
  case wait =>
    split at stepped
    · rename_i ready
      cases stepped
      exact { crash with returned := fun _ => ready.2, panicked := by simp [alive] }
    · cases stepped
  case crash k =>
    obtain ⟨job, found, rfl⟩ := Option.map_eq_some'.mp stepped
    exact { crash with panicked := by simpa using List.getElem?_mem found }

theorem Drain.Reachable.crash {allowed : Drain → DrainAction → Prop}
    (reach : Drain.Reachable c allowed s) : s.Crash := by
  induction reach with
  | init => exact ⟨fun done => (nomatch done), by simp [Drain.init, Config.start],
      by simp [Drain.init, Config.start, List.mem_replicate], by simp [Drain.init], by simp [Drain.init]⟩
  | step _ _ stepped ih => exact ih.step stepped

end Unrestricted

theorem job_panic_ends_process (c : Config) (s : Drain) (reach : Drain.Reachable c (fun _ _ => True) s) :
    (∀ job ∈ s.pool.executed, job.panics = false) ∧
      (∀ job, WorkerState.panicking job ∈ s.pool.workers ∨ job ∈ s.unwound → job.panics = true) ∧
      (s.stop = .returned → s.pool.drained = true) ∧
      (s.panic = none → ∀ k job, s.unwound[k]? = some job →
        s.step c (.crash k) = some { s with panic := some (.job job) }) ∧
      ∀ job, s.panic = some (.job job) → job ∈ s.unwound ∧ ∀ a, s.step c a = none := by
  have crash := reach.crash
  refine ⟨crash.executed, fun job held => held.elim (crash.panicking job) (crash.unwound job), crash.returned,
    fun alive k job found => ?_, fun job panicked => ⟨crash.panicked job panicked, fun a => ?_⟩⟩
  · simp [Drain.step, alive, found]
  · simp [Drain.step, panicked]

/-- One worker, a panicking job followed by a harmless one, and `Stop` called after both
    `Submit`s returned: the worker runs the first job, which panics; its deferred `wg.Done()`
    runs and `Stop` returns before the runtime raises the panic. -/
theorem panic_unwound_run_reachable :
    Drain.Reachable ⟨1, 4⟩ (fun _ _ => True)
      { pool := { queue := [⟨1, false⟩], closed := true, workers := [.exited],
                  accepted := [⟨0, true⟩, ⟨1, false⟩], executed := [] },
        senders := [], calls := [⟨0, true⟩, ⟨1, false⟩], stop := .returned, unwound := [⟨0, true⟩],
        panic := none } :=
  .step (.step (.step (.step (.step (.step (.step (.step (.step .init
    (a := .submit ⟨0, true⟩) trivial rfl) (a := .send 0) trivial rfl) (a := .submit ⟨1, false⟩) trivial rfl)
    (a := .send 0) trivial rfl) (a := .stop) trivial rfl) (a := .receive 0) trivial rfl) (a := .finish 0) trivial rfl)
    (a := .unwind 0) trivial rfl) (a := .wait) trivial rfl

theorem job_panic_ends_process_after_stop :
    ∃ s, Drain.Reachable ⟨1, 4⟩ (fun _ _ => True) s ∧ s.stop = .returned ∧ s.pool.queue = [⟨1, false⟩] ∧
      s.pool.drained = true ∧ s.step ⟨1, 4⟩ (.crash 0) = some { s with panic := some (.job ⟨0, true⟩) } := by
  obtain ⟨-, -, drained, crash, -⟩ := job_panic_ends_process ⟨1, 4⟩ _ panic_unwound_run_reachable
  exact ⟨_, panic_unwound_run_reachable, rfl, rfl, drained rfl, crash rfl 0 _ rfl⟩

/-- In that run `Stop` returns although the harmless job submitted before it never ran and the
    pool has no worker left; the runtime then ends the process with the first job's panic. -/
theorem panicking_job_stops_the_drain :
    ∃ s, Drain.Reachable ⟨1, 4⟩ (fun _ _ => True) s ∧ (⟨1, false⟩ : Job) ∈ s.calls ∧
      (⟨1, false⟩ : Job) ∉ s.pool.executed ∧ s.pool.workers = [.exited] ∧ s.stop = .returned ∧
      s.panic = some (.job ⟨0, true⟩) ∧ ∀ a, s.step ⟨1, 4⟩ a = none :=
  ⟨_, panic_unwound_run_reachable.step (a := .crash 0) trivial rfl, by decide, by decide, rfl, rfl, rfl,
    fun a => rfl⟩

end SessionEngine.Worker
