import Mathlib.Data.List.Perm.Basic
import Mathlib.Algebra.Group.Nat.Basic
import Mathlib.Algebra.Group.Int

namespace SessionEngine.Worker

/-- A job closure, as far as the pool can observe it: which job it is and whether calling
    it panics. -/
structure Job where
  id : Nat
  panics : Bool
  deriving DecidableEq, Repr

/-- The runtime panics the pool's channel operations and its jobs can raise. -/
inductive Panic where
  | sendOnClosed
  | closeOfClosed
  | job (job : Job)
  deriving DecidableEq, Repr

/-- One goroutine of `Start`: blocked in `range wp.jobQueue`, inside `job()`, unwinding a
    panic of `job()` through its deferred `wp.wg.Done()`, or returned (after the queue was
    closed and drained, or once that deferred call has run). -/
inductive WorkerState where
  | waiting
  | running (job : Job)
  | panicking (job : Job)
  | exited
  deriving DecidableEq, Repr

def WorkerState.job? : WorkerState → Option Job
  | .running job | .panicking job => some job
  | _ => none

/-- What `NewWorkerPool` fixes for the pool's lifetime: `workerCount` and the buffer size of
    `jobQueue`. -/
structure Config where
  workerCount : Nat
  capacity : Nat
  deriving DecidableEq, Repr

/-- The mutable part of `WorkerPool`: the contents of `jobQueue`, whether it is closed, the
    worker goroutines, and two history variables, the jobs the channel accepted and the jobs
    whose call returned. -/
structure Pool where
  queue : List Job
  closed : Bool
  workers : List WorkerState
  accepted : List Job
  executed : List Job
  deriving DecidableEq, Repr

/-- `NewWorkerPool` replaces a count `≤ 0` by one. -/
def normalisedCount (workerCount : Int) : Nat :=
  if workerCount ≤ 0 then 1 else workerCount.toNat

/-- `workerCount*4` in Go's 64-bit `int`. -/
def queueSize (workerCount : Int) : Int :=
  Int.bmod (normalisedCount workerCount * 4) (2 ^ 64)

/-- `NewWorkerPool`; `none` where `make` panics on a negative buffer size. -/
def newWorkerPool (workerCount : Int) : Option Config :=
  if queueSize workerCount < 0 then none
  else some { workerCount := normalisedCount workerCount, capacity := (queueSize workerCount).toNat }

/-- `Start` launches `workerCount` goroutines, each waiting on the empty queue. -/
def Config.start (c : Config) : Pool :=
  { queue := [], closed := false, workers := List.replicate c.workerCount .waiting,
    accepted := [], executed := [] }

/-- One attempt of `wp.jobQueue <- job` in `Submit`; `none` while the buffer is full and the
    sender stays blocked. -/
def Pool.send (c : Config) (p : Pool) (job : Job) : Option (Except Panic Pool) :=
  if p.closed then some (.error .sendOnClosed)
  else if p.queue.length < c.capacity then
    some (.ok { p with queue := p.queue ++ [job], accepted := p.accepted ++ [job] })
  else none

/-- A send on an empty buffer hands the job straight to a worker already waiting in
    `range`; with a zero-size buffer this is the only way a job gets in. -/
def Pool.handoff (p : Pool) (job : Job) (w : Nat) : Option Pool :=
  if !p.closed && p.queue.isEmpty && p.workers[w]? == some .waiting then
    some { p with workers := p.workers.set w (.running job), accepted := p.accepted ++ [job] }
  else none

/-- Worker `w` takes the next iteration of `for job := range wp.jobQueue`. -/
def Pool.receive (p : Pool) (w : Nat) : Option Pool :=
  match p.workers[w]?, p.queue with
  | some .waiting, job :: rest => some { p with workers := p.workers.set w (.running job), queue := rest }
  | some .waiting, [] => if p.closed then some { p with workers := p.workers.set w .exited } else none
  | _, _ => none

/-- Worker `w`'s `job()` returns, or panics: the loop has no `recover`, so the panic unwinds
    the goroutine. -/
def Pool.finish (p : Pool) (w : Nat) : Option Pool :=
  match p.workers[w]? with
  | some (.running job) =>
    if job.panics then some { p with workers := p.workers.set w (.panicking job) }
    else some { p with workers := p.workers.set w .waiting, executed := p.executed ++ [job] }
  | _ => none

/-- The unwinding of worker `w`'s panic runs `defer wp.wg.Done()`: for `wg.Wait()` the
    goroutine has returned. What is left of the panic is the runtime's to raise. -/
def Pool.unwind (p : Pool) (w : Nat) : Option (Job × Pool) :=
  match p.workers[w]? with
  | some (.panicking job) => some (job, { p with workers := p.workers.set w .exited })
  | _ => none

/-- `close(wp.jobQueue)` in `Stop`. -/
def Pool.close (p : Pool) : Except Panic Pool :=
  if p.closed then .error .closeOfClosed else .ok { p with closed := true }

/-- `wp.wg.Wait()` in `Stop` returns once every worker goroutine has returned. -/
def Pool.drained (p : Pool) : Bool :=
  p.workers.all (· == .exited)

def Pool.running (p : Pool) : List Job :=
  p.workers.filterMap WorkerState.job?

theorem filterMap_set_perm {α β : Type} {f : α → Option β} {x y : α} :
    ∀ {l : List α} {w : Nat}, l[w]? = some y →
      ((l.set w x).filterMap f ++ (f y).toList).Perm (l.filterMap f ++ (f x).toList)
  | y' :: l, 0, found => by
    obtain rfl : y' = y := by simpa using found
    cases hx : f x <;> cases hy : f y' <;> simp only [List.filterMap_cons, List.set_cons_zero, hx, hy,
      Option.toList_some, Option.toList_none, List.append_nil, List.Perm.refl, List.perm_append_singleton,
      List.cons_append]
    · exact (List.perm_append_singleton _ _).symm
    · exact ((List.perm_append_singleton _ _).trans (List.Perm.swap _ _ _)).trans
        (List.perm_append_singleton _ _).symm
  | z :: l, w + 1, found => by
    have rest := filterMap_set_perm (f := f) (x := x) (l := l) (w := w) (by simpa using found)
    cases hz : f z <;> simpa [List.filterMap_cons, List.set_cons_succ, hz] using rest

/-- What every pool reachable without an unwound panic satisfies: `Start`'s goroutines are all there, the buffer
    respects its size, each accepted job is exactly once executed, running or queued, and a
    worker only returns from `range` once the queue is closed and empty. -/
structure Pool.Inv (c : Config) (p : Pool) : Prop where
  sized : p.workers.length = c.workerCount
  bounded : p.queue.length ≤ c.capacity
  conserved : p.accepted.Perm (p.executed ++ p.running ++ p.queue)
  drained : WorkerState.exited ∈ p.workers → p.closed = true ∧ p.queue = []

theorem Pool.running_set {p : Pool} {w : Nat} {old : WorkerState} (new : WorkerState)
    (found : p.workers[w]? = some old) :
    ((p.workers.set w new).filterMap WorkerState.job? ++ old.job?.toList).Perm
      (p.running ++ new.job?.toList) :=
  filterMap_set_perm found

theorem Pool.exited_of_set {p : Pool} {w : Nat} {new : WorkerState} (fresh : new ≠ .exited)
    (member : WorkerState.exited ∈ p.workers.set w new) : WorkerState.exited ∈ p.workers :=
  (List.mem_or_eq_of_mem_set member).resolve_right (Ne.symm fresh)

theorem perm_cons_eraseIdx {α : Type} {x : α} :
    ∀ {l : List α} {k : Nat}, l[k]? = some x → l.Perm (x :: l.eraseIdx k)
  | _ :: _, 0, found => by
    obtain rfl : _ = x := by simpa using found
    exact .refl _
  | y :: l, k + 1, found =>
    ((perm_cons_eraseIdx (l := l) (k := k) (by simpa using found)).cons y).trans (.swap x y _)

section Steps

variable {c : Config} {p p' : Pool}

theorem Pool.send_cases {job : Job} {r : Except Panic Pool} (sent : p.send c job = some r) :
    (p.closed = true ∧ r = .error .sendOnClosed) ∨
      (p.closed = false ∧ p.queue.length < c.capacity ∧
        r = .ok { p with queue := p.queue ++ [job], accepted := p.accepted ++ [job] }) := by
  unfold Pool.send at sent
  split at sent
  · exact .inl ⟨‹_›, (Option.some.inj sent).symm⟩
  · split at sent
    · exact .inr ⟨by simpa using ‹¬p.closed = true›, ‹_›, (Option.some.inj sent).symm⟩
    · cases sent

theorem Pool.handoff_cases {job : Job} {w : Nat} (handed : p.handoff job w = some p') :
    p.closed = false ∧ p.queue = [] ∧ p.workers[w]? = some .waiting ∧
      p' = { p with workers := p.workers.set w (.running job), accepted := p.accepted ++ [job] } := by
  unfold Pool.handoff at handed
  split at handed
  · rename_i ready
    simp only [Bool.and_eq_true, Bool.not_eq_true', List.isEmpty_iff, beq_iff_eq] at ready
    exact ⟨ready.1.1, ready.1.2, ready.2, (Option.some.inj handed).symm⟩
  · cases handed

theorem Pool.receive_cases {w : Nat} (received : p.receive w = some p') :
    p.workers[w]? = some .waiting ∧
      ((∃ job rest, p.queue = job :: rest ∧
          p' = { p with workers := p.workers.set w (.running job), queue := rest }) ∨
        (p.queue = [] ∧ p.closed = true ∧ p' = { p with workers := p.workers.set w .exited })) := by
  unfold Pool.receive at received
  split at received
  · exact ⟨‹_›, .inl ⟨_, _, ‹_›, (Option.some.inj received).symm⟩⟩
  · split at received
    · exact ⟨‹_›, .inr ⟨‹_›, ‹_›, (Option.some.inj received).symm⟩⟩
    · cases received
  · cases received

theorem Pool.finish_cases {w : Nat} (finished : p.finish w = some p') :
    ∃ job, p.workers[w]? = some (.running job) ∧
      ((job.panics = true ∧ p' = { p with workers := p.workers.set w (.panicking job) }) ∨
        (job.panics = false ∧
          p' = { p with workers := p.workers.set w .waiting, executed := p.executed ++ [job] })) := by
  unfold Pool.finish at finished
  split at finished
  · rename_i job found
    refine ⟨job, found, ?_⟩
    split at finished
    · exact .inl ⟨‹_›, (Option.some.inj finished).symm⟩
    · exact .inr ⟨by simpa using ‹¬job.panics = true›, (Option.some.inj finished).symm⟩
  · cases finished

theorem Pool.unwind_cases {w : Nat} {r : Job × Pool} (unwound : p.unwind w = some r) :
    p.workers[w]? = some (.panicking r.1) ∧ r.2 = { p with workers := p.workers.set w .exited } := by
  unfold Pool.unwind at unwound
  split at unwound
  · cases unwound
    exact ⟨‹_›, rfl⟩
  · cases unwound

theorem Pool.mem_running {w : Nat} {job : Job} (found : p.workers[w]? = some (.running job)) :
    job ∈ p.running :=
  List.mem_filterMap.mpr ⟨_, List.getElem?_mem found, rfl⟩

theorem Config.start_inv (c : Config) : c.start.Inv c where
  sized := by simp [Config.start]
  bounded := by simp [Config.start]
  conserved := by simp [Config.start, Pool.running, List.filterMap_replicate, WorkerState.job?]
  drained := by simp [Config.start, List.mem_replicate]

theorem Pool.send_inv {job : Job} (sent : p.send c job = some (.ok p')) (inv : p.Inv c) :
    p'.Inv c := by
  rcases Pool.send_cases sent with ⟨-, wrong⟩ | ⟨open_, room, result⟩
  · cases wrong
  · cases result
    refine ⟨inv.sized, by simpa using room, ?_, fun member => absurd (inv.drained member).1 (by simp [open_])⟩
    simpa using inv.conserved.append_right [job]

theorem Pool.handoff_inv {job : Job} {w : Nat} (handed : p.handoff job w = some p') (inv : p.Inv c) :
    p'.Inv c := by
  obtain ⟨open_, empty, found, rfl⟩ := Pool.handoff_cases handed
  have running := Pool.running_set (.running job) found
  simp only [WorkerState.job?, Option.toList_none, List.append_nil, Option.toList_some] at running
  refine ⟨by simp [inv.sized], by simp [empty], ?_, fun member => ?_⟩
  · simpa [Pool.running, empty] using
      ((inv.conserved.append_right [job]).trans (by simpa [empty] using running.symm.append_left p.executed))
  · exact absurd (inv.drained (Pool.exited_of_set (by simp) member)).1 (by simp [open_])

theorem Pool.receive_inv {w : Nat} (received : p.receive w = some p') (inv : p.Inv c) :
    p'.Inv c := by
  obtain ⟨found, ⟨job, rest, queued, rfl⟩ | ⟨queued, closed, rfl⟩⟩ := Pool.receive_cases received
  · have running := Pool.running_set (.running job) found
    simp only [WorkerState.job?, Option.toList_none, List.append_nil, Option.toList_some] at running
    refine ⟨by simp [inv.sized], by have := inv.bounded; simp_all; omega, ?_, fun member => ?_⟩
    · have conserved := inv.conserved
      rw [queued] at conserved
      refine conserved.trans ?_
      simpa using ((running.symm.append_right rest).append_left p.executed)
    · have drained := inv.drained (Pool.exited_of_set (by simp) member)
      simp [queued] at drained
  · have running := Pool.running_set .exited found
    simp only [WorkerState.job?, Option.toList_none, List.append_nil] at running
    refine ⟨by simp [inv.sized], inv.bounded, ?_, fun _ => ⟨closed, queued⟩⟩
    have conserved := inv.conserved
    rw [List.append_assoc] at conserved
    simpa [Pool.running] using conserved.trans ((running.symm.append_right p.queue).append_left p.executed)

theorem Pool.finish_inv {w : Nat} (finished : p.finish w = some p') (inv : p.Inv c) :
    p'.Inv c := by
  obtain ⟨job, found, ⟨-, rfl⟩ | ⟨-, rfl⟩⟩ := Pool.finish_cases finished
  · have running := Pool.running_set (.panicking job) found
    simp only [WorkerState.job?, Option.toList_some] at running
    refine ⟨by simp [inv.sized], inv.bounded, ?_,
      fun member => inv.drained (Pool.exited_of_set (by simp) member)⟩
    have same : ((p.workers.set w (.panicking job)).filterMap WorkerState.job?).Perm p.running :=
      List.perm_append_right_iff _ |>.mp running
    exact inv.conserved.trans (((same.symm.append_left p.executed).append_right p.queue))
  · have running := Pool.running_set .waiting found
    simp only [WorkerState.job?, Option.toList_none, List.append_nil, Option.toList_some] at running
    refine ⟨by simp [inv.sized], inv.bounded, ?_,
      fun member => inv.drained (Pool.exited_of_set (by simp) member)⟩
    have moved := (running.symm.append_left p.executed).append_right p.queue
    simp only [List.append_assoc, List.singleton_append] at moved ⊢
    exact inv.conserved.trans (by simpa using moved.trans (List.perm_middle.append_left p.executed))

theorem Pool.close_inv (closed : p.close = .ok p') (inv : p.Inv c) : p'.Inv c := by
  unfold Pool.close at closed
  split at closed
  · cases closed
  · cases closed
    exact ⟨inv.sized, inv.bounded, inv.conserved, fun member => ⟨rfl, (inv.drained member).2⟩⟩

theorem Pool.Inv.drained_executed (inv : p.Inv c) (started : 0 < c.workerCount)
    (done : p.drained = true) : p.queue = [] ∧ p.running = [] ∧ p.accepted.Perm p.executed := by
  have exited : ∀ w ∈ p.workers, w = .exited := by simpa [Pool.drained] using done
  obtain ⟨w, member⟩ := List.exists_mem_of_length_pos (inv.sized ▸ started)
  have empty := (inv.drained (exited w member ▸ member)).2
  have idle : p.running = [] := by
    simp only [Pool.running, List.filterMap_eq_nil_iff]
    intro w member
    simp [exited w member, WorkerState.job?]
  exact ⟨empty, idle, by simpa [empty, idle] using inv.conserved⟩

end Steps

end SessionEngine.Worker
