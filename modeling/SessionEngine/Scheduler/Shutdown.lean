import Mathlib.Data.Nat.Find
import SessionEngine.Worker.Pool
import SessionEngine.Scheduler.Dispatch

namespace SessionEngine.Scheduler

open Worker

/-- The control goroutine of `Scheduler.Start`: at the `select` of its loop, about to call
    `Count()`, inside `dispatchJobs` at `id` of `count`, inside `Submit` with a job, or
    returned. -/
inductive ControlPc where
  | select
  | dispatch
  | loop (count id : Nat)
  | submit (count id : Nat) (job : Job)
  | returned
  deriving DecidableEq, Repr

/-- `main` after startup: serving until the signal, then `sc.Stop()`, the two halves of
    `wp.Stop()`, and `sm.StopAll()`. -/
inductive MainPc where
  | serving
  | stoppingPool
  | waitingPool
  | stoppingSessions
  | done
  deriving DecidableEq, Repr

/-- One worker node: the session manager, the worker pool, the scheduler's `stopCh`, the
    control goroutine, `main`, and the panic that ended the process, if any. -/
structure Node where
  sessions : SessionManager
  pool : Pool
  stopCh : Bool
  control : ControlPc
  main : MainPc
  panic : Option Panic
  deriving DecidableEq, Repr

inductive NodeAction where
  | control
  | handoff (w : Nat)
  | receive (w : Nat)
  | finish (w : Nat)
  | main
  deriving DecidableEq, Repr

/-- The closure `dispatchJobs` submits for a session; `main`'s `jobFn` does not panic. -/
def sessionJob (s : Session) : Job := ⟨s.id, false⟩

/-- The node once `main` has started the pool and the scheduler and waits for the signal. -/
def Node.start (c : Config) (sm : SessionManager) : Node :=
  { sessions := sm, pool := c.start, stopCh := false, control := .select, main := .serving,
    panic := none }

/-- One step of the control goroutine: `select` takes the closed `stopCh` when it can and
    `default` otherwise; `dispatchJobs` reads `Count()` once, skips the ids `GetSession` misses
    and blocks in `Submit` while the buffer is full. -/
def Node.controlStep (c : Config) (n : Node) : Option Node :=
  match n.control with
  | .select => some { n with control := if n.stopCh then .returned else .dispatch }
  | .dispatch => some { n with control := .loop n.sessions.count 0 }
  | .loop count id =>
    if id < count then
      match n.sessions.getSession id with
      | some s => some { n with control := .submit count id (sessionJob s) }
      | none => some { n with control := .loop count (id + 1) }
    else some { n with control := .select }
  | .submit count id job =>
    (n.pool.send c job).map fun
      | .ok p => { n with pool := p, control := .loop count (id + 1) }
      | .error e => { n with panic := some e }
  | .returned => none

/-- One step of `main`'s shutdown sequence. -/
def Node.mainStep (n : Node) : Option Node :=
  match n.main with
  | .serving => some { n with stopCh := true, main := .stoppingPool }
  | .stoppingPool =>
    some (match n.pool.close with
      | .ok p => { n with pool := p, main := .waitingPool }
      | .error e => { n with panic := some e })
  | .waitingPool => if n.pool.drained then some { n with main := .stoppingSessions } else none
  | .stoppingSessions => some { n with sessions := .empty, main := .done }
  | .done => none

def Node.step (c : Config) (n : Node) (a : NodeAction) : Option Node :=
  if n.panic.isSome then none
  else
    match a with
    | .control => n.controlStep c
    | .handoff w =>
      match n.control with
      | .submit count id job =>
        (n.pool.handoff job w).map fun p => { n with pool := p, control := .loop count (id + 1) }
      | _ => none
    | .receive w => (n.pool.receive w).map fun p => { n with pool := p }
    | .finish w => (n.pool.finish w).map fun p => { n with pool := p }
    | .main => n.mainStep

/-- The states of every interleaving of the control goroutine, the workers and `main`. -/
inductive Node.Reachable (c : Config) (sm : SessionManager) : Node → Prop
  | start : Node.Reachable c sm (Node.start c sm)
  | step {n n' : Node} {a : NodeAction} : Node.Reachable c sm n → n.step c a = some n' →
      Node.Reachable c sm n'

section Shutdown

variable {c : Config} {sm : SessionManager}

theorem Node.Reachable.control {n n' : Node} (reach : n.Reachable c sm) (alive : n.panic = none)
    (stepped : n.controlStep c = some n') : n'.Reachable c sm :=
  .step reach (a := .control) (by simp [Node.step, alive, stepped])

theorem Node.Reachable.main {n n' : Node} (reach : n.Reachable c sm) (alive : n.panic = none)
    (stepped : n.mainStep = some n') : n'.Reachable c sm :=
  .step reach (a := .main) (by simp [Node.step, alive, stepped])

theorem reaches_first_submit {id : Nat} {s : Session} (found : sm.getSession id = some s)
    (below : id < sm.count) (first : ∀ j < id, sm.getSession j = none) :
    Node.Reachable c sm { Node.start c sm with control := .submit sm.count id (sessionJob s) } := by
  have dispatched : Node.Reachable c sm { Node.start c sm with control := .dispatch } :=
    Node.Reachable.start.control rfl (by simp [Node.controlStep, Node.start])
  have walked : ∀ k ≤ id, Node.Reachable c sm { Node.start c sm with control := .loop sm.count k } := by
    intro k
    induction k with
    | zero => exact fun _ => dispatched.control rfl (by simp [Node.controlStep, Node.start])
    | succ k ih =>
      intro bound
      refine (ih (by omega)).control rfl ?_
      simp [Node.controlStep, Node.start, show k < sm.count by omega, first k (by omega)]
  exact (walked id le_rfl).control rfl (by simp [Node.controlStep, Node.start, below, found])

end Shutdown

theorem shutdown_sends_on_closed_queue (c : Config) (sm : SessionManager) (id : Nat)
    (registered : (sm.getSession id).isSome) (below : id < sm.count) :
    ∃ n, Node.Reachable c sm n ∧ n.stopCh = true ∧ n.pool.closed = true ∧
      n.panic = some .sendOnClosed := by
  have exists_first : ∃ j, j < sm.count ∧ (sm.getSession j).isSome := ⟨id, below, registered⟩
  classical
  obtain ⟨first_below, first_found⟩ := Nat.find_spec exists_first
  obtain ⟨s, found⟩ := Option.isSome_iff_exists.mp first_found
  have first : ∀ j < Nat.find exists_first, sm.getSession j = none := by
    intro j smaller
    have missing := Nat.find_min exists_first smaller
    cases hj : sm.getSession j
    · rfl
    · exact absurd ⟨by omega, by simp [hj]⟩ missing
  have submitting := reaches_first_submit (c := c) found first_below first
  have signalled := submitting.main rfl rfl
  have closed := signalled.main rfl rfl
  exact ⟨_, closed.control rfl rfl, rfl, rfl, rfl⟩

theorem shutdown_sends_on_closed_queue_one_session :
    ∃ n, Node.Reachable ⟨1, 4⟩ (SessionManager.empty.createSessions [(0, .ok "")]).1 n ∧
      n.stopCh = true ∧ n.pool.closed = true ∧ n.panic = some .sendOnClosed :=
  shutdown_sends_on_closed_queue ⟨1, 4⟩ _ 0 rfl (by decide)

end SessionEngine.Scheduler
