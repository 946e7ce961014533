import Mathlib.Data.List.Basic

namespace SessionEngine.Token

/-! The background goroutines of the two token managers and how they are stopped: the
    `HeartbeatManager`'s `Start` and `Stop`, which guard `stopCh` with a `select` and a
    `default` branch, and the `TokenRefreshManager`'s `StartHeartbeat` and `Stop`, which close
    `stopCh` inside `once.Do`. A `sync.Once.Do` call is one atomic step: concurrent calls wait
    for the first to finish. A panic ends the program, after which nothing runs. -/

section KeepAlive

/-- Where a `HeartbeatManager.Stop` call is: before `m.once.Do(func() {})`, at its `select`, on
    the `default` branch before `close(m.stopCh)`, or returned. -/
inductive StopPc where
  | start
  | selecting
  | closing
  | done
  deriving DecidableEq, Repr

/-- The state `Start` and `Stop` share: whether `m.once` has run, whether `m.stopCh` is closed,
    whether the keep-alive goroutine was launched and whether it returned, the `Stop` calls, and
    whether a `close` of the closed channel panicked. -/
structure KeepAlive where
  onceDone : Bool
  stopClosed : Bool
  launched : Bool
  loopExited : Bool
  stops : List StopPc
  panicked : Bool
  deriving DecidableEq, Repr

/-- `NewHeartbeatManager`: `stopCh` open, `once` unused. -/
def newKeepAlive : KeepAlive := ⟨false, false, false, false, [], false⟩

/-- The scheduler's choices: a `Start` call (its `once.Do` at once), a new `Stop` call, a
    statement of `Stop` call `t`, and the keep-alive loop taking the `stopCh` case of its
    `select`. Its context and its ticker are not modelled. -/
inductive KeepAliveAction where
  | start
  | stop
  | stopStep (t : Nat)
  | loopExit
  deriving DecidableEq, Repr

def KeepAlive.setStop (s : KeepAlive) (t : Nat) (pc : StopPc) : KeepAlive :=
  { s with stops := s.stops.set t pc }

/-- Statement `pc` of `Stop` call `t`: `once.Do(func() {})` marks the once as used; the
    `select` returns when `stopCh` is closed and takes `default` when it is open; `close`
    panics on a closed channel. -/
def KeepAlive.stopStep (s : KeepAlive) (t : Nat) : StopPc → Option KeepAlive
  | .start => some ({ s with onceDone := true }.setStop t .selecting)
  | .selecting => some (s.setStop t (if s.stopClosed then .done else .closing))
  | .closing => some (if s.stopClosed then { s with panicked := true } else { s with stopClosed := true }.setStop t .done)
  | .done => none

def KeepAlive.step (s : KeepAlive) (a : KeepAliveAction) : Option KeepAlive :=
  if s.panicked then none
  else
    match a with
    | .start => some (if s.onceDone then s else { s with onceDone := true, launched := true })
    | .stop => some { s with stops := s.stops ++ [.start] }
    | .stopStep t => s.stops[t]?.bind (s.stopStep t)
    | .loopExit => if s.launched ∧ ¬s.loopExited ∧ s.stopClosed then some { s with loopExited := true } else none

def KeepAlive.run (s : KeepAlive) : List KeepAliveAction → Option KeepAlive
  | [] => some s
  | a :: rest => (s.step a).bind fun s' => s'.run rest

/-- The runs in which no `Stop` takes its `select` while another is on its `default` branch:
    `Stop` calls that do not overlap, however they interleave with the rest. -/
def StopsApart (s : KeepAlive) : KeepAliveAction → Prop
  | .stopStep t => s.stops[t]? = some .selecting → .closing ∉ s.stops
  | _ => True

inductive KeepAlive.Reachable (allowed : KeepAlive → KeepAliveAction → Prop) : KeepAlive → Prop
  | init : KeepAlive.Reachable allowed newKeepAlive
  | step {s s' : KeepAlive} {a : KeepAliveAction} : KeepAlive.Reachable allowed s → allowed s a → s.step a = some s' →
      KeepAlive.Reachable allowed s'

/-- With `Stop` calls apart: no panic, at most one `Stop` on its `default` branch, and that one
    finds `stopCh` open. -/
structure KeepAlive.Inv (s : KeepAlive) : Prop where
  safe : s.panicked = false
  closers : s.stops.count .closing ≤ 1
  opened : 0 < s.stops.count .closing → s.stopClosed = false

theorem newKeepAlive_inv : newKeepAlive.Inv :=
  ⟨rfl, by decide, by decide⟩

theorem count_set_of_getElem? {α : Type} [DecidableEq α] {l : List α} {t : Nat} {x : α} (found : l[t]? = some x)
    (y c : α) : (l.set t y).count c = l.count c - (if x = c then 1 else 0) + (if y = c then 1 else 0) := by
  obtain ⟨inside, rfl⟩ := List.getElem?_eq_some_iff.mp found
  simp only [List.count_set _ _ _ _ inside, beq_iff_eq]

theorem KeepAlive.Inv.stopStep {s s' : KeepAlive} (inv : s.Inv) {t : Nat} {pc : StopPc}
    (found : s.stops[t]? = some pc) (apart : StopsApart s (.stopStep t)) (stepped : s.stopStep t pc = some s') :
    s'.Inv := by
  obtain ⟨safe, closers, opened⟩ := inv
  have counted := count_set_of_getElem? found
  cases pc with
  | start =>
    cases stepped
    have same : (s.stops.set t .selecting).count .closing = s.stops.count .closing := by simp [counted]
    exact ⟨safe, by simpa [KeepAlive.setStop, same] using closers, by simpa [KeepAlive.setStop, same] using opened⟩
  | selecting =>
    cases stepped
    by_cases closed : s.stopClosed
    · have none : s.stops.count .closing = 0 := by
        by_contra some
        simp [opened (Nat.pos_of_ne_zero some)] at closed
      have still : (s.stops.set t .done).count .closing = 0 := by simp [counted, none]
      exact ⟨safe, by simp [KeepAlive.setStop, closed, still], by simp [KeepAlive.setStop, closed, still]⟩
    · have none : s.stops.count .closing = 0 := List.count_eq_zero.mpr (apart found)
      have one : (s.stops.set t .closing).count .closing = 1 := by simp [counted, none]
      exact ⟨safe, by simp [KeepAlive.setStop, closed, one], by simp [KeepAlive.setStop, closed]⟩
  | closing =>
    have mine : 0 < s.stops.count .closing :=
      List.count_pos_iff.mpr (List.mem_iff_getElem?.mpr ⟨t, found⟩)
    have gone : (s.stops.set t .done).count .closing = 0 := by simp [counted]; omega
    cases stepped
    simp only [opened mine, Bool.false_eq_true, if_false]
    exact ⟨safe, by simp [KeepAlive.setStop, gone], by simp [KeepAlive.setStop, gone]⟩
  | done => cases stepped

theorem KeepAlive.Inv.step {s s' : KeepAlive} (inv : s.Inv) {a : KeepAliveAction} (apart : StopsApart s a)
    (stepped : s.step a = some s') : s'.Inv := by
  unfold KeepAlive.step at stepped
  rw [if_neg (by simp [inv.safe])] at stepped
  cases a with
  | start =>
    cases stepped
    split
    · exact inv
    · exact ⟨inv.safe, inv.closers, inv.opened⟩
  | stop =>
    cases stepped
    have same : (s.stops ++ [StopPc.start]).count .closing = s.stops.count .closing := by simp
    exact ⟨inv.safe, same ▸ inv.closers, same ▸ inv.opened⟩
  | stopStep t =>
    obtain ⟨pc, found, stepped⟩ := Option.bind_eq_some.mp stepped
    exact inv.stopStep found apart stepped
  | loopExit =>
    dsimp only at stepped
    split at stepped
    · cases stepped
      exact ⟨inv.safe, inv.closers, inv.opened⟩
    · cases stepped

theorem KeepAlive.Reachable.inv {s : KeepAlive} (reach : s.Reachable StopsApart) : s.Inv := by
  induction reach with
  | init => exact newKeepAlive_inv
  | step _ apart stepped ih => exact ih.step apart stepped

theorem KeepAlive.Reachable.closed_of_done {s : KeepAlive} (reach : s.Reachable fun _ _ => True) :
    .done ∈ s.stops → s.stopClosed = true := by
  induction reach with
  | init => simp [newKeepAlive]
  | @step s s' a _ _ stepped ih =>
    intro returned
    unfold KeepAlive.step at stepped
    split at stepped
    · cases stepped
    cases a with
    | start =>
      cases stepped
      split at returned <;> split <;> exact ih returned
    | stop => cases stepped; exact ih (by simpa using returned)
    | loopExit =>
      dsimp only at stepped
      split at stepped <;> cases stepped
      exact ih returned
    | stopStep t =>
      obtain ⟨pc, found, stepped⟩ := Option.bind_eq_some.mp stepped
      cases pc with
      | start =>
        cases stepped
        rcases List.mem_or_eq_of_mem_set returned with earlier | fresh
        · exact ih earlier
        · cases fresh
      | selecting =>
        cases stepped
        rcases List.mem_or_eq_of_mem_set returned with earlier | fresh
        · exact ih earlier
        · by_cases closed : s.stopClosed
          · exact closed
          · simp [closed] at fresh
      | closing =>
        cases stepped
        by_cases closed : s.stopClosed
        · simp [closed]
        · simp [closed, KeepAlive.setStop]
      | done => cases stepped

/-- Two `Stop` calls that both take `default` before either closes `stopCh`: the second `close`
    panics. -/
def overlappingStops : List KeepAliveAction :=
  [.stop, .stop, .stopStep 0, .stopStep 1, .stopStep 0, .stopStep 1, .stopStep 0, .stopStep 1]

theorem stop_closes_once_only_when_calls_apart :
    (∀ s, KeepAlive.Reachable (fun _ _ => True) s → .done ∈ s.stops → s.stopClosed = true) ∧
      (∀ s, KeepAlive.Reachable StopsApart s →
        s.panicked = false ∧ s.stops.count .closing ≤ 1 ∧ (0 < s.stops.count .closing → s.stopClosed = false)) ∧
      (newKeepAlive.run overlappingStops).map KeepAlive.panicked = some true :=
  ⟨fun _ reach => reach.closed_of_done, fun _ reach => ⟨reach.inv.safe, reach.inv.closers, reach.inv.opened⟩,
    by decide⟩

end KeepAlive

section Heartbeats

/-- Where a goroutine `StartHeartbeat` launches is: at its `select`, inside `heartbeatFn`, or
    returned. -/
inductive BeatPc where
  | selecting
  | beating
  | exited
  deriving DecidableEq, Repr

/-- A `TokenRefreshManager`'s `stopCh`, its `once`, and the goroutines `StartHeartbeat` launched. -/
structure BeatLoops where
  stopClosed : Bool
  onceDone : Bool
  loops : List BeatPc
  deriving DecidableEq, Repr

/-- `NewTokenRefreshManager`. -/
def newBeatLoops : BeatLoops := ⟨false, false, []⟩

/-- The scheduler's choices: a `StartHeartbeat` call, a `Stop` call, and the steps of goroutine
    `t`: its `select` taking the ticker, `heartbeatFn` returning, and its `select` taking
    `stopCh`. When both are ready `select` may take either. -/
inductive BeatAction where
  | startHeartbeat
  | stop
  | tick (t : Nat)
  | beatDone (t : Nat)
  | exit (t : Nat)
  deriving DecidableEq, Repr

def BeatLoops.setLoop (s : BeatLoops) (t : Nat) (pc : BeatPc) : BeatLoops :=
  { s with loops := s.loops.set t pc }

/-- `StartHeartbeat` launches a goroutine on every call; `Stop` closes `stopCh` inside
    `once.Do`. -/
def BeatLoops.step (s : BeatLoops) : BeatAction → Option BeatLoops
  | .startHeartbeat => some { s with loops := s.loops ++ [.selecting] }
  | .stop => some (if s.onceDone then s else { s with onceDone := true, stopClosed := true })
  | .tick t => if s.loops[t]? = some .selecting then some (s.setLoop t .beating) else none
  | .beatDone t => if s.loops[t]? = some .beating then some (s.setLoop t .selecting) else none
  | .exit t => if s.loops[t]? = some .selecting ∧ s.stopClosed then some (s.setLoop t .exited) else none

def BeatLoops.run (s : BeatLoops) : List BeatAction → Option BeatLoops
  | [] => some s
  | a :: rest => (s.step a).bind fun s' => s'.run rest

/-- A goroutine returns only after `stopCh` is closed. -/
def BeatLoops.Inv (s : BeatLoops) : Prop :=
  .exited ∈ s.loops → s.stopClosed = true

theorem BeatLoops.step_inv {s s' : BeatLoops} {a : BeatAction} (inv : s.Inv) (stepped : s.step a = some s') :
    s'.Inv ∧ s'.loops.length = s.loops.length + if a = .startHeartbeat then 1 else 0 := by
  cases a with
  | startHeartbeat =>
    cases stepped
    exact ⟨fun member => inv (by simpa using member), by simp⟩
  | stop =>
    cases stepped
    split
    · exact ⟨inv, by simp⟩
    · exact ⟨fun _ => rfl, by simp⟩
  | tick t | beatDone t | exit t =>
    simp only [BeatLoops.step] at stepped
    split at stepped
    · rename_i found
      cases stepped
      refine ⟨fun member => ?_, by simp [BeatLoops.setLoop]⟩
      rcases List.mem_or_eq_of_mem_set member with earlier | fresh
      · exact inv earlier
      · first
          | exact found.2
          | cases fresh
    · cases stepped

theorem BeatLoops.run_inv : ∀ (actions : List BeatAction) {s s' : BeatLoops}, s.Inv → s.run actions = some s' →
    s'.Inv ∧ s'.loops.length = s.loops.length + actions.count .startHeartbeat
  | [], _, _, inv, ran => by cases ran; exact ⟨inv, rfl⟩
  | a :: rest, s, s', inv, ran => by
    obtain ⟨next, stepped, ran⟩ := Option.bind_eq_some.mp ran
    obtain ⟨inv', grown⟩ := BeatLoops.step_inv inv stepped
    obtain ⟨final, length⟩ := BeatLoops.run_inv rest inv' ran
    refine ⟨final, ?_⟩
    rw [length, grown, List.count_cons]
    by_cases started : a = .startHeartbeat <;> simp [started, Nat.add_assoc, Nat.add_comm 1]

theorem BeatLoops.finish : ∀ (n : Nat) (s : BeatLoops), s.stopClosed = true →
    s.loops.length - s.loops.count .exited = n → ∃ actions s', s.run actions = some s' ∧ ∀ pc ∈ s'.loops, pc = .exited
  | 0, s, _, settled => ⟨[], s, rfl, fun pc member => (List.count_eq_length.mp
      (Nat.le_antisymm (List.count_le_length _ _) (Nat.le_of_sub_eq_zero settled)) pc member).symm⟩
  | n + 1, s, closed, left => by
    have running : ∃ (t : Nat) (pc : BeatPc), s.loops[t]? = some pc ∧ pc ≠ .exited := by
      by_contra all
      push_neg at all
      have every : s.loops.count .exited = s.loops.length := List.count_eq_length.mpr fun pc member => by
        obtain ⟨t, found⟩ := List.mem_iff_getElem?.mp member
        exact (all t pc found).symm
      omega
    obtain ⟨t, pc, found, running⟩ := running
    have exitFrom : ∀ s₁ : BeatLoops, s₁.stopClosed = true → s₁.loops[t]? = some .selecting →
        s₁.loops.length - s₁.loops.count .exited = n + 1 →
        ∃ actions s', s₁.run actions = some s' ∧ ∀ pc ∈ s'.loops, pc = .exited := by
      intro s₁ closed₁ waiting left₁
      have stepped : s₁.step (.exit t) = some (s₁.setLoop t .exited) := by simp [BeatLoops.step, waiting, closed₁]
      have below := List.count_le_length BeatPc.exited s₁.loops
      obtain ⟨actions, s', ran, done⟩ := BeatLoops.finish n (s₁.setLoop t .exited) closed₁ (by
        simp only [BeatLoops.setLoop, List.length_set, count_set_of_getElem? waiting]
        simp only [reduceCtorEq, if_false, if_true, Nat.sub_zero]
        omega)
      exact ⟨.exit t :: actions, s', by simp [BeatLoops.run, stepped, ran], done⟩
    cases pc with
    | selecting => exact exitFrom s closed found left
    | beating =>
      have inside : t < s.loops.length := (List.getElem?_eq_some_iff.mp found).1
      have stepped : s.step (.beatDone t) = some (s.setLoop t .selecting) := by simp [BeatLoops.step, found]
      obtain ⟨actions, s', ran, done⟩ := exitFrom (s.setLoop t .selecting) closed
        (by simp [BeatLoops.setLoop, List.getElem?_set_self inside])
        (by simpa [BeatLoops.setLoop, count_set_of_getElem? found] using left)
      exact ⟨.beatDone t :: actions, s', by simp [BeatLoops.run, stepped, ran], done⟩
    | exited => exact absurd rfl running

theorem BeatLoops.run_stopClosed : ∀ (actions : List BeatAction) {s s' : BeatLoops}, s.onceDone = s.stopClosed →
    s.run actions = some s' → s'.onceDone = s'.stopClosed ∧ (s'.stopClosed = true ↔ s.stopClosed = true ∨ .stop ∈ actions)
  | [], _, _, synced, ran => by cases ran; simpa using synced
  | a :: rest, s, s', synced, ran => by
    obtain ⟨next, stepped, ran⟩ := Option.bind_eq_some.mp ran
    have keep : next.onceDone = next.stopClosed ∧ (next.stopClosed = true ↔ s.stopClosed = true ∨ a = .stop) := by
      cases a with
      | stop =>
        cases stepped
        split <;> simp_all
      | startHeartbeat => cases stepped; simpa using synced
      | tick t | beatDone t | exit t =>
        simp only [BeatLoops.step] at stepped
        split at stepped <;> cases stepped
        simpa [BeatLoops.setLoop] using synced
    obtain ⟨synced', closed⟩ := BeatLoops.run_stopClosed rest keep.1 ran
    rw [closed, keep.2, List.mem_cons]
    exact ⟨synced', by tauto⟩

theorem start_heartbeat_launches_a_loop_per_call (actions : List BeatAction) {s : BeatLoops}
    (ran : newBeatLoops.run actions = some s) :
    s.loops.length = actions.count .startHeartbeat ∧
      (.stop ∉ actions → ∀ pc ∈ s.loops, pc ≠ .exited) ∧
      (.stop ∈ actions → ∃ more s', s.run more = some s' ∧ ∀ pc ∈ s'.loops, pc = .exited) := by
  obtain ⟨inv, length⟩ := BeatLoops.run_inv actions (fun member => by simp [newBeatLoops] at member) ran
  have closed := (BeatLoops.run_stopClosed actions rfl ran).2
  simp only [newBeatLoops, Bool.false_eq_true, false_or, List.length_nil, Nat.zero_add] at closed length
  refine ⟨length, fun never pc member exited => ?_, fun stopped => BeatLoops.finish _ s (closed.mpr stopped) rfl⟩
  subst exited
  exact never (closed.mp (inv member))

/-- Two `StartHeartbeat` calls and a `Stop`: two goroutines, both still running when `Stop`
    returns, and either may still call `heartbeatFn`. -/
def twoStartsThenStop : List BeatAction := [.startHeartbeat, .startHeartbeat, .stop]

theorem start_heartbeat_twice_then_stop :
    newBeatLoops.run twoStartsThenStop = some ⟨true, true, [.selecting, .selecting]⟩ ∧
      (⟨true, true, [.selecting, .selecting]⟩ : BeatLoops).loops.length = twoStartsThenStop.count .startHeartbeat ∧
      (.stop ∉ twoStartsThenStop → ∀ pc ∈ (⟨true, true, [.selecting, .selecting]⟩ : BeatLoops).loops, pc ≠ .exited) ∧
      (.stop ∈ twoStartsThenStop → ∃ more s', (⟨true, true, [.selecting, .selecting]⟩ : BeatLoops).run more = some s' ∧
        ∀ pc ∈ s'.loops, pc = .exited) :=
  ⟨rfl, start_heartbeat_launches_a_loop_per_call twoStartsThenStop rfl⟩

/-- After `Stop`, a goroutine whose ticker is ready may still take it and call `heartbeatFn`. -/
example : (newBeatLoops.run (twoStartsThenStop ++ [.tick 0])).map BeatLoops.loops = some [.beating, .selecting] := by
  decide

end Heartbeats

end SessionEngine.Token
