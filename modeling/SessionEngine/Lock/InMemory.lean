import Mathlib.Logic.Function.Basic
import Mathlib.Algebra.Order.BigOperators.Group.List
import Mathlib.Algebra.Order.Ring.Nat

namespace SessionEngine.Lock

/-- A `keyMutex`: its reference count `waiters` and whether `mu` is locked. -/
structure KeyMutex where
  waiters : Int
  locked : Bool
  deriving DecidableEq, Repr

/-- The `DistributedLock` method a call runs. -/
inductive Method where
  | lock
  | tryLock
  | isLocked
  deriving DecidableEq, Repr

/-- What a call returned: `Lock`'s `nil` or its error wrapping `ctx.Err()`, the boolean of
    `TryLock` or `IsLocked`, or `Unlock`'s return. -/
inductive Outcome where
  | acquired
  | cancelled
  | answered (b : Bool)
  | unlocked
  deriving DecidableEq, Repr

/-- Where a call is, `km` being the `*keyMutex` it works on. `Lock`: before its locked
    `getOrCreate`, in its `select`, on the `ctx.Done()` branch before and after the locked
    decrement, and after draining `acquired` before `km.mu.Unlock()`. `TryLock`: before
    `km.mu.TryLock()` and after it failed. `IsLocked`: before `km.mu.TryLock()` and after it
    succeeded. `holding`: `Lock` or `TryLock` succeeded and the caller has not called `Unlock`;
    `unlocking`: it has, and `Unlock` has not taken `il.mu` (`km` is the mutex it holds);
    `releasing`: before `Unlock`'s `km.mu.Unlock()`. -/
inductive CallPc where
  | start
  | selecting (km : Nat)
  | cancelling (km : Nat)
  | draining (km : Nat)
  | drained (km : Nat)
  | trying (km : Nat)
  | failing (km : Nat)
  | holding (km : Nat)
  | unlocking (km : Nat)
  | releasing (km : Nat)
  | probing (km : Nat)
  | probed (km : Nat)
  | returned (outcome : Outcome)
  deriving DecidableEq, Repr

/-- The goroutine `Lock` starts, with its buffered channel `acquired`: not started, blocked in
    `km.mu.Lock()`, holding `km.mu` before its send, its value in `acquired`, and that value
    received. -/
inductive HelperPc where
  | idle
  | waiting (km : Nat)
  | locked (km : Nat)
  | sent (km : Nat)
  | taken
  deriving DecidableEq, Repr

/-- The goroutine a cancelled `Lock` leaves behind when `acquired` is still empty: not
    started, blocked in `<-acquired`, before `km.mu.Unlock()`, returned. -/
inductive DrainPc where
  | idle
  | waiting (km : Nat)
  | received (km : Nat)
  | done
  deriving DecidableEq, Repr

structure Call where
  key : String
  method : Method
  pc : CallPc
  helper : HelperPc
  drain : DrainPc
  deriving DecidableEq, Repr

/-- `InMemoryLock`: the `locks` map from key to `*keyMutex`, the `keyMutex` values by
    address, the next fresh address, the calls, and whether a call hit Go's fatal
    "sync: unlock of unlocked mutex". -/
structure InMemoryLock where
  locks : String → Option Nat
  mutexes : Nat → KeyMutex
  next : Nat
  calls : List Call
  fatal : Bool

def newInMemoryLock : InMemoryLock :=
  { locks := fun _ => none, mutexes := fun _ => ⟨0, false⟩, next := 0, calls := [], fatal := false }

def InMemoryLock.setCall (il : InMemoryLock) (t : Nat) (c : Call) : InMemoryLock :=
  { il with calls := il.calls.set t c }

@[simp] theorem InMemoryLock.setCall_locks (il : InMemoryLock) (t : Nat) (c : Call) :
    (il.setCall t c).locks = il.locks := rfl

@[simp] theorem InMemoryLock.setCall_mutexes (il : InMemoryLock) (t : Nat) (c : Call) :
    (il.setCall t c).mutexes = il.mutexes := rfl

@[simp] theorem InMemoryLock.setCall_next (il : InMemoryLock) (t : Nat) (c : Call) :
    (il.setCall t c).next = il.next := rfl

@[simp] theorem InMemoryLock.setCall_calls (il : InMemoryLock) (t : Nat) (c : Call) :
    (il.setCall t c).calls = il.calls.set t c := rfl

@[simp] theorem InMemoryLock.setCall_fatal (il : InMemoryLock) (t : Nat) (c : Call) :
    (il.setCall t c).fatal = il.fatal := rfl

def InMemoryLock.addWaiters (il : InMemoryLock) (km : Nat) (d : Int) : InMemoryLock :=
  { il with mutexes := Function.update il.mutexes km { il.mutexes km with waiters := (il.mutexes km).waiters + d } }

def InMemoryLock.setLocked (il : InMemoryLock) (km : Nat) (locked : Bool) : InMemoryLock :=
  { il with mutexes := Function.update il.mutexes km { il.mutexes km with locked } }

@[simp] theorem InMemoryLock.waiters_setLocked (il : InMemoryLock) (km x : Nat) (locked : Bool) :
    ((il.setLocked km locked).mutexes x).waiters = (il.mutexes x).waiters := by
  by_cases same : x = km
  · subst same
    simp [InMemoryLock.setLocked]
  · simp [InMemoryLock.setLocked, same]

@[simp] theorem InMemoryLock.locked_addWaiters (il : InMemoryLock) (km x : Nat) (d : Int) :
    ((il.addWaiters km d).mutexes x).locked = (il.mutexes x).locked := by
  by_cases same : x = km
  · subst same
    simp [InMemoryLock.addWaiters]
  · simp [InMemoryLock.addWaiters, same]

theorem InMemoryLock.waiters_addWaiters (il : InMemoryLock) (km x : Nat) (d : Int) :
    ((il.addWaiters km d).mutexes x).waiters = (il.mutexes x).waiters + if x = km then d else 0 := by
  by_cases same : x = km
  · subst same
    simp [InMemoryLock.addWaiters]
  · simp [InMemoryLock.addWaiters, same]

/-- `km = &keyMutex{}` and `il.locks[key] = km`. -/
def InMemoryLock.allocate (il : InMemoryLock) (key : String) : InMemoryLock :=
  { il with locks := Function.update il.locks key (some il.next),
            mutexes := Function.update il.mutexes il.next ⟨0, false⟩, next := il.next + 1 }

/-- `getOrCreate`, run under `il.mu`. -/
def InMemoryLock.getOrCreate (il : InMemoryLock) (key : String) : InMemoryLock × Nat :=
  match il.locks key with
  | some km => (il.addWaiters km 1, km)
  | none => ((il.allocate key).addWaiters il.next 1, il.next)

/-- The locked section `Lock`'s cancellation, a failed `TryLock` and `Unlock` share:
    `km.waiters--` and `delete(il.locks, key)` once it reaches zero. -/
def InMemoryLock.dropWaiter (il : InMemoryLock) (key : String) (km : Nat) : InMemoryLock :=
  let dropped := il.addWaiters km (-1)
  if (dropped.mutexes km).waiters = 0 then { dropped with locks := Function.update il.locks key none }
  else dropped

@[simp] theorem InMemoryLock.calls_addWaiters (il : InMemoryLock) (km : Nat) (d : Int) :
    (il.addWaiters km d).calls = il.calls := rfl

@[simp] theorem InMemoryLock.calls_setLocked (il : InMemoryLock) (km : Nat) (locked : Bool) :
    (il.setLocked km locked).calls = il.calls := rfl

@[simp] theorem InMemoryLock.calls_getOrCreate (il : InMemoryLock) (key : String) :
    (il.getOrCreate key).1.calls = il.calls := by
  unfold InMemoryLock.getOrCreate
  split <;> rfl

@[simp] theorem InMemoryLock.calls_dropWaiter (il : InMemoryLock) (key : String) (km : Nat) :
    (il.dropWaiter key km).calls = il.calls := by
  unfold InMemoryLock.dropWaiter
  dsimp only
  split <;> rfl

/-- `km.mu.Unlock()`: fatal on an unlocked mutex. -/
def InMemoryLock.unlockMutex (il : InMemoryLock) (km : Nat) : InMemoryLock :=
  if (il.mutexes km).locked then il.setLocked km false else { il with fatal := true }

@[simp] theorem InMemoryLock.calls_unlockMutex (il : InMemoryLock) (km : Nat) : (il.unlockMutex km).calls = il.calls := by
  unfold InMemoryLock.unlockMutex
  split <;> rfl

/-- The next statement of the call's own goroutine. -/
def InMemoryLock.mainStep (il : InMemoryLock) (t : Nat) (c : Call) : Option InMemoryLock :=
  match c.pc with
  | .start =>
    match c.method with
    | .lock =>
      let (il', km) := il.getOrCreate c.key
      some (il'.setCall t { c with pc := .selecting km, helper := .waiting km })
    | .tryLock =>
      let (il', km) := il.getOrCreate c.key
      some (il'.setCall t { c with pc := .trying km })
    | .isLocked =>
      match il.locks c.key with
      | none => some (il.setCall t { c with pc := .returned (.answered false) })
      | some km => some (il.setCall t { c with pc := .probing km })
  | .selecting km =>
    match c.helper with
    | .sent _ => some (il.setCall t { c with pc := .holding km, helper := .taken })
    | _ => none
  | .cancelling km => some ((il.dropWaiter c.key km).setCall t { c with pc := .draining km })
  | .draining km =>
    match c.helper with
    | .sent _ => some (il.setCall t { c with pc := .drained km, helper := .taken })
    | _ => some (il.setCall t { c with pc := .returned .cancelled, drain := .waiting km })
  | .drained km => some ((il.unlockMutex km).setCall t { c with pc := .returned .cancelled })
  | .trying km =>
    if (il.mutexes km).locked then some (il.setCall t { c with pc := .failing km })
    else some ((il.setLocked km true).setCall t { c with pc := .holding km })
  | .failing km => some ((il.dropWaiter c.key km).setCall t { c with pc := .returned (.answered false) })
  | .holding _ => none
  | .unlocking _ =>
    match il.locks c.key with
    | none => some (il.setCall t { c with pc := .returned .unlocked })
    | some km => some ((il.dropWaiter c.key km).setCall t { c with pc := .releasing km })
  | .releasing km => some ((il.unlockMutex km).setCall t { c with pc := .returned .unlocked })
  | .probing km =>
    if (il.mutexes km).locked then some (il.setCall t { c with pc := .returned (.answered true) })
    else some ((il.setLocked km true).setCall t { c with pc := .probed km })
  | .probed km => some ((il.unlockMutex km).setCall t { c with pc := .returned (.answered false) })
  | .returned _ => none

/-- The scheduler's choices: a new call, a call's next statement, its context being done
    while it selects, the holder calling `Unlock`, and the steps of the goroutines `Lock`
    starts. -/
inductive LockAction where
  | call (key : String) (method : Method)
  | main (t : Nat)
  | cancel (t : Nat)
  | unlock (t : Nat)
  | helper (t : Nat)
  | drain (t : Nat)
  deriving DecidableEq, Repr

def InMemoryLock.threadStep (il : InMemoryLock) (t : Nat) (c : Call) : LockAction → Option InMemoryLock
  | .main _ => il.mainStep t c
  | .cancel _ =>
    match c.pc with
    | .selecting km => some (il.setCall t { c with pc := .cancelling km })
    | _ => none
  | .unlock _ =>
    match c.pc with
    | .holding km => some (il.setCall t { c with pc := .unlocking km })
    | _ => none
  | .helper _ =>
    match c.helper with
    | .waiting km =>
      if (il.mutexes km).locked then none else some ((il.setLocked km true).setCall t { c with helper := .locked km })
    | .locked km => some (il.setCall t { c with helper := .sent km })
    | _ => none
  | .drain _ =>
    match c.drain, c.helper with
    | .waiting km, .sent _ => some (il.setCall t { c with helper := .taken, drain := .received km })
    | .received km, _ => some ((il.unlockMutex km).setCall t { c with drain := .done })
    | _, _ => none
  | .call _ _ => none

/-- A step of every goroutine; nothing runs after a fatal error. -/
def InMemoryLock.step (il : InMemoryLock) (a : LockAction) : Option InMemoryLock :=
  if il.fatal then none
  else
    match a with
    | .call key method => some { il with calls := il.calls ++ [⟨key, method, .start, .idle, .idle⟩] }
    | .main t | .cancel t | .unlock t | .helper t | .drain t =>
      il.calls[t]?.bind fun c => il.threadStep t c a

inductive InMemoryLock.Reachable : InMemoryLock → Prop
  | init : InMemoryLock.Reachable newInMemoryLock
  | step {il il' : InMemoryLock} {a : LockAction} : InMemoryLock.Reachable il → il.step a = some il' →
      InMemoryLock.Reachable il'

def InMemoryLock.run (il : InMemoryLock) : List LockAction → Option InMemoryLock
  | [] => some il
  | a :: rest => (il.step a).bind fun il' => il'.run rest

theorem InMemoryLock.Reachable.run {il il' : InMemoryLock} (reach : il.Reachable) (actions : List LockAction)
    (ran : il.run actions = some il') : il'.Reachable := by
  induction actions generalizing il with
  | nil =>
    cases ran
    exact reach
  | cons a rest ih =>
    simp only [InMemoryLock.run, Option.bind_eq_some] at ran
    obtain ⟨next, stepped, ran⟩ := ran
    exact ih (reach.step stepped) ran

end SessionEngine.Lock
