import SessionEngine.Lock.Exclusion

namespace SessionEngine.Lock

/-! `Lock` called with a context that is already done. `ctx.Done()` is then ready at every
    evaluation of the `select`, which the model's `cancel` action stands for; `acquired` becomes
    ready once the helper goroutine has sent, and `select` picks either case when both are. -/

/-- The call a scheduler choice belongs to; `none` for a new call. -/
def LockAction.thread : LockAction → Option Nat
  | .call _ _ => none
  | .main t | .cancel t | .unlock t | .helper t | .drain t => some t

section Frame

variable {il il' : InMemoryLock} {t : Nat}

theorem InMemoryLock.calls_of_getOrCreate {key : String} {km : Nat} (created : il.getOrCreate key = (il', km)) :
    il'.calls = il.calls := by
  rw [← il.calls_getOrCreate key, created]

theorem InMemoryLock.threadStep_calls {c : Call} {a : LockAction} (stepped : il.threadStep t c a = some il') :
    il'.calls.length = il.calls.length ∧ ∀ i, i ≠ t → il'.calls[i]? = il.calls[i]? := by
  unfold InMemoryLock.threadStep InMemoryLock.mainStep at stepped
  repeat' split at stepped
  all_goals cases stepped
  all_goals
    simp only [InMemoryLock.setCall_calls, InMemoryLock.calls_addWaiters, InMemoryLock.calls_setLocked,
      InMemoryLock.calls_dropWaiter, InMemoryLock.calls_unlockMutex]
    try rw [InMemoryLock.calls_of_getOrCreate ‹_›]
    exact ⟨List.length_set .., fun i ne => List.getElem?_set_ne (Ne.symm ne)⟩

@[simp] theorem InMemoryLock.run_nil : il.run [] = some il := rfl

theorem InMemoryLock.run_concat {actions : List LockAction} {a : LockAction} {mid : InMemoryLock}
    (ran : il.run actions = some mid) (stepped : mid.step a = some il') : il.run (actions ++ [a]) = some il' := by
  induction actions generalizing il with
  | nil =>
    cases ran
    simp [InMemoryLock.run, stepped]
  | cons b rest ih =>
    simp only [InMemoryLock.run, List.cons_append, Option.bind_eq_some] at ran ⊢
    obtain ⟨next, first, ran⟩ := ran
    exact ⟨next, first, ih ran⟩

theorem InMemoryLock.step_calls {a : LockAction} (own : a.thread = some t) (stepped : il.step a = some il') :
    il'.calls.length = il.calls.length ∧ ∀ i, i ≠ t → il'.calls[i]? = il.calls[i]? := by
  unfold InMemoryLock.step at stepped
  split at stepped
  · cases stepped
  · cases a <;> cases own <;> obtain ⟨c, -, stepped⟩ := Option.bind_eq_some.mp stepped <;>
      exact InMemoryLock.threadStep_calls stepped

theorem InMemoryLock.run_calls {actions : List LockAction} (own : ∀ a ∈ actions, a.thread = some t)
    (ran : il.run actions = some il') :
    il'.calls.length = il.calls.length ∧ ∀ i, i ≠ t → il'.calls[i]? = il.calls[i]? := by
  induction actions generalizing il with
  | nil =>
    cases ran
    exact ⟨rfl, fun _ _ => rfl⟩
  | cons a rest ih =>
    simp only [InMemoryLock.run, Option.bind_eq_some] at ran
    obtain ⟨mid, stepped, ran⟩ := ran
    have first := InMemoryLock.step_calls (own a (List.mem_cons_self a rest)) stepped
    have second := ih (fun b member => own b (List.mem_cons_of_mem a member)) ran
    exact ⟨second.1.trans first.1, fun i ne => (second.2 i ne).trans (first.2 i ne)⟩

end Frame

section Steps

variable {il il' : InMemoryLock} {t : Nat} {c : Call} {km : Nat}

theorem InMemoryLock.step_call (safe : il.fatal = false) (key : String) (method : Method) :
    il.step (.call key method) = some { il with calls := il.calls ++ [⟨key, method, .start, .idle, .idle⟩] } := by
  simp [InMemoryLock.step, safe]

theorem InMemoryLock.step_main_start_lock (safe : il.fatal = false) (found : il.calls[t]? = some c)
    (pc : c.pc = .start) (method : c.method = .lock) (created : il.getOrCreate c.key = (il', km)) :
    il.step (.main t) = some (il'.setCall t { c with pc := .selecting km, helper := .waiting km }) := by
  simp [InMemoryLock.step, InMemoryLock.threadStep, InMemoryLock.mainStep, safe, found, pc, method, created]

theorem InMemoryLock.step_helper_waiting (safe : il.fatal = false) (found : il.calls[t]? = some c)
    (waiting : c.helper = .waiting km) (free : (il.mutexes km).locked = false) :
    il.step (.helper t) = some ((il.setLocked km true).setCall t { c with helper := .locked km }) := by
  simp [InMemoryLock.step, InMemoryLock.threadStep, safe, found, waiting, free]

theorem InMemoryLock.step_main_selecting_sent {k : Nat} (safe : il.fatal = false) (found : il.calls[t]? = some c)
    (pc : c.pc = .selecting km) (sent : c.helper = .sent k) :
    il.step (.main t) = some (il.setCall t { c with pc := .holding km, helper := .taken }) := by
  simp [InMemoryLock.step, InMemoryLock.threadStep, InMemoryLock.mainStep, safe, found, pc, sent]

theorem InMemoryLock.step_cancel_selecting (safe : il.fatal = false) (found : il.calls[t]? = some c)
    (pc : c.pc = .selecting km) :
    il.step (.cancel t) = some (il.setCall t { c with pc := .cancelling km }) := by
  simp [InMemoryLock.step, InMemoryLock.threadStep, safe, found, pc]

theorem InMemoryLock.locked_getOrCreate {key : String} (created : il.getOrCreate key = (il', km))
    (free : ∀ km, il.locks key = some km → (il.mutexes km).locked = false) : (il'.mutexes km).locked = false := by
  unfold InMemoryLock.getOrCreate at created
  split at created <;> cases created
  · simpa using free _ ‹_›
  · simp [InMemoryLock.allocate]

end Steps

section Counts

variable {il il' : InMemoryLock}

theorem InMemoryLock.Reachable.own_run (reach : il.Reachable) {key : String} {method : Method}
    {actions : List LockAction} (own : ∀ a ∈ actions, a.thread = some il.calls.length)
    (ran : il.run (.call key method :: actions) = some il') {c : Call}
    (found : il'.calls[il.calls.length]? = some c) :
    il'.calls = il.calls ++ [c] ∧ ∀ km, (il'.mutexes km).waiters = (il.mutexes km).waiters + c.waits km ∧
      (il'.mutexes km).held = (il.mutexes km).held + c.owns km := by
  have inv := reach.inv
  have called := InMemoryLock.step_call inv.safe key method
  rw [InMemoryLock.run_cons_of_step _ called] at ran
  have inv' := ((reach.step called).run actions ran).inv
  obtain ⟨length, others⟩ := InMemoryLock.run_calls own ran
  have calls : il'.calls = il.calls ++ [c] := by
    refine List.ext_getElem? fun i => ?_
    rcases Nat.lt_trichotomy i il.calls.length with before | rfl | after
    · rw [others i (Nat.ne_of_lt before)]
      exact (List.getElem?_append_left before).trans (List.getElem?_append_left before).symm
    · rw [found, List.getElem?_concat_length]
    · simp only [List.length_append, List.length_singleton] at length
      rw [List.getElem?_eq_none (by omega), List.getElem?_eq_none (by simp; omega)]
  refine ⟨calls, fun km => ⟨?_, ?_⟩⟩
  · rw [inv'.waiters, inv.waiters, calls]
    simp
  · rw [← inv'.owners, ← inv.owners, calls]
    simp

end Counts

section Done

variable {il il' : InMemoryLock}

theorem InMemoryLock.Reachable.done_lock_may_acquire (reach : il.Reachable) (key : String)
    (free : ∀ km, il.locks key = some km → (il.mutexes km).locked = false) :
    ∃ il₁ il₂ c km, il.run [.call key .lock, .main il.calls.length, .helper il.calls.length,
        .helper il.calls.length] = some il₁ ∧
      (il₁.step (.cancel il.calls.length)).isSome ∧ il₁.step (.main il.calls.length) = some il₂ ∧
      il₂.calls[il.calls.length]? = some c ∧ c.pc = .holding km ∧ il₂.locks key = some km ∧
      (il₂.mutexes km).waiters = (il.mutexes km).waiters + 1 ∧ (il₂.mutexes km).held = (il.mutexes km).held + 1 := by
  have called := InMemoryLock.step_call reach.inv.safe key .lock
  have reach₀ := reach.step called
  obtain ⟨il₁, km, created⟩ : ∃ il₁ km, ({ il with calls := il.calls ++ [⟨key, .lock, .start, .idle, .idle⟩] } :
      InMemoryLock).getOrCreate key = (il₁, km) := ⟨_, _, rfl⟩
  have inside : il.calls.length < il₁.calls.length := by simp [InMemoryLock.calls_of_getOrCreate created]
  have started := InMemoryLock.step_main_start_lock reach₀.inv.safe (List.getElem?_concat_length _ _) rfl rfl created
  have reach₁ := reach₀.step started
  have locked := InMemoryLock.step_helper_waiting reach₁.inv.safe (InMemoryLock.getElem?_setCall inside _) rfl
    (by simpa using InMemoryLock.locked_getOrCreate created free)
  have reach₂ := reach₁.step locked
  have sent := InMemoryLock.step_helper_locked reach₂.inv.safe
    (InMemoryLock.getElem?_setCall (by simpa using inside) _) rfl
  have reach₃ := reach₂.step sent
  have selected := InMemoryLock.step_main_selecting_sent reach₃.inv.safe
    (InMemoryLock.getElem?_setCall (by simpa using inside) _) rfl rfl
  have ran₃ := (InMemoryLock.run_cons_of_step _ called).trans <| (InMemoryLock.run_cons_of_step _ started).trans <|
    (InMemoryLock.run_cons_of_step _ locked).trans <| (InMemoryLock.run_cons_of_step _ sent).trans InMemoryLock.run_nil
  have ran := InMemoryLock.run_concat ran₃ selected
  obtain ⟨calls, counts⟩ := reach.own_run (by simp [LockAction.thread]) ran
    (InMemoryLock.getElem?_setCall (by simpa using inside) _)
  refine ⟨_, _, _, km, ran₃, ?_, selected, InMemoryLock.getElem?_setCall (by simpa using inside) _, rfl, ?_,
    by simpa [Call.waits, CallPc.contributes] using (counts km).1,
    by simpa [Call.owns, CallPc.holder, HelperPc.holder, DrainPc.holder] using (counts km).2⟩
  · rw [InMemoryLock.step_cancel_selecting reach₃.inv.safe (InMemoryLock.getElem?_setCall (by simpa using inside) _) rfl]
    rfl
  · rw [(reach.run _ ran).inv.locks_eq_some, calls]
    exact ⟨_, List.mem_concat_self _ _, rfl, by simp [Call.waits, CallPc.contributes]⟩

theorem InMemoryLock.Reachable.cancelled_restores (reach : il.Reachable) {key : String}
    {actions : List LockAction} (own : ∀ a ∈ actions, a.thread = some il.calls.length)
    (ran : il.run (.call key .lock :: actions) = some il') {c : Call} (found : il'.calls[il.calls.length]? = some c)
    (cancelled : c.pc = .returned .cancelled) :
    il'.locks = il.locks ∧ (∀ km, (il'.mutexes km).waiters = (il.mutexes km).waiters) ∧
      ∀ km, (il'.mutexes km).held = (il.mutexes km).held + c.owns km := by
  obtain ⟨calls, counts⟩ := reach.own_run own ran found
  have idle : ∀ km, c.waits km = 0 := fun km => by simp [Call.waits, CallPc.contributes, cancelled]
  refine ⟨funext fun key' => Option.ext fun km => ?_, fun km => by simp [(counts km).1, idle], fun km => (counts km).2⟩
  simp [(reach.run _ ran).inv.locks_eq_some, reach.inv.locks_eq_some, calls, idle, or_and_right, exists_or]

end Done

/-- `Lock(ctx, key)` with a context that is already done does not always fail: when the key's
    mutex is free, `select` can find `acquired` ready beside `ctx.Done()` and return `nil`
    holding the key. When it does fail, the locked state is restored except for what the
    goroutines it leaves behind still hold. -/
theorem lock_with_done_context_outcomes {il : InMemoryLock} (reach : il.Reachable) (key : String) :
    ((∀ km, il.locks key = some km → (il.mutexes km).locked = false) →
      ∃ il₁ il₂ c km, il.run [.call key .lock, .main il.calls.length, .helper il.calls.length,
          .helper il.calls.length] = some il₁ ∧
        (il₁.step (.cancel il.calls.length)).isSome ∧ il₁.step (.main il.calls.length) = some il₂ ∧
        il₂.calls[il.calls.length]? = some c ∧ c.pc = .holding km ∧ il₂.locks key = some km ∧
        (il₂.mutexes km).waiters = (il.mutexes km).waiters + 1 ∧
        (il₂.mutexes km).held = (il.mutexes km).held + 1) ∧
      ∀ (actions : List LockAction) {il' : InMemoryLock} {c : Call},
        (∀ a ∈ actions, a.thread = some il.calls.length) → il.run (.call key .lock :: actions) = some il' →
        il'.calls[il.calls.length]? = some c → c.pc = .returned .cancelled →
        il'.locks = il.locks ∧ (∀ km, (il'.mutexes km).waiters = (il.mutexes km).waiters) ∧
          ∀ km, (il'.mutexes km).held = (il.mutexes km).held + c.owns km :=
  ⟨reach.done_lock_may_acquire key, fun _ _ _ own ran found cancelled => reach.cancelled_restores own ran found cancelled⟩

theorem lock_with_done_context_on_new_lock :
    newInMemoryLock.Reachable ∧ (∀ km, newInMemoryLock.locks "k" = some km → (newInMemoryLock.mutexes km).locked = false) ∧
      ∃ il₁ il₂ c km, newInMemoryLock.run [.call "k" .lock, .main 0, .helper 0, .helper 0] = some il₁ ∧
        (il₁.step (.cancel 0)).isSome ∧ il₁.step (.main 0) = some il₂ ∧ il₂.calls[0]? = some c ∧
        c.pc = .holding km ∧ il₂.locks "k" = some km ∧
        (il₂.mutexes km).waiters = (newInMemoryLock.mutexes km).waiters + 1 ∧
        (il₂.mutexes km).held = (newInMemoryLock.mutexes km).held + 1 :=
  ⟨.init, fun _ absent => Option.noConfusion absent,
    (lock_with_done_context_outcomes .init "k").1 fun _ absent => Option.noConfusion absent⟩

end SessionEngine.Lock
