import SessionEngine.Lock.Safety

namespace SessionEngine.Lock

/-- The statements at which a caller holds its key: from the return of its `Lock` or `TryLock`
    until its `Unlock` takes `il.mu`. -/
def CallPc.held : CallPc → Bool
  | .holding _ | .unlocking _ => true
  | _ => false

/-- The statements of a `Lock` or `TryLock` that was called and has not returned. -/
def CallPc.acquiring : CallPc → Bool
  | .start | .selecting _ | .cancelling _ | .draining _ | .drained _ | .trying _ | .failing _ => true
  | _ => false

def Call.Holds (c : Call) (key : String) : Prop :=
  c.key = key ∧ c.pc.held = true

def Call.Acquiring (c : Call) (key : String) : Prop :=
  c.key = key ∧ c.method ≠ .isLocked ∧ c.pc.acquiring = true

/-- The goroutines a `Lock` started hold `km.mu`: the helper before or after its send on
    `acquired`, or the draining goroutine before its `km.mu.Unlock()`. -/
def Call.LeftHolding (c : Call) (km : Nat) : Prop :=
  c.helper = .locked km ∨ c.helper = .sent km ∨ c.drain = .received km

/-- What the lock promises in every interleaving: one holder per key; every entry of `locks`
    is counted, and no count is negative; an entry nobody holds or acquires is gone; and the
    goroutines a returned `Lock` left holding a `keyMutex` unlock it by their own steps. -/
structure InMemoryLock.Safe (il : InMemoryLock) : Prop where
  exclusive : ∀ key i j (hi : i < il.calls.length) (hj : j < il.calls.length),
    il.calls[i].Holds key → il.calls[j].Holds key → i = j
  counted : ∀ key km, il.locks key = some km → 1 ≤ (il.mutexes km).waiters
  nonnegative : ∀ km, 0 ≤ (il.mutexes km).waiters
  pruned : ∀ key, (∀ c ∈ il.calls, ¬ c.Holds key ∧ ¬ c.Acquiring key) → il.locks key = none
  released : ∀ t c km, il.calls[t]? = some c → (∃ outcome, c.pc = .returned outcome) → c.LeftHolding km →
    ∃ actions il' c', (∀ a ∈ actions, a = .helper t ∨ a = .drain t) ∧ il.run actions = some il' ∧
      il'.calls[t]? = some c' ∧ (il'.mutexes km).locked = false ∧ ∀ x, c'.owns x = 0

section Steps

variable {il : InMemoryLock} {t : Nat} {c : Call} {km : Nat}

theorem InMemoryLock.run_cons_of_step {il' : InMemoryLock} {a : LockAction} (rest : List LockAction)
    (stepped : il.step a = some il') : il.run (a :: rest) = il'.run rest := by
  simp [InMemoryLock.run, stepped]

theorem InMemoryLock.getElem?_setCall (h : t < il.calls.length) (c' : Call) :
    (il.setCall t c').calls[t]? = some c' := by
  simp [h]

theorem InMemoryLock.step_helper_locked (safe : il.fatal = false) (found : il.calls[t]? = some c)
    (locked : c.helper = .locked km) : il.step (.helper t) = some (il.setCall t { c with helper := .sent km }) := by
  simp [InMemoryLock.step, InMemoryLock.threadStep, safe, found, locked]

theorem InMemoryLock.step_drain_sent {k : Nat} (safe : il.fatal = false) (found : il.calls[t]? = some c)
    (waiting : c.drain = .waiting km) (sent : c.helper = .sent k) :
    il.step (.drain t) = some (il.setCall t { c with helper := .taken, drain := .received km }) := by
  simp [InMemoryLock.step, InMemoryLock.threadStep, safe, found, waiting, sent]

theorem InMemoryLock.step_drain_received (safe : il.fatal = false) (found : il.calls[t]? = some c)
    (received : c.drain = .received km) :
    il.step (.drain t) = some ((il.unlockMutex km).setCall t { c with drain := .done }) := by
  simp [InMemoryLock.step, InMemoryLock.threadStep, safe, found, received]

end Steps

section Safe

variable {il : InMemoryLock}

theorem CallPc.contributes_of_held {pc : CallPc} (held : pc.held = true) :
    ∃ km, pc.contributes = some km ∧ pc.holder = some km := by
  cases pc <;> simp_all [CallPc.held, CallPc.contributes, CallPc.holder]

theorem Call.Shaped.held_or_acquiring {c : Call} (shape : c.Shaped) {km : Nat} (pos : 0 < c.waits km) :
    c.pc.held = true ∨ c.method ≠ .isLocked ∧ c.pc.acquiring = true := by
  unfold Call.Shaped at shape
  unfold Call.waits indicator at pos
  cases method : c.method <;> cases pc : c.pc <;>
    simp_all [CallPc.contributes, CallPc.held, CallPc.acquiring]

theorem InMemoryLock.Inv.exclusive (inv : il.Inv) (key : String) (i j : Nat) (hi : i < il.calls.length)
    (hj : j < il.calls.length) (first : il.calls[i].Holds key) (second : il.calls[j].Holds key) : i = j := by
  obtain ⟨keyI, heldI⟩ := first
  obtain ⟨keyJ, heldJ⟩ := second
  obtain ⟨km, waitsI, holderI⟩ := CallPc.contributes_of_held heldI
  obtain ⟨km', waitsJ, holderJ⟩ := CallPc.contributes_of_held heldJ
  have foundI := inv.entries _ (List.getElem_mem hi) km (by simp [Call.waits, waitsI])
  have foundJ := inv.entries _ (List.getElem_mem hj) km' (by simp [Call.waits, waitsJ])
  rw [keyI, ← keyJ, foundJ] at foundI
  cases foundI
  have total : (il.calls.map (·.owns km)).sum ≤ 1 := by
    rw [inv.owners km, KeyMutex.held]
    split <;> omega
  exact eq_of_sum_map_le_one hi hj total (by simp [Call.owns, holderI]) (by simp [Call.owns, holderJ])

theorem InMemoryLock.Inv.locks_eq_some (inv : il.Inv) (key : String) (km : Nat) :
    il.locks key = some km ↔ ∃ c ∈ il.calls, c.key = key ∧ 0 < c.waits km := by
  constructor
  · intro found
    have counted : (il.calls.map (·.waits km)).sum ≠ 0 := by
      have := inv.present key km found
      rw [inv.waiters km] at this
      omega
    obtain ⟨n, listed, pos⟩ := List.exists_mem_ne_zero_of_sum_ne_zero counted
    obtain ⟨c, member, rfl⟩ := List.mem_map.mp listed
    have pos := Nat.pos_of_ne_zero pos
    exact ⟨c, member, inv.distinct _ _ km (inv.entries c member km pos) found, pos⟩
  · rintro ⟨c, member, rfl, pos⟩
    exact inv.entries c member km pos

theorem InMemoryLock.Inv.pruned (inv : il.Inv) (key : String)
    (idle : ∀ c ∈ il.calls, ¬ c.Holds key ∧ ¬ c.Acquiring key) : il.locks key = none := by
  cases found : il.locks key with
  | none => rfl
  | some km =>
    obtain ⟨c, member, same, pos⟩ := (inv.locks_eq_some key km).mp found
    rcases (inv.shaped c member).held_or_acquiring pos with held | ⟨method, acquiring⟩
    · exact absurd ⟨same, held⟩ (idle c member).1
    · exact absurd ⟨same, method, acquiring⟩ (idle c member).2

theorem InMemoryLock.Inv.drain_releases (inv : il.Inv) {t : Nat} {c : Call} {km : Nat}
    (found : il.calls[t]? = some c) {outcome : Outcome} (pc : c.pc = .returned outcome) (taken : c.helper = .taken)
    (received : c.drain = .received km) :
    ∃ il' c', il.run [.drain t] = some il' ∧ il'.calls[t]? = some c' ∧ (il'.mutexes km).locked = false ∧
      ∀ x, c'.owns x = 0 := by
  obtain ⟨h, rfl⟩ := List.getElem?_eq_some_iff.mp found
  have locked := inv.locked_of_owns (List.getElem_mem h)
    (show 0 < il.calls[t].owns km by simp [Call.owns, DrainPc.holder, received])
  refine ⟨_, _, InMemoryLock.run_cons_of_step [] (InMemoryLock.step_drain_received inv.safe found received),
    InMemoryLock.getElem?_setCall (by simpa using h) _, ?_, ?_⟩
  · simp [InMemoryLock.unlockMutex, InMemoryLock.setLocked, locked]
  · simp [Call.owns, CallPc.holder, HelperPc.holder, DrainPc.holder, pc, taken]

theorem InMemoryLock.Reachable.sent_releases {il : InMemoryLock} (reach : il.Reachable) {t : Nat} {c : Call}
    {km : Nat} (found : il.calls[t]? = some c) {outcome : Outcome} (pc : c.pc = .returned outcome)
    (waiting : c.drain = .waiting km) (sent : c.helper = .sent km) :
    ∃ il' c', il.run [.drain t, .drain t] = some il' ∧ il'.calls[t]? = some c' ∧ (il'.mutexes km).locked = false ∧
      ∀ x, c'.owns x = 0 := by
  have stepped := InMemoryLock.step_drain_sent reach.inv.safe found waiting sent
  obtain ⟨il', c', ran, rest⟩ := (reach.step stepped).inv.drain_releases
    (InMemoryLock.getElem?_setCall (List.getElem?_eq_some_iff.mp found).1 _) pc rfl rfl
  exact ⟨il', c', by rw [InMemoryLock.run_cons_of_step _ stepped, ran], rest⟩

theorem InMemoryLock.Reachable.released {il : InMemoryLock} (reach : il.Reachable) {t : Nat} {c : Call}
    {km : Nat} (found : il.calls[t]? = some c) {outcome : Outcome} (pc : c.pc = .returned outcome)
    (holding : c.LeftHolding km) :
    ∃ actions il' c', (∀ a ∈ actions, a = .helper t ∨ a = .drain t) ∧ il.run actions = some il' ∧
      il'.calls[t]? = some c' ∧ (il'.mutexes km).locked = false ∧ ∀ x, c'.owns x = 0 := by
  have inv := reach.inv
  obtain ⟨h, rfl⟩ := List.getElem?_eq_some_iff.mp found
  rcases (inv.shaped _ (List.getElem_mem h)).returned pc with
    ⟨_, ⟨taken, _⟩ | ⟨k, waiting, pending⟩⟩ | ⟨_, idle, drain⟩
  · -- the helper's value was taken: only the draining goroutine can hold `km.mu`
    rcases holding with helper | helper | received
    · simp [helper] at taken
    · simp [helper] at taken
    obtain ⟨il', c', ran, rest⟩ := inv.drain_releases found pc taken received
    exact ⟨[.drain t], il', c', by simp, ran, rest⟩
  · -- the draining goroutine waits on `acquired`
    rcases holding with helper | helper | received
    · -- before the send: one helper step, then the draining goroutine
      rw [helper] at pending
      obtain rfl : k = km := by rcases pending with same | same | same <;> cases same; rfl
      have stepped := InMemoryLock.step_helper_locked inv.safe found helper
      obtain ⟨il', c', ran, rest⟩ :=
        (reach.step stepped).sent_releases (InMemoryLock.getElem?_setCall h _) pc waiting rfl
      refine ⟨[.helper t, .drain t, .drain t], il', c', by simp, ?_, rest⟩
      rw [InMemoryLock.run_cons_of_step _ stepped, ran]
    · obtain rfl := HelperPc.pending_sent pending helper
      obtain ⟨il', c', ran, rest⟩ := reach.sent_releases found pc waiting helper
      exact ⟨[.drain t, .drain t], il', c', by simp, ran, rest⟩
    · rw [waiting] at received
      cases received
  · rcases holding with helper | helper | received <;> simp_all

end Safe

theorem in_memory_lock_safe {il : InMemoryLock} (reach : il.Reachable) : il.Safe :=
  have inv := reach.inv
  ⟨inv.exclusive, inv.present, fun km => by rw [inv.waiters km]; omega, inv.pruned,
    fun _ _ _ found ⟨_, pc⟩ holding => reach.released found pc holding⟩

/-- A `Lock` on `"k"` cancelled before its helper took `km.mu` (its entry is deleted), the
    helper then taking the old mutex, and a second `Lock` on `"k"` that creates a fresh
    `keyMutex` and returns holding it. -/
def cancelThenRelock : List LockAction :=
  [.call "k" .lock, .main 0, .cancel 0, .main 0, .main 0, .helper 0,
    .call "k" .lock, .main 1, .helper 1, .helper 1, .main 1]

theorem in_memory_lock_safe_cancel_then_relock :
    ∃ il, newInMemoryLock.run cancelThenRelock = some il ∧ il.Safe ∧ il.locks "k" = some 1 ∧
      (il.calls.map (·.pc)) = [.returned .cancelled, .holding 1] ∧
      (il.calls.map (·.helper)) = [.locked 0, .taken] :=
  ⟨_, rfl, in_memory_lock_safe (InMemoryLock.Reachable.init.run cancelThenRelock rfl), rfl, rfl, rfl⟩

end SessionEngine.Lock
