import SessionEngine.Lock.InMemory

namespace SessionEngine.Lock

section Sums

variable {α : Type} {f : α → Nat}

theorem sum_map_set : ∀ {l : List α} {i : Nat} (h : i < l.length) (a : α),
    ((l.set i a).map f).sum + f l[i] = (l.map f).sum + f a
  | _ :: _, 0, _, _ => by simp only [List.set_cons_zero, List.map_cons, List.sum_cons, List.getElem_cons_zero]; omega
  | _ :: rest, i + 1, h, a => by
    have := sum_map_set (l := rest) (i := i) (by simpa using h) a
    simp only [List.set_cons_succ, List.map_cons, List.sum_cons, List.getElem_cons_succ]
    omega

theorem eq_of_sum_map_le_one : ∀ {l : List α} {i j : Nat} (hi : i < l.length) (hj : j < l.length),
    (l.map f).sum ≤ 1 → 0 < f l[i] → 0 < f l[j] → i = j
  | _ :: _, 0, 0, _, _, _, _, _ => rfl
  | _ :: rest, 0, j + 1, _, hj, total, first, second => by
    have := List.le_sum_of_mem (List.mem_map_of_mem f (List.getElem_mem (l := rest) (n := j) (by simpa using hj)))
    simp only [List.map_cons, List.sum_cons, List.getElem_cons_zero, List.getElem_cons_succ] at total first second
    omega
  | _ :: rest, i + 1, 0, hi, _, total, first, second => by
    have := List.le_sum_of_mem (List.mem_map_of_mem f (List.getElem_mem (l := rest) (n := i) (by simpa using hi)))
    simp only [List.map_cons, List.sum_cons, List.getElem_cons_zero, List.getElem_cons_succ] at total first second
    omega
  | _ :: rest, i + 1, j + 1, hi, hj, total, first, second => by
    simp only [List.map_cons, List.sum_cons, List.getElem_cons_succ] at total first second
    rw [eq_of_sum_map_le_one (l := rest) (by simpa using hi) (by simpa using hj) (by omega) first second]

end Sums

/-- The `keyMutex` a call's reference counts on: from its `getOrCreate` to its decrement. -/
def CallPc.contributes : CallPc → Option Nat
  | .selecting km | .cancelling km | .trying km | .failing km | .holding km | .unlocking km => some km
  | _ => none

/-- The `keyMutex` whose `mu` the call's own goroutine holds. -/
def CallPc.holder : CallPc → Option Nat
  | .drained km | .holding km | .unlocking km | .releasing km | .probed km => some km
  | _ => none

def HelperPc.holder : HelperPc → Option Nat
  | .locked km | .sent km => some km
  | _ => none

def DrainPc.holder : DrainPc → Option Nat
  | .received km => some km
  | _ => none

def CallPc.mutex? : CallPc → Option Nat
  | .start | .returned _ => none
  | .selecting km | .cancelling km | .draining km | .drained km | .trying km | .failing km | .holding km
  | .unlocking km | .releasing km | .probing km | .probed km => some km

def HelperPc.mutex? : HelperPc → Option Nat
  | .waiting km | .locked km | .sent km => some km
  | .idle | .taken => none

def DrainPc.mutex? : DrainPc → Option Nat
  | .waiting km | .received km => some km
  | .idle | .done => none

def indicator (o : Option Nat) (km : Nat) : Nat :=
  if o = some km then 1 else 0

@[simp] theorem indicator_none (x : Nat) : indicator none x = 0 := rfl

@[simp] theorem indicator_some (km x : Nat) : indicator (some km) x = if x = km then 1 else 0 := by
  by_cases same : x = km <;> simp [indicator, same, Ne.symm]

def Call.waits (c : Call) (km : Nat) : Nat :=
  indicator c.pc.contributes km

def Call.owns (c : Call) (km : Nat) : Nat :=
  indicator c.pc.holder km + indicator c.helper.holder km + indicator c.drain.holder km

def KeyMutex.held (m : KeyMutex) : Nat :=
  if m.locked then 1 else 0

/-- The helper goroutine of a `Lock` on `km` that has not handed its value over. -/
def HelperPc.pending (h : HelperPc) (km : Nat) : Prop :=
  h = .waiting km ∨ h = .locked km ∨ h = .sent km

def DrainPc.settled (d : DrainPc) : Prop :=
  d = .idle ∨ d = .done ∨ ∃ km, d = .received km

/-- The states each method's goroutines can be in together. -/
def Call.Shaped (c : Call) : Prop :=
  match c.method, c.pc with
  | .lock, .start => c.helper = .idle ∧ c.drain = .idle
  | .lock, .selecting km | .lock, .cancelling km | .lock, .draining km => c.helper.pending km ∧ c.drain = .idle
  | .lock, .drained _ | .lock, .holding _ | .lock, .unlocking _ | .lock, .releasing _ =>
    c.helper = .taken ∧ c.drain = .idle
  | .lock, .returned _ => (c.helper = .taken ∧ c.drain.settled) ∨ ∃ km, c.drain = .waiting km ∧ c.helper.pending km
  | .tryLock, .start | .tryLock, .trying _ | .tryLock, .failing _ | .tryLock, .holding _
  | .tryLock, .unlocking _ | .tryLock, .releasing _ | .tryLock, .returned _
  | .isLocked, .start | .isLocked, .probing _ | .isLocked, .probed _ | .isLocked, .returned _ =>
    c.helper = .idle ∧ c.drain = .idle
  | _, _ => False

def Call.Mentions (c : Call) (km : Nat) : Prop :=
  c.pc.mutex? = some km ∨ c.helper.mutex? = some km ∨ c.drain.mutex? = some km

section Shape

variable {c : Call} {km : Nat}

theorem HelperPc.pending_sent {h : HelperPc} {km k : Nat} (pending : h.pending km) (sent : h = .sent k) : k = km := by
  rcases pending with same | same | same <;> rw [sent] at same <;> cases same
  rfl

theorem Call.Shaped.start (shape : c.Shaped) (pc : c.pc = .start) : c.helper = .idle ∧ c.drain = .idle := by
  unfold Call.Shaped at shape
  cases method : c.method <;> simp_all

theorem Call.Shaped.pending (shape : c.Shaped)
    (pc : c.pc = .selecting km ∨ c.pc = .cancelling km ∨ c.pc = .draining km) :
    c.method = .lock ∧ c.helper.pending km ∧ c.drain = .idle := by
  unfold Call.Shaped at shape
  rcases pc with pc | pc | pc <;> cases method : c.method <;> simp_all

theorem Call.Shaped.drained (shape : c.Shaped) (pc : c.pc = .drained km) :
    c.method = .lock ∧ c.helper = .taken ∧ c.drain = .idle := by
  unfold Call.Shaped at shape
  cases method : c.method <;> simp_all

theorem Call.Shaped.held (shape : c.Shaped)
    (pc : c.pc = .holding km ∨ c.pc = .unlocking km ∨ c.pc = .releasing km) :
    (c.method = .lock ∧ c.helper = .taken ∨ c.method = .tryLock ∧ c.helper = .idle) ∧ c.drain = .idle := by
  unfold Call.Shaped at shape
  rcases pc with pc | pc | pc <;> cases method : c.method <;> simp_all

theorem Call.Shaped.trying (shape : c.Shaped) (pc : c.pc = .trying km ∨ c.pc = .failing km) :
    c.method = .tryLock ∧ c.helper = .idle ∧ c.drain = .idle := by
  unfold Call.Shaped at shape
  rcases pc with pc | pc <;> cases method : c.method <;> simp_all

theorem Call.Shaped.probing (shape : c.Shaped) (pc : c.pc = .probing km ∨ c.pc = .probed km) :
    c.method = .isLocked ∧ c.helper = .idle ∧ c.drain = .idle := by
  unfold Call.Shaped at shape
  rcases pc with pc | pc <;> cases method : c.method <;> simp_all

theorem Call.Shaped.returned (shape : c.Shaped) {outcome : Outcome} (pc : c.pc = .returned outcome) :
    c.method = .lock ∧
        ((c.helper = .taken ∧ c.drain.settled) ∨ ∃ km, c.drain = .waiting km ∧ c.helper.pending km) ∨
      c.method ≠ .lock ∧ c.helper = .idle ∧ c.drain = .idle := by
  unfold Call.Shaped at shape
  cases method : c.method <;> simp_all

theorem Call.Shaped.of_pending (shape : c.Shaped) (pending : c.helper.pending km) :
    c.method = .lock ∧ (c.drain = .idle ∧ (c.pc = .selecting km ∨ c.pc = .cancelling km ∨ c.pc = .draining km) ∨
      (∃ outcome, c.pc = .returned outcome) ∧ c.drain = .waiting km) := by
  unfold Call.Shaped at shape
  rcases pending with helper | helper | helper <;> cases method : c.method <;> cases pc : c.pc <;>
    simp_all [HelperPc.pending]

theorem Call.Shaped.setHelper (shape : c.Shaped) (pending : c.helper.pending km) {helper : HelperPc}
    (next : helper.pending km) : ({ c with helper } : Call).Shaped := by
  obtain ⟨method, ⟨drain, pc | pc | pc⟩ | ⟨⟨outcome, pc⟩, drain⟩⟩ := shape.of_pending pending <;>
    simp [Call.Shaped, method, pc, drain, next]

theorem Call.Shaped.returned_of_drain (shape : c.Shaped) (busy : c.drain ≠ .idle) :
    c.method = .lock ∧ ∃ outcome, c.pc = .returned outcome := by
  unfold Call.Shaped at shape
  cases method : c.method <;> cases pc : c.pc <;> simp_all

end Shape

/-- Every `keyMutex` the call refers to was allocated. -/
def Call.Within (c : Call) (next : Nat) : Prop :=
  ∀ km, c.Mentions km → km < next

/-- What every interleaving keeps: each `waiters` counts the calls between their
    `getOrCreate` and their decrement, each locked `mu` has exactly one goroutine holding it,
    a counted call finds its own `keyMutex` under its key, and an entry of the map is
    counted at least once. -/
structure InMemoryLock.Inv (il : InMemoryLock) : Prop where
  safe : il.fatal = false
  waiters : ∀ km, (il.mutexes km).waiters = (((il.calls.map (·.waits km)).sum : Nat) : Int)
  owners : ∀ km, (il.calls.map (·.owns km)).sum = (il.mutexes km).held
  entries : ∀ c ∈ il.calls, ∀ km, 0 < c.waits km → il.locks c.key = some km
  present : ∀ key km, il.locks key = some km → 1 ≤ (il.mutexes km).waiters
  distinct : ∀ key key' km, il.locks key = some km → il.locks key' = some km → key = key'
  allocated : ∀ key km, il.locks key = some km → km < il.next
  within : ∀ c ∈ il.calls, c.Within il.next
  shaped : ∀ c ∈ il.calls, c.Shaped

theorem newInMemoryLock_inv : newInMemoryLock.Inv :=
  ⟨rfl, fun _ => rfl, fun _ => rfl, fun _ member => (List.not_mem_nil _ member).elim,
    fun _ _ found => (nomatch found), fun _ _ _ found => (nomatch found), fun _ _ found => (nomatch found),
    fun _ member => (List.not_mem_nil _ member).elim, fun _ member => (List.not_mem_nil _ member).elim⟩

theorem Call.Within.mono {c : Call} {next next' : Nat} (within : c.Within next) (le : next ≤ next') :
    c.Within next' :=
  fun km mentions => lt_of_lt_of_le (within km mentions) le

theorem Call.Within.sub {c c' : Call} {next : Nat} (within : c.Within next)
    (mentions : ∀ k, c'.Mentions k → c.Mentions k) : c'.Within next := fun k mentioned =>
  within k (mentions k mentioned)

theorem Call.Within.step {c c' : Call} {next km : Nat} (within : c.Within next) (bound : km < next)
    (mentions : ∀ k, c'.Mentions k → c.Mentions k ∨ km = k) : c'.Within next := fun k mentioned => by
  rcases mentions k mentioned with old | rfl
  · exact within k old
  · exact bound

theorem Call.Within.move {c : Call} {next : Nat} (within : c.Within next) {pc : CallPc}
    (sub : ∀ k, pc.mutex? = some k → c.pc.mutex? = some k) : ({ c with pc } : Call).Within next :=
  within.sub fun k => Or.imp_left (sub k)

theorem Call.mentions_of_waits {c : Call} {km : Nat} (pos : 0 < c.waits km) : c.Mentions km := by
  unfold Call.waits indicator at pos
  split at pos
  · left
    cases pc : c.pc <;> simp_all [CallPc.contributes, CallPc.mutex?]
  · omega

theorem Call.mentions_of_owns {c : Call} {km : Nat} (pos : 0 < c.owns km) : c.Mentions km := by
  unfold Call.owns indicator at pos
  split at pos <;> rename_i first
  · left
    cases pc : c.pc <;> simp_all [CallPc.holder, CallPc.mutex?]
  split at pos <;> rename_i second
  · right; left
    cases helper : c.helper <;> simp_all [HelperPc.holder, HelperPc.mutex?]
  split at pos <;> rename_i third
  · right; right
    cases drain : c.drain <;> simp_all [DrainPc.holder, DrainPc.mutex?]
  · omega

section Inv

variable {il : InMemoryLock} {t : Nat} {c' : Call}

theorem InMemoryLock.Inv.unused (inv : il.Inv) {km : Nat} (fresh : il.next ≤ km) :
    (il.calls.map (·.waits km)).sum = 0 ∧ (il.calls.map (·.owns km)).sum = 0 := by
  constructor <;> refine List.sum_eq_zero_iff.mpr fun n member => ?_ <;>
    obtain ⟨c, listed, rfl⟩ := List.mem_map.mp member <;> by_contra pos
  · have := inv.within c listed km (Call.mentions_of_waits (Nat.pos_of_ne_zero pos))
    omega
  · have := inv.within c listed km (Call.mentions_of_owns (Nat.pos_of_ne_zero pos))
    omega

theorem InMemoryLock.Inv.locked_of_owns (inv : il.Inv) {c : Call} (member : c ∈ il.calls) {km : Nat}
    (pos : 0 < c.owns km) : (il.mutexes km).locked = true := by
  have := List.le_sum_of_mem (List.mem_map_of_mem (·.owns km) member)
  have total := inv.owners km
  unfold KeyMutex.held at total
  split at total
  · assumption
  · simp only at this
    omega

theorem InMemoryLock.Inv.waiters_set (inv : il.Inv) (h : t < il.calls.length) {mutexes : Nat → KeyMutex}
    (waits : ∀ km, (mutexes km).waiters + il.calls[t].waits km = (il.mutexes km).waiters + c'.waits km) :
    ∀ km, (mutexes km).waiters = ((((il.calls.set t c').map (·.waits km)).sum : Nat) : Int) := by
  intro km
  have moved := congrArg (Nat.cast : Nat → Int) (sum_map_set (f := (·.waits km)) h c')
  simp only [Nat.cast_add] at moved
  have := inv.waiters km
  have := waits km
  omega

theorem InMemoryLock.Inv.owners_set (inv : il.Inv) (h : t < il.calls.length) {mutexes : Nat → KeyMutex}
    (owns : ∀ km, (mutexes km).held + il.calls[t].owns km = (il.mutexes km).held + c'.owns km) :
    ∀ km, ((il.calls.set t c').map (·.owns km)).sum = (mutexes km).held := by
  intro km
  have moved := sum_map_set (f := (·.owns km)) h c'
  have := inv.owners km
  have := owns km
  omega

theorem InMemoryLock.Inv.update (inv : il.Inv) (h : t < il.calls.length) {locks : String → Option Nat}
    {mutexes : Nat → KeyMutex} {next : Nat} (grown : il.next ≤ next)
    (waits : ∀ km, (mutexes km).waiters + il.calls[t].waits km = (il.mutexes km).waiters + c'.waits km)
    (owns : ∀ km, (mutexes km).held + il.calls[t].owns km = (il.mutexes km).held + c'.owns km)
    (entries : ∀ c ∈ il.calls.set t c', ∀ km, 0 < c.waits km → locks c.key = some km)
    (present : ∀ key km, locks key = some km → 1 ≤ (mutexes km).waiters)
    (distinct : ∀ key key' km, locks key = some km → locks key' = some km → key = key')
    (allocated : ∀ key km, locks key = some km → km < next) (within : c'.Within next) (shaped : c'.Shaped) :
    ({ il with locks, mutexes, next, calls := il.calls.set t c' } : InMemoryLock).Inv := by
  refine ⟨inv.safe, inv.waiters_set h waits, inv.owners_set h owns, entries, present, distinct, allocated,
    fun x member => ?_, fun x member => ?_⟩ <;> rcases List.mem_or_eq_of_mem_set member with member | rfl
  · exact (inv.within x member).mono grown
  · exact within
  · exact inv.shaped x member
  · exact shaped

theorem InMemoryLock.Inv.frame (inv : il.Inv) (h : t < il.calls.length) {mutexes : Nat → KeyMutex}
    (waits : ∀ km, (mutexes km).waiters + il.calls[t].waits km = (il.mutexes km).waiters + c'.waits km)
    (owns : ∀ km, (mutexes km).held + il.calls[t].owns km = (il.mutexes km).held + c'.owns km)
    (entry : ∀ km, 0 < c'.waits km → il.locks c'.key = some km)
    (present : ∀ key km, il.locks key = some km → 1 ≤ (mutexes km).waiters)
    (within : c'.Within il.next) (shaped : c'.Shaped) :
    ({ il with mutexes, calls := il.calls.set t c' } : InMemoryLock).Inv :=
  inv.update h le_rfl waits owns (fun x member km pos => by
      rcases List.mem_or_eq_of_mem_set member with member | rfl
      · exact inv.entries x member km pos
      · exact entry km pos)
    present inv.distinct inv.allocated within shaped

theorem InMemoryLock.Inv.setCall (inv : il.Inv) (h : t < il.calls.length)
    (waits : ∀ km, c'.waits km = il.calls[t].waits km) (owns : ∀ km, c'.owns km = il.calls[t].owns km)
    (key : c'.key = il.calls[t].key) (within : c'.Within il.next) (shaped : c'.Shaped) :
    (il.setCall t c').Inv :=
  inv.frame h (fun km => by rw [waits]) (fun km => by rw [owns]) (fun km pos => key ▸
    inv.entries _ (List.getElem_mem h) km (waits km ▸ pos)) inv.present within shaped

theorem held_setLocked {il : InMemoryLock} {km : Nat} (locked : Bool) (x : Nat) :
    ((il.setLocked km locked).mutexes x).held =
      if x = km then (if locked then 1 else 0) else (il.mutexes x).held := by
  by_cases same : x = km
  · subst same
    simp [InMemoryLock.setLocked, KeyMutex.held]
  · simp [InMemoryLock.setLocked, same]

theorem InMemoryLock.Inv.acquire (inv : il.Inv) (h : t < il.calls.length) {km : Nat}
    (free : (il.mutexes km).locked = false)
    (waits : ∀ x, c'.waits x = il.calls[t].waits x)
    (owns : ∀ x, c'.owns x = il.calls[t].owns x + indicator (some km) x)
    (key : c'.key = il.calls[t].key) (within : c'.Within il.next) (shaped : c'.Shaped) :
    ((il.setLocked km true).setCall t c').Inv :=
  inv.frame h (fun x => by rw [waits, InMemoryLock.waiters_setLocked]) (fun x => by
      rw [held_setLocked, owns, indicator]
      by_cases same : x = km
      · subst same
        simp [KeyMutex.held, free]
        omega
      · simp [same, Ne.symm same])
    (fun x pos => key ▸ inv.entries _ (List.getElem_mem h) x (waits x ▸ pos))
    (fun key x found => by simpa using inv.present key x found) within shaped

theorem InMemoryLock.Inv.release (inv : il.Inv) (h : t < il.calls.length) {km : Nat}
    (waits : ∀ x, c'.waits x = il.calls[t].waits x)
    (owns : ∀ x, il.calls[t].owns x = c'.owns x + indicator (some km) x)
    (key : c'.key = il.calls[t].key) (within : c'.Within il.next) (shaped : c'.Shaped) :
    ((il.unlockMutex km).setCall t c').Inv := by
  have locked := inv.locked_of_owns (List.getElem_mem h)
    (show 0 < il.calls[t].owns km by rw [owns]; simp [indicator])
  rw [InMemoryLock.unlockMutex, if_pos locked]
  exact inv.frame h (fun x => by rw [waits, InMemoryLock.waiters_setLocked]) (fun x => by
      rw [held_setLocked, owns, indicator]
      by_cases same : x = km
      · subst same
        simp [KeyMutex.held, locked]
        omega
      · simp [same, Ne.symm same])
    (fun x pos => key ▸ inv.entries _ (List.getElem_mem h) x (waits x ▸ pos))
    (fun key x found => by simpa using inv.present key x found) within shaped

theorem InMemoryLock.Inv.addWaiter (inv : il.Inv) (h : t < il.calls.length) {km : Nat}
    (found : il.locks il.calls[t].key = some km)
    (waits : ∀ x, c'.waits x = il.calls[t].waits x + indicator (some km) x) (owns : ∀ x, c'.owns x = il.calls[t].owns x)
    (key : c'.key = il.calls[t].key) (within : c'.Within il.next) (shaped : c'.Shaped) :
    ((il.addWaiters km 1).setCall t c').Inv := by
  refine inv.frame h (fun x => ?_) (fun x => ?_) (fun x pos => ?_) (fun key x found' => ?_) within shaped
  · rw [InMemoryLock.waiters_addWaiters, waits, indicator_some]
    split <;> push_cast <;> omega
  · simp only [KeyMutex.held, InMemoryLock.locked_addWaiters, owns]
  · rw [key]
    rw [waits, indicator_some] at pos
    by_cases same : x = km
    · rw [same, found]
    · simp only [same, if_false, add_zero] at pos
      exact inv.entries _ (List.getElem_mem h) x pos
  · rw [InMemoryLock.waiters_addWaiters]
    have := inv.present key x found'
    split <;> omega

theorem InMemoryLock.Inv.create (inv : il.Inv) (h : t < il.calls.length)
    (missing : il.locks il.calls[t].key = none)
    (waits : ∀ x, c'.waits x = il.calls[t].waits x + indicator (some il.next) x)
    (owns : ∀ x, c'.owns x = il.calls[t].owns x) (key : c'.key = il.calls[t].key)
    (within : c'.Within (il.next + 1)) (shaped : c'.Shaped) :
    (((il.allocate il.calls[t].key).addWaiters il.next 1).setCall t c').Inv := by
  obtain ⟨unwaited, unowned⟩ := inv.unused (le_refl il.next)
  have idle : (il.mutexes il.next).waiters = 0 ∧ (il.mutexes il.next).locked = false := by
    have := inv.waiters il.next
    have held := inv.owners il.next
    rw [unowned, KeyMutex.held] at held
    split at held
    · omega
    · rename_i unlocked
      exact ⟨by omega, by simpa using unlocked⟩
  have mutex : ∀ x, ((il.allocate il.calls[t].key).addWaiters il.next 1).mutexes x =
      if x = il.next then ⟨1, false⟩ else il.mutexes x := by
    intro x
    by_cases same : x = il.next
    · subst same
      simp [InMemoryLock.addWaiters, InMemoryLock.allocate]
    · simp [InMemoryLock.addWaiters, InMemoryLock.allocate, same]
  have locks : ∀ key, ((il.allocate il.calls[t].key).addWaiters il.next 1).locks key =
      if key = il.calls[t].key then some il.next else il.locks key := fun key => by
    simp [InMemoryLock.addWaiters, InMemoryLock.allocate, Function.update_apply]
  have old : ∀ key x, il.locks key = some x → key ≠ il.calls[t].key ∧ x < il.next := fun key x found =>
    ⟨fun same => (by rw [same, missing] at found; cases found), inv.allocated key x found⟩
  refine inv.update h (Nat.le_succ _) (fun x => ?_) (fun x => ?_) (fun x member y pos => ?_) (fun key' x found => ?_)
    (fun key₁ key₂ x found₁ found₂ => ?_) (fun key' x found => ?_) within shaped
  · rw [mutex, waits, indicator_some]
    split
    · subst_vars
      simp only [idle.1]
      push_cast
      omega
    · simp
  · rw [mutex, owns]
    split
    · subst_vars
      simp [KeyMutex.held, idle.2]
    · rfl
  · rw [locks]
    rcases List.mem_or_eq_of_mem_set member with member | rfl
    · have found := inv.entries x member y pos
      rw [if_neg (old _ _ found).1, found]
    · rw [waits, indicator_some] at pos
      split at pos
      · subst_vars
        rw [if_pos key]
      · simp only [add_zero] at pos
        have := inv.entries _ (List.getElem_mem h) y pos
        rw [missing] at this
        cases this
  · rw [mutex]
    rw [locks] at found
    split at found
    · cases found
      simp
    · rw [if_neg (old _ _ found).2.ne]
      exact inv.present key' x found
  · rw [locks] at found₁ found₂
    split at found₁ <;> split at found₂
    · subst_vars
      rfl
    · cases found₁
      exact absurd (old _ _ found₂).2 (lt_irrefl _)
    · cases found₂
      exact absurd (old _ _ found₁).2 (lt_irrefl _)
    · exact inv.distinct key₁ key₂ x found₁ found₂
  · rw [locks] at found
    split at found
    · cases found
      exact Nat.lt_succ_self _
    · exact Nat.lt_succ_of_lt (old _ _ found).2

theorem InMemoryLock.Inv.dropWaiter (inv : il.Inv) (h : t < il.calls.length) {km : Nat}
    (waits : ∀ x, il.calls[t].waits x = c'.waits x + indicator (some km) x) (owns : ∀ x, c'.owns x = il.calls[t].owns x)
    (key : c'.key = il.calls[t].key) (within : c'.Within il.next) (shaped : c'.Shaped) :
    ((il.dropWaiter il.calls[t].key km).setCall t c').Inv := by
  have mine : ∀ y, 0 < c'.waits y → il.locks c'.key = some y := fun y pos =>
    key ▸ inv.entries _ (List.getElem_mem h) y (by rw [waits]; omega)
  have found : il.locks il.calls[t].key = some km :=
    inv.entries _ (List.getElem_mem h) km (by rw [waits, indicator_some]; simp)
  have delta : ∀ x, ((il.addWaiters km (-1)).mutexes x).waiters + il.calls[t].waits x =
      (il.mutexes x).waiters + c'.waits x := by
    intro x
    rw [InMemoryLock.waiters_addWaiters, waits, indicator_some]
    split <;> push_cast <;> omega
  have held : ∀ x, ((il.addWaiters km (-1)).mutexes x).held + il.calls[t].owns x = (il.mutexes x).held + c'.owns x := by
    simp [KeyMutex.held, owns]
  have counted := inv.waiters_set h delta
  have other : ∀ key x, il.locks key = some x → x ≠ km → ((il.addWaiters km (-1)).mutexes x).waiters =
      (il.mutexes x).waiters := fun key x _ differ => by
    rw [InMemoryLock.waiters_addWaiters, if_neg differ, add_zero]
  simp only [InMemoryLock.dropWaiter]
  split
  · rename_i zero
    have unused : ∀ x ∈ il.calls.set t c', x.waits km = 0 := by
      have total : ((il.calls.set t c').map (·.waits km)).sum = 0 := by
        have := counted km
        rw [zero] at this
        omega
      exact fun x member => List.sum_eq_zero_iff.mp total _ (List.mem_map_of_mem (·.waits km) member)
    have removed : ∀ key' y, Function.update il.locks il.calls[t].key none key' = some y →
        key' ≠ il.calls[t].key ∧ il.locks key' = some y := fun key' y found' => by
      by_cases same : key' = il.calls[t].key
      · rw [same, Function.update_same] at found'
        cases found'
      · rw [Function.update_noteq same] at found'
        exact ⟨same, found'⟩
    refine inv.update h le_rfl delta held (fun x member y pos => ?_) (fun key' y found' => ?_)
      (fun key₁ key₂ y found₁ found₂ => inv.distinct key₁ key₂ y (removed _ _ found₁).2 (removed _ _ found₂).2)
      (fun key' y found' => inv.allocated key' y (removed _ _ found').2) within shaped
    · have old : il.locks x.key = some y := by
        rcases List.mem_or_eq_of_mem_set member with listed | rfl
        · exact inv.entries x listed y pos
        · exact mine y pos
      by_cases same : x.key = il.calls[t].key
      · rw [same, found] at old
        cases old
        exact absurd (unused x member) (by omega)
      · simpa [Function.update_noteq same] using old
    · obtain ⟨same, found'⟩ := removed _ _ found'
      have differ : y ≠ km := fun equal => same (inv.distinct _ _ y found' (equal ▸ found))
      rw [other _ _ found' differ]
      exact inv.present key' y found'
  · rename_i nonzero
    refine inv.frame h delta held (fun y pos => mine y pos) (fun key' y found' => ?_) within shaped
    by_cases same : y = km
    · subst same
      have := counted y
      omega
    · rw [other _ _ found' same]
      exact inv.present key' y found'

theorem InMemoryLock.Inv.call (inv : il.Inv) (key : String) (method : Method) :
    ({ il with calls := il.calls ++ [⟨key, method, .start, .idle, .idle⟩] } : InMemoryLock).Inv := by
  have fresh : ∀ x ∈ il.calls ++ [⟨key, method, .start, .idle, .idle⟩],
      x ∈ il.calls ∨ x = ⟨key, method, .start, .idle, .idle⟩ :=
    fun x member => by simpa using member
  refine ⟨inv.safe, fun km => ?_, fun km => ?_, fun x member km pos => ?_, inv.present, inv.distinct,
    inv.allocated, fun x member => ?_, fun x member => ?_⟩
  · simpa [Call.waits, CallPc.contributes, indicator] using inv.waiters km
  · simpa [Call.owns, CallPc.holder, HelperPc.holder, DrainPc.holder, indicator] using inv.owners km
  · rcases fresh x member with listed | rfl
    · exact inv.entries x listed km pos
    · simp [Call.waits, CallPc.contributes, indicator] at pos
  · rcases fresh x member with listed | rfl
    · exact inv.within x listed
    · rintro km (found | found | found) <;> cases found
  · rcases fresh x member with listed | rfl
    · exact inv.shaped x listed
    · cases method <;> exact ⟨rfl, rfl⟩

theorem InMemoryLock.Inv.mainStep {il' : InMemoryLock} (inv : il.Inv) (h : t < il.calls.length)
    (stepped : il.mainStep t il.calls[t] = some il') : il'.Inv := by
  have member := List.getElem_mem h
  have within := inv.within _ member
  have shape := inv.shaped _ member
  unfold InMemoryLock.mainStep at stepped
  split at stepped
  · -- `getOrCreate`, or `IsLocked`'s lookup
    rename_i pc
    obtain ⟨helper, drain⟩ := shape.start pc
    have fresh : ∀ {c' : Call} {km next : Nat}, (∀ k, c'.Mentions k → km = k) → il.next ≤ next → km < next →
        c'.Within next :=
      fun only le bound => (within.mono le).step bound fun k mentioned => .inr (only k mentioned)
    split at stepped
    · rename_i method
      simp only [InMemoryLock.getOrCreate] at stepped
      split at stepped <;> cases stepped
      · rename_i km found
        exact inv.addWaiter h found (by simp [Call.waits, CallPc.contributes, pc])
          (by simp [Call.owns, CallPc.holder, HelperPc.holder, pc, helper]) rfl
          (fresh (by simp [Call.Mentions, CallPc.mutex?, HelperPc.mutex?, DrainPc.mutex?, drain])
            le_rfl (inv.allocated _ _ found))
          (by simp [Call.Shaped, method, HelperPc.pending, drain])
      · rename_i missing
        exact inv.create h missing (by simp [Call.waits, CallPc.contributes, pc])
          (by simp [Call.owns, CallPc.holder, HelperPc.holder, pc, helper]) rfl
          (fresh (by simp [Call.Mentions, CallPc.mutex?, HelperPc.mutex?, DrainPc.mutex?, drain])
            (Nat.le_succ _) (Nat.lt_succ_self _))
          (by simp [Call.Shaped, method, HelperPc.pending, drain])
    · rename_i method
      simp only [InMemoryLock.getOrCreate] at stepped
      split at stepped <;> cases stepped
      · rename_i km found
        exact inv.addWaiter h found (by simp [Call.waits, CallPc.contributes, pc])
          (by simp [Call.owns, CallPc.holder, pc]) rfl
          (fresh (by simp [Call.Mentions, CallPc.mutex?, HelperPc.mutex?, DrainPc.mutex?, helper, drain])
            le_rfl (inv.allocated _ _ found))
          (by simp [Call.Shaped, method, helper, drain])
      · rename_i missing
        exact inv.create h missing (by simp [Call.waits, CallPc.contributes, pc])
          (by simp [Call.owns, CallPc.holder, pc]) rfl
          (fresh (by simp [Call.Mentions, CallPc.mutex?, HelperPc.mutex?, DrainPc.mutex?, helper, drain])
            (Nat.le_succ _) (Nat.lt_succ_self _))
          (by simp [Call.Shaped, method, helper, drain])
    · rename_i method
      split at stepped <;> cases stepped
      · exact inv.setCall h (by simp [Call.waits, CallPc.contributes, pc]) (by simp [Call.owns, CallPc.holder, pc])
          rfl (within.move (by simp [CallPc.mutex?])) (by simp [Call.Shaped, method, helper, drain])
      · rename_i km found
        exact inv.setCall h (by simp [Call.waits, CallPc.contributes, pc]) (by simp [Call.owns, CallPc.holder, pc])
          rfl (fresh (by simp [Call.Mentions, CallPc.mutex?, HelperPc.mutex?, DrainPc.mutex?, helper, drain])
            le_rfl (inv.allocated _ _ found))
          (by simp [Call.Shaped, method, helper, drain])
  · -- the `select` receives from `acquired`
    rename_i km pc
    split at stepped <;> cases stepped
    rename_i k helper
    obtain ⟨method, pending, drain⟩ := shape.pending (.inl pc)
    obtain rfl := HelperPc.pending_sent pending helper
    exact inv.setCall h (by simp [Call.waits, CallPc.contributes, pc])
      (by simp [Call.owns, CallPc.holder, HelperPc.holder, pc, helper]) rfl
      (within.sub (by simp [Call.Mentions, CallPc.mutex?, HelperPc.mutex?, DrainPc.mutex?, pc, drain]))
      (by simp [Call.Shaped, method, drain])
  · -- the locked decrement after `ctx.Done()`
    rename_i km pc
    cases stepped
    obtain ⟨method, pending, drain⟩ := shape.pending (.inr (.inl pc))
    exact inv.dropWaiter h (by simp [Call.waits, CallPc.contributes, pc]) (by simp [Call.owns, CallPc.holder, pc])
      rfl (within.move (by simp [CallPc.mutex?, pc])) (by simp [Call.Shaped, method, pending, drain])
  · -- draining `acquired`, or leaving a goroutine to do it
    rename_i km pc
    obtain ⟨method, pending, drain⟩ := shape.pending (.inr (.inr pc))
    split at stepped <;> cases stepped
    · rename_i k helper
      obtain rfl := HelperPc.pending_sent pending helper
      exact inv.setCall h (by simp [Call.waits, CallPc.contributes, pc])
        (by simp [Call.owns, CallPc.holder, HelperPc.holder, pc, helper]) rfl
        (within.sub (by simp [Call.Mentions, CallPc.mutex?, HelperPc.mutex?, DrainPc.mutex?, pc, drain]))
        (by simp [Call.Shaped, method, drain])
    · exact inv.setCall h (by simp [Call.waits, CallPc.contributes, pc])
        (by simp [Call.owns, CallPc.holder, DrainPc.holder, pc, drain]) rfl
        (within.sub (by simp [Call.Mentions, CallPc.mutex?, DrainPc.mutex?, pc, drain, or_comm]))
        (by simp [Call.Shaped, method, pending])
  · -- `km.mu.Unlock()` after draining `acquired`
    rename_i km pc
    cases stepped
    obtain ⟨method, helper, drain⟩ := shape.drained pc
    exact inv.release h (by simp [Call.waits, CallPc.contributes, pc])
      (by simp [Call.owns, CallPc.holder, HelperPc.holder, DrainPc.holder, pc, helper, drain]) rfl
      (within.move (by simp [CallPc.mutex?])) (by simp [Call.Shaped, method, helper, drain, DrainPc.settled])
  · -- `km.mu.TryLock()` in `TryLock`
    rename_i km pc
    obtain ⟨method, helper, drain⟩ := shape.trying (.inl pc)
    split at stepped <;> cases stepped
    · exact inv.setCall h (by simp [Call.waits, CallPc.contributes, pc]) (by simp [Call.owns, CallPc.holder, pc])
        rfl (within.move (by simp [CallPc.mutex?, pc])) (by simp [Call.Shaped, method, helper, drain])
    · rename_i free
      exact inv.acquire h (by simpa using free) (by simp [Call.waits, CallPc.contributes, pc])
        (by simp [Call.owns, CallPc.holder, HelperPc.holder, DrainPc.holder, pc, helper, drain]) rfl
        (within.move (by simp [CallPc.mutex?, pc])) (by simp [Call.Shaped, method, helper, drain])
  · -- the locked decrement after a failed `TryLock`
    rename_i km pc
    cases stepped
    obtain ⟨method, helper, drain⟩ := shape.trying (.inr pc)
    exact inv.dropWaiter h (by simp [Call.waits, CallPc.contributes, pc]) (by simp [Call.owns, CallPc.holder, pc])
      rfl (within.move (by simp [CallPc.mutex?])) (by simp [Call.Shaped, method, helper, drain])
  · cases stepped
  · -- `Unlock`'s locked section
    rename_i k pc
    have mine := inv.entries _ member k (by simp [Call.waits, CallPc.contributes, pc])
    obtain ⟨holder, drain⟩ := shape.held (.inr (.inl pc))
    split at stepped <;> rename_i found <;> rw [found] at mine <;> cases mine
    cases stepped
    have shaped : ({ il.calls[t] with pc := .releasing k } : Call).Shaped := by
      rcases holder with ⟨method, helper⟩ | ⟨method, helper⟩ <;> simp [Call.Shaped, method, helper, drain]
    exact inv.dropWaiter h (by simp [Call.waits, CallPc.contributes, pc]) (by simp [Call.owns, CallPc.holder, pc])
      rfl (within.move (by simp [CallPc.mutex?, pc])) shaped
  · -- `km.mu.Unlock()` in `Unlock`
    rename_i km pc
    cases stepped
    obtain ⟨holder, drain⟩ := shape.held (.inr (.inr pc))
    have shaped : ({ il.calls[t] with pc := .returned .unlocked } : Call).Shaped := by
      rcases holder with ⟨method, helper⟩ | ⟨method, helper⟩ <;>
        simp [Call.Shaped, method, helper, drain, DrainPc.settled]
    exact inv.release h (by simp [Call.waits, CallPc.contributes, pc])
      (fun x => by simp [Call.owns, CallPc.holder, pc]; omega) rfl
      (within.move (by simp [CallPc.mutex?])) shaped
  · -- `km.mu.TryLock()` in `IsLocked`
    rename_i km pc
    obtain ⟨method, helper, drain⟩ := shape.probing (.inl pc)
    split at stepped <;> cases stepped
    · exact inv.setCall h (by simp [Call.waits, CallPc.contributes, pc]) (by simp [Call.owns, CallPc.holder, pc])
        rfl (within.move (by simp [CallPc.mutex?])) (by simp [Call.Shaped, method, helper, drain])
    · rename_i free
      exact inv.acquire h (by simpa using free) (by simp [Call.waits, CallPc.contributes, pc])
        (by simp [Call.owns, CallPc.holder, HelperPc.holder, DrainPc.holder, pc, helper, drain]) rfl
        (within.move (by simp [CallPc.mutex?, pc])) (by simp [Call.Shaped, method, helper, drain])
  · -- `km.mu.Unlock()` in `IsLocked`
    rename_i km pc
    cases stepped
    obtain ⟨method, helper, drain⟩ := shape.probing (.inr pc)
    exact inv.release h (by simp [Call.waits, CallPc.contributes, pc])
      (by simp [Call.owns, CallPc.holder, HelperPc.holder, DrainPc.holder, pc, helper, drain]) rfl
      (within.move (by simp [CallPc.mutex?])) (by simp [Call.Shaped, method, helper, drain])
  · cases stepped

theorem InMemoryLock.Inv.threadStep {il' : InMemoryLock} (inv : il.Inv) (h : t < il.calls.length)
    {a : LockAction} (stepped : il.threadStep t il.calls[t] a = some il') : il'.Inv := by
  have within := inv.within _ (List.getElem_mem h)
  have shape := inv.shaped _ (List.getElem_mem h)
  cases a with
  | call => cases stepped
  | main => exact inv.mainStep h stepped
  | cancel =>
    simp only [InMemoryLock.threadStep] at stepped
    split at stepped <;> cases stepped
    rename_i km pc
    obtain ⟨method, pending, drain⟩ := shape.pending (.inl pc)
    exact inv.setCall h (by simp [Call.waits, CallPc.contributes, pc]) (by simp [Call.owns, CallPc.holder, pc]) rfl
      (within.move (by simp [CallPc.mutex?, pc])) (by simp [Call.Shaped, method, pending, drain])
  | unlock =>
    simp only [InMemoryLock.threadStep] at stepped
    split at stepped <;> cases stepped
    rename_i km pc
    obtain ⟨holder, drain⟩ := shape.held (.inl pc)
    have shaped : ({ il.calls[t] with pc := .unlocking km } : Call).Shaped := by
      rcases holder with ⟨method, helper⟩ | ⟨method, helper⟩ <;> simp [Call.Shaped, method, helper, drain]
    exact inv.setCall h (by simp [Call.waits, CallPc.contributes, pc]) (by simp [Call.owns, CallPc.holder, pc]) rfl
      (within.move (by simp [CallPc.mutex?, pc])) shaped
  | helper =>
    simp only [InMemoryLock.threadStep] at stepped
    split at stepped
    · -- `km.mu.Lock()` returns
      rename_i km waiting
      split at stepped <;> cases stepped
      rename_i free
      exact inv.acquire h (by simpa using free) (fun _ => rfl)
        (fun x => by simp [Call.owns, HelperPc.holder, waiting]; omega) rfl
        (within.sub (by simp [Call.Mentions, HelperPc.mutex?, waiting]))
        (shape.setHelper (.inl waiting) (.inr (.inl rfl)))
    · -- the send on `acquired`
      rename_i km locked
      cases stepped
      exact inv.setCall h (fun _ => rfl) (by simp [Call.owns, HelperPc.holder, locked]) rfl
        (within.sub (by simp [Call.Mentions, HelperPc.mutex?, locked]))
        (shape.setHelper (.inr (.inl locked)) (.inr (.inr rfl)))
    · cases stepped
  | drain =>
    simp only [InMemoryLock.threadStep] at stepped
    obtain ⟨method, outcome, pc⟩ := shape.returned_of_drain (by split at stepped <;> simp_all)
    split at stepped
    · -- `<-acquired`
      rename_i km k waiting sent
      cases stepped
      have same : k = km := by
        rcases shape.returned pc with ⟨_, ⟨taken, _⟩ | ⟨k', drain, pending⟩⟩ | ⟨other, _⟩
        · simp [sent] at taken
        · rw [waiting] at drain
          cases drain
          exact HelperPc.pending_sent pending sent
        · exact absurd method other
      subst same
      exact inv.setCall h (fun _ => rfl) (by simp [Call.owns, HelperPc.holder, DrainPc.holder, waiting, sent]) rfl
        (within.sub (by simp [Call.Mentions, HelperPc.mutex?, DrainPc.mutex?, waiting, sent]))
        (by simp [Call.Shaped, method, pc, DrainPc.settled])
    · -- `km.mu.Unlock()` in the draining goroutine
      rename_i km _ received
      cases stepped
      have taken : il.calls[t].helper = .taken := by
        rcases shape.returned pc with ⟨_, ⟨taken, _⟩ | ⟨k', drain, _⟩⟩ | ⟨other, _⟩
        · exact taken
        · rw [received] at drain
          cases drain
        · exact absurd method other
      exact inv.release h (fun _ => rfl)
        (by simp [Call.owns, CallPc.holder, HelperPc.holder, DrainPc.holder, pc, taken, received]) rfl
        (within.sub (by simp [Call.Mentions, CallPc.mutex?, HelperPc.mutex?, DrainPc.mutex?, pc, taken, received]))
        (by simp [Call.Shaped, method, pc, taken, DrainPc.settled])
    · cases stepped

theorem InMemoryLock.Inv.step {il' : InMemoryLock} (inv : il.Inv) {a : LockAction}
    (stepped : il.step a = some il') : il'.Inv := by
  unfold InMemoryLock.step at stepped
  rw [if_neg (by simp [inv.safe])] at stepped
  have thread : ∀ t, (il.calls[t]?.bind fun c => il.threadStep t c a) = some il' → il'.Inv := fun t stepped => by
    obtain ⟨c, found, stepped⟩ := Option.bind_eq_some.mp stepped
    obtain ⟨h, rfl⟩ := List.getElem?_eq_some_iff.mp found
    exact inv.threadStep h stepped
  cases a with
  | call key method =>
    cases stepped
    exact inv.call key method
  | main t | cancel t | unlock t | helper t | drain t => exact thread t stepped

theorem InMemoryLock.Reachable.inv {il : InMemoryLock} (reach : il.Reachable) : il.Inv := by
  induction reach with
  | init => exact newInMemoryLock_inv
  | step _ stepped inv => exact inv.step stepped

end Inv

end SessionEngine.Lock

