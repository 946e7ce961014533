import Mathlib.Logic.Relation
import SessionEngine.Session.Manager
import SessionEngine.AssocList

namespace SessionEngine

/-- A `*Session` in the heap: the fields the lifecycle reads or writes. `lastActivity` is the
    clock reading `NewSession` or the latest `UpdateLastActivity` stored. -/
structure SessionObject where
  id : Nat
  proxy : String
  state : String
  lastActivity : Nat
  deriving DecidableEq, Repr

/-- The session value of the manager model that a heap session stands for. -/
def SessionObject.toSession (o : SessionObject) : Session :=
  ⟨o.id, o.proxy, o.state⟩

/-- The body of `StartAll`'s loop: `if s.State == "idle" { s.State = "active" }`. -/
def SessionObject.start (o : SessionObject) : SessionObject :=
  if o.state = "idle" then { o with state := "active" } else o

/-- `s.Close()`; closing the idle connections does not touch the fields modelled. -/
def SessionObject.close (o : SessionObject) : SessionObject :=
  { o with state := "closed" }

/-- `s.UpdateLastActivity()` at the clock reading `now`. -/
def SessionObject.touch (o : SessionObject) (now : Nat) : SessionObject :=
  { o with lastActivity := now }

/-- Every session built so far, at the address it was built at (pointers a caller of
    `GetSession` may keep), and the manager's `sessions` map from id to address. -/
structure Lifecycle where
  heap : List SessionObject
  sessions : List (Nat × Nat)
  deriving DecidableEq, Repr

/-- `NewSessionManager`. -/
def Lifecycle.empty : Lifecycle :=
  ⟨[], []⟩

/-- `sm.sessions[id] = s`, on addresses: replace the entry for `id`, or add one. -/
def putAddress : List (Nat × Nat) → Nat → Nat → List (Nat × Nat)
  | [], id, a => [(id, a)]
  | (key, old) :: rest, id, a => if key = id then (id, a) :: rest else (key, old) :: putAddress rest id a

/-- One iteration of the collecting loop of `CreateSessions`: a success is the session its
    goroutine built at clock reading `now`, placed at the next address and registered. -/
def Lifecycle.collect (now : Nat) (lc : Lifecycle) (report : Report) : Lifecycle :=
  match report.2 with
  | .error _ => lc
  | .ok proxy => ⟨lc.heap ++ [⟨report.1, proxy, "idle", now⟩], putAddress lc.sessions report.1 lc.heap.length⟩

def Lifecycle.createSessions (lc : Lifecycle) (reports : List Report) (now : Nat) : Lifecycle :=
  reports.foldl (Lifecycle.collect now) lc

/-- Apply `f` to the session at each address of the map, in the order `range` takes. -/
def Lifecycle.forEach (lc : Lifecycle) (f : SessionObject → SessionObject) : List SessionObject :=
  lc.sessions.foldl (fun heap entry => heap.modify f entry.2) lc.heap

def Lifecycle.startAll (lc : Lifecycle) : Lifecycle :=
  { lc with heap := lc.forEach SessionObject.start }

/-- `StopAll`: `s.Close()` and `delete(sm.sessions, id)` for every entry. -/
def Lifecycle.stopAll (lc : Lifecycle) : Lifecycle :=
  ⟨lc.forEach SessionObject.close, []⟩

/-- A method call through a pointer to the session at `address`. -/
def Lifecycle.update (lc : Lifecycle) (address : Nat) (f : SessionObject → SessionObject) : Option Lifecycle :=
  if address < lc.heap.length then some { lc with heap := lc.heap.modify f address } else none

inductive LifecycleAction where
  | createSessions (reports : List Report) (now : Nat)
  | startAll
  | getSession (id : Nat)
  | executeRequest (address : Nat) (ok : Bool) (now : Nat)
  | updateLastActivity (address : Nat) (now : Nat)
  | close (address : Nat)
  | stopAll

/-- One operation. `ExecuteRequest` calls `UpdateLastActivity` after a round trip that
    succeeded and returns before it on every error. -/
def Lifecycle.step (lc : Lifecycle) : LifecycleAction → Option Lifecycle
  | .createSessions reports now => some (lc.createSessions reports now)
  | .startAll => some lc.startAll
  | .getSession _ => some lc
  | .executeRequest address ok now => lc.update address fun o => if ok then o.touch now else o
  | .updateLastActivity address now => lc.update address (·.touch now)
  | .close address => lc.update address SessionObject.close
  | .stopAll => some lc.stopAll

def Lifecycle.Next (lc lc' : Lifecycle) : Prop :=
  ∃ a, lc.step a = some lc'

def Lifecycle.run (lc : Lifecycle) : List LifecycleAction → Option Lifecycle
  | [] => some lc
  | a :: rest => (lc.step a).bind fun lc' => lc'.run rest

theorem Lifecycle.run_reaches {lc lc' : Lifecycle} (actions : List LifecycleAction) (ran : lc.run actions = some lc') :
    Relation.ReflTransGen Lifecycle.Next lc lc' := by
  induction actions generalizing lc with
  | nil =>
    cases ran
    exact .refl
  | cons a rest ih =>
    simp only [Lifecycle.run, Option.bind_eq_some] at ran
    obtain ⟨next, stepped, ran⟩ := ran
    exact .head ⟨a, stepped⟩ (ih ran)

/-! How a session's state may move. -/

/-- A session's state stays, goes from idle to active, or becomes closed. -/
abbrev StateMove (s s' : String) : Prop :=
  s' = s ∨ (s = "idle" ∧ s' = "active") ∨ s' = "closed"

theorem StateMove.refl (s : String) : StateMove s s := .inl rfl

theorem StateMove.trans {s s' s'' : String} (first : StateMove s s') (second : StateMove s' s'') :
    StateMove s s'' := by
  rcases second with rfl | ⟨rfl, rfl⟩ | rfl
  · exact first
  · rcases first with same | ⟨-, wrong⟩ | wrong
    · exact .inr (.inl ⟨same.symm, rfl⟩)
    · exact absurd wrong (by decide)
    · exact absurd wrong (by decide)
  · exact .inr (.inr rfl)

theorem StateMove.closed {s : String} (move : StateMove "closed" s) : s = "closed" := by
  rcases move with rfl | ⟨wrong, -⟩ | rfl
  · rfl
  · exact absurd wrong (by decide)
  · rfl

/-- Every session of the first heap is still there, its state moved as `StateMove` allows. -/
def HeapMoves (heap heap' : List SessionObject) : Prop :=
  ∀ (i : Nat) (o : SessionObject), heap[i]? = some o → ∃ o', heap'[i]? = some o' ∧ StateMove o.state o'.state

theorem HeapMoves.refl (heap : List SessionObject) : HeapMoves heap heap :=
  fun _ o found => ⟨o, found, .refl _⟩

theorem HeapMoves.trans {heap heap' heap'' : List SessionObject} (first : HeapMoves heap heap')
    (second : HeapMoves heap' heap'') : HeapMoves heap heap'' := fun i o found =>
  let ⟨o', found', move⟩ := first i o found
  let ⟨o'', found'', move'⟩ := second i o' found'
  ⟨o'', found'', move.trans move'⟩

theorem HeapMoves.append (heap fresh : List SessionObject) : HeapMoves heap (heap ++ fresh) :=
  fun _ o found => ⟨o, by rw [List.getElem?_append_left (List.getElem?_eq_some_iff.mp found).1, found], .refl _⟩

theorem HeapMoves.modify {f : SessionObject → SessionObject} (moves : ∀ o, StateMove o.state (f o).state)
    (heap : List SessionObject) (address : Nat) : HeapMoves heap (heap.modify f address) := fun i o found => by
  refine ⟨if address = i then f o else o, by simp [List.getElem?_modify, found], ?_⟩
  split
  · exact moves o
  · exact .refl _

theorem HeapMoves.forEach {f : SessionObject → SessionObject} (moves : ∀ o, StateMove o.state (f o).state) :
    ∀ (heap : List SessionObject) (entries : List (Nat × Nat)),
      HeapMoves heap (entries.foldl (fun heap entry => heap.modify f entry.2) heap)
  | heap, [] => .refl heap
  | heap, entry :: rest => (HeapMoves.modify moves heap entry.2).trans (HeapMoves.forEach moves _ rest)

theorem SessionObject.start_moves (o : SessionObject) : StateMove o.state o.start.state := by
  unfold SessionObject.start
  split
  · exact .inr (.inl ⟨‹_›, rfl⟩)
  · exact .refl _

theorem Lifecycle.heap_createSessions (lc : Lifecycle) (reports : List Report) (now : Nat) :
    ∃ fresh, (lc.createSessions reports now).heap = lc.heap ++ fresh ∧ ∀ o ∈ fresh, o.state = "idle" := by
  induction reports generalizing lc with
  | nil => exact ⟨[], by simp [Lifecycle.createSessions]⟩
  | cons report rest ih =>
    obtain ⟨fresh, heap, idle⟩ := ih (Lifecycle.collect now lc report)
    simp only [Lifecycle.createSessions, List.foldl_cons] at heap ⊢
    rw [heap]
    unfold Lifecycle.collect
    split
    · exact ⟨fresh, rfl, idle⟩
    · rename_i proxy _
      refine ⟨⟨report.1, proxy, "idle", now⟩ :: fresh, by simp, fun o member => ?_⟩
      rcases List.mem_cons.mp member with rfl | later
      · rfl
      · exact idle o later

theorem Lifecycle.step_moves {lc lc' : Lifecycle} {a : LifecycleAction} (stepped : lc.step a = some lc') :
    HeapMoves lc.heap lc'.heap := by
  have updated : ∀ {address f}, (∀ o, StateMove o.state (f o).state) → lc.update address f = some lc' →
      HeapMoves lc.heap lc'.heap := fun moves updated => by
    unfold Lifecycle.update at updated
    split at updated <;> cases updated
    exact HeapMoves.modify moves _ _
  cases a with
  | createSessions reports now =>
    cases stepped
    obtain ⟨fresh, heap, -⟩ := lc.heap_createSessions reports now
    exact heap ▸ HeapMoves.append _ _
  | startAll =>
    cases stepped
    exact HeapMoves.forEach SessionObject.start_moves _ _
  | getSession => cases stepped; exact .refl _
  | executeRequest address ok now =>
    exact updated (f := fun o => if ok then o.touch now else o) (fun o => by split <;> exact .refl _) stepped
  | updateLastActivity address now => exact updated (f := (·.touch now)) (fun _ => .refl _) stepped
  | close address => exact updated (f := SessionObject.close) (fun _ => .inr (.inr rfl)) stepped
  | stopAll =>
    cases stepped
    exact HeapMoves.forEach (fun _ => .inr (.inr rfl)) _ _

theorem Lifecycle.moves_of_run {lc lc' : Lifecycle} (run : Relation.ReflTransGen Lifecycle.Next lc lc') :
    HeapMoves lc.heap lc'.heap := by
  induction run with
  | refl => exact .refl _
  | tail _ next moves =>
    obtain ⟨a, stepped⟩ := next
    exact moves.trans (Lifecycle.step_moves stepped)

theorem session_state_only_advances :
    (∀ {lc lc' : Lifecycle}, Relation.ReflTransGen Lifecycle.Next lc lc' → ∀ {i : Nat} {o : SessionObject},
      lc.heap[i]? = some o →
        ∃ o', lc'.heap[i]? = some o' ∧ StateMove o.state o'.state ∧ (o.state = "closed" → o'.state = "closed")) ∧
    ∀ (lc : Lifecycle) (address now : Nat), address < lc.heap.length →
      lc.step (.executeRequest address false now) = some lc := by
  refine ⟨fun run i o found => ?_, fun lc address now present => ?_⟩
  · obtain ⟨o', found', move⟩ := Lifecycle.moves_of_run run i o found
    exact ⟨o', found', move, fun closed => (closed ▸ move).closed⟩
  · have same : lc.heap.modify (fun o => o) address = lc.heap := List.modify_id _ _
    simp [Lifecycle.step, Lifecycle.update, present, same]

/-! Which operations move a map entry. -/

theorem lookup_putAddress (l : List (Nat × Nat)) (id a k : Nat) :
    (putAddress l id a).lookup k = if k = id then some a else l.lookup k := by
  induction l with
  | nil =>
    by_cases same : k = id
    · subst same
      simp [putAddress]
    · rw [putAddress, List.lookup_cons, beq_eq_false_iff_ne.mpr same, if_neg same]
  | cons e rest ih =>
    obtain ⟨key, old⟩ := e
    by_cases same : k = key
    · subst same
      by_cases replaced : k = id
      · subst replaced
        simp [putAddress]
      · simp [putAddress, Ne.symm replaced, replaced]
    · have other : (k == key) = false := beq_eq_false_iff_ne.mpr same
      by_cases replaced : key = id
      · subst replaced
        rw [putAddress, if_pos rfl, List.lookup_cons, List.lookup_cons, other, if_neg same]
      · rw [putAddress, if_neg replaced, List.lookup_cons, List.lookup_cons, other, ih]

theorem Lifecycle.lookup_createSessions (lc : Lifecycle) (reports : List Report) (now id : Nat) :
    (lc.createSessions reports now).sessions.lookup id = lc.sessions.lookup id ∨
      (∃ proxy, (id, .ok proxy) ∈ reports) ∧ ∃ address o, (lc.createSessions reports now).sessions.lookup id = some address ∧
        lc.heap.length ≤ address ∧ (lc.createSessions reports now).heap[address]? = some o ∧ o.state = "idle" := by
  induction reports generalizing lc with
  | nil => exact .inl rfl
  | cons report rest ih =>
    simp only [Lifecycle.createSessions, List.foldl_cons] at ih ⊢
    obtain ⟨key, result⟩ := report
    rcases result with err | proxy
    · rcases ih (Lifecycle.collect now lc (key, .error err)) with same | ⟨⟨proxy, sent⟩, later⟩
      · exact .inl same
      · exact .inr ⟨⟨proxy, List.mem_cons_of_mem _ sent⟩, later⟩
    · rcases ih (Lifecycle.collect now lc (key, .ok proxy)) with same | ⟨⟨proxy', sent⟩, address, o, found, above, built, idle⟩
      · rw [same]
        simp only [Lifecycle.collect, lookup_putAddress]
        split
        · rename_i this
          subst this
          obtain ⟨fresh, heap, -⟩ := (Lifecycle.collect now lc (id, .ok proxy)).heap_createSessions rest now
          refine .inr ⟨⟨proxy, List.mem_cons_self _ _⟩, lc.heap.length, ⟨id, proxy, "idle", now⟩, ?_, le_rfl, ?_, rfl⟩
          · simp [Lifecycle.collect, lookup_putAddress, same]
          · simp only [Lifecycle.createSessions, Lifecycle.collect] at heap
            rw [heap, List.append_assoc, List.getElem?_append_right (le_refl _)]
            simp
        · exact .inl rfl
      · refine .inr ⟨⟨proxy', List.mem_cons_of_mem _ sent⟩, address, o, found, ?_, built, idle⟩
        simp only [Lifecycle.collect, List.length_append] at above
        omega

theorem Lifecycle.sessions_update {lc lc' : Lifecycle} {address : Nat} {f : SessionObject → SessionObject}
    (updated : lc.update address f = some lc') : lc'.sessions = lc.sessions := by
  unfold Lifecycle.update at updated
  split at updated <;> cases updated
  rfl

theorem closed_forEach_close {address : Nat} :
    ∀ (heap : List SessionObject) (entries : List (Nat × Nat)), address < heap.length →
      (address ∈ entries.map Prod.snd ∨ ∃ o, heap[address]? = some o ∧ o.state = "closed") →
      ∃ o, (entries.foldl (fun heap entry => heap.modify SessionObject.close entry.2) heap)[address]? = some o ∧
        o.state = "closed"
  | heap, [], _, closed => by simpa using closed
  | heap, entry :: rest, present, closed => by
    refine closed_forEach_close (heap.modify SessionObject.close entry.2) rest (by simpa using present) ?_
    by_cases later : address ∈ rest.map Prod.snd
    · exact .inl later
    · refine .inr ?_
      have current : address = entry.2 ∨ ∃ o, heap[address]? = some o ∧ o.state = "closed" := by
        rcases closed with member | old
        · exact .inl ((List.mem_cons.mp member).resolve_right later)
        · exact .inr old
      obtain ⟨o, found⟩ : ∃ o, heap[address]? = some o := ⟨heap[address], List.getElem?_eq_getElem present⟩
      refine ⟨if entry.2 = address then o.close else o, by simp [List.getElem?_modify, found], ?_⟩
      split
      · rfl
      · rcases current with same | ⟨o', found', closed'⟩
        · exact absurd same.symm ‹_›
        · rw [found] at found'
          cases found'
          exact closed'

theorem live_session_leaves_map_only_by_stopAll_or_create {lc lc' : Lifecycle} {a : LifecycleAction}
    (stepped : lc.step a = some lc') {id address : Nat} {o : SessionObject}
    (registered : lc.sessions.lookup id = some address) (found : lc.heap[address]? = some o)
    (moved : lc'.sessions.lookup id ≠ some address) :
    (a = .stopAll ∧ lc'.sessions.lookup id = none ∧ ∃ o', lc'.heap[address]? = some o' ∧ o'.state = "closed") ∨
      ((∃ reports now, a = .createSessions reports now ∧ ∃ proxy, (id, .ok proxy) ∈ reports) ∧
        lc'.heap[address]? = some o ∧
        ∃ address' o', lc'.sessions.lookup id = some address' ∧ lc'.heap[address']? = some o' ∧ o'.state = "idle") := by
  have unchanged : lc'.sessions = lc.sessions → False := fun same => moved (same ▸ registered)
  cases a with
  | createSessions reports now =>
    cases stepped
    rcases lc.lookup_createSessions reports now id with same | ⟨sent, address', o', found', -, built, idle⟩
    · exact absurd (same.trans registered) moved
    · obtain ⟨fresh, heap, -⟩ := lc.heap_createSessions reports now
      refine .inr ⟨⟨reports, now, rfl, sent⟩, ?_, address', o', found', built, idle⟩
      rw [heap, List.getElem?_append_left (List.getElem?_eq_some_iff.mp found).1, found]
  | startAll => cases stepped; exact (unchanged rfl).elim
  | getSession => cases stepped; exact (unchanged rfl).elim
  | executeRequest _ _ _ => exact (unchanged (Lifecycle.sessions_update stepped)).elim
  | updateLastActivity _ _ => exact (unchanged (Lifecycle.sessions_update stepped)).elim
  | close _ => exact (unchanged (Lifecycle.sessions_update stepped)).elim
  | stopAll =>
    cases stepped
    refine .inl ⟨rfl, rfl, closed_forEach_close _ _ (List.getElem?_eq_some_iff.mp found).1 (.inl ?_)⟩
    exact List.mem_map.mpr ⟨_, mem_of_lookup_eq_some registered, rfl⟩

/-- Session 0 is created and started, and a second `CreateSessions(1)` registers a new session
    0: the active one is no longer in the map and was never closed. -/
theorem second_create_replaces_live_session :
    Lifecycle.empty.run [.createSessions [(0, .ok "")] 1, .startAll, .createSessions [(0, .ok "")] 2] =
      some ⟨[⟨0, "", "active", 1⟩, ⟨0, "", "idle", 2⟩], [(0, 1)]⟩ := rfl

theorem live_session_replaced_by_second_create :
    ((.createSessions [(0, .ok "")] 2 : LifecycleAction) = .stopAll ∧ ([(0, 1)] : List (Nat × Nat)).lookup 0 = none ∧
        ∃ o', ([⟨0, "", "active", 1⟩, ⟨0, "", "idle", 2⟩] : List SessionObject)[0]? = some o' ∧ o'.state = "closed") ∨
      ((∃ reports now, (.createSessions [(0, .ok "")] 2 : LifecycleAction) = .createSessions reports now ∧
          ∃ proxy, (0, .ok proxy) ∈ reports) ∧
        ([⟨0, "", "active", 1⟩, ⟨0, "", "idle", 2⟩] : List SessionObject)[0]? = some ⟨0, "", "active", 1⟩ ∧
        ∃ address' o', ([(0, 1)] : List (Nat × Nat)).lookup 0 = some address' ∧
          ([⟨0, "", "active", 1⟩, ⟨0, "", "idle", 2⟩] : List SessionObject)[address']? = some o' ∧
          o'.state = "idle") :=
  @live_session_leaves_map_only_by_stopAll_or_create ⟨[⟨0, "", "active", 1⟩], [(0, 0)]⟩ _ (.createSessions [(0, .ok "")] 2)
    rfl 0 0 _ rfl rfl (by decide)

/-! The heap seen as the manager model of `Session.Manager`. -/

/-- Each id of the map with the session value its address holds. -/
def Lifecycle.view (lc : Lifecycle) : SessionManager :=
  ⟨lc.sessions.filterMap fun entry => lc.heap[entry.2]?.map fun o => (entry.1, o.toSession)⟩

/-- Every address in the map points into the heap. -/
def Lifecycle.Valid (lc : Lifecycle) : Prop :=
  ∀ entry ∈ lc.sessions, entry.2 < lc.heap.length

theorem filterMap_append_heap {heap : List SessionObject} (extra : List SessionObject) :
    ∀ {l : List (Nat × Nat)}, (∀ entry ∈ l, entry.2 < heap.length) →
      l.filterMap (fun entry => (heap ++ extra)[entry.2]?.map fun o => (entry.1, o.toSession)) =
        l.filterMap fun entry => heap[entry.2]?.map fun o => (entry.1, o.toSession)
  | [], _ => rfl
  | entry :: rest, below => by
    rw [List.filterMap_cons, List.filterMap_cons, List.getElem?_append_left (below entry (List.mem_cons_self _ _)),
      filterMap_append_heap extra fun e member => below e (List.mem_cons_of_mem _ member)]

theorem view_putAddress {heap : List SessionObject} (o : SessionObject) (id : Nat) :
    ∀ {l : List (Nat × Nat)}, (∀ entry ∈ l, entry.2 < heap.length) →
      (putAddress l id heap.length).filterMap (fun entry => (heap ++ [o])[entry.2]?.map fun o => (entry.1, o.toSession)) =
        insertSession (l.filterMap fun entry => heap[entry.2]?.map fun o => (entry.1, o.toSession)) id o.toSession
  | [], _ => by simp [putAddress, insertSession]
  | (key, a) :: rest, below => by
    have present : a < heap.length := below _ (List.mem_cons_self _ _)
    have others := fun e member => below e (List.mem_cons_of_mem (key, a) member)
    obtain ⟨old, found⟩ : ∃ old, heap[a]? = some old := ⟨heap[a], List.getElem?_eq_getElem present⟩
    by_cases replaced : key = id
    · subst replaced
      simp [putAddress, insertSession, found, filterMap_append_heap _ others]
    · simp [putAddress, insertSession, replaced, found, List.getElem?_append_left present, view_putAddress o id others]

theorem mem_putAddress {l : List (Nat × Nat)} {id a : Nat} {entry : Nat × Nat} (member : entry ∈ putAddress l id a) :
    entry = (id, a) ∨ entry ∈ l := by
  induction l with
  | nil => simpa [putAddress] using member
  | cons head rest ih =>
    simp only [putAddress] at member
    split at member
    · rcases List.mem_cons.mp member with rfl | later
      · exact .inl rfl
      · exact .inr (List.mem_cons_of_mem _ later)
    · rcases List.mem_cons.mp member with rfl | later
      · exact .inr (List.mem_cons_self _ _)
      · exact (ih later).imp_right (List.mem_cons_of_mem _)

theorem Lifecycle.Valid.collect {lc : Lifecycle} (valid : lc.Valid) (now : Nat) (report : Report) :
    (Lifecycle.collect now lc report).Valid := by
  unfold Lifecycle.collect
  split
  · exact valid
  · intro entry member
    simp only [List.length_append, List.length_singleton]
    rcases mem_putAddress member with rfl | old
    · exact Nat.lt_succ_self _
    · exact Nat.lt_succ_of_lt (valid entry old)

theorem Lifecycle.view_createSessions {lc : Lifecycle} (valid : lc.Valid) (reports : List Report) (now : Nat) :
    (lc.createSessions reports now).view = (lc.view.createSessions reports).1 := by
  suffices folded : ∀ (lc : Lifecycle) (errs : List String), lc.Valid →
      (reports.foldl collectReport (lc.view.sessions, errs)).1 = (reports.foldl (Lifecycle.collect now) lc).view.sessions by
    simp only [SessionManager.createSessions, Lifecycle.createSessions]
    rw [folded lc [] valid]
  induction reports with
  | nil => exact fun _ _ _ => rfl
  | cons report rest ih =>
    intro lc errs valid
    have head : (collectReport (lc.view.sessions, errs) report).1 = (Lifecycle.collect now lc report).view.sessions := by
      obtain ⟨id, result⟩ := report
      rcases result with err | proxy
      · rfl
      · simp only [collectReport, Lifecycle.collect, Lifecycle.view]
        rw [view_putAddress _ id valid]
        rfl
    rw [List.foldl_cons, List.foldl_cons, ← ih _ (collectReport (lc.view.sessions, errs) report).2
      (valid.collect now report), ← head]

end SessionEngine
