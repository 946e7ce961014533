import Mathlib.Logic.Function.Basic
import Mathlib.Data.List.Perm.Basic
import Mathlib.Data.List.Nodup
import SessionEngine.AssocList

namespace SessionEngine.Cluster

/-! `UpdateStatus` and `GetAllStatus`: the master's `sessions` `sync.Map`, which no other RPC
    reads or writes. A `Store` is atomic. `Range` visits each key the map holds when it starts
    once, in an order the scheduler picks, and loads the key's value when it visits it; a key
    stored while it runs it may visit once or not at all (the map before Go 1.24 never does,
    the hash-trie map after it may). So updates that run while it ranges can show in its
    result. -/

/-- The fields of `pb.SessionStatus` that `ReportStatus` sets. -/
structure SessionStatus where
  sessionId : Int
  pcId : String
  state : String
  deriving DecidableEq, Repr

/-- `status.Error(code, msg)`. -/
structure RpcError where
  code : String
  message : String
  deriving DecidableEq, Repr

/-- `s.sessions.Store(st.SessionId, st)`: an id already present keeps its entry with the new
    status; a new id joins the map. -/
def storeStatus : List (Int × SessionStatus) → SessionStatus → List (Int × SessionStatus)
  | [], st => [(st.sessionId, st)]
  | (k, old) :: rest, st => if k = st.sessionId then (k, st) :: rest else (k, old) :: storeStatus rest st

/-- `UpdateStatus(req)` with `req.Status`: the map afterwards and the reply. -/
def updateStatus (statuses : List (Int × SessionStatus)) :
    Option SessionStatus → List (Int × SessionStatus) × Except RpcError Bool
  | none => (statuses, .error ⟨"InvalidArgument", "status must not be nil"⟩)
  | some st => (storeStatus statuses st, .ok true)

/-- A `GetAllStatus` call: the keys of the map when it began that `Range` has not visited, the
    statuses its callback appended, and whether `Range` has returned. `start` and `later` are
    history variables: the map when the call began, and the map after each `Store` until
    `Range` returned. -/
structure Ranging where
  pending : List Int
  sessions : List SessionStatus
  returned : Bool
  start : List (Int × SessionStatus)
  later : List (List (Int × SessionStatus))

/-- `v, ok := e.load()` for key `k`, then the callback. Only `UpdateStatus` stores into the
    map, so the type assertion always holds and a loaded status is appended. -/
def Ranging.visit (r : Ranging) (k : Int) (loaded : Option SessionStatus) : Ranging :=
  { r with pending := r.pending.erase k, sessions := r.sessions ++ loaded.toList }

@[simp] theorem Ranging.visit_pending (r : Ranging) (k : Int) (loaded : Option SessionStatus) :
    (r.visit k loaded).pending = r.pending.erase k := rfl

@[simp] theorem Ranging.visit_sessions (r : Ranging) (k : Int) (loaded : Option SessionStatus) :
    (r.visit k loaded).sessions = r.sessions ++ loaded.toList := rfl

@[simp] theorem Ranging.visit_returned (r : Ranging) (k : Int) (loaded : Option SessionStatus) :
    (r.visit k loaded).returned = r.returned := rfl

@[simp] theorem Ranging.visit_start (r : Ranging) (k : Int) (loaded : Option SessionStatus) :
    (r.visit k loaded).start = r.start := rfl

@[simp] theorem Ranging.visit_later (r : Ranging) (k : Int) (loaded : Option SessionStatus) :
    (r.visit k loaded).later = r.later := rfl

/-- The keys `Range` may visit next: one the map held when it began that it has not visited, or
    one stored since that it has not visited. -/
def Ranging.Visitable (r : Ranging) (statuses : List (Int × SessionStatus)) (k : Int) : Prop :=
  r.returned = false ∧ (k ∈ r.pending ∨
    k ∈ statuses.map Prod.fst ∧ k ∉ r.start.map Prod.fst ∧ k ∉ r.sessions.map SessionStatus.sessionId)

instance (r : Ranging) (statuses : List (Int × SessionStatus)) (k : Int) : Decidable (r.Visitable statuses k) :=
  inferInstanceAs (Decidable (_ ∧ _))

/-- A call still inside `Range` records the map after a `Store`. -/
def Ranging.witness (statuses : List (Int × SessionStatus)) (r : Ranging) : Ranging :=
  if r.returned then r else { r with later := r.later ++ [statuses] }

/-- The map, the `GetAllStatus` calls made so far by number, and the number of calls. -/
structure StatusMap where
  statuses : List (Int × SessionStatus)
  ranges : Nat → Option Ranging
  calls : Nat

def StatusMap.init : StatusMap := ⟨[], fun _ => none, 0⟩

/-- The scheduler's choices: an `UpdateStatus` runs, a `GetAllStatus` starts its `Range`, call
    `i` visits a key, or its `Range` returns, once it has visited every key of its start. -/
inductive StatusAction where
  | updateStatus (status : Option SessionStatus)
  | getAllStatus
  | visit (i : Nat) (sessionId : Int)
  | finish (i : Nat)

def StatusMap.step (m : StatusMap) : StatusAction → Option StatusMap
  | .updateStatus status =>
    match updateStatus m.statuses status with
    | (statuses, .ok _) => some { m with statuses, ranges := fun i => (m.ranges i).map (Ranging.witness statuses) }
    | (_, .error _) => some m
  | .getAllStatus =>
    some { m with ranges := Function.update m.ranges m.calls (some ⟨m.statuses.map Prod.fst, [], false, m.statuses, []⟩),
                  calls := m.calls + 1 }
  | .visit i k =>
    match m.ranges i with
    | some r =>
      if r.Visitable m.statuses k then
        some { m with ranges := Function.update m.ranges i (some (r.visit k (m.statuses.lookup k))) }
      else none
    | none => none
  | .finish i =>
    match m.ranges i with
    | some r =>
      if r.returned = false ∧ r.pending = [] then
        some { m with ranges := Function.update m.ranges i (some { r with returned := true }) }
      else none
    | none => none

def StatusMap.run (m : StatusMap) : List StatusAction → Option StatusMap
  | [] => some m
  | a :: rest => (m.step a).bind fun m' => m'.run rest

inductive StatusMap.Reachable : StatusMap → Prop
  | init : StatusMap.init.Reachable
  | step {m m' : StatusMap} {a : StatusAction} : m.Reachable → m.step a = some m' → m'.Reachable

/-- Each status sits under its own session id, each id once. -/
structure Tracked (statuses : List (Int × SessionStatus)) : Prop where
  own : ∀ e ∈ statuses, e.2.sessionId = e.1
  nodup : (statuses.map Prod.fst).Nodup

/-- What a `GetAllStatus` call has done: the keys it has left and the ids of the statuses it
    appended are distinct and take in every key of the map when it began, and the keys it has
    left are such keys; each status it appended was its session's status at one of the
    moments of the call; and while it ranges, the map now is one of those moments and holds
    every key it has left. -/
structure Ranging.Sound (r : Ranging) (statuses : List (Int × SessionStatus)) : Prop where
  start : Tracked r.start
  distinct : (r.pending ++ r.sessions.map SessionStatus.sessionId).Nodup
  covered : ∀ k ∈ r.start.map Prod.fst, k ∈ r.pending ++ r.sessions.map SessionStatus.sessionId
  begun : ∀ k ∈ r.pending, k ∈ r.start.map Prod.fst
  seen : ∀ st ∈ r.sessions, ∃ moment ∈ r.start :: r.later, moment.lookup st.sessionId = some st
  current : r.returned = false → statuses ∈ r.start :: r.later
  present : ∀ k ∈ r.pending, k ∈ statuses.map Prod.fst
  finished : r.returned = true → r.pending = []

structure StatusMap.Inv (m : StatusMap) : Prop where
  tracked : Tracked m.statuses
  sound : ∀ i r, m.ranges i = some r → r.Sound m.statuses

section Store

variable {st : SessionStatus}

theorem lookup_storeStatus (k : Int) :
    ∀ l : List (Int × SessionStatus), (storeStatus l st).lookup k = if k = st.sessionId then some st else l.lookup k
  | [] => by
    by_cases same : k = st.sessionId
    · simp [storeStatus, same]
    · simp [storeStatus, List.lookup_cons, beq_eq_false_iff_ne.mpr same, same]
  | (k', old) :: rest => by
    unfold storeStatus
    by_cases here : k' = st.sessionId
    · subst here
      by_cases same : k = st.sessionId
      · simp [same]
      · simp [List.lookup_cons, beq_eq_false_iff_ne.mpr same, same]
    · by_cases same : k = k'
      · subst same
        simp [here]
      · simp only [here, if_false, List.lookup_cons, beq_eq_false_iff_ne.mpr same, lookup_storeStatus k rest]

theorem mem_keys_storeStatus {k : Int} :
    ∀ {l : List (Int × SessionStatus)}, k ∈ (storeStatus l st).map Prod.fst ↔ k ∈ l.map Prod.fst ∨ k = st.sessionId
  | [] => by simp [storeStatus]
  | (k', old) :: rest => by
    unfold storeStatus
    split_ifs with here
    · subst here
      simp only [List.map_cons, List.mem_cons]
      tauto
    · simp only [List.map_cons, List.mem_cons, mem_keys_storeStatus]
      tauto

theorem Tracked.store {l : List (Int × SessionStatus)} (tracked : Tracked l) : Tracked (storeStatus l st) := by
  induction l with
  | nil => exact ⟨by simp [storeStatus], by simp [storeStatus]⟩
  | cons e rest ih =>
    obtain ⟨k', old⟩ := e
    have own := tracked.own
    have nodup := tracked.nodup
    simp only [List.mem_cons, forall_eq_or_imp, List.map_cons, List.nodup_cons] at own nodup
    unfold storeStatus
    split_ifs with here
    · exact ⟨by simpa [here] using own.2, by simpa using nodup⟩
    · have rest' := ih ⟨own.2, nodup.2⟩
      refine ⟨by simpa [own.1] using rest'.own, List.nodup_cons.mpr ⟨?_, rest'.nodup⟩⟩
      rw [mem_keys_storeStatus]
      exact fun member => member.elim nodup.1 here

end Store

section Sound

variable {r : Ranging} {statuses : List (Int × SessionStatus)}

theorem Ranging.Sound.begin (tracked : Tracked statuses) :
    (⟨statuses.map Prod.fst, [], false, statuses, []⟩ : Ranging).Sound statuses :=
  ⟨tracked, by simpa using tracked.nodup, by simp, fun _ => id, by simp, fun _ => List.mem_singleton_self _, fun _ => id,
    by simp⟩

theorem Ranging.Sound.witness (sound : r.Sound statuses) (st : SessionStatus) :
    (r.witness (storeStatus statuses st)).Sound (storeStatus statuses st) := by
  have present : ∀ k ∈ r.pending, k ∈ (storeStatus statuses st).map Prod.fst :=
    fun k pending => mem_keys_storeStatus.mpr (.inl (sound.present k pending))
  unfold Ranging.witness
  split_ifs with returned
  · exact ⟨sound.start, sound.distinct, sound.covered, sound.begun, sound.seen, by simp [returned], present,
      sound.finished⟩
  · refine ⟨sound.start, sound.distinct, sound.covered, sound.begun, fun s member => ?_, fun _ => by simp, present,
      fun done => by simp [returned] at done⟩
    obtain ⟨moment, listed, found⟩ := sound.seen s member
    refine ⟨moment, ?_, found⟩
    simp only [List.mem_cons, List.mem_append, List.mem_singleton] at listed ⊢
    tauto

theorem Ranging.Sound.fresh (sound : r.Sound statuses) {k : Int} (visitable : r.Visitable statuses k) :
    k ∉ r.pending.erase k ++ r.sessions.map SessionStatus.sessionId := by
  rcases visitable.2 with pending | ⟨-, new, unseen⟩
  · have apart := List.nodup_append.mp sound.distinct
    simp only [List.mem_append, not_or]
    exact ⟨apart.1.not_mem_erase, fun seen => apart.2.2 pending seen⟩
  · have absent : k ∉ r.pending := fun pending => new (sound.begun k pending)
    rw [List.erase_of_not_mem absent]
    simp only [List.mem_append, not_or]
    exact ⟨absent, unseen⟩

theorem Ranging.Sound.visit (sound : r.Sound statuses) (tracked : Tracked statuses) {k : Int}
    (visitable : r.Visitable statuses k) : (r.visit k (statuses.lookup k)).Sound statuses := by
  have running : statuses ∈ r.start :: r.later := sound.current visitable.1
  have stored : k ∈ statuses.map Prod.fst := by
    rcases visitable.2 with pending | ⟨stored, -⟩
    · exact sound.present k pending
    · exact stored
  obtain ⟨⟨k', st⟩, listed, rfl⟩ := List.mem_map.mp stored
  have found : statuses.lookup k' = some st := lookup_of_mem_nodup tracked.nodup listed
  have own : st.sessionId = k' := tracked.own _ listed
  have keys : (r.visit k' (statuses.lookup k')).pending ++ (r.visit k' (statuses.lookup k')).sessions.map
      SessionStatus.sessionId = r.pending.erase k' ++ r.sessions.map SessionStatus.sessionId ++ [k'] := by
    simp [found, own]
  refine ⟨sound.start, ?_, fun j began => ?_, fun j left => sound.begun j (List.mem_of_mem_erase left), ?_,
    fun _ => running, fun j left => sound.present j (List.mem_of_mem_erase left),
    fun done => by simp [visitable.1] at done⟩
  · rw [keys]
    refine List.nodup_append.mpr ⟨((List.erase_sublist _ _).append_right _).nodup sound.distinct,
      List.nodup_singleton _, fun j member single => sound.fresh visitable ?_⟩
    rwa [List.mem_singleton.mp single] at member
  · rw [keys]
    by_cases same : j = k'
    · simp [same]
    · rcases List.mem_append.mp (sound.covered j began) with left | seen
      · simp [(List.mem_erase_of_ne same).mpr left]
      · simp [seen]
  · simp only [Ranging.visit_sessions, found, Option.toList_some, List.mem_append, List.mem_singleton]
    rintro s (member | rfl)
    · exact sound.seen s member
    · exact ⟨statuses, running, own ▸ found⟩

end Sound

section Steps

variable {m m' : StatusMap}

theorem StatusMap.init_inv : StatusMap.init.Inv :=
  ⟨⟨by simp [StatusMap.init], by simp [StatusMap.init]⟩, fun _ _ none => by cases none⟩

theorem StatusMap.Inv.setRange (inv : m.Inv) {i : Nat} {r : Ranging} (sound : r.Sound m.statuses) (calls : Nat) :
    ({ m with ranges := Function.update m.ranges i (some r), calls } : StatusMap).Inv := by
  refine ⟨inv.tracked, fun j r' found => ?_⟩
  by_cases same : j = i
  · subst same
    simp only [Function.update_same, Option.some.injEq] at found
    exact found ▸ sound
  · exact inv.sound j r' (by simpa [Function.update_noteq same] using found)

theorem StatusMap.Inv.step (inv : m.Inv) {a : StatusAction} (stepped : m.step a = some m') : m'.Inv := by
  cases a with
  | updateStatus status =>
    cases status with
    | none => cases stepped; exact inv
    | some st =>
      cases stepped
      refine ⟨inv.tracked.store, fun i r found => ?_⟩
      obtain ⟨r₀, found₀, rfl⟩ := Option.map_eq_some'.mp found
      exact (inv.sound i r₀ found₀).witness st
  | getAllStatus =>
    cases stepped
    exact inv.setRange (Ranging.Sound.begin inv.tracked) _
  | visit i k =>
    simp only [StatusMap.step] at stepped
    split at stepped
    · rename_i r found
      split_ifs at stepped with visitable
      cases stepped
      exact inv.setRange ((inv.sound i r found).visit inv.tracked visitable) m.calls
    · cases stepped
  | finish i =>
    simp only [StatusMap.step] at stepped
    split at stepped
    · rename_i r found
      split_ifs at stepped with left
      cases stepped
      have sound := inv.sound i r found
      exact inv.setRange (r := { r with returned := true }) ⟨sound.start, sound.distinct, sound.covered, sound.begun,
        sound.seen, by simp, sound.present, fun _ => left.2⟩ m.calls
    · cases stepped

theorem StatusMap.Reachable.inv (reach : m.Reachable) : m.Inv := by
  induction reach with
  | init => exact StatusMap.init_inv
  | step _ stepped inv => exact inv.step stepped

theorem StatusMap.Reachable.run {acts : List StatusAction} (reach : m.Reachable) (ran : m.run acts = some m') :
    m'.Reachable := by
  induction acts generalizing m with
  | nil => cases ran; exact reach
  | cons a rest ih =>
    obtain ⟨m₁, stepped, ran⟩ := Option.bind_eq_some.mp ran
    exact ih (reach.step stepped) ran

theorem StatusMap.run_cons_of_step {a : StatusAction} (stepped : m.step a = some m') (rest : List StatusAction) :
    m.run (a :: rest) = m'.run rest := by
  simp [StatusMap.run, stepped]

theorem StatusMap.run_append (xs ys : List StatusAction) : m.run (xs ++ ys) = (m.run xs).bind fun m' => m'.run ys := by
  induction xs generalizing m with
  | nil => rfl
  | cons a rest ih =>
    simp only [List.cons_append, StatusMap.run, Option.bind_assoc]
    cases m.step a <;> simp [ih]

/-! What one step does to a call `i` in flight, read off by the later proofs. -/

theorem StatusMap.step_getAllStatus_found : ∃ m', m.step .getAllStatus = some m' ∧
    m'.ranges m.calls = some ⟨m.statuses.map Prod.fst, [], false, m.statuses, []⟩ ∧ m'.statuses = m.statuses :=
  ⟨_, rfl, Function.update_same _ _ _, rfl⟩

theorem StatusMap.step_update_found {i : Nat} {r : Ranging} (found : m.ranges i = some r) (st : SessionStatus) :
    ∃ m', m.step (.updateStatus (some st)) = some m' ∧
      m'.ranges i = some (r.witness (storeStatus m.statuses st)) ∧ m'.statuses = storeStatus m.statuses st :=
  ⟨_, rfl, by simp [found], rfl⟩

theorem StatusMap.step_visit_found {i : Nat} {r : Ranging} (found : m.ranges i = some r) {k : Int}
    (visitable : r.Visitable m.statuses k) :
    ∃ m', m.step (.visit i k) = some m' ∧ m'.ranges i = some (r.visit k (m.statuses.lookup k)) ∧ m'.statuses = m.statuses :=
  ⟨{ m with ranges := Function.update m.ranges i (some (r.visit k (m.statuses.lookup k))) },
    by simp [StatusMap.step, found, visitable], Function.update_same _ _ _, rfl⟩

theorem StatusMap.step_finish_found {i : Nat} {r : Ranging} (found : m.ranges i = some r) (running : r.returned = false)
    (left : r.pending = []) :
    ∃ m', m.step (.finish i) = some m' ∧ m'.ranges i = some { r with returned := true } ∧ m'.statuses = m.statuses :=
  ⟨{ m with ranges := Function.update m.ranges i (some { r with returned := true }) },
    by simp [StatusMap.step, found, running, left], Function.update_same _ _ _, rfl⟩

theorem StatusMap.run_visits {i : Nat} :
    ∀ (ks : List Int) {m : StatusMap} {r : Ranging}, m.ranges i = some r → r.returned = false → r.pending = ks →
      ∃ m', m.run (ks.map (.visit i)) = some m' ∧ m'.statuses = m.statuses ∧
        m'.ranges i = some { r with pending := [], sessions := r.sessions ++ ks.filterMap fun k => m.statuses.lookup k }
  | [], m, r, found, _, left => ⟨m, rfl, rfl, by rw [found]; cases r; cases left; simp⟩
  | k :: ks, m, r, found, running, left => by
    obtain ⟨m₁, stepped, found₁, same⟩ := StatusMap.step_visit_found found ⟨running, .inl (left ▸ List.mem_cons_self k ks)⟩
    obtain ⟨m₂, ran, same₂, found₂⟩ := StatusMap.run_visits ks found₁ running (by simp [left])
    refine ⟨m₂, by rw [List.map_cons, StatusMap.run_cons_of_step stepped, ran], same₂.trans same, ?_⟩
    rw [found₂, same]
    cases looked : m.statuses.lookup k <;> simp [Ranging.visit, looked]

end Steps

section Reports

variable {m m' : StatusMap} {a : StatusAction}

theorem StatusMap.step_shape (stepped : m.step a = some m') :
    (∃ st, a = .updateStatus (some st) ∧ m' = ⟨storeStatus m.statuses st,
      fun i => (m.ranges i).map (Ranging.witness (storeStatus m.statuses st)), m.calls⟩) ∨ m' = m ∨
    m' = ⟨m.statuses, Function.update m.ranges m.calls (some ⟨m.statuses.map Prod.fst, [], false, m.statuses, []⟩),
      m.calls + 1⟩ ∨
    ∃ i r r', m.ranges i = some r ∧ m' = { m with ranges := Function.update m.ranges i (some r') } ∧
      r'.start = r.start ∧ r'.later = r.later := by
  cases a with
  | updateStatus status =>
    cases status with
    | none => cases stepped; exact .inr (.inl rfl)
    | some st => cases stepped; exact .inl ⟨st, rfl, rfl⟩
  | getAllStatus => cases stepped; exact .inr (.inr (.inl rfl))
  | visit | finish =>
    simp only [StatusMap.step] at stepped
    split at stepped
    · split_ifs at stepped
      rename_i r found _
      cases stepped
      exact .inr (.inr (.inr ⟨_, r, _, found, rfl, rfl, rfl⟩))
    · cases stepped

theorem StatusMap.Reachable.unstarted (reach : m.Reachable) : ∀ i, m.calls ≤ i → m.ranges i = none := by
  induction reach with
  | init => exact fun _ _ => rfl
  | step _ stepped unstarted =>
    intro i later
    rcases StatusMap.step_shape stepped with ⟨st, -, rfl⟩ | rfl | rfl | ⟨j, r, r', found, rfl, -, -⟩
    · simp [unstarted i later]
    · exact unstarted i later
    · dsimp only at later ⊢
      rw [Function.update_noteq (by omega)]
      exact unstarted i (by omega)
    · have apart : i ≠ j := by
        rintro rfl
        rw [unstarted i later] at found
        cases found
      dsimp only
      rw [Function.update_noteq apart]
      exact unstarted i later

theorem Ranging.mem_witness {r : Ranging} {statuses moment : List (Int × SessionStatus)}
    (listed : moment ∈ (r.witness statuses).start :: (r.witness statuses).later) :
    moment ∈ r.start :: r.later ∨ moment = statuses := by
  unfold Ranging.witness at listed
  split_ifs at listed
  · exact .inl listed
  · simp only [List.mem_cons, List.mem_append, List.mem_singleton] at listed ⊢
    tauto

/-- Since `st` was stored, and while no other status of its session is: the map holds `st`, and
    each call numbered from `since` on, all begun after the store, saw `st` at every moment. -/
structure StatusMap.Holds (m : StatusMap) (st : SessionStatus) (since : Nat) : Prop where
  held : m.statuses.lookup st.sessionId = some st
  begun : since ≤ m.calls
  moments : ∀ i, since ≤ i → ∀ r, m.ranges i = some r →
    ∀ moment ∈ r.start :: r.later, moment.lookup st.sessionId = some st

variable {st : SessionStatus} {since : Nat}

theorem StatusMap.Holds.update (holds : m.Holds st since) {i calls : Nat} {r : Ranging} (more : since ≤ calls)
    (moments : since ≤ i → ∀ moment ∈ r.start :: r.later, moment.lookup st.sessionId = some st) :
    ({ m with ranges := Function.update m.ranges i (some r), calls } : StatusMap).Holds st since := by
  refine ⟨holds.held, more, fun j after r' found => ?_⟩
  by_cases same : j = i
  · subst same
    simp only [Function.update_same, Option.some.injEq] at found
    exact found ▸ moments after
  · exact holds.moments j after r' (by simpa [Function.update_noteq same] using found)

theorem StatusMap.Holds.step (holds : m.Holds st since) (stepped : m.step a = some m')
    (other : ∀ st', a = .updateStatus (some st') → st'.sessionId ≠ st.sessionId) : m'.Holds st since := by
  rcases StatusMap.step_shape stepped with ⟨st', rfl, rfl⟩ | rfl | rfl | ⟨i, r, r', found, rfl, start, later⟩
  · have kept : (storeStatus m.statuses st').lookup st.sessionId = some st := by
      rw [lookup_storeStatus, if_neg (other st' rfl).symm]
      exact holds.held
    refine ⟨kept, holds.begun, fun i after r found moment listed => ?_⟩
    obtain ⟨r₀, found₀, rfl⟩ := Option.map_eq_some'.mp found
    rcases Ranging.mem_witness listed with old | rfl
    · exact holds.moments i after r₀ found₀ moment old
    · exact kept
  · exact holds
  · exact holds.update (Nat.le_succ_of_le holds.begun) fun _ moment listed => by
      simpa [List.mem_singleton.mp listed] using holds.held
  · exact holds.update holds.begun fun after => start ▸ later ▸ holds.moments i after r found

theorem StatusMap.Holds.run (holds : m.Holds st since) {acts : List StatusAction} (ran : m.run acts = some m')
    (quiet : ∀ st', .updateStatus (some st') ∈ acts → st'.sessionId ≠ st.sessionId) : m'.Holds st since := by
  induction acts generalizing m with
  | nil => cases ran; exact holds
  | cons a rest ih =>
    obtain ⟨m₁, stepped, ran⟩ := Option.bind_eq_some.mp ran
    exact ih (holds.step stepped fun st' same => quiet st' (same ▸ List.mem_cons_self _ _)) ran
      fun st' member => quiet st' (List.mem_cons_of_mem _ member)

theorem StatusMap.Reachable.holds_of_store (reach : m.Reachable) (stepped : m.step (.updateStatus (some st)) = some m') :
    m'.Holds st m.calls := by
  cases stepped
  refine ⟨by simp [lookup_storeStatus], le_rfl, fun i after r found => ?_⟩
  simp [reach.unstarted i after] at found

theorem StatusMap.Holds.listed (holds : m.Holds st since) (reach : m.Reachable) {i : Nat} {r : Ranging}
    (after : since ≤ i) (found : m.ranges i = some r) (returned : r.returned = true) :
    st ∈ r.sessions ∧ ∀ s ∈ r.sessions, s.sessionId = st.sessionId → s = st := by
  have sound := reach.inv.sound i r found
  have moments := holds.moments i after r found
  have only : ∀ s ∈ r.sessions, s.sessionId = st.sessionId → s = st := fun s member same => by
    obtain ⟨moment, listed, seen⟩ := sound.seen s member
    rw [same, moments moment listed] at seen
    exact (Option.some.inj seen).symm
  have began : st.sessionId ∈ r.start.map Prod.fst :=
    List.mem_map_of_mem Prod.fst (mem_of_lookup_eq_some (moments r.start (List.mem_cons_self _ _)))
  have covered := sound.covered _ began
  rw [sound.finished returned, List.nil_append] at covered
  obtain ⟨s, member, same⟩ := List.mem_map.mp covered
  exact ⟨only s member same ▸ member, only⟩

end Reports

theorem perm_values_of_lookup {start : List (Int × SessionStatus)} (tracked : Tracked start)
    {sessions : List SessionStatus} (ids : (sessions.map SessionStatus.sessionId).Perm (start.map Prod.fst))
    (found : ∀ st ∈ sessions, start.lookup st.sessionId = some st) : sessions.Perm (start.map Prod.snd) := by
  have keys : (start.map Prod.snd).map SessionStatus.sessionId = start.map Prod.fst := by
    rw [List.map_map]
    exact List.map_congr_left fun e member => tracked.own e member
  refine (List.perm_ext_iff_of_nodup (List.Nodup.of_map SessionStatus.sessionId (ids.nodup_iff.mpr tracked.nodup))
    (List.Nodup.of_map SessionStatus.sessionId (keys ▸ tracked.nodup))).mpr fun st => ⟨fun member => ?_, fun member => ?_⟩
  · exact List.mem_map.mpr ⟨_, mem_of_lookup_eq_some (found st member), rfl⟩
  · obtain ⟨⟨k, s⟩, listed, rfl⟩ := List.mem_map.mp member
    obtain ⟨x, returned, same⟩ := List.mem_map.mp (ids.mem_iff.mpr (List.mem_map.mpr ⟨_, listed, rfl⟩))
    have agrees : some x = some s := by
      rw [← found x returned, same]
      exact lookup_of_mem_nodup tracked.nodup listed
    exact Option.some.inj agrees ▸ returned

theorem get_all_status_lists_each_session_once {m : StatusMap} (reach : m.Reachable) {i : Nat} {r : Ranging}
    (found : m.ranges i = some r) (returned : r.returned = true) :
    (r.sessions.map SessionStatus.sessionId).Nodup ∧
      (∀ k ∈ r.start.map Prod.fst, k ∈ r.sessions.map SessionStatus.sessionId) ∧
      (∀ st ∈ r.sessions, ∃ moment ∈ r.start :: r.later, moment.lookup st.sessionId = some st) ∧
      (r.later = [] → r.sessions.Perm (r.start.map Prod.snd)) := by
  have sound := reach.inv.sound i r found
  have distinct := sound.distinct
  have covered := sound.covered
  rw [sound.finished returned, List.nil_append] at distinct covered
  refine ⟨distinct, covered, sound.seen, fun quiet => ?_⟩
  have atStart : ∀ st ∈ r.sessions, r.start.lookup st.sessionId = some st := fun st member => by
    simpa [quiet] using sound.seen st member
  refine perm_values_of_lookup sound.start ((List.perm_ext_iff_of_nodup distinct sound.start.nodup).mpr
    fun k => ⟨fun listed => ?_, covered k⟩) atStart
  obtain ⟨st, member, rfl⟩ := List.mem_map.mp listed
  exact List.mem_map.mpr ⟨_, mem_of_lookup_eq_some (atStart st member), rfl⟩

/-- A map holding two sessions, each idle. -/
def twoIdle : List StatusAction :=
  [.updateStatus (some ⟨1, "pc-1", "idle"⟩), .updateStatus (some ⟨2, "pc-2", "idle"⟩)]

/-- A `GetAllStatus` on the map `twoIdle` leaves, visiting session 2 first. -/
def twoIdleListed : List StatusAction :=
  twoIdle ++ [.getAllStatus, .visit 0 2, .visit 0 1, .finish 0]

theorem get_all_status_lists_two_idle_sessions :
    ∃ m r, StatusMap.init.run twoIdleListed = some m ∧ m.ranges 0 = some r ∧ r.returned = true ∧
      ((r.sessions.map SessionStatus.sessionId).Nodup ∧
      (∀ k ∈ r.start.map Prod.fst, k ∈ r.sessions.map SessionStatus.sessionId) ∧
      (∀ st ∈ r.sessions, ∃ moment ∈ r.start :: r.later, moment.lookup st.sessionId = some st) ∧
      (r.later = [] → r.sessions.Perm (r.start.map Prod.snd))) :=
  ⟨_, _, rfl, rfl, rfl, get_all_status_lists_each_session_once (i := 0)
    (StatusMap.Reachable.init.run (show StatusMap.init.run twoIdleListed = some _ from rfl)) rfl rfl⟩

/-- `GetAllStatus` is no point-in-time snapshot: from any reachable map holding sessions `a` and
    `b`, the interleaving in which a `GetAllStatus` visits `a`, `UpdateStatus` stores new statuses
    `a'` and then `b'`, and the call visits `b` and the rest, returns `a` and `b'`, a pair the map
    held at no moment of the call. -/
theorem get_all_status_mixes_moments {m : StatusMap} (reach : m.Reachable) (a b a' b' : SessionStatus)
    (held_a : (a.sessionId, a) ∈ m.statuses) (held_b : (b.sessionId, b) ∈ m.statuses)
    (apart : a.sessionId ≠ b.sessionId) (same_a : a'.sessionId = a.sessionId) (same_b : b'.sessionId = b.sessionId)
    (new_a : a' ≠ a) (new_b : b' ≠ b) :
    ∃ acts m' r, m.run acts = some m' ∧ m'.ranges m.calls = some r ∧ r.returned = true ∧ a ∈ r.sessions ∧
      b' ∈ r.sessions ∧ ∀ moment ∈ r.start :: r.later,
        ¬(moment.lookup a.sessionId = some a ∧ moment.lookup b.sessionId = some b') := by
  have nodup := reach.inv.tracked.nodup
  have keyA : a.sessionId ∈ m.statuses.map Prod.fst := List.mem_map_of_mem Prod.fst held_a
  have keyB : b.sessionId ∈ (m.statuses.map Prod.fst).erase a.sessionId :=
    (List.mem_erase_of_ne (Ne.symm apart)).mpr (List.mem_map_of_mem Prod.fst held_b)
  have oldB : (storeStatus m.statuses a').lookup b.sessionId = some b := by
    rw [lookup_storeStatus, if_neg (same_a ▸ Ne.symm apart)]
    exact lookup_of_mem_nodup nodup held_b
  have newB : (storeStatus (storeStatus m.statuses a') b').lookup b.sessionId = some b' := by
    rw [lookup_storeStatus, if_pos same_b.symm]
  have newA : (storeStatus (storeStatus m.statuses a') b').lookup a.sessionId = some a' := by
    rw [lookup_storeStatus, if_neg (same_b ▸ apart), lookup_storeStatus, if_pos same_a.symm]
  obtain ⟨m₁, step₁, found₁, same₁⟩ := StatusMap.step_getAllStatus_found (m := m)
  obtain ⟨m₂, step₂, found₂, same₂⟩ := StatusMap.step_visit_found found₁ ⟨rfl, .inl keyA⟩
  obtain ⟨m₃, step₃, found₃, same₃⟩ := StatusMap.step_update_found found₂ a'
  obtain ⟨m₄, step₄, found₄, same₄⟩ := StatusMap.step_update_found found₃ b'
  simp only [Ranging.witness, Ranging.visit, same₁, same₂, same₃, lookup_of_mem_nodup nodup held_a,
    Option.toList_some, List.nil_append, List.singleton_append, Bool.false_eq_true, if_false] at found₂ found₃ found₄ same₄
  obtain ⟨m₅, step₅, found₅, same₅⟩ := StatusMap.step_visit_found found₄ ⟨rfl, .inl keyB⟩
  obtain ⟨m₆, ran, -, found₆⟩ :=
    StatusMap.run_visits (((m.statuses.map Prod.fst).erase a.sessionId).erase b.sessionId) found₅ rfl rfl
  obtain ⟨m₇, step₇, found₇, -⟩ := StatusMap.step_finish_found found₆ rfl rfl
  have ranAll : m.run ([.getAllStatus, .visit m.calls a.sessionId, .updateStatus (some a'), .updateStatus (some b'),
      .visit m.calls b.sessionId] ++ ((((m.statuses.map Prod.fst).erase a.sessionId).erase b.sessionId).map
        (.visit m.calls) ++ [.finish m.calls])) = some m₇ := by
    simp only [List.cons_append, List.nil_append]
    rw [StatusMap.run_cons_of_step step₁, StatusMap.run_cons_of_step step₂, StatusMap.run_cons_of_step step₃,
      StatusMap.run_cons_of_step step₄, StatusMap.run_cons_of_step step₅, StatusMap.run_append, ran]
    exact StatusMap.run_cons_of_step step₇ []
  refine ⟨_, m₇, _, ranAll, found₇, rfl, by simp, by simp [same₅, same₄, newB], ?_⟩
  simp only [Ranging.visit_start, Ranging.visit_later, List.mem_cons, List.mem_singleton, List.not_mem_nil, or_false]
  rintro moment (rfl | rfl | rfl) ⟨seenA, seenB⟩
  · exact new_b (Option.some.inj (seenB.symm.trans (lookup_of_mem_nodup nodup held_b)))
  · exact new_b (Option.some.inj (seenB.symm.trans oldB))
  · exact new_a (Option.some.inj (newA.symm.trans seenA))

/-- The map `twoIdle` leaves. -/
def twoIdleMap : StatusMap :=
  ⟨[(1, ⟨1, "pc-1", "idle"⟩), (2, ⟨2, "pc-2", "idle"⟩)], fun _ => none, 0⟩

/-- Session 1 idle and session 2 active: the map held that pair at no moment. -/
theorem get_all_status_mixes_idle_and_active :
    ∃ acts m' r, twoIdleMap.run acts = some m' ∧ m'.ranges twoIdleMap.calls = some r ∧ r.returned = true ∧
      ⟨1, "pc-1", "idle"⟩ ∈ r.sessions ∧ ⟨2, "pc-2", "active"⟩ ∈ r.sessions ∧ ∀ moment ∈ r.start :: r.later,
        ¬(moment.lookup 1 = some ⟨1, "pc-1", "idle"⟩ ∧ moment.lookup 2 = some ⟨2, "pc-2", "active"⟩) :=
  get_all_status_mixes_moments (StatusMap.Reachable.init.run (show StatusMap.init.run twoIdle = some twoIdleMap from rfl))
    ⟨1, "pc-1", "idle"⟩ ⟨2, "pc-2", "idle"⟩ ⟨1, "pc-1", "active"⟩ ⟨2, "pc-2", "active"⟩
    (by decide) (by decide) (by decide) rfl rfl (by decide) (by decide)

end SessionEngine.Cluster
