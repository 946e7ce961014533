import Mathlib.Logic.Function.Basic
import Mathlib.Data.List.Perm.Basic

namespace SessionEngine.Cluster

/-- `pb.Cookie`. -/
structure Cookie where
  name : String
  value : String
  domain : String
  path : String
  expiresUnix : Int
  secure : Bool
  httpOnly : Bool
  deriving DecidableEq, Repr

/-- `j.entries[c.Name] = cookieEntry{Cookie: c, ...}`; the `StoredAt` time is never read. -/
def putEntry : List (String × Cookie) → Cookie → List (String × Cookie)
  | [], c => [(c.name, c)]
  | (name, old) :: rest, c => if name = c.name then (c.name, c) :: rest else (name, old) :: putEntry rest c

/-- The locked loop of `GlobalCookieJar.Store`. -/
def storeEntries (entries : List (String × Cookie)) (cookies : List Cookie) : List (String × Cookie) :=
  cookies.foldl putEntry entries

/-- The cookies `Snapshot` copies out of the jar, in one of the orders Go's `range` may take. -/
def snapshotCookies (entries : List (String × Cookie)) : List Cookie :=
  entries.map Prod.snd

/-- `pb.GetGlobalCookiesResponse`: the pair the master emits. -/
structure Response where
  cookies : List Cookie
  version : Nat
  deriving DecidableEq, Repr

/-- A `BroadcastCookie` call past its argument check: before the locked write of `Store`,
    before `version.Add(1)`, before `Snapshot`, before the fan-out under `subMu`, or returned. -/
inductive BroadcastPc where
  | storing (cookies : List Cookie)
  | adding
  | snapshotting (version : Nat)
  | fanning (response : Response)
  | done
  | rejected
  deriving DecidableEq, Repr

/-- A `WatchCookies` handler: before registering, before its initial `Snapshot`, sending it,
    in the forward loop, sending an update, running its deferred delete, or returned. -/
inductive WatchPc where
  | registering
  | snapshotting
  | sendingInitial (response : Response)
  | streaming
  | forwarding (response : Response)
  | exiting
  | exited
  | rejected
  deriving DecidableEq, Repr

/-- A handler that has registered and not yet run its deferred delete. -/
def WatchPc.live : WatchPc → Bool
  | .snapshotting | .sendingInitial _ | .streaming | .forwarding _ | .exiting => true
  | .registering | .exited | .rejected => false

/-- A handler with its buffered channel `ch` and the messages it sent on its stream;
    `displaced` is a history variable: another handler with the same `pcId` registered or
    ran its deferred delete since this one registered. -/
structure Watcher where
  pcId : String
  pc : WatchPc
  ch : List Response
  sent : List Response
  displaced : Bool
  deriving DecidableEq, Repr

/-- `make(chan *pb.GetGlobalCookiesResponse, 32)`. -/
def watchBuffer : Nat := 32

/-- The master: the jar's `entries` and `version`, the subscriber table `subs` (a map from
    pc id to the handler that registered it), the calls in flight, and the responses
    `GetGlobalCookies` returned; `stored` is a history variable, the batches the locked writes of
    `Store` took, in order. -/
structure Master where
  entries : List (String × Cookie)
  version : Nat
  subs : List (String × Nat)
  broadcasts : Nat → Option BroadcastPc
  watchers : Nat → Option Watcher
  calls : Nat
  replies : List Response
  stored : List (List Cookie)

def Master.init : Master :=
  { entries := [], version := 0, subs := [], broadcasts := fun _ => none, watchers := fun _ => none,
    calls := 0, replies := [], stored := [] }

/-- `s.subs[pcId] = sub`. -/
def subscribe : List (String × Nat) → String → Nat → List (String × Nat)
  | [], pcId, i => [(pcId, i)]
  | (key, j) :: rest, pcId, i => if key = pcId then (pcId, i) :: rest else (key, j) :: subscribe rest pcId i

/-- `delete(s.subs, pcId)`. -/
def unsubscribe (subs : List (String × Nat)) (pcId : String) : List (String × Nat) :=
  subs.filter fun entry => entry.1 ≠ pcId

/-- `select { case sub.ch <- resp: default: }`: a full channel drops the message. -/
def Watcher.offered (response : Response) (w : Watcher) : Watcher :=
  if w.ch.length < watchBuffer then { w with ch := w.ch ++ [response] } else w

def offer (watchers : Nat → Option Watcher) (i : Nat) (response : Response) : Nat → Option Watcher :=
  Function.update watchers i ((watchers i).map (Watcher.offered response))

/-- The fan-out loop of `BroadcastCookie` over the subscriber table. -/
def fanOut (subs : List (String × Nat)) (watchers : Nat → Option Watcher) (response : Response) :
    Nat → Option Watcher :=
  subs.foldl (fun ws entry => offer ws entry.2 response) watchers

/-- The history variable `displaced` is set on the other live handlers of `pcId` when
    handler `i` registers or deregisters it. -/
def displace (watchers : Nat → Option Watcher) (i : Nat) (pcId : String) : Nat → Option Watcher :=
  fun j => (watchers j).map fun w =>
    if j ≠ i ∧ w.pcId = pcId ∧ w.pc.live then { w with displaced := true } else w

def Master.snapshot (m : Master) : Response :=
  ⟨snapshotCookies m.entries, m.version⟩

/-- The scheduler's choices: a call arrives, a call in flight takes its next step, a
    handler's context is cancelled, or a handler's `stream.Send` fails. -/
inductive MasterAction where
  | broadcastCookie (cookies : List Cookie)
  | watchCookies (pcId : String)
  | getGlobalCookies
  | broadcast (i : Nat)
  | watch (i : Nat)
  | cancel (i : Nat)
  | sendFails (i : Nat)
  deriving DecidableEq, Repr

/-- One step of `BroadcastCookie` number `i`. -/
def Master.broadcastStep (m : Master) (i : Nat) : Option Master :=
  match m.broadcasts i with
  | some (.storing cookies) =>
    some { m with entries := storeEntries m.entries cookies, stored := m.stored ++ [cookies],
                  broadcasts := Function.update m.broadcasts i (some .adding) }
  | some .adding =>
    some { m with version := m.version + 1,
                  broadcasts := Function.update m.broadcasts i (some (.snapshotting (m.version + 1))) }
  | some (.snapshotting version) =>
    some { m with broadcasts := Function.update m.broadcasts i
                    (some (.fanning ⟨(m.snapshot).cookies, version⟩)) }
  | some (.fanning response) =>
    some { m with watchers := fanOut m.subs m.watchers response,
                  broadcasts := Function.update m.broadcasts i (some .done) }
  | _ => none

def Master.setWatcher (m : Master) (i : Nat) (w : Watcher) : Master :=
  { m with watchers := Function.update m.watchers i (some w) }

/-- One step of handler `i` in which every `stream.Send` succeeds. -/
def Master.watchStep (m : Master) (i : Nat) : Option Master :=
  match m.watchers i with
  | some w =>
    match w.pc with
    | .registering =>
      some { m with subs := subscribe m.subs w.pcId i,
                    watchers := Function.update (displace m.watchers i w.pcId) i
                      (some { w with pc := .snapshotting, displaced := false }) }
    | .snapshotting => some (m.setWatcher i { w with pc := .sendingInitial m.snapshot })
    | .sendingInitial response => some (m.setWatcher i { w with pc := .streaming, sent := w.sent ++ [response] })
    | .streaming =>
      match w.ch with
      | response :: rest => some (m.setWatcher i { w with pc := .forwarding response, ch := rest })
      | [] => none
    | .forwarding response => some (m.setWatcher i { w with pc := .streaming, sent := w.sent ++ [response] })
    | .exiting =>
      some { m with subs := unsubscribe m.subs w.pcId,
                    watchers := Function.update (displace m.watchers i w.pcId) i (some { w with pc := .exited }) }
    | _ => none
  | none => none

section Inversion

variable {m m' : Master} {i : Nat}

theorem Master.broadcastStep_cases (stepped : m.broadcastStep i = some m') :
    (∃ cookies, m.broadcasts i = some (.storing cookies) ∧
      m' = { m with entries := storeEntries m.entries cookies, stored := m.stored ++ [cookies],
                    broadcasts := Function.update m.broadcasts i (some .adding) }) ∨
    (m.broadcasts i = some .adding ∧
      m' = { m with version := m.version + 1,
                    broadcasts := Function.update m.broadcasts i (some (.snapshotting (m.version + 1))) }) ∨
    (∃ version, m.broadcasts i = some (.snapshotting version) ∧
      m' = { m with broadcasts := Function.update m.broadcasts i
                      (some (.fanning ⟨(m.snapshot).cookies, version⟩)) }) ∨
    (∃ response, m.broadcasts i = some (.fanning response) ∧
      m' = { m with watchers := fanOut m.subs m.watchers response,
                    broadcasts := Function.update m.broadcasts i (some .done) }) := by
  unfold Master.broadcastStep at stepped
  split at stepped <;> cases stepped
  · exact .inl ⟨_, ‹_›, rfl⟩
  · exact .inr (.inl ⟨‹_›, rfl⟩)
  · exact .inr (.inr (.inl ⟨_, ‹_›, rfl⟩))
  · exact .inr (.inr (.inr ⟨_, ‹_›, rfl⟩))

theorem Master.watchStep_cases (stepped : m.watchStep i = some m') : ∃ w, m.watchers i = some w ∧
    ((w.pc = .registering ∧
      m' = { m with subs := subscribe m.subs w.pcId i,
                    watchers := Function.update (displace m.watchers i w.pcId) i
                      (some { w with pc := .snapshotting, displaced := false }) }) ∨
    (w.pc = .snapshotting ∧ m' = m.setWatcher i { w with pc := .sendingInitial m.snapshot }) ∨
    (∃ response, w.pc = .sendingInitial response ∧
      m' = m.setWatcher i { w with pc := .streaming, sent := w.sent ++ [response] }) ∨
    (∃ response rest, w.pc = .streaming ∧ w.ch = response :: rest ∧
      m' = m.setWatcher i { w with pc := .forwarding response, ch := rest }) ∨
    (∃ response, w.pc = .forwarding response ∧
      m' = m.setWatcher i { w with pc := .streaming, sent := w.sent ++ [response] }) ∨
    (w.pc = .exiting ∧
      m' = { m with subs := unsubscribe m.subs w.pcId,
                    watchers := Function.update (displace m.watchers i w.pcId) i
                      (some { w with pc := .exited }) })) := by
  unfold Master.watchStep at stepped
  split at stepped
  · rename_i w found
    refine ⟨w, found, ?_⟩
    split at stepped <;> try split at stepped
    all_goals cases stepped
    · exact .inl ⟨‹_›, rfl⟩
    · exact .inr (.inl ⟨‹_›, rfl⟩)
    · exact .inr (.inr (.inl ⟨_, ‹_›, rfl⟩))
    · exact .inr (.inr (.inr (.inl ⟨_, _, ‹_›, ‹_›, rfl⟩)))
    · exact .inr (.inr (.inr (.inr (.inl ⟨_, ‹_›, rfl⟩))))
    · exact .inr (.inr (.inr (.inr (.inr ⟨‹_›, rfl⟩))))
  · cases stepped

end Inversion

def Master.step (m : Master) : MasterAction → Option Master
  | .broadcastCookie cookies =>
    some { m with broadcasts := Function.update m.broadcasts m.calls
                    (some (if cookies.isEmpty then .rejected else .storing cookies)),
                  calls := m.calls + 1 }
  | .watchCookies pcId =>
    some { m with watchers := Function.update m.watchers m.calls
                    (some ⟨pcId, if pcId.isEmpty then .rejected else .registering, [], [], false⟩),
                  calls := m.calls + 1 }
  | .getGlobalCookies => some { m with replies := m.replies ++ [m.snapshot] }
  | .broadcast i => m.broadcastStep i
  | .watch i => m.watchStep i
  | .cancel i =>
    match m.watchers i with
    | some w => if w.pc = .streaming then some (m.setWatcher i { w with pc := .exiting }) else none
    | none => none
  | .sendFails i =>
    match m.watchers i with
    | some w =>
      match w.pc with
      | .sendingInitial _ | .forwarding _ => some (m.setWatcher i { w with pc := .exiting })
      | _ => none
    | none => none

section Inversion

variable {m m' : Master} {i : Nat}

theorem Master.step_getGlobalCookies (m : Master) :
    m.step .getGlobalCookies = some { m with replies := m.replies ++ [m.snapshot] } := rfl

theorem Master.step_broadcastCookie (m : Master) {cookies : List Cookie} (nonempty : cookies ≠ []) :
    m.step (.broadcastCookie cookies) =
      some { m with broadcasts := Function.update m.broadcasts m.calls (some (.storing cookies)),
                    calls := m.calls + 1 } := by
  simp [Master.step, List.isEmpty_iff, nonempty]

theorem Master.step_store {cookies : List Cookie} (found : m.broadcasts i = some (.storing cookies)) :
    m.step (.broadcast i) =
      some { m with entries := storeEntries m.entries cookies, stored := m.stored ++ [cookies],
                    broadcasts := Function.update m.broadcasts i (some .adding) } := by
  simp [Master.step, Master.broadcastStep, found]

theorem Master.step_fanOut {response : Response} (found : m.broadcasts i = some (.fanning response)) :
    m.step (.broadcast i) =
      some { m with watchers := fanOut m.subs m.watchers response,
                    broadcasts := Function.update m.broadcasts i (some .done) } := by
  simp [Master.step, Master.broadcastStep, found]

theorem Master.cancel_cases (stepped : m.step (.cancel i) = some m') :
    ∃ w, m.watchers i = some w ∧ w.pc = .streaming ∧ m' = m.setWatcher i { w with pc := .exiting } := by
  simp only [Master.step] at stepped
  split at stepped
  · split at stepped <;> cases stepped
    exact ⟨_, ‹_›, ‹_›, rfl⟩
  · cases stepped

theorem Master.sendFails_cases (stepped : m.step (.sendFails i) = some m') :
    ∃ w, m.watchers i = some w ∧ ((∃ response, w.pc = .sendingInitial response) ∨
      ∃ response, w.pc = .forwarding response) ∧ m' = m.setWatcher i { w with pc := .exiting } := by
  simp only [Master.step] at stepped
  split at stepped
  · split at stepped <;> cases stepped
    · exact ⟨_, ‹_›, .inl ⟨_, ‹_›⟩, rfl⟩
    · exact ⟨_, ‹_›, .inr ⟨_, ‹_›⟩, rfl⟩
  · cases stepped

end Inversion

/-- The states of every interleaving of calls, each step satisfying `allowed`. -/
inductive Master.Reachable (allowed : Master → MasterAction → Prop) : Master → Prop
  | init : Master.Reachable allowed .init
  | step {m m' : Master} {a : MasterAction} : Master.Reachable allowed m → allowed m a →
      m.step a = some m' → Master.Reachable allowed m'

/-- Replay a schedule; `none` as soon as a step is not enabled. -/
def Master.run (m : Master) : List MasterAction → Option Master
  | [] => some m
  | a :: rest => (m.step a).bind fun m' => m'.run rest

theorem Master.Reachable.run {m m' : Master} (reach : m.Reachable fun _ _ => True) (actions : List MasterAction)
    (ran : m.run actions = some m') : m'.Reachable fun _ _ => True := by
  induction actions generalizing m with
  | nil =>
    cases ran
    exact reach
  | cons a rest ih =>
    simp only [Master.run, Option.bind_eq_some] at ran
    obtain ⟨next, stepped, ran⟩ := ran
    exact ih (reach.step trivial stepped) ran

end SessionEngine.Cluster
