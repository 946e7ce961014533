import Mathlib.Data.List.DropRight

namespace SessionEngine.Dashboard

/-! The dashboard's log pipeline. `Server.AddLog` appends an entry to the ring buffer under
    `logMu` and then, in a second section under `logSubMu`, offers it to every registered
    channel without blocking; `handleLogsStream` copies the buffer under `logMu`, writes that
    history, registers its channel under `logSubMu`, and then writes what arrives on it until
    its request's context is done or a write fails. Each locked section is one atomic step;
    the steps of different calls interleave freely. -/

/-- `LogEntry`: `Timestamp` (`time.Now().UnixMilli()`), `Level`, `Message`. -/
structure LogEntry where
  timestamp : Int
  level : String
  message : String
  deriving DecidableEq, Repr

/-- `maxLogs`. -/
def maxLogs : Nat := 10000

/-- The buffer of a stream's channel, `make(chan LogEntry, 256)`. -/
def streamBuffer : Nat := 256

/-- The section of `AddLog` under `logMu`: append, then keep `s.logs[len(s.logs)-maxLogs:]`
    when the buffer has grown past `maxLogs`. -/
def appendLog (logs : List LogEntry) (entry : LogEntry) : List LogEntry :=
  let logs := logs ++ [entry]
  if logs.length > maxLogs then logs.drop (logs.length - maxLogs) else logs

/-- `select { case ch <- entry: default: }` on a buffered channel: the entry joins the buffer
    when it has room, and is dropped otherwise. -/
def offer (buffered : List LogEntry) (entry : LogEntry) : List LogEntry :=
  if buffered.length < streamBuffer then buffered ++ [entry] else buffered

/-- Where an `AddLog` call is: before its section under `logMu`, before its section under
    `logSubMu`, or returned. -/
inductive AddLogPc where
  | appending
  | fanning
  | done
  deriving DecidableEq, Repr

/-- An `AddLog` call: the entry it built and where it is. -/
structure AddLogCall where
  entry : LogEntry
  pc : AddLogPc
  deriving DecidableEq, Repr

/-- What `handleLogsStream` sends before any frame: the `http.Error` a writer that is no
    `http.Flusher` gets, or the headers of an event stream. -/
inductive StreamStart where
  | refused (status : Nat) (header : List (String × String)) (body : String)
  | streaming (header : List (String × String))
  deriving DecidableEq, Repr

/-- Where a `handleLogsStream` call is: before its copy of the buffer; writing the copy
    `history`; before registering its channel; in its `select` loop; returned from the loop
    with its deferred `delete` still to run; returned. -/
inductive StreamPc where
  | copying
  | writing (history : List LogEntry)
  | subscribing
  | receiving
  | leaving
  | done
  deriving DecidableEq, Repr

/-- A `handleLogsStream` call: what it sent first, where it is, whether its channel is a key of
    `s.logSubs`, the entries buffered in that channel, and the entries it has written as
    `data:` frames, in order. -/
structure Stream where
  start : StreamStart
  pc : StreamPc
  subscribed : Bool
  buffered : List LogEntry
  written : List LogEntry
  deriving DecidableEq, Repr

/-- The opening of `handleLogsStream`: `http.Error(w, "streaming unsupported",
    http.StatusInternalServerError)` when the writer cannot flush, and otherwise the three
    event-stream headers. -/
def openStream (flushable : Bool) : Stream :=
  if flushable then
    ⟨.streaming [("Content-Type", "text/event-stream"), ("Cache-Control", "no-cache"),
      ("Connection", "keep-alive")], .copying, false, [], []⟩
  else
    ⟨.refused 500 [("Content-Type", "text/plain; charset=utf-8"), ("X-Content-Type-Options", "nosniff")]
      "streaming unsupported\n", .done, false, [], []⟩

/-- The statements of a stream: its copy of `s.logs` under `logMu`; writing the whole history
    and flushing; a history write that fails after `count` entries (the handler returns); its
    registration under `logSubMu`, with a new empty channel; the `select` taking an entry and
    writing it, or taking one whose write fails; the `select` taking `ctx.Done()`; the
    deferred `delete` under `logSubMu`. -/
inductive StreamAction where
  | copy
  | writeHistory
  | historyFails (count : Nat)
  | subscribe
  | receive
  | receiveFails
  | cancel
  | unsubscribe
  deriving DecidableEq, Repr

/-- One statement of a stream, given the buffer `logs` its copy would read. -/
def Stream.step (logs : List LogEntry) (st : Stream) : StreamAction → Option Stream
  | .copy => if st.pc = .copying then some { st with pc := .writing logs } else none
  | .writeHistory =>
    match st.pc with
    | .writing history => some { st with pc := .subscribing, written := st.written ++ history }
    | _ => none
  | .historyFails count =>
    match st.pc with
    | .writing history =>
      if count < history.length then some { st with pc := .done, written := st.written ++ history.take count }
      else none
    | _ => none
  | .subscribe =>
    if st.pc = .subscribing then some { st with pc := .receiving, subscribed := true, buffered := [] } else none
  | .receive =>
    match st.pc, st.buffered with
    | .receiving, entry :: rest => some { st with buffered := rest, written := st.written ++ [entry] }
    | _, _ => none
  | .receiveFails =>
    match st.pc, st.buffered with
    | .receiving, _ :: rest => some { st with pc := .leaving, buffered := rest }
    | _, _ => none
  | .cancel => if st.pc = .receiving then some { st with pc := .leaving } else none
  | .unsubscribe => if st.pc = .leaving then some { st with pc := .done, subscribed := false } else none

/-- What `AddLog`'s loop over `s.logSubs` does to one stream: a registered channel is offered
    the entry. -/
def Stream.offered (entry : LogEntry) (st : Stream) : Stream :=
  if st.subscribed then { st with buffered := offer st.buffered entry } else st

/-- The server's log state: the ring buffer, the `AddLog` calls, and the `handleLogsStream`
    calls. -/
structure LogServer where
  logs : List LogEntry
  calls : List AddLogCall
  streams : List Stream
  deriving DecidableEq, Repr

/-- `New`: an empty buffer and no subscriber. -/
def newLogServer : LogServer := ⟨[], [], []⟩

/-- The scheduler's choices: a new `AddLog` call (with the time it read), call `t`'s section
    under `logMu`, its section under `logSubMu`, a new request to `/api/logs/stream`, and a
    statement of stream `h`. -/
inductive LogAction where
  | addLog (entry : LogEntry)
  | append (t : Nat)
  | fanOut (t : Nat)
  | connect (flushable : Bool)
  | stream (h : Nat) (a : StreamAction)
  deriving DecidableEq, Repr

def LogServer.step (s : LogServer) : LogAction → Option LogServer
  | .addLog entry => some { s with calls := s.calls ++ [⟨entry, .appending⟩] }
  | .append t =>
    s.calls[t]?.bind fun c =>
      if c.pc = .appending then
        some { s with logs := appendLog s.logs c.entry, calls := s.calls.set t { c with pc := .fanning } }
      else none
  | .fanOut t =>
    s.calls[t]?.bind fun c =>
      if c.pc = .fanning then
        some { s with streams := s.streams.map (Stream.offered c.entry), calls := s.calls.set t { c with pc := .done } }
      else none
  | .connect flushable => some { s with streams := s.streams ++ [openStream flushable] }
  | .stream h a => s.streams[h]?.bind fun st => (st.step s.logs a).map fun st' => { s with streams := s.streams.set h st' }

def LogServer.run (s : LogServer) : List LogAction → Option LogServer
  | [] => some s
  | a :: rest => (s.step a).bind fun s' => s'.run rest

/-- The entry of call `t`, read from the calls `calls`. -/
def entryAt (calls : List AddLogCall) (t : Nat) : Option LogEntry :=
  (calls.map AddLogCall.entry)[t]?

/-- The entries the `append` steps of `acts` add to the buffer, in order. -/
def appendedBy (calls : List AddLogCall) (acts : List LogAction) : List LogEntry :=
  acts.filterMap fun
    | .append t => entryAt calls t
    | _ => none

/-- The entries the `fanOut` steps of `acts` offer to the registered channels, in order. -/
def fannedBy (calls : List AddLogCall) (acts : List LogAction) : List LogEntry :=
  acts.filterMap fun
    | .fanOut t => entryAt calls t
    | _ => none

section Buffer

theorem appendLog_eq_rtake (logs : List LogEntry) (entry : LogEntry) :
    appendLog logs entry = (logs ++ [entry]).rtake maxLogs := by
  unfold appendLog List.rtake
  dsimp only
  split
  · rfl
  · rw [Nat.sub_eq_zero_of_le (by omega), List.drop_zero]

theorem rtake_append_rtake {α : Type} (l r : List α) (n : Nat) : (l.rtake n ++ r).rtake n = (l ++ r).rtake n := by
  simp only [List.rtake_eq_reverse_take_reverse, List.reverse_append, List.reverse_reverse,
    List.take_append_eq_append_take, List.take_take, List.length_reverse, Nat.min_eq_left (Nat.sub_le n r.length)]

theorem entryAt_of_prefix_calls {calls final : List AddLogCall} {t : Nat} {c : AddLogCall}
    (kept : calls.map AddLogCall.entry <+: final.map AddLogCall.entry) (found : calls[t]? = some c) :
    entryAt final t = some c.entry := by
  obtain ⟨rest, same⟩ := kept
  have inside : t < (calls.map AddLogCall.entry).length := by
    simp [(List.getElem?_eq_some_iff.mp found).1]
  rw [entryAt, ← same, List.getElem?_append_left inside, List.getElem?_map, found]
  rfl

end Buffer

section Steps

variable {s s' : LogServer} {a : LogAction}

theorem LogServer.step_cases (stepped : s.step a = some s') :
    (∃ entry, a = .addLog entry ∧ s' = { s with calls := s.calls ++ [⟨entry, .appending⟩] }) ∨
    (∃ t c, a = .append t ∧ s.calls[t]? = some c ∧ c.pc = .appending ∧
      s' = { s with logs := appendLog s.logs c.entry, calls := s.calls.set t { c with pc := .fanning } }) ∨
    (∃ t c, a = .fanOut t ∧ s.calls[t]? = some c ∧ c.pc = .fanning ∧
      s' = { s with streams := s.streams.map (Stream.offered c.entry), calls := s.calls.set t { c with pc := .done } }) ∨
    (∃ flushable, a = .connect flushable ∧ s' = { s with streams := s.streams ++ [openStream flushable] }) ∨
    (∃ h b st st', a = .stream h b ∧ s.streams[h]? = some st ∧ st.step s.logs b = some st' ∧
      s' = { s with streams := s.streams.set h st' }) := by
  cases a with
  | addLog entry => exact .inl ⟨entry, rfl, (Option.some.inj stepped).symm⟩
  | append t =>
    obtain ⟨c, found, enabled⟩ := Option.bind_eq_some.mp stepped
    split at enabled
    · exact .inr (.inl ⟨t, c, rfl, found, ‹_›, (Option.some.inj enabled).symm⟩)
    · cases enabled
  | fanOut t =>
    obtain ⟨c, found, enabled⟩ := Option.bind_eq_some.mp stepped
    split at enabled
    · exact .inr (.inr (.inl ⟨t, c, rfl, found, ‹_›, (Option.some.inj enabled).symm⟩))
    · cases enabled
  | connect flushable => exact .inr (.inr (.inr (.inl ⟨flushable, rfl, (Option.some.inj stepped).symm⟩)))
  | stream h b =>
    obtain ⟨st, found, moved⟩ := Option.bind_eq_some.mp stepped
    obtain ⟨st', stepped', rfl⟩ := Option.map_eq_some'.mp moved
    exact .inr (.inr (.inr (.inr ⟨h, b, st, st', rfl, found, stepped', rfl⟩)))

theorem LogServer.step_stream_self {h : Nat} {b : StreamAction} (stepped : s.step (.stream h b) = some s') :
    ∃ st st', s.streams[h]? = some st ∧ st.step s.logs b = some st' ∧ s' = { s with streams := s.streams.set h st' } := by
  obtain ⟨st, found, moved⟩ := Option.bind_eq_some.mp stepped
  obtain ⟨st', stepped', rfl⟩ := Option.map_eq_some'.mp moved
  exact ⟨st, st', found, stepped', rfl⟩

theorem map_entry_set {calls : List AddLogCall} {t : Nat} {c : AddLogCall} (found : calls[t]? = some c)
    (pc : AddLogPc) : (calls.set t { c with pc := pc }).map AddLogCall.entry = calls.map AddLogCall.entry := by
  have inside := (List.getElem?_eq_some_iff.mp found).1
  rw [List.map_set]
  refine List.ext_getElem? fun i => ?_
  by_cases same : t = i
  · subst same
    rw [List.getElem?_set_self (by simpa using inside), List.getElem?_map, found]
    rfl
  · rw [List.getElem?_set_ne same]

theorem LogServer.step_calls (stepped : s.step a = some s') :
    s.calls.map AddLogCall.entry <+: s'.calls.map AddLogCall.entry := by
  rcases LogServer.step_cases stepped with ⟨_, -, rfl⟩ | ⟨_, c, -, found, -, rfl⟩ | ⟨_, c, -, found, -, rfl⟩ |
    ⟨_, -, rfl⟩ | ⟨_, _, _, _, -, -, -, rfl⟩
  · simp only [List.map_append]
    exact List.prefix_append _ _
  · exact (map_entry_set found _).symm ▸ List.prefix_refl _
  · exact (map_entry_set found _).symm ▸ List.prefix_refl _
  · exact List.prefix_refl _
  · exact List.prefix_refl _

end Steps

section Streams

variable {logs : List LogEntry} {st st' : Stream} {b : StreamAction} {entry : LogEntry}

@[simp] theorem Stream.offered_pc : (st.offered entry).pc = st.pc := by
  unfold Stream.offered; split <;> rfl

@[simp] theorem Stream.offered_written : (st.offered entry).written = st.written := by
  unfold Stream.offered; split <;> rfl

@[simp] theorem Stream.offered_subscribed : (st.offered entry).subscribed = st.subscribed := by
  unfold Stream.offered; split <;> rfl

theorem Stream.offered_of_unsubscribed (unsubscribed : st.subscribed = false) : st.offered entry = st := by
  simp [Stream.offered, unsubscribed]

theorem Stream.offered_buffered_sublist : (st.offered entry).buffered.Sublist (st.buffered ++ [entry]) := by
  unfold Stream.offered offer
  split
  · split
    · exact List.Sublist.refl _
    · exact List.sublist_append_left _ _
  · exact List.sublist_append_left _ _

/-- A stream that has not copied the buffer yet has written nothing and has no channel. -/
def Stream.Fresh (st : Stream) : Prop :=
  st.pc = .copying → st.written = [] ∧ st.subscribed = false ∧ st.buffered = []

/-- A stream in its `select` loop, returning from it, or returned. -/
def Stream.Past (st : Stream) : Prop :=
  st.pc = .receiving ∨ st.pc = .leaving ∨ st.pc = .done

theorem Stream.step_pc (stepped : st.step logs b = some st') :
    st'.pc = .writing logs ∨ st'.pc = .subscribing ∨ st'.Past := by
  unfold Stream.step at stepped
  cases b <;> (repeat' split at stepped) <;> simp only [reduceCtorEq, Option.some.injEq] at stepped <;>
    subst stepped <;> simp_all [Stream.Past]

theorem Stream.step_copy (stepped : st.step logs .copy = some st') :
    st.pc = .copying ∧ st' = { st with pc := .writing logs } := by
  simp only [Stream.step] at stepped
  split at stepped
  · exact ⟨‹_›, (Option.some.inj stepped).symm⟩
  · cases stepped

theorem Stream.step_subscribe (stepped : st.step logs .subscribe = some st') :
    st.pc = .subscribing ∧ st' = { st with pc := .receiving, subscribed := true, buffered := [] } := by
  simp only [Stream.step] at stepped
  split at stepped
  · exact ⟨‹_›, (Option.some.inj stepped).symm⟩
  · cases stepped

theorem Stream.Fresh.offered (fresh : st.Fresh) : (st.offered entry).Fresh := by
  intro copying
  rw [Stream.offered_pc] at copying
  obtain ⟨written, unsubscribed, empty⟩ := fresh copying
  rw [Stream.offered_of_unsubscribed unsubscribed]
  exact ⟨written, unsubscribed, empty⟩

theorem Stream.step_past (past : st.Past) (stepped : st.step logs b = some st') :
    st'.Past ∧ ∃ moved, st'.written = st.written ++ moved ∧ (moved ++ st'.buffered).Sublist st.buffered := by
  obtain ⟨start, pc, subscribed, buffered, written⟩ := st
  simp only [Stream.Past] at past
  rcases past with rfl | rfl | rfl <;> cases b <;> (try cases buffered) <;>
    simp only [Stream.step, reduceCtorEq, if_false, if_true, Option.some.injEq] at stepped <;> subst stepped
  · exact ⟨.inl rfl, [_], rfl, List.Sublist.refl _⟩
  · exact ⟨.inr (.inl rfl), [], (List.append_nil _).symm, List.sublist_cons_self _ _⟩
  · exact ⟨.inr (.inl rfl), [], (List.append_nil _).symm, List.Sublist.refl _⟩
  · exact ⟨.inr (.inl rfl), [], (List.append_nil _).symm, List.Sublist.refl _⟩
  · exact ⟨.inr (.inr rfl), [], (List.append_nil _).symm, List.Sublist.refl _⟩
  · exact ⟨.inr (.inr rfl), [], (List.append_nil _).symm, List.Sublist.refl _⟩

/-- A stream between its copy of the buffer and its registration: no channel yet, and still
    writing `history` or done writing it; or already past its registration. -/
def Stream.Copied (history : List LogEntry) (st : Stream) : Prop :=
  (st.subscribed = false ∧ st.buffered = [] ∧
    (st.pc = .writing history ∧ st.written = [] ∨ st.pc = .subscribing ∧ st.written = history)) ∨ st.Past

/-- A stream past its registration: it wrote `history`, then entries that, followed by what its
    channel still holds, were offered in that order among `fanned`. -/
def Stream.Receiving (history fanned : List LogEntry) (st : Stream) : Prop :=
  st.Past ∧ ∃ rest, st.written = history ++ rest ∧ (rest ++ st.buffered).Sublist fanned

theorem Stream.Copied.offered {history : List LogEntry} (copied : st.Copied history) :
    (st.offered entry).Copied history := by
  rcases copied with ⟨unsubscribed, empty, writing⟩ | past
  · rw [Stream.offered_of_unsubscribed unsubscribed]
    exact .inl ⟨unsubscribed, empty, writing⟩
  · exact .inr (by simpa only [Stream.Past, Stream.offered_pc] using past)

theorem Stream.Copied.step {history : List LogEntry} (copied : st.Copied history)
    (stepped : st.step logs b = some st') : st'.Copied history := by
  rcases copied with ⟨unsubscribed, empty, ⟨writing, nothing⟩ | ⟨subscribing, wrote⟩⟩ | past
  · obtain ⟨start, pc, subscribed, buffered, written⟩ := st
    dsimp only at unsubscribed empty writing nothing
    subst unsubscribed empty writing nothing
    cases b <;> simp only [Stream.step, reduceCtorEq, if_false, Option.some.injEq] at stepped
    · subst stepped
      exact .inl ⟨rfl, rfl, .inr ⟨rfl, List.nil_append _⟩⟩
    · split at stepped
      · obtain rfl := Option.some.inj stepped
        exact .inr (.inr (.inr rfl))
      · cases stepped
  · obtain ⟨start, pc, subscribed, buffered, written⟩ := st
    dsimp only at unsubscribed empty subscribing wrote
    subst unsubscribed empty subscribing wrote
    cases b <;> simp only [Stream.step, reduceCtorEq, if_false, if_true, Option.some.injEq] at stepped
    subst stepped
    exact .inr (.inl rfl)
  · exact .inr (Stream.step_past past stepped).1

theorem Stream.Receiving.offered {history fanned : List LogEntry} (receiving : st.Receiving history fanned) :
    (st.offered entry).Receiving history (fanned ++ [entry]) := by
  obtain ⟨past, rest, wrote, order⟩ := receiving
  refine ⟨by simpa only [Stream.Past, Stream.offered_pc] using past, rest, by rw [Stream.offered_written, wrote], ?_⟩
  exact (List.Sublist.append_left Stream.offered_buffered_sublist rest).trans
    (by rw [← List.append_assoc]; exact order.append (List.Sublist.refl _))

theorem Stream.Receiving.step {history fanned : List LogEntry} (receiving : st.Receiving history fanned)
    (stepped : st.step logs b = some st') : st'.Receiving history fanned := by
  obtain ⟨past, rest, wrote, order⟩ := receiving
  obtain ⟨past', moved, wrote', kept⟩ := Stream.step_past past stepped
  refine ⟨past', rest ++ moved, by rw [wrote', wrote, List.append_assoc], ?_⟩
  rw [List.append_assoc]
  exact (kept.append_left rest).trans order

theorem Stream.Receiving.mono {history fanned more : List LogEntry} (receiving : st.Receiving history fanned)
    (longer : fanned.Sublist more) : st.Receiving history more := by
  obtain ⟨past, rest, wrote, order⟩ := receiving
  exact ⟨past, rest, wrote, order.trans longer⟩

end Streams

section Runs

variable {s s' : LogServer} {a : LogAction} {acts : List LogAction}

theorem LogServer.run_cons : s.run (a :: acts) = some s' ↔ ∃ s₁, s.step a = some s₁ ∧ s₁.run acts = some s' :=
  Option.bind_eq_some

theorem LogServer.run_append (s : LogServer) (l₁ l₂ : List LogAction) :
    s.run (l₁ ++ l₂) = (s.run l₁).bind fun s₁ => s₁.run l₂ := by
  induction l₁ generalizing s with
  | nil => rfl
  | cons a rest ih =>
    show ((s.step a).bind fun s' => s'.run (rest ++ l₂)) = _
    simp only [LogServer.run, Option.bind_assoc, ih]

theorem LogServer.run_calls (ran : s.run acts = some s') :
    s.calls.map AddLogCall.entry <+: s'.calls.map AddLogCall.entry := by
  induction acts generalizing s with
  | nil =>
    obtain rfl := Option.some.inj ran
    exact List.prefix_refl _
  | cons a rest ih =>
    obtain ⟨s₁, stepped, ran⟩ := LogServer.run_cons.mp ran
    exact (LogServer.step_calls stepped).trans (ih ran)

theorem appendedBy_append_cons {calls : List AddLogCall} {t : Nat} {entry : LogEntry}
    (found : entryAt calls t = some entry) (rest : List LogAction) :
    appendedBy calls (.append t :: rest) = entry :: appendedBy calls rest := by
  simp only [appendedBy, List.filterMap_cons, found]

theorem fannedBy_fanOut_cons {calls : List AddLogCall} {t : Nat} {entry : LogEntry}
    (found : entryAt calls t = some entry) (rest : List LogAction) :
    fannedBy calls (.fanOut t :: rest) = entry :: fannedBy calls rest := by
  simp only [fannedBy, List.filterMap_cons, found]

theorem fannedBy_cons_of_ne {calls : List AddLogCall} (other : ∀ t, a ≠ .fanOut t) (rest : List LogAction) :
    fannedBy calls (a :: rest) = fannedBy calls rest := by
  cases a <;> first | rfl | exact absurd rfl (other _)

theorem LogServer.run_logs {final : List AddLogCall} (ran : s.run acts = some s')
    (kept : s'.calls.map AddLogCall.entry <+: final.map AddLogCall.entry) {earlier : List LogEntry}
    (cut : s.logs = earlier.rtake maxLogs) : s'.logs = (earlier ++ appendedBy final acts).rtake maxLogs := by
  induction acts generalizing s earlier with
  | nil =>
    obtain rfl := Option.some.inj ran
    simpa [appendedBy] using cut
  | cons a rest ih =>
    obtain ⟨s₁, stepped, ran⟩ := LogServer.run_cons.mp ran
    have kept₁ := (LogServer.step_calls stepped).trans ((LogServer.run_calls ran).trans kept)
    rcases LogServer.step_cases stepped with ⟨_, rfl, rfl⟩ | ⟨t, c, rfl, found, -, rfl⟩ | ⟨_, _, rfl, -, -, rfl⟩ |
      ⟨_, rfl, rfl⟩ | ⟨_, _, _, _, rfl, -, -, rfl⟩
    · exact ih ran cut
    · have appended : (appendLog s.logs c.entry) = (earlier ++ [c.entry]).rtake maxLogs := by
        rw [appendLog_eq_rtake, cut, rtake_append_rtake]
      rw [appendedBy_append_cons (entryAt_of_prefix_calls kept₁ found), ← List.singleton_append, ← List.append_assoc]
      exact ih ran appended
    · exact ih ran cut
    · exact ih ran cut
    · exact ih ran cut

theorem LogServer.step_stream {h : Nat} {st : Stream} (stepped : s.step a = some s') (found : s.streams[h]? = some st) :
    (∃ t c, a = .fanOut t ∧ s.calls[t]? = some c ∧ s'.streams[h]? = some (st.offered c.entry)) ∨
    (∃ b st', a = .stream h b ∧ st.step s.logs b = some st' ∧ s'.streams[h]? = some st') ∨
    (s'.streams[h]? = some st ∧ ∀ t, a ≠ .fanOut t) := by
  have inside := (List.getElem?_eq_some_iff.mp found).1
  rcases LogServer.step_cases stepped with ⟨_, rfl, rfl⟩ | ⟨_, _, rfl, -, -, rfl⟩ | ⟨t, c, rfl, called, -, rfl⟩ |
    ⟨_, rfl, rfl⟩ | ⟨h', b, st₀, st', rfl, found₀, stepped', rfl⟩
  · exact .inr (.inr ⟨found, fun _ => nofun⟩)
  · exact .inr (.inr ⟨found, fun _ => nofun⟩)
  · exact .inl ⟨t, c, rfl, called, by simp only [List.getElem?_map, found, Option.map_some']⟩
  · exact .inr (.inr ⟨(List.getElem?_append_left inside).trans found, fun _ => nofun⟩)
  · by_cases same : h' = h
    · subst same
      obtain rfl := Option.some.inj (found₀.symm.trans found)
      exact .inr (.inl ⟨b, st', rfl, stepped', List.getElem?_set_self inside⟩)
    · exact .inr (.inr ⟨(List.getElem?_set_ne same).trans found, fun _ => nofun⟩)

theorem LogServer.step_fresh (stepped : s.step a = some s') (fresh : ∀ st ∈ s.streams, st.Fresh) :
    ∀ st ∈ s'.streams, st.Fresh := by
  rcases LogServer.step_cases stepped with ⟨_, -, rfl⟩ | ⟨_, _, -, -, -, rfl⟩ | ⟨_, _, -, -, -, rfl⟩ |
    ⟨flushable, -, rfl⟩ | ⟨_, _, _, st', -, -, stepped', rfl⟩
  · exact fresh
  · exact fresh
  · intro st member
    obtain ⟨old, was, rfl⟩ := List.mem_map.mp member
    exact (fresh old was).offered
  · intro st member
    rcases List.mem_append.mp member with member | member
    · exact fresh st member
    · rw [List.mem_singleton.mp member]
      cases flushable <;> simp [openStream, Stream.Fresh]
  · intro st member
    rcases List.mem_or_eq_of_mem_set member with member | rfl
    · exact fresh st member
    · intro copying
      have landed := Stream.step_pc stepped'
      simp only [Stream.Past] at landed
      rcases landed with p | p | p | p | p <;> rw [p] at copying <;> cases copying

theorem LogServer.run_fresh (ran : s.run acts = some s') (fresh : ∀ st ∈ s.streams, st.Fresh) :
    ∀ st ∈ s'.streams, st.Fresh := by
  induction acts generalizing s with
  | nil =>
    obtain rfl := Option.some.inj ran
    exact fresh
  | cons a rest ih =>
    obtain ⟨s₁, stepped, ran⟩ := LogServer.run_cons.mp ran
    exact ih ran (LogServer.step_fresh stepped fresh)

theorem LogServer.run_copied {h : Nat} {history : List LogEntry} {st : Stream} (ran : s.run acts = some s')
    (found : s.streams[h]? = some st) (copied : st.Copied history) :
    ∃ st', s'.streams[h]? = some st' ∧ st'.Copied history := by
  induction acts generalizing s st with
  | nil =>
    obtain rfl := Option.some.inj ran
    exact ⟨st, found, copied⟩
  | cons a rest ih =>
    obtain ⟨s₁, stepped, ran⟩ := LogServer.run_cons.mp ran
    rcases LogServer.step_stream stepped found with ⟨_, _, -, -, found₁⟩ | ⟨_, _, -, stepped₁, found₁⟩ | ⟨found₁, -⟩
    · exact ih ran found₁ copied.offered
    · exact ih ran found₁ (copied.step stepped₁)
    · exact ih ran found₁ copied

theorem LogServer.run_receiving {final : List AddLogCall} {h : Nat} {history fanned : List LogEntry} {st : Stream}
    (ran : s.run acts = some s') (kept : s'.calls.map AddLogCall.entry <+: final.map AddLogCall.entry)
    (found : s.streams[h]? = some st) (receiving : st.Receiving history fanned) :
    ∃ st', s'.streams[h]? = some st' ∧ st'.Receiving history (fanned ++ fannedBy final acts) := by
  induction acts generalizing s st fanned with
  | nil =>
    obtain rfl := Option.some.inj ran
    exact ⟨st, found, by simpa [fannedBy] using receiving⟩
  | cons a rest ih =>
    obtain ⟨s₁, stepped, ranRest⟩ := LogServer.run_cons.mp ran
    have kept₁ := (LogServer.step_calls stepped).trans ((LogServer.run_calls ranRest).trans kept)
    rcases LogServer.step_stream stepped found with ⟨t, c, rfl, called, found₁⟩ | ⟨_, _, rfl, stepped₁, found₁⟩ |
      ⟨found₁, other⟩
    · rw [fannedBy_fanOut_cons (entryAt_of_prefix_calls kept₁ called), ← List.singleton_append, ← List.append_assoc]
      exact ih ranRest found₁ receiving.offered
    · exact ih ranRest found₁ (receiving.step stepped₁)
    · rw [fannedBy_cons_of_ne other]
      exact ih ranRest found₁ receiving

end Runs

section Pipeline

variable {s : LogServer} {acts : List LogAction}

theorem buffer_holds_last_logged (ran : newLogServer.run acts = some s) :
    s.logs = (appendedBy s.calls acts).rtake maxLogs := by
  have window := LogServer.run_logs ran (List.prefix_refl _)
    (show newLogServer.logs = ([] : List LogEntry).rtake maxLogs from (List.rtake_nil _).symm)
  rwa [List.nil_append] at window

/-- What a log stream writes, over any interleaving: once it has registered its channel, it has
    written the buffer as it was at its copy (the last `maxLogs` entries appended before it),
    followed by entries offered by `fanOut` steps after its registration, in the order of those
    steps and each at most once. Entries whose fan-out came before the registration but whose
    append came after the copy are never written; an entry appended before the copy and fanned
    out after the registration is written twice. -/
theorem stream_writes_window_then_fanned {pre mid post : List LogAction} {h : Nat}
    (ran : newLogServer.run (pre ++ .stream h .copy :: (mid ++ .stream h .subscribe :: post)) = some s) :
    ∃ st rest, s.streams[h]? = some st ∧ st.written = (appendedBy s.calls pre).rtake maxLogs ++ rest ∧
      rest.Sublist (fannedBy s.calls post) := by
  rw [LogServer.run_append] at ran
  obtain ⟨s₁, ran₁, ran⟩ := Option.bind_eq_some.mp ran
  obtain ⟨s₂, copied, ran⟩ := LogServer.run_cons.mp ran
  rw [LogServer.run_append] at ran
  obtain ⟨s₃, ran₃, ran⟩ := Option.bind_eq_some.mp ran
  obtain ⟨s₄, subscribed, ran₄⟩ := LogServer.run_cons.mp ran
  have kept₃ := (LogServer.step_calls subscribed).trans (LogServer.run_calls ran₄)
  have window := LogServer.run_logs ran₁ ((LogServer.step_calls copied).trans ((LogServer.run_calls ran₃).trans kept₃))
    (show newLogServer.logs = ([] : List LogEntry).rtake maxLogs from (List.rtake_nil _).symm)
  -- the copy, taken by a stream that had written nothing and had no channel
  obtain ⟨st₁, _, found₁, copy, rfl⟩ := LogServer.step_stream_self copied
  obtain ⟨copying, rfl⟩ := Stream.step_copy copy
  obtain ⟨nothing, unsubscribed, empty⟩ :=
    LogServer.run_fresh ran₁ (fun _ => nofun) st₁ (List.mem_iff_getElem?.mpr ⟨h, found₁⟩) copying
  obtain ⟨st₃, found₃, copied₃⟩ := LogServer.run_copied ran₃
    (List.getElem?_set_self (List.getElem?_eq_some_iff.mp found₁).1) (.inl ⟨unsubscribed, empty, .inl ⟨rfl, nothing⟩⟩)
  -- the registration, by a stream that has written its whole history
  obtain ⟨st₃', _, found₃', subscribe, rfl⟩ := LogServer.step_stream_self subscribed
  have same := Option.some.inj (found₃.symm.trans found₃')
  subst same
  obtain ⟨subscribing, rfl⟩ := Stream.step_subscribe subscribe
  have wrote : st₃.written = s₁.logs := by
    rcases copied₃ with ⟨-, -, ⟨writing, -⟩ | ⟨-, wrote⟩⟩ | past
    · rw [writing] at subscribing; cases subscribing
    · exact wrote
    · simp only [Stream.Past, subscribing] at past
      rcases past with p | p | p <;> cases p
  obtain ⟨st, found, -, rest, written, order⟩ := LogServer.run_receiving ran₄ (List.prefix_refl _)
    (List.getElem?_set_self (List.getElem?_eq_some_iff.mp found₃).1)
    (show Stream.Receiving s₁.logs [] _ from ⟨.inl rfl, [], by simp [wrote], List.Sublist.refl _⟩)
  refine ⟨st, rest, found, by rw [written, window, List.nil_append], ?_⟩
  exact (List.sublist_append_left rest _).trans (by simpa using order)

/-- A run in which call 0 appends before the stream copies the buffer and fans out after the
    stream has registered: the stream writes the first entry twice. -/
theorem stream_writes_first_entry_twice :
    ∃ s, newLogServer.run ([.connect true, .addLog ⟨1, "INFO", "started"⟩, .append 0] ++ .stream 0 .copy ::
        ([.stream 0 .writeHistory] ++ .stream 0 .subscribe :: [.fanOut 0, .addLog ⟨2, "ERROR", "failed"⟩,
          .append 1, .fanOut 1, .stream 0 .receive, .stream 0 .receive])) = some s ∧
      (∃ st rest, s.streams[0]? = some st ∧
        st.written = (appendedBy s.calls [.connect true, .addLog ⟨1, "INFO", "started"⟩, .append 0]).rtake maxLogs ++
          rest ∧
        rest.Sublist (fannedBy s.calls [.fanOut 0, .addLog ⟨2, "ERROR", "failed"⟩, .append 1, .fanOut 1,
          .stream 0 .receive, .stream 0 .receive])) ∧
      s.streams.map Stream.written = [[⟨1, "INFO", "started"⟩, ⟨1, "INFO", "started"⟩, ⟨2, "ERROR", "failed"⟩]] :=
  ⟨_, rfl, @stream_writes_window_then_fanned _ [.connect true, .addLog ⟨1, "INFO", "started"⟩, .append 0]
    [.stream 0 .writeHistory] [.fanOut 0, .addLog ⟨2, "ERROR", "failed"⟩, .append 1, .fanOut 1, .stream 0 .receive,
      .stream 0 .receive] 0 rfl, rfl⟩

/-- The same run keeps both entries in the buffer. -/
theorem buffer_holds_both_logged :
    ∃ s, newLogServer.run [.connect true, .addLog ⟨1, "INFO", "started"⟩, .append 0, .stream 0 .copy,
        .stream 0 .writeHistory, .stream 0 .subscribe, .fanOut 0, .addLog ⟨2, "ERROR", "failed"⟩, .append 1,
        .fanOut 1, .stream 0 .receive, .stream 0 .receive] = some s ∧
      s.logs = (appendedBy s.calls [.connect true, .addLog ⟨1, "INFO", "started"⟩, .append 0, .stream 0 .copy,
        .stream 0 .writeHistory, .stream 0 .subscribe, .fanOut 0, .addLog ⟨2, "ERROR", "failed"⟩, .append 1,
        .fanOut 1, .stream 0 .receive, .stream 0 .receive]).rtake maxLogs ∧
      s.logs = [⟨1, "INFO", "started"⟩, ⟨2, "ERROR", "failed"⟩] :=
  ⟨_, rfl, buffer_holds_last_logged rfl, rfl⟩

end Pipeline

end SessionEngine.Dashboard
