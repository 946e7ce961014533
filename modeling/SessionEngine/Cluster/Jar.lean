import SessionEngine.Cluster.Versions

namespace SessionEngine.Cluster

/-- A `time.Time` as the instant it denotes: the whole seconds since the Unix epoch that
    `Unix()` returns (rounded down) and the nanoseconds past that second. -/
structure Time where
  unix : Int
  nsec : Fin 1000000000
  deriving DecidableEq, Repr

/-- `time.Time{}`, January 1 of year 1, 00:00:00 UTC. -/
def Time.zero : Time := ⟨-62135596800, 0⟩

/-- `t.IsZero()`. -/
def Time.isZero (t : Time) : Bool := t = Time.zero

/-- `time.Unix(sec, 0)`. -/
def Time.ofUnix (sec : Int) : Time := ⟨sec, 0⟩

/-- The fields of an `http.Cookie` that the conversions read or set. -/
structure HttpCookie where
  name : String
  value : String
  domain : String
  path : String
  expires : Time
  secure : Bool
  httpOnly : Bool
  deriving DecidableEq, Repr

/-- `c.ExpiresUnix > 0 && c.ExpiresUnix < now`, the test both read paths skip a cookie on. -/
def Cookie.expired (c : Cookie) (now : Int) : Bool :=
  0 < c.expiresUnix && c.expiresUnix < now

/-- The `http.Cookie` that `ToHTTPCookies` builds: its `Expires` is left zero. -/
def Cookie.toHttp (c : Cookie) : HttpCookie :=
  ⟨c.name, c.value, c.domain, c.path, Time.zero, c.secure, c.httpOnly⟩

/-- `GlobalCookieJar.ToHTTPCookies` at the clock reading `now`, over the entries in the
    order `Snapshot` takes them. -/
def toHTTPCookies (entries : List (String × Cookie)) (now : Int) : List HttpCookie :=
  entries.filterMap fun entry => if entry.2.expired now then none else some entry.2.toHttp

/-- The jar after `Store` was called with each batch in turn, from `NewGlobalCookieJar`. -/
def storeAll (batches : List (List Cookie)) : List (String × Cookie) :=
  batches.foldl storeEntries []

/-- The cookie stored last under `name` in a sequence of stored cookies. -/
def lastNamed (cookies : List Cookie) (name : String) : Option Cookie :=
  cookies.reverse.find? fun c => c.name = name

theorem lastNamed_cons (c : Cookie) (cookies : List Cookie) (name : String) :
    lastNamed (c :: cookies) name = (lastNamed cookies name).or (if c.name = name then some c else none) := by
  simp only [lastNamed, List.reverse_cons, List.find?_append, List.find?_singleton, decide_eq_true_eq]

/-- The map invariant of the jar: each entry sits under its cookie's name, once. -/
structure Keyed (entries : List (String × Cookie)) : Prop where
  named : ∀ entry ∈ entries, entry.1 = entry.2.name
  distinct : (entries.map Prod.fst).Nodup

theorem keys_putEntry (entries : List (String × Cookie)) (c : Cookie) :
    (putEntry entries c).map Prod.fst =
      if c.name ∈ entries.map Prod.fst then entries.map Prod.fst else entries.map Prod.fst ++ [c.name] := by
  induction entries with
  | nil => rfl
  | cons entry rest ih =>
    by_cases same : entry.1 = c.name
    · simp [putEntry, same]
    · have other : c.name ≠ entry.1 := Ne.symm same
      simp only [putEntry, same, if_false, List.map_cons, ih, List.mem_cons, other, false_or]
      split <;> rfl

theorem mem_putEntry {entries : List (String × Cookie)} {c : Cookie} {entry : String × Cookie}
    (member : entry ∈ putEntry entries c) : entry = (c.name, c) ∨ entry ∈ entries := by
  induction entries with
  | nil => simpa [putEntry] using member
  | cons head rest ih =>
    simp only [putEntry] at member
    split at member
    · rcases List.mem_cons.mp member with rfl | later
      · exact .inl rfl
      · exact .inr (List.mem_cons_of_mem _ later)
    · rcases List.mem_cons.mp member with rfl | later
      · exact .inr (List.mem_cons_self _ _)
      · exact (ih later).imp_right (List.mem_cons_of_mem _)

theorem Keyed.putEntry {entries : List (String × Cookie)} (keyed : Keyed entries) (c : Cookie) :
    Keyed (putEntry entries c) := by
  refine ⟨fun entry member => ?_, ?_⟩
  · rcases mem_putEntry member with rfl | old
    · rfl
    · exact keyed.named entry old
  · rw [keys_putEntry]
    split
    · exact keyed.distinct
    · rename_i absent
      refine List.pairwise_append.mpr ⟨keyed.distinct, List.pairwise_singleton _ _, fun a member b new => ?_⟩
      rw [List.mem_singleton.mp new]
      exact fun same => absent (same ▸ member)

@[simp] theorem snapshotCookies_cons (entry : String × Cookie) (rest : List (String × Cookie)) :
    snapshotCookies (entry :: rest) = entry.2 :: snapshotCookies rest := rfl

theorem Keyed.storeEntries {entries : List (String × Cookie)} (keyed : Keyed entries) (cookies : List Cookie) :
    Keyed (storeEntries entries cookies) := by
  induction cookies generalizing entries with
  | nil => exact keyed
  | cons c rest ih => exact ih (keyed.putEntry c)

/-- A cookie list `Snapshot` can return once the writes `history` have been made: the jar after
    the first `k` of them. -/
def StoredIn (history : List (List Cookie)) (cookies : List Cookie) : Prop :=
  ∃ k, cookies = snapshotCookies (storeAll (history.take k))

theorem StoredIn.append {history : List (List Cookie)} {cookies : List Cookie} (stored : StoredIn history cookies)
    (more : List (List Cookie)) : StoredIn (history ++ more) cookies := by
  obtain ⟨k, rfl⟩ := stored
  by_cases within : k ≤ history.length
  · exact ⟨k, by rw [List.take_append_of_le_length within]⟩
  · exact ⟨history.length, by rw [List.take_of_length_le (by omega), List.take_left' rfl]⟩

/-- A handler whose messages, sent, in hand or queued, are all snapshots. -/
def Watcher.Snapshots (history : List (List Cookie)) (w : Watcher) : Prop :=
  ∀ r ∈ w.messages, StoredIn history r.cookies

/-- The jar holds the run's writes, and every place a response sits in holds a snapshot of it
    after some of them. -/
structure Master.Snapshots (m : Master) : Prop where
  jar : m.entries = storeAll m.stored
  replies : ∀ r ∈ m.replies, StoredIn m.stored r.cookies
  fanning : ∀ i r, m.broadcasts i = some (.fanning r) → StoredIn m.stored r.cookies
  watchers : ∀ i w, m.watchers i = some w → w.Snapshots m.stored

variable {m m' : Master} {history : List (List Cookie)}

theorem Master.Snapshots.snapshot (snap : m.Snapshots) : StoredIn m.stored m.snapshot.cookies :=
  ⟨m.stored.length, by rw [Master.snapshot, snap.jar, List.take_length]⟩

theorem Watcher.Snapshots.of_subset {w w' : Watcher} (snap : w.Snapshots history) {extra : Response}
    (stored : StoredIn history extra.cookies) (sub : ∀ r ∈ w'.messages, r ∈ w.messages ∨ r = extra) :
    w'.Snapshots history :=
  fun r member => (sub r member).elim (snap r) fun same => same ▸ stored

theorem snapshots_update {ws : Nat → Option Watcher} (snap : ∀ j w, ws j = some w → w.Snapshots history) {i : Nat}
    {w : Watcher} (new : w.Snapshots history) :
    ∀ j v, Function.update ws i (some w) j = some v → v.Snapshots history := by
  intro j v found
  by_cases same : j = i
  · subst same
    cases (Function.update_same j _ ws).symm.trans found
    exact new
  · exact snap j v (by simpa [Function.update_noteq same] using found)

theorem snapshots_displace {ws : Nat → Option Watcher} (snap : ∀ j w, ws j = some w → w.Snapshots history) (i : Nat)
    (pcId : String) : ∀ j v, displace ws i pcId j = some v → v.Snapshots history := by
  intro j v found
  obtain ⟨u, stored, rfl⟩ := Option.map_eq_some'.mp found
  split
  · exact snap j u stored
  · exact snap j u stored

theorem snapshots_fanOut {ws : Nat → Option Watcher} (snap : ∀ j w, ws j = some w → w.Snapshots history)
    {r : Response} (stored : StoredIn history r.cookies) (subs : List (String × Nat)) :
    ∀ j v, fanOut subs ws r j = some v → v.Snapshots history := by
  induction subs generalizing ws with
  | nil => exact snap
  | cons entry rest ih =>
    refine ih fun j v found => ?_
    dsimp only at found
    rw [offer_apply] at found
    split at found
    · obtain ⟨u, found', rfl⟩ := Option.map_eq_some'.mp found
      refine (snap j u found').of_subset stored fun r' member => ?_
      unfold Watcher.offered at member
      split at member
      · simpa [Watcher.messages, or_assoc] using member
      · exact .inl member
    · exact snap j v found

theorem Master.Snapshots.setWatcher (snap : m.Snapshots) {i : Nat} {w w' : Watcher} (found : m.watchers i = some w)
    {extra : Response} (stored : StoredIn m.stored extra.cookies) (sub : ∀ r ∈ w'.messages, r ∈ w.messages ∨ r = extra) :
    (m.setWatcher i w').Snapshots :=
  { snap with watchers := snapshots_update snap.watchers ((snap.watchers i w found).of_subset stored sub) }

theorem Master.Snapshots.broadcastStep (snap : m.Snapshots) {i : Nat} (stepped : m.broadcastStep i = some m') :
    m'.Snapshots := by
  have kept : ∀ (p : BroadcastPc) (history : List (List Cookie)), (∀ r, p ≠ .fanning r) →
      (∀ j r, m.broadcasts j = some (.fanning r) → StoredIn history r.cookies) → ∀ j r,
      Function.update m.broadcasts i (some p) j = some (.fanning r) → StoredIn history r.cookies := by
    intro p history other fanning j r found
    by_cases same : j = i
    · subst same
      simp only [Function.update_same, Option.some.injEq] at found
      exact absurd found (other r)
    · exact fanning j r (by simpa [Function.update_noteq same] using found)
  rcases Master.broadcastStep_cases stepped with ⟨cookies, -, rfl⟩ | ⟨-, rfl⟩ | ⟨version, -, rfl⟩ | ⟨r, found, rfl⟩
  · exact ⟨by simp [storeAll, snap.jar], fun r member => (snap.replies r member).append _,
      kept _ _ (by simp) fun j r found => (snap.fanning j r found).append _,
      fun j w found r member => (snap.watchers j w found r member).append _⟩
  · exact { snap with fanning := kept _ _ (by simp) snap.fanning }
  · refine { snap with fanning := fun j r found => ?_ }
    by_cases same : j = i
    · subst same
      simp only [Function.update_same, Option.some.injEq, BroadcastPc.fanning.injEq] at found
      exact found ▸ snap.snapshot
    · exact snap.fanning j r (by simpa [Function.update_noteq same] using found)
  · exact ⟨snap.jar, snap.replies, kept _ _ (by simp) snap.fanning,
      snapshots_fanOut snap.watchers (snap.fanning i r found) _⟩

theorem Master.Snapshots.watchStep (snap : m.Snapshots) {i : Nat} (stepped : m.watchStep i = some m') :
    m'.Snapshots := by
  obtain ⟨w, found, cases⟩ := Master.watchStep_cases stepped
  have same : ∀ {w' : Watcher}, w'.messages = w.messages → ∀ r ∈ w'.messages, r ∈ w.messages ∨ r = m.snapshot :=
    fun messages r member => .inl (messages ▸ member)
  rcases cases with ⟨pc, rfl⟩ | ⟨pc, rfl⟩ | ⟨r, pc, rfl⟩ | ⟨r, rest, pc, ch, rfl⟩ | ⟨r, pc, rfl⟩ | ⟨pc, rfl⟩
  · refine { snap with watchers := snapshots_update (snapshots_displace snap.watchers i w.pcId) ?_ }
    exact (snap.watchers i w found).of_subset snap.snapshot (same (by simp [Watcher.messages, pc, WatchPc.inHand]))
  · exact snap.setWatcher found snap.snapshot fun r member => by
      simp only [Watcher.messages, pc, WatchPc.inHand, List.mem_append, List.mem_singleton, List.append_nil] at member ⊢
      tauto
  · exact snap.setWatcher found snap.snapshot (same (by simp [Watcher.messages, pc, WatchPc.inHand]))
  · exact snap.setWatcher found snap.snapshot (same (by simp [Watcher.messages, pc, ch, WatchPc.inHand]))
  · exact snap.setWatcher found snap.snapshot (same (by simp [Watcher.messages, pc, WatchPc.inHand]))
  · refine { snap with watchers := snapshots_update (snapshots_displace snap.watchers i w.pcId) ?_ }
    exact (snap.watchers i w found).of_subset snap.snapshot (same (by simp [Watcher.messages, pc, WatchPc.inHand]))

theorem Master.Snapshots.step (snap : m.Snapshots) {a : MasterAction} (stepped : m.step a = some m') :
    m'.Snapshots := by
  cases a with
  | broadcastCookie cookies =>
    cases stepped
    refine { snap with fanning := fun j r found => ?_ }
    by_cases same : j = m.calls
    · subst same
      simp only [Function.update_same, Option.some.injEq] at found
      split at found <;> cases found
    · exact snap.fanning j r (by simpa [Function.update_noteq same] using found)
  | watchCookies pcId =>
    cases stepped
    refine { snap with watchers := snapshots_update snap.watchers fun r member => ?_ }
    split at member <;> simp [Watcher.messages, WatchPc.inHand] at member
  | getGlobalCookies =>
    cases stepped
    refine { snap with replies := fun r member => ?_ }
    rcases List.mem_append.mp member with old | new
    · exact snap.replies r old
    · exact (List.mem_singleton.mp new) ▸ snap.snapshot
  | broadcast i => exact snap.broadcastStep stepped
  | watch i => exact snap.watchStep stepped
  | cancel i =>
    obtain ⟨w, found, pc, rfl⟩ := Master.cancel_cases stepped
    exact snap.setWatcher found snap.snapshot fun r member => .inl (by
      simpa [Watcher.messages, pc, WatchPc.inHand] using member)
  | sendFails i =>
    obtain ⟨w, found, -, rfl⟩ := Master.sendFails_cases stepped
    exact snap.setWatcher found snap.snapshot fun r member => .inl (by
      simp only [Watcher.messages, WatchPc.inHand, List.append_nil, List.mem_append] at member ⊢
      tauto)

theorem Master.Reachable.snapshots {allowed : Master → MasterAction → Prop} (reach : m.Reachable allowed) :
    m.Snapshots := by
  induction reach with
  | init => exact ⟨rfl, by simp [Master.init], by simp [Master.init], by simp [Master.init]⟩
  | step _ _ stepped snap => exact snap.step stepped

end SessionEngine.Cluster
