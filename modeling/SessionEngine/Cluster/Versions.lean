import SessionEngine.Cluster.Subscribers

namespace SessionEngine.Cluster

theorem snapshot_pairs_stale_version {m : Master} (reach : m.Reachable fun _ _ => True)
    {cookies : List Cookie} (nonempty : cookies ≠ []) :
    ∃ m' : Master, m'.Reachable (fun _ _ => True) ∧ m'.replies = m.replies ++
      [⟨snapshotCookies m.entries, m.version⟩, ⟨snapshotCookies (storeEntries m.entries cookies), m.version⟩] := by
  have calling := (reach.step trivial m.step_getGlobalCookies).step trivial
    (Master.step_broadcastCookie _ nonempty)
  have stored := calling.step trivial (Master.step_store (i := m.calls) (Function.update_same _ _ _))
  exact ⟨_, stored.step trivial (Master.step_getGlobalCookies _), by simp [Master.snapshot]⟩

theorem snapshot_pairs_stale_version_from_init :
    ∃ m' : Master, m'.Reachable (fun _ _ => True) ∧ m'.replies = [⟨[], 0⟩, ⟨[pushed], 0⟩] :=
  snapshot_pairs_stale_version Master.Reachable.init (List.cons_ne_nil pushed [])

/-- A `BroadcastCookie` call past its argument check that has not returned. -/
def BroadcastPc.inFlight : BroadcastPc → Bool
  | .storing _ | .adding | .snapshotting _ | .fanning _ => true
  | .done | .rejected => false

/-- A `BroadcastCookie` call past its locked write to the jar that has not returned. -/
def BroadcastPc.stored : BroadcastPc → Bool
  | .adding | .snapshotting _ | .fanning _ => true
  | .storing _ | .done | .rejected => false

/-- A handler that has registered and whose stream is still open. -/
def WatchPc.connected : WatchPc → Bool
  | .snapshotting | .sendingInitial _ | .streaming | .forwarding _ => true
  | .registering | .exiting | .exited | .rejected => false

/-- The message a handler holds between taking it and its `stream.Send`. -/
def WatchPc.inHand : WatchPc → List Response
  | .sendingInitial response | .forwarding response => [response]
  | _ => []

/-- The update a handler holds between `<-ch` and its `stream.Send`. -/
def WatchPc.forwarded : WatchPc → List Response
  | .forwarding response => [response]
  | _ => []

/-- The messages of a stream in the order the client receives them. -/
def Watcher.messages (w : Watcher) : List Response :=
  w.sent ++ w.pc.inHand ++ w.ch

/-- The messages of a stream after its initial snapshot. -/
def Watcher.updates (w : Watcher) : List Response :=
  w.sent.drop 1 ++ w.pc.forwarded ++ w.ch

/-- A `BroadcastCookie` call past its `version.Add(1)` that has not returned. -/
def BroadcastPc.added : BroadcastPc → Bool
  | .snapshotting _ | .fanning _ => true
  | .storing _ | .adding | .done | .rejected => false

theorem WatchPc.live_of_connected {p : WatchPc} (connected : p.connected = true) : p.live = true := by
  cases p <;> simp_all [WatchPc.connected, WatchPc.live]

theorem BroadcastPc.inFlight_of_stored {p : BroadcastPc} (stored : p.stored = true) : p.inFlight = true := by
  cases p <;> simp_all [BroadcastPc.stored, BroadcastPc.inFlight]

theorem BroadcastPc.inFlight_of_added {p : BroadcastPc} (added : p.added = true) : p.inFlight = true := by
  cases p <;> simp_all [BroadcastPc.added, BroadcastPc.inFlight]

def Master.busy (m : Master) : Prop :=
  ∃ b p, m.broadcasts b = some p ∧ p.stored = true

def Master.advanced (m : Master) : Prop :=
  ∃ b p, m.broadcasts b = some p ∧ p.added = true

/-- What each handler keeps when broadcasts do not overlap: its updates have increasing
    versions, none above the jar's and all below it once a broadcast has added its version,
    and the last message of an open stream carries the jar unless a broadcast has stored and
    not yet fanned out. -/
structure Watcher.Fits (w : Watcher) (version : Nat) (jar : List Cookie) (busy advanced : Prop) : Prop where
  idle : w.pc = .registering → w.sent = [] ∧ w.ch = []
  opening : w.pc = .snapshotting ∨ (∃ r, w.pc = .sendingInitial r) → w.sent = []
  opened : w.pc = .streaming ∨ (∃ r, w.pc = .forwarding r) → w.sent ≠ []
  sorted : w.updates.Pairwise (fun a b => a.version < b.version)
  bounded : ∀ u ∈ w.updates, u.version ≤ version
  newer : advanced → ∀ u ∈ w.updates, u.version < version
  latest : w.pc.connected = true → busy ∨ ∀ last, w.messages.getLast? = some last → last.cookies = jar

section Fits

variable {w : Watcher} {version : Nat} {jar : List Cookie} {busy advanced : Prop} {r : Response}

theorem Watcher.Fits.register (fits : w.Fits version jar busy advanced) (pc : w.pc = .registering) :
    ({ w with pc := .snapshotting, displaced := false } : Watcher).Fits version jar busy advanced := by
  obtain ⟨sent, ch⟩ := fits.idle pc
  have same : ({ w with pc := .snapshotting, displaced := false } : Watcher).updates = w.updates := by
    simp [Watcher.updates, pc, WatchPc.forwarded]
  refine ⟨nofun, fun _ => sent, by simp, same ▸ fits.sorted, same ▸ fits.bounded, same ▸ fits.newer,
    fun _ => .inr ?_⟩
  simp [Watcher.messages, sent, ch, WatchPc.inHand]

theorem Watcher.Fits.snapshot (fits : w.Fits version jar busy advanced) (pc : w.pc = .snapshotting)
    (current : r.cookies = jar) : ({ w with pc := .sendingInitial r } : Watcher).Fits version jar busy advanced := by
  have sent := fits.opening (.inl pc)
  have same : ({ w with pc := .sendingInitial r } : Watcher).updates = w.updates := by
    simp [Watcher.updates, pc, WatchPc.forwarded]
  refine ⟨nofun, fun _ => sent, by simp, same ▸ fits.sorted, same ▸ fits.bounded, same ▸ fits.newer,
    fun _ => ?_⟩
  rcases (fits.latest (by simp [pc, WatchPc.connected])) with busy | latest
  · exact .inl busy
  refine .inr fun last found => ?_
  cases ch : w.ch with
  | nil => simp_all [Watcher.messages, WatchPc.inHand]
  | cons first rest =>
    apply latest
    simpa [Watcher.messages, sent, ch, pc, WatchPc.inHand, List.getLast?_cons] using found

theorem Watcher.Fits.move {w' : Watcher} (fits : w.Fits version jar busy advanced) (updates : w'.updates = w.updates)
    (messages : w'.messages = w.messages) (connected : w.pc.connected = true) (opened : w'.sent ≠ [])
    (streams : w'.pc = .streaming ∨ ∃ r, w'.pc = .forwarding r) : w'.Fits version jar busy advanced := by
  have early : w'.pc ≠ .registering ∧ w'.pc ≠ .snapshotting ∧ ∀ r, w'.pc ≠ .sendingInitial r := by
    rcases streams with pc | ⟨_, pc⟩ <;> simp [pc]
  refine ⟨fun pc => absurd pc early.1, ?_, fun _ => opened, updates ▸ fits.sorted, updates ▸ fits.bounded,
    updates ▸ fits.newer, fun _ => messages ▸ fits.latest connected⟩
  rintro (pc | ⟨r, pc⟩)
  · exact absurd pc early.2.1
  · exact absurd pc (early.2.2 r)

theorem Watcher.Fits.sendInitial (fits : w.Fits version jar busy advanced) (pc : w.pc = .sendingInitial r) :
    ({ w with pc := .streaming, sent := w.sent ++ [r] } : Watcher).Fits version jar busy advanced := by
  have sent := fits.opening (.inr ⟨r, pc⟩)
  exact fits.move (by simp [Watcher.updates, sent, pc, WatchPc.forwarded])
    (by simp [Watcher.messages, sent, pc, WatchPc.inHand]) (by simp [pc, WatchPc.connected]) (by simp)
    (.inl rfl)

theorem Watcher.Fits.receive {rest : List Response} (fits : w.Fits version jar busy advanced) (pc : w.pc = .streaming)
    (ch : w.ch = r :: rest) : ({ w with pc := .forwarding r, ch := rest } : Watcher).Fits version jar busy advanced :=
  fits.move (by simp [Watcher.updates, pc, ch, WatchPc.forwarded])
    (by simp [Watcher.messages, pc, ch, WatchPc.inHand]) (by simp [pc, WatchPc.connected])
    (fits.opened (.inl pc)) (.inr ⟨r, rfl⟩)

theorem Watcher.Fits.forward (fits : w.Fits version jar busy advanced) (pc : w.pc = .forwarding r) :
    ({ w with pc := .streaming, sent := w.sent ++ [r] } : Watcher).Fits version jar busy advanced := by
  have sent := fits.opened (.inr ⟨r, pc⟩)
  have dropped : (w.sent ++ [r]).drop 1 = w.sent.drop 1 ++ [r] :=
    List.drop_append_of_le_length (List.length_pos.mpr sent)
  exact fits.move (by simp [Watcher.updates, dropped, pc, WatchPc.forwarded])
    (by simp [Watcher.messages, pc, WatchPc.inHand]) (by simp [pc, WatchPc.connected]) (by simp) (.inl rfl)

theorem Watcher.updates_leave (w : Watcher) {p : WatchPc} (leaving : p = .exiting ∨ p = .exited) :
    ({ w with pc := p } : Watcher).updates.Sublist w.updates := by
  have none : p.forwarded = [] := by rcases leaving with rfl | rfl <;> rfl
  simp only [Watcher.updates, none, List.append_nil]
  exact (List.sublist_append_left _ _).append (List.Sublist.refl _)

theorem Watcher.Fits.leave {p : WatchPc} (fits : w.Fits version jar busy advanced) (leaving : p = .exiting ∨ p = .exited) :
    ({ w with pc := p } : Watcher).Fits version jar busy advanced := by
  have within := w.updates_leave leaving
  rcases leaving with rfl | rfl
  all_goals exact ⟨nofun, by simp, by simp, fits.sorted.sublist within,
    fun u member => fits.bounded u (within.subset member),
    fun advanced u member => fits.newer advanced u (within.subset member), nofun⟩

theorem Watcher.Fits.fresh {pcId : String} {p : WatchPc} (idle : p = .registering ∨ p = .rejected) :
    (⟨pcId, p, [], [], false⟩ : Watcher).Fits version jar busy advanced := by
  rcases idle with rfl | rfl
  all_goals exact ⟨by simp, by simp, by simp, by simp [Watcher.updates, WatchPc.forwarded],
    by simp [Watcher.updates, WatchPc.forwarded], by simp [Watcher.updates, WatchPc.forwarded],
    by simp [WatchPc.connected]⟩

theorem Watcher.Fits.congr {busy' advanced' : Prop} (fits : w.Fits version jar busy advanced)
    (busier : busy → busy') (settled : advanced' → advanced) : w.Fits version jar busy' advanced' :=
  ⟨fits.idle, fits.opening, fits.opened, fits.sorted, fits.bounded, fun a => fits.newer (settled a),
    fun connected => (fits.latest connected).imp_left busier⟩

theorem Watcher.Fits.weaken {version' : Nat} {jar' : List Cookie} {busy' advanced' : Prop}
    (fits : w.Fits version jar busy advanced) (le : version ≤ version') (busy'' : busy')
    (newer : advanced' → ∀ u ∈ w.updates, u.version < version') : w.Fits version' jar' busy' advanced' :=
  ⟨fits.idle, fits.opening, fits.opened, fits.sorted, fun u member => (fits.bounded u member).trans le, newer,
    fun _ => .inl busy''⟩

theorem Watcher.Fits.closed {jar' : List Cookie} {busy' advanced' : Prop} (fits : w.Fits version jar busy advanced)
    (closed : w.pc.connected = false) (newer : advanced' → ∀ u ∈ w.updates, u.version < version) :
    w.Fits version jar' busy' advanced' :=
  ⟨fits.idle, fits.opening, fits.opened, fits.sorted, fits.bounded, newer, fun connected => by simp_all⟩

theorem Watcher.Fits.offered {busy' advanced' : Prop} (fits : w.Fits version jar busy advanced)
    (live : w.pc.live = true) (room : w.ch.length < watchBuffer) (above : ∀ u ∈ w.updates, u.version < r.version)
    (current : r.version = version) (jarred : r.cookies = jar) (settled : ¬advanced') :
    (w.offered r).Fits version jar busy' advanced' := by
  have offered : w.offered r = { w with ch := w.ch ++ [r] } := if_pos room
  have updates : ({ w with ch := w.ch ++ [r] } : Watcher).updates = w.updates ++ [r] := by
    simp [Watcher.updates]
  rw [offered]
  refine ⟨fun (pc : w.pc = .registering) => by simp [pc, WatchPc.live] at live, fits.opening, fits.opened, ?_, ?_,
    fun a => absurd a settled, fun _ => .inr fun last found => ?_⟩
  · rw [updates]
    exact List.pairwise_append.mpr ⟨fits.sorted, List.pairwise_singleton _ _,
      fun a member b single => (List.mem_singleton.mp single) ▸ above a member⟩
  · rw [updates]
    intro u member
    rcases List.mem_append.mp member with member | single
    · exact fits.bounded u member
    · rw [List.mem_singleton.mp single, current]
  · simp [Watcher.messages] at found
    rw [← found, jarred]

end Fits

/-- Sequential broadcasts: a `BroadcastCookie` call starts only once every earlier one has
    returned, a single `WatchCookies` call is ever made, and its channel never fills. -/
def Sequential (m : Master) : MasterAction → Prop
  | .broadcastCookie _ => ∀ b p, m.broadcasts b = some p → p.inFlight = false
  | .watchCookies _ => ∀ i, m.watchers i = none
  | .broadcast b => ∀ r, m.broadcasts b = some (.fanning r) →
      ∀ i w, m.watchers i = some w → w.ch.length < watchBuffer
  | _ => True

/-- What a sequential run keeps: at most one handler, never displaced; at most one broadcast
    in flight, whose snapshot, once taken, is the jar at its own version; every handler fits
    the jar. -/
structure Master.Ordered (m : Master) : Prop where
  subscribed : m.Subscribed
  single : ∀ i j w v, m.watchers i = some w → m.watchers j = some v → i = j
  kept : ∀ i w, m.watchers i = some w → w.displaced = false
  alone : ∀ b b' p p', m.broadcasts b = some p → m.broadcasts b' = some p' → p.inFlight = true →
    p'.inFlight = true → b = b'
  snapshotting : ∀ b v, m.broadcasts b = some (.snapshotting v) → v = m.version
  fanning : ∀ b r, m.broadcasts b = some (.fanning r) → r = m.snapshot
  fits : ∀ i w, m.watchers i = some w → w.Fits m.version (snapshotCookies m.entries) m.busy m.advanced

section Ordered

variable {m m' : Master} {bs : Nat → Option BroadcastPc} {b : Nat} {p' : BroadcastPc}

theorem update_flag_iff {f : BroadcastPc → Bool} (flight : ∀ q, f q = true → q.inFlight = true)
    (others : ∀ x q, bs x = some q → q.inFlight = true → x = b) :
    (∃ x q, Function.update bs b (some p') x = some q ∧ f q = true) ↔ f p' = true := by
  constructor
  · rintro ⟨x, q, found, flag⟩
    by_cases same : x = b
    · subst same
      simp only [Function.update_same, Option.some.injEq] at found
      exact found ▸ flag
    · rw [Function.update_noteq same] at found
      exact absurd (others x q found (flight q flag)) same
  · exact fun flag => ⟨b, p', Function.update_same _ _ _, flag⟩

theorem update_index {x : Nat} {q : BroadcastPc} (others : ∀ x q, bs x = some q → q.inFlight = true → x = b)
    (found : Function.update bs b (some p') x = some q) (flight : q.inFlight = true) : x = b := by
  by_contra same
  rw [Function.update_noteq same] at found
  exact same (others x q found flight)

theorem update_phase {x : Nat} {q : BroadcastPc} (others : ∀ x q, bs x = some q → q.inFlight = true → x = b)
    (found : Function.update bs b (some p') x = some q) (flight : q.inFlight = true) : q = p' := by
  rw [update_index others found flight, Function.update_same, Option.some.injEq] at found
  exact found.symm

theorem Master.init_ordered : Master.init.Ordered :=
  ⟨Master.init_subscribed, fun _ _ _ _ found => (nomatch found), fun _ _ found => (nomatch found),
    fun _ _ _ _ found => (nomatch found), fun _ _ found => (nomatch found), fun _ _ found => (nomatch found),
    fun _ _ found => (nomatch found)⟩

theorem Master.Ordered.rephase (ord : m.Ordered) {p : BroadcastPc} (found : m.broadcasts b = some p)
    (flight : p.inFlight = true)
    (broadcasts : m'.broadcasts = Function.update m.broadcasts b (some p')) (watchers : m'.watchers = m.watchers)
    (sub : m'.Subscribed) (snapshotting : ∀ v, p' = .snapshotting v → v = m'.version)
    (fanning : ∀ r, p' = .fanning r → r = m'.snapshot)
    (fits : ∀ i w, m.watchers i = some w →
      w.Fits m'.version (snapshotCookies m'.entries) (p'.stored = true) (p'.added = true)) : m'.Ordered := by
  have others : ∀ x q, m.broadcasts x = some q → q.inFlight = true → x = b :=
    fun x q found' flight'' => ord.alone x b q p found' found flight'' flight
  have flagged : ∀ {f : BroadcastPc → Bool}, (∀ q, f q = true → q.inFlight = true) →
      ((∃ x q, m'.broadcasts x = some q ∧ f q = true) ↔ f p' = true) := by
    intro f implies
    rw [broadcasts]
    exact update_flag_iff implies others
  refine ⟨sub, watchers ▸ ord.single, watchers ▸ ord.kept, fun x y q q' found₁ found₂ flight₁ flight₂ => ?_,
    fun x v found' => snapshotting v ?_, fun x r found' => fanning r ?_, fun i w found' => ?_⟩
  · rw [broadcasts] at found₁ found₂
    exact (update_index others found₁ flight₁).trans (update_index others found₂ flight₂).symm
  · rw [broadcasts] at found'
    exact (update_phase others found' rfl).symm
  · rw [broadcasts] at found'
    exact (update_phase others found' rfl).symm
  · rw [watchers] at found'
    exact (fits i w found').congr (flagged fun _ => BroadcastPc.inFlight_of_stored).mpr
      (flagged fun _ => BroadcastPc.inFlight_of_added).mp

theorem Master.Subscribed.live_of_mem (sub : m.Subscribed) {j : Nat} {w : Watcher}
    (member : j ∈ m.subs.map Prod.snd) (found : m.watchers j = some w) : w.pc.live = true := by
  obtain ⟨entry, listed, rfl⟩ := List.mem_map.mp member
  obtain ⟨v, owned, -, live⟩ := sub.owners entry listed
  rw [found] at owned
  cases owned
  exact live

theorem Master.Ordered.call (ord : m.Ordered) {cookies : List Cookie}
    (idle : ∀ b p, m.broadcasts b = some p → p.inFlight = false)
    (sub : ({ m with
      broadcasts := Function.update m.broadcasts m.calls (some (if cookies.isEmpty then .rejected else .storing cookies)),
      calls := m.calls + 1 } : Master).Subscribed) :
    ({ m with
      broadcasts := Function.update m.broadcasts m.calls (some (if cookies.isEmpty then .rejected else .storing cookies)),
      calls := m.calls + 1 } : Master).Ordered := by
  have others : ∀ x q, m.broadcasts x = some q → q.inFlight = true → x = m.calls :=
    fun x q found flight => absurd flight (by simp [idle x q found])
  have quiet : ∀ (p : BroadcastPc), p = (if cookies.isEmpty then .rejected else .storing cookies) →
      p.stored = false ∧ p.added = false := by
    intro p new
    split at new <;> subst new <;> exact ⟨rfl, rfl⟩
  refine ⟨sub, ord.single, ord.kept, fun x y q q' found₁ found₂ flight₁ flight₂ =>
      (update_index others found₁ flight₁).trans (update_index others found₂ flight₂).symm,
    fun x v found => ?_, fun x r found => ?_, fun i w found => (ord.fits i w found).congr ?_ ?_⟩
  · have := quiet _ (update_phase others found rfl)
    simp [BroadcastPc.added] at this
  · have := quiet _ (update_phase others found rfl)
    simp [BroadcastPc.added] at this
  · rintro ⟨x, q, found, stored⟩
    exact absurd (BroadcastPc.inFlight_of_stored stored) (by simp [idle x q found])
  · rintro ⟨x, q, found, added⟩
    have := quiet _ (update_phase others found (BroadcastPc.inFlight_of_added added))
    simp [added] at this

theorem Master.Ordered.spawn (ord : m.Ordered) {pcId : String} (none : ∀ i, m.watchers i = none)
    (sub : ({ m with
      watchers := Function.update m.watchers m.calls (some ⟨pcId, if pcId.isEmpty then .rejected else .registering, [], [], false⟩),
      calls := m.calls + 1 } : Master).Subscribed) :
    ({ m with
      watchers := Function.update m.watchers m.calls (some ⟨pcId, if pcId.isEmpty then .rejected else .registering, [], [], false⟩),
      calls := m.calls + 1 } : Master).Ordered := by
  have only : ∀ j v, Function.update m.watchers m.calls
      (some ⟨pcId, if pcId.isEmpty then .rejected else .registering, [], [], false⟩) j = some v →
      j = m.calls ∧ v = ⟨pcId, if pcId.isEmpty then .rejected else .registering, [], [], false⟩ := by
    intro j v found
    by_cases same : j = m.calls
    · subst same
      simp only [Function.update_same, Option.some.injEq] at found
      exact ⟨rfl, found.symm⟩
    · simp [Function.update_noteq same, none] at found
  refine ⟨sub, fun j k v u found₁ found₂ => (only j v found₁).1.trans (only k u found₂).1.symm,
    fun j v found => by rw [(only j v found).2], ord.alone, ord.snapshotting, ord.fanning,
    fun j v found => ?_⟩
  rw [(only j v found).2]
  exact Watcher.Fits.fresh (by split <;> simp)

theorem Master.Ordered.replace (ord : m.Ordered) {i : Nat} {w w' : Watcher} {subs : List (String × Nat)}
    (found : m.watchers i = some w)
    (sub : ({ m with subs := subs, watchers := Function.update m.watchers i (some w') } : Master).Subscribed)
    (kept : w'.displaced = false) (fits : w'.Fits m.version (snapshotCookies m.entries) m.busy m.advanced) :
    ({ m with subs := subs, watchers := Function.update m.watchers i (some w') } : Master).Ordered := by
  have only : ∀ j v, Function.update m.watchers i (some w') j = some v → j = i ∧ v = w' := by
    intro j v found'
    by_cases same : j = i
    · subst same
      simp only [Function.update_same, Option.some.injEq] at found'
      exact ⟨rfl, found'.symm⟩
    · rw [Function.update_noteq same] at found'
      exact absurd (ord.single j i v w found' found) same
  refine ⟨sub, fun j k v u found₁ found₂ => (only j v found₁).1.trans (only k u found₂).1.symm,
    fun j v found' => by rw [(only j v found').2, kept], ord.alone, ord.snapshotting, ord.fanning,
    fun j v found' => by rw [(only j v found').2]; exact fits⟩

theorem Master.Ordered.fan (ord : m.Ordered) {r : Response} (found : m.broadcasts b = some (.fanning r))
    (room : ∀ i w, m.watchers i = some w → w.ch.length < watchBuffer)
    (sub : ({ m with watchers := fanOut m.subs m.watchers r,
                     broadcasts := Function.update m.broadcasts b (some .done) } : Master).Subscribed) :
    ({ m with watchers := fanOut m.subs m.watchers r,
              broadcasts := Function.update m.broadcasts b (some .done) } : Master).Ordered := by
  have others : ∀ x q, m.broadcasts x = some q → q.inFlight = true → x = b :=
    fun x q found' flight => ord.alone x b q _ found' found flight rfl
  have finished : ∀ x q, Function.update m.broadcasts b (some .done) x = some q → q.inFlight = false := by
    intro x q found'
    by_contra flight
    have done := update_phase others found' (by simpa using flight)
    subst done
    exact flight rfl
  have settled : ¬ ∃ x q, Function.update m.broadcasts b (some .done) x = some q ∧ q.added = true :=
    fun ⟨x, q, found', added⟩ => absurd (BroadcastPc.inFlight_of_added added) (by simp [finished x q found'])
  have current := ord.fanning b r found
  have back : ∀ j v, fanOut m.subs m.watchers r j = some v → ∃ w, m.watchers j = some w ∧
      (j ∈ m.subs.map Prod.snd ∧ v = w.offered r ∨ j ∉ m.subs.map Prod.snd ∧ v = w) := by
    intro j v found'
    rw [fanOut_apply ord.subscribed.distinct] at found'
    split at found'
    · obtain ⟨w, stored, rfl⟩ := Option.map_eq_some'.mp found'
      exact ⟨w, stored, .inl ⟨‹_›, rfl⟩⟩
    · exact ⟨v, found', .inr ⟨‹_›, rfl⟩⟩
  refine ⟨sub, fun j k v u found₁ found₂ => ?_, fun j v found' => ?_,
    fun x _ q _ found' _ flight _ => absurd flight (by simp [finished x q found']),
    fun x v found' => absurd (finished x _ found') (by simp [BroadcastPc.inFlight]),
    fun x r found' => absurd (finished x _ found') (by simp [BroadcastPc.inFlight]), fun j v found' => ?_⟩
  · obtain ⟨w, stored₁, -⟩ := back j v found₁
    obtain ⟨w', stored₂, -⟩ := back k u found₂
    exact ord.single j k w w' stored₁ stored₂
  · obtain ⟨w, stored, ⟨-, rfl⟩ | ⟨-, rfl⟩⟩ := back j v found'
    · exact (congrArg (·.2.2) (Watcher.view_offered r w)).trans (ord.kept j w stored)
    · exact ord.kept j _ stored
  · obtain ⟨w, stored, ⟨member, rfl⟩ | ⟨member, same⟩⟩ := back j v found'
    · have fits := ord.fits j w stored
      have newer := fits.newer ⟨b, _, found, rfl⟩
      exact fits.offered (ord.subscribed.live_of_mem member stored) (room j w stored)
        (by rw [current]; exact newer) (by rw [current]; rfl) (by rw [current]; rfl) settled
    · rw [same]
      have closed : w.pc.connected = false := Bool.eq_false_iff.mpr fun connected => member
        (List.mem_map.mpr ⟨_, ord.subscribed.registered j w stored (WatchPc.live_of_connected connected)
          (ord.kept j w stored), rfl⟩)
      exact (ord.fits j w stored).closed closed fun advanced => absurd advanced settled

theorem displace_alone {ws : Nat → Option Watcher} {i : Nat} {pcId : String} {x : Option Watcher}
    (only : ∀ j v, ws j = some v → j = i) : Function.update (displace ws i pcId) i x = Function.update ws i x := by
  funext j
  by_cases same : j = i
  · subst same
    simp
  · cases found : ws j with
    | none => simp [Function.update_noteq same, displace, found]
    | some v => exact absurd (only j v found) same

theorem Master.Ordered.step {a : MasterAction} (ord : m.Ordered) (allowed : Sequential m a)
    (stepped : m.step a = some m') : m'.Ordered := by
  have sub := ord.subscribed.step stepped
  cases a with
  | broadcastCookie cookies =>
    cases stepped
    exact ord.call allowed sub
  | watchCookies pcId =>
    cases stepped
    exact ord.spawn allowed sub
  | getGlobalCookies =>
    cases stepped
    exact ⟨sub, ord.single, ord.kept, ord.alone, ord.snapshotting, ord.fanning, ord.fits⟩
  | broadcast b =>
    rcases Master.broadcastStep_cases stepped with ⟨cookies, found, rfl⟩ | ⟨found, rfl⟩ | ⟨v, found, rfl⟩ |
      ⟨r, found, rfl⟩
    · exact ord.rephase found rfl rfl rfl sub nofun nofun
        fun i w found' => (ord.fits i w found').weaken le_rfl rfl nofun
    · exact ord.rephase found rfl rfl rfl sub (fun v same => by cases same; rfl) nofun
        fun i w found' => (ord.fits i w found').weaken (Nat.le_succ _) rfl
          fun _ u member => Nat.lt_succ_of_le ((ord.fits i w found').bounded u member)
    · have current := ord.snapshotting b v found
      subst current
      exact ord.rephase found rfl rfl rfl sub nofun (fun r same => by cases same; rfl)
        fun i w found' => (ord.fits i w found').weaken le_rfl rfl
          fun _ => (ord.fits i w found').newer ⟨b, _, found, rfl⟩
    · exact ord.fan found (allowed r found) sub
  | watch i =>
    obtain ⟨w, found, cases⟩ := Master.watchStep_cases stepped
    have fits := ord.fits i w found
    have kept := ord.kept i w found
    have alone : ∀ x, Function.update (displace m.watchers i w.pcId) i x = Function.update m.watchers i x :=
      fun x => displace_alone fun j v found' => ord.single j i v w found' found
    rcases cases with ⟨pc, rfl⟩ | ⟨pc, rfl⟩ | ⟨r, pc, rfl⟩ | ⟨r, rest, pc, ch, rfl⟩ | ⟨r, pc, rfl⟩ | ⟨-, rfl⟩
    · rw [alone] at sub ⊢
      exact ord.replace found sub rfl (fits.register pc)
    · exact ord.replace found sub kept (fits.snapshot pc rfl)
    · exact ord.replace found sub kept (fits.sendInitial pc)
    · exact ord.replace found sub kept (fits.receive pc ch)
    · exact ord.replace found sub kept (fits.forward pc)
    · rw [alone] at sub ⊢
      exact ord.replace found sub kept (fits.leave (.inr rfl))
  | cancel i =>
    obtain ⟨w, found, -, rfl⟩ := Master.cancel_cases stepped
    exact ord.replace found sub (ord.kept i w found) ((ord.fits i w found).leave (.inl rfl))
  | sendFails i =>
    obtain ⟨w, found, -, rfl⟩ := Master.sendFails_cases stepped
    exact ord.replace found sub (ord.kept i w found) ((ord.fits i w found).leave (.inl rfl))

theorem Master.Reachable.ordered (reach : m.Reachable Sequential) : m.Ordered := by
  induction reach with
  | init => exact Master.init_ordered
  | step _ allowed stepped ord => exact ord.step allowed stepped

end Ordered

theorem sequential_subscriber_stays_current {m : Master} (reach : m.Reachable Sequential) {i : Nat}
    {w : Watcher} (found : m.watchers i = some w) :
    (w.sent.drop 1).Pairwise (fun a b => a.version < b.version) ∧
    (w.pc = .streaming → w.ch = [] → (∀ b p, m.broadcasts b = some p → p.inFlight = false) →
      ∃ last, w.sent.getLast? = some last ∧ last.cookies = snapshotCookies m.entries) := by
  have fits := reach.ordered.fits i w found
  refine ⟨fits.sorted.sublist ?_, fun streaming drained quiet => ?_⟩
  · simp only [Watcher.updates, List.append_assoc]
    exact List.sublist_append_left _ _
  rcases fits.latest (by simp [streaming, WatchPc.connected]) with ⟨b, p, found', stored⟩ | latest
  · exact absurd (BroadcastPc.inFlight_of_stored stored) (by simp [quiet b p found'])
  obtain ⟨last, final⟩ := Option.ne_none_iff_exists'.mp
    (mt List.getLast?_eq_none_iff.mp (fits.opened (.inl streaming)))
  refine ⟨last, final, latest last ?_⟩
  simpa [Watcher.messages, streaming, drained, WatchPc.inHand] using final

theorem sequential_subscriber_stays_current_after_push :
    ∃ (m : Master) (w : Watcher), m.Reachable Sequential ∧ m.watchers 0 = some w ∧
      ((w.sent.drop 1).Pairwise (fun a b => a.version < b.version) ∧
      (w.pc = .streaming → w.ch = [] → (∀ b p, m.broadcasts b = some p → p.inFlight = false) →
        ∃ last, w.sent.getLast? = some last ∧ last.cookies = snapshotCookies m.entries)) := by
  have opened := ((((Master.Reachable.init : Master.init.Reachable Sequential).step (a := .watchCookies "pc-A")
    (fun _ => rfl) rfl).step (a := .watch 0) trivial rfl).step (a := .watch 0) trivial rfl).step
      (a := .watch 0) trivial rfl
  have fanning := (((opened.step (a := .broadcastCookie [pushed]) (fun _ _ found => by cases found) rfl).step
    (a := .broadcast 1) (fun _ found => by cases found) rfl).step (a := .broadcast 1)
      (fun _ found => by cases found) rfl).step (a := .broadcast 1) (fun _ found => by cases found) rfl
  have pushed := (fanning.step (a := .broadcast 1) (fun _ _ j w found => ?_) rfl).step (a := .watch 0) trivial rfl
  · have reach := pushed.step (a := .watch 0) trivial rfl
    exact ⟨_, _, reach, rfl, sequential_subscriber_stays_current reach (i := 0) rfl⟩
  by_cases same : j = 0
  · subst same
    cases found
    decide
  · simp [Function.update_apply, same, Master.init, Master.setWatcher, displace] at found

/-- The cookie TestGetGlobalCookies stores. -/
def tok : Cookie := ⟨"tok", "xyz", "", "", 0, false, false⟩

/-- Two overlapping broadcasts: the first snapshots the jar, the second stores, snapshots
    and fans out, and the first fans out last. The subscriber receives version 2 and then
    version 1, and once both calls have returned and its channel is drained its last message
    misses a cookie of the jar. -/
theorem overlapping_broadcasts_leave_stale_update :
    ∃ m : Master, m.Reachable (fun _ _ => True) ∧
      (m.watchers 0).map (fun w => (w.pc, w.ch, w.sent)) =
        some (.streaming, [], [⟨[], 0⟩, ⟨[tok, pushed], 2⟩, ⟨[tok], 1⟩]) ∧
      m.broadcasts 1 = some .done ∧ m.broadcasts 2 = some .done ∧ snapshotCookies m.entries = [tok, pushed] :=
  ⟨_, Master.Reachable.init.run [.watchCookies "pc-A", .watch 0, .watch 0, .watch 0,
    .broadcastCookie [tok], .broadcastCookie [pushed], .broadcast 1, .broadcast 1, .broadcast 1,
    .broadcast 2, .broadcast 2, .broadcast 2, .broadcast 2, .broadcast 1,
    .watch 0, .watch 0, .watch 0, .watch 0] rfl, rfl, rfl, rfl, rfl⟩

end SessionEngine.Cluster
