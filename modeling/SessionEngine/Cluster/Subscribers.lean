import SessionEngine.Cluster.Master

namespace SessionEngine.Cluster

theorem offer_apply (ws : Nat → Option Watcher) (i j : Nat) (r : Response) :
    offer ws i r j = if j = i then (ws j).map (Watcher.offered r) else ws j := by
  by_cases same : j = i
  · subst same
    simp [offer]
  · simp [offer, same]

theorem fanOut_apply {subs : List (String × Nat)} (distinct : (subs.map Prod.snd).Nodup)
    (ws : Nat → Option Watcher) (r : Response) (j : Nat) :
    fanOut subs ws r j = if j ∈ subs.map Prod.snd then (ws j).map (Watcher.offered r) else ws j := by
  induction subs generalizing ws with
  | nil => simp [fanOut]
  | cons entry rest ih =>
    simp only [List.map_cons, List.nodup_cons] at distinct
    have step := ih distinct.2 (offer ws entry.2 r)
    simp only [fanOut, List.foldl_cons] at step ⊢
    rw [step]
    by_cases same : j = entry.2
    · subst same
      simp [offer_apply, distinct.1]
    · simp only [offer_apply, same, if_false, List.map_cons, List.mem_cons, false_or]

theorem fanOut_map {β : Type} (g : Watcher → β) (ignores : ∀ r w, g (w.offered r) = g w)
    (subs : List (String × Nat)) (ws : Nat → Option Watcher) (r : Response) (j : Nat) :
    (fanOut subs ws r j).map g = (ws j).map g := by
  induction subs generalizing ws with
  | nil => rfl
  | cons entry rest ih =>
    simp only [fanOut, List.foldl_cons] at ih ⊢
    rw [ih]
    by_cases same : j = entry.2
    · simp [offer_apply, same, Option.map_map, Function.comp_def, ignores]
    · simp [offer_apply, same]

theorem subscribe_mem {subs : List (String × Nat)} {pcId : String} {i : Nat}
    (keys : (subs.map Prod.fst).Nodup) (entry : String × Nat) :
    entry ∈ subscribe subs pcId i ↔ entry = (pcId, i) ∨ (entry ∈ subs ∧ entry.1 ≠ pcId) := by
  induction subs with
  | nil => simp [subscribe]
  | cons head rest ih =>
    obtain ⟨key, j⟩ := head
    simp only [List.map_cons, List.nodup_cons] at keys
    simp only [subscribe]
    split
    · rename_i same
      subst same
      have absent : ∀ k, (key, k) ∉ rest := fun k member => keys.1 (List.mem_map.mpr ⟨_, member, rfl⟩)
      simp only [List.mem_cons]
      constructor
      · rintro (rfl | member)
        · exact .inl rfl
        · exact .inr ⟨.inr member, fun same => absent entry.2 (by rw [← same]; exact member)⟩
      · rintro (rfl | ⟨rfl | member, other⟩)
        · exact .inl rfl
        · exact absurd rfl other
        · exact .inr member
    · rename_i other
      simp only [List.mem_cons, ih keys.2]
      constructor
      · rintro (rfl | rfl | ⟨member, differ⟩)
        · exact .inr ⟨.inl rfl, other⟩
        · exact .inl rfl
        · exact .inr ⟨.inr member, differ⟩
      · rintro (rfl | ⟨rfl | member, differ⟩)
        · exact .inr (.inl rfl)
        · exact .inl rfl
        · exact .inr (.inr ⟨member, differ⟩)

theorem subscribe_keys {subs : List (String × Nat)} {pcId : String} {i : Nat}
    (keys : (subs.map Prod.fst).Nodup) : ((subscribe subs pcId i).map Prod.fst).Nodup := by
  induction subs with
  | nil => simp [subscribe]
  | cons head rest ih =>
    obtain ⟨key, j⟩ := head
    simp only [List.map_cons, List.nodup_cons] at keys
    simp only [subscribe]
    split
    · rename_i same
      subst same
      simpa using keys
    · rename_i differ
      refine List.nodup_cons.mpr ⟨fun member => ?_, ih keys.2⟩
      obtain ⟨other, member, same⟩ := List.mem_map.mp member
      rcases (subscribe_mem keys.2 other).mp member with rfl | ⟨member, -⟩
      · exact differ same.symm
      · exact keys.1 (List.mem_map.mpr ⟨other, member, same⟩)

/-- What every interleaving keeps of the subscriber table: it is a map, each entry names a
    live handler registered under that pc id, and a live handler that nobody displaced is in
    it. -/
structure Master.Subscribed (m : Master) : Prop where
  fresh : ∀ i, m.calls ≤ i → m.watchers i = none
  keys : (m.subs.map Prod.fst).Nodup
  owners : ∀ entry ∈ m.subs, ∃ w, m.watchers entry.2 = some w ∧ w.pcId = entry.1 ∧ w.pc.live = true
  registered : ∀ i w, m.watchers i = some w → w.pc.live = true → w.displaced = false →
    (w.pcId, i) ∈ m.subs

section Subscribed

variable {m m' : Master}

theorem distinct_of_owners {ws : Nat → Option Watcher} :
    ∀ {subs : List (String × Nat)}, (subs.map Prod.fst).Nodup →
      (∀ entry ∈ subs, ∃ w, ws entry.2 = some w ∧ w.pcId = entry.1) → (subs.map Prod.snd).Nodup
  | [], _, _ => by simp
  | entry :: rest, keys, owners => by
    simp only [List.map_cons, List.nodup_cons, List.mem_cons, forall_eq_or_imp] at keys owners ⊢
    refine ⟨fun member => ?_, distinct_of_owners keys.2 owners.2⟩
    obtain ⟨other, member, same⟩ := List.mem_map.mp member
    obtain ⟨w, found, pcId⟩ := owners.1
    obtain ⟨w', found', pcId'⟩ := owners.2 other member
    rw [same, found] at found'
    cases found'
    exact keys.1 (List.mem_map.mpr ⟨other, member, by rw [← pcId', pcId]⟩)

theorem Master.Subscribed.distinct (sub : m.Subscribed) : (m.subs.map Prod.snd).Nodup :=
  distinct_of_owners sub.keys fun entry member =>
    let ⟨w, found, pcId, _⟩ := sub.owners entry member
    ⟨w, found, pcId⟩

/-- What the subscriber invariant reads of a handler. -/
def Watcher.view (w : Watcher) : String × Bool × Bool :=
  (w.pcId, w.pc.live, w.displaced)

theorem Watcher.view_offered (r : Response) (w : Watcher) : (w.offered r).view = w.view := by
  unfold Watcher.offered
  split <;> rfl

theorem view_found {a b : Option Watcher} {v : Watcher} (views : a.map Watcher.view = b.map Watcher.view)
    (found : a = some v) : ∃ u, b = some u ∧ u.pcId = v.pcId ∧ u.pc.live = v.pc.live ∧ u.displaced = v.displaced := by
  subst found
  obtain ⟨u, found, same⟩ := Option.map_eq_some'.mp views.symm
  simp only [Watcher.view, Prod.mk.injEq] at same
  exact ⟨u, found, same⟩

theorem Master.Subscribed.congr (sub : m.Subscribed) (subs : m'.subs = m.subs) (calls : m.calls ≤ m'.calls)
    (views : ∀ j, (m'.watchers j).map Watcher.view = (m.watchers j).map Watcher.view) : m'.Subscribed := by
  refine ⟨fun j above => ?_, subs ▸ sub.keys, fun entry member => ?_, fun j v found live kept => ?_⟩
  · simpa [sub.fresh j (by omega)] using views j
  · obtain ⟨v, found, owner, alive⟩ := sub.owners entry (subs ▸ member)
    obtain ⟨u, found', pcId, live, -⟩ := view_found (views entry.2).symm found
    exact ⟨u, found', pcId ▸ owner, live ▸ alive⟩
  · obtain ⟨u, found', pcId, live', kept'⟩ := view_found (views j) found
    rw [subs, ← pcId]
    exact sub.registered j u found' (live' ▸ live) (kept' ▸ kept)

theorem Master.Subscribed.setWatcher {i : Nat} {w w' : Watcher} (sub : m.Subscribed)
    (found : m.watchers i = some w) (view : w'.view = w.view) : (m.setWatcher i w').Subscribed := by
  refine sub.congr rfl le_rfl fun j => ?_
  by_cases same : j = i
  · subst same
    simp [Master.setWatcher, found, view]
  · simp [Master.setWatcher, same]

theorem Master.Subscribed.below (sub : m.Subscribed) {i : Nat} {w : Watcher} (found : m.watchers i = some w) :
    i < m.calls := by
  rcases Nat.lt_or_ge i m.calls with below | above
  · exact below
  · simp [sub.fresh i above] at found

theorem displace_of_ne {ws : Nat → Option Watcher} {i j : Nat} {pcId : String} {v : Watcher}
    (other : j ≠ i) (found : displace ws i pcId j = some v) :
    ∃ u, ws j = some u ∧ u.pcId = v.pcId ∧ u.pc = v.pc ∧
      (v.displaced = false → u.displaced = false ∧ (u.pc.live = true → u.pcId ≠ pcId)) := by
  obtain ⟨u, stored, rfl⟩ := Option.map_eq_some'.mp found
  refine ⟨u, stored, ?_⟩
  split
  · simp
  · rename_i miss
    simp only [true_and]
    exact fun kept => ⟨kept, fun live same => miss ⟨other, same, live⟩⟩

theorem displace_none {ws : Nat → Option Watcher} {i j : Nat} {pcId : String} (missing : ws j = none) :
    displace ws i pcId j = none := by
  simp [displace, missing]

theorem displace_found {ws : Nat → Option Watcher} {j : Nat} {v : Watcher} (i : Nat) (pcId : String)
    (found : ws j = some v) : ∃ v', displace ws i pcId j = some v' ∧ v'.pcId = v.pcId ∧ v'.pc = v.pc := by
  simp only [displace, found, Option.map_some', Option.some.injEq, exists_eq_left']
  split <;> exact ⟨rfl, rfl⟩

theorem Master.Subscribed.spawn (sub : m.Subscribed) {w : Watcher} (idle : w.pc.live = false) :
    ({ m with watchers := Function.update m.watchers m.calls (some w), calls := m.calls + 1 } : Master).Subscribed := by
  refine ⟨fun j above => ?_, sub.keys, fun entry member => ?_, fun j v found live kept => ?_⟩
  · dsimp only at above ⊢
    simp [Function.update_noteq (show j ≠ m.calls by omega), sub.fresh j (by omega)]
  · obtain ⟨v, found, owner, alive⟩ := sub.owners entry member
    exact ⟨v, by simp [Function.update_noteq (sub.below found).ne, found], owner, alive⟩
  · dsimp only at found
    by_cases same : j = m.calls
    · subst same
      simp only [Function.update_same, Option.some.injEq] at found
      subst found
      simp [idle] at live
    · exact sub.registered j v (by simpa [same] using found) live kept

theorem Master.Subscribed.register (sub : m.Subscribed) {i : Nat} {w : Watcher}
    (found : m.watchers i = some w) (registering : w.pc = .registering) :
    ({ m with subs := subscribe m.subs w.pcId i,
              watchers := Function.update (displace m.watchers i w.pcId) i
                (some { w with pc := .snapshotting, displaced := false }) } : Master).Subscribed := by
  refine ⟨fun j above => ?_, subscribe_keys sub.keys, fun entry member => ?_, fun j v found' live kept => ?_⟩
  · dsimp only at above ⊢
    have other : j ≠ i := by have := sub.below found; omega
    simp [Function.update_noteq other, displace_none (sub.fresh j above)]
  · dsimp only at member ⊢
    rcases (subscribe_mem sub.keys entry).mp member with rfl | ⟨member, differ⟩
    · exact ⟨_, Function.update_same _ _ _, rfl, rfl⟩
    · obtain ⟨v, owned, owner, alive⟩ := sub.owners entry member
      have other : entry.2 ≠ i := by
        rintro same
        rw [same, found] at owned
        cases owned
        simp [registering, WatchPc.live] at alive
      obtain ⟨v', shown, pcId, pc⟩ := displace_found i w.pcId owned
      exact ⟨v', by simp [Function.update_noteq other, shown], pcId ▸ owner, pc ▸ alive⟩
  · dsimp only at found' ⊢
    by_cases same : j = i
    · subst same
      simp only [Function.update_same, Option.some.injEq] at found'
      subst found'
      exact (subscribe_mem sub.keys _).mpr (.inl rfl)
    · rw [Function.update_noteq same] at found'
      obtain ⟨u, stored, pcId, pc, keep⟩ := displace_of_ne same found'
      obtain ⟨kept', differ⟩ := keep kept
      rw [← pcId]
      exact (subscribe_mem sub.keys _).mpr
        (.inr ⟨sub.registered j u stored (pc ▸ live) kept', differ (pc ▸ live)⟩)

theorem Master.Subscribed.deregister (sub : m.Subscribed) {i : Nat} {w : Watcher}
    (found : m.watchers i = some w) :
    ({ m with subs := unsubscribe m.subs w.pcId,
              watchers := Function.update (displace m.watchers i w.pcId) i
                (some { w with pc := .exited }) } : Master).Subscribed := by
  refine ⟨fun j above => ?_, sub.keys.sublist ((List.filter_sublist _).map _), fun entry member => ?_,
    fun j v found' live kept => ?_⟩
  · dsimp only at above ⊢
    have other : j ≠ i := by have := sub.below found; omega
    simp [Function.update_noteq other, displace_none (sub.fresh j above)]
  · simp only [unsubscribe, List.mem_filter, decide_eq_true_eq] at member ⊢
    obtain ⟨v, owned, owner, alive⟩ := sub.owners entry member.1
    have other : entry.2 ≠ i := by
      rintro same
      rw [same, found] at owned
      cases owned
      exact member.2 owner.symm
    obtain ⟨v', shown, pcId, pc⟩ := displace_found i w.pcId owned
    exact ⟨v', by simp [Function.update_noteq other, shown], pcId ▸ owner, pc ▸ alive⟩
  · dsimp only at found' ⊢
    by_cases same : j = i
    · subst same
      simp only [Function.update_same, Option.some.injEq] at found'
      subst found'
      simp [WatchPc.live] at live
    · rw [Function.update_noteq same] at found'
      obtain ⟨u, stored, pcId, pc, keep⟩ := displace_of_ne same found'
      obtain ⟨kept', differ⟩ := keep kept
      simp only [unsubscribe, List.mem_filter, decide_eq_true_eq]
      rw [← pcId]
      exact ⟨sub.registered j u stored (pc ▸ live) kept', differ (pc ▸ live)⟩

theorem Master.init_subscribed : Master.init.Subscribed :=
  ⟨fun _ _ => rfl, List.nodup_nil, fun _ member => (nomatch member), fun _ _ found => (nomatch found)⟩

theorem Master.Subscribed.step {a : MasterAction} (sub : m.Subscribed) (stepped : m.step a = some m') :
    m'.Subscribed := by
  have same_view : ∀ {w : Watcher} {p : WatchPc} {ch sent : List Response}, p.live = w.pc.live →
      ({ w with pc := p, ch := ch, sent := sent } : Watcher).view = w.view := by
    intro w p ch sent live
    simp [Watcher.view, live]
  cases a with
  | broadcastCookie cookies =>
    cases stepped
    exact sub.congr rfl (Nat.le_succ _) fun _ => rfl
  | watchCookies pcId =>
    cases stepped
    exact sub.spawn (by split <;> rfl)
  | getGlobalCookies =>
    cases stepped
    exact sub.congr rfl le_rfl fun _ => rfl
  | broadcast i =>
    rcases Master.broadcastStep_cases stepped with ⟨_, _, rfl⟩ | ⟨_, rfl⟩ | ⟨_, _, rfl⟩ | ⟨r, _, rfl⟩
    iterate 3 exact sub.congr rfl le_rfl fun _ => rfl
    exact sub.congr rfl le_rfl fun j => fanOut_map _ Watcher.view_offered _ _ _ _
  | watch i =>
    obtain ⟨w, found, cases⟩ := Master.watchStep_cases stepped
    rcases cases with ⟨registering, rfl⟩ | ⟨pc, rfl⟩ | ⟨_, pc, rfl⟩ | ⟨_, _, pc, -, rfl⟩ | ⟨_, pc, rfl⟩ |
      ⟨-, rfl⟩
    · exact sub.register found registering
    iterate 4 exact sub.setWatcher found (same_view (by simp [pc, WatchPc.live]))
    · exact sub.deregister found
  | cancel i =>
    obtain ⟨w, found, pc, rfl⟩ := Master.cancel_cases stepped
    exact sub.setWatcher found (same_view (by simp [pc, WatchPc.live]))
  | sendFails i =>
    obtain ⟨w, found, ⟨_, pc⟩ | ⟨_, pc⟩, rfl⟩ := Master.sendFails_cases stepped
    all_goals exact sub.setWatcher found (same_view (by simp [pc, WatchPc.live]))

theorem Master.Reachable.subscribed {allowed : Master → MasterAction → Prop} (reach : m.Reachable allowed) :
    m.Subscribed := by
  induction reach with
  | init => exact Master.init_subscribed
  | step _ _ stepped sub => exact sub.step stepped

end Subscribed

theorem registered_handler_offered_every_fanOut {m : Master} {i j : Nat} {w : Watcher} {r : Response}
    (reach : m.Reachable fun _ _ => True) (found : m.watchers i = some w) (live : w.pc.live = true)
    (kept : w.displaced = false) (fanning : m.broadcasts j = some (.fanning r)) :
    ∃ m', m.step (.broadcast j) = some m' ∧ m'.watchers i = some (w.offered r) := by
  have sub := reach.subscribed
  have member : i ∈ m.subs.map Prod.snd := List.mem_map.mpr ⟨_, sub.registered i w found live kept, rfl⟩
  refine ⟨_, Master.step_fanOut fanning, ?_⟩
  show fanOut m.subs m.watchers r i = _
  rw [fanOut_apply sub.distinct, if_pos member, found]
  rfl

/-- The cookie TestWatchCookies_ReceivesBroadcastPush broadcasts. -/
def pushed : Cookie := ⟨"pushed", "abc", "", "", 0, false, false⟩

theorem registered_handler_offered_first_broadcast :
    ∃ (m : Master) (w : Watcher) (r : Response), m.Reachable (fun _ _ => True) ∧ m.watchers 0 = some w ∧
      w.pc.live = true ∧ w.displaced = false ∧ m.broadcasts 1 = some (.fanning r) ∧
      ∃ m', m.step (.broadcast 1) = some m' ∧ m'.watchers 0 = some (w.offered r) := by
  have reach := Master.Reachable.init.run [.watchCookies "pc-A", .watch 0,
    .broadcastCookie [pushed], .broadcast 1, .broadcast 1, .broadcast 1] rfl
  exact ⟨_, _, _, reach, rfl, rfl, rfl, rfl, registered_handler_offered_every_fanOut reach rfl rfl rfl rfl⟩

/-- Two streams share a pc id: the first handler exits after the second registered, and its
    deferred delete removes the second's entry, so a broadcast called while the second
    handler streams, with an empty channel, never reaches it. -/
theorem exit_drops_live_handler_registration :
    ∃ m m', Master.init.run [.watchCookies "pc-A", .watch 0, .watch 0, .watch 0, .watchCookies "pc-A",
        .watch 1, .watch 1, .watch 1, .cancel 0, .watch 0] = some m ∧
      (m.watchers 1).map (fun w => (w.pc, w.ch)) = some (.streaming, []) ∧
      m.run [.broadcastCookie [pushed], .broadcast 2, .broadcast 2, .broadcast 2, .broadcast 2] = some m' ∧
      m'.broadcasts 2 = some .done ∧ m'.watchers 1 = m.watchers 1 :=
  ⟨_, _, rfl, rfl, rfl, rfl, rfl⟩

end SessionEngine.Cluster
