import SessionEngine.Token.Heartbeat

namespace SessionEngine.Token

/-! The `sessions` map of a `HeartbeatManager` with the pointers `sync.Map` holds: `SetState` and
    `ExtractFromResponse` store a pointer to a new state, and `ClaimSession` loads a pointer and
    swaps in a pointer to an unavailable copy only if the entry still holds the pointer it
    loaded. A stored state is never mutated and a pointer a call still holds is never reused,
    so the states allocated so far form a heap addressed by allocation order. Each `Load`,
    `Store` and `CompareAndSwap` is one atomic step; calls on any ids interleave freely. -/

/-- Where a `ClaimSession(sessionID)` call is: before its `Load`, holding the pointer `old` to a
    state marked available, returned true after swapping `old` out, or returned false. -/
inductive ClaimCallPc where
  | start
  | loaded (old : Nat)
  | won (old : Nat)
  | lost
  deriving DecidableEq, Repr

structure ClaimCall where
  sessionID : Int
  pc : ClaimCallPc
  deriving DecidableEq, Repr

/-- The states allocated so far, by address; the address `sessions` stores under each id; the
    `ClaimSession` and `ExtractFromResponse` calls. -/
structure SessionMap where
  heap : List SessionState
  entries : Int → Option Nat
  claims : List ClaimCall
  extracts : List Extract

/-- `NewHeartbeatManager`: an empty map. -/
def newSessionMap : SessionMap := ⟨[], fun _ => none, [], []⟩

/-- `sessions.Store(sessionID, &state)`, with `&state` a new pointer. -/
def SessionMap.store (m : SessionMap) (sessionID : Int) (state : SessionState) : SessionMap :=
  { m with heap := m.heap ++ [state], entries := Function.update m.entries sessionID (some m.heap.length) }

/-- `GetState`: the state the entry points to, if any. -/
def SessionMap.getState (m : SessionMap) (sessionID : Int) : Option SessionState :=
  (m.entries sessionID).bind fun p => m.heap[p]?

/-- The `Load` of `ClaimSession` and its check of `Available`. -/
def SessionMap.claimLoad (m : SessionMap) (sessionID : Int) : ClaimCallPc :=
  match m.entries sessionID with
  | none => .lost
  | some old =>
    match m.heap[old]? with
    | some s => if s.available then .loaded old else .lost
    | none => .lost

def SessionMap.setExtract (m : SessionMap) (t : Nat) (c : Extract) : SessionMap :=
  { m with extracts := m.extracts.set t c }

def SessionMap.setClaim (m : SessionMap) (t : Nat) (c : ClaimCall) : SessionMap :=
  { m with claims := m.claims.set t c }

@[simp] theorem SessionMap.store_heap (m : SessionMap) (k : Int) (state : SessionState) :
    (m.store k state).heap = m.heap ++ [state] := rfl

@[simp] theorem SessionMap.store_entries (m : SessionMap) (k : Int) (state : SessionState) :
    (m.store k state).entries = Function.update m.entries k (some m.heap.length) := rfl

@[simp] theorem SessionMap.store_claims (m : SessionMap) (k : Int) (state : SessionState) :
    (m.store k state).claims = m.claims := rfl

@[simp] theorem SessionMap.setClaim_heap (m : SessionMap) (t : Nat) (c : ClaimCall) :
    (m.setClaim t c).heap = m.heap := rfl

@[simp] theorem SessionMap.setClaim_entries (m : SessionMap) (t : Nat) (c : ClaimCall) :
    (m.setClaim t c).entries = m.entries := rfl

/-- The scheduler's choices: a `SetState` call (one `Store`); a new `ExtractFromResponse` call,
    its `GetState` with the checks before it, and its `SetState`; a new `ClaimSession` call, its
    `Load`, and its `CompareAndSwap`. -/
inductive MapAction where
  | setState (sessionID : Int) (state : SessionState)
  | extract (sessionID : Int) (resp : Option Response)
  | extractLoad (t : Nat)
  | extractStore (t : Nat) (now : Nat)
  | claim (sessionID : Int)
  | claimLoad (t : Nat)
  | compareAndSwap (t : Nat)
  deriving DecidableEq, Repr

def SessionMap.step (m : SessionMap) : MapAction → Option SessionMap
  | .setState sessionID state => some (m.store sessionID state)
  | .extract sessionID resp => some { m with extracts := m.extracts ++ [⟨sessionID, resp, .start⟩] }
  | .extractLoad t => m.extracts[t]?.bind fun c =>
    match c.pc, c.resp with
    | .start, none => some (m.setExtract t { c with pc := .done })
    | .start, some resp =>
      if resp.cookies = [] then some (m.setExtract t { c with pc := .done })
      else some (m.setExtract t { c with pc := .loaded ((m.getState c.sessionID).getD ⟨c.sessionID, "", [], 0, false⟩) })
    | _, _ => none
  | .extractStore t now => m.extracts[t]?.bind fun c =>
    match c.pc, c.resp with
    | .loaded base, some resp => some ((m.store c.sessionID (base.extracted resp now)).setExtract t { c with pc := .done })
    | _, _ => none
  | .claim sessionID => some { m with claims := m.claims ++ [⟨sessionID, .start⟩] }
  | .claimLoad t => m.claims[t]?.bind fun c =>
    if c.pc = .start then some (m.setClaim t { c with pc := m.claimLoad c.sessionID }) else none
  | .compareAndSwap t => m.claims[t]?.bind fun c =>
    match c.pc with
    | .loaded old =>
      match m.heap[old]? with
      | some s =>
        if m.entries c.sessionID = some old then
          some ((m.store c.sessionID { s with available := false }).setClaim t { c with pc := .won old })
        else some (m.setClaim t { c with pc := .lost })
      | none => some (m.setClaim t { c with pc := .lost })
    | _ => none

def SessionMap.run (m : SessionMap) : List MapAction → Option SessionMap
  | [] => some m
  | a :: rest => (m.step a).bind fun m' => m'.run rest

inductive SessionMap.Reachable : SessionMap → Prop
  | init : SessionMap.Reachable newSessionMap
  | step {m m' : SessionMap} {a : MapAction} : SessionMap.Reachable m → m.step a = some m' → SessionMap.Reachable m'

theorem SessionMap.Reachable.run {m m' : SessionMap} (reach : m.Reachable) (actions : List MapAction)
    (ran : m.run actions = some m') : m'.Reachable := by
  induction actions generalizing m with
  | nil =>
    obtain rfl := Option.some.inj ran
    exact reach
  | cons a rest ih =>
    obtain ⟨next, stepped, ran⟩ := Option.bind_eq_some.mp ran
    exact ih (reach.step stepped) ran

section Claims

variable {m m' : SessionMap} {a : MapAction}

/-- What every reachable map satisfies: each entry points into the heap and no two ids share a
    pointer; a claim holding a pointer holds one to a state marked available; a claim that won
    swapped out a pointer to a state marked available that no entry holds any more; no two
    claims won with the same pointer. -/
structure SessionMap.Inv (m : SessionMap) : Prop where
  allocated : ∀ k p, m.entries k = some p → p < m.heap.length
  unshared : ∀ k k' p, m.entries k = some p → m.entries k' = some p → k = k'
  loaded : ∀ (t : Nat) (c : ClaimCall) (old : Nat), m.claims[t]? = some c → c.pc = .loaded old →
    (m.heap[old]?).map SessionState.available = some true
  won : ∀ (t : Nat) (c : ClaimCall) (old : Nat), m.claims[t]? = some c → c.pc = .won old →
    (m.heap[old]?).map SessionState.available = some true ∧ ∀ k, m.entries k ≠ some old
  once : ∀ (i j : Nat) (c d : ClaimCall) (old : Nat), m.claims[i]? = some c → m.claims[j]? = some d →
    c.pc = .won old → d.pc = .won old → i = j

theorem newSessionMap_inv : newSessionMap.Inv :=
  ⟨fun _ _ => nofun, fun _ _ _ => nofun, fun _ _ _ => nofun, fun _ _ _ => nofun, fun _ _ _ _ _ => nofun⟩

theorem getElem?_store_heap {old : Nat} (k : Int) (state : SessionState) (inside : old < m.heap.length) :
    (m.store k state).heap[old]? = m.heap[old]? :=
  List.getElem?_append_left inside

theorem available_lt {old : Nat} (marked : (m.heap[old]?).map SessionState.available = some true) :
    old < m.heap.length := by
  by_contra outside
  rw [List.getElem?_eq_none (by omega)] at marked
  cases marked

theorem SessionMap.Inv.congr (inv : m.Inv) (heap : m'.heap = m.heap) (entries : m'.entries = m.entries)
    (claims : m'.claims = m.claims) : m'.Inv := by
  obtain ⟨heap', entries', claims', extracts'⟩ := m'
  dsimp only at heap entries claims
  subst heap entries claims
  exact ⟨inv.allocated, inv.unshared, inv.loaded, inv.won, inv.once⟩

theorem getElem?_append_single {α : Type} {l : List α} {x y : α} {i : Nat} (found : (l ++ [x])[i]? = some y) :
    l[i]? = some y ∨ y = x := by
  rw [List.getElem?_append] at found
  split at found
  · exact .inl found
  · right
    generalize i - l.length = k at found
    cases k with
    | zero => exact (Option.some.inj found).symm
    | succ k => cases found

/-- A `Store` keeps the invariant: its pointer is new, so no claim holds it. -/
theorem SessionMap.Inv.store (inv : m.Inv) (k : Int) (state : SessionState) : (m.store k state).Inv where
  allocated k' p found := by
    simp only [SessionMap.store, Function.update_apply, List.length_append, List.length_singleton] at found ⊢
    split at found
    · cases found; omega
    · have := inv.allocated k' p found; omega
  unshared k₁ k₂ p found₁ found₂ := by
    simp only [SessionMap.store, Function.update_apply] at found₁ found₂
    split at found₁ <;> split at found₂
    · subst_vars; rfl
    · cases found₁; have := inv.allocated _ _ found₂; omega
    · cases found₂; have := inv.allocated _ _ found₁; omega
    · exact inv.unshared _ _ _ found₁ found₂
  loaded t c old found holding := by
    have marked := inv.loaded t c old found holding
    rwa [getElem?_store_heap k state (available_lt marked)]
  won t c old found winning := by
    obtain ⟨marked, gone⟩ := inv.won t c old found winning
    refine ⟨by rwa [getElem?_store_heap k state (available_lt marked)], fun k' => ?_⟩
    simp only [SessionMap.store, Function.update_apply]
    split
    · have := available_lt marked
      intro same; cases same; omega
    · exact gone k'
  once := inv.once

theorem SessionMap.Inv.setExtract (inv : m.Inv) (t : Nat) (c : Extract) : (m.setExtract t c).Inv :=
  inv.congr rfl rfl rfl

theorem getElem?_setClaim {t i : Nat} {c : ClaimCall} :
    (m.setClaim t c).claims[i]? = if t = i ∧ t < m.claims.length then some c else m.claims[i]? := by
  simp only [SessionMap.setClaim, List.getElem?_set]
  by_cases same : t = i
  · subst same
    by_cases inside : t < m.claims.length
    · simp [inside]
    · simp [inside, List.getElem?_eq_none (Nat.le_of_not_lt inside)]
  · simp [same]

theorem SessionMap.Inv.setClaim (inv : m.Inv) {t : Nat} {c : ClaimCall}
    (loaded : ∀ old, c.pc = .loaded old → (m.heap[old]?).map SessionState.available = some true)
    (notWon : ∀ old, c.pc ≠ .won old) : (m.setClaim t c).Inv where
  allocated := inv.allocated
  unshared := inv.unshared
  loaded i d old found holding := by
    rw [getElem?_setClaim] at found
    split at found
    · cases found; exact loaded old holding
    · exact inv.loaded i d old found holding
  won i d old found winning := by
    rw [getElem?_setClaim] at found
    split at found
    · cases found; exact absurd winning (notWon old)
    · exact inv.won i d old found winning
  once i j d e old found₁ found₂ winning₁ winning₂ := by
    rw [getElem?_setClaim] at found₁ found₂
    split at found₁
    · cases found₁; exact absurd winning₁ (notWon old)
    split at found₂
    · cases found₂; exact absurd winning₂ (notWon old)
    exact inv.once i j d e old found₁ found₂ winning₁ winning₂

/-- A `CompareAndSwap` that finds the pointer the claim loaded keeps the invariant: that pointer
    was no other winner's, since a winner's pointer is no entry any more. -/
theorem SessionMap.Inv.win (inv : m.Inv) {t : Nat} {c : ClaimCall} {old : Nat} {s : SessionState}
    (found : m.claims[t]? = some c) (holding : c.pc = .loaded old)
    (current : m.entries c.sessionID = some old) :
    ((m.store c.sessionID { s with available := false }).setClaim t { c with pc := .won old }).Inv := by
  have stored := inv.store c.sessionID { s with available := false }
  have marked := inv.loaded t c old found holding
  have inside := (List.getElem?_eq_some_iff.mp found).1
  refine ⟨stored.allocated, stored.unshared, ?_, ?_, ?_⟩
  · intro i d old' found' holding'
    rw [getElem?_setClaim] at found'
    split at found'
    · cases found'; cases holding'
    · exact stored.loaded i d old' found' holding'
  · intro i d old' found' winning
    rw [getElem?_setClaim] at found'
    split at found'
    · cases found'
      cases winning
      simp only [SessionMap.setClaim_heap, SessionMap.setClaim_entries]
      refine ⟨by rwa [getElem?_store_heap _ _ (available_lt marked)], fun k => ?_⟩
      simp only [SessionMap.store_entries, Function.update_apply]
      split
      · have := available_lt marked
        intro same; cases same; omega
      · intro same
        exact ‹¬k = c.sessionID› (inv.unshared _ _ _ same current)
    · exact stored.won i d old' found' winning
  · intro i j d e old' found₁ found₂ winning₁ winning₂
    simp only [getElem?_setClaim, SessionMap.store] at found₁ found₂
    have other : ∀ (l : Nat) (f : ClaimCall), m.claims[l]? = some f → f.pc = .won old → False :=
      fun l f found' winning =>
      (inv.won l f old found' winning).2 c.sessionID current
    split at found₁ <;> split at found₂
    · exact (‹t = i ∧ _›.1.symm.trans ‹t = j ∧ _›.1)
    · cases found₁; cases winning₁; exact (other j e found₂ winning₂).elim
    · cases found₂; cases winning₂; exact (other i d found₁ winning₁).elim
    · exact inv.once i j d e old' found₁ found₂ winning₁ winning₂

theorem SessionMap.Inv.step (inv : m.Inv) (stepped : m.step a = some m') : m'.Inv := by
  cases a with
  | setState k state => cases stepped; exact inv.store k state
  | extract k resp => cases stepped; exact inv.congr rfl rfl rfl
  | extractLoad t =>
    obtain ⟨c, -, moved⟩ := Option.bind_eq_some.mp stepped
    split at moved
    · cases moved; exact inv.setExtract t _
    · split at moved <;> cases moved <;> exact inv.setExtract t _
    · cases moved
  | extractStore t now =>
    obtain ⟨c, -, moved⟩ := Option.bind_eq_some.mp stepped
    split at moved
    · cases moved; exact (inv.store _ _).setExtract t _
    · cases moved
  | claim k =>
    cases stepped
    have old : ∀ {i : Nat} {c : ClaimCall}, (m.claims ++ [⟨k, .start⟩])[i]? = some c → c.pc ≠ .start →
        m.claims[i]? = some c := fun found moved =>
      (getElem?_append_single found).resolve_right fun same => moved (by rw [same])
    refine ⟨inv.allocated, inv.unshared, fun t c o found holding => ?_, fun t c o found winning => ?_,
      fun i j c d o found₁ found₂ winning₁ winning₂ => ?_⟩
    · exact inv.loaded t c o (old found (by rw [holding]; nofun)) holding
    · exact inv.won t c o (old found (by rw [winning]; nofun)) winning
    · exact inv.once i j c d o (old found₁ (by rw [winning₁]; nofun)) (old found₂ (by rw [winning₂]; nofun))
        winning₁ winning₂
  | claimLoad t =>
    obtain ⟨c, -, moved⟩ := Option.bind_eq_some.mp stepped
    split at moved
    · cases moved
      refine inv.setClaim (fun old holding => ?_) (fun old winning => ?_)
      · simp only [SessionMap.claimLoad] at holding
        split at holding
        · cases holding
        · split at holding
          · split at holding
            · cases holding; simp_all
            · cases holding
          · cases holding
      · simp only [SessionMap.claimLoad] at winning
        split at winning
        · cases winning
        · split at winning
          · split at winning <;> cases winning
          · cases winning
    · cases moved
  | compareAndSwap t =>
    obtain ⟨c, found, moved⟩ := Option.bind_eq_some.mp stepped
    split at moved
    · rename_i old holding
      split at moved
      · split at moved
        · cases moved; exact inv.win found holding ‹_›
        · cases moved; exact inv.setClaim (fun _ => nofun) (fun _ => nofun)
      · cases moved; exact inv.setClaim (fun _ => nofun) (fun _ => nofun)
    · cases moved

theorem SessionMap.Reachable.inv (reach : m.Reachable) : m.Inv := by
  induction reach with
  | init => exact newSessionMap_inv
  | step _ stepped inv => exact inv.step stepped

theorem claim_wins_once_per_available_store (reach : m.Reachable) {i : Nat} {c : ClaimCall} {old : Nat}
    (found : m.claims[i]? = some c) (won : c.pc = .won old) :
    (m.heap[old]?).map SessionState.available = some true ∧ (∀ k, m.entries k ≠ some old) ∧
      ∀ j d, m.claims[j]? = some d → d.pc = .won old → j = i := by
  have inv := reach.inv
  exact ⟨(inv.won i c old found won).1, (inv.won i c old found won).2,
    fun j d found' won' => inv.once j i d c old found' found won' won⟩

/-- A claim wins; an `ExtractFromResponse` that loaded the state before the win stores it back
    as available; a second claim then wins, with the pointer that store made. -/
def extractionBetweenClaims : List MapAction :=
  [.setState 7 ⟨7, "", [], 0, true⟩, .claim 7, .claimLoad 0, .extract 7 (some ⟨[⟨"sid", "1"⟩], ""⟩),
    .extractLoad 0, .compareAndSwap 0, .extractStore 0 5, .claim 7, .claimLoad 1, .compareAndSwap 1]

theorem claim_wins_again_after_extraction :
    ∃ m, newSessionMap.run extractionBetweenClaims = some m ∧ m.claims.map ClaimCall.pc = [.won 0, .won 2] ∧
      (m.heap[2]?).map SessionState.available = some true ∧ (∀ k, m.entries k ≠ some 2) ∧
      ∀ j d, m.claims[j]? = some d → d.pc = .won 2 → j = 1 :=
  ⟨_, rfl, rfl, claim_wins_once_per_available_store (SessionMap.Reachable.init.run extractionBetweenClaims rfl) rfl rfl⟩

end Claims

/-! `sendKeepAlive(sessionIDs)` on the same map. Its loop goroutine makes its
    `ExtractFromResponse` calls one after the other, each to completion. -/

/-- The header `sendKeepAlive` sets: `Bearer` and the token of the first tracked session whose
    state has one. -/
def SessionMap.keepAliveAuthorization (m : SessionMap) : List Int → Option String
  | [] => none
  | k :: ks =>
    match m.getState k with
    | some s => if s.token ≠ "" then some ("Bearer " ++ s.token) else m.keepAliveAuthorization ks
    | none => m.keepAliveAuthorization ks

/-- How a round's request ends: skipped (no URL, or `http.NewRequest` failed), `client.Do` failed,
    or a response with its status code. -/
inductive KeepAliveOutcome where
  | skipped
  | failed
  | response (statusCode : Nat) (resp : Response)
  deriving DecidableEq, Repr

/-- The `ExtractFromResponse(id, resp)` calls of the round's loop, the first of them the
    `start`-th call on the map. -/
def keepAliveActions (resp : Response) (now : Nat) : Nat → List Int → List MapAction
  | _, [] => []
  | start, k :: ks =>
    .extract k (some resp) :: .extractLoad start :: .extractStore start now :: keepAliveActions resp now (start + 1) ks

/-- After its request, `sendKeepAlive`: whether `heartbeatCount` moves, and the calls it makes. -/
def SessionMap.keepAliveCalls (m : SessionMap) (sessionIDs : List Int) (now : Nat) :
    KeepAliveOutcome → Bool × List MapAction
  | .response statusCode resp =>
    if 200 ≤ statusCode ∧ statusCode < 300 then (true, keepAliveActions resp now m.extracts.length sessionIDs)
    else (false, [])
  | _ => (false, [])

section KeepAlive

variable {m : SessionMap}

/-- An `ExtractFromResponse(k, resp)` call run to completion with no other step between its
    `GetState` and its `SetState`. -/
def SessionMap.extractAlone (m : SessionMap) (k : Int) (resp : Response) (now : Nat) : SessionMap :=
  { m.store k (((m.getState k).getD ⟨k, "", [], 0, false⟩).extracted resp now) with
    extracts := m.extracts ++ [⟨k, some resp, .done⟩] }

theorem extracted_available (base : SessionState) (resp : Response) (now : Nat) :
    (base.extracted resp now).available = true := by
  unfold SessionState.extracted
  split <;> split <;> rfl

theorem SessionMap.run_append (m : SessionMap) (first rest : List MapAction) :
    m.run (first ++ rest) = (m.run first).bind fun m' => m'.run rest := by
  induction first generalizing m with
  | nil => rfl
  | cons a first ih =>
    simp only [List.cons_append, SessionMap.run, Option.bind_assoc]
    congr 1
    funext m'
    exact ih m'

theorem SessionMap.run_extractAlone (m : SessionMap) (k : Int) {resp : Response} (now : Nat) (cookies : resp.cookies ≠ []) :
    m.run [.extract k (some resp), .extractLoad m.extracts.length, .extractStore m.extracts.length now] =
      some (m.extractAlone k resp now) := by
  simp [SessionMap.run, SessionMap.step, SessionMap.setExtract, SessionMap.extractAlone, SessionMap.store,
    SessionMap.getState, cookies]

/-- Every entry points into the heap. -/
def SessionMap.Allocated (m : SessionMap) : Prop :=
  ∀ k p, m.entries k = some p → p < m.heap.length

theorem SessionMap.Allocated.store (allocated : m.Allocated) (k : Int) (state : SessionState) :
    (m.store k state).Allocated := by
  intro key p found
  simp only [SessionMap.store_entries, SessionMap.store_heap, List.length_append, List.length_singleton] at found ⊢
  by_cases same : key = k
  · subst same
    rw [Function.update_same, Option.some.injEq] at found
    omega
  · rw [Function.update_noteq same] at found
    have := allocated key p found
    omega

theorem SessionMap.getState_store (allocated : m.Allocated) (k key : Int) (state : SessionState) :
    (m.store k state).getState key = if key = k then some state else m.getState key := by
  unfold SessionMap.getState
  by_cases same : key = k
  · subst same
    simp
  · simp only [SessionMap.store_entries, Function.update_noteq same, if_neg same, SessionMap.store_heap]
    cases found : m.entries key with
    | none => rfl
    | some p => exact List.getElem?_append_left (allocated key p found)

theorem SessionMap.extractAlone_getState (allocated : m.Allocated) (k key : Int) (resp : Response) (now : Nat) :
    (m.extractAlone k resp now).getState key =
      if key = k then some (((m.getState k).getD ⟨k, "", [], 0, false⟩).extracted resp now) else m.getState key :=
  SessionMap.getState_store allocated k key _

theorem SessionMap.run_keepAliveActions {resp : Response} (now : Nat) (cookies : resp.cookies ≠ []) :
    ∀ (sessionIDs : List Int) (m : SessionMap),
      m.run (keepAliveActions resp now m.extracts.length sessionIDs) =
        some (sessionIDs.foldl (fun m k => m.extractAlone k resp now) m)
  | [], _ => rfl
  | k :: ks, m => by
    have next : (m.extractAlone k resp now).extracts.length = m.extracts.length + 1 := by
      simp [SessionMap.extractAlone]
    have calls : keepAliveActions resp now m.extracts.length (k :: ks) =
        [.extract k (some resp), .extractLoad m.extracts.length, .extractStore m.extracts.length now] ++
          keepAliveActions resp now (m.extracts.length + 1) ks := rfl
    rw [calls, SessionMap.run_append, SessionMap.run_extractAlone m k now cookies, Option.some_bind, ← next,
      SessionMap.run_keepAliveActions now cookies ks, List.foldl_cons]

theorem SessionMap.foldl_extractAlone {resp : Response} (now : Nat) :
    ∀ (sessionIDs : List Int) (m : SessionMap), m.Allocated →
      let m' := sessionIDs.foldl (fun m k => m.extractAlone k resp now) m
      m'.Allocated ∧ m'.claims = m.claims ∧ (∀ k ∈ sessionIDs, ∃ s, m'.getState k = some s ∧ s.available = true) ∧
        ∀ k ∉ sessionIDs, m'.getState k = m.getState k
  | [], m, allocated => ⟨allocated, rfl, fun _ => nofun, fun _ _ => rfl⟩
  | k :: ks, m, allocated => by
    obtain ⟨allocated', claims, tracked, others⟩ :=
      SessionMap.foldl_extractAlone now ks (m.extractAlone k resp now) (allocated.store k _)
    refine ⟨allocated', claims, fun key member => ?_, fun key absent => ?_⟩
    · by_cases later : key ∈ ks
      · exact tracked key later
      · rw [List.foldl_cons, others key later, SessionMap.extractAlone_getState allocated, if_pos
          ((List.mem_cons.mp member).resolve_right later)]
        exact ⟨_, rfl, extracted_available _ _ _⟩
    · simp only [List.mem_cons, not_or] at absent
      rw [List.foldl_cons, others key absent.2, SessionMap.extractAlone_getState allocated, if_neg absent.1]

theorem SessionMap.run_claim_alone (k : Int) {s : SessionState} (found : m.getState k = some s)
    (available : s.available = true) :
    ∃ m' old, m.run [.claim k, .claimLoad m.claims.length, .compareAndSwap m.claims.length] = some m' ∧
      m'.claims = m.claims ++ [⟨k, .won old⟩] := by
  obtain ⟨old, entry, stored⟩ := Option.bind_eq_some.mp found
  simp [SessionMap.run, SessionMap.step, SessionMap.setClaim, SessionMap.claimLoad, entry, stored, available]

theorem keep_alive_reopens_claimed_sessions (reach : m.Reachable) (sessionIDs : List Int) (now : Nat)
    {statusCode : Nat} (ok : 200 ≤ statusCode ∧ statusCode < 300) {resp : Response} (cookies : resp.cookies ≠ []) :
    (m.keepAliveCalls sessionIDs now (.response statusCode resp)).1 = true ∧
      ∃ m', m.run (m.keepAliveCalls sessionIDs now (.response statusCode resp)).2 = some m' ∧
        ∀ k ∈ sessionIDs, ∃ m'' old,
          m'.run [.claim k, .claimLoad m'.claims.length, .compareAndSwap m'.claims.length] = some m'' ∧
            m''.claims = m'.claims ++ [⟨k, .won old⟩] := by
  simp only [SessionMap.keepAliveCalls, if_pos ok, true_and]
  obtain ⟨-, -, tracked, -⟩ := SessionMap.foldl_extractAlone now sessionIDs m reach.inv.allocated
  refine ⟨_, SessionMap.run_keepAliveActions now cookies sessionIDs m, fun k member => ?_⟩
  obtain ⟨s, found, available⟩ := tracked k member
  exact SessionMap.run_claim_alone k found available

/-- Session 7 stored as available, then claimed. -/
def claimedSeven : List MapAction :=
  [.setState 7 ⟨7, "", [], 0, true⟩, .claim 7, .claimLoad 0, .compareAndSwap 0]

theorem keep_alive_reopens_claimed_seven :
    ∃ m m' m'' old, newSessionMap.run claimedSeven = some m ∧ m.claimLoad 7 = .lost ∧
      (m.keepAliveCalls [7] 10 (.response 200 ⟨[⟨"sid", "1"⟩], ""⟩)).1 = true ∧
      m.run (m.keepAliveCalls [7] 10 (.response 200 ⟨[⟨"sid", "1"⟩], ""⟩)).2 = some m' ∧
      m'.run [.claim 7, .claimLoad m'.claims.length, .compareAndSwap m'.claims.length] = some m'' ∧
      m''.claims = m'.claims ++ [⟨7, .won old⟩] := by
  obtain ⟨sent, m', ran, reopened⟩ :=
    keep_alive_reopens_claimed_sessions (SessionMap.Reachable.init.run claimedSeven rfl) [7] 10
      (show 200 ≤ 200 ∧ 200 < 300 by decide) (show (⟨[⟨"sid", "1"⟩], ""⟩ : Response).cookies ≠ [] from List.cons_ne_nil _ _)
  obtain ⟨m'', old, claimed, won⟩ := reopened 7 (List.mem_singleton_self _)
  exact ⟨_, m', m'', old, rfl, rfl, sent, ran, claimed, won⟩

end KeepAlive

/-! `FindAvailable`, and the id a stored state carries. -/

/-- `FindAvailable`, run alone: the first state marked available in the order `Range` visits the
    stored ids, an order `sync.Map` does not fix. -/
def SessionMap.findAvailable (m : SessionMap) (order : List Int) : Option SessionState :=
  (order.filterMap m.getState).find? (·.available)

/-- A `SetState` call that stores a state under the id the state carries. -/
def MapAction.OwnId : MapAction → Prop
  | .setState sessionID state => state.sessionID = sessionID
  | _ => True

section OwnIds

variable {m m' : SessionMap} {a : MapAction}

/-- Every stored state carries the id it is stored under, and so does every state an
    `ExtractFromResponse` call has loaded. -/
structure SessionMap.OwnIds (m : SessionMap) : Prop where
  stored : ∀ k p s, m.entries k = some p → m.heap[p]? = some s → s.sessionID = k
  loaded : ∀ (t : Nat) (c : Extract) (base : SessionState), m.extracts[t]? = some c → c.pc = .loaded base →
    base.sessionID = c.sessionID

theorem SessionState.extracted_sessionID (base : SessionState) (resp : Response) (now : Nat) :
    (base.extracted resp now).sessionID = base.sessionID := by
  unfold SessionState.extracted
  split <;> split <;> rfl

theorem SessionMap.OwnIds.getState (own : m.OwnIds) {k : Int} {s : SessionState} (found : m.getState k = some s) :
    s.sessionID = k := by
  obtain ⟨p, entry, stored⟩ := Option.bind_eq_some.mp found
  exact own.stored k p s entry stored

theorem SessionMap.OwnIds.store (own : m.OwnIds) (allocated : m.Allocated) (k : Int) {state : SessionState}
    (named : state.sessionID = k) : (m.store k state).OwnIds where
  stored key p s entry found := by
    simp only [SessionMap.store_entries, Function.update_apply] at entry
    split at entry
    · cases entry
      simp only [SessionMap.store_heap, List.getElem?_concat_length, Option.some.injEq] at found
      subst found
      rw [named, ‹key = k›]
    · rw [SessionMap.store_heap, List.getElem?_append_left (allocated key p entry)] at found
      exact own.stored key p s entry found
  loaded := own.loaded

theorem SessionMap.OwnIds.setExtract (own : m.OwnIds) (t : Nat) {c : Extract}
    (named : ∀ base, c.pc = .loaded base → base.sessionID = c.sessionID) : (m.setExtract t c).OwnIds where
  stored := own.stored
  loaded i d base found holding := by
    simp only [SessionMap.setExtract, List.getElem?_set] at found
    split at found
    · split at found
      · cases found; exact named base holding
      · cases found
    · exact own.loaded i d base found holding

theorem SessionMap.OwnIds.setClaim (own : m.OwnIds) (t : Nat) (c : ClaimCall) : (m.setClaim t c).OwnIds :=
  ⟨own.stored, own.loaded⟩

theorem SessionMap.OwnIds.step (own : m.OwnIds) (allocated : m.Allocated) (ownId : a.OwnId)
    (stepped : m.step a = some m') : m'.OwnIds := by
  cases a with
  | setState k state => cases stepped; exact own.store allocated k ownId
  | extract k resp =>
    cases stepped
    refine ⟨own.stored, fun t c base found holding => ?_⟩
    rcases getElem?_append_single found with found | rfl
    · exact own.loaded t c base found holding
    · cases holding
  | extractLoad t =>
    obtain ⟨c, found, moved⟩ := Option.bind_eq_some.mp stepped
    split at moved
    · cases moved; exact own.setExtract t nofun
    · split at moved <;> cases moved
      · exact own.setExtract t nofun
      · refine own.setExtract t fun base holding => ?_
        cases holding
        cases state : m.getState c.sessionID with
        | none => rfl
        | some s => exact own.getState state
    · cases moved
  | extractStore t now =>
    obtain ⟨c, found, moved⟩ := Option.bind_eq_some.mp stepped
    split at moved
    · cases moved
      rename_i base resp holding _
      have named := own.loaded t c base found holding
      exact (own.store allocated c.sessionID ((base.extracted_sessionID resp now).trans named)).setExtract t nofun
    · cases moved
  | claim k => cases stepped; exact ⟨own.stored, own.loaded⟩
  | claimLoad t =>
    obtain ⟨c, -, moved⟩ := Option.bind_eq_some.mp stepped
    split at moved
    · cases moved; exact own.setClaim t _
    · cases moved
  | compareAndSwap t =>
    obtain ⟨c, -, moved⟩ := Option.bind_eq_some.mp stepped
    split at moved
    · rename_i old _
      split at moved
      · rename_i s stored
        split at moved
        · cases moved
          have named : ({ s with available := false } : SessionState).sessionID = c.sessionID :=
            own.stored c.sessionID old s ‹_› stored
          exact (own.store allocated c.sessionID named).setClaim t _
        · cases moved; exact own.setClaim t _
      · cases moved; exact own.setClaim t _
    · cases moved

theorem SessionMap.ownIds_of_run :
    ∀ {acts : List MapAction} {m m' : SessionMap}, m.Reachable → m.OwnIds → (∀ a ∈ acts, a.OwnId) →
      m.run acts = some m' → m'.OwnIds
  | [], _, _, _, own, _, ran => by cases ran; exact own
  | a :: rest, _, _, reach, own, ownIds, ran => by
    obtain ⟨next, stepped, ran⟩ := Option.bind_eq_some.mp ran
    exact SessionMap.ownIds_of_run (reach.step stepped)
      (own.step reach.inv.allocated (ownIds a (List.mem_cons_self a rest)) stepped)
      (fun b member => ownIds b (List.mem_cons_of_mem a member)) ran

theorem SessionMap.findAvailable_spec (order : List Int) :
    (∀ s, m.findAvailable order = some s → s.available = true ∧ ∃ k ∈ order, m.getState k = some s) ∧
      (m.findAvailable order = none ↔ ∀ k ∈ order, ∀ s, m.getState k = some s → s.available = false) := by
  refine ⟨fun s found => ⟨List.find?_some found, List.mem_filterMap.mp (List.mem_of_find?_eq_some found)⟩, ?_⟩
  simp only [SessionMap.findAvailable, List.find?_eq_none, List.mem_filterMap, Bool.not_eq_true]
  exact ⟨fun none k listed s found => none s ⟨k, listed, found⟩,
    fun none s ⟨k, listed, found⟩ => none k listed s found⟩

theorem newSessionMap_ownIds : newSessionMap.OwnIds :=
  ⟨fun _ _ _ => nofun, fun _ _ _ found => by simp [newSessionMap] at found⟩

end OwnIds

theorem find_available_then_claim_wins {acts : List MapAction} (ownIds : ∀ a ∈ acts, a.OwnId)
    {m : SessionMap} (ran : newSessionMap.run acts = some m) {order : List Int}
    (ranged : ∀ k, k ∈ order ↔ m.entries k ≠ none) :
    (m.findAvailable order = none ↔ ∀ k s, m.getState k = some s → s.available = false) ∧
      ∀ s, m.findAvailable order = some s → m.getState s.sessionID = some s ∧
        ∃ m' old, m.run [.claim s.sessionID, .claimLoad m.claims.length, .compareAndSwap m.claims.length] = some m' ∧
          m'.claims = m.claims ++ [⟨s.sessionID, .won old⟩] := by
  have own := SessionMap.ownIds_of_run .init newSessionMap_ownIds ownIds ran
  have spec := m.findAvailable_spec order
  have stored : ∀ {k s}, m.getState k = some s → k ∈ order := fun found =>
    (ranged _).mpr fun absent => by simp [SessionMap.getState, absent] at found
  refine ⟨spec.2.trans ⟨fun none k s found => none k (stored found) s found, fun none k _ => none k⟩,
    fun s found => ?_⟩
  obtain ⟨available, k, -, got⟩ := spec.1 s found
  rw [← own.getState got] at got
  exact ⟨got, SessionMap.run_claim_alone s.sessionID got available⟩

/-- Session 3 stored as unavailable and session 5 as available. -/
def twoStored : List MapAction :=
  [.setState 3 ⟨3, "", [], 0, false⟩, .setState 5 ⟨5, "", [], 0, true⟩]

theorem find_available_then_claim_five :
    ∃ m m' old, newSessionMap.run twoStored = some m ∧ m.findAvailable [3, 5] = some ⟨5, "", [], 0, true⟩ ∧
      m.run [.claim 5, .claimLoad m.claims.length, .compareAndSwap m.claims.length] = some m' ∧
      m'.claims = m.claims ++ [⟨5, .won old⟩] := by
  have found : (newSessionMap.run twoStored).map (·.findAvailable [3, 5]) = some (some ⟨5, "", [], 0, true⟩) := rfl
  obtain ⟨m, ran⟩ : ∃ m, newSessionMap.run twoStored = some m := ⟨_, rfl⟩
  rw [ran] at found
  obtain ⟨-, m', old, claimed, won⟩ := (@find_available_then_claim_wins twoStored (by simp [twoStored, MapAction.OwnId])
    m ran [3, 5] fun k => by
      cases ran
      by_cases five : k = 5 <;> by_cases three : k = 3 <;>
        simp [Function.update_apply, newSessionMap, five, three]).2 _ (Option.some.inj found)
  exact ⟨m, m', old, ran, Option.some.inj found, claimed, won⟩

end SessionEngine.Token
