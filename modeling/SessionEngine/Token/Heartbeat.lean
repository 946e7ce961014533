import Mathlib.Logic.Function.Basic
import Mathlib.Data.List.Basic

namespace SessionEngine.Token

/-! Go's `strings` helpers `ExtractFromResponse` uses, on the characters of a string. -/

def stringsHasPrefix (s pre : String) : Bool :=
  pre.toList.isPrefixOf s.toList

def stringsContains (s substr : String) : Bool :=
  s.toList.tails.any fun rest => substr.toList.isPrefixOf rest

def stringsTrimPrefix (s pre : String) : String :=
  if stringsHasPrefix s pre then ⟨s.toList.drop pre.length⟩ else s

/-- `strings.ToLower`, on ASCII letters. -/
def stringsToLower (s : String) : String :=
  ⟨s.toList.map Char.toLower⟩

/-- The name and value of an `*http.Cookie`, the fields `ExtractFromResponse` reads. -/
structure Cookie where
  name : String
  value : String
  deriving DecidableEq, Repr

/-- A response: `resp.Cookies()` and `resp.Header.Get("Authorization")`. -/
structure Response where
  cookies : List Cookie
  authorization : String
  deriving DecidableEq, Repr

/-- A `SessionState`; `LastRefreshed` is the clock reading of the store that wrote it. -/
structure SessionState where
  sessionID : Int
  token : String
  cookies : List Cookie
  lastRefreshed : Nat
  available : Bool
  deriving DecidableEq, Repr

/-- One update of `mergeCookies`' loop: replace the first cookie of the same name, or append. -/
def mergeOne (out : List Cookie) (u : Cookie) : List Cookie :=
  match out.findIdx? (·.name = u.name) with
  | some i => out.set i u
  | none => out ++ [u]

def mergeCookies (existing updates : List Cookie) : List Cookie :=
  updates.foldl mergeOne existing

/-- The first new cookie whose lower-cased name contains `jwt` or `token`. -/
def jwtCookie (newCookies : List Cookie) : Option Cookie :=
  newCookies.find? fun c =>
    let lname := stringsToLower c.name
    stringsContains lname "jwt" || stringsContains lname "token"

/-- What `ExtractFromResponse` stores, from the state it loaded, the response's cookies and
    header, and the clock. -/
def SessionState.extracted (base : SessionState) (resp : Response) (now : Nat) : SessionState :=
  let base := { base with cookies := mergeCookies base.cookies resp.cookies, lastRefreshed := now, available := true }
  let base := match jwtCookie resp.cookies with
    | some c => { base with token := c.value }
    | none => base
  if stringsHasPrefix resp.authorization "Bearer " then
    { base with token := stringsTrimPrefix resp.authorization "Bearer " }
  else base

/-- Where an `ExtractFromResponse` call is: before its `GetState`, between its `GetState` and
    its `SetState` with the state it copied, or returned. -/
inductive ExtractPc where
  | start
  | loaded (base : SessionState)
  | done
  deriving DecidableEq, Repr

def ExtractPc.isLoaded : ExtractPc → Bool
  | .loaded _ => true
  | _ => false

/-- A call `ExtractFromResponse(sessionID, resp)`, `resp` being `nil` or a response. The
    keep-alive loop makes one such call per tracked session after each successful round trip. -/
structure Extract where
  sessionID : Int
  resp : Option Response
  pc : ExtractPc
  deriving DecidableEq, Repr

/-- The `sessions` map of a `HeartbeatManager` and the `ExtractFromResponse` calls made on it. -/
structure HeartbeatManager where
  sessions : Int → Option SessionState
  calls : List Extract

def newHeartbeatManager : HeartbeatManager :=
  ⟨fun _ => none, []⟩

/-- `GetState`, and the copy or fresh state `ExtractFromResponse` starts from. -/
def HeartbeatManager.base (m : HeartbeatManager) (sessionID : Int) : SessionState :=
  match m.sessions sessionID with
  | some existing => existing
  | none => ⟨sessionID, "", [], 0, false⟩

inductive HeartbeatAction where
  | call (sessionID : Int) (resp : Option Response)
  | load (t : Nat)
  | store (t : Nat) (now : Nat)
  deriving DecidableEq, Repr

def HeartbeatManager.setCall (m : HeartbeatManager) (t : Nat) (c : Extract) : HeartbeatManager :=
  { m with calls := m.calls.set t c }

/-- `SetState`: `sessions.Store`. -/
def HeartbeatManager.setState (m : HeartbeatManager) (sessionID : Int) (state : SessionState) : HeartbeatManager :=
  { m with sessions := Function.update m.sessions sessionID (some state) }

/-- Each `sync.Map` `Load` and `Store` is one atomic step; the code between them is local. -/
def HeartbeatManager.step (m : HeartbeatManager) : HeartbeatAction → Option HeartbeatManager
  | .call sessionID resp => some { m with calls := m.calls ++ [⟨sessionID, resp, .start⟩] }
  | .load t => m.calls[t]?.bind fun c =>
    match c.pc, c.resp with
    | .start, none => some (m.setCall t { c with pc := .done })
    | .start, some resp =>
      if resp.cookies = [] then some (m.setCall t { c with pc := .done })
      else some (m.setCall t { c with pc := .loaded (m.base c.sessionID) })
    | _, _ => none
  | .store t now => m.calls[t]?.bind fun c =>
    match c.pc, c.resp with
    | .loaded base, some resp => some ((m.setState c.sessionID (base.extracted resp now)).setCall t { c with pc := .done })
    | _, _ => none

inductive HeartbeatManager.Reachable (allowed : HeartbeatManager → HeartbeatAction → Prop) :
    HeartbeatManager → Prop
  | init : HeartbeatManager.Reachable allowed newHeartbeatManager
  | step {m m' : HeartbeatManager} {a : HeartbeatAction} : HeartbeatManager.Reachable allowed m → allowed m a →
      m.step a = some m' → HeartbeatManager.Reachable allowed m'

def HeartbeatManager.run (m : HeartbeatManager) : List HeartbeatAction → Option HeartbeatManager
  | [] => some m
  | a :: rest => (m.step a).bind fun m' => m'.run rest

theorem HeartbeatManager.Reachable.run {m m' : HeartbeatManager} (reach : m.Reachable fun _ _ => True)
    (actions : List HeartbeatAction) (ran : m.run actions = some m') : m'.Reachable fun _ _ => True := by
  induction actions generalizing m with
  | nil =>
    cases ran
    exact reach
  | cons a rest ih =>
    simp only [HeartbeatManager.run, Option.bind_eq_some] at ran
    obtain ⟨next, stepped, ran⟩ := ran
    exact ih (reach.step trivial stepped) ran

/-! `mergeCookies` keeps every name it is given. -/

def names (cookies : List Cookie) : List String :=
  cookies.map (·.name)

theorem names_set_same {out : List Cookie} {u : Cookie} {i : Nat} (h : i < out.length)
    (same : out[i].name = u.name) : names (out.set i u) = names out := by
  refine List.ext_getElem (by simp [names]) fun j _ _ => ?_
  simp only [names, List.getElem_map, List.getElem_set]
  split <;> simp_all

theorem mem_names_mergeOne {out : List Cookie} {u : Cookie} {name : String} :
    name ∈ names (mergeOne out u) ↔ name ∈ names out ∨ name = u.name := by
  unfold mergeOne
  split
  · rename_i i found
    obtain ⟨h, same, -⟩ := List.findIdx?_eq_some_iff_getElem.mp found
    rw [names_set_same h (by simpa using same)]
    refine ⟨Or.inl, fun named => named.elim id fun named => ?_⟩
    rw [named, ← of_decide_eq_true same]
    exact List.mem_map_of_mem _ (List.getElem_mem h)
  · simp [names, or_comm, eq_comm]

theorem mem_names_mergeCookies {name : String} :
    ∀ {existing updates : List Cookie},
      name ∈ names (mergeCookies existing updates) ↔ name ∈ names existing ∨ name ∈ names updates
  | _, [] => by simp [mergeCookies, names]
  | existing, u :: rest => by
    have merged := @mem_names_mergeCookies name (mergeOne existing u) rest
    simp only [mergeCookies, List.foldl_cons] at merged ⊢
    rw [merged, mem_names_mergeOne]
    simp [names, or_assoc, eq_comm]

theorem cookies_extracted (base : SessionState) (resp : Response) (now : Nat) :
    (base.extracted resp now).cookies = mergeCookies base.cookies resp.cookies := by
  unfold SessionState.extracted
  split <;> split <;> rfl

/-! Runs in which extractions on one session never overlap. -/

/-- No `GetState` of an `ExtractFromResponse` call while another call on the same session is
    between its `GetState` and its `SetState`. -/
def NonOverlapping (m : HeartbeatManager) : HeartbeatAction → Prop
  | .load t => ∀ c ∈ m.calls, c.pc.isLoaded = true → ∀ d ∈ m.calls[t]?, c.sessionID ≠ d.sessionID
  | _ => True

instance NonOverlapping.decidable (m : HeartbeatManager) : (a : HeartbeatAction) → Decidable (NonOverlapping m a)
  | .call _ _ | .store _ _ => inferInstanceAs (Decidable True)
  | .load t => inferInstanceAs
    (Decidable (∀ c ∈ m.calls, c.pc.isLoaded = true → ∀ d ∈ m.calls[t]?, c.sessionID ≠ d.sessionID))

/-- What such runs keep: a call between its `GetState` and its `SetState` holds the stored
    state of its session and is the only one on that session, and every cookie name a returned
    call was given is in the stored state. -/
structure HeartbeatManager.Kept (m : HeartbeatManager) : Prop where
  loaded : ∀ (t : Nat) (c : Extract) (base : SessionState), m.calls[t]? = some c → c.pc = .loaded base →
    m.base c.sessionID = base
  alone : ∀ (i j : Nat) (ci cj : Extract), m.calls[i]? = some ci → m.calls[j]? = some cj →
    ci.pc.isLoaded = true → cj.pc.isLoaded = true → ci.sessionID = cj.sessionID → i = j
  kept : ∀ (t : Nat) (c : Extract) (resp : Response), m.calls[t]? = some c → c.pc = .done → c.resp = some resp →
    ∀ name ∈ names resp.cookies, name ∈ names (m.base c.sessionID).cookies

section Kept

variable {m : HeartbeatManager} {t : Nat}

theorem HeartbeatManager.getElem?_setCall (h : t < m.calls.length) (c : Extract) (j : Nat) :
    (m.setCall t c).calls[j]? = if t = j then some c else m.calls[j]? := by
  simp only [HeartbeatManager.setCall, List.getElem?_set, h, if_true]

@[simp] theorem HeartbeatManager.base_setCall (m : HeartbeatManager) (t : Nat) (c : Extract) (id : Int) :
    (m.setCall t c).base id = m.base id := rfl

theorem HeartbeatManager.base_setState (m : HeartbeatManager) (sessionID id : Int) (state : SessionState) :
    (m.setState sessionID state).base id = if id = sessionID then state else m.base id := by
  by_cases same : id = sessionID
  · subst same
    simp [HeartbeatManager.setState, HeartbeatManager.base]
  · simp [HeartbeatManager.setState, HeartbeatManager.base, same]

theorem newHeartbeatManager_kept : newHeartbeatManager.Kept :=
  ⟨fun _ _ _ found => (nomatch found), fun _ _ _ _ found => (nomatch found),
    fun _ _ _ found => (nomatch found)⟩

theorem HeartbeatManager.Kept.call (kept : m.Kept) (sessionID : Int) (resp : Option Response) :
    ({ m with calls := m.calls ++ [⟨sessionID, resp, .start⟩] } : HeartbeatManager).Kept := by
  have old : ∀ (j : Nat) (c : Extract), (m.calls ++ [⟨sessionID, resp, .start⟩])[j]? = some c →
      m.calls[j]? = some c ∨ c = ⟨sessionID, resp, .start⟩ := fun j c found => by
    by_cases h : j < m.calls.length
    · rw [List.getElem?_append_left h] at found
      exact .inl found
    · rw [List.getElem?_append_right (by omega)] at found
      obtain ⟨_, rfl⟩ := List.getElem?_eq_some_iff.mp found
      exact .inr (by simp)
  refine ⟨fun j c base found pc => ?_, fun i j ci cj foundI foundJ loadedI loadedJ same => ?_,
    fun j c resp' found pc sent => ?_⟩
  · rcases old j c found with found | rfl
    · exact kept.loaded j c base found pc
    · cases pc
  · rcases old i ci foundI with foundI | rfl
    · rcases old j cj foundJ with foundJ | rfl
      · exact kept.alone i j ci cj foundI foundJ loadedI loadedJ same
      · cases loadedJ
    · cases loadedI
  · rcases old j c found with found | rfl
    · exact kept.kept j c resp' found pc sent
    · cases pc

theorem HeartbeatManager.Kept.setCall (kept : m.Kept) (h : t < m.calls.length) {c : Extract}
    (loaded : ∀ base, c.pc = .loaded base → m.base c.sessionID = base)
    (alone : c.pc.isLoaded = true → ∀ j cj, j ≠ t → m.calls[j]? = some cj → cj.pc.isLoaded = true →
      cj.sessionID ≠ c.sessionID)
    (done : c.pc = .done → ∀ resp, c.resp = some resp → ∀ name ∈ names resp.cookies,
      name ∈ names (m.base c.sessionID).cookies) :
    (m.setCall t c).Kept := by
  refine ⟨fun j cj base found pc => ?_, fun i j ci cj foundI foundJ loadedI loadedJ same => ?_,
    fun j cj resp found pc sent => ?_⟩ <;>
    simp only [HeartbeatManager.getElem?_setCall h] at *
  · split at found
    · cases found
      exact loaded base pc
    · exact kept.loaded j cj base found pc
  · split at foundI <;> split at foundJ
    · subst_vars
      rfl
    · cases foundI
      exact absurd same.symm (alone loadedI j cj (Ne.symm ‹_›) foundJ loadedJ)
    · cases foundJ
      exact absurd same (alone loadedJ i ci (Ne.symm ‹_›) foundI loadedI)
    · exact kept.alone i j ci cj foundI foundJ loadedI loadedJ same
  · split at found
    · cases found
      exact done pc resp sent
    · exact kept.kept j cj resp found pc sent

theorem HeartbeatManager.Kept.store (kept : m.Kept) {c : Extract} (found : m.calls[t]? = some c) {base : SessionState}
    (pc : c.pc = .loaded base) {resp : Response} (sent : c.resp = some resp) (now : Nat) :
    ((m.setState c.sessionID (base.extracted resp now)).setCall t { c with pc := .done }).Kept := by
  have h : t < (m.setState c.sessionID (base.extracted resp now)).calls.length := (List.getElem?_eq_some_iff.mp found).1
  have current := kept.loaded t c base found pc
  have other : ∀ j cj, j ≠ t → m.calls[j]? = some cj → cj.pc.isLoaded = true → cj.sessionID ≠ c.sessionID :=
    fun j cj differ foundJ loaded same =>
      differ (kept.alone j t cj c foundJ found loaded (by simp [pc, ExtractPc.isLoaded]) same)
  refine ⟨fun j cj base' foundJ pcJ => ?_, fun i j ci cj foundI foundJ loadedI loadedJ same => ?_,
    fun j cj resp' foundJ pcJ sentJ => ?_⟩
  · rw [HeartbeatManager.getElem?_setCall h] at foundJ
    split at foundJ
    · cases foundJ
      cases pcJ
    · rw [HeartbeatManager.base_setCall, HeartbeatManager.base_setState,
        if_neg (other j cj (Ne.symm ‹_›) foundJ (by simp [pcJ, ExtractPc.isLoaded]))]
      exact kept.loaded j cj base' foundJ pcJ
  · rw [HeartbeatManager.getElem?_setCall h] at foundI foundJ
    split at foundI
    · cases foundI
      cases loadedI
    split at foundJ
    · cases foundJ
      cases loadedJ
    exact kept.alone i j ci cj foundI foundJ loadedI loadedJ same
  · intro name named
    rw [HeartbeatManager.getElem?_setCall h] at foundJ
    rw [HeartbeatManager.base_setCall, HeartbeatManager.base_setState]
    split at foundJ
    · cases foundJ
      rw [sent] at sentJ
      cases sentJ
      simp [cookies_extracted, mem_names_mergeCookies, named]
    · split
      · rename_i same
        rw [cookies_extracted, mem_names_mergeCookies, ← current, ← same]
        exact .inl (kept.kept j cj resp' foundJ pcJ sentJ name named)
      · exact kept.kept j cj resp' foundJ pcJ sentJ name named

theorem HeartbeatManager.Kept.step {m' : HeartbeatManager} {a : HeartbeatAction} (kept : m.Kept)
    (allowed : NonOverlapping m a) (stepped : m.step a = some m') : m'.Kept := by
  cases a with
  | call sessionID resp =>
    cases stepped
    exact kept.call sessionID resp
  | load t =>
    obtain ⟨c, found, stepped⟩ := Option.bind_eq_some.mp stepped
    have h := (List.getElem?_eq_some_iff.mp found).1
    have returned : (c.resp = none ∨ ∃ r, c.resp = some r ∧ r.cookies = []) →
        (m.setCall t { c with pc := .done }).Kept := fun early =>
      kept.setCall h (by simp) (by simp [ExtractPc.isLoaded]) fun _ r sent name named => by
        rcases early with none | ⟨r', some, empty⟩
        · simp [none] at sent
        · rw [some] at sent
          cases sent
          simp [names, empty] at named
    split at stepped
    · rename_i _ none
      cases stepped
      exact returned (.inl none)
    · rename_i resp _ sent
      split at stepped <;> cases stepped
      · exact returned (.inr ⟨resp, sent, ‹_›⟩)
      · refine kept.setCall h (fun _ pc => by cases pc; rfl) (fun _ j cj differ foundJ loaded => ?_) (fun pc => by cases pc)
        exact allowed cj (List.getElem?_mem foundJ) loaded c found
    · cases stepped
  | store t now =>
    obtain ⟨c, found, stepped⟩ := Option.bind_eq_some.mp stepped
    split at stepped
    · rename_i base resp pc sent
      cases stepped
      exact kept.store found pc sent now
    · cases stepped

end Kept

theorem HeartbeatManager.Reachable.kept {m : HeartbeatManager} (reach : m.Reachable NonOverlapping) : m.Kept := by
  induction reach with
  | init => exact newHeartbeatManager_kept
  | step _ allowed stepped kept => exact kept.step allowed stepped

theorem nonoverlapping_extractions_keep_every_cookie {m : HeartbeatManager} (reach : m.Reachable NonOverlapping)
    {t : Nat} {c : Extract} (found : m.calls[t]? = some c) (returned : c.pc = .done) {resp : Response}
    (sent : c.resp = some resp) {cookie : Cookie} (set : cookie ∈ resp.cookies) :
    ∃ state, m.sessions c.sessionID = some state ∧ ∃ kept ∈ state.cookies, kept.name = cookie.name := by
  have named := reach.kept.kept t c resp found returned sent cookie.name (List.mem_map_of_mem _ set)
  unfold HeartbeatManager.base at named
  split at named
  · rename_i state stored
    exact ⟨state, stored, List.mem_map.mp named⟩
  · simp [names] at named

def sid : Cookie := ⟨"sid", "1"⟩

def jwt : Cookie := ⟨"jwt", "eyJ"⟩

theorem nonoverlapping_extractions_keep_every_cookie_two_calls :
    ∃ m : HeartbeatManager, m.Reachable NonOverlapping ∧ ∃ c, m.calls[0]? = some c ∧
      ∃ state, m.sessions c.sessionID = some state ∧ ∃ kept ∈ state.cookies, kept.name = sid.name := by
  have first := ((((HeartbeatManager.Reachable.init : newHeartbeatManager.Reachable NonOverlapping).step
    (a := .call 7 (some ⟨[sid], ""⟩)) trivial rfl).step (a := .load 0) (by decide) rfl).step
      (a := .store 0 1) trivial rfl)
  have reach := ((first.step (a := .call 7 (some ⟨[jwt], ""⟩)) trivial rfl).step (a := .load 1) (by decide) rfl).step
    (a := .store 1 2) trivial rfl
  exact ⟨_, reach, ⟨7, some ⟨[sid], ""⟩, .done⟩, rfl,
    nonoverlapping_extractions_keep_every_cookie reach (t := 0) rfl rfl rfl (List.mem_singleton_self _)⟩

/-- Two extractions on session 7 that overlap: both `GetState`s run before either `SetState`,
    and the second `SetState` drops the cookie the first one stored. -/
theorem overlapping_extractions_lose_cookie :
    ∃ m : HeartbeatManager, newHeartbeatManager.run
        [.call 7 (some ⟨[sid], ""⟩), .call 7 (some ⟨[jwt], ""⟩), .load 0, .load 1, .store 0 1, .store 1 2] =
          some m ∧
      m.calls.map (·.pc) = [.done, .done] ∧ (m.sessions 7).map (fun state => names state.cookies) = some ["jwt"] :=
  ⟨_, rfl, rfl, rfl⟩

/-! Extractions on one session made one at a time. -/

/-- Append a name unless it is already there. -/
def addName (seen : List String) (name : String) : List String :=
  if name ∈ seen then seen else seen ++ [name]

/-- Names in the order of their first appearance. -/
def firstAppearances (names : List String) : List String :=
  names.foldl addName []

/-- The cookie set last under `name` in a sequence of `Set-Cookie` entries. -/
def lastNamed (cookies : List Cookie) (name : String) : Option Cookie :=
  cookies.reverse.find? fun c => c.name = name

theorem lastNamed_cons (c : Cookie) (cookies : List Cookie) (name : String) :
    lastNamed (c :: cookies) name = (lastNamed cookies name).or (if c.name = name then some c else none) := by
  simp only [lastNamed, List.reverse_cons, List.find?_append, List.find?_singleton, decide_eq_true_eq]

theorem mergeOne_cons (c : Cookie) (rest : List Cookie) (u : Cookie) :
    mergeOne (c :: rest) u = if c.name = u.name then u :: rest else c :: mergeOne rest u := by
  unfold mergeOne
  by_cases same : c.name = u.name
  · simp [same]
  · simp only [List.findIdx?_cons, same, decide_False, Bool.false_eq_true, if_false, List.findIdx?_start_succ]
    cases rest.findIdx? (·.name = u.name) <;> rfl

theorem names_mergeOne (out : List Cookie) (u : Cookie) : names (mergeOne out u) = addName (names out) u.name := by
  induction out with
  | nil => rfl
  | cons c rest ih =>
    rw [mergeOne_cons]
    by_cases same : c.name = u.name
    · simp [names, addName, same]
    · have other : u.name ≠ c.name := Ne.symm same
      simp only [same, if_false, names, List.map_cons] at ih ⊢
      rw [ih]
      simp only [addName, List.mem_cons, other, false_or]
      split <;> rfl

theorem find?_mergeOne (out : List Cookie) (u : Cookie) (name : String) :
    (mergeOne out u).find? (fun c => c.name = name) =
      if u.name = name then some u else out.find? fun c => c.name = name := by
  induction out with
  | nil => simp [mergeOne, List.find?_singleton]
  | cons c rest ih =>
    rw [mergeOne_cons]
    by_cases same : c.name = u.name
    · by_cases found : u.name = name
      · simp [same, found]
      · simp [same, found]
    · rw [if_neg same]
      by_cases found : c.name = name
      · have other : u.name ≠ name := fun named => same (found.trans named.symm)
        simp [found, other]
      · simp [found, ih]

theorem names_mergeCookies (existing updates : List Cookie) :
    names (mergeCookies existing updates) = (names updates).foldl addName (names existing) := by
  induction updates generalizing existing with
  | nil => rfl
  | cons u rest ih =>
    simp only [mergeCookies, List.foldl_cons] at ih ⊢
    rw [ih, names_mergeOne]
    rfl

theorem find?_mergeCookies (existing updates : List Cookie) (name : String) :
    (mergeCookies existing updates).find? (fun c => c.name = name) =
      (lastNamed updates name).or (existing.find? fun c => c.name = name) := by
  induction updates generalizing existing with
  | nil => simp [mergeCookies, lastNamed]
  | cons u rest ih =>
    simp only [mergeCookies, List.foldl_cons] at ih ⊢
    rw [ih, find?_mergeOne, lastNamed_cons, Option.or_assoc]
    split <;> rfl

theorem nodup_foldl_addName {seen : List String} (distinct : seen.Nodup) (names : List String) :
    (names.foldl addName seen).Nodup := by
  induction names generalizing seen with
  | nil => exact distinct
  | cons name rest ih =>
    refine ih ?_
    unfold addName
    split
    · exact distinct
    · rename_i absent
      refine List.pairwise_append.mpr ⟨distinct, List.pairwise_singleton _ _, fun a member b new => ?_⟩
      rw [List.mem_singleton.mp new]
      exact fun same => absent (same ▸ member)

theorem foldl_addName_of_nodup {seen names : List String} (distinct : (seen ++ names).Nodup) :
    names.foldl addName seen = seen ++ names := by
  induction names generalizing seen with
  | nil => simp
  | cons name rest ih =>
    have fresh : name ∉ seen := fun member =>
      (List.pairwise_append.mp distinct).2.2 name member name (List.mem_cons_self _ _) rfl
    rw [List.foldl_cons, addName, if_neg fresh, ih (by simpa using distinct)]
    simp

theorem names_mergeCookies_of_nodup {existing : List Cookie} (distinct : (names existing).Nodup)
    (updates : List Cookie) :
    names (mergeCookies existing updates) = firstAppearances (names existing ++ names updates) := by
  have first : (names existing).foldl addName [] = names existing := by
    simpa using @foldl_addName_of_nodup [] (names existing) (by simpa using distinct)
  rw [names_mergeCookies, firstAppearances, List.foldl_append, first]

/-- `ExtractFromResponse(sessionID, resp)` run to completion with no other call on the
    session between its `GetState` and its `SetState`. -/
def HeartbeatManager.extractFromResponse (m : HeartbeatManager) (sessionID : Int) (resp : Option Response)
    (now : Nat) : HeartbeatManager :=
  match resp with
  | none => m
  | some resp => if resp.cookies = [] then m else m.setState sessionID ((m.base sessionID).extracted resp now)

theorem HeartbeatManager.run_extractFromResponse (m : HeartbeatManager) (sessionID : Int) (resp : Response)
    (now : Nat) (set : resp.cookies ≠ []) :
    (m.run [.call sessionID (some resp), .load m.calls.length, .store m.calls.length now]).map
      HeartbeatManager.sessions = some (m.extractFromResponse sessionID (some resp) now).sessions := by
  simp [HeartbeatManager.run, HeartbeatManager.step, HeartbeatManager.extractFromResponse, set,
    HeartbeatManager.setCall, HeartbeatManager.setState, HeartbeatManager.base]

theorem HeartbeatManager.run_extractFromResponse_early (m : HeartbeatManager) (sessionID : Int)
    (resp : Option Response) (now : Nat) (early : ∀ r, resp = some r → r.cookies = []) :
    (m.run [.call sessionID resp, .load m.calls.length]).map HeartbeatManager.sessions =
      some (m.extractFromResponse sessionID resp now).sessions := by
  cases resp with
  | none => simp [HeartbeatManager.run, HeartbeatManager.step, HeartbeatManager.extractFromResponse,
      HeartbeatManager.setCall]
  | some r =>
    simp [HeartbeatManager.run, HeartbeatManager.step, HeartbeatManager.extractFromResponse, early r rfl,
      HeartbeatManager.setCall]

/-- The token a call of `ExtractFromResponse` on its own leaves. A response that sets no cookie
    returns before any check, so the state is as it was (none stays none) whatever its
    `Authorization` header says. Otherwise: the text after `Bearer ` of an `Authorization: Bearer`
    header, else the value of the first new cookie whose lower-cased name contains `jwt` or
    `token`, else the token the state had (empty for a fresh one). -/
theorem token_after_extract (m : HeartbeatManager) (sessionID : Int) (resp : Response) (now : Nat) :
    ((m.extractFromResponse sessionID (some resp) now).sessions sessionID).map SessionState.token =
      if resp.cookies = [] then (m.sessions sessionID).map SessionState.token
      else some (if stringsHasPrefix resp.authorization "Bearer " then stringsTrimPrefix resp.authorization "Bearer "
        else ((jwtCookie resp.cookies).map Cookie.value).getD (m.base sessionID).token) := by
  by_cases empty : resp.cookies = []
  · simp [HeartbeatManager.extractFromResponse, empty]
  · simp only [HeartbeatManager.extractFromResponse, empty, if_false, HeartbeatManager.setState,
      Function.update_same, Option.map_some', SessionState.extracted]
    split <;> cases jwtCookie resp.cookies <;> rfl

/-- A response with a bearer header and no cookie leaves the token as it was. -/
example : (((newHeartbeatManager.setState 1 ⟨1, "old", [], 0, true⟩).extractFromResponse 1
    (some ⟨[], "Bearer new"⟩) 5).sessions 1).map SessionState.token = some "old" := by
  decide

/-- Extractions on one session, one after another, each with its response and clock reading. -/
def HeartbeatManager.extractAll (m : HeartbeatManager) (sessionID : Int) :
    List (Option Response × Nat) → HeartbeatManager
  | [] => m
  | (resp, now) :: rest => (m.extractFromResponse sessionID resp now).extractAll sessionID rest

/-- The `Set-Cookie` entries of a sequence of responses, in order. -/
def setCookies (calls : List (Option Response × Nat)) : List Cookie :=
  calls.flatMap fun call => (call.1.map Response.cookies).getD []

theorem cookies_extractFromResponse (m : HeartbeatManager) (sessionID : Int) (resp : Option Response) (now : Nat) :
    ((m.extractFromResponse sessionID resp now).base sessionID).cookies =
      mergeCookies (m.base sessionID).cookies ((resp.map Response.cookies).getD []) := by
  rcases resp with _ | resp
  · rfl
  · by_cases empty : resp.cookies = []
    · simp [HeartbeatManager.extractFromResponse, empty, mergeCookies]
    · simp [HeartbeatManager.extractFromResponse, empty, HeartbeatManager.base_setState, cookies_extracted]

theorem cookies_extractAll (m : HeartbeatManager) (sessionID : Int) (calls : List (Option Response × Nat)) :
    ((m.extractAll sessionID calls).base sessionID).cookies = mergeCookies (m.base sessionID).cookies (setCookies calls) := by
  induction calls generalizing m with
  | nil => rfl
  | cons call rest ih =>
    rw [HeartbeatManager.extractAll, ih, cookies_extractFromResponse]
    simp only [setCookies, List.flatMap_cons, mergeCookies, List.foldl_append]

theorem sequential_extractions_merge_by_name {m : HeartbeatManager} {sessionID : Int}
    (distinct : (names (m.base sessionID).cookies).Nodup) (calls : List (Option Response × Nat)) :
    (names ((m.extractAll sessionID calls).base sessionID).cookies).Nodup ∧
      names ((m.extractAll sessionID calls).base sessionID).cookies =
        firstAppearances (names (m.base sessionID).cookies ++ names (setCookies calls)) ∧
      ∀ name, ((m.extractAll sessionID calls).base sessionID).cookies.find? (fun c => c.name = name) =
        (lastNamed (setCookies calls) name).or ((m.base sessionID).cookies.find? fun c => c.name = name) := by
  rw [cookies_extractAll, names_mergeCookies_of_nodup distinct]
  exact ⟨nodup_foldl_addName List.nodup_nil _, rfl, find?_mergeCookies _ _⟩

def sid2 : Cookie := ⟨"sid", "2"⟩

theorem sequential_extractions_merge_by_name_repeated_sid :
    (names (newHeartbeatManager.base 7).cookies).Nodup ∧
      (names ((newHeartbeatManager.extractAll 7 [(some ⟨[sid, jwt], ""⟩, 1), (some ⟨[sid2, sid], ""⟩, 2)]).base 7).cookies).Nodup ∧
      names ((newHeartbeatManager.extractAll 7 [(some ⟨[sid, jwt], ""⟩, 1), (some ⟨[sid2, sid], ""⟩, 2)]).base 7).cookies =
        firstAppearances (names (newHeartbeatManager.base 7).cookies ++
          names (setCookies [(some ⟨[sid, jwt], ""⟩, 1), (some ⟨[sid2, sid], ""⟩, 2)])) ∧
      ∀ name, ((newHeartbeatManager.extractAll 7 [(some ⟨[sid, jwt], ""⟩, 1), (some ⟨[sid2, sid], ""⟩, 2)]).base 7).cookies.find?
          (fun c => c.name = name) =
        (lastNamed (setCookies [(some ⟨[sid, jwt], ""⟩, 1), (some ⟨[sid2, sid], ""⟩, 2)]) name).or
          ((newHeartbeatManager.base 7).cookies.find? fun c => c.name = name) :=
  ⟨List.nodup_nil, @sequential_extractions_merge_by_name newHeartbeatManager 7 List.nodup_nil _⟩

end SessionEngine.Token
