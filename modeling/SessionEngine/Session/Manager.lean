import Mathlib.Data.List.Perm.Basic

namespace SessionEngine

/-- The fields of `Session` the manager and the scheduler read or write. -/
structure Session where
  id : Nat
  proxy : String
  state : String
  deriving DecidableEq, Repr

/-- A session `NewSession` builds when its HTTP client can be constructed. -/
def newSession (id : Nat) (proxy : String) : Session :=
  { id, proxy, state := "idle" }

/-- `SessionManager.sessions`, a Go map from id to session, kept as a list with one entry per
    key. -/
structure SessionManager where
  sessions : List (Nat × Session)
  deriving DecidableEq, Repr

def SessionManager.empty : SessionManager := ⟨[]⟩

/-- `sessions[id] = s`: replace the entry for `id`, or add one. -/
def insertSession : List (Nat × Session) → Nat → Session → List (Nat × Session)
  | [], id, s => [(id, s)]
  | (key, old) :: rest, id, s =>
    if key = id then (id, s) :: rest else (key, old) :: insertSession rest id s

def SessionManager.getSession (sm : SessionManager) (id : Nat) : Option Session :=
  sm.sessions.lookup id

def SessionManager.count (sm : SessionManager) : Nat :=
  sm.sessions.length

/-- What one creation goroutine of `CreateSessions` reports: its id, and the proxy of the
    session `NewSession` built or the error it returned (for an invalid proxy URL). -/
abbrev Report := Nat × Except String String

/-- One iteration of the collecting loop of `CreateSessions`: a success is registered under
    its id, a failure is appended to `errs`. -/
def collectReport (acc : List (Nat × Session) × List String) (report : Report) :
    List (Nat × Session) × List String :=
  match report.2 with
  | .error err => (acc.1, acc.2 ++ [err])
  | .ok proxy => (insertSession acc.1 report.1 (newSession report.1 proxy), acc.2)

/-- `CreateSessions`, given its goroutines' `reports` in the order they arrive on the
    channel; the failures are counted and the first one wrapped into the returned error. -/
def SessionManager.createSessions (sm : SessionManager) (reports : List Report) :
    SessionManager × Except String Unit :=
  let collected := reports.foldl collectReport (sm.sessions, [])
  ({ sessions := collected.1 },
    match collected.2 with
    | [] => .ok ()
    | first :: _ => .error ("session manager: " ++ toString collected.2.length ++
        " session(s) failed to create; first error: " ++ first))

/-- The manager states `CreateSessions` calls reach: each call's goroutines report once for
    every id below `count`, in any order, and any of them may fail. -/
inductive SessionManager.Reachable : SessionManager → Prop
  | empty : SessionManager.Reachable .empty
  | create {sm : SessionManager} (count : Nat) (reports : List Report) :
      SessionManager.Reachable sm → (reports.map Prod.fst).Perm (List.range count) →
      SessionManager.Reachable (sm.createSessions reports).1

end SessionEngine
