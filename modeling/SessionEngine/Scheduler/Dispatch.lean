import Mathlib.Data.List.Nodup
import SessionEngine.Session.Manager

namespace SessionEngine

/-- The sessions one `dispatchJobs` round submits a job for, in order: it reads `Count()` once
    and looks up every id below it, skipping the ids `GetSession` does not find. -/
def dispatchJobs (sm : SessionManager) : List Session :=
  (List.range sm.count).filterMap sm.getSession

theorem mem_dispatchJobs {sm : SessionManager} {s : Session} :
    s ∈ dispatchJobs sm ↔ ∃ id < sm.count, sm.getSession id = some s := by
  simp [dispatchJobs]

/-- What `CreateSessions` maintains: one entry per id, each session stored under its own id. -/
structure SessionManager.Keyed (sm : SessionManager) : Prop where
  unique : (sm.sessions.map Prod.fst).Nodup
  own : ∀ entry ∈ sm.sessions, entry.2.id = entry.1

theorem insertSession_keys (sessions : List (Nat × Session)) (id : Nat) (s : Session) :
    ∀ key, key ∈ (insertSession sessions id s).map Prod.fst ↔ key ∈ sessions.map Prod.fst ∨ key = id := by
  induction sessions with
  | nil => simp [insertSession]
  | cons entry rest ih =>
    intro key
    unfold insertSession
    split <;> simp_all [or_comm, or_left_comm]

theorem SessionManager.Keyed.insert {sessions : List (Nat × Session)} {id : Nat} {s : Session}
    (keyed : SessionManager.Keyed ⟨sessions⟩) (own : s.id = id) :
    SessionManager.Keyed ⟨insertSession sessions id s⟩ := by
  induction sessions with
  | nil => exact ⟨by simp [insertSession], by simp [insertSession, own]⟩
  | cons entry rest ih =>
    obtain ⟨unique, owned⟩ := keyed
    simp only [List.map_cons, List.nodup_cons, List.mem_cons, forall_eq_or_imp] at unique owned
    have tail := ih ⟨unique.2, owned.2⟩
    unfold insertSession
    split
    · rename_i same
      subst same
      exact ⟨by simpa using unique, by simpa [own] using owned.2⟩
    · refine ⟨?_, ?_⟩
      · simp only [List.map_cons, List.nodup_cons]
        refine ⟨?_, tail.unique⟩
        rw [insertSession_keys]
        exact fun member => member.elim unique.1 ‹¬entry.1 = id›
      · simpa [owned.1] using tail.own

theorem foldl_collectReport_keyed (reports : List Report) :
    ∀ acc : List (Nat × Session) × List String, SessionManager.Keyed ⟨acc.1⟩ →
      SessionManager.Keyed ⟨(reports.foldl collectReport acc).1⟩ := by
  induction reports with
  | nil => exact fun _ keyed => keyed
  | cons report rest ih =>
    intro acc keyed
    apply ih
    unfold collectReport
    split
    · exact keyed
    · exact keyed.insert rfl

theorem SessionManager.Reachable.keyed {sm : SessionManager} (reach : sm.Reachable) : sm.Keyed := by
  induction reach with
  | empty => exact ⟨by simp [SessionManager.empty], by simp [SessionManager.empty]⟩
  | create count reports _ _ ih => exact foldl_collectReport_keyed reports _ ih

theorem SessionManager.Keyed.getSession_id {sm : SessionManager} {id : Nat} {s : Session}
    (keyed : sm.Keyed) (found : sm.getSession id = some s) : s.id = id := by
  obtain ⟨sessions⟩ := sm
  have own := keyed.own
  simp only [SessionManager.getSession] at found own
  induction sessions with
  | nil => cases found
  | cons entry rest ih =>
    obtain ⟨key, t⟩ := entry
    simp only [List.mem_cons, forall_eq_or_imp] at own
    simp only [List.lookup_cons] at found
    split at found
    · rename_i same
      cases found
      simpa [beq_iff_eq.mp same] using own.1
    · exact ih ⟨(List.nodup_cons.mp keyed.unique).2, own.2⟩ found own.2

theorem dispatchJobs_covers_iff {sm : SessionManager} (reach : sm.Reachable) :
    (dispatchJobs sm).Nodup ∧
      ((∀ id s, sm.getSession id = some s → s ∈ dispatchJobs sm) ↔
        ∀ id, (sm.getSession id).isSome → id < sm.count) := by
  have keyed := reach.keyed
  refine ⟨?_, ⟨fun covered id found => ?_, fun below id s found => ?_⟩⟩
  · refine List.Nodup.filterMap (fun a b s found₁ found₂ => ?_) (List.nodup_range sm.count)
    rw [← keyed.getSession_id found₁, keyed.getSession_id found₂]
  · obtain ⟨s, found⟩ := Option.isSome_iff_exists.mp found
    obtain ⟨id', below, found'⟩ := mem_dispatchJobs.mp (covered id s found)
    rwa [← keyed.getSession_id found, keyed.getSession_id found']
  · exact mem_dispatchJobs.mpr ⟨id, below id (by simp [found]), found⟩

/-- `CreateSessions(2, pm)` after which session 0 failed on an invalid proxy URL and session 1
    was created. -/
def partiallyCreated : SessionManager :=
  (SessionManager.empty.createSessions
    [(0, .error "session 0: create HTTP client: client: parse proxy URL: missing protocol scheme"),
     (1, .ok "")]).1

/-- In that state session 1 is registered, `Count()` is 1, and a `dispatchJobs` round submits
    nothing. -/
theorem dispatchJobs_skips_session_one :
    partiallyCreated.Reachable ∧ partiallyCreated.getSession 1 = some (newSession 1 "") ∧
      partiallyCreated.count = 1 ∧ dispatchJobs partiallyCreated = [] :=
  ⟨.create 2 _ .empty (by decide), rfl, rfl, rfl⟩

end SessionEngine
