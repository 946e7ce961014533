import SessionEngine.Cluster.Jar
import SessionEngine.Cluster.Status

namespace SessionEngine.Cluster

/-- The `pb.Cookie` that `WorkerClient.BroadcastCookie` builds from an `http.Cookie`:
    `ExpiresUnix` is `c.Expires.Unix()`, or 0 when `c.Expires.IsZero()`. -/
def toPbCookie (c : HttpCookie) : Cookie :=
  ⟨c.name, c.value, c.domain, c.path, if c.expires.isZero then 0 else c.expires.unix, c.secure, c.httpOnly⟩

/-- The `pbCookies` slice of `WorkerClient.BroadcastCookie`. -/
def pbCookies (cookies : List HttpCookie) : List Cookie :=
  cookies.map toPbCookie

/-- `pbCookiesToHTTP` at the clock reading `now`: it skips the cookies that `ToHTTPCookies`
    skips and sets `Expires` to `time.Unix(c.ExpiresUnix, 0)` when `ExpiresUnix > 0`. -/
def pbCookiesToHTTP (cookies : List Cookie) (now : Int) : List HttpCookie :=
  cookies.filterMap fun c =>
    if c.expired now then none
    else some ⟨c.name, c.value, c.domain, c.path, if 0 < c.expiresUnix then Time.ofUnix c.expiresUnix else Time.zero,
      c.secure, c.httpOnly⟩

theorem toPbCookie_expiresUnix (c : HttpCookie) :
    (toPbCookie c).expiresUnix = if c.expires = Time.zero then 0 else c.expires.unix := by
  simp [toPbCookie, Time.isZero]

theorem toPbCookie_expiresUnix_pos (c : HttpCookie) : 0 < (toPbCookie c).expiresUnix ↔ 0 < c.expires.unix := by
  rw [toPbCookie_expiresUnix]
  split
  · rename_i zero
    rw [zero]
    decide
  · rfl

theorem toPbCookie_expiresUnix_of_pos {c : HttpCookie} (pos : 0 < c.expires.unix) :
    (toPbCookie c).expiresUnix = c.expires.unix := by
  rw [toPbCookie_expiresUnix]
  split
  · rename_i zero
    rw [zero] at pos
    exact absurd pos (by decide)
  · rfl

theorem toPbCookie_expired (c : HttpCookie) (now : Int) :
    (toPbCookie c).expired now = decide (0 < c.expires.unix ∧ c.expires.unix < now) := by
  by_cases pos : 0 < c.expires.unix
  · simp [Cookie.expired, toPbCookie_expiresUnix_of_pos pos, pos]
  · have off := mt (toPbCookie_expiresUnix_pos c).mp pos
    simp [Cookie.expired, off, pos]

theorem broadcast_round_trip_drops_positive_expired (c : HttpCookie) (now : Int) :
    pbCookiesToHTTP (pbCookies [c]) now =
      (if 0 < c.expires.unix ∧ c.expires.unix < now then []
       else [{ c with expires := if 0 < c.expires.unix then Time.ofUnix c.expires.unix else Time.zero }]) ∧
    toHTTPCookies (storeAll [pbCookies [c]]) now =
      (if 0 < c.expires.unix ∧ c.expires.unix < now then [] else [{ c with expires := Time.zero }]) := by
  have expires : (if 0 < (toPbCookie c).expiresUnix then Time.ofUnix (toPbCookie c).expiresUnix else Time.zero) =
      if 0 < c.expires.unix then Time.ofUnix c.expires.unix else Time.zero := by
    by_cases pos : 0 < c.expires.unix
    · simp [pos, toPbCookie_expiresUnix_of_pos pos]
    · simp [pos, mt (toPbCookie_expiresUnix_pos c).mp pos]
  by_cases gone : 0 < c.expires.unix ∧ c.expires.unix < now
  · simp [pbCookies, pbCookiesToHTTP, toHTTPCookies, storeAll, storeEntries, putEntry, toPbCookie_expired, gone]
  · simp only [pbCookies, pbCookiesToHTTP, toHTTPCookies, storeAll, storeEntries, putEntry, List.map_cons,
      List.map_nil, List.foldl_cons, List.foldl_nil, List.filterMap_cons, List.filterMap_nil, toPbCookie_expired,
      gone, decide_False, if_false, Bool.false_eq_true, expires]
    simp [toPbCookie, Cookie.toHttp]

/-- The cookie of TestWorkerClient_BroadcastAndGet, with `Expires` at the Unix epoch, the
    usual way to delete a cookie. -/
def epochCookie : HttpCookie := ⟨"_abck", "sentinel", "example.com", "/", Time.ofUnix 0, false, false⟩

/-- A cookie whose non-zero `Expires` lies before `now = 1` is read back by both paths, with a
    zero `Expires`. -/
theorem epoch_expiry_survives_round_trip :
    epochCookie.expires.isZero = false ∧ epochCookie.expires.unix < 1 ∧
      pbCookiesToHTTP (pbCookies [epochCookie]) 1 = [{ epochCookie with expires := Time.zero }] ∧
      toHTTPCookies (storeAll [pbCookies [epochCookie]]) 1 = [{ epochCookie with expires := Time.zero }] :=
  ⟨rfl, by decide, rfl, rfl⟩


/-- `w.ReportStatus(ctx, sessionID, state)` as the master receives it: an `UpdateStatus` whose
    status is the session id, the worker's `pcID` and `state`, never nil. -/
def reportStatus (pcID : String) (sessionID : Int) (state : String) : StatusAction :=
  .updateStatus (some ⟨sessionID, pcID, state⟩)

theorem report_status_listed_by_later_calls {m m' : StatusMap} (reach : m.Reachable) (pcID state : String)
    (sessionID : Int) (acts : List StatusAction)
    (quiet : ∀ st, .updateStatus (some st) ∈ acts → st.sessionId ≠ sessionID)
    (ran : m.run (reportStatus pcID sessionID state :: acts) = some m') {i : Nat} {r : Ranging}
    (after : m.calls ≤ i) (found : m'.ranges i = some r) (returned : r.returned = true) :
    ⟨sessionID, pcID, state⟩ ∈ r.sessions ∧
      ∀ st ∈ r.sessions, st.sessionId = sessionID → st = ⟨sessionID, pcID, state⟩ := by
  obtain ⟨m₁, stepped, rest⟩ := Option.bind_eq_some.mp ran
  exact ((reach.holds_of_store stepped).run rest quiet).listed ((reach.step stepped).run rest) after found returned

/-- Session 7 reported active by `pc-3`, then a `GetAllStatus` during which session 8 changes. -/
theorem report_status_listed_while_another_changes :
    ∃ m' r, StatusMap.init.run [reportStatus "pc-3" 7 "active", .updateStatus (some ⟨8, "pc-4", "idle"⟩),
        .getAllStatus, .visit 0 8, .updateStatus (some ⟨8, "pc-4", "closed"⟩), .visit 0 7, .finish 0] = some m' ∧
      m'.ranges 0 = some r ∧ r.returned = true ∧
      (⟨7, "pc-3", "active"⟩ ∈ r.sessions ∧ ∀ st ∈ r.sessions, st.sessionId = 7 → st = ⟨7, "pc-3", "active"⟩) :=
  ⟨_, _, rfl, rfl, rfl, report_status_listed_by_later_calls StatusMap.Reachable.init "pc-3" "active" 7
    [.updateStatus (some ⟨8, "pc-4", "idle"⟩), .getAllStatus, .visit 0 8, .updateStatus (some ⟨8, "pc-4", "closed"⟩),
      .visit 0 7, .finish 0] (by simp) rfl le_rfl rfl rfl⟩

end SessionEngine.Cluster
