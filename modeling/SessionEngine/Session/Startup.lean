import SessionEngine.Proxy.Load
import SessionEngine.Session.Manager
import SessionEngine.Encoding.Url

namespace SessionEngine

open SessionEngine.Encoding SessionEngine.Proxy

/-! `main`'s startup from the proxy file to the registered sessions: `LoadProxies` on a fresh
    `ProxyManager`, then `CreateSessions(count, pm)`, whose goroutines take the proxy mutex in some
    order and build their sessions with `NewSession`. With the non-nil config `main` passes,
    `NewSession` fails only where `NewHTTPClient`'s `buildTransport` fails: at `url.Parse` of a
    non-empty proxy (`cookiejar.New(nil)` never fails). -/

/-- The `Error()` text of the error `url.Parse` wraps. -/
def Encoding.UrlError.text (t : PrintTable) : UrlError → List UInt8
  | .invalidControl => goBytes "net/url: invalid control character in URL"
  | .missingScheme => goBytes "missing protocol scheme"
  | .colonInFirstSegment => goBytes "first path segment in URL cannot contain colon"
  | .escape s => goBytes "invalid URL escape " ++ quote t s
  | .invalidHost s => goBytes "invalid character " ++ quote t s ++ goBytes " in host name"
  | .missingBracket => goBytes "missing ']' in host"
  | .invalidPort colonPort => goBytes "invalid port " ++ quote t colonPort ++ goBytes " after host"
  | .invalidUserinfo => goBytes "net/url: invalid userinfo"

/-- `(*url.Error).Error()` for `url.Parse(rawURL)`: `"parse %q: %s"` of the text before `#` when
    `parse` failed, of the whole text when the fragment did. -/
def urlErrorText (t : PrintTable) (rawURL : List UInt8) (err : UrlError) : List UInt8 :=
  let url := match parse (cutByte 0x23 rawURL).1 with
    | .error _ => (cutByte 0x23 rawURL).1
    | .ok _ => rawURL
  goBytes "parse " ++ quote t url ++ goBytes ": " ++ err.text t

/-- A Go string as the Lean string of its runes; a byte that starts no valid sequence reads as
    U+FFFD. -/
def runeString (bytes : List UInt8) : String :=
  ⟨(decodeRunes bytes).map fun
    | .valid r => Char.ofNat r
    | .invalid _ => Char.ofNat 0xFFFD⟩

/-- Whether `NewSession` accepts a proxy: empty for a direct connection, or one `url.Parse` parses. -/
def usableProxy (proxy : String) : Bool :=
  proxy = "" ||
    match urlParse (goBytes proxy) with
    | .ok _ => true
    | .error _ => false

/-- What the goroutine of `CreateSessions` for `id` sends after `GetNextProxy` gave it `proxy`:
    the session of `NewSession(id, proxy, cfg)`, or its error, `buildTransport`'s wrapped once more. -/
def newSessionReport (t : PrintTable) (id : Nat) (proxy : String) : Report :=
  (id, if proxy = "" then .ok proxy
    else
      match urlParse (goBytes proxy) with
      | .ok _ => .ok proxy
      | .error err =>
        .error (runeString (goBytes ("session " ++ toString id ++ ": create HTTP client: client: parse proxy URL ") ++
          quote t (goBytes proxy) ++ goBytes ": " ++ urlErrorText t (goBytes proxy) err)))

/-- The session a report registers, if any. -/
def reportSession (report : Report) : Option Session :=
  match report.2 with
  | .ok proxy => some (newSession report.1 proxy)
  | .error _ => none

/-- A bare `IP:port` line has no scheme and a colon in its first segment: `url.Parse` rejects it,
    while `host:port` with a letter first reads the host as a scheme. -/
example : usableProxy "10.0.0.1:8080" = false ∧ usableProxy "proxy.local:8080" = true ∧
    usableProxy "http://10.0.0.1:8080" = true := by
  decide

section Registration

theorem newSessionReport_fst (t : PrintTable) (id : Nat) (proxy : String) : (newSessionReport t id proxy).1 = id :=
  rfl

theorem reportSession_newSessionReport (t : PrintTable) (id : Nat) (proxy : String) :
    reportSession (newSessionReport t id proxy) = if usableProxy proxy then some (newSession id proxy) else none := by
  unfold reportSession newSessionReport usableProxy
  by_cases direct : proxy = ""
  · simp [direct]
  · cases urlParse (goBytes proxy) <;> simp [direct]

theorem lookup_insertSession (sessions : List (Nat × Session)) (id key : Nat) (s : Session) :
    (insertSession sessions id s).lookup key = if key = id then some s else sessions.lookup key := by
  induction sessions with
  | nil =>
    by_cases same : key = id
    · subst same
      simp [insertSession]
    · rw [insertSession, List.lookup_cons, beq_eq_false_iff_ne.mpr same, if_neg same]
  | cons entry rest ih =>
    obtain ⟨k, old⟩ := entry
    by_cases same : key = k
    · subst same
      by_cases replaced : key = id
      · subst replaced
        simp [insertSession]
      · simp [insertSession, Ne.symm replaced, replaced]
    · have other : (key == k) = false := beq_eq_false_iff_ne.mpr same
      by_cases replaced : k = id
      · subst replaced
        rw [insertSession, if_pos rfl, List.lookup_cons, List.lookup_cons, other, if_neg same]
      · rw [insertSession, if_neg replaced, List.lookup_cons, List.lookup_cons, other, ih]

theorem lookup_collectReport (acc : List (Nat × Session) × List String) (report : Report) (key : Nat) :
    (collectReport acc report).1.lookup key = if key = report.1 then (reportSession report).or (acc.1.lookup key)
      else acc.1.lookup key := by
  unfold collectReport reportSession
  split <;> rename_i same <;> simp only [same, lookup_insertSession] <;> split_ifs <;> rfl

theorem lookup_foldl_collectReport_of_not_mem (key : Nat) :
    ∀ (reports : List Report) (acc : List (Nat × Session) × List String), key ∉ reports.map Prod.fst →
      (reports.foldl collectReport acc).1.lookup key = acc.1.lookup key
  | [], _, _ => rfl
  | report :: reports, acc, absent => by
    simp only [List.map_cons, List.mem_cons, not_or] at absent
    rw [List.foldl_cons, lookup_foldl_collectReport_of_not_mem key reports _ absent.2, lookup_collectReport,
      if_neg absent.1]

theorem lookup_foldl_collectReport (report : Report) :
    ∀ (reports : List Report) (acc : List (Nat × Session) × List String), (reports.map Prod.fst).Nodup →
      report ∈ reports → (reports.foldl collectReport acc).1.lookup report.1 = (reportSession report).or (acc.1.lookup report.1)
  | [], _, _, member => absurd member (List.not_mem_nil _)
  | first :: reports, acc, distinct, member => by
    rw [List.map_cons, List.nodup_cons] at distinct
    rw [List.foldl_cons]
    rcases List.mem_cons.mp member with rfl | later
    · rw [lookup_foldl_collectReport_of_not_mem _ reports _ distinct.1, lookup_collectReport, if_pos rfl]
    · have other : report.1 ≠ first.1 := fun same => distinct.1 (same ▸ List.mem_map_of_mem Prod.fst later)
      rw [lookup_foldl_collectReport report reports _ distinct.2 later, lookup_collectReport, if_neg other]

theorem foldl_collectReport_errors :
    ∀ (reports : List Report) (acc : List (Nat × Session) × List String),
      (reports.foldl collectReport acc).2 = acc.2 ++ reports.filterMap fun report =>
        match report.2 with
        | .error err => some err
        | .ok _ => none
  | [], acc => (List.append_nil _).symm
  | report :: reports, acc => by
    rw [List.foldl_cons, foldl_collectReport_errors reports, List.filterMap_cons]
    unfold collectReport
    split <;> rename_i same <;> simp [same]

theorem createSessions_ok_iff (sm : SessionManager) (reports : List Report) :
    (sm.createSessions reports).2 = .ok () ↔ ∀ report ∈ reports, (reportSession report).isSome := by
  dsimp only [SessionManager.createSessions]
  rw [foldl_collectReport_errors]
  constructor
  · intro ok report member
    split at ok
    · rename_i empty
      have none := List.filterMap_eq_nil_iff.mp (List.append_eq_nil.mp empty).2 report member
      unfold reportSession
      split at none <;> simp_all
    · cases ok
  · intro all
    have empty : ([] : List String) ++ reports.filterMap (fun report =>
        match report.2 with
        | .error err => some err
        | .ok _ => none) = [] := by
      rw [List.nil_append, List.filterMap_eq_nil_iff]
      intro report member
      have some := all report member
      unfold reportSession at some
      split at some <;> simp_all
    simp only [empty]

end Registration

section Startup

theorem createSessionProxies_fresh {ps : List String} (nonempty : ps ≠ []) (order : List Nat) :
    createSessionProxies ⟨ps, 0⟩ order =
      some (order.zip ((List.range order.length).map fun j => ps.getD (j % ps.length) "")) := by
  have start := getNextProxies_from (List.length_pos.mpr nonempty) order.length
  simp only [Nat.zero_add] at start
  simp [createSessionProxies, start]

theorem getSession_createSessions (reports : List Report) (id : Nat) :
    (SessionManager.empty.createSessions reports).1.getSession id = (reports.foldl collectReport ([], [])).1.lookup id :=
  rfl

theorem startup_registers_sessions_with_usable_proxies (t : PrintTable) {ps : List String}
    (wellFormed : ∀ p ∈ ps, ProxyLine p) (nonempty : ps ≠ []) {pm : ProxyManager}
    (loaded : (ProxyManager.mk [] 0).loadProxiesFile (.ok (renderLines (ps.map String.data))) = .ok pm)
    {count : Nat} {order : List Nat} (ordered : order.Perm (List.range count))
    {assigned : List (Nat × String)} (handed : createSessionProxies pm order = some assigned)
    {arrived : List Report} (arrival : arrived.Perm (assigned.map fun a => newSessionReport t a.1 a.2)) :
    assigned = order.zip ((List.range count).map fun j => ps.getD (j % ps.length) "") ∧
      (∀ id proxy, (id, proxy) ∈ assigned →
        (SessionManager.empty.createSessions arrived).1.getSession id =
          if usableProxy proxy then some (newSession id proxy) else none) ∧
      (∀ id, count ≤ id → (SessionManager.empty.createSessions arrived).1.getSession id = none) ∧
      ((SessionManager.empty.createSessions arrived).2 = .ok () ↔ ∀ a ∈ assigned, usableProxy a.2) := by
  have fresh : pm = ⟨ps, 0⟩ := Except.ok.inj (loaded.symm.trans (loadProxiesFile_renderLines wellFormed))
  have length : order.length = count := ordered.length_eq.trans (List.length_range count)
  have given : assigned = order.zip ((List.range count).map fun j => ps.getD (j % ps.length) "") := by
    rw [fresh, createSessionProxies_fresh nonempty, length] at handed
    exact (Option.some.inj handed).symm
  have ids : (arrived.map Prod.fst).Perm order := by
    refine (arrival.map Prod.fst).trans ?_
    rw [List.map_map, given]
    show ((order.zip _).map Prod.fst).Perm order
    rw [List.map_fst_zip _ _ (by simp [length])]
  have distinct : (arrived.map Prod.fst).Nodup := ids.nodup_iff.mpr (ordered.nodup_iff.mpr (List.nodup_range count))
  refine ⟨given, fun id proxy member => ?_, fun id late => ?_, ?_⟩
  · have arrivedReport : newSessionReport t id proxy ∈ arrived :=
      arrival.mem_iff.mpr (List.mem_map_of_mem (fun a => newSessionReport t a.1 a.2) member)
    rw [getSession_createSessions, ← newSessionReport_fst t id proxy,
      lookup_foldl_collectReport _ arrived _ distinct arrivedReport, reportSession_newSessionReport]
    simp [newSessionReport_fst]
  · rw [getSession_createSessions, lookup_foldl_collectReport_of_not_mem id arrived _ fun member => ?_]
    · rfl
    · have := ordered.mem_iff.mp (ids.mem_iff.mp member)
      rw [List.mem_range] at this
      omega
  · rw [createSessions_ok_iff]
    constructor
    · intro all a member
      have some := all _ (arrival.mem_iff.mpr (List.mem_map_of_mem (fun a => newSessionReport t a.1 a.2) member))
      rw [reportSession_newSessionReport] at some
      split at some
      · assumption
      · cases some
    · intro all report member
      obtain ⟨a, inAssigned, rfl⟩ := List.mem_map.mp (arrival.mem_iff.mp member)
      rw [reportSession_newSessionReport, if_pos (all a inAssigned)]
      rfl

/-- A table that counts nothing above Latin-1 as printable; the texts below are ASCII. -/
def latinOnly : PrintTable := ⟨fun _ => false, rfl, rfl⟩

/-- The reports of three goroutines that took the mutex in the order 1, 2, 0 over a file of a bare
    `IP:port` line and a proxy URL, arriving in the reverse order. -/
def bareIpReports : List Report :=
  ([(1, "10.0.0.1:8080"), (2, "http://h:3128"), (0, "10.0.0.1:8080")].map
    fun a => newSessionReport latinOnly a.1 a.2).reverse

theorem startup_rejects_bare_ip_port :
    (SessionManager.empty.createSessions bareIpReports).1.getSession 2 = some (newSession 2 "http://h:3128") ∧
      (SessionManager.empty.createSessions bareIpReports).1.getSession 1 = none ∧
      (SessionManager.empty.createSessions bareIpReports).1.getSession 0 = none ∧
      (SessionManager.empty.createSessions bareIpReports).2 ≠ .ok () := by
  obtain ⟨-, registered, -, ok⟩ := @startup_registers_sessions_with_usable_proxies latinOnly
    ["10.0.0.1:8080", "http://h:3128"] (by decide) (by decide) ⟨["10.0.0.1:8080", "http://h:3128"], 0⟩ rfl 3 [1, 2, 0]
    (by decide) _ rfl bareIpReports (List.reverse_perm _)
  refine ⟨?_, ?_, ?_, fun success => ?_⟩
  · rw [registered 2 "http://h:3128" (by decide), if_pos (by decide)]
  · rw [registered 1 "10.0.0.1:8080" (by decide), if_neg (by decide)]
  · rw [registered 0 "10.0.0.1:8080" (by decide), if_neg (by decide)]
  · exact absurd (ok.mp success (1, "10.0.0.1:8080") (by decide)) (by decide)

end Startup

end SessionEngine
