import Mathlib.Data.List.DropRight
import SessionEngine.Proxy.Load
import SessionEngine.Encoding.Url

namespace SessionEngine.Token

open SessionEngine.Encoding

/-! `TokenRefreshManager.Refresh`: a GET of the refresh URL, the first 8192 bytes of a 2xx body,
    trimmed of white space, stored as the token; `SendHeartbeat`, a GET of the heartbeat URL
    carrying the token; and what a run of calls on one manager does to its token. -/

/-- `unicode.IsSpace` of a rune `strings.TrimSpace` decodes; a byte that starts no valid sequence
    decodes as `RuneError`, which is no space. -/
def runeIsSpace : DecodedRune → Bool
  | .valid r => Proxy.isSpace (Char.ofNat r)
  | .invalid _ => false

/-- `strings.TrimSpace` on the bytes of a Go string: the bytes of its runes, white space at both
    ends dropped. Its ASCII fast path drops the same bytes, and its backward decoding from the end
    meets the rune boundaries of the forward decoding. -/
def trimSpaceBytes (s : List UInt8) : List UInt8 :=
  (((decodeRunes s).dropWhile runeIsSpace).rdropWhile runeIsSpace).flatMap DecodedRune.bytes

/-- The limit of the `io.LimitReader` around the body. -/
def refreshBodyLimit : Nat := 8192

/-- `io.ReadAll(io.LimitReader(resp.Body, 8192))` on a body that delivers `body` and then ends with
    `readError` (`none` for EOF): the reader stops at the limit, so an error met past it is never
    read. An error that arrives together with the bytes that reach the limit counts as past it. -/
def limitedRead (body : List UInt8) (readError : Option String) : Except String (List UInt8) :=
  if refreshBodyLimit ≤ body.length then .ok (body.take refreshBodyLimit)
  else match readError with
    | some err => .error err
    | none => .ok body

/-- How `m.client.Get(m.refreshURL)` ends: an error, or a response with its status code and the
    body it delivers. -/
inductive RefreshOutcome where
  | failed (err : String)
  | response (statusCode : Int) (body : List UInt8) (readError : Option String)

inductive RefreshError where
  | notConfigured
  | request (err : String)
  | status (statusCode : Int)
  | read (err : String)
  | emptyToken
  deriving DecidableEq, Repr

def RefreshError.message : RefreshError → String
  | .notConfigured => "token: refresh URL is not configured"
  | .request err => "token: refresh request: " ++ err
  | .status statusCode => "token: refresh returned HTTP " ++ toString statusCode
  | .read err => "token: read refresh response: " ++ err
  | .emptyToken => "token: refresh returned empty token"

/-- `Refresh()` up to its `SetToken`: the new token, or the error it returns. -/
def fetchToken (refreshURL : String) (outcome : RefreshOutcome) : Except RefreshError (List UInt8) :=
  if refreshURL = "" then .error .notConfigured
  else match outcome with
    | .failed err => .error (.request err)
    | .response statusCode body readError =>
      if statusCode < 200 ∨ 300 ≤ statusCode then .error (.status statusCode)
      else match limitedRead body readError with
        | .error err => .error (.read err)
        | .ok read => if trimSpaceBytes read = [] then .error .emptyToken else .ok (trimSpaceBytes read)

/-- `Refresh()` on a manager holding `token`: the token afterwards, and the error returned. -/
def refresh (refreshURL : String) (token : List UInt8) (outcome : RefreshOutcome) :
    List UInt8 × Option RefreshError :=
  match fetchToken refreshURL outcome with
  | .ok newToken => (newToken, none)
  | .error err => (token, some err)

section Trim

theorem limitedRead_length {body read : List UInt8} {readError : Option String}
    (ok : limitedRead body readError = .ok read) : read.length ≤ refreshBodyLimit := by
  unfold limitedRead at ok
  split at ok
  · cases ok
    exact List.length_take_le _ _
  · split at ok <;> cases ok
    omega

theorem trimSpaceBytes_slice (s : List UInt8) : trimSpaceBytes s <:+: s := by
  have trimmed : ((decodeRunes s).dropWhile runeIsSpace).rdropWhile runeIsSpace <:+: decodeRunes s :=
    (List.rdropWhile_prefix _ _).isInfix.trans (List.dropWhile_suffix _).isInfix
  obtain ⟨before, after, split⟩ := trimmed
  refine ⟨before.flatMap DecodedRune.bytes, after.flatMap DecodedRune.bytes, ?_⟩
  rw [trimSpaceBytes, ← List.flatMap_append, ← List.flatMap_append, split, decodeRunes_bytes]

theorem runeIsSpace_valid (r : Nat) : runeIsSpace (.valid r) = Proxy.isSpace (Char.ofNat r) := rfl

theorem encodeRune_ne_nil (r : Nat) : encodeRune r ≠ [] := by
  unfold encodeRune
  split_ifs <;> simp

theorem flatMap_bytes_valid (rs : List Nat) :
    (rs.map DecodedRune.valid).flatMap DecodedRune.bytes = rs.flatMap encodeRune := by
  induction rs with
  | nil => rfl
  | cons r rs ih => simp only [List.map_cons, List.flatMap_cons, ih, DecodedRune.bytes]

theorem rdropWhile_append_of_all {α : Type} (p : α → Bool) (l : List α) {post : List α}
    (all : ∀ x ∈ post, p x = true) : (l ++ post).rdropWhile p = l.rdropWhile p := by
  simp only [List.rdropWhile, List.reverse_append]
  rw [List.dropWhile_append_of_pos fun x member => all x (List.mem_reverse.mp member)]

theorem trimSpaceBytes_flatMap_encodeRune {pre tok post : List Nat}
    (valid : ∀ r ∈ pre ++ tok ++ post, validRune r = true)
    (spaces : ∀ r ∈ pre ++ post, Proxy.isSpace (Char.ofNat r) = true)
    (first : ∀ r ∈ tok.head?, Proxy.isSpace (Char.ofNat r) = false)
    (last : ∀ r ∈ tok.getLast?, Proxy.isSpace (Char.ofNat r) = false) :
    trimSpaceBytes ((pre ++ tok ++ post).flatMap encodeRune) = tok.flatMap encodeRune := by
  have preSpaces : ∀ d ∈ pre.map DecodedRune.valid, runeIsSpace d = true := by
    simpa [runeIsSpace_valid] using fun r member => spaces r (List.mem_append_left _ member)
  have postSpaces : ∀ d ∈ post.map DecodedRune.valid, runeIsSpace d = true := by
    simpa [runeIsSpace_valid] using fun r member => spaces r (List.mem_append_right _ member)
  rw [trimSpaceBytes, decodeRunes_flatMap_encodeRune _ valid, List.map_append, List.map_append, List.append_assoc,
    List.dropWhile_append_of_pos preSpaces]
  cases tok with
  | nil => rw [List.map_nil, List.nil_append, List.dropWhile_eq_nil_iff.mpr postSpaces]; rfl
  | cons t ts =>
    have kept : (List.map DecodedRune.valid (t :: ts)).rdropWhile runeIsSpace = (t :: ts).map .valid :=
      List.rdropWhile_eq_self_iff.mpr fun nonempty => by
        rw [List.getLast_map, runeIsSpace_valid, last _ (List.getLast?_eq_getLast _ (List.cons_ne_nil t ts))]
        decide
    rw [List.map_cons, List.cons_append, List.dropWhile_cons_of_neg (by simpa [runeIsSpace_valid] using first t rfl),
      ← List.cons_append, ← List.map_cons, rdropWhile_append_of_all _ _ postSpaces, kept, flatMap_bytes_valid]

theorem decodedBytes_ne_nil : ∀ d : DecodedRune, d.bytes ≠ []
  | .valid r => encodeRune_ne_nil r
  | .invalid b => List.cons_ne_nil b []

theorem dropWhile_rdropWhile_eq_nil_iff {α : Type} (p : α → Bool) (l : List α) :
    (l.dropWhile p).rdropWhile p = [] ↔ ∀ x ∈ l, p x = true := by
  rw [List.rdropWhile_eq_nil_iff]
  refine ⟨fun all => List.dropWhile_eq_nil_iff.mp ?_, fun all x member => ?_⟩
  · by_contra kept
    have first := List.head_dropWhile_not p l kept
    rw [all _ (List.head_mem kept)] at first
    cases first
  · rw [List.dropWhile_eq_nil_iff.mpr all] at member
    cases member

/-- `TrimSpace` leaves something exactly when a rune is not white space; a byte that starts no
    valid sequence counts as such a rune. -/
theorem trimSpaceBytes_ne_nil_iff (s : List UInt8) :
    trimSpaceBytes s ≠ [] ↔ ∃ d ∈ decodeRunes s, runeIsSpace d = false := by
  have empty : trimSpaceBytes s = [] ↔ ((decodeRunes s).dropWhile runeIsSpace).rdropWhile runeIsSpace = [] := by
    rw [trimSpaceBytes, List.flatMap_eq_nil_iff, List.eq_nil_iff_forall_not_mem]
    exact forall_congr' fun d => ⟨fun none member => decodedBytes_ne_nil d (none member), fun none member => (none member).elim⟩
  rw [Ne, empty, dropWhile_rdropWhile_eq_nil_iff]
  simp

end Trim

theorem fetchToken_eq_ok {refreshURL : String} {outcome : RefreshOutcome} {t : List UInt8} :
    fetchToken refreshURL outcome = .ok t ↔ refreshURL ≠ "" ∧ ∃ statusCode body readError read,
      outcome = .response statusCode body readError ∧ 200 ≤ statusCode ∧ statusCode < 300 ∧
      limitedRead body readError = .ok read ∧ trimSpaceBytes read ≠ [] ∧ t = trimSpaceBytes read := by
  constructor
  · intro ok
    by_cases unset : refreshURL = ""
    · simp [fetchToken, unset] at ok
    rcases outcome with err | ⟨statusCode, body, readError⟩
    · simp [fetchToken, unset] at ok
    by_cases outside : statusCode < 200 ∨ 300 ≤ statusCode
    · simp [fetchToken, unset, outside] at ok
    cases got : limitedRead body readError with
    | error err => simp [fetchToken, unset, outside, got] at ok
    | ok read =>
      by_cases empty : trimSpaceBytes read = []
      · simp [fetchToken, unset, outside, got, empty] at ok
      · simp only [fetchToken, unset, outside, got, empty, if_false] at ok
        exact ⟨unset, _, _, _, read, rfl, by omega, by omega, got, empty, (Except.ok.inj ok).symm⟩
  · rintro ⟨configured, statusCode, body, readError, read, rfl, lo, hi, got, kept, rfl⟩
    rw [fetchToken, if_neg configured]
    simp only [if_neg (show ¬(statusCode < 200 ∨ 300 ≤ statusCode) by omega), got, if_neg kept]

theorem refresh_stores_trimmed_body (refreshURL : String) (token : List UInt8) (outcome : RefreshOutcome) :
    ((refresh refreshURL token outcome).2 = none ↔
      refreshURL ≠ "" ∧ ∃ statusCode body readError read, outcome = .response statusCode body readError ∧
        200 ≤ statusCode ∧ statusCode < 300 ∧ limitedRead body readError = .ok read ∧
        ∃ d ∈ decodeRunes read, runeIsSpace d = false) ∧
    ∀ statusCode body readError read, outcome = .response statusCode body readError →
      limitedRead body readError = .ok read → (refresh refreshURL token outcome).2 = none →
      (refresh refreshURL token outcome).1 ≠ [] ∧ (refresh refreshURL token outcome).1 <:+: read ∧
        (refresh refreshURL token outcome).1.length ≤ refreshBodyLimit := by
  have succeeded : (refresh refreshURL token outcome).2 = none ↔ ∃ t, fetchToken refreshURL outcome = .ok t := by
    unfold refresh
    cases fetchToken refreshURL outcome <;> simp
  refine ⟨succeeded.trans ⟨fun ⟨t, ok⟩ => ?_, fun ⟨configured, statusCode, body, readError, read, same, lo, hi, got,
    blank⟩ => ⟨_, fetchToken_eq_ok.mpr ⟨configured, statusCode, body, readError, read, same, lo, hi, got,
      (trimSpaceBytes_ne_nil_iff read).mpr blank, rfl⟩⟩⟩, ?_⟩
  · obtain ⟨configured, statusCode, body, readError, read, same, lo, hi, got, kept, -⟩ := fetchToken_eq_ok.mp ok
    exact ⟨configured, statusCode, body, readError, read, same, lo, hi, got, (trimSpaceBytes_ne_nil_iff read).mp kept⟩
  · rintro statusCode body readError read rfl got done
    obtain ⟨t, ok⟩ := succeeded.mp done
    obtain ⟨-, statusCode', body', readError', read', same, -, -, got', kept, rfl⟩ := fetchToken_eq_ok.mp ok
    cases same
    obtain rfl : read = read' := Except.ok.inj (got.symm.trans got')
    rw [refresh, ok]
    exact ⟨kept, trimSpaceBytes_slice read, (trimSpaceBytes_slice read).length_le.trans (limitedRead_length got)⟩

theorem refresh_round_trip {refreshURL : String} (configured : refreshURL ≠ "") (token : List UInt8)
    {statusCode : Int} (ok : 200 ≤ statusCode ∧ statusCode < 300) {pre tok post : List Nat}
    (valid : ∀ r ∈ pre ++ tok ++ post, validRune r = true)
    (spaces : ∀ r ∈ pre ++ post, Proxy.isSpace (Char.ofNat r) = true) (nonempty : tok ≠ [])
    (first : ∀ r ∈ tok.head?, Proxy.isSpace (Char.ofNat r) = false)
    (last : ∀ r ∈ tok.getLast?, Proxy.isSpace (Char.ofNat r) = false)
    (fits : ((pre ++ tok ++ post).flatMap encodeRune).length < refreshBodyLimit) :
    refresh refreshURL token (.response statusCode ((pre ++ tok ++ post).flatMap encodeRune) none) =
      (tok.flatMap encodeRune, none) := by
  have trimmed := trimSpaceBytes_flatMap_encodeRune valid spaces first last
  have stored : tok.flatMap encodeRune ≠ [] := by
    obtain ⟨r, rs, rfl⟩ := List.exists_cons_of_ne_nil nonempty
    rw [List.flatMap_cons]
    exact List.append_ne_nil_of_left_ne_nil (encodeRune_ne_nil r) _
  have read : limitedRead ((pre ++ tok ++ post).flatMap encodeRune) none = .ok ((pre ++ tok ++ post).flatMap encodeRune) := by
    rw [limitedRead, if_neg (Nat.not_le.mpr fits)]
  rw [refresh, fetchToken, if_neg configured]
  simp only [if_neg (show ¬(statusCode < 200 ∨ 300 ≤ statusCode) by omega), read, trimmed, if_neg stored]

theorem refresh_stores_padded_token :
    refresh "refresh" [] (.response 200 (([0x20] ++ [0x61, 0x62] ++ [0x0A]).flatMap encodeRune) none) =
      ([0x61, 0x62].flatMap encodeRune, none) :=
  refresh_round_trip (by decide) [] (by decide) (by decide) (by decide) (by decide) (by decide) (by decide) (by decide)

section Heartbeat

/-- How `m.client.Do(req)` ends: an error, or a response with its status code; the body is
    drained and dropped. -/
inductive HeartbeatOutcome where
  | failed (err : String)
  | response (statusCode : Int)

inductive HeartbeatError where
  | notConfigured
  | build (err : UrlError)
  | request (err : String)
  | status (statusCode : Int)
  deriving DecidableEq, Repr

/-- The error's text; that of the `*url.Error` that `http.NewRequest` wraps is not modelled. -/
def HeartbeatError.message : HeartbeatError → Option String
  | .notConfigured => some "token: heartbeat URL is not configured"
  | .build _ => none
  | .request err => some ("token: heartbeat request: " ++ err)
  | .status statusCode => some ("token: heartbeat returned HTTP " ++ toString statusCode)

/-- The `Authorization` header `SendHeartbeat` sets: none for an empty token. -/
def heartbeatAuthorization (token : List UInt8) : Option (List UInt8) :=
  if token = [] then none else some (goBytes "Bearer " ++ token)

/-- `SendHeartbeat()` on a manager with `heartbeatURL` (the bytes of the Go string) holding
    `token`: the request it hands to `client.Do`, as its `Authorization` header, and the error
    it returns. `http.NewRequest` with `GET` and no body fails exactly when `url.Parse` does. -/
def sendHeartbeat (heartbeatURL token : List UInt8) (outcome : HeartbeatOutcome) :
    Option (Option (List UInt8)) × Option HeartbeatError :=
  if heartbeatURL = [] then (none, some .notConfigured)
  else match urlParse heartbeatURL with
    | .error err => (none, some (.build err))
    | .ok _ =>
      match outcome with
      | .failed err => (some (heartbeatAuthorization token), some (.request err))
      | .response statusCode =>
        if statusCode < 200 ∨ 300 ≤ statusCode then (some (heartbeatAuthorization token), some (.status statusCode))
        else (some (heartbeatAuthorization token), none)

theorem sendHeartbeat_request (heartbeatURL token : List UInt8) (outcome : HeartbeatOutcome) :
    (sendHeartbeat heartbeatURL token outcome).1 =
      if heartbeatURL = [] then none else (urlParse heartbeatURL).toOption.map fun _ => heartbeatAuthorization token := by
  unfold sendHeartbeat
  split_ifs
  · rfl
  · cases parsed : urlParse heartbeatURL with
    | error err => simp [Except.toOption]
    | ok url =>
      cases outcome with
      | failed err => simp [Except.toOption]
      | response statusCode => by_cases outside : statusCode < 200 ∨ 300 ≤ statusCode <;> simp [Except.toOption, outside]

/-- Heartbeats to `"http://127.0.0.1/hb"` before and after a token is set. -/
example :
    sendHeartbeat (goBytes "http://127.0.0.1/hb") [] (.response 200) = (some none, none) ∧
      sendHeartbeat (goBytes "http://127.0.0.1/hb") (goBytes "t") (.response 200) =
        (some (some (goBytes "Bearer t")), none) := by
  decide

end Heartbeat

/-! A run of calls on one manager. Each call reads or writes the token once under `mu`, so a run
    of concurrent calls is the run of those accesses in the order they take the lock. -/

/-- Calls that touch a manager's token: `SetToken`, `Refresh` (also when a tick of
    `StartAutoRefresh` makes it), and `SendHeartbeat` (also as the `heartbeatFn` of
    `StartHeartbeat`). -/
inductive ManagerCall where
  | setToken (token : List UInt8)
  | refresh (outcome : RefreshOutcome)
  | sendHeartbeat (outcome : HeartbeatOutcome)

/-- The URLs `NewTokenRefreshManager` was given. -/
structure ManagerUrls where
  refreshURL : String
  heartbeatURL : List UInt8

/-- One call on a manager holding `token`: the token afterwards, and the `Authorization` header
    of the request a heartbeat hands to the client. -/
def ManagerCall.apply (urls : ManagerUrls) (token : List UInt8) : ManagerCall → List UInt8 × Option (Option (List UInt8))
  | .setToken t => (t, none)
  | .refresh outcome => ((Token.refresh urls.refreshURL token outcome).1, none)
  | .sendHeartbeat outcome => (token, (Token.sendHeartbeat urls.heartbeatURL token outcome).1)

/-- The token after a run of calls, and the headers of the heartbeat requests, in order. -/
def runCalls (urls : ManagerUrls) (token : List UInt8) (calls : List ManagerCall) :
    List UInt8 × List (Option (List UInt8)) :=
  calls.foldl (fun state c => ((c.apply urls state.1).1, state.2 ++ (c.apply urls state.1).2.toList)) (token, [])

/-- The token a call writes: `SetToken`'s argument, or the token a `Refresh` fetched. -/
def ManagerCall.written (refreshURL : String) : ManagerCall → Option (List UInt8)
  | .setToken t => some t
  | .refresh outcome => (fetchToken refreshURL outcome).toOption
  | .sendHeartbeat _ => none

/-- The token a run should leave: the last one a call wrote, or the one held before. -/
def lastWritten (refreshURL : String) (token : List UInt8) (calls : List ManagerCall) : List UInt8 :=
  ((calls.filterMap (ManagerCall.written refreshURL)).getLast?).getD token

section Run

variable (urls : ManagerUrls)

theorem ManagerCall.apply_token (token : List UInt8) :
    ∀ c : ManagerCall, (c.apply urls token).1 = (c.written urls.refreshURL).getD token
  | .setToken _ => rfl
  | .refresh outcome => by
    cases fetched : fetchToken urls.refreshURL outcome <;>
      simp [ManagerCall.apply, ManagerCall.written, Token.refresh, fetched, Except.toOption]
  | .sendHeartbeat _ => rfl

theorem runCalls_concat (token : List UInt8) (calls : List ManagerCall) (c : ManagerCall) :
    runCalls urls token (calls ++ [c]) = ((c.apply urls (runCalls urls token calls).1).1,
      (runCalls urls token calls).2 ++ (c.apply urls (runCalls urls token calls).1).2.toList) := by
  simp only [runCalls, List.foldl_append, List.foldl_cons, List.foldl_nil]

theorem lastWritten_concat (refreshURL : String) (token : List UInt8) (calls : List ManagerCall) (c : ManagerCall) :
    lastWritten refreshURL token (calls ++ [c]) = (c.written refreshURL).getD (lastWritten refreshURL token calls) := by
  cases written : c.written refreshURL <;> simp [lastWritten, List.filterMap_append, written]

theorem runCalls_token (token : List UInt8) (calls : List ManagerCall) :
    (runCalls urls token calls).1 = lastWritten urls.refreshURL token calls := by
  induction calls using List.reverseRecOn with
  | nil => rfl
  | append_singleton calls c ih => rw [runCalls_concat, ManagerCall.apply_token, ih, lastWritten_concat]

end Run

theorem manager_run_tracks_last_written (urls : ManagerUrls) (token : List UInt8) (calls : List ManagerCall) :
    (runCalls urls token calls).1 = lastWritten urls.refreshURL token calls ∧
      ∀ outcome, urls.heartbeatURL ≠ [] → (∃ url, urlParse urls.heartbeatURL = .ok url) →
        (runCalls urls token (calls ++ [.sendHeartbeat outcome])).2.getLast? =
          some (heartbeatAuthorization (lastWritten urls.refreshURL token calls)) := by
  refine ⟨runCalls_token urls token calls, fun outcome configured ⟨url, parsed⟩ => ?_⟩
  rw [runCalls_concat, ManagerCall.apply, sendHeartbeat_request, if_neg configured, parsed, runCalls_token]
  simp [Except.toOption]

end SessionEngine.Token
