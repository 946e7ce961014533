import SessionEngine.Encoding.Base64
import SessionEngine.Encoding.Json

namespace SessionEngine.Token

open SessionEngine.Encoding

/-! `TokenRefreshManager`: reading a JWT's claims, `IsExpired`, and the expiry check each tick of
    `StartAutoRefresh` makes on its own. A token is a Go string, so a list of bytes. -/

/-- The errors of `ParseClaims`, one for each `fmt.Errorf`. -/
inductive ParseError where
  | segments (got : Nat)
  | decodePayload (offset : Nat)
  | unmarshalClaims (err : UnmarshalError)
  deriving DecidableEq, Repr

/-- The error's text; that of a JSON `SyntaxError` is not modelled. -/
def ParseError.message : ParseError → Option String
  | .segments got => some ("token: malformed JWT: expected 3 segments, got " ++ toString got)
  | .decodePayload offset => some ("token: decode JWT payload: illegal base64 data at input byte " ++ toString offset)
  | .unmarshalClaims err => err.message.map ("token: unmarshal JWT claims: " ++ ·)

/-- The claims map: none is a nil map. -/
abbrev Claims := Option (List (List UInt8 × GoValue))

/-- `ParseClaims(token)`: the signature is not verified. -/
def parseClaims (token : List UInt8) : Except ParseError Claims :=
  match token.splitOn 0x2E with
  | [_, payload, _] =>
    match rawURLDecode payload with
    | .error offset => .error (.decodePayload offset)
    | .ok data =>
      match unmarshalMap data with
      | .error err => .error (.unmarshalClaims err)
      | .ok claims => .ok claims
  | parts => .error (.segments parts.length)

/-- `claims["exp"]`; a nil map holds nothing. -/
def expClaim (claims : Claims) : Option GoValue :=
  claims.bind fun members => lookupMember members (goBytes "exp")

/-- `IsExpired(token)` with `time.Now().Unix()` at `now`. -/
def isExpired (token : List UInt8) (now : Int) : Bool :=
  match parseClaims token with
  | .error _ => true
  | .ok claims =>
    match expClaim claims with
    | some (.float f) => decide (f.toInt64 ≤ now)
    | _ => false

theorem parseClaims_ok_iff (t : List UInt8) :
    (∃ claims, parseClaims t = .ok claims) ↔
      ∃ header payload signature data, t.splitOn 0x2E = [header, payload, signature] ∧
        rawURLDecode payload = .ok data ∧ ∃ claims, unmarshalMap data = .ok claims := by
  unfold parseClaims
  split
  · rename_i header payload signature three
    cases decoded : rawURLDecode payload with
    | error offset => simp [three, decoded]
    | ok data =>
      cases unmarshalled : unmarshalMap data with
      | error err => simp [three, decoded, unmarshalled]
      | ok claims => simpa [three, decoded, unmarshalled] using ⟨header, payload, ⟨rfl, rfl⟩, data, decoded, claims, unmarshalled⟩
  · rename_i notThree
    simp only [reduceCtorEq, exists_const, false_iff, not_exists, not_and]
    exact fun header payload signature _ three => (notThree header payload signature three).elim

theorem isExpired_iff (t : List UInt8) (now : Int) :
    isExpired t now = true ↔
      (∀ claims, parseClaims t ≠ .ok claims) ∨
        ∃ claims f, parseClaims t = .ok claims ∧ expClaim claims = some (.float f) ∧ f.toInt64 ≤ now := by
  unfold isExpired
  cases parseClaims t with
  | error e => simp
  | ok claims =>
    cases found : expClaim claims with
    | none => simp [found]
    | some v => cases v <;> simp [found]

theorem parse_claims_accepts_null_and_expiry_truncates (t : List UInt8) (now : Int) :
    ((∃ claims, parseClaims t = .ok claims) ↔
      ∃ header payload signature data, t.splitOn 0x2E = [header, payload, signature] ∧
        rawURLDecode payload = .ok data ∧
        (parseJson data = some .null ∨
          ∃ members, parseJson data = some (.object members) ∧
            ∀ text ∈ Json.memberNumbers members, (parseFloat text).isSome)) ∧
    (isExpired t now = true ↔
      (∀ claims, parseClaims t ≠ .ok claims) ∨
        ∃ claims f, parseClaims t = .ok claims ∧ expClaim claims = some (.float f) ∧ f.toInt64 ≤ now) :=
  ⟨by simp only [parseClaims_ok_iff, unmarshalMap_ok_iff], isExpired_iff t now⟩

/-- A token whose payload is `null` parses, to a nil map; and a token whose `exp` is `1.5` is
    expired at `now = 1`, `int64(1.5)` being 1. -/
theorem null_payload_parses_and_fractional_exp_expires_early :
    rawURLDecode (goBytes "bnVsbA") = .ok (goBytes "null") ∧ parseClaims (goBytes "x.bnVsbA.y") = .ok none ∧
      rawURLDecode (goBytes "eyJleHAiOjEuNX0") = .ok (goBytes "\x7b\"exp\":1.5\x7d") ∧
      parseJson (goBytes "\x7b\"exp\":1.5\x7d") = some (.object [(goBytes "exp", .number (goBytes "1.5"))]) ∧
      decimalOf (goBytes "1.5") = (false, 15, -1) ∧ isExpired (goBytes "x.eyJleHAiOjEuNX0.y") 1 = true :=
  ⟨rfl, rfl, rfl, rfl, rfl, rfl⟩

/-! The clock arithmetic of the tick: `time.Unix`, `Time.Add` and `Time.After` on times without a
    monotonic reading, in Go's `int64` seconds. -/

/-- `unixToInternal`: the seconds from January 1 of year 1 to the Unix epoch. -/
def unixToInternal : Int := 62135596800

/-- An `int64` sum wrapped into range, as Go's signed arithmetic wraps it. -/
def wrapInt64 (x : Int) : Int :=
  (x + 2 ^ 63) % 2 ^ 64 - 2 ^ 63

theorem wrapInt64_range (x : Int) : -2 ^ 63 ≤ wrapInt64 x ∧ wrapInt64 x < 2 ^ 63 := by
  unfold wrapInt64
  omega

/-- A `time.Time` as `Add` and `After` read it: `sec` is `ext`, the seconds since January 1 of
    year 1 in an `int64`, and `nsec` the nanoseconds. -/
structure Instant where
  sec : Int
  nsec : Nat
  secRange : -2 ^ 63 ≤ sec ∧ sec < 2 ^ 63
  nsecRange : nsec < 1000000000

/-- `time.Unix(sec, 0)`: `sec + unixToInternal` in `int64`, which wraps past the top. -/
def Instant.ofUnix (sec : Int) : Instant :=
  ⟨wrapInt64 (sec + unixToInternal), 0, wrapInt64_range _, by decide⟩

/-- `t.Unix()`: `sec + internalToUnix` in `int64`. -/
def Instant.unix (t : Instant) : Int :=
  wrapInt64 (t.sec - unixToInternal)

/-- `t.addSec(d)`: the sum, or `±(1<<63 - 1)` where it overflows. -/
def addSec (sec d : Int) : Int :=
  if sec + d < -2 ^ 63 then -(2 ^ 63 - 1) else if 2 ^ 63 ≤ sec + d then 2 ^ 63 - 1 else sec + d

theorem addSec_range (sec d : Int) : -2 ^ 63 ≤ addSec sec d ∧ addSec sec d < 2 ^ 63 := by
  unfold addSec
  split_ifs <;> omega

/-- Go's `%` by a billion truncates toward zero, so it lies strictly between `∓1e9`. -/
theorem tmod_billion_bounds (d : Int) : -1000000000 < d.tmod 1000000000 ∧ d.tmod 1000000000 < 1000000000 := by
  rcases Int.le_total 0 d with nonneg | nonpos
  · rw [Int.tmod_eq_emod nonneg (by decide)]
    omega
  · have flip : d.tdiv 1000000000 = -((-d) / 1000000000) := by
      rw [← Int.tdiv_eq_ediv (by omega) (by decide), ← Int.neg_tdiv, Int.neg_neg]
    rw [Int.tmod_def, flip]
    omega

/-- `t.Add(d)` for a `Duration` of `d` nanoseconds: Go's `/` and `%` truncate toward zero, and a
    carry or borrow of the nanoseconds moves the seconds by one. -/
def Instant.add (t : Instant) (d : Int) : Instant :=
  let nsec : Int := t.nsec + d.tmod 1000000000
  let carry : Int := if 1000000000 ≤ nsec then 1 else if nsec < 0 then -1 else 0
  ⟨addSec t.sec (d.tdiv 1000000000 + carry), (nsec - carry * 1000000000).toNat, addSec_range _ _, by
    have := tmod_billion_bounds d
    have := t.nsecRange
    simp only [carry, nsec]
    split_ifs <;> omega⟩

/-- `t.After(u)`. -/
def Instant.after (t u : Instant) : Bool :=
  decide (u.sec < t.sec) || (decide (t.sec = u.sec) && decide (u.nsec < t.nsec))

/-- Whether one tick of `StartAutoRefresh` calls `Refresh`, with `tok` what `GetToken` returned
    and `time.Now()` at `now`: an empty token is skipped, a token that does not parse is
    refreshed, and a numeric `exp` is refreshed once `now` is after `exp` less `refreshBefore`. -/
def refreshDue (tok : List UInt8) (refreshBefore : Int) (now : Instant) : Bool :=
  if tok = [] then false
  else
    match parseClaims tok with
    | .error _ => true
    | .ok claims =>
      match expClaim claims with
      | some (.float f) => now.after ((Instant.ofUnix f.toInt64).add (-refreshBefore))
      | _ => false

theorem wrapInt64_of_range {x : Int} (inRange : -2 ^ 63 ≤ x ∧ x < 2 ^ 63) : wrapInt64 x = x := by
  unfold wrapInt64
  omega

theorem Instant.unix_of_clock {now : Instant} (clock : -2 ^ 63 ≤ now.sec - unixToInternal) :
    now.unix = now.sec - unixToInternal :=
  wrapInt64_of_range ⟨clock, by have := now.secRange; unfold unixToInternal at *; omega⟩

theorem Instant.add_neg {t : Instant} (whole : t.nsec = 0) {d : Int} (positive : 0 < d) :
    (t.add (-d)).sec = addSec t.sec (-((d + 999999999) / 1000000000)) ∧
      ((t.add (-d)).nsec : Int) = (-d) % 1000000000 := by
  have div : (-d).tdiv 1000000000 = -(d / 1000000000) := by
    rw [Int.neg_tdiv, Int.tdiv_eq_ediv (by omega) (by decide)]
  have mod : (-d).tmod 1000000000 = -(d % 1000000000) := by
    rw [Int.tmod_def, div]
    omega
  simp only [Instant.add, whole, div, mod]
  split_ifs <;> constructor <;> congr 1 <;> omega

/-- Whether `now` is after `time.Unix(exp, 0).Add(-refreshBefore)`: for an `exp` whose internal
    seconds fit in an `int64`, exactly when `now` is less than `refreshBefore` before `exp`, in
    nanoseconds since the epoch; for a larger `exp` the seconds wrap to the far past, and
    always. -/
theorem after_deadline_iff {now : Instant} {exp refreshBefore : Int} (clock : -2 ^ 63 ≤ now.sec - unixToInternal)
    (positive : 0 < refreshBefore) (fits : refreshBefore < 2 ^ 63) (inRange : -2 ^ 63 ≤ exp ∧ exp < 2 ^ 63) :
    now.after ((Instant.ofUnix exp).add (-refreshBefore)) = true ↔
      2 ^ 63 ≤ exp + unixToInternal ∨
        exp * 1000000000 - refreshBefore < (now.sec - unixToInternal) * 1000000000 + now.nsec := by
  obtain ⟨sec, nsec⟩ := Instant.add_neg (t := Instant.ofUnix exp) rfl positive
  generalize (Instant.ofUnix exp).add (-refreshBefore) = deadline at sec nsec
  have start : (Instant.ofUnix exp).sec = wrapInt64 (exp + unixToInternal) := rfl
  rw [start] at sec
  have := now.secRange
  have := now.nsecRange
  simp only [Instant.after, Bool.or_eq_true, Bool.and_eq_true, decide_eq_true_eq, addSec, wrapInt64,
    unixToInternal] at clock sec ⊢
  split_ifs at sec <;> omega

theorem refreshDue_iff {t : List UInt8} (nonempty : t ≠ []) {refreshBefore : Int}
    (positive : 0 < refreshBefore) (fits : refreshBefore < 2 ^ 63) {now : Instant}
    (clock : -2 ^ 63 ≤ now.sec - unixToInternal) :
    refreshDue t refreshBefore now = true ↔
      (∀ claims, parseClaims t ≠ .ok claims) ∨
        ∃ claims f, parseClaims t = .ok claims ∧ expClaim claims = some (.float f) ∧
          (2 ^ 63 ≤ f.toInt64 + unixToInternal ∨
            f.toInt64 * 1000000000 - refreshBefore < (now.sec - unixToInternal) * 1000000000 + now.nsec) := by
  unfold refreshDue
  rw [if_neg nonempty]
  cases parseClaims t with
  | error e => simp
  | ok claims =>
    cases found : expClaim claims with
    | none => simp [found]
    | some v => cases v <;> simp [found, after_deadline_iff clock positive fits (Float64.toInt64_range _)]

theorem tick_refreshes_unparsable_or_near_expiry {t : List UInt8} (nonempty : t ≠ []) {refreshBefore : Int}
    (positive : 0 < refreshBefore) (fits : refreshBefore < 2 ^ 63) {now : Instant}
    (clock : -2 ^ 63 ≤ now.sec - unixToInternal) :
    (refreshDue t refreshBefore now = true ↔
      (∀ claims, parseClaims t ≠ .ok claims) ∨
        ∃ claims f, parseClaims t = .ok claims ∧ expClaim claims = some (.float f) ∧
          (2 ^ 63 ≤ f.toInt64 + unixToInternal ∨
            f.toInt64 * 1000000000 - refreshBefore < (now.sec - unixToInternal) * 1000000000 + now.nsec)) ∧
    (isExpired t now.unix = true → refreshDue t refreshBefore now = true) := by
  have due := refreshDue_iff nonempty positive fits clock
  refine ⟨due, fun expired => due.mpr ?_⟩
  rcases (isExpired_iff t now.unix).mp expired with failed | ⟨claims, f, parsed, found, before⟩
  · exact .inl failed
  · rw [Instant.unix_of_clock clock] at before
    exact .inr ⟨claims, f, parsed, found, .inr (by omega)⟩

/-- A token whose `exp` is 9223372000000000000 seconds is refreshed on every tick, although it is
    not expired: `time.Unix` wraps those seconds into the past. -/
example : refreshDue (goBytes "x.eyJleHAiOjkyMjMzNzIwMDAwMDAwMDAwMDB9.y") 1 ⟨unixToInternal + 2, 0, by decide, by decide⟩ = true ∧
    isExpired (goBytes "x.eyJleHAiOjkyMjMzNzIwMDAwMDAwMDAwMDB9.y") 2 = false := by
  decide

/-- A clock two seconds past the epoch. -/
def twoSecondsPastEpoch : Instant := ⟨unixToInternal + 2, 0, by decide, by decide⟩

theorem tick_refreshes_expired_token_sample :
    isExpired (goBytes "x.eyJleHAiOjF9.y") twoSecondsPastEpoch.unix = true ∧
      refreshDue (goBytes "x.eyJleHAiOjF9.y") 1 twoSecondsPastEpoch = true := by
  have expired : isExpired (goBytes "x.eyJleHAiOjF9.y") twoSecondsPastEpoch.unix = true := by decide
  exact ⟨expired, (tick_refreshes_unparsable_or_near_expiry (by decide) (by decide) (by decide) (by decide)).2 expired⟩

/-- The empty token is expired for `IsExpired`, and a tick skips it without calling `Refresh`. -/
theorem empty_token_expired_but_not_refreshed :
    isExpired [] twoSecondsPastEpoch.unix = true ∧ refreshDue [] 1 twoSecondsPastEpoch = false :=
  ⟨rfl, rfl⟩

end SessionEngine.Token
