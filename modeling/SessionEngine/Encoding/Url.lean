import SessionEngine.Encoding.Json

namespace SessionEngine.Encoding

/-! `net/url.Parse` on the way to a URL's scheme and host, over the bytes of the Go string, with
    every check on that way that can make it fail. -/

/-- The error values of `url.Parse` met on that way: the constant errors, `EscapeError`,
    `InvalidHostError`, and the port error with the text it quotes. -/
inductive UrlError where
  | invalidControl
  | missingScheme
  | colonInFirstSegment
  | escape (s : List UInt8)
  | invalidHost (s : List UInt8)
  | missingBracket
  | invalidPort (colonPort : List UInt8)
  | invalidUserinfo
  deriving DecidableEq, Repr

/-- The fields of `url.URL` that the sensor request reads. -/
structure Url where
  scheme : List UInt8
  host : List UInt8
  deriving DecidableEq, Repr

/-- The modes `unescape` is called with on that way. -/
inductive EncodeMode where
  | path
  | userPassword
  | host
  | zone
  | fragment
  deriving DecidableEq, Repr

def isAlnum (c : UInt8) : Bool :=
  isDigit c || (0x61 ≤ c.toNat && c.toNat ≤ 0x7A) || (0x41 ≤ c.toNat && c.toNat ≤ 0x5A)

/-- `shouldEscape(c, encodeHost)`: everything but alphanumerics, the sub-delims ``! $ & ' ( ) * + , ; =``,
    ``: [ ] < > "`` and ``- _ . ~``. -/
def shouldEscapeHost (c : UInt8) : Bool :=
  !(isAlnum c || [0x21, 0x24, 0x26, 0x27, 0x28, 0x29, 0x2A, 0x2B, 0x2C, 0x3B, 0x3D, 0x3A, 0x5B, 0x5D, 0x3C, 0x3E, 0x22,
    0x2D, 0x5F, 0x2E, 0x7E].contains c.toNat)

/-- `unescape(s, mode)`. Go checks every escape before it decodes; failing at the first bad byte
    while decoding gives the same result. -/
def unescape (mode : EncodeMode) : List UInt8 → Except UrlError (List UInt8)
  | [] => .ok []
  | c :: rest =>
    if c.toNat = 0x25 then
      match rest with
      | h1 :: h2 :: tail =>
        let v := hexValue h1 * 16 + hexValue h2
        if !(isHex h1 && isHex h2) then .error (.escape [c, h1, h2])
        else if mode = .host && hexValue h1 < 8 && [h1, h2] != goBytes "25" then .error (.escape [c, h1, h2])
        else if mode = .zone && [h1, h2] != goBytes "25" && v != 0x20 && shouldEscapeHost (UInt8.ofNat v) then
          .error (.escape [c, h1, h2])
        else (unescape mode tail).map (UInt8.ofNat v :: ·)
      | _ => .error (.escape (c :: rest))
    else if (mode = .host || mode = .zone) && c.toNat < 0x80 && shouldEscapeHost c then .error (.invalidHost [c])
    else (unescape mode rest).map (c :: ·)

/-- `strings.Cut(s, sep)` for a one-byte separator, without the found flag. -/
def cutByte (sep : UInt8) (s : List UInt8) : List UInt8 × List UInt8 :=
  ((s.span (· != sep)).1, (s.span (· != sep)).2.drop 1)

/-- The text before and after the last `sep` in `s`, if there is one. -/
def cutLast (sep : UInt8) (s : List UInt8) : Option (List UInt8 × List UInt8) :=
  match s.reverse.span (· != sep) with
  | (_, []) => none
  | (after, _ :: before) => some (before.reverse, after.reverse)

/-- `strings.Index(s, pat)`. -/
def indexOfSub (pat : List UInt8) : List UInt8 → Option Nat
  | [] => if pat = [] then some 0 else none
  | c :: rest => if pat.isPrefixOf (c :: rest) then some 0 else (indexOfSub pat rest).map (· + 1)

/-- `getScheme`, reading from `rest` with the letters and digits seen so far in `seen`. -/
def getSchemeFrom (rawURL : List UInt8) (seen : List UInt8) : List UInt8 → Except UrlError (List UInt8 × List UInt8)
  | [] => .ok ([], rawURL)
  | c :: rest =>
    if (0x61 ≤ c.toNat && c.toNat ≤ 0x7A) || (0x41 ≤ c.toNat && c.toNat ≤ 0x5A) then
      getSchemeFrom rawURL (seen ++ [c]) rest
    else if isDigit c || c.toNat = 0x2B || c.toNat = 0x2D || c.toNat = 0x2E then
      if seen = [] then .ok ([], rawURL) else getSchemeFrom rawURL (seen ++ [c]) rest
    else if c.toNat = 0x3A then
      if seen = [] then .error .missingScheme else .ok (seen, rest)
    else .ok ([], rawURL)

def getScheme (rawURL : List UInt8) : Except UrlError (List UInt8 × List UInt8) :=
  getSchemeFrom rawURL [] rawURL

/-- `strings.ToLower` on the bytes of a scheme, which are ASCII. -/
def toLowerAscii (c : UInt8) : UInt8 :=
  if 0x41 ≤ c.toNat && c.toNat ≤ 0x5A then c + 0x20 else c

def validOptionalPort (port : List UInt8) : Bool :=
  match port with
  | [] => true
  | c :: digits => c.toNat = 0x3A && digits.all isDigit

/-- `parseHost`: an IP literal in brackets with an optional zone after `%25`, or a name with an
    optional port. -/
def parseHost (host : List UInt8) : Except UrlError (List UInt8) :=
  if host.head? = some 0x5B then
    match cutLast 0x5D host with
    | none => .error .missingBracket
    | some (inner, colonPort) =>
      if !validOptionalPort colonPort then .error (.invalidPort colonPort)
      else match indexOfSub (goBytes "%25") inner with
        | some zone => do
          let host1 ← unescape .host (inner.take zone)
          let host2 ← unescape .zone (inner.drop zone)
          let host3 ← unescape .host (0x5D :: colonPort)
          pure (host1 ++ host2 ++ host3)
        | none => unescape .host host
  else
    match cutLast 0x3A host with
    | some (_, port) =>
      if !validOptionalPort (0x3A :: port) then .error (.invalidPort (0x3A :: port)) else unescape .host host
    | none => unescape .host host

/-- `validUserinfo`: alphanumerics and ``- . _ : ~ ! $ & ' ( ) * + , ; = % @``. It ranges over runes;
    a byte of a multi-byte rune, or of an invalid one, fails as the rune does. -/
def validUserinfo (s : List UInt8) : Bool :=
  s.all fun c => c.toNat < 0x80 && (isAlnum c || [0x2D, 0x2E, 0x5F, 0x3A, 0x7E, 0x21, 0x24, 0x26, 0x27, 0x28, 0x29, 0x2A,
    0x2B, 0x2C, 0x3B, 0x3D, 0x25, 0x40].contains c.toNat)

/-- `parseAuthority`: the host after the last `@`, and the checks on the userinfo before it. -/
def parseAuthority (authority : List UInt8) : Except UrlError (List UInt8) :=
  match cutLast 0x40 authority with
  | none => parseHost authority
  | some (userinfo, hostPart) =>
    (parseHost hostPart).bind fun host =>
      if !validUserinfo userinfo then .error .invalidUserinfo
      else if userinfo.contains 0x3A then
        ((unescape .userPassword (cutByte 0x3A userinfo).1).bind fun _ =>
          unescape .userPassword (cutByte 0x3A userinfo).2).map fun _ => host
      else (unescape .userPassword userinfo).map fun _ => host

/-- The text before the query: a single `?` at the end only sets `ForceQuery`. -/
def cutQuery (rest : List UInt8) : List UInt8 :=
  if rest.getLast? = some 0x3F && rest.count 0x3F = 1 then rest.dropLast else (cutByte 0x3F rest).1

/-- `parse(rawURL, false)` after `getScheme`, with the scheme lowered: an opaque URL, a
    relative one whose first segment has a colon, one with an authority, or a path. -/
def parseAfterScheme (scheme rest : List UInt8) : Except UrlError Url :=
  let rest := cutQuery rest
  if !(goBytes "/").isPrefixOf rest && scheme ≠ [] then .ok ⟨scheme, []⟩
  else if !(goBytes "/").isPrefixOf rest && (cutByte 0x2F rest).1.contains 0x3A then .error .colonInFirstSegment
  else if (scheme ≠ [] || !(goBytes "///").isPrefixOf rest) && (goBytes "//").isPrefixOf rest then
    (parseAuthority ((rest.drop 2).span (· != 0x2F)).1).bind fun host =>
      (unescape .path ((rest.drop 2).span (· != 0x2F)).2).map fun _ => ⟨scheme, host⟩
  else (unescape .path rest).map fun _ => ⟨scheme, []⟩

/-- `parse(rawURL, false)`. -/
def parse (rawURL : List UInt8) : Except UrlError Url :=
  if rawURL.any fun c => c.toNat < 0x20 || c.toNat = 0x7F then .error .invalidControl
  else if rawURL = goBytes "*" then .ok ⟨[], []⟩
  else (getScheme rawURL).bind fun (scheme, rest) => parseAfterScheme (scheme.map toLowerAscii) rest

/-- `url.Parse`: the fragment is cut off first and must unescape. -/
def urlParse (rawURL : List UInt8) : Except UrlError Url :=
  (parse (cutByte 0x23 rawURL).1).bind fun url =>
    if (cutByte 0x23 rawURL).2 = [] then .ok url else (unescape .fragment (cutByte 0x23 rawURL).2).map fun _ => url

section Shape

/-- A byte `unescape` can leave in a host: above `0x7F`, one a host may hold unescaped, or, from
    an escape in a zone, a space or `%`. -/
def HostByte (b : UInt8) : Prop :=
  0x80 ≤ b.toNat ∨ shouldEscapeHost b = false ∨ b = 0x20 ∨ b = 0x25

theorem hexValue_lt {c : UInt8} (hex : isHex c = true) : hexValue c < 16 := by
  simp only [isHex, isDigit, Bool.or_eq_true, Bool.and_eq_true, decide_eq_true_eq] at hex
  simp only [hexValue, isDigit, Bool.and_eq_true, decide_eq_true_eq]
  split_ifs <;> omega

theorem Except.map_eq_ok {ε α β : Type} {f : α → β} {x : Except ε α} {r : β} (mapped : x.map f = .ok r) :
    ∃ a, x = .ok a ∧ f a = r := by
  cases x with
  | error e => cases mapped
  | ok a => exact ⟨a, rfl, Except.ok.inj mapped⟩

theorem hostByte_escape {mode : EncodeMode} (hostish : mode = .host ∨ mode = .zone) {h1 h2 : UInt8}
    (hex : ¬(!(isHex h1 && isHex h2)) = true)
    (notLow : ¬(decide (mode = .host) && decide (hexValue h1 < 8) && [h1, h2] != goBytes "25") = true)
    (notZone : ¬(decide (mode = .zone) && [h1, h2] != goBytes "25" && hexValue h1 * 16 + hexValue h2 != 32 &&
      shouldEscapeHost (UInt8.ofNat (hexValue h1 * 16 + hexValue h2))) = true) :
    HostByte (UInt8.ofNat (hexValue h1 * 16 + hexValue h2)) := by
  have digits : isHex h1 = true ∧ isHex h2 = true := by simpa using hex
  have small1 := hexValue_lt digits.1
  have small2 := hexValue_lt digits.2
  have twentyFive : goBytes "25" = [0x32, 0x35] := rfl
  by_cases percent : [h1, h2] = goBytes "25"
  · obtain ⟨rfl, rfl⟩ : h1 = 0x32 ∧ h2 = 0x35 := by simpa [twentyFive] using percent
    exact .inr (.inr (.inr rfl))
  have decoded : (UInt8.ofNat (hexValue h1 * 16 + hexValue h2)).toNat = (hexValue h1 * 16 + hexValue h2) % 256 := rfl
  rcases hostish with rfl | rfl
  · have high : 8 ≤ hexValue h1 := by simp_all
    left
    omega
  · by_cases space : hexValue h1 * 16 + hexValue h2 = 32
    · exact .inr (.inr (.inl (by rw [space]; rfl)))
    · exact .inr (.inl (by simpa [percent, space] using notZone))

theorem unescape_hostByte {mode : EncodeMode} (hostish : mode = .host ∨ mode = .zone) :
    ∀ {s r : List UInt8}, unescape mode s = .ok r → ∀ b ∈ r, HostByte b := by
  intro s
  induction s using unescape.induct mode with
  | case1 => intro r ok; cases ok; simp
  | case2 c pct h1 h2 tail bad =>
    intro r ok; rw [unescape.eq_def] at ok; simp only [if_pos pct, if_pos bad] at ok; cases ok
  | case3 c pct h1 h2 tail hex low =>
    intro r ok; rw [unescape.eq_def] at ok; simp only [if_pos pct, if_neg hex, if_pos low] at ok; cases ok
  | case4 c pct h1 h2 tail _ hex notLow =>
    rename_i zone
    intro r ok; rw [unescape.eq_def] at ok; simp only [if_pos pct, if_neg hex, if_neg notLow, if_pos zone] at ok
    cases ok
  | case5 c pct h1 h2 tail _ hex notLow notZone =>
    rename_i ih
    intro r ok
    rw [unescape.eq_def] at ok
    simp only [if_pos pct, if_neg hex, if_neg notLow, if_neg notZone] at ok
    obtain ⟨r', rest, rfl⟩ := Except.map_eq_ok ok
    exact List.forall_mem_cons.mpr ⟨hostByte_escape hostish hex notLow notZone, ih rest⟩
  | case6 c rest pct short =>
    intro r ok; rw [unescape.eq_def] at ok; simp only [if_pos pct] at ok; cases ok
  | case7 c rest notPct rejected =>
    intro r ok; rw [unescape.eq_def] at ok; simp only [if_neg notPct, if_pos rejected] at ok; cases ok
  | case8 c rest notPct kept ih =>
    intro r ok
    rw [unescape.eq_def] at ok
    simp only [if_neg notPct, if_neg kept] at ok
    obtain ⟨r', rest, rfl⟩ := Except.map_eq_ok ok
    refine List.forall_mem_cons.mpr ⟨?_, ih rest⟩
    have hostishB : (decide (mode = .host) || decide (mode = .zone)) = true := by
      rcases hostish with same | same <;> simp [same]
    simp only [hostishB, Bool.true_and, Bool.and_eq_true, decide_eq_true_eq, not_and, Bool.not_eq_true] at kept
    by_cases low : c.toNat < 0x80
    · exact .inr (.inl (kept low))
    · exact .inl (by omega)

theorem Except.bind_eq_ok {ε α β : Type} {f : α → Except ε β} {x : Except ε α} {r : β} (bound : x.bind f = .ok r) :
    ∃ a, x = .ok a ∧ f a = .ok r := by
  cases x with
  | error e => cases bound
  | ok a => exact ⟨a, rfl, bound⟩

theorem parseHost_hostByte {host h : List UInt8} (parsed : parseHost host = .ok h) : ∀ b ∈ h, HostByte b := by
  unfold parseHost at parsed
  split at parsed
  · split at parsed
    · cases parsed
    · split at parsed
      · cases parsed
      · split at parsed
        · obtain ⟨host1, first, parsed⟩ := Except.bind_eq_ok parsed
          obtain ⟨host2, second, parsed⟩ := Except.bind_eq_ok parsed
          obtain ⟨host3, third, parsed⟩ := Except.bind_eq_ok parsed
          cases parsed
          intro b member
          rcases List.mem_append.mp member with member | member
          · rcases List.mem_append.mp member with member | member
            · exact unescape_hostByte (.inl rfl) first b member
            · exact unescape_hostByte (.inr rfl) second b member
          · exact unescape_hostByte (.inl rfl) third b member
        · exact unescape_hostByte (.inl rfl) parsed
  · split at parsed
    · split at parsed
      · cases parsed
      · exact unescape_hostByte (.inl rfl) parsed
    · exact unescape_hostByte (.inl rfl) parsed

theorem parseAuthority_hostByte {authority h : List UInt8} (parsed : parseAuthority authority = .ok h) :
    ∀ b ∈ h, HostByte b := by
  unfold parseAuthority at parsed
  split at parsed
  · exact parseHost_hostByte parsed
  · obtain ⟨host, found, parsed⟩ := Except.bind_eq_ok parsed
    split at parsed
    · cases parsed
    · split at parsed <;> obtain ⟨_, -, rfl⟩ := Except.map_eq_ok parsed <;> exact parseHost_hostByte found

theorem getSchemeFrom_no_colon (rawURL : List UInt8) :
    ∀ (rest seen : List UInt8) {scheme after : List UInt8}, (∀ b ∈ seen, b.toNat ≠ 0x3A) →
      getSchemeFrom rawURL seen rest = .ok (scheme, after) → ∀ b ∈ scheme, b.toNat ≠ 0x3A
  | [], seen, _, _, _, ran => by cases ran; simp
  | c :: rest, seen, _, _, clean, ran => by
    have extend : c.toNat ≠ 0x3A → ∀ b ∈ seen ++ [c], b.toNat ≠ 0x3A := fun other b member => by
      rcases List.mem_append.mp member with member | member
      · exact clean b member
      · rw [List.mem_singleton.mp member]; exact other
    rw [getSchemeFrom] at ran
    split_ifs at ran with letter sign empty colon empty'
    · simp only [Bool.or_eq_true, Bool.and_eq_true, decide_eq_true_eq] at letter
      exact getSchemeFrom_no_colon rawURL rest _ (extend (by omega)) ran
    · cases ran; simp
    · simp only [isDigit, Bool.or_eq_true, Bool.and_eq_true, decide_eq_true_eq] at sign
      exact getSchemeFrom_no_colon rawURL rest _ (extend (by omega)) ran
    · cases ran; exact clean
    · cases ran; simp

theorem toLowerAscii_ne_colon {c : UInt8} (other : c.toNat ≠ 0x3A) : (toLowerAscii c).toNat ≠ 0x3A := by
  unfold toLowerAscii
  split
  · rename_i upper
    simp only [Bool.and_eq_true, decide_eq_true_eq] at upper
    have sum : (c + 0x20).toNat = (c.toNat + 0x20) % 256 := rfl
    omega
  · exact other

theorem parseAfterScheme_shape {scheme rest : List UInt8} {url : Url} (parsed : parseAfterScheme scheme rest = .ok url) :
    url.scheme = scheme ∧ ∀ b ∈ url.host, HostByte b := by
  unfold parseAfterScheme at parsed
  dsimp only at parsed
  split_ifs at parsed
  · cases parsed; simp
  · obtain ⟨host, found, parsed⟩ := Except.bind_eq_ok parsed
    obtain ⟨_, -, rfl⟩ := Except.map_eq_ok parsed
    exact ⟨rfl, parseAuthority_hostByte found⟩
  · obtain ⟨_, -, rfl⟩ := Except.map_eq_ok parsed
    simp

theorem urlParse_shape {rawURL : List UInt8} {url : Url} (parsed : urlParse rawURL = .ok url) :
    (∀ b ∈ url.scheme, b.toNat ≠ 0x3A) ∧ ∀ b ∈ url.host, HostByte b := by
  obtain ⟨url', cut, parsed⟩ := Except.bind_eq_ok parsed
  obtain rfl : url' = url := by
    split at parsed
    · exact Except.ok.inj parsed
    · obtain ⟨_, -, same⟩ := Except.map_eq_ok parsed
      exact same
  unfold parse at cut
  split_ifs at cut
  · cases cut; simp
  · obtain ⟨⟨scheme, rest⟩, schemed, cut⟩ := Except.bind_eq_ok cut
    obtain ⟨named, hosted⟩ := parseAfterScheme_shape cut
    refine ⟨?_, hosted⟩
    rw [named]
    intro b member
    obtain ⟨c, listed, rfl⟩ := List.mem_map.mp member
    exact toLowerAscii_ne_colon (getSchemeFrom_no_colon _ _ [] (by simp) schemed c listed)

end Shape

end SessionEngine.Encoding
