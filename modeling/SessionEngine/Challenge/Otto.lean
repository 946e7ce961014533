import SessionEngine.Encoding.Quote
import Mathlib.Tactic.Ring

namespace SessionEngine.Challenge

open Encoding

/-! The solver's VM reads the `%q` text as an ECMAScript string literal (ES5.1 §7.8.4); its
    source is the script's UTF-8, one code point per source character, and its value is a list of
    UTF-16 code units. -/

/-- §7.3 `LineTerminator`. -/
def isLineTerminator (c : Nat) : Bool :=
  c = 0x0A || c = 0x0D || c = 0x2028 || c = 0x2029

/-- §7.8.3 `DecimalDigit`. -/
def isDecimalDigit (c : Nat) : Bool :=
  0x30 ≤ c && c ≤ 0x39

/-- §7.8.3 `HexDigit`. -/
def isHexDigit (c : Nat) : Bool :=
  isDecimalDigit c || (0x41 ≤ c && c ≤ 0x46) || (0x61 ≤ c && c ≤ 0x66)

/-- The MV of a `HexDigit`. -/
def hexMV (c : Nat) : Nat :=
  if c ≤ 0x39 then c - 0x30 else if c ≤ 0x46 then c - 0x41 + 10 else c - 0x61 + 10

/-- A character as code units of a string value (§6): one above U+FFFF is a surrogate pair. -/
def utf16Encode (c : Nat) : List Nat :=
  if c < 0x10000 then [c] else [0xD800 + (c - 0x10000) / 0x400, 0xDC00 + (c - 0x10000) % 0x400]

/-- The CV of a `SingleEscapeCharacter` (Table 4). -/
def singleEscape (c : Nat) : Option Nat :=
  if c = 0x27 ∨ c = 0x22 ∨ c = 0x5C then some c
  else if c = 0x62 then some 0x08
  else if c = 0x74 then some 0x09
  else if c = 0x6E then some 0x0A
  else if c = 0x76 then some 0x0B
  else if c = 0x66 then some 0x0C
  else if c = 0x72 then some 0x0D
  else none

def prependUnits (units : List Nat) (read : Option (List Nat × List Nat)) : Option (List Nat × List Nat) :=
  read.map fun read => (units ++ read.1, read.2)

/-- `count` `HexDigit`s at the front of the source: their MV after `acc`, and the source after them. -/
def readHexDigits : Nat → Nat → List Nat → Option (Nat × List Nat)
  | 0, acc, rest => some (acc, rest)
  | count + 1, acc, h :: rest => if isHexDigit h then readHexDigits count (acc * 16 + hexMV h) rest else none
  | _ + 1, _, [] => none

/-- An `EscapeSequence` or `LineContinuation` after a backslash, its first character `e`: the
    code units it contributes to the SV and the source after it. -/
def readEscape (e : Nat) (rest : List Nat) : Option (List Nat × List Nat) :=
  match singleEscape e with
  | some cv => some ([cv], rest)
  | none =>
    if e = 0x78 then (readHexDigits 2 0 rest).map fun read => ([read.1], read.2)
    else if e = 0x75 then (readHexDigits 4 0 rest).map fun read => ([read.1], read.2)
    else if e = 0x30 ∧ (rest.head?.all fun d => !isDecimalDigit d) then some ([0], rest)
    else if isDecimalDigit e then none
    else if e = 0x0D ∧ rest.head? = some 0x0A then some ([], rest.drop 1)
    else if isLineTerminator e then some ([], rest)
    else some (utf16Encode e, rest)

theorem readHexDigits_length {count acc : Nat} {rest rest' : List Nat} {value : Nat}
    (read : readHexDigits count acc rest = some (value, rest')) : rest'.length ≤ rest.length := by
  induction count generalizing acc rest with
  | zero => cases read; exact le_refl _
  | succ count ih =>
    match rest, read with
    | h :: rest, read =>
      rw [readHexDigits] at read
      split at read
      · exact Nat.le_succ_of_le (ih read)
      · cases read

theorem readEscape_length {e : Nat} {rest rest' sv : List Nat} (read : readEscape e rest = some (sv, rest')) :
    rest'.length ≤ rest.length := by
  have hex : ∀ count, (readHexDigits count 0 rest).map (fun read => ([read.1], read.2)) = some (sv, rest') →
      rest'.length ≤ rest.length := fun count mapped => by
    obtain ⟨_, digits, same⟩ := Option.map_eq_some'.mp mapped
    cases same
    exact readHexDigits_length digits
  unfold readEscape at read
  split at read
  · cases read; exact le_refl _
  -- `\x`, `\u`, `\0`, a decimal digit, CR LF, a line terminator, any other character
  simp only [ite_eq_iff] at read
  rcases read with ⟨-, read⟩ | ⟨-, ⟨-, read⟩ | ⟨-, ⟨-, read⟩ | ⟨-, ⟨-, read⟩ |
    ⟨-, ⟨-, read⟩ | ⟨-, ⟨-, read⟩ | ⟨-, read⟩⟩⟩⟩⟩⟩
  · exact hex 2 read
  · exact hex 4 read
  · cases read; exact le_refl _
  · cases read
  · cases read; rw [List.length_drop]; exact Nat.sub_le _ _
  · cases read; exact le_refl _
  · cases read; exact le_refl _

/-- The SV of the `DoubleStringCharacters` of a literal up to its closing `"`, and the source
    after that quote; none where the source holds no `StringLiteral`. -/
def readDoubleString : List Nat → Option (List Nat × List Nat)
  | [] => none
  | c :: rest =>
    if c = 0x22 then some ([], rest)
    else if c = 0x5C then
      match rest with
      | [] => none
      | e :: rest' =>
        match read : readEscape e rest' with
        | some (sv, rest'') =>
          have := readEscape_length read
          prependUnits sv (readDoubleString rest'')
        | none => none
    else if isLineTerminator c then none
    else prependUnits (utf16Encode c) (readDoubleString rest)
termination_by source => source.length

/-- A `StringLiteral` in double quotes at the front of the source: its SV and the source after it. -/
def readStringLiteral : List Nat → Option (List Nat × List Nat)
  | c :: rest => if c = 0x22 then readDoubleString rest else none
  | [] => none

/-- The source characters of a script: its runes, a byte that starts no valid sequence read as
    U+FFFD. -/
def DecodedRune.codePoint : DecodedRune → Nat
  | .valid r => r
  | .invalid _ => 0xFFFD

def sourceText (script : List UInt8) : List Nat :=
  (decodeRunes script).map DecodedRune.codePoint

/-- `utf16.Decode`: a surrogate pair is one rune, a lone surrogate U+FFFD. -/
def utf16Decode : List Nat → List Nat
  | [] => []
  | u :: rest =>
    if 0xD800 ≤ u ∧ u < 0xDC00 then
      match rest with
      | u2 :: rest' =>
        if 0xDC00 ≤ u2 ∧ u2 < 0xE000 then ((u - 0xD800) * 0x400 + (u2 - 0xDC00) + 0x10000) :: utf16Decode rest'
        else 0xFFFD :: utf16Decode (u2 :: rest')
      | [] => [0xFFFD]
    else if 0xDC00 ≤ u ∧ u < 0xE000 then 0xFFFD :: utf16Decode rest
    else u :: utf16Decode rest

/-- A string value as the Go string `value.String()` returns: its UTF-16 decoded and written
    as UTF-8. -/
def goString (units : List Nat) : List UInt8 :=
  (utf16Decode units).flatMap appendRune

/-- The solver's VM as its methods read and write it: `document.cookie` and `navigator.userAgent`,
    each a JavaScript string. -/
structure OttoSolver where
  cookie : List Nat
  userAgent : List Nat

/-- The errors `vm.Run` returns to `NewOttoSolver` and `SetCookie`: a script that does not parse. -/
inductive OttoError where
  | bootstrap
  | setCookie
  deriving DecidableEq, Repr

/-- The generic user agent `NewOttoSolver` falls back to. -/
def defaultUserAgent : List UInt8 :=
  goBytes "Mozilla/5.0 (compatible; GoSessionEngine/1.0)"

/-- The value of the literal `%q` writes for `s` in a script, when the text reads as one literal. -/
def quotedValue (t : PrintTable) (s : List UInt8) : Option (List Nat) :=
  match readStringLiteral (sourceText (quote t s)) with
  | some (sv, []) => some sv
  | _ => none

/-- `NewOttoSolver(userAgent)`: the bootstrap script sets `document.cookie` to `""` and
    `navigator.userAgent` to the `%q` literal of the user agent, the default one when it is empty. -/
def newOttoSolver (t : PrintTable) (userAgent : List UInt8) : Except OttoError OttoSolver :=
  let agent := if userAgent = [] then defaultUserAgent else userAgent
  match quotedValue t agent with
  | some sv => .ok ⟨[], sv⟩
  | none => .error .bootstrap

/-- `SetCookie(cookie)`: runs `document.cookie = %q;`. -/
def OttoSolver.setCookie (t : PrintTable) (solver : OttoSolver) (cookie : List UInt8) :
    Except OttoError OttoSolver :=
  match quotedValue t cookie with
  | some sv => .ok { solver with cookie := sv }
  | none => .error .setCookie

/-- `GetCookie()`: `document.cookie` as a Go string. -/
def OttoSolver.getCookie (solver : OttoSolver) : List UInt8 :=
  goString solver.cookie

/-- `Eval("navigator.userAgent")`: the value's `ToString()`. -/
def OttoSolver.evalUserAgent (solver : OttoSolver) : List UInt8 :=
  goString solver.userAgent

/-- The code units the literal denotes for one step of `appendQuotedWith`: `\\a` is read as `a`
    and `\\U` as `U` followed by the digits, both `NonEscapeCharacter`s, and `\\xHH` for a byte
    that starts no rune as the code unit `0xHH`. -/
def literalUnits (t : PrintTable) : DecodedRune → List Nat
  | .valid r =>
    if r = 0x07 then [0x61]
    else if 0x10000 ≤ r ∧ t.isPrint r = false then 0x55 :: (hexDigits r 8).map UInt8.toNat
    else utf16Encode r
  | .invalid b => [b.toNat]

/-- The runes the quoted literal gives back: no BEL, and none above U+FFFF that `IsPrint` rejects. -/
def quotableRune (t : PrintTable) : DecodedRune → Bool
  | .valid r => r ≠ 0x07 && (r < 0x10000 || t.isPrint r)
  | .invalid _ => false

/-- The runes `value.String()` gives back for one step of the quoting loop. -/
def readBack (t : PrintTable) : DecodedRune → List Nat
  | .valid r =>
    if r = 0x07 then [0x61]
    else if 0x10000 ≤ r ∧ t.isPrint r = false then 0x55 :: (hexDigits r 8).map UInt8.toNat
    else [r]
  | .invalid b => [b.toNat]

/-- Every rune of the string reads back: what `%q` writes for it is a literal of that string. -/
def quotable (t : PrintTable) (s : List UInt8) : Bool :=
  (decodeRunes s).all (quotableRune t)

section Reading

@[simp] theorem prependUnits_prependUnits (a b : List Nat) (read : Option (List Nat × List Nat)) :
    prependUnits a (prependUnits b read) = prependUnits (a ++ b) read := by
  cases read <;> simp [prependUnits]

@[simp] theorem prependUnits_nil (read : Option (List Nat × List Nat)) : prependUnits [] read = read := by
  cases read <;> rfl

theorem readDoubleString_close (src : List Nat) : readDoubleString (0x22 :: src) = some ([], src) := by
  cases src <;> rw [readDoubleString] <;> rfl

theorem readDoubleString_char {c : Nat} (src : List Nat) (notQuote : c ≠ 0x22) (notBackslash : c ≠ 0x5C)
    (notEnd : isLineTerminator c = false) :
    readDoubleString (c :: src) = prependUnits (utf16Encode c) (readDoubleString src) := by
  cases src with
  | nil => rw [readDoubleString.eq_2, if_neg notQuote, if_neg notBackslash, if_neg (by rw [notEnd]; decide)]
  | cons e rest => rw [readDoubleString.eq_3, if_neg notQuote, if_neg notBackslash, if_neg (by rw [notEnd]; decide)]

theorem readDoubleString_escape {e : Nat} {src sv rest : List Nat} (read : readEscape e src = some (sv, rest)) :
    readDoubleString (0x5C :: e :: src) = prependUnits sv (readDoubleString rest) := by
  rw [readDoubleString, if_neg (by decide), if_pos rfl]
  split <;> simp_all

theorem readDoubleString_plain (src : List Nat) :
    ∀ cs : List Nat, (∀ c ∈ cs, c ≠ 0x22 ∧ c ≠ 0x5C ∧ isLineTerminator c = false ∧ c < 0x10000) →
      readDoubleString (cs ++ src) = prependUnits cs (readDoubleString src)
  | [], _ => by simp
  | c :: cs, plain => by
    obtain ⟨notQuote, notBackslash, notEnd, bmp⟩ := plain c (List.mem_cons_self c cs)
    rw [List.cons_append, readDoubleString_char _ notQuote notBackslash notEnd,
      readDoubleString_plain src cs fun d member => plain d (List.mem_cons_of_mem c member), prependUnits_prependUnits,
      utf16Encode, if_pos bmp]
    rfl

theorem lowerhex_digit : ∀ n < 16, isHexDigit (lowerhex n).toNat = true ∧ hexMV (lowerhex n).toNat = n ∧
    (lowerhex n).toNat ≠ 0x22 ∧ (lowerhex n).toNat ≠ 0x5C ∧ isLineTerminator (lowerhex n).toNat = false ∧
    (lowerhex n).toNat < 0x10000 := by
  decide

theorem readHexDigits_hexDigits (r : Nat) (rest : List Nat) :
    ∀ count acc : Nat, readHexDigits count acc ((hexDigits r count).map UInt8.toNat ++ rest) =
      some (acc * 16 ^ count + r % 16 ^ count, rest)
  | 0, acc => by simp [readHexDigits, hexDigits, Nat.mod_one]
  | count + 1, acc => by
    obtain ⟨hex, value, -⟩ := lowerhex_digit (r / 16 ^ count % 16) (Nat.mod_lt _ (by decide))
    rw [hexDigits, List.map_cons, List.cons_append, readHexDigits, if_pos hex, value,
      readHexDigits_hexDigits r rest count, Nat.mod_pow_succ, pow_succ]
    congr 2
    ring

theorem hexDigits_plain (r count : Nat) :
    ∀ c ∈ (hexDigits r count).map UInt8.toNat, c ≠ 0x22 ∧ c ≠ 0x5C ∧ isLineTerminator c = false ∧ c < 0x10000 := by
  suffices ∀ b ∈ hexDigits r count, b.toNat ≠ 0x22 ∧ b.toNat ≠ 0x5C ∧ isLineTerminator b.toNat = false ∧
      b.toNat < 0x10000 by
    intro c member
    obtain ⟨b, digit, rfl⟩ := List.mem_map.mp member
    exact this b digit
  induction count with
  | zero => intro b member; cases member
  | succ count ih =>
    intro b member
    rcases List.mem_cons.mp member with rfl | later
    · exact (lowerhex_digit _ (Nat.mod_lt _ (by decide))).2.2
    · exact ih b later

theorem sourceText_ascii {bs : List UInt8} (ascii : ∀ b ∈ bs, b.toNat < 0x80) (rest : List UInt8) :
    sourceText (bs ++ rest) = bs.map UInt8.toNat ++ sourceText rest := by
  induction bs with
  | nil => rfl
  | cons b bs ih =>
    rw [List.cons_append, sourceText, decodeRunes_ascii (ascii b (List.mem_cons_self b bs)), List.map_cons,
      ← sourceText, ih fun c member => ascii c (List.mem_cons_of_mem b member)]
    rfl

theorem sourceText_encodeRune {r : Nat} (valid : validRune r = true) (rest : List UInt8) :
    sourceText (encodeRune r ++ rest) = r :: sourceText rest := by
  rw [sourceText, decodeRunes_encodeRune valid]
  rfl

theorem readEscape_hex_two (src : List Nat) :
    readEscape 0x78 src = (readHexDigits 2 0 src).map fun read => ([read.1], read.2) := rfl

theorem readEscape_hex_four (src : List Nat) :
    readEscape 0x75 src = (readHexDigits 4 0 src).map fun read => ([read.1], read.2) := rfl

theorem read_escape_ascii {e : UInt8} {bs : List UInt8} {sv : List Nat} (ascii : ∀ b ∈ e :: bs, b.toNat < 0x80)
    (read : ∀ src, readEscape e.toNat (bs.map UInt8.toNat ++ src) = some (sv, src)) (rest : List UInt8) :
    readDoubleString (sourceText (0x5C :: e :: bs ++ rest)) = prependUnits sv (readDoubleString (sourceText rest)) := by
  show readDoubleString (sourceText ((0x5C :: e :: bs) ++ rest)) = _
  rw [sourceText_ascii (List.forall_mem_cons.mpr ⟨by decide, ascii⟩)]
  exact readDoubleString_escape (read _)

theorem isLineTerminator_eq_false {c : Nat} (bounds : 0x20 ≤ c ∧ c ≠ 0x2028 ∧ c ≠ 0x2029) :
    isLineTerminator c = false := by
  simp only [isLineTerminator, Bool.or_eq_false_iff, decide_eq_false_iff_not]
  omega

theorem literalUnits_of_bmp (t : PrintTable) {r : Nat} (notBel : r ≠ 0x07) (bmp : r < 0x10000) :
    literalUnits t (.valid r) = [r] := by
  rw [literalUnits, if_neg notBel, if_neg (by omega), utf16Encode, if_pos bmp]

theorem quoteRune_valid (t : PrintTable) (r : Nat) : quoteRune t (.valid r) = appendEscapedRune t r := rfl

theorem read_quoteRune (t : PrintTable) {d : DecodedRune} (valid : ∀ r, d = .valid r → validRune r = true)
    (rest : List UInt8) :
    readDoubleString (sourceText (quoteRune t d ++ rest)) =
      prependUnits (literalUnits t d) (readDoubleString (sourceText rest)) := by
  cases d with
  | invalid b =>
    refine read_escape_ascii (List.forall_mem_cons.mpr ⟨by decide, hexDigits_lt⟩) (fun src => ?_) rest
    show readEscape 0x78 _ = _
    rw [readEscape_hex_two, readHexDigits_hexDigits]
    simp only [Option.map_some', literalUnits, Nat.zero_mul, Nat.zero_add,
      Nat.mod_eq_of_lt (show b.toNat < 16 ^ 2 from toNat_lt_256 b)]
  | valid r =>
    have validR := valid r rfl
    rw [quoteRune_valid]
    by_cases quoted : r = 0x22 ∨ r = 0x5C
    · rw [appendEscapedRune, if_pos quoted, appendRune_of_valid validR, encodeRune_one (by omega)]
      rcases quoted with rfl | rfl <;> exact read_escape_ascii (by decide) (fun src => by rfl) rest
    by_cases printable : t.isPrint r = true
    · have bounds := t.isPrint_bounds printable
      rw [appendEscapedRune, if_neg quoted, if_pos printable, appendRune_of_valid validR, sourceText_encodeRune validR,
        readDoubleString_char _ (by omega) (by omega) (isLineTerminator_eq_false bounds), literalUnits,
        if_neg (by omega), if_neg fun above => by rw [printable] at above; cases above.2]
    rw [appendEscapedRune, if_neg quoted, if_neg printable]
    by_cases named : r = 0x07 ∨ r = 0x08 ∨ r = 0x0C ∨ r = 0x0A ∨ r = 0x0D ∨ r = 0x09 ∨ r = 0x0B
    · rcases named with rfl | rfl | rfl | rfl | rfl | rfl | rfl <;>
        exact read_escape_ascii (by decide) (fun src => by rfl) rest
    rw [if_neg (by omega), if_neg (by omega), if_neg (by omega), if_neg (by omega), if_neg (by omega),
      if_neg (by omega), if_neg (by omega)]
    by_cases control : r < 0x20 ∨ r = 0x7F
    · rw [if_pos control]
      refine read_escape_ascii (List.forall_mem_cons.mpr ⟨by decide, hexDigits_lt⟩) (fun src => ?_) rest
      show readEscape 0x78 _ = _
      rw [readEscape_hex_two, readHexDigits_hexDigits, literalUnits_of_bmp t (by omega) (by omega)]
      simp only [Option.map_some', Nat.zero_mul, Nat.zero_add, Option.some.injEq, Prod.mk.injEq, and_true,
        List.cons.injEq]
      omega
    rw [if_neg control, validR, if_neg (by decide)]
    by_cases bmp : r < 0x10000
    · rw [if_pos bmp]
      refine read_escape_ascii (List.forall_mem_cons.mpr ⟨by decide, hexDigits_lt⟩) (fun src => ?_) rest
      show readEscape 0x75 _ = _
      rw [readEscape_hex_four, readHexDigits_hexDigits, literalUnits_of_bmp t (by omega) bmp]
      simp only [Option.map_some', Nat.zero_mul, Nat.zero_add, Option.some.injEq, Prod.mk.injEq, and_true,
        List.cons.injEq]
      omega
    · rw [if_neg bmp]
      show readDoubleString (sourceText ((0x5C :: 0x55 :: hexDigits r 8) ++ rest)) = _
      rw [sourceText_ascii (List.forall_mem_cons.mpr
          ⟨by decide, List.forall_mem_cons.mpr ⟨by decide, hexDigits_lt⟩⟩), List.map_cons, List.map_cons,
        List.cons_append, List.cons_append]
      show readDoubleString (0x5C :: 0x55 :: _) = _
      rw [readDoubleString_escape (rfl : readEscape 0x55 _ = some ([0x55], _)),
        readDoubleString_plain _ _ (hexDigits_plain r 8), prependUnits_prependUnits, literalUnits, if_neg (by omega),
        if_pos ⟨by omega, by simpa using printable⟩]
      rfl

theorem read_quoted (t : PrintTable) (rest : List UInt8) :
    ∀ ds : List DecodedRune, (∀ r, DecodedRune.valid r ∈ ds → validRune r = true) →
      readDoubleString (sourceText (ds.flatMap (quoteRune t) ++ rest)) =
        prependUnits (ds.flatMap (literalUnits t)) (readDoubleString (sourceText rest))
  | [], _ => by simp
  | d :: ds, valid => by
    rw [List.flatMap_cons, List.append_assoc,
      read_quoteRune t (fun r same => valid r (same ▸ List.mem_cons_self d ds)),
      read_quoted t rest ds fun r member => valid r (List.mem_cons_of_mem d member), prependUnits_prependUnits,
      List.flatMap_cons]

theorem quotedValue_eq (t : PrintTable) (s : List UInt8) :
    quotedValue t s = some ((decodeRunes s).flatMap (literalUnits t)) := by
  have read := read_quoted t [0x22] (decodeRunes s) fun r member => decodeRunes_valid s member
  have closing : readDoubleString (sourceText [0x22]) = some ([], []) := readDoubleString_close []
  rw [closing] at read
  have opening : sourceText (0x22 :: ((decodeRunes s).flatMap (quoteRune t) ++ [0x22])) =
      0x22 :: sourceText ((decodeRunes s).flatMap (quoteRune t) ++ [0x22]) :=
    @sourceText_ascii [0x22] (by decide) _
  rw [quotedValue, quote, List.cons_append, opening, readStringLiteral, if_pos rfl, read]
  simp [prependUnits]

end Reading

section Solver

theorem utf16Decode_plain {u : Nat} (plain : u < 0xD800 ∨ 0xE000 ≤ u) (rest : List Nat) :
    utf16Decode (u :: rest) = u :: utf16Decode rest := by
  cases rest with
  | nil => rw [utf16Decode.eq_3, if_neg (by omega), if_neg (by omega)]
  | cons c rest => rw [utf16Decode.eq_2, if_neg (by omega), if_neg (by omega)]

theorem utf16Decode_encode {r : Nat} (valid : validRune r = true) (rest : List Nat) :
    utf16Decode (utf16Encode r ++ rest) = r :: utf16Decode rest := by
  rw [validRune_iff] at valid
  unfold utf16Encode
  split
  · exact utf16Decode_plain (by omega) rest
  · rw [List.cons_append, List.singleton_append, utf16Decode.eq_2, if_pos (by omega), if_pos (by omega)]
    congr 1
    omega

theorem utf16Decode_bmp (rest : List Nat) :
    ∀ us : List Nat, (∀ u ∈ us, u < 0xD800) → utf16Decode (us ++ rest) = us ++ utf16Decode rest
  | [], _ => rfl
  | u :: us, bmp => by
    rw [List.cons_append, utf16Decode_plain (.inl (bmp u (List.mem_cons_self u us))),
      utf16Decode_bmp rest us fun v member => bmp v (List.mem_cons_of_mem u member), List.cons_append]

theorem hexDigits_bmp (r count : Nat) : ∀ u ∈ (hexDigits r count).map UInt8.toNat, u < 0xD800 := by
  intro u member
  obtain ⟨b, digit, rfl⟩ := List.mem_map.mp member
  have := hexDigits_lt b digit
  omega

theorem utf16Decode_literalUnits (t : PrintTable) {d : DecodedRune} (valid : ∀ r, d = .valid r → validRune r = true)
    (rest : List Nat) : utf16Decode (literalUnits t d ++ rest) = readBack t d ++ utf16Decode rest := by
  cases d with
  | invalid b =>
    have := toNat_lt_256 b
    exact utf16Decode_bmp rest [b.toNat] fun u member => by rw [List.mem_singleton.mp member]; omega
  | valid r =>
    rw [literalUnits, readBack]
    split
    · exact utf16Decode_bmp rest [0x61] (by decide)
    split
    · exact utf16Decode_bmp rest _ (List.forall_mem_cons.mpr ⟨by decide, hexDigits_bmp r 8⟩)
    · exact utf16Decode_encode (valid r rfl) rest

theorem utf16Decode_flatMap_literalUnits (t : PrintTable) :
    ∀ ds : List DecodedRune, (∀ r, DecodedRune.valid r ∈ ds → validRune r = true) →
      utf16Decode (ds.flatMap (literalUnits t)) = ds.flatMap (readBack t)
  | [], _ => rfl
  | d :: ds, valid => by
    rw [List.flatMap_cons, utf16Decode_literalUnits t (fun r same => valid r (same ▸ List.mem_cons_self d ds)),
      utf16Decode_flatMap_literalUnits t ds fun r member => valid r (List.mem_cons_of_mem d member),
      List.flatMap_cons]

theorem readBack_valid (t : PrintTable) {d : DecodedRune} (valid : ∀ r, d = .valid r → validRune r = true) :
    ∀ u ∈ readBack t d, validRune u = true := by
  intro u member
  rw [validRune_iff]
  cases d with
  | invalid b =>
    rw [readBack, List.mem_singleton] at member
    have := toNat_lt_256 b
    omega
  | valid r =>
    have validR := (validRune_iff r).mp (valid r rfl)
    rw [readBack] at member
    split at member
    · rw [List.mem_singleton.mp member]; omega
    split at member
    · rcases List.mem_cons.mp member with rfl | digit
      · omega
      · have := hexDigits_bmp r 8 u digit; omega
    · rw [List.mem_singleton.mp member]; exact validR

theorem readBack_quotable (t : PrintTable) {d : DecodedRune} (quoted : quotableRune t d = true) :
    (readBack t d).flatMap encodeRune = d.bytes := by
  cases d with
  | invalid b => cases quoted
  | valid r =>
    simp only [quotableRune, Bool.and_eq_true, Bool.or_eq_true, decide_eq_true_eq, ne_eq] at quoted
    have notAstral : ¬(0x10000 ≤ r ∧ t.isPrint r = false) := fun above => by
      rcases quoted.2 with small | printable
      · omega
      · rw [printable] at above; cases above.2
    rw [readBack, if_neg quoted.1, if_neg notAstral, List.flatMap_singleton, DecodedRune.bytes]

theorem quotable_of_readBack (t : PrintTable) :
    ∀ ds : List DecodedRune, ds = (ds.flatMap (readBack t)).map .valid → ∀ d ∈ ds, quotableRune t d = true
  | [], _ => by simp
  | d :: ds, fixed => by
    rw [List.flatMap_cons, List.map_append] at fixed
    cases d with
    | invalid b => simp [readBack] at fixed
    | valid r =>
      rw [readBack] at fixed
      split at fixed
      · simp_all
      split at fixed
      · next astral =>
        simp only [List.map_cons, List.cons_append, List.cons.injEq, DecodedRune.valid.injEq] at fixed
        omega
      · next notBel unprintable =>
        simp only [List.map_cons, List.map_nil, List.singleton_append, List.cons.injEq, true_and] at fixed
        intro e member
        rcases List.mem_cons.mp member with rfl | later
        · simp only [quotableRune, Bool.and_eq_true, Bool.or_eq_true, decide_eq_true_eq]
          refine ⟨notBel, ?_⟩
          by_cases small : r < 0x10000
          · exact .inl small
          · refine .inr ?_
            cases printed : t.isPrint r
            · exact absurd ⟨by omega, printed⟩ unprintable
            · rfl
        · exact quotable_of_readBack t ds fixed e later

theorem goString_quotedValue_iff (t : PrintTable) (s : List UInt8) :
    goString ((decodeRunes s).flatMap (literalUnits t)) = s ↔ quotable t s = true := by
  have valid := fun r (member : DecodedRune.valid r ∈ decodeRunes s) => decodeRunes_valid s member
  have runesValid : ∀ u ∈ (decodeRunes s).flatMap (readBack t), validRune u = true := by
    intro u member
    obtain ⟨d, mem, inside⟩ := List.mem_flatMap.mp member
    exact readBack_valid t (fun r same => valid r (same ▸ mem)) u inside
  have readAll : goString ((decodeRunes s).flatMap (literalUnits t)) =
      ((decodeRunes s).flatMap (readBack t)).flatMap encodeRune := by
    rw [goString, utf16Decode_flatMap_literalUnits t _ valid]
    exact List.flatMap_congr fun u member => appendRune_of_valid (runesValid u member)
  rw [readAll, quotable, List.all_eq_true]
  constructor
  · intro same
    have decoded := decodeRunes_flatMap_encodeRune _ runesValid
    rw [same] at decoded
    exact quotable_of_readBack t _ decoded
  · intro quoted
    conv => rhs; rw [← decodeRunes_bytes s]
    rw [List.flatMap_assoc]
    exact List.flatMap_congr fun d member => readBack_quotable t (quoted d member)

theorem setCookie_eq (t : PrintTable) (solver : OttoSolver) (cookie : List UInt8) :
    solver.setCookie t cookie = .ok { solver with cookie := (decodeRunes cookie).flatMap (literalUnits t) } := by
  rw [OttoSolver.setCookie, quotedValue_eq]

theorem newOttoSolver_eq (t : PrintTable) (userAgent : List UInt8) :
    newOttoSolver t userAgent =
      .ok ⟨[], (decodeRunes (if userAgent = [] then defaultUserAgent else userAgent)).flatMap (literalUnits t)⟩ := by
  simp only [newOttoSolver, quotedValue_eq]

theorem newOttoSolver_empty (t : PrintTable) :
    (newOttoSolver t []).map OttoSolver.evalUserAgent = .ok defaultUserAgent := by
  rw [newOttoSolver_eq, if_pos rfl]
  exact congrArg Except.ok ((goString_quotedValue_iff t defaultUserAgent).mpr rfl)

/-- A BEL is quoted `\\a`, which the literal reads as the letter `a`, and a byte that starts no rune
    is quoted `\\xff`, read as U+00FF and given back as its two bytes; neither reads the tables. -/
theorem set_cookie_bel_and_stray_byte :
    quote ⟨fun _ => false, rfl, rfl⟩ [0x07] = goBytes "\"\\a\"" ∧
      ((⟨[], []⟩ : OttoSolver).setCookie ⟨fun _ => false, rfl, rfl⟩ [0x07]).map OttoSolver.getCookie = .ok [0x61] ∧
      (newOttoSolver ⟨fun _ => false, rfl, rfl⟩ [0x07]).map OttoSolver.evalUserAgent = .ok [0x61] ∧
    quote ⟨fun _ => false, rfl, rfl⟩ [0xFF] = goBytes "\"\\xff\"" ∧
      ((⟨[], []⟩ : OttoSolver).setCookie ⟨fun _ => false, rfl, rfl⟩ [0xFF]).map OttoSolver.getCookie =
        .ok [0xC3, 0xBF] := by
  simp only [setCookie_eq, newOttoSolver_eq]
  exact ⟨rfl, rfl, rfl, rfl, rfl⟩

end Solver

end SessionEngine.Challenge
