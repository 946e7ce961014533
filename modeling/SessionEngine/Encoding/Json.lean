import SessionEngine.Encoding.Base64
import SessionEngine.Encoding.Float

namespace SessionEngine.Encoding

/-! `encoding/json` as `json.Unmarshal` runs it into a `map[string]interface{}`: `checkValid`
    scans the whole text first, and only a valid text is decoded. The scanner's state machine is
    written here as the recursive descent it implements, over bytes. -/

/-- A JSON text as the scanner reads it: a number keeps its text and a string its bytes between
    the quotes, escapes still in place; members keep their order. -/
inductive Json where
  | null
  | bool (b : Bool)
  | number (text : List UInt8)
  | string (raw : List UInt8)
  | array (elements : List Json)
  | object (members : List (List UInt8 × Json))
  deriving Repr

/-- `maxNestingDepth`: the scanner fails on the ten-thousand-and-first open bracket or brace. -/
def maxNestingDepth : Nat := 10000

/-- `isSpace`: space, tab, newline and carriage return. -/
def isSpace (c : UInt8) : Bool :=
  c.toNat = 0x20 || c.toNat = 0x09 || c.toNat = 0x0A || c.toNat = 0x0D

def skipSpace : List UInt8 → List UInt8
  | [] => []
  | c :: rest => if isSpace c then skipSpace rest else c :: rest

def isDigit (c : UInt8) : Bool :=
  0x30 ≤ c.toNat && c.toNat ≤ 0x39

def isHex (c : UInt8) : Bool :=
  isDigit c || (0x61 ≤ c.toNat && c.toNat ≤ 0x66) || (0x41 ≤ c.toNat && c.toNat ≤ 0x46)

/-- The bytes that may follow a backslash, other than `u`: `b f n r t \ / "`. -/
def isEscape (c : UInt8) : Bool :=
  [0x62, 0x66, 0x6E, 0x72, 0x74, 0x5C, 0x2F, 0x22].contains c.toNat

/-- `stateInString` and its escape states: the bytes up to the closing quote and what follows it.
    A byte below `0x20` fails, as does a backslash not followed by an escape byte or by `u` and
    four hex digits. -/
def scanString : List UInt8 → Option (List UInt8 × List UInt8)
  | [] => none
  | c :: rest =>
    if c.toNat = 0x22 then some ([], rest)
    else if c.toNat = 0x5C then
      match rest with
      | e :: rest' =>
        if isEscape e then (scanString rest').map fun (s, r) => (c :: e :: s, r)
        else if e.toNat = 0x75 then
          match rest' with
          | h1 :: h2 :: h3 :: h4 :: rest'' =>
            if isHex h1 && isHex h2 && isHex h3 && isHex h4 then
              (scanString rest'').map fun (s, r) => (c :: e :: h1 :: h2 :: h3 :: h4 :: s, r)
            else none
          | _ => none
        else none
      | [] => none
    else if c.toNat < 0x20 then none
    else (scanString rest).map fun (s, r) => (c :: s, r)

/-- `state1`: the digits after a leading nonzero digit. -/
def spanDigits (bytes : List UInt8) : List UInt8 × List UInt8 :=
  bytes.span isDigit

/-- `stateNeg`, `state0` and `state1`: an optional minus, then `0` or a nonzero digit and more. -/
def scanInt : List UInt8 → Option (List UInt8 × List UInt8)
  | [] => none
  | c :: rest =>
    if c.toNat = 0x2D then
      match rest with
      | d :: rest' =>
        if d.toNat = 0x30 then some ([c, d], rest')
        else if isDigit d then some (c :: d :: (spanDigits rest').1, (spanDigits rest').2)
        else none
      | [] => none
    else if c.toNat = 0x30 then some ([c], rest)
    else if isDigit c then some (c :: (spanDigits rest).1, (spanDigits rest).2)
    else none

/-- `stateDot` and `stateDot0`: a point needs a digit after it. -/
def scanFrac : List UInt8 → Option (List UInt8 × List UInt8)
  | c :: rest =>
    if c.toNat = 0x2E then
      match spanDigits rest with
      | ([], _) => none
      | (ds, r) => some (c :: ds, r)
    else some ([], c :: rest)
  | [] => some ([], [])

/-- `stateE`, `stateESign` and `stateE0`: an exponent needs a digit after its optional sign. -/
def scanExp : List UInt8 → Option (List UInt8 × List UInt8)
  | c :: rest =>
    if c.toNat = 0x65 ∨ c.toNat = 0x45 then
      let (sign, body) := match rest with
        | s :: r => if s.toNat = 0x2B ∨ s.toNat = 0x2D then ([s], r) else ([], rest)
        | [] => ([], [])
      match spanDigits body with
      | ([], _) => none
      | (ds, r) => some (c :: sign ++ ds, r)
    else some ([], c :: rest)
  | [] => some ([], [])

/-- A number's text at the front of the bytes, and what follows it. -/
def scanNumber (bytes : List UInt8) : Option (List UInt8 × List UInt8) := do
  let (int, afterInt) ← scanInt bytes
  let (frac, afterFrac) ← scanFrac afterInt
  let (exp, afterExp) ← scanExp afterFrac
  pure (int ++ frac ++ exp, afterExp)

/-- The literal's remaining bytes at the front. -/
def expectLiteral : List UInt8 → List UInt8 → Option (List UInt8)
  | [], rest => some rest
  | _ :: _, [] => none
  | b :: bs, c :: rest => if c = b then expectLiteral bs rest else none

mutual

/-- `stateBeginValue` at nesting depth `depth`: one value at the front of the bytes (no space
    before it), and what follows it. `fuel` bounds the recursion; `parseJson` gives it one more
    than the length of the text, which `parseValue_fuel` shows is never short. -/
def parseValue : Nat → Nat → List UInt8 → Option (Json × List UInt8)
  | 0, _, _ => none
  | _ + 1, _, [] => none
  | fuel + 1, depth, c :: rest =>
    if c.toNat = 0x7B then
      if depth < maxNestingDepth then
        match skipSpace rest with
        | d :: rest' => if d.toNat = 0x7D then some (.object [], rest') else parseMembers fuel (depth + 1) [] (d :: rest')
        | [] => none
      else none
    else if c.toNat = 0x5B then
      if depth < maxNestingDepth then
        match skipSpace rest with
        | d :: rest' => if d.toNat = 0x5D then some (.array [], rest') else parseElements fuel (depth + 1) [] (d :: rest')
        | [] => none
      else none
    else if c.toNat = 0x22 then (scanString rest).map fun (s, r) => (.string s, r)
    else if c.toNat = 0x74 then (expectLiteral [0x72, 0x75, 0x65] rest).map fun r => (.bool true, r)
    else if c.toNat = 0x66 then (expectLiteral [0x61, 0x6C, 0x73, 0x65] rest).map fun r => (.bool false, r)
    else if c.toNat = 0x6E then (expectLiteral [0x75, 0x6C, 0x6C] rest).map fun r => (.null, r)
    else (scanNumber (c :: rest)).map fun (t, r) => (.number t, r)

/-- `parseObjectKey` and `parseObjectValue`: members after `{`, or after a comma, collected in
    `acc`, up to the closing brace. A comma must be followed by another member. -/
def parseMembers : Nat → Nat → List (List UInt8 × Json) → List UInt8 → Option (Json × List UInt8)
  | 0, _, _, _ => none
  | fuel + 1, depth, acc, bytes =>
    match bytes with
    | c :: rest =>
      if c.toNat = 0x22 then
        match scanString rest with
        | some (key, afterKey) =>
          match skipSpace afterKey with
          | d :: afterColon =>
            if d.toNat = 0x3A then
              match parseValue fuel depth (skipSpace afterColon) with
              | some (v, afterValue) =>
                match skipSpace afterValue with
                | e :: more =>
                  if e.toNat = 0x2C then parseMembers fuel depth (acc ++ [(key, v)]) (skipSpace more)
                  else if e.toNat = 0x7D then some (.object (acc ++ [(key, v)]), more)
                  else none
                | [] => none
              | none => none
            else none
          | [] => none
        | none => none
      else none
    | [] => none

/-- `parseArrayValue`: elements after `[`, or after a comma, collected in `acc`, up to the closing
    bracket. A comma must be followed by another element. -/
def parseElements : Nat → Nat → List Json → List UInt8 → Option (Json × List UInt8)
  | 0, _, _, _ => none
  | fuel + 1, depth, acc, bytes =>
    match parseValue fuel depth bytes with
    | some (v, afterValue) =>
      match skipSpace afterValue with
      | e :: more =>
        if e.toNat = 0x2C then parseElements fuel depth (acc ++ [v]) (skipSpace more)
        else if e.toNat = 0x5D then some (.array (acc ++ [v]), more)
        else none
      | [] => none
    | none => none

end

/-- `checkValid`: one value, with only space around it. -/
def parseJson (bytes : List UInt8) : Option Json :=
  match parseValue (bytes.length + 1) 0 (skipSpace bytes) with
  | some (v, rest) => if skipSpace rest = [] then some v else none
  | none => none

/-! Decoding a valid text into `interface{}` values. -/

/-- `hex4` value of four hex digits. -/
def hexValue (c : UInt8) : Nat :=
  if isDigit c then c.toNat - 0x30 else if 0x61 ≤ c.toNat then c.toNat - 0x61 + 10 else c.toNat - 0x41 + 10

def hex4 (h1 h2 h3 h4 : UInt8) : Nat :=
  ((hexValue h1 * 16 + hexValue h2) * 16 + hexValue h3) * 16 + hexValue h4

/-- `utf8.EncodeRune` of a rune that is no surrogate and at most `0x10FFFF`. -/
def encodeRune (r : Nat) : List UInt8 :=
  if r < 0x80 then [UInt8.ofNat r]
  else if r < 0x800 then [UInt8.ofNat (0xC0 + r / 0x40), UInt8.ofNat (0x80 + r % 0x40)]
  else if r < 0x10000 then
    [UInt8.ofNat (0xE0 + r / 0x1000), UInt8.ofNat (0x80 + r / 0x40 % 0x40), UInt8.ofNat (0x80 + r % 0x40)]
  else
    [UInt8.ofNat (0xF0 + r / 0x40000), UInt8.ofNat (0x80 + r / 0x1000 % 0x40), UInt8.ofNat (0x80 + r / 0x40 % 0x40),
      UInt8.ofNat (0x80 + r % 0x40)]

/-- `utf8.RuneError`, U+FFFD, as UTF-8. -/
def runeError : List UInt8 := encodeRune 0xFFFD

def inRange (lo hi : Nat) (c : UInt8) : Bool :=
  lo ≤ c.toNat && c.toNat ≤ hi

/-- The length of the valid multi-byte UTF-8 sequence `utf8.DecodeRune` reads at the front of
    the bytes, or 0 when it returns `RuneError` of width 1. -/
def runeLength : List UInt8 → Nat
  | b0 :: b1 :: rest =>
    let cont := inRange 0x80 0xBF
    if inRange 0xC2 0xDF b0 then if cont b1 then 2 else 0
    else
      match rest with
      | b2 :: rest' =>
        let three (lo hi : Nat) := inRange lo hi b1 && cont b2
        if b0.toNat = 0xE0 then if three 0xA0 0xBF then 3 else 0
        else if inRange 0xE1 0xEC b0 || inRange 0xEE 0xEF b0 then if three 0x80 0xBF then 3 else 0
        else if b0.toNat = 0xED then if three 0x80 0x9F then 3 else 0
        else
          match rest' with
          | b3 :: _ =>
            let four (lo hi : Nat) := inRange lo hi b1 && cont b2 && cont b3
            if b0.toNat = 0xF0 then if four 0x90 0xBF then 4 else 0
            else if inRange 0xF1 0xF3 b0 then if four 0x80 0xBF then 4 else 0
            else if b0.toNat = 0xF4 then if four 0x80 0x8F then 4 else 0
            else 0
          | [] => 0
      | [] => 0
  | _ => 0

/-- The byte a one-letter escape stands for. -/
def escapeByte (e : UInt8) : UInt8 :=
  if e.toNat = 0x62 then 0x08 else if e.toNat = 0x66 then 0x0C else if e.toNat = 0x6E then 0x0A
  else if e.toNat = 0x72 then 0x0D else if e.toNat = 0x74 then 0x09 else e

/-- What `unquote` reads at each step of its loop: a byte (as it stands, or from a one-letter
    escape), the value of a `\u` escape, a valid multi-byte UTF-8 sequence, or a byte that starts
    none. -/
inductive QuotedUnit where
  | byte (b : UInt8)
  | escapeU (rr : Nat)
  | sequence (bytes : List UInt8)
  | invalid
  deriving DecidableEq, Repr

def quotedUnits : List UInt8 → List QuotedUnit
  | [] => []
  | c :: rest =>
    if c.toNat = 0x5C then
      match rest with
      | e :: rest' =>
        if e.toNat = 0x75 then
          match rest' with
          | h1 :: h2 :: h3 :: h4 :: rest'' => .escapeU (hex4 h1 h2 h3 h4) :: quotedUnits rest''
          | _ => []
        else .byte (escapeByte e) :: quotedUnits rest'
      | [] => []
    else if c.toNat < 0x80 then .byte c :: quotedUnits rest
    else if runeLength (c :: rest) = 0 then .invalid :: quotedUnits rest
    else
      match rest with
      | b1 :: rest1 =>
        if runeLength (c :: rest) = 2 then .sequence [c, b1] :: quotedUnits rest1
        else
          match rest1 with
          | b2 :: rest2 =>
            if runeLength (c :: rest) = 3 then .sequence [c, b1, b2] :: quotedUnits rest2
            else
              match rest2 with
              | b3 :: rest3 => .sequence [c, b1, b2, b3] :: quotedUnits rest3
              | [] => []
          | [] => []
      | [] => []

/-- A surrogate `\u` escape still waiting for its pair is written as U+FFFD. -/
def flushHigh (high : Option Nat) : List UInt8 :=
  if high.isSome then runeError else []

/-- The bytes of a unit other than a `\u` escape. -/
def QuotedUnit.bytes : QuotedUnit → List UInt8
  | .byte b => [b]
  | .escapeU rr => encodeRune rr
  | .sequence bytes => bytes
  | .invalid => runeError

/-- Writes the units out. `high` holds a surrogate just read from a `\u` escape: a `\u` low
    surrogate right after it makes one rune with it (`utf16.DecodeRune`), anything else leaves
    it as U+FFFD and is read as it stands. -/
def writeUnits : Option Nat → List QuotedUnit → List UInt8
  | high, [] => flushHigh high
  | high, .escapeU rr :: rest =>
    if (high.any fun hi => decide (hi < 0xDC00)) ∧ 0xDC00 ≤ rr ∧ rr < 0xE000 then
      encodeRune ((high.getD 0 - 0xD800) * 0x400 + (rr - 0xDC00) + 0x10000) ++ writeUnits none rest
    else flushHigh high ++ if 0xD800 ≤ rr ∧ rr < 0xE000 then writeUnits (some rr) rest
      else encodeRune rr ++ writeUnits none rest
  | high, unit :: rest => flushHigh high ++ unit.bytes ++ writeUnits none rest

/-- `unquote` of a scanned string's bytes: escapes decoded and written as UTF-8, a `\u` surrogate
    pair joined into one rune, and a lone surrogate, like every byte that starts no valid UTF-8
    sequence, replaced by U+FFFD. -/
def unquote (raw : List UInt8) : List UInt8 :=
  writeUnits none (quotedUnits raw)

/-- A value `json.Unmarshal` stores in an `interface{}`: numbers are `float64`, an object is a
    `map[string]interface{}`, kept here as its members in the order of the text. -/
inductive GoValue where
  | null
  | bool (b : Bool)
  | float (f : Float64)
  | string (s : List UInt8)
  | array (elements : List GoValue)
  | object (members : List (List UInt8 × GoValue))
  deriving Repr

/-- The errors `json.Unmarshal` returns into a map: a `SyntaxError` (its text is not modelled),
    and an `UnmarshalTypeError` with its `Value` and `Type`. -/
inductive UnmarshalError where
  | syntaxError
  | unmarshalType (value : String) (goType : String)
  deriving DecidableEq, Repr

/-- `UnmarshalTypeError.Error()` for a value that is no struct field. -/
def UnmarshalError.message : UnmarshalError → Option String
  | .syntaxError => none
  | .unmarshalType value goType => some ("json: cannot unmarshal " ++ value ++ " into Go value of type " ++ goType)

/-- The bytes of a Go string literal: its UTF-8 encoding. -/
def goBytes (s : String) : List UInt8 :=
  s.toList.flatMap String.utf8EncodeChar

/-- A text of ASCII bytes as a string. -/
def asciiString (bytes : List UInt8) : String :=
  ⟨bytes.map fun b => Char.ofNat b.toNat⟩

mutual

/-- `valueInterface`: a number whose `float64` is out of range is the error `convertNumber`
    saves; decoding goes on, and the first such error in the text is the one returned. -/
def decodeValue : Json → Except UnmarshalError GoValue
  | .null => .ok .null
  | .bool b => .ok (.bool b)
  | .number text =>
    (parseFloat text).elim (.error (.unmarshalType ("number " ++ asciiString text) "float64")) fun f => .ok (.float f)
  | .string raw => .ok (.string (unquote raw))
  | .array elements => .array <$> decodeElements elements
  | .object members => .object <$> decodeMembers members

def decodeElements : List Json → Except UnmarshalError (List GoValue)
  | [] => .ok []
  | v :: rest => do
    let v' ← decodeValue v
    let rest' ← decodeElements rest
    pure (v' :: rest')

def decodeMembers : List (List UInt8 × Json) → Except UnmarshalError (List (List UInt8 × GoValue))
  | [] => .ok []
  | (key, v) :: rest => do
    let v' ← decodeValue v
    let rest' ← decodeMembers rest
    pure ((unquote key, v') :: rest')

end

/-- The type `reflect` prints for the destination. -/
def mapType : String := "map[string]interface \x7b\x7d"

/-- `json.Unmarshal(data, &m)` with `m` a nil `map[string]interface{}`: `null` leaves the map nil,
    an object fills it, any other value is an `UnmarshalTypeError`. -/
def unmarshalMap (data : List UInt8) : Except UnmarshalError (Option (List (List UInt8 × GoValue))) :=
  match parseJson data with
  | none => .error .syntaxError
  | some .null => .ok none
  | some (.object members) => some <$> decodeMembers members
  | some (.array _) => .error (.unmarshalType "array" mapType)
  | some (.string _) => .error (.unmarshalType "string" mapType)
  | some (.number _) => .error (.unmarshalType "number" mapType)
  | some (.bool _) => .error (.unmarshalType "bool" mapType)

mutual

/-- The texts of the numbers in a value, in the order of the text. -/
def Json.numbers : Json → List (List UInt8)
  | .number text => [text]
  | .array elements => Json.elementNumbers elements
  | .object members => Json.memberNumbers members
  | .null | .bool _ | .string _ => []

def Json.elementNumbers : List Json → List (List UInt8)
  | [] => []
  | v :: rest => v.numbers ++ Json.elementNumbers rest

def Json.memberNumbers : List (List UInt8 × Json) → List (List UInt8)
  | [] => []
  | (_, v) :: rest => v.numbers ++ Json.memberNumbers rest

end

theorem exists_bind_ok {ε α β : Type} {x : Except ε α} {f : α → Except ε β} :
    (∃ b, (x >>= f) = .ok b) ↔ ∃ a, x = .ok a ∧ ∃ b, f a = .ok b := by
  cases x <;> simp [bind, Except.bind]

mutual

theorem decodeValue_ok_iff : ∀ v : Json, (∃ g, decodeValue v = .ok g) ↔ ∀ text ∈ v.numbers, (parseFloat text).isSome
  | .null => by simp [decodeValue, Json.numbers]
  | .bool _ => by simp [decodeValue, Json.numbers]
  | .string _ => by simp [decodeValue, Json.numbers]
  | .number text => by
    rw [decodeValue, Json.numbers]
    cases found : parseFloat text <;> simp [found]
  | .array elements => by
    rw [decodeValue, exists_map_ok, Json.numbers]
    exact decodeElements_ok_iff elements
  | .object members => by
    rw [decodeValue, exists_map_ok, Json.numbers]
    exact decodeMembers_ok_iff members

theorem decodeElements_ok_iff :
    ∀ elements : List Json, (∃ g, decodeElements elements = .ok g) ↔
      ∀ text ∈ Json.elementNumbers elements, (parseFloat text).isSome
  | [] => by simp [decodeElements, Json.elementNumbers]
  | v :: rest => by
    simp only [decodeElements, exists_bind_ok, Json.elementNumbers, List.mem_append, or_imp, forall_and,
      ← decodeValue_ok_iff v, ← decodeElements_ok_iff rest]
    constructor
    · rintro ⟨g, first, gs, rest', -⟩
      exact ⟨⟨g, first⟩, gs, rest'⟩
    · rintro ⟨⟨g, first⟩, gs, rest'⟩
      exact ⟨g, first, gs, rest', _, rfl⟩

theorem decodeMembers_ok_iff :
    ∀ members : List (List UInt8 × Json), (∃ g, decodeMembers members = .ok g) ↔
      ∀ text ∈ Json.memberNumbers members, (parseFloat text).isSome
  | [] => by simp [decodeMembers, Json.memberNumbers]
  | (key, v) :: rest => by
    simp only [decodeMembers, exists_bind_ok, Json.memberNumbers, List.mem_append, or_imp, forall_and,
      ← decodeValue_ok_iff v, ← decodeMembers_ok_iff rest]
    constructor
    · rintro ⟨g, first, gs, rest', -⟩
      exact ⟨⟨g, first⟩, gs, rest'⟩
    · rintro ⟨⟨g, first⟩, gs, rest'⟩
      exact ⟨g, first, gs, rest', _, rfl⟩

end

theorem unmarshalMap_ok_iff (data : List UInt8) :
    (∃ claims, unmarshalMap data = .ok claims) ↔
      parseJson data = some .null ∨
        ∃ members, parseJson data = some (.object members) ∧
          ∀ text ∈ Json.memberNumbers members, (parseFloat text).isSome := by
  unfold unmarshalMap
  cases parseJson data with
  | none => simp
  | some v =>
    cases v with
    | object members => simpa [exists_map_ok] using decodeMembers_ok_iff members
    | _ => simp

/-- `m[key]` on a decoded map: each member is stored in turn, so the last one of a key is read. -/
def lookupMember (members : List (List UInt8 × GoValue)) (key : List UInt8) : Option GoValue :=
  members.reverse.lookup key

end SessionEngine.Encoding
