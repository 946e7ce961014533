import SessionEngine.Encoding.Json

namespace SessionEngine.Encoding

/-- What `utf8.DecodeRuneInString` reads at the front of a string: a rune, or a byte that starts
    no valid sequence (`RuneError` of width 1). -/
inductive DecodedRune where
  | valid (r : Nat)
  | invalid (b : UInt8)
  deriving DecidableEq, Repr

/-- The rune a valid sequence of two, three or four bytes encodes. -/
def sequenceValue : List UInt8 → Nat
  | [b0, b1] => b0.toNat % 0x20 * 0x40 + b1.toNat % 0x40
  | [b0, b1, b2] => b0.toNat % 0x10 * 0x1000 + b1.toNat % 0x40 * 0x40 + b2.toNat % 0x40
  | [b0, b1, b2, b3] =>
    b0.toNat % 0x08 * 0x40000 + b1.toNat % 0x40 * 0x1000 + b2.toNat % 0x40 * 0x40 + b3.toNat % 0x40
  | _ => 0xFFFD

/-- The runes of a Go string as repeated `utf8.DecodeRuneInString` reads them: a byte below
    `RuneSelf` is a rune, a valid sequence of `runeLength` bytes is one, and any other byte is
    `RuneError` of width 1. -/
def decodeRunes : List UInt8 → List DecodedRune
  | [] => []
  | c :: rest =>
    if c.toNat < 0x80 then .valid c.toNat :: decodeRunes rest
    else
      match runeLength (c :: rest), rest with
      | 2, b1 :: rest1 => .valid (sequenceValue [c, b1]) :: decodeRunes rest1
      | 3, b1 :: b2 :: rest2 => .valid (sequenceValue [c, b1, b2]) :: decodeRunes rest2
      | 4, b1 :: b2 :: b3 :: rest3 => .valid (sequenceValue [c, b1, b2, b3]) :: decodeRunes rest3
      | _, tail => .invalid c :: decodeRunes tail

/-- `utf8.ValidString`. -/
def validString (s : List UInt8) : Bool :=
  (decodeRunes s).all fun | .valid _ => true | .invalid _ => false

/-- `utf8.ValidRune`: at most U+10FFFF and no surrogate. -/
def validRune (r : Nat) : Bool :=
  r < 0xD800 || (0xE000 ≤ r && r < 0x110000)

/-- `utf8.AppendRune`: a rune that is not valid is written as `RuneError`. -/
def appendRune (r : Nat) : List UInt8 :=
  encodeRune (if validRune r then r else 0xFFFD)

/-- The bytes a decoded rune was read from. -/
def DecodedRune.bytes : DecodedRune → List UInt8
  | .valid r => encodeRune r
  | .invalid b => [b]

section Utf8

@[simp] theorem toNat_ofNat_byte (n : Nat) : (UInt8.ofNat n).toNat = n % 256 := rfl

/-! The widths `runeLength` gives, read back as byte ranges and built from them. Each unfolds
    `runeLength` once and lets `ite_eq_iff` or the discharger follow its branches. -/

theorem runeLength_two {b0 b1 : UInt8} {rest : List UInt8} (width : runeLength (b0 :: b1 :: rest) = 2) :
    0xC2 ≤ b0.toNat ∧ b0.toNat ≤ 0xDF ∧ 0x80 ≤ b1.toNat ∧ b1.toNat ≤ 0xBF := by
  rcases rest with _ | ⟨b2, _ | ⟨b3, rest⟩⟩ <;>
    simp only [runeLength, ite_eq_iff, inRange, Bool.and_eq_true, Bool.or_eq_true, decide_eq_true_eq] at width <;> omega

theorem runeLength_three {b0 b1 b2 : UInt8} {rest : List UInt8} (width : runeLength (b0 :: b1 :: b2 :: rest) = 3) :
    0xE0 ≤ b0.toNat ∧ b0.toNat ≤ 0xEF ∧ (b0.toNat = 0xE0 → 0xA0 ≤ b1.toNat) ∧ (b0.toNat = 0xED → b1.toNat ≤ 0x9F) ∧
      0x80 ≤ b1.toNat ∧ b1.toNat ≤ 0xBF ∧ 0x80 ≤ b2.toNat ∧ b2.toNat ≤ 0xBF := by
  rcases rest with _ | ⟨b3, rest⟩ <;>
    simp only [runeLength, ite_eq_iff, inRange, Bool.and_eq_true, Bool.or_eq_true, decide_eq_true_eq] at width <;> omega

theorem runeLength_four {b0 b1 b2 b3 : UInt8} {rest : List UInt8}
    (width : runeLength (b0 :: b1 :: b2 :: b3 :: rest) = 4) :
    0xF0 ≤ b0.toNat ∧ b0.toNat ≤ 0xF4 ∧ (b0.toNat = 0xF0 → 0x90 ≤ b1.toNat) ∧ (b0.toNat = 0xF4 → b1.toNat ≤ 0x8F) ∧
      0x80 ≤ b1.toNat ∧ b1.toNat ≤ 0xBF ∧ 0x80 ≤ b2.toNat ∧ b2.toNat ≤ 0xBF ∧ 0x80 ≤ b3.toNat ∧ b3.toNat ≤ 0xBF := by
  simp only [runeLength, ite_eq_iff, inRange, Bool.and_eq_true, Bool.or_eq_true, decide_eq_true_eq] at width
  omega

theorem runeLength_of_two {b0 b1 : UInt8} {rest : List UInt8} (lead : 0xC2 ≤ b0.toNat ∧ b0.toNat ≤ 0xDF)
    (cont : 0x80 ≤ b1.toNat ∧ b1.toNat ≤ 0xBF) : runeLength (b0 :: b1 :: rest) = 2 := by
  simp only [runeLength, inRange, Bool.and_eq_true, decide_eq_true_eq, lead, cont, and_self, if_true]

theorem runeLength_of_three {b0 b1 b2 : UInt8} {rest : List UInt8} (lead : 0xE0 ≤ b0.toNat ∧ b0.toNat ≤ 0xEF)
    (second : (b0.toNat = 0xE0 → 0xA0 ≤ b1.toNat) ∧ (b0.toNat = 0xED → b1.toNat ≤ 0x9F))
    (cont : 0x80 ≤ b1.toNat ∧ b1.toNat ≤ 0xBF ∧ 0x80 ≤ b2.toNat ∧ b2.toNat ≤ 0xBF) :
    runeLength (b0 :: b1 :: b2 :: rest) = 3 := by
  simp (disch := omega) only [runeLength, inRange, Bool.and_eq_true, Bool.or_eq_true, decide_eq_true_eq, if_pos,
    if_neg, ite_self]

theorem runeLength_of_four {b0 b1 b2 b3 : UInt8} {rest : List UInt8} (lead : 0xF0 ≤ b0.toNat ∧ b0.toNat ≤ 0xF4)
    (second : (b0.toNat = 0xF0 → 0x90 ≤ b1.toNat) ∧ (b0.toNat = 0xF4 → b1.toNat ≤ 0x8F))
    (cont : 0x80 ≤ b1.toNat ∧ b1.toNat ≤ 0xBF ∧ 0x80 ≤ b2.toNat ∧ b2.toNat ≤ 0xBF ∧ 0x80 ≤ b3.toNat ∧ b3.toNat ≤ 0xBF) :
    runeLength (b0 :: b1 :: b2 :: b3 :: rest) = 4 := by
  simp (disch := omega) only [runeLength, inRange, Bool.and_eq_true, Bool.or_eq_true, decide_eq_true_eq, if_pos,
    if_neg, ite_self]

theorem encodeRune_one {r : Nat} (hi : r < 0x80) : encodeRune r = [UInt8.ofNat r] := by
  rw [encodeRune, if_pos hi]

theorem encodeRune_two {r : Nat} (lo : 0x80 ≤ r) (hi : r < 0x800) :
    encodeRune r = [UInt8.ofNat (0xC0 + r / 0x40), UInt8.ofNat (0x80 + r % 0x40)] := by
  rw [encodeRune, if_neg (by omega), if_pos hi]

theorem encodeRune_three {r : Nat} (lo : 0x800 ≤ r) (hi : r < 0x10000) :
    encodeRune r =
      [UInt8.ofNat (0xE0 + r / 0x1000), UInt8.ofNat (0x80 + r / 0x40 % 0x40), UInt8.ofNat (0x80 + r % 0x40)] := by
  rw [encodeRune, if_neg (by omega), if_neg (by omega), if_pos hi]

theorem encodeRune_four {r : Nat} (lo : 0x10000 ≤ r) :
    encodeRune r = [UInt8.ofNat (0xF0 + r / 0x40000), UInt8.ofNat (0x80 + r / 0x1000 % 0x40),
      UInt8.ofNat (0x80 + r / 0x40 % 0x40), UInt8.ofNat (0x80 + r % 0x40)] := by
  rw [encodeRune, if_neg (by omega), if_neg (by omega), if_neg (by omega)]

theorem validRune_iff (r : Nat) : validRune r = true ↔ r < 0xD800 ∨ 0xE000 ≤ r ∧ r < 0x110000 := by
  simp only [validRune, Bool.or_eq_true, Bool.and_eq_true, decide_eq_true_eq]

theorem sequence_two {b0 b1 : UInt8}
    (ranges : 0xC2 ≤ b0.toNat ∧ b0.toNat ≤ 0xDF ∧ 0x80 ≤ b1.toNat ∧ b1.toNat ≤ 0xBF) :
    validRune (sequenceValue [b0, b1]) = true ∧ encodeRune (sequenceValue [b0, b1]) = [b0, b1] := by
  simp only [sequenceValue, validRune_iff]
  refine ⟨by omega, ?_⟩
  rw [encodeRune_two (by omega) (by omega)]
  simp only [List.cons.injEq, and_true]
  exact ⟨ofNat_eq_of_toNat (by omega), ofNat_eq_of_toNat (by omega)⟩

theorem sequence_three {b0 b1 b2 : UInt8}
    (ranges : 0xE0 ≤ b0.toNat ∧ b0.toNat ≤ 0xEF ∧ (b0.toNat = 0xE0 → 0xA0 ≤ b1.toNat) ∧
      (b0.toNat = 0xED → b1.toNat ≤ 0x9F) ∧ 0x80 ≤ b1.toNat ∧ b1.toNat ≤ 0xBF ∧ 0x80 ≤ b2.toNat ∧ b2.toNat ≤ 0xBF) :
    validRune (sequenceValue [b0, b1, b2]) = true ∧ encodeRune (sequenceValue [b0, b1, b2]) = [b0, b1, b2] := by
  simp only [sequenceValue, validRune_iff]
  refine ⟨by omega, ?_⟩
  rw [encodeRune_three (by omega) (by omega)]
  simp only [List.cons.injEq, and_true]
  exact ⟨ofNat_eq_of_toNat (by omega), ofNat_eq_of_toNat (by omega), ofNat_eq_of_toNat (by omega)⟩

theorem sequence_four {b0 b1 b2 b3 : UInt8}
    (ranges : 0xF0 ≤ b0.toNat ∧ b0.toNat ≤ 0xF4 ∧ (b0.toNat = 0xF0 → 0x90 ≤ b1.toNat) ∧
      (b0.toNat = 0xF4 → b1.toNat ≤ 0x8F) ∧ 0x80 ≤ b1.toNat ∧ b1.toNat ≤ 0xBF ∧ 0x80 ≤ b2.toNat ∧ b2.toNat ≤ 0xBF ∧
      0x80 ≤ b3.toNat ∧ b3.toNat ≤ 0xBF) :
    validRune (sequenceValue [b0, b1, b2, b3]) = true ∧
      encodeRune (sequenceValue [b0, b1, b2, b3]) = [b0, b1, b2, b3] := by
  simp only [sequenceValue, validRune_iff]
  refine ⟨by omega, ?_⟩
  rw [encodeRune_four (by omega)]
  simp only [List.cons.injEq, and_true]
  exact ⟨ofNat_eq_of_toNat (by omega), ofNat_eq_of_toNat (by omega), ofNat_eq_of_toNat (by omega),
    ofNat_eq_of_toNat (by omega)⟩

theorem decodeRunes_ascii {c : UInt8} (ascii : c.toNat < 0x80) (rest : List UInt8) :
    decodeRunes (c :: rest) = .valid c.toNat :: decodeRunes rest := by
  refine (decodeRunes.eq_5 c rest ?_ ?_ ?_).trans (if_pos ascii)
  · rintro b1 rest1 width rfl
    have := runeLength_two width
    omega
  · rintro b1 b2 rest2 width rfl
    have := runeLength_three width
    omega
  · rintro b1 b2 b3 rest3 width rfl
    have := runeLength_four width
    omega

theorem decodeRunes_two {c b1 : UInt8} {rest : List UInt8} (width : runeLength (c :: b1 :: rest) = 2) :
    decodeRunes (c :: b1 :: rest) = .valid (sequenceValue [c, b1]) :: decodeRunes rest := by
  rw [decodeRunes.eq_2 _ _ _ width, if_neg (by have := runeLength_two width; omega)]

theorem decodeRunes_three {c b1 b2 : UInt8} {rest : List UInt8} (width : runeLength (c :: b1 :: b2 :: rest) = 3) :
    decodeRunes (c :: b1 :: b2 :: rest) = .valid (sequenceValue [c, b1, b2]) :: decodeRunes rest := by
  rw [decodeRunes.eq_3 _ _ _ _ width, if_neg (by have := runeLength_three width; omega)]

theorem decodeRunes_four {c b1 b2 b3 : UInt8} {rest : List UInt8}
    (width : runeLength (c :: b1 :: b2 :: b3 :: rest) = 4) :
    decodeRunes (c :: b1 :: b2 :: b3 :: rest) = .valid (sequenceValue [c, b1, b2, b3]) :: decodeRunes rest := by
  rw [decodeRunes.eq_4 _ _ _ _ _ width, if_neg (by have := runeLength_four width; omega)]

theorem decodeRunes_bytes (s : List UInt8) : (decodeRunes s).flatMap DecodedRune.bytes = s := by
  induction s using decodeRunes.induct with
  | case1 => rfl
  | case2 c rest ascii ih =>
    rw [decodeRunes_ascii ascii, List.flatMap_cons, ih, DecodedRune.bytes, encodeRune_one ascii,
      ofNat_eq_of_toNat (Nat.mod_eq_of_lt (toNat_lt_256 c))]
    rfl
  | case3 c _ b1 rest width ih =>
    rw [decodeRunes_two width, List.flatMap_cons, ih, DecodedRune.bytes, (sequence_two (runeLength_two width)).2]
    rfl
  | case4 c _ b1 b2 rest width ih =>
    rw [decodeRunes_three width, List.flatMap_cons, ih, DecodedRune.bytes, (sequence_three (runeLength_three width)).2]
    rfl
  | case5 c _ b1 b2 b3 rest width ih =>
    rw [decodeRunes_four width, List.flatMap_cons, ih, DecodedRune.bytes, (sequence_four (runeLength_four width)).2]
    rfl
  | case6 c notAscii tail not2 not3 not4 ih =>
    rw [decodeRunes.eq_5 _ _ not2 not3 not4, if_neg notAscii, List.flatMap_cons, ih]
    rfl

theorem decodeRunes_valid {r : Nat} (s : List UInt8) (member : DecodedRune.valid r ∈ decodeRunes s) :
    validRune r = true := by
  induction s using decodeRunes.induct with
  | case1 => cases member
  | case2 c rest ascii ih =>
    rw [decodeRunes_ascii ascii, List.mem_cons, DecodedRune.valid.injEq] at member
    rcases member with rfl | later
    · rw [validRune_iff]; omega
    · exact ih later
  | case3 c _ b1 rest width ih =>
    rw [decodeRunes_two width, List.mem_cons, DecodedRune.valid.injEq] at member
    rcases member with rfl | later
    · exact (sequence_two (runeLength_two width)).1
    · exact ih later
  | case4 c _ b1 b2 rest width ih =>
    rw [decodeRunes_three width, List.mem_cons, DecodedRune.valid.injEq] at member
    rcases member with rfl | later
    · exact (sequence_three (runeLength_three width)).1
    · exact ih later
  | case5 c _ b1 b2 b3 rest width ih =>
    rw [decodeRunes_four width, List.mem_cons, DecodedRune.valid.injEq] at member
    rcases member with rfl | later
    · exact (sequence_four (runeLength_four width)).1
    · exact ih later
  | case6 c notAscii tail not2 not3 not4 ih =>
    rw [decodeRunes.eq_5 _ _ not2 not3 not4, if_neg notAscii, List.mem_cons] at member
    rcases member with nope | later
    · cases nope
    · exact ih later

theorem decodeRunes_encodeRune {r : Nat} (valid : validRune r = true) (rest : List UInt8) :
    decodeRunes (encodeRune r ++ rest) = .valid r :: decodeRunes rest := by
  rw [validRune_iff] at valid
  have size : UInt8.size = 256 := rfl
  by_cases one : r < 0x80
  · rw [encodeRune_one one, List.singleton_append,
      decodeRunes_ascii (by rw [UInt8.toNat_ofNat_of_lt (by omega)]; omega), UInt8.toNat_ofNat_of_lt (by omega)]
  by_cases two : r < 0x800
  · rw [encodeRune_two (by omega) two, List.cons_append, List.singleton_append,
      decodeRunes_two (runeLength_of_two (by simp (disch := omega) only [UInt8.toNat_ofNat_of_lt]; omega)
        (by simp (disch := omega) only [UInt8.toNat_ofNat_of_lt]; omega))]
    simp (disch := omega) only [sequenceValue, UInt8.toNat_ofNat_of_lt, List.cons.injEq, DecodedRune.valid.injEq,
      and_true]
    omega
  by_cases three : r < 0x10000
  · rw [encodeRune_three (by omega) three, List.cons_append, List.cons_append, List.singleton_append,
      decodeRunes_three (runeLength_of_three (by simp (disch := omega) only [UInt8.toNat_ofNat_of_lt]; omega)
        (by simp (disch := omega) only [UInt8.toNat_ofNat_of_lt]; omega)
        (by simp (disch := omega) only [UInt8.toNat_ofNat_of_lt]; omega))]
    simp (disch := omega) only [sequenceValue, UInt8.toNat_ofNat_of_lt, List.cons.injEq, DecodedRune.valid.injEq,
      and_true]
    omega
  · rw [encodeRune_four (by omega), List.cons_append, List.cons_append, List.cons_append, List.singleton_append,
      decodeRunes_four (runeLength_of_four (by simp (disch := omega) only [UInt8.toNat_ofNat_of_lt]; omega)
        (by simp (disch := omega) only [UInt8.toNat_ofNat_of_lt]; omega)
        (by simp (disch := omega) only [UInt8.toNat_ofNat_of_lt]; omega))]
    simp (disch := omega) only [sequenceValue, UInt8.toNat_ofNat_of_lt, List.cons.injEq, DecodedRune.valid.injEq,
      and_true]
    omega

theorem decodeRunes_flatMap_encodeRune :
    ∀ rs : List Nat, (∀ r ∈ rs, validRune r = true) → decodeRunes (rs.flatMap encodeRune) = rs.map .valid
  | [], _ => rfl
  | r :: rs, valid => by
    rw [List.flatMap_cons, decodeRunes_encodeRune (valid r (List.mem_cons_self r rs)),
      decodeRunes_flatMap_encodeRune rs fun q member => valid q (List.mem_cons_of_mem r member), List.map_cons]

end Utf8

/-- The tables `strconv.IsPrint` searches above Latin-1 (`isPrint16`, `isNotPrint16`, `isPrint32`,
    `isNotPrint32`), with what quoting relies on: the line and paragraph separators, general
    categories Zl and Zp, are not printable. -/
structure PrintTable where
  isPrintAbove : Nat → Bool
  separators_not_printable : isPrintAbove 0x2028 = false ∧ isPrintAbove 0x2029 = false

/-- `strconv.IsPrint`: Latin-1 by its fast path, the rest by the tables. -/
def PrintTable.isPrint (t : PrintTable) (r : Nat) : Bool :=
  if r ≤ 0xFF then
    if 0x20 ≤ r ∧ r ≤ 0x7E then true
    else if 0xA1 ≤ r ∧ r ≤ 0xFF then r ≠ 0xAD
    else false
  else t.isPrintAbove r

/-- `lowerhex[n]`. -/
def lowerhex (n : Nat) : UInt8 :=
  if n < 10 then UInt8.ofNat (0x30 + n) else UInt8.ofNat (0x61 + n - 10)

/-- The last `count` hex digits of `r`, most significant first: the loop
    `for s := 4 * (count - 1); s >= 0; s -= 4 { lowerhex[r>>uint(s)&0xF] }`. -/
def hexDigits (r : Nat) : Nat → List UInt8
  | 0 => []
  | count + 1 => lowerhex (r / 16 ^ count % 16) :: hexDigits r count

/-- `appendEscapedRune` with `quote` `"` and neither `ASCIIonly` nor `graphicOnly`, as
    `strconv.Quote` calls it. -/
def appendEscapedRune (t : PrintTable) (r : Nat) : List UInt8 :=
  if r = 0x22 ∨ r = 0x5C then 0x5C :: appendRune r
  else if t.isPrint r then appendRune r
  else if r = 0x07 then [0x5C, 0x61]
  else if r = 0x08 then [0x5C, 0x62]
  else if r = 0x0C then [0x5C, 0x66]
  else if r = 0x0A then [0x5C, 0x6E]
  else if r = 0x0D then [0x5C, 0x72]
  else if r = 0x09 then [0x5C, 0x74]
  else if r = 0x0B then [0x5C, 0x76]
  else if r < 0x20 ∨ r = 0x7F then 0x5C :: 0x78 :: hexDigits (r % 0x100) 2
  else if validRune r = false then 0x5C :: 0x75 :: hexDigits 0xFFFD 4
  else if r < 0x10000 then 0x5C :: 0x75 :: hexDigits r 4
  else 0x5C :: 0x55 :: hexDigits r 8

/-- One step of the loop of `appendQuotedWith`: a byte that starts no valid sequence is written
    `\xHH`, a rune is escaped as `appendEscapedRune` does. -/
def quoteRune (t : PrintTable) : DecodedRune → List UInt8
  | .valid r => appendEscapedRune t r
  | .invalid b => 0x5C :: 0x78 :: hexDigits b.toNat 2

/-- `strconv.Quote`, which `fmt` prints for the `%q` verb and a string operand. -/
def quote (t : PrintTable) (s : List UInt8) : List UInt8 :=
  0x22 :: (decodeRunes s).flatMap (quoteRune t) ++ [0x22]

section Digits

theorem PrintTable.isPrint_bounds (t : PrintTable) {r : Nat} (printable : t.isPrint r = true) :
    0x20 ≤ r ∧ r ≠ 0x2028 ∧ r ≠ 0x2029 := by
  unfold PrintTable.isPrint at printable
  split_ifs at printable with latin
  · omega
  · omega
  · refine ⟨by omega, fun same => ?_, fun same => ?_⟩ <;> subst same
    · rw [t.separators_not_printable.1] at printable; cases printable
    · rw [t.separators_not_printable.2] at printable; cases printable

theorem appendRune_of_valid {r : Nat} (valid : validRune r = true) : appendRune r = encodeRune r := by
  rw [appendRune, if_pos valid]

theorem lowerhex_toNat {n : Nat} (digit : n < 16) : (lowerhex n).toNat = if n < 10 then 0x30 + n else 0x57 + n := by
  unfold lowerhex
  split <;> simp only [toNat_ofNat_byte] <;> omega

theorem hexDigits_lt {r count : Nat} : ∀ b ∈ hexDigits r count, b.toNat < 0x80 := by
  induction count with
  | zero => intro b member; cases member
  | succ count ih =>
    intro b member
    rcases List.mem_cons.mp member with rfl | later
    · rw [lowerhex_toNat (Nat.mod_lt _ (by decide))]
      split <;> omega
    · exact ih b later

end Digits


/-! `strconv.Quote` never writes a line break: `\n` and every other control character leave as an
    escape, and the encoding of any other rune holds no `0x0A` byte. -/

section Lines

theorem ofNat_ne_newline {n : Nat} (lo : 0x80 ≤ n) (hi : n < 0x100) : UInt8.ofNat n ≠ 0x0A := fun same => by
  have byte := congrArg UInt8.toNat same
  rw [toNat_ofNat_byte] at byte
  change n % 256 = 10 at byte
  omega

theorem newline_not_mem_encodeRune {r : Nat} (valid : r < 0x110000) (other : r ≠ 0x0A) :
    (0x0A : UInt8) ∉ encodeRune r := by
  intro member
  by_cases one : r < 0x80
  · rw [encodeRune_one one, List.mem_singleton] at member
    have byte := congrArg UInt8.toNat member
    change 10 = r % 256 at byte
    omega
  by_cases two : r < 0x800
  · rw [encodeRune_two (by omega) two] at member
    simp only [List.mem_cons, List.not_mem_nil, or_false] at member
    rcases member with byte | byte <;> exact ofNat_ne_newline (by omega) (by omega) byte.symm
  by_cases three : r < 0x10000
  · rw [encodeRune_three (by omega) three] at member
    simp only [List.mem_cons, List.not_mem_nil, or_false] at member
    rcases member with byte | byte | byte <;> exact ofNat_ne_newline (by omega) (by omega) byte.symm
  · rw [encodeRune_four (by omega)] at member
    simp only [List.mem_cons, List.not_mem_nil, or_false] at member
    rcases member with byte | byte | byte | byte <;> exact ofNat_ne_newline (by omega) (by omega) byte.symm

theorem newline_not_mem_appendRune {r : Nat} (other : r ≠ 0x0A) : (0x0A : UInt8) ∉ appendRune r := by
  unfold appendRune
  split_ifs with valid
  · exact newline_not_mem_encodeRune (by have := (validRune_iff r).mp valid; omega) other
  · exact newline_not_mem_encodeRune (by decide) (by decide)

theorem newline_not_mem_hexDigits (r : Nat) : ∀ count, (0x0A : UInt8) ∉ hexDigits r count
  | 0 => List.not_mem_nil _
  | count + 1 => by
    have digit : ∀ n < 16, lowerhex n ≠ 0x0A := by decide
    exact List.not_mem_cons_of_ne_of_not_mem (digit _ (Nat.mod_lt _ (by decide))).symm (newline_not_mem_hexDigits r count)

theorem not_mem_ite_of {c : Prop} [Decidable c] {a b : List UInt8} {x : UInt8} (left : c → x ∉ a)
    (right : ¬c → x ∉ b) : x ∉ if c then a else b := by
  split
  · exact left ‹_›
  · exact right ‹_›

theorem newline_not_mem_appendEscapedRune (t : PrintTable) (r : Nat) : (0x0A : UInt8) ∉ appendEscapedRune t r := by
  unfold appendEscapedRune
  refine not_mem_ite_of (fun _ => List.not_mem_cons_of_ne_of_not_mem (by decide) (newline_not_mem_appendRune (by omega)))
    fun _ => not_mem_ite_of (fun printable => newline_not_mem_appendRune ?_) fun _ => ?_
  · have := (t.isPrint_bounds printable).1
    omega
  repeat' refine not_mem_ite_of (fun _ => ?_) fun _ => ?_
  all_goals first
    | decide
    | exact List.not_mem_cons_of_ne_of_not_mem (by decide)
        (List.not_mem_cons_of_ne_of_not_mem (by decide) (newline_not_mem_hexDigits _ _))

theorem newline_not_mem_quote (t : PrintTable) (s : List UInt8) : (0x0A : UInt8) ∉ quote t s := by
  have rune : ∀ d, (0x0A : UInt8) ∉ quoteRune t d
    | .valid r => newline_not_mem_appendEscapedRune t r
    | .invalid b => List.not_mem_cons_of_ne_of_not_mem (by decide)
        (List.not_mem_cons_of_ne_of_not_mem (by decide) (newline_not_mem_hexDigits _ _))
  intro member
  rcases List.mem_cons.mp member with quoted | member
  · exact absurd quoted (by decide)
  rcases List.mem_append.mp member with member | quoted
  · obtain ⟨d, -, inRune⟩ := List.mem_flatMap.mp member
    exact rune d inRune
  · exact absurd (List.mem_singleton.mp quoted) (by decide)

end Lines

end SessionEngine.Encoding
