import Mathlib.Data.List.Basic
import Mathlib.Algebra.Group.Nat.Basic
import Mathlib.Algebra.Group.Int

namespace SessionEngine.Encoding

/-! `base64.RawURLEncoding`: the URL alphabet, no padding, not strict. Bytes are `UInt8`, as Go's
    `byte`; their arithmetic is done on `toNat`. -/

/-- The URL alphabet `A–Z a–z 0–9 - _` at index `v < 64`. -/
def encodeURL (v : Nat) : UInt8 :=
  UInt8.ofNat (if v < 26 then v + 0x41 else if v < 52 then v - 26 + 0x61 else if v < 62 then v - 52 + 0x30
    else if v = 62 then 0x2D else 0x5F)

/-- `decodeMap`: the index of `c` in the alphabet, none where Go stores `0xFF`. -/
def decodeMap (c : UInt8) : Option Nat :=
  if 0x41 ≤ c.toNat ∧ c.toNat ≤ 0x5A then some (c.toNat - 0x41)
  else if 0x61 ≤ c.toNat ∧ c.toNat ≤ 0x7A then some (c.toNat - 0x61 + 26)
  else if 0x30 ≤ c.toNat ∧ c.toNat ≤ 0x39 then some (c.toNat - 0x30 + 52)
  else if c.toNat = 0x2D then some 62
  else if c.toNat = 0x5F then some 63
  else none

/-- The end of `decodeQuantum`: the 6-bit values read are put in `val` from the top, and the
    first `dlen - 1` of its three bytes are written. -/
def quantumBytes (dbuf : List Nat) : List UInt8 :=
  let val := (dbuf.getD 0 0) * 2 ^ 18 + (dbuf.getD 1 0) * 2 ^ 12 + (dbuf.getD 2 0) * 2 ^ 6 + dbuf.getD 3 0
  ([UInt8.ofNat (val / 2 ^ 16), UInt8.ofNat (val / 2 ^ 8), UInt8.ofNat val]).take (dbuf.length - 1)

/-- `RawURLEncoding.DecodeString` from offset `si`, with `dbuf` the values of the quantum read so
    far: a newline or carriage return is skipped, any other byte outside the alphabet is a
    `CorruptInputError` at its offset, and input ending one value into a quantum is one at the
    last offset. -/
def decodeFrom (si : Nat) (dbuf : List Nat) : List UInt8 → Except Nat (List UInt8)
  | [] => if dbuf.length = 1 then .error (si - 1) else .ok (quantumBytes dbuf)
  | c :: rest =>
    match decodeMap c with
    | some v =>
      if dbuf.length = 3 then (quantumBytes (dbuf ++ [v]) ++ ·) <$> decodeFrom (si + 1) [] rest
      else decodeFrom (si + 1) (dbuf ++ [v]) rest
    | none => if c.toNat = 0x0A ∨ c.toNat = 0x0D then decodeFrom (si + 1) dbuf rest else .error si

/-- `base64.RawURLEncoding.DecodeString(s)`; the error is `CorruptInputError`'s offset. -/
def rawURLDecode (s : List UInt8) : Except Nat (List UInt8) :=
  decodeFrom 0 [] s

/-- `RawURLEncoding.EncodeToString`: three bytes to four characters, and a last one or two bytes
    to two or three, without padding. -/
def rawURLEncode : List UInt8 → List UInt8
  | [] => []
  | [x] => [encodeURL (x.toNat / 4), encodeURL (x.toNat % 4 * 16)]
  | [x, y] => [encodeURL (x.toNat / 4), encodeURL (x.toNat % 4 * 16 + y.toNat / 16), encodeURL (y.toNat % 16 * 4)]
  | x :: y :: z :: rest =>
    [encodeURL (x.toNat / 4), encodeURL (x.toNat % 4 * 16 + y.toNat / 16),
      encodeURL (y.toNat % 16 * 4 + z.toNat / 64), encodeURL (z.toNat % 64)] ++ rawURLEncode rest

theorem decodeMap_encodeURL_all : ∀ v : Fin 64, decodeMap (encodeURL v) = some v := by
  decide

@[simp] theorem decodeMap_encodeURL {v : Nat} (small : v < 64) : decodeMap (encodeURL v) = some v :=
  decodeMap_encodeURL_all ⟨v, small⟩

theorem toNat_lt_256 (x : UInt8) : x.toNat < 256 :=
  x.toNat_lt_size

theorem ofNat_eq_of_toNat {x : UInt8} {n : Nat} (same : n % 256 = x.toNat) : UInt8.ofNat n = x :=
  UInt8.toNat.inj same

theorem quantumBytes_three (x y z : UInt8) :
    quantumBytes [x.toNat / 4, x.toNat % 4 * 16 + y.toNat / 16, y.toNat % 16 * 4 + z.toNat / 64, z.toNat % 64] =
      [x, y, z] := by
  have := toNat_lt_256 x
  have := toNat_lt_256 y
  have := toNat_lt_256 z
  simp only [quantumBytes, List.getD_cons_zero, List.getD_cons_succ, List.length_cons, List.length_nil, List.take,
    List.cons.injEq, and_true]
  exact ⟨ofNat_eq_of_toNat (by omega), ofNat_eq_of_toNat (by omega), ofNat_eq_of_toNat (by omega)⟩

theorem quantumBytes_two (x y : UInt8) :
    quantumBytes [x.toNat / 4, x.toNat % 4 * 16 + y.toNat / 16, y.toNat % 16 * 4] = [x, y] := by
  have := toNat_lt_256 x
  have := toNat_lt_256 y
  simp only [quantumBytes, List.getD_cons_zero, List.getD_cons_succ, List.getD_nil, List.length_cons, List.length_nil,
    List.take, List.cons.injEq, and_true]
  exact ⟨ofNat_eq_of_toNat (by omega), ofNat_eq_of_toNat (by omega)⟩

theorem quantumBytes_one (x : UInt8) : quantumBytes [x.toNat / 4, x.toNat % 4 * 16] = [x] := by
  have := toNat_lt_256 x
  simp only [quantumBytes, List.getD_cons_zero, List.getD_cons_succ, List.getD_nil, List.length_cons, List.length_nil,
    List.take, List.cons.injEq, and_true]
  exact ofNat_eq_of_toNat (by omega)

theorem decodeFrom_alphabet {v : Nat} (small : v < 64) (si : Nat) (dbuf : List Nat) (rest : List UInt8) :
    decodeFrom si dbuf (encodeURL v :: rest) =
      if dbuf.length = 3 then (quantumBytes (dbuf ++ [v]) ++ ·) <$> decodeFrom (si + 1) [] rest
      else decodeFrom (si + 1) (dbuf ++ [v]) rest := by
  rw [decodeFrom, decodeMap_encodeURL small]

theorem decodeFrom_rawURLEncode (bytes : List UInt8) (si : Nat) : decodeFrom si [] (rawURLEncode bytes) = .ok bytes := by
  induction bytes using rawURLEncode.induct generalizing si with
  | case1 => rfl
  | case2 x =>
    have := toNat_lt_256 x
    simp only [rawURLEncode, decodeFrom_alphabet (show x.toNat / 4 < 64 by omega),
      decodeFrom_alphabet (show x.toNat % 4 * 16 < 64 by omega), List.nil_append, List.singleton_append,
      List.length_nil, List.length_singleton]
    simp [decodeFrom, quantumBytes_one]
  | case3 x y =>
    have := toNat_lt_256 x
    have := toNat_lt_256 y
    simp only [rawURLEncode, decodeFrom_alphabet (show x.toNat / 4 < 64 by omega),
      decodeFrom_alphabet (show x.toNat % 4 * 16 + y.toNat / 16 < 64 by omega),
      decodeFrom_alphabet (show y.toNat % 16 * 4 < 64 by omega), List.nil_append, List.singleton_append,
      List.length_nil, List.length_cons]
    simp [decodeFrom, quantumBytes_two]
  | case4 x y z rest ih =>
    have := toNat_lt_256 x
    have := toNat_lt_256 y
    have := toNat_lt_256 z
    simp only [rawURLEncode, List.cons_append, List.nil_append, decodeFrom_alphabet (show x.toNat / 4 < 64 by omega),
      decodeFrom_alphabet (show x.toNat % 4 * 16 + y.toNat / 16 < 64 by omega),
      decodeFrom_alphabet (show y.toNat % 16 * 4 + z.toNat / 64 < 64 by omega),
      decodeFrom_alphabet (show z.toNat % 64 < 64 by omega), List.singleton_append, List.length_nil,
      List.length_cons, ih, quantumBytes_three]
    rfl

theorem rawURLDecode_rawURLEncode (bytes : List UInt8) : rawURLDecode (rawURLEncode bytes) = .ok bytes :=
  decodeFrom_rawURLEncode bytes 0

/-- A byte the decoder lets through: one of the alphabet, or a newline or carriage return. -/
def decodable (c : UInt8) : Prop :=
  (decodeMap c).isSome ∨ c.toNat = 0x0A ∨ c.toNat = 0x0D

theorem exists_map_ok {ε α β : Type} {f : α → β} {x : Except ε α} : (∃ b, f <$> x = .ok b) ↔ ∃ a, x = .ok a := by
  cases x <;> simp [Functor.map, Except.map]

theorem decodeFrom_ok_iff (s : List UInt8) :
    ∀ (si : Nat) (dbuf : List Nat), dbuf.length < 4 →
      ((∃ bytes, decodeFrom si dbuf s = .ok bytes) ↔
        (∀ c ∈ s, decodable c) ∧ (dbuf.length + s.countP fun c => (decodeMap c).isSome) % 4 ≠ 1) := by
  induction s with
  | nil =>
    intro si dbuf short
    by_cases one : dbuf.length = 1
    · simp [decodeFrom, one]
    · simp [decodeFrom, one]
      omega
  | cons c rest ih =>
    intro si dbuf short
    simp only [List.forall_mem_cons, List.countP_cons]
    cases found : decodeMap c with
    | some v =>
      have valid : decodable c := .inl (by simp [found])
      simp only [decodeFrom, found, Option.isSome_some, if_true, valid, true_and]
      by_cases full : dbuf.length = 3
      · rw [if_pos full, exists_map_ok, ih (si + 1) [] (by simp), full, List.length_nil,
          show 3 + (rest.countP (fun c => (decodeMap c).isSome) + 1) = _ + 4 from Nat.add_comm _ _, Nat.add_mod_right,
          Nat.zero_add]
      · rw [if_neg full, ih (si + 1) (dbuf ++ [v]) (by simp; omega), List.length_append, List.length_singleton,
          Nat.add_assoc, Nat.add_comm 1]
    | none =>
      by_cases newline : c.toNat = 0x0A ∨ c.toNat = 0x0D
      · have valid : decodable c := .inr newline
        simp only [decodeFrom, found, newline, if_true, Option.isSome_none, Bool.false_eq_true, if_false,
          Nat.add_zero, ih (si + 1) dbuf short, valid, true_and]
      · have invalid : ¬decodable c := by simp [decodable, found, newline]
        simp [decodeFrom, found, newline, invalid]

theorem rawURLDecode_ok_iff (s : List UInt8) :
    (∃ bytes, rawURLDecode s = .ok bytes) ↔
      (∀ c ∈ s, decodable c) ∧ (s.countP fun c => (decodeMap c).isSome) % 4 ≠ 1 := by
  simpa using decodeFrom_ok_iff s 0 [] (by simp)

end SessionEngine.Encoding
