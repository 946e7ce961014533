import Mathlib.Data.List.Basic
import Mathlib.Algebra.Group.Nat.Basic
import Mathlib.Algebra.Group.Int

namespace SessionEngine.Encoding

/-- A finite `float64`, as the value `±mantissa · 2 ^ exponent`. -/
structure Float64 where
  negative : Bool
  mantissa : Nat
  exponent : Int
  deriving DecidableEq, Repr

/-- `Nat.log2`, halving at most `fuel` times so that it evaluates by `decide`. -/
def log2Fuel : Nat → Nat → Nat
  | 0, _ => 0
  | fuel + 1, n => if 2 ≤ n then log2Fuel fuel (n / 2) + 1 else 0

theorem log2Fuel_eq : ∀ {fuel n : Nat}, n ≤ fuel → log2Fuel fuel n = n.log2
  | 0, n, small => by rw [Nat.le_zero.mp small, Nat.log2_zero, log2Fuel]
  | fuel + 1, n, small => by
    rw [log2Fuel, Nat.log2]
    by_cases two : 2 ≤ n
    · rw [if_pos two, if_pos two, log2Fuel_eq (by omega)]
    · rw [if_neg two, if_neg two]

/-- `⌊log₂ (num / den)⌋` for positive `num` and `den`. -/
def binaryExponent (num den : Nat) : Int :=
  let k : Int := (log2Fuel num num : Int) - log2Fuel den den
  if den <<< k.toNat ≤ num <<< (-k).toNat then k else k - 1

/-- The `float64` nearest to `num / den`, ties to even, as `(m, q)` with value `m · 2 ^ q`: `q` is
    52 below the binary exponent and never below the subnormals' `-1074`. -/
def roundToFloat64 (num den : Nat) : Nat × Int :=
  let q := max (binaryExponent num den) (-1022) - 52
  let n := num <<< (-q).toNat
  let d := den <<< q.toNat
  (if 2 * (n % d) < d ∨ (2 * (n % d) = d ∧ n / d % 2 = 0) then n / d else n / d + 1, q)

/-- The value of a run of decimal digits. -/
def digitsValue (ds : List UInt8) : Nat :=
  ds.foldl (fun acc d => acc * 10 + (d.toNat - 0x30)) 0

/-- The decimal a JSON number's text denotes, read as `readFloat` reads it: the sign, every digit
    of the mantissa as one integer, and the power of ten, less one for each digit after the
    point. -/
def decimalOf (text : List UInt8) : Bool × Nat × Int :=
  let negative := text.head? = some 0x2D
  let body := if negative then text.tail else text
  let (mantissa, exponentPart) := body.span fun c => c.toNat ≠ 0x65 ∧ c.toNat ≠ 0x45
  let (intDigits, fracPart) := mantissa.span fun c => c.toNat ≠ 0x2E
  let fracDigits := fracPart.drop 1
  let exp : Int := match exponentPart.drop 1 with
    | s :: ds =>
      if s.toNat = 0x2D then -(digitsValue ds : Int)
      else if s.toNat = 0x2B then digitsValue ds else digitsValue (s :: ds)
    | [] => 0
  (negative, digitsValue (intDigits ++ fracDigits), exp - fracDigits.length)

/-- `strconv.ParseFloat(s, 64)` on the text of a JSON number: none where Go returns `ErrRange`,
    the nearest `float64` lying past the largest finite one. -/
def parseFloat (text : List UInt8) : Option Float64 :=
  let (negative, digits, exp10) := decimalOf text
  let (m, q) := roundToFloat64 (digits * 10 ^ exp10.toNat) (10 ^ (-exp10).toNat)
  if 1 <<< 1024 ≤ m <<< q.toNat then none else some ⟨negative, m, q⟩

/-- `int64(f)`: the value truncated toward zero. Go leaves a value outside the `int64` range to
    the implementation; the model takes amd64's `CVTTSD2SQ`, which gives `math.MinInt64`. -/
def Float64.toInt64 (f : Float64) : Int :=
  let magnitude : Int := (f.mantissa <<< f.exponent.toNat >>> (-f.exponent).toNat : Nat)
  let t := if f.negative then -magnitude else magnitude
  if -2 ^ 63 ≤ t ∧ t < 2 ^ 63 then t else -2 ^ 63

theorem Float64.toInt64_range (f : Float64) : -2 ^ 63 ≤ f.toInt64 ∧ f.toInt64 < 2 ^ 63 := by
  unfold Float64.toInt64
  dsimp only
  split_ifs <;> omega

theorem binaryExponent_int {n : Nat} (pos : 0 < n) : binaryExponent n 1 = n.log2 := by
  have below := Nat.log2_self_le (Nat.pos_iff_ne_zero.mp pos)
  have one : log2Fuel 1 1 = 0 := rfl
  rw [binaryExponent, log2Fuel_eq (Nat.le_refl n), one]
  simp [Nat.shiftLeft_eq, below]

theorem roundToFloat64_int {n : Nat} (small : n ≤ 2 ^ 53) :
    (roundToFloat64 n 1).1 <<< (roundToFloat64 n 1).2.toNat >>> (-(roundToFloat64 n 1).2).toNat = n ∧
      (roundToFloat64 n 1).1 <<< (roundToFloat64 n 1).2.toNat ≤ 2 ^ 53 := by
  rcases Nat.eq_zero_or_pos n with rfl | pos
  · simp [roundToFloat64, Nat.shiftLeft_eq, Nat.shiftRight_eq_div_pow, Nat.two_pow_pos]
  have nonzero := Nat.pos_iff_ne_zero.mp pos
  have top : n.log2 < 54 := (Nat.log2_lt nonzero).mpr (by omega)
  by_cases whole : n.log2 ≤ 52
  · have q : max (binaryExponent n 1) (-1022) - 52 = -((52 - n.log2 : Nat) : Int) := by
      rw [binaryExponent_int pos]
      omega
    have fits : n * 2 ^ (52 - n.log2) ≤ 2 ^ 53 := calc
      n * 2 ^ (52 - n.log2) ≤ 2 ^ (n.log2 + 1) * 2 ^ (52 - n.log2) :=
        Nat.mul_le_mul_right _ (Nat.le_of_lt Nat.lt_log2_self)
      _ = 2 ^ 53 := by rw [← Nat.pow_add]; congr 1; omega
    simp only [roundToFloat64, q, Int.neg_neg, Int.toNat_ofNat, Int.toNat_neg_nat, Nat.shiftLeft_eq,
      Nat.shiftRight_eq_div_pow, Nat.pow_zero, Nat.mul_one, Nat.mod_one, Nat.div_one, Nat.mul_zero, Nat.zero_lt_one,
      true_or, if_true]
    exact ⟨Nat.mul_div_cancel _ (Nat.two_pow_pos _), fits⟩
  · have exact : n = 2 ^ 53 :=
      Nat.le_antisymm small (show n.log2 = 53 by omega ▸ Nat.log2_self_le nonzero)
    subst exact
    have q : max (binaryExponent (2 ^ 53) 1) (-1022) - 52 = 1 := by
      rw [binaryExponent_int pos, Nat.log2_two_pow]
      decide
    simp only [roundToFloat64, q]
    decide

end SessionEngine.Encoding
