/- Unit: PscDigpid/Num/Single
   layer: library
   source: none(general)
   digest: Single-precision numbers read exactly, and conversions to 32-bit integers. -/

import Mathlib.Data.Rat.Defs
import Mathlib.Algebra.Order.Ring.Rat
import Mathlib.Algebra.Field.Rat
import Mathlib.Data.Int.Log
import Mathlib.Data.Rat.Floor
import Mathlib.Tactic.Linarith

set_option autoImplicit false
set_option relaxedAutoImplicit false

namespace PscDigpid.Num

/-- The exact value of a single-precision number. An infinity reads as the power of two
beyond all finite numbers; what is not a number reads as zero, to which it converts. -/
def single (bits : BitVec 32) : ℚ :=
  let fraction := (bits.extractLsb' 0 23).toNat
  let exponent := (bits.extractLsb' 23 8).toNat
  if exponent = 255 ∧ fraction ≠ 0 then 0
  else
    let significand := if exponent = 0 then fraction else 2 ^ 23 + fraction
    let magnitude : ℚ := ((significand * 2 ^ max exponent 1 : Nat) : ℚ) / 2 ^ 150
    if bits.msb then -magnitude else magnitude

/-- The quotient of two exact values; one by zero is beyond every integer range, but
for zero by zero, which is not a number. -/
def quotient (x y : ℚ) : ℚ :=
  if y = 0 then (if 0 < x then 2 ^ 1024 else if x < 0 then -2 ^ 1024 else 0) else x / y

/-- The nearest integer, the even one of two. -/
def nearestEven (x : ℚ) : Int :=
  if 2 * (x - ⌊x⌋) < 1 ∨ (2 * (x - ⌊x⌋) = 1 ∧ ⌊x⌋ % 2 = 0) then ⌊x⌋ else ⌊x⌋ + 1

/-- The nearest single-precision number, of two the one with the even significand. A value
beyond all of them goes to an infinity. -/
def nearestSingle (x : ℚ) : ℚ :=
  let unit : ℚ := 2 ^ max (Int.log 2 |x| - 23) (-149)
  let rounded := nearestEven (x / unit) * unit
  max (-2 ^ 128) (min (2 ^ 128) rounded)

/-- The integer part, toward zero. -/
def trunc (x : ℚ) : Int := Int.tdiv x.num x.den

/-- Conversion to a signed integer; what does not fit goes to the nearest bound, as the
processor's conversion does it. -/
def toS32 (x : ℚ) : BitVec 32 := BitVec.ofInt 32 (max (-2 ^ 31) (min (2 ^ 31 - 1) (trunc x)))

/-- Conversion to an unsigned integer, likewise. -/
def toU32 (x : ℚ) : BitVec 32 := BitVec.ofInt 32 (max 0 (min (2 ^ 32 - 1) (trunc x)))

theorem single_one : single 0x3F800000 = 1 := by
  decide +kernel

theorem toNat_toS32 {x : ℚ} {n : Nat} (value : trunc x = n) (fits : n < 2 ^ 31) :
    (toS32 x).toNat = n := by
  have inside : max (-2 ^ 31) (min (2 ^ 31 - 1) (n : Int)) = n := by omega
  rw [toS32, value, inside, BitVec.ofInt_natCast, BitVec.toNat_ofNat]
  exact Nat.mod_eq_of_lt (by omega)

/-- From zero up the integer part is the floor. -/
theorem trunc_of_nonneg {x : ℚ} (nonneg : 0 ≤ x) : trunc x = ⌊x⌋ := by
  rw [trunc, Rat.floor_def', Int.tdiv_eq_ediv_of_nonneg (Rat.num_nonneg.2 nonneg)]

theorem trunc_neg (x : ℚ) : trunc (-x) = -trunc x := by
  rw [trunc, Rat.num_neg_eq_neg_num, Rat.den_neg_eq_den, Int.neg_tdiv]
  rfl

theorem trunc_nonneg {x : ℚ} (nonneg : 0 ≤ x) : 0 ≤ trunc x := by
  rw [trunc_of_nonneg nonneg]
  exact Int.floor_nonneg.2 nonneg

/-- From one up only what is at least an integer has it in its integer part. -/
theorem le_trunc_iff {n : Int} {x : ℚ} (pos : 0 < n) : n ≤ trunc x ↔ (n : ℚ) ≤ x := by
  constructor
  · intro le
    obtain nonneg | neg := le_total 0 x
    · rw [trunc_of_nonneg nonneg] at le
      exact Int.le_floor.1 le
    · have opposite := trunc_nonneg (neg_nonneg.2 neg)
      rw [trunc_neg] at opposite
      omega
  · intro le
    have nonneg : 0 ≤ x := (Int.cast_nonneg pos.le).trans le
    rw [trunc_of_nonneg nonneg]
    exact Int.le_floor.2 le

theorem trunc_mono {x y : ℚ} (le : x ≤ y) : trunc x ≤ trunc y := by
  have upper {x y : ℚ} (nonneg : 0 ≤ x) (le : x ≤ y) : trunc x ≤ trunc y := by
    rw [trunc_of_nonneg nonneg, trunc_of_nonneg (nonneg.trans le)]
    exact Int.floor_le_floor le
  obtain nonneg | neg := le_total 0 x
  · exact upper nonneg le
  · obtain above | below := le_total 0 y
    · have low := trunc_nonneg (neg_nonneg.2 neg)
      have high := trunc_nonneg above
      rw [trunc_neg] at low
      omega
    · have mirrored := upper (neg_nonneg.2 below) (neg_le_neg le)
      rw [trunc_neg, trunc_neg] at mirrored
      omega

/-- The integer part is less than one away. -/
theorem trunc_near (x : ℚ) : |(trunc x : ℚ) - x| < 1 := by
  have positive : ∀ y : ℚ, 0 ≤ y → |(trunc y : ℚ) - y| < 1 := by
    intro y nonneg
    rw [trunc_of_nonneg nonneg, abs_lt]
    have below := Int.floor_le y
    have above := Int.lt_floor_add_one y
    constructor
    · linarith
    · linarith
  obtain nonneg | neg := le_total 0 x
  · exact positive x nonneg
  · have mirrored := positive (-x) (neg_nonneg.2 neg)
    have negated : (trunc (-x) : ℚ) - -x = -((trunc x : ℚ) - x) := by
      rw [trunc_neg, Int.cast_neg]
      ring
    rwa [negated, abs_neg] at mirrored

/-- Only what is at most minus one has a negative integer part. -/
theorem le_of_trunc_neg {x : ℚ} (neg : trunc x < 0) : x ≤ -1 := by
  have one : ((1 : Int) : ℚ) ≤ -x := by
    rw [← le_trunc_iff one_pos, trunc_neg]
    omega
  rw [Int.cast_one] at one
  linarith

theorem trunc_intCast (n : Int) : trunc (n : ℚ) = n := by
  rw [trunc, Rat.num_intCast, Rat.den_intCast, Nat.cast_one, Int.tdiv_one]

theorem trunc_natCast (n : Nat) : trunc (n : ℚ) = n := by
  rw [← Int.cast_natCast, trunc_intCast]

/-- What fits is converted to its integer part. -/
theorem toInt_toS32 {x : ℚ} (low : -2147483648 ≤ trunc x) (high : trunc x < 2147483648) :
    (toS32 x).toInt = trunc x := by
  have inside : max (-2 ^ 31) (min (2 ^ 31 - 1) (trunc x)) = trunc x := by omega
  rw [toS32, inside, BitVec.toInt_ofInt, Int.bmod_eq_of_le (by omega) (by omega)]

/-- What does not fit goes to the nearest bound. -/
theorem toInt_toS32_bound (x : ℚ) :
    (toS32 x).toInt = max (-2147483648) (min (trunc x) 2147483647) := by
  have same : max (-2 ^ 31) (min (2 ^ 31 - 1) (trunc x)) =
      max (-2147483648) (min (trunc x) 2147483647) := by omega
  rw [toS32, same, BitVec.toInt_ofInt, Int.bmod_eq_of_le (by omega) (by omega)]

theorem toNat_toU32 (x : ℚ) : ((toU32 x).toNat : Int) = max 0 (min (trunc x) 4294967295) := by
  have same : max 0 (min (2 ^ 32 - 1) (trunc x)) = max 0 (min (trunc x) 4294967295) := by omega
  obtain ⟨n, value⟩ := Int.eq_ofNat_of_zero_le (show 0 ≤ max 0 (min (trunc x) 4294967295) by omega)
  rw [toU32, same, value, BitVec.ofInt_natCast, BitVec.toNat_ofNat, Nat.mod_eq_of_lt (by omega)]

/-- Below the sign bit, what is negative goes to zero. -/
theorem toInt_toU32 {x : ℚ} (high : trunc x < 2147483648) :
    (toU32 x).toInt = max 0 (trunc x) := by
  have inside : min (2 ^ 32 - 1) (trunc x) = trunc x := by omega
  rw [toU32, inside, BitVec.toInt_ofInt, Int.bmod_eq_of_le (by omega) (by omega)]

end PscDigpid.Num
