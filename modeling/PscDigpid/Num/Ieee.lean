/- Unit: PscDigpid/Num/Ieee
   layer: library
   source: none(general)
   digest: Binary floating-point numbers, their operations with roundings, and their order. -/

import Mathlib.Data.NNRat.Floor
import PscDigpid.Num.Single

set_option autoImplicit false
set_option relaxedAutoImplicit false

namespace PscDigpid.Num

/-- A floating-point number of any format; a finite one is a sign and a magnitude. -/
inductive Fp
  | nan
  | inf (negative : Bool)
  | fin (negative : Bool) (magnitude : ℚ≥0)
  deriving DecidableEq

/-- The bits of a significand, the exponent of the smallest number, and the one from which on all
is infinite. -/
structure Format where
  precision : Nat
  least : Int
  bound : Int
  precision_pos : 0 < precision

def binary32 : Format := ⟨24, -149, 128, by decide⟩

def binary64 : Format := ⟨53, -1074, 1024, by decide⟩

/-- The nearest integer, the even one of two. -/
def nearestNat (x : ℚ≥0) : Nat :=
  if 2 * x < 2 * ⌊x⌋₊ + 1 ∨ (2 * x = 2 * ⌊x⌋₊ + 1 ∧ ⌊x⌋₊ % 2 = 0) then ⌊x⌋₊ else ⌊x⌋₊ + 1

namespace Format

variable (f : Format)

/-- The exponent of the last bit of a significand. -/
def exponent (x : ℚ≥0) : Int := max (Int.log 2 x - (f.precision - 1)) f.least

/-- The nearest number of the format, were its exponents unbounded from above. -/
def nearest (x : ℚ≥0) : ℚ≥0 := nearestNat (x / 2 ^ f.exponent x) * 2 ^ f.exponent x

def round (negative : Bool) (x : ℚ≥0) : Fp :=
  if 2 ^ f.bound ≤ f.nearest x then .inf negative else .fin negative (f.nearest x)

end Format

namespace Fp

/-- The number that a word is in single precision. -/
def ofBits (bits : BitVec 32) : Fp :=
  let fraction := (bits.extractLsb' 0 23).toNat
  let exponent := (bits.extractLsb' 23 8).toNat
  if exponent = 255 then (if fraction = 0 then .inf bits.msb else .nan)
  else
    let significand := if exponent = 0 then fraction else 2 ^ 23 + fraction
    .fin bits.msb (((significand * 2 ^ max exponent 1 : Nat) : ℚ≥0) / 2 ^ 150)

/-- The number of a format nearest to an exact one. -/
def ofRat (f : Format) (x : ℚ) : Fp := f.round (decide (x < 0)) x.nnabs

def ofInt (f : Format) (n : Int) : Fp := f.round (decide (n < 0)) n.natAbs

def mul (f : Format) : Fp → Fp → Fp
  | .fin s x, .fin t y => f.round (s ^^ t) (x * y)
  | .fin s x, .inf t => if x = 0 then .nan else .inf (s ^^ t)
  | .inf s, .fin t y => if y = 0 then .nan else .inf (s ^^ t)
  | .inf s, .inf t => .inf (s ^^ t)
  | _, _ => .nan

def div (f : Format) : Fp → Fp → Fp
  | .fin s x, .fin t y =>
      if y = 0 then (if x = 0 then .nan else .inf (s ^^ t)) else f.round (s ^^ t) (x / y)
  | .fin s _, .inf t => .fin (s ^^ t) 0
  | .inf s, .fin t _ => .inf (s ^^ t)
  | _, _ => .nan

/-- Conversion to a format. -/
def convert (f : Format) : Fp → Fp
  | .fin s x => f.round s x
  | x => x

/-- A magnitude with its sign. -/
def signed (negative : Bool) (x : ℚ≥0) : ℚ := if negative then -x else x

/-- The order of the numbers; what is not one is not ordered. -/
def le : Fp → Fp → Bool
  | .fin s x, .fin t y => decide (signed s x ≤ signed t y)
  | .fin _ _, .inf t => !t
  | .inf s, .fin _ _ => s
  | .inf s, .inf t => s || !t
  | _, _ => false

instance : LE Fp := ⟨fun x y => x.le y = true⟩

instance : DecidableLE Fp := fun x y => inferInstanceAs (Decidable (x.le y = true))

instance : Zero Fp := ⟨.fin false 0⟩

/-- Finite and above zero. -/
def positive : Fp → Bool
  | .fin s x => !s && decide (x ≠ 0)
  | _ => false

/-- The sign of what is a number. -/
def sign : Fp → Option Bool
  | .nan => none
  | .inf s => some s
  | .fin s _ => some s

/-- Conversion to a signed integer; what does not fit goes to the nearest bound, and what is not a
number to zero. -/
def toS32 : Fp → BitVec 32
  | .nan => 0
  | .inf s => if s then BitVec.intMin 32 else BitVec.intMax 32
  | .fin s x => Num.toS32 (signed s x)

/-- Conversion to an unsigned integer, likewise. -/
def toU32 : Fp → BitVec 32
  | .nan => 0
  | .inf s => if s then 0 else BitVec.allOnes 32
  | .fin s x => Num.toU32 (signed s x)

end Fp

/-- The two formats of a program. -/
inductive Width
  | float
  | double
  deriving DecidableEq

def Width.format : Width → Format
  | .float => binary32
  | .double => binary64

/-- What a program's arithmetic does with its numbers. A constant is a double, which a float
variable narrows. -/
structure Arith (α : Type) where
  ofBits : BitVec 32 → α
  ofInt : Width → Int → α
  constant : Width → ℚ → α
  mul : Width → α → α → α
  div : Width → α → α → α
  narrow : α → α
  lt : α → α → Prop
  decLt : DecidableRel lt
  toS32 : α → BitVec 32
  toU32 : α → BitVec 32

instance {α : Type} (A : Arith α) : DecidableRel A.lt := A.decLt

/-- Without any rounding. -/
def exact : Arith ℚ where
  ofBits := single
  ofInt _ n := n
  constant _ x := x
  mul _ x y := x * y
  div _ := quotient
  narrow x := x
  lt x y := x < y
  decLt := inferInstance
  toS32 := toS32
  toU32 := toU32

/-- As the processor computes. -/
def ieee : Arith Fp where
  ofBits := Fp.ofBits
  ofInt w n := .ofInt w.format n
  constant
    | .float, x => (Fp.ofRat binary64 x).convert binary32
    | .double, x => .ofRat binary64 x
  mul w := .mul w.format
  div w := .div w.format
  narrow := .convert binary32
  lt x y := x ≤ y ∧ ¬ y ≤ x
  decLt _ _ := inferInstance
  toS32 := Fp.toS32
  toU32 := Fp.toU32

section Nearest

variable {x y : ℚ≥0}

theorem nearestNat_mono (le : x ≤ y) : nearestNat x ≤ nearestNat y := by
  have floors : ⌊x⌋₊ ≤ ⌊y⌋₊ := Nat.floor_mono le
  have doubled : 2 * x ≤ 2 * y := mul_le_mul_right le 2
  obtain less | same := floors.lt_or_eq
  · have upper : nearestNat x ≤ ⌊x⌋₊ + 1 := by
      rw [nearestNat]
      split <;> omega
    have lower : ⌊y⌋₊ ≤ nearestNat y := by
      rw [nearestNat]
      split <;> omega
    omega
  · rw [nearestNat, nearestNat, ← same]
    split
    · split <;> omega
    · rename_i above
      -- what is taken up to the next integer is no farther from it than what is larger
      rw [if_neg]
      rintro (below | ⟨half, even⟩)
      · exact above (.inl (doubled.trans_lt below))
      · obtain less | equal := (doubled.trans_eq half).lt_or_eq
        · exact above (.inl less)
        · exact above (.inr ⟨equal, even⟩)

theorem nearestNat_natCast (n : Nat) : nearestNat n = n := by
  rw [nearestNat, Nat.floor_natCast, if_pos (.inl (lt_add_one _))]

namespace Format

variable (f : Format)

theorem nearest_zero : f.nearest 0 = 0 := by
  have none := nearestNat_natCast 0
  rw [Nat.cast_zero] at none
  rw [nearest, zero_div, none, Nat.cast_zero, zero_mul]

theorem exponent_mono (positive : 0 < x) (le : x ≤ y) : f.exponent x ≤ f.exponent y :=
  max_le_max_right _ (Int.sub_le_sub_right (Int.log_mono_right positive le) _)

/-- A power of two is a whole number of any unit that is no larger. -/
theorem zpow_div {e k : Int} (le : e ≤ k) :
    (2 : ℚ≥0) ^ k / 2 ^ e = ((2 ^ (k - e).toNat : Nat) : ℚ≥0) := by
  have whole : ((k - e).toNat : Int) = k - e := Int.toNat_of_nonneg (by omega)
  rw [← zpow_sub₀ two_ne_zero, Nat.cast_pow, Nat.cast_two, ← zpow_natCast, whole]

theorem nearestNat_zpow {e k : Int} (le : e ≤ k) :
    (nearestNat ((2 : ℚ≥0) ^ k / 2 ^ e) : ℚ≥0) * 2 ^ e = 2 ^ k := by
  rw [zpow_div le, nearestNat_natCast, ← zpow_div le,
    div_mul_cancel₀ _ (zpow_ne_zero e two_ne_zero)]

/-- With one unit rounding keeps the order. -/
theorem units_mono (le : x ≤ y) (e : Int) :
    (nearestNat (x / 2 ^ e) : ℚ≥0) * 2 ^ e ≤ nearestNat (y / 2 ^ e) * 2 ^ e :=
  mul_le_mul_left (Nat.cast_le.2 (nearestNat_mono (div_le_div_of_nonneg_right le zero_le))) _

/-- Nothing is rounded past a power of two. -/
theorem nearest_le_zpow {k : Int} (unit : f.exponent x ≤ k) (le : x ≤ 2 ^ k) :
    f.nearest x ≤ 2 ^ k := by
  rw [← nearestNat_zpow unit, nearest]
  exact units_mono le _

theorem zpow_le_nearest {k : Int} (unit : f.exponent x ≤ k) (le : 2 ^ k ≤ x) :
    2 ^ k ≤ f.nearest x := by
  rw [← nearestNat_zpow unit, nearest]
  exact units_mono le _

/-- Rounding keeps the order: with one unit as the rounding to integers does, and with two because a
power of two lies between. -/
theorem nearest_mono (le : x ≤ y) : f.nearest x ≤ f.nearest y := by
  obtain rfl | positive := eq_zero_or_pos x
  · rw [nearest_zero]
    exact zero_le
  obtain less | same := (f.exponent_mono positive le).lt_or_eq
  · have normal : f.exponent y = Int.log 2 y - (f.precision - 1) := by
      rw [exponent, exponent] at less
      rw [exponent]
      omega
    have bits := f.precision_pos
    have apart : Int.log 2 x < Int.log 2 y := by
      rw [exponent, exponent] at less
      omega
    have below : x ≤ 2 ^ Int.log 2 y :=
      (Int.lt_zpow_succ_log_self (by decide : 1 < 2) x).le.trans
        (zpow_le_zpow_right₀ one_le_two (by omega))
    have above : 2 ^ Int.log 2 y ≤ y :=
      Int.zpow_log_le_self (by decide : 1 < 2) (positive.trans_le le)
    exact (f.nearest_le_zpow (by omega) below).trans (f.zpow_le_nearest (by omega) above)
  · rw [nearest, nearest, same]
    exact units_mono le _

end Format

end Nearest

namespace Fp

section Order

variable {f : Format} {s t : Bool} {x y : ℚ≥0}

theorem signed_false (x : ℚ≥0) : signed false x = x := rfl

/-- What is at least zero has the positive sign or is a zero. -/
theorem sign_of_nonneg (nonneg : 0 ≤ signed s x) : s = false ∨ x = 0 := by
  cases s with
  | false => exact .inl rfl
  | true =>
      have neg : (x : ℚ) ≤ 0 := neg_nonneg.1 nonneg
      exact .inr (NNRat.coe_eq_zero.1 (neg.antisymm x.coe_nonneg))

theorem signed_of_nonneg (nonneg : 0 ≤ signed s x) : signed s x = x := by
  obtain rfl | rfl := sign_of_nonneg nonneg
  · rfl
  · cases s with
    | false => rfl
    | true => exact neg_zero

theorem signed_zero (s : Bool) : signed s 0 = 0 := by
  cases s with
  | false => rfl
  | true => exact neg_zero

theorem fin_le_fin : fin s x ≤ fin t y ↔ signed s x ≤ signed t y := decide_eq_true_iff

theorem round_zero (f : Format) (s : Bool) : f.round s 0 = fin s 0 := by
  have positive : ¬ (2 : ℚ≥0) ^ f.bound ≤ 0 := not_le.2 (zpow_pos two_pos _)
  rw [Format.round, f.nearest_zero, if_neg positive]

/-- Nothing that is rounded is above infinity. -/
theorem round_le_inf (f : Format) (s : Bool) (x : ℚ≥0) : f.round s x ≤ inf false := by
  rw [Format.round]
  split
  · cases s <;> rfl
  · rfl

theorem round_le_round (nonneg : 0 ≤ signed s x) (le : signed s x ≤ signed t y) :
    f.round s x ≤ f.round t y := by
  have nonneg' := nonneg.trans le
  rw [signed_of_nonneg nonneg, signed_of_nonneg nonneg', NNRat.coe_le_coe] at le
  obtain rfl | rfl := sign_of_nonneg nonneg'
  · by_cases large : 2 ^ f.bound ≤ f.nearest y
    · have top : f.round false y = inf false := if_pos large
      rw [top]
      exact round_le_inf f s x
    · have small : ¬ 2 ^ f.bound ≤ f.nearest x := fun large' =>
        large (large'.trans (f.nearest_mono le))
      rw [Format.round, Format.round, if_neg small, if_neg large, fin_le_fin, signed_false]
      obtain rfl | rfl := sign_of_nonneg nonneg
      · exact NNRat.coe_le_coe.2 (f.nearest_mono le)
      · rw [f.nearest_zero, signed_zero]
        exact NNRat.coe_nonneg _
  · obtain rfl : x = 0 := nonpos_iff_eq_zero.1 le
    rw [round_zero, round_zero, fin_le_fin, signed_zero, signed_zero]

/-- What is at least a finite number is finite too, or infinite. -/
theorem fin_le_cases {w : Fp} (le : fin s x ≤ w) :
    w = inf false ∨ ∃ t y, w = fin t y ∧ signed s x ≤ signed t y := by
  cases w with
  | nan => cases le
  | inf t =>
      cases t with
      | true => cases le
      | false => exact .inl rfl
  | fin t y => exact .inr ⟨t, y, rfl, fin_le_fin.1 le⟩

theorem exists_of_positive {v : Fp} (positive : v.positive = true) :
    ∃ k, k ≠ 0 ∧ v = fin false k := by
  cases v with
  | nan | inf => cases positive
  | fin s x =>
      cases s with
      | true => cases positive
      | false => exact ⟨x, of_decide_eq_true positive, rfl⟩

theorem nonneg_cases {v : Fp} (nonneg : 0 ≤ v) :
    v = inf false ∨ ∃ s x, v = fin s x ∧ 0 ≤ signed s x :=
  fin_le_cases nonneg

theorem eq_inf_of_le {w : Fp} (le : inf false ≤ w) : w = inf false := by
  cases w with
  | nan | fin => cases le
  | inf t =>
      cases t with
      | true => cases le
      | false => rfl

theorem signed_mul (s : Bool) (x k : ℚ≥0) : signed s (x * k) = signed s x * k := by
  cases s with
  | false => exact NNRat.coe_mul x k
  | true =>
      change -((x * k : ℚ≥0) : ℚ) = -(x : ℚ) * k
      rw [NNRat.coe_mul, neg_mul]

/-- An operation that scales and rounds keeps the order from zero up. -/
theorem scaled_mono (op : Fp → Fp) {k : ℚ≥0} (top : op (inf false) = inf false)
    (rounds : ∀ s x, op (fin s x) = f.round s (x * k)) {v w : Fp} (nonneg : 0 ≤ v) (le : v ≤ w) :
    op v ≤ op w := by
  obtain rfl | ⟨s, x, rfl, low⟩ := nonneg_cases nonneg
  · rw [eq_inf_of_le le, top]
    rfl
  obtain rfl | ⟨t, y, rfl, order⟩ := fin_le_cases le
  · rw [rounds, top]
    exact round_le_inf f s _
  · rw [rounds, rounds]
    refine round_le_round ?_ ?_
    · rw [signed_mul]
      exact mul_nonneg low k.coe_nonneg
    · rw [signed_mul, signed_mul]
      exact mul_le_mul_of_nonneg_right order k.coe_nonneg

section Scaling

variable {v w d : Fp} (positive : d.positive = true)
include positive

theorem mul_le_mul_right (nonneg : 0 ≤ v) (le : v ≤ w) : v.mul f d ≤ w.mul f d := by
  obtain ⟨k, nonzero, rfl⟩ := exists_of_positive positive
  exact scaled_mono (fun v => v.mul f (fin false k)) (if_neg nonzero)
    (fun s x => congrArg (fun s => f.round s (x * k)) (Bool.xor_false s)) nonneg le

theorem div_le_div_right (nonneg : 0 ≤ v) (le : v ≤ w) : v.div f d ≤ w.div f d := by
  obtain ⟨k, nonzero, rfl⟩ := exists_of_positive positive
  refine scaled_mono (fun v => v.div f (fin false k)) (f := f) (k := k⁻¹) rfl ?_ nonneg le
  intro s x
  change (if k = 0 then _ else f.round (s ^^ false) (x / k)) = _
  rw [if_neg nonzero, Bool.xor_false, div_eq_mul_inv]

theorem zero_mul_right : mul f 0 d = 0 := by
  obtain ⟨k, -, rfl⟩ := exists_of_positive positive
  change f.round false (0 * k) = 0
  rw [zero_mul, round_zero]
  rfl

theorem zero_div_right : div f 0 d = 0 := by
  obtain ⟨k, nonzero, rfl⟩ := exists_of_positive positive
  change (if k = 0 then _ else f.round false (0 / k)) = 0
  rw [if_neg nonzero, zero_div, round_zero]
  rfl

theorem mul_nonneg_right (nonneg : 0 ≤ v) : 0 ≤ v.mul f d :=
  (zero_mul_right positive).symm.trans_le (mul_le_mul_right positive rfl nonneg)

theorem div_nonneg_right (nonneg : 0 ≤ v) : 0 ≤ v.div f d :=
  (zero_div_right positive).symm.trans_le (div_le_div_right positive rfl nonneg)

end Scaling

/-- What is divided by infinity converts to zero. -/
theorem toS32_div_inf {v : Fp} (t : Bool) : (v.div f (inf t)).toS32 = 0 := by
  cases v with
  | nan | inf => rfl
  | fin s x =>
      change Num.toS32 (signed (s ^^ t) 0) = 0
      rw [signed_zero]
      rfl

/-- The conversion keeps the order. -/
theorem toS32_mono {v w : Fp} (le : v ≤ w) : v.toS32.toInt ≤ w.toS32.toInt := by
  have top : (inf false).toS32.toInt = 2147483647 := by decide
  have bottom : (inf true).toS32.toInt = -2147483648 := by decide
  have range := BitVec.le_toInt w.toS32
  have range' := BitVec.toInt_lt (x := v.toS32)
  cases v with
  | nan => cases le
  | inf s =>
      cases s with
      | true => omega
      | false =>
          rw [eq_inf_of_le le]
  | fin s x =>
      obtain rfl | ⟨t, y, rfl, order⟩ := fin_le_cases le
      · omega
      · rw [toS32, toS32, toInt_toS32_bound, toInt_toS32_bound]
        have parts := trunc_mono order
        omega

theorem toS32_nonneg {v : Fp} (nonneg : 0 ≤ v) : 0 ≤ v.toS32.toInt :=
  toS32_mono nonneg

end Order

/-- The exact reading of a word is that of its number. -/
theorem single_of_ofBits {bits : BitVec 32} {s : Bool} {x : ℚ≥0} (number : ofBits bits = fin s x) :
    single bits = signed s x := by
  rw [ofBits] at number
  dsimp only at number
  split at number
  · split at number <;> cases number
  · rename_i top
    obtain ⟨rfl, rfl⟩ := Fp.fin.inj number
    have value : single bits = _ := if_neg fun both => top both.1
    rw [value, signed, NNRat.cast_div, NNRat.cast_natCast, NNRat.cast_pow, NNRat.cast_ofNat]

theorem single_of_nan {bits : BitVec 32} (number : ofBits bits = nan) : single bits = 0 := by
  rw [ofBits] at number
  dsimp only at number
  split at number
  · rename_i top
    split at number
    · cases number
    · rename_i payload
      exact if_pos ⟨top, payload⟩
  · cases number

theorem single_of_inf {bits : BitVec 32} {s : Bool} (number : ofBits bits = inf s) :
    single bits = signed s (2 ^ 128) := by
  rw [ofBits] at number
  dsimp only at number
  split at number
  · rename_i top
    split at number
    · rename_i whole
      obtain rfl := Fp.inf.inj number
      rw [single]
      simp only [top, whole]
      rw [signed]
      norm_num
    · cases number
  · cases number

/-- What reads exactly as above zero is infinite or a positive number. -/
theorem ofBits_of_single_pos {bits : BitVec 32} (above : 0 < single bits) :
    ofBits bits = inf false ∨ (ofBits bits).positive = true := by
  generalize number : ofBits bits = v
  cases v with
  | nan =>
      rw [single_of_nan number] at above
      exact absurd above (lt_irrefl 0)
  | inf s =>
      rw [single_of_inf number] at above
      obtain rfl | zero := sign_of_nonneg above.le
      · exact .inl rfl
      · exact absurd zero (pow_ne_zero 128 two_ne_zero)
  | fin s x =>
      rw [single_of_ofBits number] at above
      right
      obtain rfl | rfl := sign_of_nonneg above.le
      · exact decide_eq_true (NNRat.coe_pos.1 above).ne'
      · rw [signed_zero] at above
        exact absurd above (lt_irrefl 0)

end Fp

end PscDigpid.Num
