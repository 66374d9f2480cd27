/- Unit: PscDigpid/Sync/Signed
   layer: library
   source: none(general)
   digest: Slices of signed vectors, and sequences that go from one value toward another. -/

import Mathlib.Data.Int.Init
import Mathlib.Tactic.Ring

set_option autoImplicit false
set_option relaxedAutoImplicit false

namespace PscDigpid.Sync

section Slices

variable {w : Nat}

/-- A slice of a signed vector is its floor quotient, wrapped to the slice's width. -/
theorem toInt_slice (x : BitVec w) {lo n : Nat} (fits : lo + n ≤ w) :
    (x.extractLsb' lo n).toInt = (x.toInt / 2 ^ lo).bmod (2 ^ n) := by
  obtain ⟨d, rfl⟩ := Nat.exists_eq_add_of_le fits
  have positive : (0 : Int) < 2 ^ lo := Int.pow_pos (by omega)
  have quotient : ((x.toNat >>> lo : Nat) : Int) = (x.toNat : Int) / 2 ^ lo := by
    rw [Nat.shiftRight_eq_div_pow]
    simp
  rw [BitVec.toInt_extractLsb', quotient, BitVec.toInt_eq_msb_cond]
  split_ifs with negative
  · have split : ((2 ^ (lo + n + d) : Nat) : Int) = 2 ^ lo * (((2 ^ n : Nat) : Int) * 2 ^ d) := by
      push_cast
      ring
    rw [split, Int.sub_mul_ediv_left _ _ (Int.ne_of_gt positive), Int.sub_mul_bmod_self_left]
  · rfl

/-- So are its low bits. -/
theorem toInt_setWidth_le (x : BitVec w) {n : Nat} (le : n ≤ w) :
    (x.setWidth n).toInt = x.toInt.bmod (2 ^ n) := by
  have low := toInt_slice x (show 0 + n ≤ w by omega)
  rw [Int.pow_zero, Int.ediv_one] at low
  rw [← low, BitVec.setWidth_eq_extractLsb' le]

/-- From zero up to half of the range the magnitude is kept. -/
theorem natAbs_bmod {v : Int} {m : Nat} (positive : 0 < m) (low : 0 ≤ v) (high : 2 * v ≤ m) :
    (v.bmod m).natAbs = v.natAbs := by
  obtain inside | half := Int.lt_or_eq_of_le high
  · rw [Int.bmod_eq_of_le_mul_two (by omega) (by omega)]
  · have shifted : (-v).bmod m = v.bmod m := by
      rw [← Int.add_bmod_right (-v) m, ← half]
      congr 1
      omega
    rw [← shifted, Int.bmod_eq_of_le_mul_two (by omega) (by omega), Int.natAbs_neg]

/-- A signed sum, product or slice that fits its width is exact. -/
theorem toInt_exact {x : BitVec w} {v : Int} (value : x.toInt = v.bmod (2 ^ w))
    (low : -2 ^ w ≤ 2 * v) (high : 2 * v < 2 ^ w) : x.toInt = v := by
  rw [value]
  apply Int.bmod_eq_of_le_mul_two
  · push_cast
    omega
  · push_cast
    omega

/-- The low bits of a signed vector are a remainder. -/
theorem toNat_low (x : BitVec w) {v : Nat} (le : v ≤ w) :
    (((x.setWidth v).setWidth w).toNat : Int) = x.toInt % 2 ^ v := by
  have powers : 2 ^ v ≤ 2 ^ w := Nat.pow_le_pow_right (by decide) le
  have small : x.toNat % 2 ^ v < 2 ^ w :=
    Nat.lt_of_lt_of_le (Nat.mod_lt _ (Nat.two_pow_pos v)) powers
  have divides : ((2 ^ v : Nat) : Int) ∣ ((2 ^ w : Nat) : Int) :=
    Int.natCast_dvd_natCast.2 (Nat.pow_dvd_pow 2 le)
  have quotient : x.toInt % ((2 ^ v : Nat) : Int) = x.toNat % ((2 ^ v : Nat) : Int) := by
    rw [BitVec.toInt_eq_toNat_bmod, ← Int.emod_emod_of_dvd _ divides, Int.bmod_emod,
      Int.emod_emod_of_dvd _ divides]
  rw [BitVec.toNat_setWidth, BitVec.toNat_setWidth, Nat.mod_eq_of_lt small, Int.natCast_mod,
    ← quotient, Nat.cast_pow, Nat.cast_ofNat]

end Slices

/-- `y` is not before `x` on the way from `start` to `target`. -/
def Toward (start target x y : Int) : Prop :=
  (start ≤ target → x ≤ y) ∧ (target ≤ start → y ≤ x)

namespace Toward

variable {start target x y z : Int}

theorem refl (start target x : Int) : Toward start target x x :=
  ⟨fun _ => Int.le_refl x, fun _ => Int.le_refl x⟩

theorem trans (first : Toward start target x y) (second : Toward start target y z) :
    Toward start target x z :=
  ⟨fun up => Int.le_trans (first.1 up) (second.1 up),
    fun down => Int.le_trans (second.2 down) (first.2 down)⟩

theorem antisymm (there : Toward start target x y) (back : Toward start target y x) : x = y := by
  rcases Int.le_total start target with up | down
  · exact Int.le_antisymm (there.1 up) (back.1 up)
  · exact Int.le_antisymm (back.2 down) (there.2 down)

/-- Steps in one direction compose along a sequence. -/
theorem chain {f : Nat → Int} {a b : Nat} (le : a ≤ b)
    (next : ∀ k, a ≤ k → k < b → Toward start target (f k) (f (k + 1))) :
    Toward start target (f a) (f b) := by
  induction b, le using Nat.le_induction with
  | base => exact refl start target (f a)
  | succ k from_a ih =>
      exact (ih fun j low high => next j low (Nat.lt_succ_of_lt high)).trans
        (next k from_a (Nat.lt_succ_self k))

end Toward

/-- The point at `x` parts of `scale` on the way from `start` to `target`, rounded down. -/
def along (start target scale x : Int) : Int := start + (target - start) * x / scale

section Along

variable {scale x y : Int}

theorem along_zero (start target scale : Int) : along start target scale 0 = start := by
  rw [along, Int.mul_zero, Int.zero_ediv, Int.add_zero]

theorem along_scale (start target : Int) (positive : 0 < scale) :
    along start target scale scale = target := by
  rw [along, Int.mul_ediv_cancel _ (Int.ne_of_gt positive)]
  omega

/-- More parts lie further on the way. -/
theorem along_toward (start target : Int) (positive : 0 < scale) (le : x ≤ y) :
    Toward start target (along start target scale x) (along start target scale y) := by
  constructor
  · intro up
    have ordered := Int.mul_le_mul_of_nonneg_left le (Int.sub_nonneg_of_le up)
    exact Int.add_le_add_left (Int.ediv_le_ediv positive ordered) start
  · intro down
    have ordered := Int.mul_le_mul_of_nonpos_left (Int.sub_nonpos_of_le down) le
    exact Int.add_le_add_left (Int.ediv_le_ediv positive ordered) start

/-- Every part of the way lies between its ends. -/
theorem along_between (start target : Int) (low : 0 ≤ x) (high : x ≤ scale)
    (positive : 0 < scale) :
    Toward start target start (along start target scale x) ∧
      Toward start target (along start target scale x) target := by
  have first := along_toward start target positive low
  have last := along_toward start target positive high
  rw [along_zero] at first
  rw [along_scale start target positive] at last
  exact ⟨first, last⟩

end Along

end PscDigpid.Sync
