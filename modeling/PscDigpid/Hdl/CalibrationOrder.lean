/- Unit: PscDigpid/Hdl/CalibrationOrder
   layer: result
   source: src/hw/hdl/dcct_gainoffset.vhd (fixed_mul, APPLY_OFFSETS, APPLY_GAINS),
     src/hw/hdl/mon_gainoffset.vhd (APPLY_OFFSETS, APPLY_GAINS)
   digest: Which calibrations keep the order of the samples and the sign of a reading. -/

import Mathlib.Algebra.Order.Ring.Abs
import Mathlib.Algebra.Order.Ring.Int
import PscDigpid.Hdl.DcctGainoffset
import PscDigpid.Hdl.MonGainoffset
import PscDigpid.Sync.Run
import PscDigpid.Sync.Scaled
import PscDigpid.Sync.Signed

set_option autoImplicit false
set_option relaxedAutoImplicit false

namespace PscDigpid.Hdl

open PscDigpid.Sync

/-- A sample's result by a calibration with an offset keeps the order, and is never of the other
sign than the difference to the offset. -/
structure Ordered {w : Nat} (offset : BitVec w) (result : BitVec w → BitVec w → Prop) : Prop where
  order : ∀ x y a b, result x a → result y b → x.toInt ≤ y.toInt → a.toInt ≤ b.toInt
  sign : ∀ x a, result x a → (0 < x.toInt - offset.toInt → 0 ≤ a.toInt) ∧
    (x.toInt - offset.toInt < 0 → a.toInt ≤ 0)

section Words

variable {w : Nat}

theorem toInt_inRange (x : BitVec w) : InRange (2 ^ (w - 1)) x.toInt := by
  have low := x.le_toInt
  have high := x.toInt_lt
  refine ⟨?_, ?_⟩
  · push_cast
    exact low
  · push_cast
    exact high

theorem exists_toInt (some : 0 < w) {v : Int} (inside : InRange (2 ^ (w - 1)) v) :
    ∃ x : BitVec w, x.toInt = v := by
  refine ⟨BitVec.ofInt w v, ?_⟩
  rw [BitVec.toInt_ofInt, ← wrap_inside inside, ← Nat.pow_succ', Nat.succ_eq_add_one,
    Nat.sub_add_cancel some]
  simp

/-- The product of a word and a gain fits the widths of both. -/
theorem toInt_product (some : 0 < w) (x : BitVec w) (gain : BitVec 24) :
    (x.signExtend (w + 24) * gain.signExtend (w + 24)).toInt = x.toInt * gain.toInt := by
  have width : (2 : Int) ^ w = 2 * 2 ^ (w - 1) := by
    rw [← Int.pow_succ', Nat.sub_add_cancel some]
  have word : |x.toInt| ≤ 2 ^ (w - 1) := by
    obtain ⟨low, high⟩ := toInt_inRange x
    push_cast at low high
    exact abs_le.2 ⟨low, Int.le_of_lt high⟩
  have factor : |gain.toInt| ≤ 2 ^ 23 := by
    have low := gain.le_toInt
    have high := gain.toInt_lt
    exact abs_le.2 ⟨low, Int.le_of_lt high⟩
  have size : |x.toInt * gain.toInt| ≤ 2 ^ (w - 1) * 2 ^ 23 := by
    rw [abs_mul]
    exact mul_le_mul word factor (abs_nonneg _) (Int.pow_nonneg (by decide))
  obtain ⟨low, high⟩ := abs_le.1 size
  have positive : (0 : Int) < 2 ^ (w - 1) := Int.pow_pos (by decide)
  apply toInt_exact
  · rw [BitVec.toInt_mul, BitVec.toInt_signExtend_of_le (by omega),
      BitVec.toInt_signExtend_of_le (by omega)]
  · rw [Int.pow_add, width]
    omega
  · rw [Int.pow_add, width]
    omega

/-- The slice of the product of a wrapped difference and a gain. -/
theorem toInt_slice_corrected (some : 0 < w) (raw offset : BitVec w) (gain : BitVec 24) :
    (((raw - offset).signExtend (w + 24) * gain.signExtend (w + 24)).extractLsb' 20 w).toInt =
      corrected (2 ^ (w - 1)) (2 ^ 20) offset.toInt gain.toInt raw.toInt := by
  have range : 2 * 2 ^ (w - 1) = 2 ^ w := by
    rw [← Nat.pow_succ', Nat.succ_eq_add_one, Nat.sub_add_cancel some]
  rw [toInt_slice _ (by omega), corrected, scaled, range, toInt_product some, BitVec.toInt_sub]
  rfl

/-- Order is kept in the words exactly when it is in the integers they are. -/
theorem ordered_iff (some : 0 < w) {offset : BitVec w} {gain : BitVec 24}
    {result : BitVec w → BitVec w → Prop} {f : BitVec w → BitVec w}
    (only : ∀ x a, result x a ↔ a = f x)
    (value : ∀ x, (f x).toInt =
      corrected (2 ^ (w - 1)) (2 ^ 20) offset.toInt gain.toInt x.toInt) :
    Ordered offset result ↔
      KeepsOrder (2 ^ (w - 1)) (2 ^ 20) offset.toInt gain.toInt := by
  constructor
  · intro ordered
    refine ⟨fun x y left right le => ?_, fun x inside => ?_⟩
    · obtain ⟨x, rfl⟩ := exists_toInt some left
      obtain ⟨y, rfl⟩ := exists_toInt some right
      rw [← value, ← value]
      exact ordered.order x y _ _ ((only _ _).2 rfl) ((only _ _).2 rfl) le
    · obtain ⟨x, rfl⟩ := exists_toInt some inside
      have sign := ordered.sign x _ ((only _ _).2 rfl)
      rw [value] at sign
      exact ⟨fun above => sign.1 (by omega), fun below => sign.2 (by omega)⟩
  · intro keeps
    refine ⟨fun x y a b left right le => ?_, fun x a converted => ?_⟩
    · rw [(only x a).1 left, (only y b).1 right, value, value]
      exact keeps.order _ _ (toInt_inRange x) (toInt_inRange y) le
    · rw [(only x a).1 converted, value]
      have sign := keeps.sign _ (toInt_inRange x)
      exact ⟨fun above => sign.1 (by omega), fun below => sign.2 (by omega)⟩

end Words

/-- The readings of a channel's DCCT ADC. -/
inductive DcctReading
  | dcct0 | dcct1
  deriving DecidableEq

namespace DcctReading

open DcctGainoffset (step powerUp fixedMul)

variable (k : DcctReading)

def raw (i : DcctGainoffset.Ports) : BitVec 20 :=
  match k with
  | .dcct0 => i.dcct0Raw
  | .dcct1 => i.dcct1Raw

def offset (p : DcctAdcsParamsOnech) : BitVec 20 :=
  match k with
  | .dcct0 => p.dcct0Offset
  | .dcct1 => p.dcct1Offset

def gain (p : DcctAdcsParamsOnech) : BitVec 24 :=
  match k with
  | .dcct0 => p.dcct0Gain
  | .dcct1 => p.dcct1Gain

def out (o : DcctAdcsOnech) : BitVec 20 :=
  match k with
  | .dcct0 => o.dcct0
  | .dcct1 => o.dcct1

/-- In some run a conversion with this offset and gain makes this result of a sample. -/
def Converts (offset : BitVec 20) (gain : BitVec 24) (sample result : BitVec 20) : Prop :=
  ∃ inp t, (run step powerUp inp t).state = .applyOffsets ∧
    (inp t).reset = false ∧ (inp (t + 1)).reset = false ∧
    k.raw (inp t) = sample ∧ k.offset (inp t).dcctParams = offset ∧
    k.gain (inp (t + 1)).dcctParams = gain ∧ k.out (run step powerUp inp (t + 2)).dcctOut = result

variable {k}

/-- The result of a conversion is a function of its sample. -/
theorem converts_iff {offset sample result : BitVec 20} {gain : BitVec 24} :
    k.Converts offset gain sample result ↔ result = fixedMul (sample - offset) gain 4 := by
  constructor
  · rintro ⟨inp, t, state, quiet, quiet', rfl, rfl, rfl, rfl⟩
    have first : run step powerUp inp (t + 1) = step (run step powerUp inp t) (inp t) := rfl
    have second : run step powerUp inp (t + 2) =
      step (run step powerUp inp (t + 1)) (inp (t + 1)) := rfl
    rw [step, quiet, if_neg Bool.false_ne_true, state] at first
    rw [step, quiet', if_neg Bool.false_ne_true, first] at second
    rw [second]
    cases k with
    | dcct0 | dcct1 => rfl
  · rintro rfl
    refine ⟨fun _ => ⟨false, true, sample, sample, ⟨gain, offset, gain, offset⟩⟩, 1, rfl, rfl, rfl,
      ?_⟩
    cases k with
    | dcct0 | dcct1 => exact ⟨rfl, rfl, rfl, rfl⟩

theorem ordered_iff_keepsOrder (offset : BitVec 20) (gain : BitVec 24) :
    Ordered offset (k.Converts offset gain) ↔
      KeepsOrder (2 ^ 19) (2 ^ 20) offset.toInt gain.toInt :=
  ordered_iff (by decide) (fun _ _ => converts_iff)
    fun x => toInt_slice_corrected (by decide) x offset gain

end DcctReading

namespace MonReading

open MonGainoffset (step powerUp fixedMul)

variable (k : MonReading)

/-- The same for a reading of the monitor ADC. -/
def Converts (offset : BitVec 16) (gain : BitVec 24) (sample result : BitVec 16) : Prop :=
  ∃ inp t, (run step powerUp inp t).state = .applyOffsets ∧
    (inp t).reset = false ∧ (inp (t + 1)).reset = false ∧
    (inp t).monAdcRaw.get k = sample ∧ (inp t).monParams.offset.get k = offset ∧
    (inp (t + 1)).monParams.gain.get k = gain ∧
    (run step powerUp inp (t + 2)).monOut.get k = result

variable {k}

theorem converts_iff {offset sample result : BitVec 16} {gain : BitVec 24} :
    k.Converts offset gain sample result ↔ result = fixedMul (sample - offset) gain 4 := by
  constructor
  · rintro ⟨inp, t, state, quiet, quiet', rfl, rfl, rfl, rfl⟩
    have first : run step powerUp inp (t + 1) = step (run step powerUp inp t) (inp t) := rfl
    have second : run step powerUp inp (t + 2) =
      step (run step powerUp inp (t + 1)) (inp (t + 1)) := rfl
    rw [step, quiet, if_neg Bool.false_ne_true, state] at first
    rw [step, quiet', if_neg Bool.false_ne_true, first] at second
    rw [second]
    cases k with
    | dacmon | voltage | ignd | spare | psReg | psError => rfl
  · rintro rfl
    refine ⟨fun _ => ⟨false, true, ⟨sample, sample, sample, sample, sample, sample⟩,
      ⟨⟨offset, offset, offset, offset, offset, offset⟩, ⟨gain, gain, gain, gain, gain, gain⟩⟩⟩,
      1, rfl, rfl, rfl, ?_⟩
    cases k with
    | dacmon | voltage | ignd | spare | psReg | psError => exact ⟨rfl, rfl, rfl, rfl⟩

theorem ordered_iff_keepsOrder (offset : BitVec 16) (gain : BitVec 24) :
    Ordered offset (k.Converts offset gain) ↔
      KeepsOrder (2 ^ 15) (2 ^ 20) offset.toInt gain.toInt :=
  ordered_iff (by decide) (fun _ _ => converts_iff)
    fun x => toInt_slice_corrected (by decide) x offset gain

end MonReading

/-- A calibration keeps order and sign exactly when its gain is zero, or at most one with no
offset, or, with an offset of minus one, over one by no more than goes to the largest sample. -/
theorem calibration_ordered_iff (gain : BitVec 24) (nonneg : 0 ≤ gain.toInt) :
    (∀ (k : DcctReading) (offset : BitVec 20), Ordered offset (k.Converts offset gain) ↔
      OrderedBy 524288 1048576 offset.toInt gain.toInt) ∧
    ∀ (k : MonReading) (offset : BitVec 16), Ordered offset (k.Converts offset gain) ↔
      OrderedBy 32768 1048576 offset.toInt gain.toInt := by
  have bound : gain.toInt < 8 * (2 ^ 20 : Nat) := gain.toInt_lt
  constructor
  · intro k offset
    rw [DcctReading.ordered_iff_keepsOrder]
    exact keepsOrder_iff 2 (by decide) (by decide) (by decide) rfl
      (toInt_inRange offset) nonneg bound
  · intro k offset
    rw [MonReading.ordered_iff_keepsOrder]
    exact keepsOrder_iff 32 (by decide) (by decide) (by decide) rfl
      (toInt_inRange offset) nonneg bound

/-- With no offset and a gain of one every reading is in order. -/
theorem unit_gain_ordered :
    Ordered 0 (DcctReading.dcct0.Converts 0 0x100000) ∧
      Ordered 0 (MonReading.voltage.Converts 0 0x100000) := by
  obtain ⟨dcct, mon⟩ := calibration_ordered_iff 0x100000 (by decide)
  exact ⟨(dcct .dcct0 0).2 (.inr (.inl (by decide))), (mon .voltage 0).2 (.inr (.inl (by decide)))⟩

/-- With a gain of two a current of half the range and more reads as negative. -/
theorem gain_two_negative :
    ¬ Ordered 0 (DcctReading.dcct0.Converts 0 0x200000) ∧
      ¬ Ordered 0 (MonReading.voltage.Converts 0 0x200000) := by
  constructor
  · intro ordered
    have sign := (ordered.sign 0x40000 _ (DcctReading.converts_iff.2 rfl)).1 (by decide)
    exact absurd sign (by decide)
  · intro ordered
    have sign := (ordered.sign 0x4000 _ (MonReading.converts_iff.2 rfl)).1 (by decide)
    exact absurd sign (by decide)

end PscDigpid.Hdl
