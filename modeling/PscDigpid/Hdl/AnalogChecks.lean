/- Unit: PscDigpid/Hdl/AnalogChecks
   layer: result
   source: src/hw/hdl/fault_block.vhd
   digest: The analog checks compare magnitudes, except at the negative end of the range. -/

import PscDigpid.Hdl.FaultPersistence

set_option autoImplicit false
set_option relaxedAutoImplicit false

namespace PscDigpid.Hdl.FaultBlock

open PscDigpid.Sync

section Magnitudes

variable {w : Nat} {x thresh : BitVec w}

theorem width_pos_of_ne_intMin (inner : x ≠ BitVec.intMin w) : 0 < w := by
  cases w with
  | zero => exact absurd (Subsingleton.elim _ _) inner
  | succ w => exact Nat.succ_pos w

/-- Every value but the most negative has a magnitude that fits. -/
theorem natAbs_lt_of_ne_intMin (inner : x ≠ BitVec.intMin w) : x.toInt.natAbs < 2 ^ (w - 1) := by
  have positive := width_pos_of_ne_intMin inner
  have least : x.toInt ≠ -2 ^ (w - 1) := by
    rw [← BitVec.toInt_intMin_of_pos positive]
    exact fun same => inner (BitVec.eq_of_toInt_eq same)
  have low := BitVec.le_toInt x
  have high := BitVec.toInt_lt (x := x)
  have cast : ((2 ^ (w - 1) : Nat) : Int) = 2 ^ (w - 1) := Int.natCast_pow 2 (w - 1)
  omega

theorem natAbs_intMin (positive : 0 < w) : (BitVec.intMin w).toInt.natAbs = 2 ^ (w - 1) := by
  rw [BitVec.toInt_intMin_of_pos positive, Int.natAbs_neg, Int.natAbs_pow]
  rfl

theorem toInt_abs_of_ne_intMin (inner : x ≠ BitVec.intMin w) : x.abs.toInt = x.toInt.natAbs := by
  rw [BitVec.toInt_abs_eq_natAbs, if_neg inner]

/-- Comparing by `abs` compares magnitudes if and only if both values or neither are the most
negative one, whose `abs` is below every other. -/
theorem absGe_exact : (absGe x thresh = true ↔ thresh.toInt.natAbs ≤ x.toInt.natAbs) ↔
    (x = BitVec.intMin w ↔ thresh = BitVec.intMin w) := by
  rw [absGe, BitVec.sle_iff_toInt_le]
  by_cases x_least : x = BitVec.intMin w
  · by_cases thresh_least : thresh = BitVec.intMin w
    · rw [x_least, thresh_least]
      exact iff_of_true (iff_of_true (Int.le_refl _) (Nat.le_refl _)) Iff.rfl
    · have positive := width_pos_of_ne_intMin thresh_least
      have inside := natAbs_lt_of_ne_intMin thresh_least
      have least : (BitVec.intMin w).toInt < 0 := by
        rw [BitVec.toInt_intMin_of_pos positive]
        exact Int.neg_neg_of_pos (Int.pow_pos (by omega))
      rw [x_least, toInt_abs_of_ne_intMin thresh_least, BitVec.abs_intMin, natAbs_intMin positive]
      refine iff_of_false ?_ ?_
      · intro same
        have negative := same.2 (Nat.le_of_lt inside)
        omega
      · intro same
        exact thresh_least (same.1 rfl)
  · have positive := width_pos_of_ne_intMin x_least
    have inside := natAbs_lt_of_ne_intMin x_least
    rw [toInt_abs_of_ne_intMin x_least]
    by_cases thresh_least : thresh = BitVec.intMin w
    · have least : (BitVec.intMin w).toInt < 0 := by
        rw [BitVec.toInt_intMin_of_pos positive]
        exact Int.neg_neg_of_pos (Int.pow_pos (by omega))
      rw [thresh_least, BitVec.abs_intMin, natAbs_intMin positive]
      refine iff_of_false ?_ ?_
      · intro same
        have larger := same.1 (by omega)
        omega
      · intro same
        exact x_least (same.2 rfl)
    · rw [toInt_abs_of_ne_intMin thresh_least]
      exact iff_of_true Int.ofNat_le (iff_of_false x_least thresh_least)

end Magnitudes

/-- The checks that compare a sample with a threshold. -/
inductive AnalogCheck
  | ovc1 | ovc2 | ovv | err1 | err2 | ignd
  deriving DecidableEq

namespace AnalogCheck

def bit : AnalogCheck → FaultBit
  | ovc1 => .ovc1
  | ovc2 => .ovc2
  | ovv => .ovv
  | err1 => .err1
  | err2 => .err2
  | ignd => .ignd

/-- The current samples have 20 bits, the others 16. -/
def width : AnalogCheck → Nat
  | ovc1 | ovc2 => 20
  | _ => 16

def sample (i : Ports) : (c : AnalogCheck) → BitVec c.width
  | ovc1 => i.dcctAdcs.dcct0
  | ovc2 => i.dcctAdcs.dcct1
  | ovv => i.monAdcs.voltage
  | err1 => i.monAdcs.psError
  | err2 => i.monAdcs.psError
  | ignd => i.monAdcs.ignd

def thresh (p : FaultParamsOnech) : (c : AnalogCheck) → BitVec c.width
  | ovc1 => p.ovc1Thresh
  | ovc2 => p.ovc2Thresh
  | ovv => p.ovvThresh
  | err1 => p.err1Thresh
  | err2 => p.err2Thresh
  | ignd => p.igndThresh

/-- The check is not suppressed: no clear pulse, and for the error checks neither park nor a
setpoint that has just changed. -/
def Armed (s : Regs) (i : Ports) (c : AnalogCheck) : Prop :=
  s.clearPulse = false ∧ ((c = err1 ∨ c = err2) → i.park = false ∧ s.dacChangeFlag = false)

theorem trip_armed {s : Regs} {i : Ports} {c : AnalogCheck} (armed : c.Armed s i) :
    trip s i c.bit = absGe (c.sample i) (c.thresh i.faultParams) := by
  obtain ⟨clear, unsuppressed⟩ := armed
  cases c with
  | err1 =>
      obtain ⟨park, change⟩ := unsuppressed (Or.inl rfl)
      rw [bit, trip, park, change, clear]
      exact Bool.and_true _
  | err2 =>
      obtain ⟨park, change⟩ := unsuppressed (Or.inr rfl)
      rw [bit, trip, park, change, clear]
      exact Bool.and_true _
  | ovc1 =>
      rw [bit, trip, clear]
      exact Bool.and_true _
  | ovc2 =>
      rw [bit, trip, clear]
      exact Bool.and_true _
  | ovv =>
      rw [bit, trip, clear]
      exact Bool.and_true _
  | ignd =>
      rw [bit, trip, clear]
      exact Bool.and_true _

/-- At a tick that does not suppress it, the branch an analog check takes is the one of its
magnitudes if and only if sample and threshold are both the most negative value or neither is. -/
theorem magnitude_exact {s : Regs} {i : Ports} (c : AnalogCheck) (running : i.reset = false)
    (tick : s.tenKhzPulse = true) (armed : c.Armed s i) :
    check c.bit (step s i) = persistStep c.bit.cntWidth (check c.bit s)
        ⟨true, trip s i c.bit, (cntlim i.faultParams c.bit).toNat⟩ ∧
    ((trip s i c.bit = true ↔
        (c.thresh i.faultParams).toInt.natAbs ≤ (c.sample i).toInt.natAbs) ↔
      (c.sample i = BitVec.intMin c.width ↔ c.thresh i.faultParams = BitVec.intMin c.width)) := by
  refine ⟨?_, ?_⟩
  · rw [check_step c.bit s i running, FaultBlock.sample, tick]
  · rw [trip_armed armed]
    exact absGe_exact

/-- A tick at which no check is suppressed. -/
def atTick : Regs := { powerUp with tenKhzPulse := true }

theorem magnitude_exact_at_tick :
    check .ovc1 (step atTick quiet) = persistStep 16 (check .ovc1 atTick) ⟨true, false, 0⟩ ∧
      ((trip atTick quiet .ovc1 = true ↔
          quiet.faultParams.ovc1Thresh.toInt.natAbs ≤ quiet.dcctAdcs.dcct0.toInt.natAbs) ↔
        (quiet.dcctAdcs.dcct0 = BitVec.intMin 20 ↔
          quiet.faultParams.ovc1Thresh = BitVec.intMin 20)) :=
  magnitude_exact .ovc1 rfl rfl ⟨rfl, fun _ => ⟨rfl, rfl⟩⟩

/-- A current reading at the negative end of its range against a threshold of 1. -/
def negativeRail : Ports := { quiet with dcctAdcs := ⟨BitVec.intMin 20, 0⟩ }

theorem negative_rail_not_over :
    ¬ ∀ (c : AnalogCheck) (s : Regs) (i : Ports), i.reset = false → s.tenKhzPulse = true →
      c.Armed s i → (trip s i c.bit = true ↔
        (c.thresh i.faultParams).toInt.natAbs ≤ (c.sample i).toInt.natAbs) := by
  intro magnitudes
  have over_branch :=
    (magnitudes .ovc1 atTick negativeRail rfl rfl ⟨rfl, fun _ => ⟨rfl, rfl⟩⟩).2 (by decide)
  exact absurd over_branch (by decide)

end AnalogCheck

end PscDigpid.Hdl.FaultBlock
