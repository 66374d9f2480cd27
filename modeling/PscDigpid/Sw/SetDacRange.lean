/- Unit: PscDigpid/Sw/SetDacRange
   layer: result
   source: src/sw/src/control.c (Set_dac), src/sw/src/sdcard.c (mshsSelect)
   digest: The codes of requested currents are codes of the DAC. -/

import PscDigpid.Sw.Control
import PscDigpid.Sw.Sdcard

set_option autoImplicit false
set_option relaxedAutoImplicit false

namespace PscDigpid.Sw

open PscDigpid.Hdl (Chan)
open PscDigpid.Num

section Code

variable (chan : BitVec 32) (b : Board)

/-- The code for a requested current. -/
def setDacCode (newSetptAmps : ℚ) : BitVec 32 :=
  toS32 (quotient (saturated chan b newSetptAmps * b.convVoltsToDacBits)
    (scalefactor chan b (·.dacDccts)))

/-- What the smooth and the jump mode do with a code. -/
def passOn (code : BitVec 32) : Option Board :=
  if b.xilIn32 (chanReg chan dacOpmodeReg) = smooth then calcWriteSmooth chan b code
  else some (b.xilOut32 (chanReg chan dacSetptReg) code)

/-- A current in units of a code. -/
def inCodes (amps : ℚ) : ℚ :=
  amps * b.convVoltsToDacBits / scalefactor chan b (·.dacDccts)

end Code

section Code

variable {chan : BitVec 32} {b : Board} {r : Resolution}

theorem setDac_passOn (mode : b.xilIn32 (chanReg chan dacOpmodeReg) = smooth ∨
    b.xilIn32 (chanReg chan dacOpmodeReg) = jump) (amps : ℚ) :
    setDac chan b amps = passOn chan b (setDacCode chan b amps) := by
  rw [setDac_eq, passOn]
  rcases mode with isSmooth | isJump
  · rw [if_pos isSmooth, if_pos isSmooth]
    rfl
  · have apart : ¬ b.xilIn32 (chanReg chan dacOpmodeReg) = smooth := by
      rw [isJump]
      decide
    rw [if_neg apart, if_neg apart, if_pos isJump]
    rfl

theorem saturated_mono (positive : 0 < scalefactor chan b (·.dacDccts)) :
    Monotone (saturated chan b) := by
  intro x y le
  simp only [saturated_eq]
  split_ifs <;> linarith

theorem saturated_bounds (positive : 0 < scalefactor chan b (·.dacDccts)) (amps : ℚ) :
    -10 * scalefactor chan b (·.dacDccts) ≤ saturated chan b amps ∧
      saturated chan b amps ≤ 9.9999 * scalefactor chan b (·.dacDccts) := by
  simp only [saturated_eq]
  split_ifs <;> constructor <;> linarith

/-- Currents in the range are not limited. -/
theorem saturated_inside {amps : ℚ} (low : -10 * scalefactor chan b (·.dacDccts) ≤ amps)
    (high : amps ≤ 9.9999 * scalefactor chan b (·.dacDccts)) : saturated chan b amps = amps := by
  rw [saturated_eq, if_neg (not_lt.2 high), if_neg (not_lt.2 low)]

/-- The limits are inside the range by less than the code beyond it. -/
theorem trunc_inCodes (conv : b.convVoltsToDacBits = r.conv)
    (positive : 0 < scalefactor chan b (·.dacDccts)) (amps : ℚ) :
    r.lo ≤ trunc (inCodes chan b (saturated chan b amps)) ∧
      trunc (inCodes chan b (saturated chan b amps)) ≤ r.hi := by
  obtain ⟨low, high⟩ := saturated_bounds positive amps
  have below : -10 * r.conv ≤ inCodes chan b (saturated chan b amps) := by
    rw [inCodes, conv, le_div_iff₀ positive]
    have scaled := mul_le_mul_of_nonneg_right low r.conv_pos.le
    linarith
  have above : inCodes chan b (saturated chan b amps) ≤ 9.9999 * r.conv := by
    rw [inCodes, conv, div_le_iff₀ positive]
    have scaled := mul_le_mul_of_nonneg_right high r.conv_pos.le
    linarith
  have first := trunc_mono below
  have last := trunc_mono above
  cases r with
  | ms =>
      have lowest : trunc (-10 * Resolution.ms.conv) = -131072 := by decide +kernel
      have highest : trunc (9.9999 * Resolution.ms.conv) = 131070 := by decide +kernel
      rw [lowest] at first
      rw [highest] at last
      exact ⟨first, Int.le_trans last (by decide)⟩
  | hs =>
      have lowest : trunc (-10 * Resolution.hs.conv) = -524288 := by decide +kernel
      have highest : trunc (9.9999 * Resolution.hs.conv) = 524282 := by decide +kernel
      rw [lowest] at first
      rw [highest] at last
      exact ⟨first, Int.le_trans last (by decide)⟩

theorem toInt_setDacCode (conv : b.convVoltsToDacBits = r.conv)
    (positive : 0 < scalefactor chan b (·.dacDccts)) (amps : ℚ) :
    (setDacCode chan b amps).toInt = trunc (inCodes chan b (saturated chan b amps)) := by
  obtain ⟨low, high⟩ := trunc_inCodes conv positive amps
  have limits : -2147483648 ≤ r.lo ∧ r.hi < 2147483648 := by
    cases r <;> decide
  have divides : quotient (saturated chan b amps * b.convVoltsToDacBits)
      (scalefactor chan b (·.dacDccts)) = inCodes chan b (saturated chan b amps) :=
    if_neg (ne_of_gt positive)
  rw [setDacCode, divides]
  exact toInt_toS32 (Int.le_trans limits.1 low) (Int.lt_of_le_of_lt high limits.2)

/-- In the smooth and the jump mode the code that is passed on is one of the DAC, is less than
one away from the current if that is in the range, and never falls when the current rises. -/
theorem setDac_in_range (conv : b.convVoltsToDacBits = r.conv)
    (positive : 0 < scalefactor chan b (·.dacDccts))
    (mode : b.xilIn32 (chanReg chan dacOpmodeReg) = smooth ∨
      b.xilIn32 (chanReg chan dacOpmodeReg) = jump) :
    (∀ amps, setDac chan b amps = passOn chan b (setDacCode chan b amps)) ∧
    (∀ amps, r.lo ≤ (setDacCode chan b amps).toInt ∧ (setDacCode chan b amps).toInt ≤ r.hi) ∧
    (∀ amps, -10 * scalefactor chan b (·.dacDccts) ≤ amps →
      amps ≤ 9.9999 * scalefactor chan b (·.dacDccts) →
      |((setDacCode chan b amps).toInt : ℚ) - inCodes chan b amps| < 1) ∧
    ∀ amps amps', amps ≤ amps' →
      (setDacCode chan b amps).toInt ≤ (setDacCode chan b amps').toInt := by
  refine ⟨setDac_passOn mode, ?_, ?_, ?_⟩
  · intro amps
    rw [toInt_setDacCode conv positive]
    exact trunc_inCodes conv positive amps
  · intro amps low high
    rw [toInt_setDacCode conv positive, saturated_inside low high]
    exact trunc_near _
  · intro x y le
    rw [toInt_setDacCode conv positive, toInt_setDacCode conv positive]
    apply trunc_mono
    rw [inCodes, inCodes, conv]
    apply div_le_div_of_nonneg_right _ positive.le
    exact mul_le_mul_of_nonneg_right (saturated_mono positive le) r.conv_pos.le

end Code

/-- On a board of high resolution with a range of ten amperes. -/
theorem ten_amps_in_range :
    (∀ amps, setDac 1 (mshsSelect 1 blankBoard) amps =
      passOn 1 (mshsSelect 1 blankBoard) (setDacCode 1 (mshsSelect 1 blankBoard) amps)) ∧
    (∀ amps, -524288 ≤ (setDacCode 1 (mshsSelect 1 blankBoard) amps).toInt ∧
      (setDacCode 1 (mshsSelect 1 blankBoard) amps).toInt ≤ 524287) ∧
    (∀ amps, -10 * scalefactor 1 (mshsSelect 1 blankBoard) (·.dacDccts) ≤ amps →
      amps ≤ 9.9999 * scalefactor 1 (mshsSelect 1 blankBoard) (·.dacDccts) →
      |((setDacCode 1 (mshsSelect 1 blankBoard) amps).toInt : ℚ) -
        inCodes 1 (mshsSelect 1 blankBoard) amps| < 1) ∧
    ∀ amps amps', amps ≤ amps' → (setDacCode 1 (mshsSelect 1 blankBoard) amps).toInt ≤
      (setDacCode 1 (mshsSelect 1 blankBoard) amps').toInt :=
  @setDac_in_range 1 (mshsSelect 1 blankBoard) .hs rfl (by decide +kernel)
    (.inl (by decide +kernel))

end PscDigpid.Sw
