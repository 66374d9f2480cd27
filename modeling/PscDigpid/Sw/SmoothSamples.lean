/- Unit: PscDigpid/Sw/SmoothSamples
   layer: result
   source: src/sw/src/control.c (Calc_WriteSmooth)
   digest: When a smooth ramp has a sample to divide by and an increment that moves it. -/

import PscDigpid.Sw.Control

set_option autoImplicit false
set_option relaxedAutoImplicit false

namespace PscDigpid.Sw

open PscDigpid.Hdl (Chan)
open PscDigpid.Num

section Samples

variable (chan : BitVec 32) (b : Board) (newSetpt : BitVec 32)

/-- How far the setpoint is from the current one. -/
def distance : Nat := (newSetpt - b.xilIn32 (chanReg chan dacCurrsetptReg)).toInt.natAbs

/-- The rate of a ramp in codes a second. -/
def rampRate : ℚ :=
  scalefactor chan b (·.ampspersec) / scalefactor chan b (·.dacDccts) * b.convVoltsToDacBits

/-- There is a sample to divide by, and the increment written is between one and a half turn;
the arithmetic is exact. -/
def RampStarts : Prop :=
  1 ≤ (numSamples chan b id newSetpt).toNat ∧
  ∃ after inc, calcWriteSmoothWith chan b id newSetpt = some after ∧
    after.writes = b.writes ++
      [(chanReg chan smoothPhaseincReg, inc), (chanReg chan dacSetptReg, newSetpt)] ∧
    1 ≤ inc.toNat ∧ inc.toNat ≤ 421657300

/-- The way takes a sample at least, and no more samples than the half turn has steps. -/
def RateFits : Prop :=
  rampRate chan b ≤ 10000 * distance chan b newSetpt ∧
    10000 * distance chan b newSetpt < 421657301 * rampRate chan b

end Samples

section Samples

variable {chan : BitVec 32} {b : Board} {newSetpt : BitVec 32}

theorem numSamples_eq (positive : 0 < scalefactor chan b (·.dacDccts)) :
    numSamples chan b id newSetpt =
      toU32 (quotient (distance chan b newSetpt) (rampRate chan b) * 10000) := by
  have divides : quotient (scalefactor chan b (·.ampspersec)) (scalefactor chan b (·.dacDccts)) =
      scalefactor chan b (·.ampspersec) / scalefactor chan b (·.dacDccts) :=
    if_neg (ne_of_gt positive)
  rw [numSamples]
  simp only [id, divides, sampleRate]
  rfl

/-- The count of samples as the quotient goes to an integer. -/
theorem toNat_numSamples (positive : 0 < scalefactor chan b (·.dacDccts)) :
    ((numSamples chan b id newSetpt).toNat : Int) = max 0 (min
      (trunc (quotient (distance chan b newSetpt) (rampRate chan b) * 10000)) 4294967295) := by
  rw [numSamples_eq positive]
  exact toNat_toU32 _

/-- A negative rate leaves no samples. -/
theorem trunc_quotient_neg {way rate : ℚ} (nonneg : 0 ≤ way) (back : rate < 0) :
    trunc (quotient way rate * 10000) ≤ 0 := by
  have none_left : quotient way rate * 10000 ≤ 0 := by
    rw [quotient, if_neg (ne_of_lt back)]
    have down := div_nonpos_of_nonneg_of_nonpos nonneg back.le
    linarith
  have zero := trunc_mono none_left
  rwa [show trunc 0 = 0 from trunc_natCast 0] at zero

/-- A rate of zero leaves none, or more than there are. -/
theorem trunc_quotient_zero {way : ℚ} (nonneg : 0 ≤ way) :
    trunc (quotient way 0 * 10000) = 0 ∨ 421657301 ≤ trunc (quotient way 0 * 10000) := by
  rw [quotient, if_pos rfl, if_neg (not_lt.2 nonneg)]
  split_ifs
  · right
    have huge : ((421657301 : Int) : ℚ) ≤ 2 ^ 1024 * 10000 :=
      calc ((421657301 : Int) : ℚ) ≤ 2 ^ 32 * 10000 := by norm_num
        _ ≤ 2 ^ 1024 * 10000 :=
          mul_le_mul_of_nonneg_right (pow_le_pow_right₀ (by norm_num) (by norm_num))
            (by norm_num)
    exact (le_trunc_iff (by decide)).2 huge
  · left
    rw [zero_mul]
    exact trunc_natCast 0

/-- At any other a count is reached when the way takes that long. -/
theorem le_trunc_quotient_iff {way rate : ℚ} (forward : 0 < rate) {n : Int} (pos : 0 < n) :
    n ≤ trunc (quotient way rate * 10000) ↔ n * rate ≤ 10000 * way := by
  have value : quotient way rate * 10000 = 10000 * way / rate := by
    rw [quotient, if_neg (ne_of_gt forward)]
    ring
  rw [value, le_trunc_iff pos, le_div_iff₀ forward]

/-- The count of samples, where it is from one to a half turn, says that the way takes that
long; a rate of zero or a negative one gives no such count. -/
theorem samples_iff (positive : 0 < scalefactor chan b (·.dacDccts)) :
    1 ≤ (numSamples chan b id newSetpt).toNat ∧
      (numSamples chan b id newSetpt).toNat ≤ 421657300 ↔ RateFits chan b newSetpt := by
  have count := @toNat_numSamples chan b newSetpt positive
  have way : (0 : ℚ) ≤ distance chan b newSetpt := Nat.cast_nonneg _
  rw [RateFits]
  rcases lt_trichotomy (rampRate chan b) 0 with back | stopped | forward
  · have none_left := trunc_quotient_neg way back
    constructor
    · intro samples
      omega
    · intro fits
      linarith [fits.2]
  · rw [stopped] at count ⊢
    have none_or_all := trunc_quotient_zero way
    constructor
    · intro samples
      omega
    · intro fits
      linarith [fits.2]
  · have one := @le_trunc_quotient_iff (distance chan b newSetpt) _ forward 1 (by decide)
    have more :=
      @le_trunc_quotient_iff (distance chan b newSetpt) _ forward 421657301 (by decide)
    push_cast at one more
    rw [one_mul] at one
    rw [← one, ← not_le, ← more]
    omega

/-- With a sample to take there are two writes, the increment being the quotient. -/
theorem calcWriteSmooth_writes (samples : 1 ≤ (numSamples chan b id newSetpt).toNat) :
    ∃ after inc, calcWriteSmoothWith chan b id newSetpt = some after ∧
      after.writes = b.writes ++
        [(chanReg chan smoothPhaseincReg, inc), (chanReg chan dacSetptReg, newSetpt)] ∧
      inc.toNat = 421657300 / (numSamples chan b id newSetpt).toNat := by
  have some_left : numSamples chan b id newSetpt ≠ 0 := by
    intro none_left
    rw [none_left] at samples
    exact absurd samples (by decide)
  refine ⟨_, _, if_neg some_left, List.append_assoc _ _ _, ?_⟩
  have half : cordicInitPhase.toNat = 421657300 := by decide
  have small := Nat.div_le_self 421657300 (numSamples chan b id newSetpt).toNat
  have value := toNat_toU32 ((cordicInitPhase / numSamples chan b id newSetpt).toNat : ℚ)
  rw [trunc_natCast, BitVec.toNat_udiv, half] at value
  rw [id, BitVec.toNat_udiv, half]
  generalize 421657300 / (numSamples chan b id newSetpt).toNat = steps at small value ⊢
  omega

/-- A ramp can be started exactly when its way fits the rate: ten thousand times the distance
is at least the rate and less than 421657301 times it. -/
theorem ramp_starts_iff_rate (chan : BitVec 32) (b : Board) (newSetpt : BitVec 32)
    (positive : 0 < scalefactor chan b (·.dacDccts)) :
    RampStarts chan b newSetpt ↔ RateFits chan b newSetpt := by
  rw [← samples_iff positive, RampStarts, and_congr_right_iff]
  intro one
  obtain ⟨after, inc, written, writes, value⟩ := calcWriteSmooth_writes one
  constructor
  · rintro ⟨after', inc', written', writes', least, -⟩
    obtain rfl := Option.some.inj (written.symm.trans written')
    rw [writes] at writes'
    obtain rfl : inc = inc' := by simpa using writes'
    rw [value, Nat.le_div_iff_mul_le one, Nat.one_mul] at least
    exact least
  · intro most
    refine ⟨after, inc, written, writes, ?_, ?_⟩
    · rw [value, Nat.le_div_iff_mul_le one, Nat.one_mul]
      exact most
    · rw [value]
      exact Nat.div_le_self _ _

end Samples

/-- A ramp of a second at one ampere a second. -/
theorem one_second_starts : RampStarts 1 blankBoard 52429 := by
  refine (ramp_starts_iff_rate 1 blankBoard 52429 (by decide +kernel)).2 ?_
  unfold RateFits
  decide +kernel

/-- A setpoint that is the current one leaves nothing to divide by. -/
theorem same_setpoint_divides_by_zero : ¬ ∀ c b newSetpt,
    0 < scalefactor (chanNumber c) b (·.ampspersec) →
    0 < scalefactor (chanNumber c) b (·.dacDccts) → RampStarts (chanNumber c) b newSetpt := by
  intro starts
  have one := (starts .ps1 blankBoard 0 (by decide +kernel) (by decide +kernel)).1
  exact absurd one (by decide +kernel)

end PscDigpid.Sw
