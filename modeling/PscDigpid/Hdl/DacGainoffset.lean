/- Unit: PscDigpid/Hdl/DacGainoffset
   layer: model
   source: src/hw/hdl/dac_gainoffset.vhd
   digest: Offset, gain and saturation of one channel's DAC setpoint. -/

import Mathlib.Algebra.Ring.Int.Defs
import PscDigpid.Hdl.PscPkg

set_option autoImplicit false
set_option relaxedAutoImplicit false

namespace PscDigpid.Hdl.DacGainoffset

inductive State
  | idle | applyOffsets | applyGains | scale | checkforsat | multDly
  deriving DecidableEq

/-- Input ports of `dac_gainoffset`. -/
structure Ports where
  reset : Bool
  tenkhzTrig : Bool
  numbitsSel : Bool
  dacSetptRaw : BitVec 20
  dacCntrl : DacCntrlOnech

/-- Registers of `dac_gainoffset`. -/
structure Regs where
  state : State
  multdlycnt : BitVec 4
  dacSetptOc : BitVec 20
  dacSetptFs : BitVec 44
  dacSetpt : BitVec 20
  sat : Bool
  done : Bool

/-- Every register as the device configures it. -/
def powerUp : Regs where
  state := .idle
  multdlycnt := 0
  dacSetptOc := 0
  dacSetptFs := 0
  dacSetpt := 0
  sat := false
  done := false

/-- The limit that replaces the setpoint, when it is beyond one: with 20 bits the sign of
the product is compared with that before the gain, with 18 bits its value with the range. -/
def limit (numbitsSel : Bool) (oc setpt : BitVec 20) : Option (BitVec 20) :=
  if numbitsSel then
    if setpt.getLsbD 19 && !oc.getLsbD 19 then some (BitVec.ofInt 20 (2 ^ 19 - 1))
    else if !setpt.getLsbD 19 && oc.getLsbD 19 then some (BitVec.ofInt 20 (-2 ^ 19))
    else none
  else
    if 131071 < setpt.toInt then some (BitVec.ofInt 20 131071)
    else if setpt.toInt < -131072 then some (BitVec.ofInt 20 (-131072))
    else none

/-- One rising clock edge. The reset clears `done` only. -/
def step (s : Regs) (i : Ports) : Regs :=
  if i.reset then { s with done := false }
  else
    match s.state with
    | .idle =>
        { s with
          done := false
          sat := false
          state := if i.tenkhzTrig then .applyOffsets else .idle }
    | .applyOffsets =>
        { s with dacSetptOc := i.dacSetptRaw - i.dacCntrl.offset, state := .applyGains }
    | .applyGains =>
        { s with
          dacSetptFs := s.dacSetptOc.signExtend 44 * i.dacCntrl.gain.signExtend 44
          state := .scale
          multdlycnt := 0 }
    | .scale => { s with dacSetpt := s.dacSetptFs.extractLsb' 20 20, state := .checkforsat }
    | .checkforsat =>
        { s with
          sat := (limit i.numbitsSel s.dacSetptOc s.dacSetpt).isSome || s.sat
          dacSetpt := (limit i.numbitsSel s.dacSetptOc s.dacSetpt).getD s.dacSetpt
          state := .multDly }
    | .multDly =>
        if s.multdlycnt = 6#4 then { s with state := .idle, done := true }
        else { s with multdlycnt := s.multdlycnt + 1 }

/-- A setpoint of 18 bits. -/
def In18 (x : BitVec 20) : Prop := -131072 ≤ x.toInt ∧ x.toInt ≤ 131071

instance (x : BitVec 20) : Decidable (In18 x) := by unfold In18; infer_instance

section Step

variable {s : Regs} {i : Ports}

/-- With 18 bits the check leaves a setpoint of 18 bits. -/
theorem limit_in18 (oc setpt : BitVec 20) : In18 ((limit false oc setpt).getD setpt) := by
  unfold limit
  by_cases above : 131071 < setpt.toInt
  · simp only [Bool.false_eq_true, if_false, if_pos above, Option.getD_some]
    decide
  · by_cases below : setpt.toInt < -131072
    · simp only [Bool.false_eq_true, if_false, if_neg above, if_pos below, Option.getD_some]
      decide
    · simp only [Bool.false_eq_true, if_false, if_neg above, if_neg below, Option.getD_none]
      exact ⟨by omega, by omega⟩

/-- The setpoint changes only when it is scaled and when it is checked. -/
theorem step_keeps (unscaled : s.state ≠ .scale) (unchecked : s.state ≠ .checkforsat) :
    (step s i).dacSetpt = s.dacSetpt := by
  unfold step
  cases reset : i.reset with
  | true => rfl
  | false =>
      cases state : s.state with
      | scale => exact absurd state unscaled
      | checkforsat => exact absurd state unchecked
      | multDly =>
          simp only [Bool.false_eq_true, if_false]
          split <;> rfl
      | _ => rfl

/-- `done` is raised on the way to IDLE and lowered by the first clock there. -/
theorem done_idle (before : s.done = true → s.state = .idle) (done : (step s i).done = true) :
    (step s i).state = .idle := by
  unfold step at done ⊢
  cases reset : i.reset with
  | true => simp [reset] at done
  | false =>
      simp only [reset, Bool.false_eq_true, if_false] at done ⊢
      cases state : s.state with
      | idle => simp [state] at done
      | multDly =>
          simp only [state] at done ⊢
          by_cases full : s.multdlycnt = 6#4
          · rw [if_pos full]
          · rw [if_neg full] at done
            exact absurd ((before done).symm.trans state) (by decide)
      | _ =>
          simp only [state] at done
          exact absurd ((before done).symm.trans state) (by decide)

end Step

end PscDigpid.Hdl.DacGainoffset
