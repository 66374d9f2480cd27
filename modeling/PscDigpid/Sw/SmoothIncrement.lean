/- Unit: PscDigpid/Sw/SmoothIncrement
   layer: result
   source: src/sw/src/control.c (Calc_WriteSmooth), src/hw/hdl/ps_io.vhd, src/hw/hdl/dac_chan.vhd
   digest: The increment of a smooth ramp goes to an address where the fabric has no register. -/

import PscDigpid.Hdl.DacChan
import PscDigpid.Hdl.PsIo
import PscDigpid.Sw.Control

set_option autoImplicit false
set_option relaxedAutoImplicit false

namespace PscDigpid.Sw

open PscDigpid.Hdl
open PscDigpid.Num

section Links

variable (c : Chan)

/-- The server's table has the setpoint where the register map has it. -/
theorem chanReg_dacSetpt : chanReg (chanNumber c) dacSetptReg = Rdl.chanAddr c .dacSetpt :=
  chanReg_offset c rfl

/-- The map has no register where the server's table has the phase increment. -/
theorem phaseinc_unstored : Rdl.storedWidth (chanReg (chanNumber c) smoothPhaseincReg) = none := by
  cases c <;> decide

end Links

/-- The increment a channel's ramp generator takes with the registers of a board, whatever
else comes to the channel. -/
def smoothPhaseinc (s : DacChan.Regs) (i : DacChan.Ports) (swacc : BitVec 32 → Bool)
    (injTrig : Bool) (c : Chan) (b : Board) : BitVec 32 :=
  (DacChan.smoothPorts s
    { i with dacCntrl := (PsIo.dacCntrl b.regs swacc injTrig).get c }).phaseInc

theorem smoothPhaseinc_eq (s : DacChan.Regs) (i : DacChan.Ports) (swacc : BitVec 32 → Bool)
    (injTrig : Bool) (c : Chan) (b : Board) :
    smoothPhaseinc s i swacc injTrig c b = b.regs (Rdl.chanAddr c .dacSmoothPhaseinc) :=
  PsIo.dacCntrl_smoothPhaseinc b.regs swacc injTrig c

/-- The increment is what the channel's ramp generator uses, and no register but the
increment's and the setpoint's has changed. -/
def IncrementReaches (c : Chan) (value : Nat) (before after : Board) : Prop :=
  (∀ s i swacc injTrig, (smoothPhaseinc s i swacc injTrig c after).toNat = value) ∧
  ∀ addr, addr ≠ Rdl.chanAddr c .dacSmoothPhaseinc → addr ≠ Rdl.chanAddr c .dacSetpt →
    after.regs addr = before.regs addr

/-- What reaches the ramp generator is what the register holds. -/
theorem IncrementReaches.register {c : Chan} {value : Nat} {before after : Board}
    (reaches : IncrementReaches c value before after) :
    (after.regs (Rdl.chanAddr c .dacSmoothPhaseinc)).toNat = value := by
  have shown := reaches.1 DacChan.powerUp ⟨false, false, false,
    (PsIo.dacCntrl before.regs (fun _ => false) false).get c, false, 0, 0, 0, 0⟩ (fun _ => false)
    false
  rw [smoothPhaseinc_eq] at shown
  exact shown

section Write

variable {round : ℚ → ℚ} {c : Chan} {b after : Board} {newSetpt : BitVec 32}

/-- Only the setpoint register is written. -/
theorem calcWriteSmooth_regs
    (written : calcWriteSmoothWith (chanNumber c) b round newSetpt = some after) :
    after.regs = Function.update b.regs (Rdl.chanAddr c .dacSetpt)
      ((newSetpt.setWidth 20).setWidth 32) := by
  have stored : Rdl.storedWidth (Rdl.chanAddr c .dacSetpt) = some 20 :=
    Rdl.storedWidth_chanAddr c rfl
  rw [calcWriteSmoothWith] at written
  by_cases none_left : numSamples (chanNumber c) b round newSetpt = 0
  · rw [if_pos none_left] at written
    exact absurd written (Option.some_ne_none _).symm
  · rw [if_neg none_left] at written
    obtain rfl := Option.some.inj written
    rw [chanReg_dacSetpt, Board.xilOut32_stored _ stored,
      Board.xilOut32_unstored _ (phaseinc_unstored c)]

/-- With a sample to take the new setpoint is always written. -/
theorem calcWriteSmooth_some (samples : 1 ≤ (numSamples (chanNumber c) b round newSetpt).toNat) :
    ∃ after, calcWriteSmoothWith (chanNumber c) b round newSetpt = some after := by
  have some_left : numSamples (chanNumber c) b round newSetpt ≠ 0 := by
    intro none_left
    rw [none_left] at samples
    exact absurd samples (by decide)
  rw [calcWriteSmoothWith, if_neg some_left]
  exact ⟨_, rfl⟩

end Write

/-- The increment reaches the ramp generator exactly when its register held it already;
however the server's arithmetic rounds, nothing but the setpoint register changes. -/
theorem smooth_increment_reaches_iff (round : ℚ → ℚ) (c : Chan) (b : Board) (newSetpt : BitVec 32)
    (samples : 1 ≤ (numSamples (chanNumber c) b round newSetpt).toNat) :
    (∃ after, calcWriteSmoothWith (chanNumber c) b round newSetpt = some after ∧
      IncrementReaches c (421657300 / (numSamples (chanNumber c) b round newSetpt).toNat) b after) ↔
    (b.regs (Rdl.chanAddr c .dacSmoothPhaseinc)).toNat =
      421657300 / (numSamples (chanNumber c) b round newSetpt).toNat := by
  have kept {after : Board}
      (written : calcWriteSmoothWith (chanNumber c) b round newSetpt = some after) :
      after.regs (Rdl.chanAddr c .dacSmoothPhaseinc) =
        b.regs (Rdl.chanAddr c .dacSmoothPhaseinc) := by
    rw [calcWriteSmooth_regs written, Function.update_of_ne (Rdl.chanAddr_ne (by decide))]
  constructor
  · rintro ⟨after, written, reaches⟩
    have shown := reaches.register
    rw [kept written] at shown
    exact shown
  · intro held
    obtain ⟨after, written⟩ := calcWriteSmooth_some samples
    refine ⟨after, written, ?_, ?_⟩
    · intro s i swacc injTrig
      rw [smoothPhaseinc_eq, kept written, held]
    · intro addr _ apart
      rw [calcWriteSmooth_regs written, Function.update_of_ne apart]

/-- A board whose second channel already has the increment of a ramp of one second. -/
def primedBoard : Board :=
  { blankBoard with
    regs := Function.update (fun _ => 0) (Rdl.chanAddr .ps2 .dacSmoothPhaseinc) 42165 }

private theorem primed_samples :
    (numSamples (chanNumber .ps2) primedBoard nearestSingle 52429).toNat = 10000 := by
  decide +kernel

theorem primed_increment_reaches :
    ∃ after, calcWriteSmooth (chanNumber .ps2) primedBoard 52429 = some after ∧
      IncrementReaches .ps2
        (421657300 / (numSamples (chanNumber .ps2) primedBoard nearestSingle 52429).toNat)
        primedBoard after := by
  refine (smooth_increment_reaches_iff nearestSingle .ps2 primedBoard 52429 ?_).2 ?_
  · rw [primed_samples]
    decide
  · rw [primed_samples]
    rfl

/-- On a board without increments a ramp of one second leaves its increment at zero. -/
theorem blank_increment_lost : ¬ ∀ (c : Chan) (b : Board) (newSetpt : BitVec 32),
    0 < scalefactor (chanNumber c) b (·.ampspersec) →
    0 < scalefactor (chanNumber c) b (·.dacDccts) → 0 < b.convVoltsToDacBits →
    1 ≤ (numSamples (chanNumber c) b nearestSingle newSetpt).toNat →
    ∃ after, calcWriteSmooth (chanNumber c) b newSetpt = some after ∧
      IncrementReaches c
        (421657300 / (numSamples (chanNumber c) b nearestSingle newSetpt).toNat) b after := by
  intro reach
  have samples : (numSamples (chanNumber .ps1) blankBoard nearestSingle 52429).toNat = 10000 := by
    decide +kernel
  obtain ⟨after, written, reaches⟩ := reach .ps1 blankBoard 52429 (by decide +kernel)
    (by decide +kernel) (by decide +kernel) (by rw [samples]; decide)
  have value := reaches.register
  rw [calcWriteSmooth_regs written, samples] at value
  exact absurd value (by decide)

end PscDigpid.Sw
