/- Unit: PscDigpid/Hdl/DacChan
   layer: model
   source: src/hw/hdl/dac_chan.vhd
   digest: One DAC channel: setpoint sources, correction, loop selection and SPI output. -/

import PscDigpid.Hdl.DacAd5781
import PscDigpid.Hdl.DacGainoffset
import PscDigpid.Hdl.RamptableRamp
import PscDigpid.Hdl.SmoothRamp

set_option autoImplicit false
set_option relaxedAutoImplicit false

namespace PscDigpid.Hdl.DacChan

open PscDigpid.Sync

/-- Input ports of `dac_chan`, and what its block RAM, its CORDIC core and its
floating-point loop put out; no statement drives `fofb_dac_setpt`. -/
structure Ports where
  reset : Bool
  tenkhzTrig : Bool
  dacNumbitsSel : Bool
  dacCntrl : DacCntrlOnech
  digpidEnb : Bool
  controlOut : BitVec 20
  dacRddata : BitVec 20
  cordicDout : BitVec 48
  fofbDacSetpt : BitVec 20

/-- Registers of `dac_chan` and of the components it is made of. -/
structure Regs where
  dacSetptRaw : BitVec 20
  rampmode : RamptableRamp.Regs
  smoothmode : SmoothRamp.Regs
  gainoffDac : DacGainoffset.Regs
  spiDac : DacAd5781.Regs

/-- Every register as the device configures it. -/
def powerUp : Regs where
  dacSetptRaw := 0
  rampmode := RamptableRamp.powerUp
  smoothmode := SmoothRamp.powerUp
  gainoffDac := DacGainoffset.powerUp
  spiDac := DacAd5781.powerUp

def spiClkDiv : Nat := 5

section Wiring

variable (s : Regs) (i : Ports)

def dacSetpt : BitVec 20 := if i.digpidEnb then i.controlOut else s.gainoffDac.dacSetpt

/-- The word for the converter: 20 bits, or the low 18 bits with two zeros after them. -/
def dacData : BitVec 20 :=
  if i.dacNumbitsSel then dacSetpt s i else (dacSetpt s i).extractLsb' 0 18 ++ 0#2

/-- What the mode's source shows. -/
def source (mode : BitVec 2) : BitVec 20 :=
  match mode with
  | 0#2 => s.smoothmode.rampout
  | 1#2 => s.rampmode.rampDacSetpt
  | 2#2 => i.fofbDacSetpt
  | _ => i.dacCntrl.setpoint

def rampPorts : RamptableRamp.Ports where
  reset := i.reset
  tenkhzTrig := i.tenkhzTrig
  dacCntrl := i.dacCntrl
  dacRddata := i.dacRddata

def smoothPorts : SmoothRamp.Ports where
  reset := i.reset
  tenkhzTrig := i.tenkhzTrig
  curSetpt := s.gainoffDac.dacSetpt
  newSetpt := i.dacCntrl.setpoint
  phaseInc := i.dacCntrl.smoothPhaseinc
  cordicDout := i.cordicDout

def gainoffPorts : DacGainoffset.Ports where
  reset := i.reset
  tenkhzTrig := i.tenkhzTrig
  numbitsSel := i.dacNumbitsSel
  dacSetptRaw := s.dacSetptRaw
  dacCntrl := i.dacCntrl

def spiPorts : DacAd5781.Ports where
  reset := i.dacCntrl.reset
  start := s.gainoffDac.done
  dacData := dacData s i
  dacCtrlBits := i.dacCntrl.cntrl.extractLsb' 0 5

/-- One rising clock edge. -/
def step : Regs where
  dacSetptRaw :=
    if i.reset then 0
    else if i.tenkhzTrig then source s i i.dacCntrl.mode
    else s.dacSetptRaw
  rampmode := RamptableRamp.step s.rampmode (rampPorts i)
  smoothmode := SmoothRamp.step s.smoothmode (smoothPorts s i)
  gainoffDac := DacGainoffset.step s.gainoffDac (gainoffPorts s i)
  spiDac := DacAd5781.step spiClkDiv s.spiDac (spiPorts s i)

end Wiring

/-- The raw setpoint is loaded at this clock edge. -/
def Loads (i : Ports) : Prop := i.reset = true ∨ i.tenkhzTrig = true

instance (i : Ports) : Decidable (Loads i) := by unfold Loads; infer_instance

section Runs

variable {s : Regs} {inp : Nat → Ports}

/-- The raw setpoint is what the last load before has left in it. -/
theorem raw_loaded (s : Regs) (inp : Nat → Ports) (t : Nat) :
    (∃ u, u < t ∧ Loads (inp u) ∧ (∀ v, u < v → v < t → ¬ Loads (inp v)) ∧
      (run step s inp t).dacSetptRaw =
        if (inp u).reset then 0
        else source (run step s inp u) (inp u) (inp u).dacCntrl.mode) ∨
    ((∀ u, u < t → ¬ Loads (inp u)) ∧ (run step s inp t).dacSetptRaw = s.dacSetptRaw) := by
  induction t with
  | zero => exact .inr ⟨fun u early => absurd early (Nat.not_lt_zero u), rfl⟩
  | succ t ih =>
      rw [run_succ]
      by_cases loads : Loads (inp t)
      · left
        refine ⟨t, Nat.lt_succ_self t, loads, fun v after before => absurd before (by omega), ?_⟩
        rcases loads with reset | tick
        · simp [step, reset]
        · simp [step, tick]
      · have keeps : (step (run step s inp t) (inp t)).dacSetptRaw =
            (run step s inp t).dacSetptRaw := by
          obtain ⟨running, idle⟩ := not_or.1 loads
          simp [step, running, idle]
        rw [keeps]
        have later {u : Nat} (none_between : ∀ v, u < v → v < t → ¬ Loads (inp v)) (v : Nat)
            (after : u < v) (before : v < t + 1) : ¬ Loads (inp v) := by
          rcases Nat.lt_or_eq_of_le (Nat.le_of_lt_succ before) with earlier | rfl
          · exact none_between v after earlier
          · exact loads
        rcases ih with ⟨u, before, loadsU, between, value⟩ | ⟨never, value⟩
        · exact .inl ⟨u, by omega, loadsU, later between, value⟩
        · refine .inr ⟨?_, value⟩
          intro u before
          rcases Nat.lt_or_eq_of_le (Nat.le_of_lt_succ before) with earlier | rfl
          · exact never u earlier
          · exact loads

/-- The gain and offset unit sees a run of its own. -/
theorem gainoff_run (t : Nat) : (run step s inp t).gainoffDac =
    run DacGainoffset.step s.gainoffDac (fun u => gainoffPorts (run step s inp u) (inp u)) t :=
  run_project (fun s : Regs => s.gainoffDac) gainoffPorts (fun _ => rfl) t

end Runs

end PscDigpid.Hdl.DacChan
