/- Unit: PscDigpid/Hdl/DacCtrlr
   layer: result
   source: src/hw/hdl/dac_ctrlr.vhd
   digest: The four DAC channels in lockstep: no data changes the timing of a channel. -/

import PscDigpid.Hdl.DacChan

set_option autoImplicit false
set_option relaxedAutoImplicit false

namespace PscDigpid.Hdl

namespace DacGainoffset

/-- Where the unit is, without its data. -/
structure Timing where
  state : State
  multdlycnt : BitVec 4
  done : Bool
  deriving DecidableEq

def timing (s : Regs) : Timing := ⟨s.state, s.multdlycnt, s.done⟩

/-- The unit's clock without its data. -/
def timingStep (s : Timing) (reset tenkhzTrig : Bool) : Timing :=
  if reset then { s with done := false }
  else
    match s.state with
    | .idle => { s with done := false, state := if tenkhzTrig then .applyOffsets else .idle }
    | .applyOffsets => { s with state := .applyGains }
    | .applyGains => { s with state := .scale, multdlycnt := 0 }
    | .scale => { s with state := .checkforsat }
    | .checkforsat => { s with state := .multDly }
    | .multDly =>
        if s.multdlycnt = 6#4 then { s with state := .idle, done := true }
        else { s with multdlycnt := s.multdlycnt + 1 }

/-- No data decides where the unit goes. -/
theorem timing_step (s : Regs) (i : Ports) :
    timing (step s i) = timingStep (timing s) i.reset i.tenkhzTrig := by
  rw [step, timingStep]
  cases i.reset with
  | true => rfl
  | false =>
      rw [if_neg Bool.false_ne_true, if_neg Bool.false_ne_true]
      simp only [timing]
      cases s.state with
      | multDly =>
          by_cases full : s.multdlycnt = 6#4
          · simp only [full, if_true]
          · simp only [full, if_false]
      | _ => rfl

end DacGainoffset

namespace DacAd5781

/-- Where the controller is, with its outputs but the data line, without its data. -/
structure Timing where
  presentState : State
  bitCount : Nat
  clkCount : Nat
  initCount : Nat
  setpointSent : Bool
  nSync : Bool
  sclk : Bool
  done : Bool
  deriving DecidableEq

def timing (s : Regs) : Timing :=
  ⟨s.presentState, s.bitCount, s.clkCount, s.initCount, s.setpointSent, s.nSync, s.sclk, s.done⟩

/-- The controller's clock without its data. -/
def timingStep (spiClkDiv : Nat) (s : Timing) (reset start : Bool) : Timing :=
  if reset then
    { s with
      presentState := .idle
      initCount := 0
      sclk := false
      bitCount := 0
      clkCount := 0
      setpointSent := false
      nSync := true }
  else
    match s.presentState with
    | .idle =>
        if start then
          { s with
            done := false
            nSync := true
            presentState := if s.initCount = 0 ∨ s.initCount = 1 then .nSyncZero else .sendCtrlReg }
        else { s with done := false }
    | .sendCtrlReg => { s with setpointSent := false, presentState := .nSyncZero }
    | .sendSetpoint => { s with setpointSent := true, presentState := .nSyncZero }
    | .nSyncZero =>
        if s.clkCount = syncWidth then
          { s with nSync := false, clkCount := 0, sclk := true, presentState := .firstBit }
        else { s with nSync := true, clkCount := s.clkCount + 1 }
    | .firstBit =>
        if s.clkCount = spiClkDiv - 1 then
          { s with
            sclk := false, clkCount := 0, bitCount := s.bitCount + 1, presentState := .sclkLo }
        else { s with sclk := true, clkCount := s.clkCount + 1 }
    | .sclkHi =>
        if s.clkCount = spiClkDiv - 1 then
          if s.bitCount = bits then
            { s with
              initCount := if s.initCount = 2 then 2 else s.initCount + 1
              bitCount := 0
              clkCount := 0
              presentState := .dacDone }
          else
            { s with
              sclk := false, clkCount := 0, bitCount := s.bitCount + 1, presentState := .sclkLo }
        else { s with sclk := true, clkCount := s.clkCount + 1 }
    | .sclkLo =>
        if s.clkCount = spiClkDiv - 1 then
          { s with sclk := true, clkCount := 0, presentState := .sclkHi }
        else { s with sclk := false, clkCount := s.clkCount + 1 }
    | .dacDone =>
        if s.clkCount = syncWidth - 1 then
          if s.setpointSent then
            { s with clkCount := 0, nSync := false, done := true, presentState := .waitSyncLow }
          else { s with clkCount := 0, nSync := true, presentState := .sendSetpoint }
        else { s with nSync := true, clkCount := s.clkCount + 1 }
    | .waitSyncLow =>
        if s.clkCount = syncWidth - 1 then
          { s with clkCount := 0, nSync := false, presentState := .idle }
        else { s with nSync := false, clkCount := s.clkCount + 1 }

/-- The input registers are no part of the timing. -/
theorem timing_shift (spiClkDiv : Nat) (s : Regs) (i : Ports) :
    timing (step spiClkDiv s i) = timing (shift spiClkDiv s i) := rfl

/-- No data decides where the controller goes. -/
theorem timing_step (spiClkDiv : Nat) (s : Regs) (i : Ports) :
    timing (step spiClkDiv s i) = timingStep spiClkDiv (timing s) i.reset i.start := by
  rw [timing_shift, shift, timingStep]
  cases i.reset with
  | true => rfl
  | false =>
      rw [if_neg Bool.false_ne_true, if_neg Bool.false_ne_true]
      simp only [timing]
      cases s.presentState with
      | idle =>
          cases i.start with
          | false => rfl
          | true =>
              by_cases zero : s.initCount = 0
              · simp only [zero, if_true, true_or]
              · by_cases one : s.initCount = 1
                · simp only [one, if_true, or_true, Nat.one_ne_zero, if_false]
                · simp only [zero, one, if_true, if_false, or_self]
      | sendCtrlReg => rfl
      | sendSetpoint => rfl
      | sclkHi =>
          by_cases full : s.clkCount = spiClkDiv - 1
          · by_cases last : s.bitCount = bits
            · simp only [full, last, if_true]
              rfl
            · simp only [full, last, if_true, if_false]
          · simp only [full, if_false]
      | dacDone =>
          by_cases full : s.clkCount = syncWidth - 1
          · by_cases sent : s.setpointSent = true
            · simp only [full, sent, if_true]
            · simp only [full, sent, if_true, Bool.false_eq_true, if_false]
          · simp only [full, if_false]
      | nSyncZero =>
          by_cases full : s.clkCount = syncWidth
          · simp only [full, if_true]
          · simp only [full, if_false]
      | waitSyncLow =>
          by_cases full : s.clkCount = syncWidth - 1
          · simp only [full, if_true]
          · simp only [full, if_false]
      | firstBit =>
          by_cases full : s.clkCount = spiClkDiv - 1
          · simp only [full, if_true]
          · simp only [full, if_false]
      | sclkLo =>
          by_cases full : s.clkCount = spiClkDiv - 1
          · simp only [full, if_true]
          · simp only [full, if_false]

end DacAd5781

namespace DacCtrlr

open PscDigpid.Sync

/-- Input ports of `dac_ctrlr`, and what the block RAM, the CORDIC core and the floating-point
loop of each channel put out. -/
structure Ports where
  reset : Bool
  tenkhzTrig : Bool
  numbitsSel : Bool
  dacCntrl : PerChan DacCntrlOnech
  digpidEnb : PerChan Bool
  controlOut : PerChan (BitVec 20)
  dacRddata : PerChan (BitVec 20)
  cordicDout : PerChan (BitVec 48)
  fofbDacSetpt : PerChan (BitVec 20)

abbrev Regs := PerChan DacChan.Regs

/-- The ports of `dac1` to `dac4`. -/
def dac (i : Ports) (c : Chan) : DacChan.Ports where
  reset := i.reset
  tenkhzTrig := i.tenkhzTrig
  dacNumbitsSel := i.numbitsSel
  dacCntrl := i.dacCntrl.get c
  digpidEnb := i.digpidEnb.get c
  controlOut := i.controlOut.get c
  dacRddata := i.dacRddata.get c
  cordicDout := i.cordicDout.get c
  fofbDacSetpt := i.fofbDacSetpt.get c

/-- One rising clock edge. -/
def step (s : Regs) (i : Ports) : Regs := PerChan.of fun c => DacChan.step (s.get c) (dac i c)

/-- The two sync lines that are wired out. -/
def sync (s : Regs) : Bool × Bool := (s.ps1.spiDac.nSync, s.ps2.spiDac.nSync)

/-- The clock line that is wired out. -/
def sclk (s : Regs) : Bool := s.ps1.spiDac.sclk

/-- Where the two machines of a channel are. -/
def timing (s : DacChan.Regs) : DacGainoffset.Timing × DacAd5781.Timing :=
  (DacGainoffset.timing s.gainoffDac, DacAd5781.timing s.spiDac)

/-- A channel's clock without its data. -/
def timingStep (s : DacGainoffset.Timing × DacAd5781.Timing) (control : Bool × Bool × Bool) :
    DacGainoffset.Timing × DacAd5781.Timing :=
  (DacGainoffset.timingStep s.1 control.1 control.2.1,
    DacAd5781.timingStep DacChan.spiClkDiv s.2 control.2.2 s.1.done)

/-- What decides a channel's timing: the resets and the trigger. -/
def control (i : DacChan.Ports) : Bool × Bool × Bool := (i.reset, i.tenkhzTrig, i.dacCntrl.reset)

section Runs

variable {s : Regs} {inp : Nat → Ports}

theorem timing_step (s : DacChan.Regs) (i : DacChan.Ports) :
    timing (DacChan.step s i) = timingStep (timing s) (control i) := by
  refine Prod.ext ?_ ?_
  · exact DacGainoffset.timing_step s.gainoffDac (DacChan.gainoffPorts s i)
  · exact DacAd5781.timing_step DacChan.spiClkDiv s.spiDac (DacChan.spiPorts s i)

/-- The timing of a channel is a run of its own, of the control inputs alone. -/
theorem timing_run (t : Nat) (c : Chan) : timing ((run step s inp t).get c) =
    run timingStep (timing (s.get c)) (fun u => control (dac (inp u) c)) t := by
  apply run_project (fun s : Regs => timing (s.get c)) (fun _ i => control (dac i c))
  intro t
  rw [step, PerChan.get_of]
  exact timing_step _ _

end Runs

/-- With equal resets, channels that start in the same place are in the same place at every
clock, whatever their data: the lines wired out are those of every channel. -/
theorem spi_lockstep {s : Regs} {inp : Nat → Ports}
    (resets : ∀ t c c', ((inp t).dacCntrl.get c).reset = ((inp t).dacCntrl.get c').reset)
    (start : ∀ c c', timing (s.get c) = timing (s.get c')) (t : Nat) :
    (∀ c c', timing ((run step s inp t).get c) = timing ((run step s inp t).get c')) ∧
      ∀ c, sync (run step s inp t) =
          (((run step s inp t).get c).spiDac.nSync, ((run step s inp t).get c).spiDac.nSync) ∧
        sclk (run step s inp t) = ((run step s inp t).get c).spiDac.sclk := by
  have lockstep (c c' : Chan) :
      timing ((run step s inp t).get c) = timing ((run step s inp t).get c') := by
    rw [timing_run, timing_run, start c c']
    apply run_congr
    intro u _
    rw [control, control, dac, dac, resets u c c']
  refine ⟨lockstep, ?_⟩
  intro c
  have first := congrArg (fun place => place.2) (lockstep .ps1 c)
  have second := congrArg (fun place => place.2) (lockstep .ps2 c)
  refine ⟨Prod.ext ?_ ?_, ?_⟩
  · exact congrArg DacAd5781.Timing.nSync first
  · exact congrArg DacAd5781.Timing.nSync second
  · exact congrArg DacAd5781.Timing.sclk first

/-- Four channels with modes, setpoints and gains of their own. -/
def unlike (t : Nat) : Ports where
  reset := false
  tenkhzTrig := decide (t % 64 = 0)
  numbitsSel := true
  dacCntrl :=
    ⟨⟨5, false, 0, 0x100000, 0, 0, 0, 0, 0, false, false, 3⟩,
     ⟨9, true, 7, 0x7FFFFF, 3, 1, 0x15, 0, 0, false, false, 1⟩,
     ⟨0, false, 0, 0x800000, 0, 0, 0, 0, 0, false, false, 0⟩,
     ⟨1, false, 0, 0, 0, 0, 0, 0, 0, false, false, 2⟩⟩
  digpidEnb := ⟨true, false, false, false⟩
  controlOut := ⟨1, 2, 3, 4⟩
  dacRddata := ⟨0, 0, 0, 0⟩
  cordicDout := ⟨0, 0, 0, 0⟩
  fofbDacSetpt := ⟨0, 0, 0, 0⟩

theorem unlike_lockstep :
    (∀ c c', timing ((run step (PerChan.of fun _ => DacChan.powerUp) unlike 1000).get c) =
        timing ((run step (PerChan.of fun _ => DacChan.powerUp) unlike 1000).get c')) ∧
      ∀ c, sync (run step (PerChan.of fun _ => DacChan.powerUp) unlike 1000) =
          (((run step (PerChan.of fun _ => DacChan.powerUp) unlike 1000).get c).spiDac.nSync,
            ((run step (PerChan.of fun _ => DacChan.powerUp) unlike 1000).get c).spiDac.nSync) ∧
        sclk (run step (PerChan.of fun _ => DacChan.powerUp) unlike 1000) =
          ((run step (PerChan.of fun _ => DacChan.powerUp) unlike 1000).get c).spiDac.sclk := by
  refine spi_lockstep ?_ ?_ 1000
  · intro t c c'
    cases c <;> cases c' <;> rfl
  · intro c c'
    rw [PerChan.get_of, PerChan.get_of]

end DacCtrlr

end PscDigpid.Hdl
