/- Unit: PscDigpid/Hdl/PsIo
   layer: model
   source: src/hw/hdl/ps_io.vhd
   digest: How the fabric's parameters follow from the registers. -/

import PscDigpid.Rdl.PlRegs

set_option autoImplicit false
set_option relaxedAutoImplicit false

namespace PscDigpid.Hdl.PsIo

open PscDigpid.Rdl

/-- One channel's fault parameters; no statement drives `dcct_cntlim`. -/
def faultParamsOnech (reg : ChanReg → BitVec 32) (dcctCntlim : BitVec 16) :
    FaultParamsOnech where
  clear := (reg .faultClear).getLsbD 0
  enable := (reg .faultMask).setWidth 16
  ovc1Thresh := (reg .ovc1Thresh).setWidth 20
  ovc2Thresh := (reg .ovc2Thresh).setWidth 20
  ovvThresh := (reg .ovvThresh).setWidth 16
  err1Thresh := (reg .err1Thresh).setWidth 16
  err2Thresh := (reg .err2Thresh).setWidth 16
  igndThresh := (reg .igndThresh).setWidth 16
  ovc1Cntlim := (reg .ovc1Cntlim).setWidth 16
  ovc2Cntlim := (reg .ovc2Cntlim).setWidth 16
  ovvCntlim := (reg .ovvCntlim).setWidth 16
  err1Cntlim := (reg .err1Cntlim).setWidth 16
  err2Cntlim := (reg .err2Cntlim).setWidth 16
  igndCntlim := (reg .igndCntlim).setWidth 16
  dcctCntlim := dcctCntlim
  flt1Cntlim := (reg .flt1Cntlim).setWidth 16
  flt2Cntlim := (reg .flt2Cntlim).setWidth 16
  flt3Cntlim := (reg .flt3Cntlim).setWidth 16
  onCntlim := (reg .onCntlim).setWidth 16
  heartCntlim := (reg .heartbeatCntlim).setWidth 16

/-- The four channels' fault parameters, each from its own registers in the same way. -/
def faultParams (regs : BitVec 32 → BitVec 32) (dcctCntlim : PerChan (BitVec 16)) :
    FaultParams :=
  PerChan.of fun c => faultParamsOnech (fun r => regs (chanAddr c r)) (dcctCntlim.get c)

/-- One channel's DAC controls; `swacc` is which registers software accesses at this clock. -/
def dacCntrlOnech (reg : ChanReg → BitVec 32) (swacc : ChanReg → Bool) : DacCntrlOnech where
  setpoint := (reg .dacSetpt).setWidth 20
  ramprun := swacc .dacRunramp
  ramplen := (reg .dacRamplen).setWidth 16
  gain := (reg .dacSetptGain).setWidth 24
  offset := (reg .dacSetptOffset).setWidth 20
  smoothPhaseinc := reg .dacSmoothPhaseinc
  cntrl := (reg .dacCntrl).setWidth 8
  dpramAddr := (reg .dacRampaddr).setWidth 16
  dpramData := (reg .dacRampdata).setWidth 20
  dpramWe := swacc .dacRampdata
  reset := (reg .dacReset).getLsbD 0
  mode := (reg .dacOpmode).setWidth 2

/-- The four channels' DAC controls; the injection trigger runs the first channel's ramp too. -/
def dacCntrl (regs : BitVec 32 → BitVec 32) (swacc : BitVec 32 → Bool) (injTrig : Bool) :
    PerChan DacCntrlOnech :=
  let own := PerChan.of fun c =>
    dacCntrlOnech (fun r => regs (chanAddr c r)) (fun r => swacc (chanAddr c r))
  { own with ps1 := { own.ps1 with ramprun := own.ps1.ramprun || injTrig } }

section Fields

variable (regs : BitVec 32 → BitVec 32) (swacc : BitVec 32 → Bool) (injTrig : Bool) (c : Chan)

theorem dacCntrl_mode : ((dacCntrl regs swacc injTrig).get c).mode =
    (regs (chanAddr c .dacOpmode)).setWidth 2 := by
  cases c <;> rfl

theorem dacCntrl_setpoint : ((dacCntrl regs swacc injTrig).get c).setpoint =
    (regs (chanAddr c .dacSetpt)).setWidth 20 := by
  cases c <;> rfl

theorem dacCntrl_smoothPhaseinc : ((dacCntrl regs swacc injTrig).get c).smoothPhaseinc =
    regs (chanAddr c .dacSmoothPhaseinc) := by
  cases c <;> rfl

theorem dacCntrl_dpramWe : ((dacCntrl regs swacc injTrig).get c).dpramWe =
    swacc (chanAddr c .dacRampdata) := by
  cases c <;> rfl

theorem dacCntrl_dpramAddr : ((dacCntrl regs swacc injTrig).get c).dpramAddr =
    (regs (chanAddr c .dacRampaddr)).setWidth 16 := by
  cases c <;> rfl

theorem dacCntrl_dpramData : ((dacCntrl regs swacc injTrig).get c).dpramData =
    (regs (chanAddr c .dacRampdata)).setWidth 20 := by
  cases c <;> rfl

end Fields

/-- What software reads as a channel's current setpoint. -/
def dacCurrsetpt (dacSetpt : BitVec 20) : BitVec 32 := dacSetpt.signExtend 32

/-- The four channels' average modes, each from its own register. -/
def aveMode (regs : BitVec 32 → BitVec 32) : PerChan (BitVec 2) :=
  PerChan.of fun c => (regs (chanAddr c .avemode)).setWidth 2

/-- What software reads in a channel's ADC registers; the others are as given. -/
def adcsOnech (dcctAdcs : DcctAdcsAveOnech) (monAdcs : MonAdcsAveOnech)
    (other : ChanReg → BitVec 32) : ChanReg → BitVec 32
  | .dcct0 => dcctAdcs.dcct0
  | .dcct1 => dcctAdcs.dcct1
  | .dacmon => monAdcs.dacmon
  | .volt => monAdcs.voltage
  | .gnd => monAdcs.ignd
  | .spare => monAdcs.spare
  | .reg => monAdcs.psReg
  | .err => monAdcs.psError
  | r => other r

end PscDigpid.Hdl.PsIo
