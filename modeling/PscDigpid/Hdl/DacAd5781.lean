/- Unit: PscDigpid/Hdl/DacAd5781
   layer: model
   source: src/hw/hdl/dac_ad5781.vhd
   digest: SPI controller of one AD5781 converter. -/

import Mathlib.Data.Nat.Init

set_option autoImplicit false
set_option relaxedAutoImplicit false

namespace PscDigpid.Hdl.DacAd5781

inductive State
  | idle | sendCtrlReg | sendSetpoint | nSyncZero | firstBit | sclkLo | sclkHi | dacDone
  | waitSyncLow
  deriving DecidableEq

/-- Input ports of `dac_ad5781`. -/
structure Ports where
  reset : Bool
  start : Bool
  dacData : BitVec 20
  dacCtrlBits : BitVec 5

/-- Registers of `dac_ad5781`. -/
structure Regs where
  presentState : State
  bin2scReg : Bool
  dataInReg : BitVec 20
  shiftReg : BitVec 24
  bitCount : Nat
  clkCount : Nat
  sdoDisReg : Bool
  rbufReg : Bool
  dacTriReg : Bool
  opGndReg : Bool
  initCount : Nat
  setpointSent : Bool
  nSync : Bool
  sclk : Bool
  done : Bool

/-- Every register as the device configures it. -/
def powerUp : Regs where
  presentState := .idle
  bin2scReg := false
  dataInReg := 0
  shiftReg := 0
  bitCount := 0
  clkCount := 0
  sdoDisReg := false
  rbufReg := false
  dacTriReg := false
  opGndReg := false
  initCount := 0
  setpointSent := false
  nSync := false
  sclk := false
  done := false

def syncWidth : Nat := 10

def bits : Nat := 24

def sdo (s : Regs) : Bool := s.shiftReg.getLsbD 23

/-- The frame that writes the converter's control register. -/
def ctrlFrame (s : Regs) : BitVec 24 :=
  0#1 ++ 2#3 ++ 0#10 ++ 0#4 ++ BitVec.ofBool s.sdoDisReg ++ BitVec.ofBool s.bin2scReg ++
    BitVec.ofBool s.dacTriReg ++ BitVec.ofBool s.opGndReg ++ BitVec.ofBool s.rbufReg ++ 0#1

/-- The frame that writes the converter's setpoint. -/
def setpointFrame (s : Regs) : BitVec 24 := 0#1 ++ 1#3 ++ s.dataInReg

/-- The input registers, which follow the data and the control bits. -/
def sample (s : Regs) (i : Ports) : Regs :=
  if i.reset then { s with dataInReg := 0 }
  else
    { s with
      dataInReg := i.dacData
      bin2scReg := i.dacCtrlBits.getLsbD 4
      rbufReg := i.dacCtrlBits.getLsbD 3
      dacTriReg := i.dacCtrlBits.getLsbD 2
      sdoDisReg := i.dacCtrlBits.getLsbD 1
      opGndReg := i.dacCtrlBits.getLsbD 0 }

/-- The shift register's state machine; the frames are formed from the registers
that the clock edge finds. -/
def shift (spiClkDiv : Nat) (s : Regs) (i : Ports) : Regs :=
  if i.reset then
    { s with
      presentState := .idle
      initCount := 0
      sclk := false
      bitCount := 0
      clkCount := 0
      setpointSent := false
      nSync := true
      shiftReg := 0 }
  else
    match s.presentState with
    | .idle =>
        if i.start then
          if s.initCount = 0 then
            { s with
              done := false, nSync := true, shiftReg := 0x400004, presentState := .nSyncZero }
          else if s.initCount = 1 then
            { s with
              done := false, nSync := true, shiftReg := 0x400000, presentState := .nSyncZero }
          else { s with done := false, nSync := true, presentState := .sendCtrlReg }
        else { s with done := false }
    | .sendCtrlReg =>
        { s with shiftReg := ctrlFrame s, setpointSent := false, presentState := .nSyncZero }
    | .sendSetpoint =>
        { s with setpointSent := true, shiftReg := setpointFrame s, presentState := .nSyncZero }
    | .nSyncZero =>
        if s.clkCount = syncWidth then
          { s with nSync := false, clkCount := 0, sclk := true, presentState := .firstBit }
        else { s with nSync := true, clkCount := s.clkCount + 1 }
    | .firstBit =>
        if s.clkCount = spiClkDiv - 1 then
          { s with
            sclk := false, clkCount := 0, bitCount := s.bitCount + 1, presentState := .sclkLo }
        else { s with sclk := true, clkCount := s.clkCount + 1 }
    | .sclkHi =>
        if s.clkCount = spiClkDiv - 1 then
          if s.bitCount = bits then
            { s with
              initCount := if s.initCount = 2 then 2 else s.initCount + 1
              bitCount := 0
              clkCount := 0
              presentState := .dacDone }
          else
            { s with
              sclk := false, clkCount := 0, bitCount := s.bitCount + 1, presentState := .sclkLo }
        else { s with sclk := true, clkCount := s.clkCount + 1 }
    | .sclkLo =>
        if s.clkCount = spiClkDiv - 1 then
          { s with
            sclk := true, clkCount := 0, shiftReg := s.shiftReg <<< 1, presentState := .sclkHi }
        else { s with sclk := false, clkCount := s.clkCount + 1 }
    | .dacDone =>
        if s.clkCount = syncWidth - 1 then
          if s.setpointSent then
            { s with clkCount := 0, nSync := false, done := true, presentState := .waitSyncLow }
          else { s with clkCount := 0, nSync := true, presentState := .sendSetpoint }
        else { s with nSync := true, clkCount := s.clkCount + 1 }
    | .waitSyncLow =>
        if s.clkCount = syncWidth - 1 then
          { s with clkCount := 0, nSync := false, presentState := .idle }
        else { s with nSync := false, clkCount := s.clkCount + 1 }

/-- One rising clock edge: both processes read the registers as the edge finds them. -/
def step (spiClkDiv : Nat) (s : Regs) (i : Ports) : Regs :=
  let t := shift spiClkDiv s i
  let u := sample s i
  { t with
    dataInReg := u.dataInReg
    bin2scReg := u.bin2scReg
    rbufReg := u.rbufReg
    dacTriReg := u.dacTriReg
    sdoDisReg := u.sdoDisReg
    opGndReg := u.opGndReg }

/-- The SPI transfer starts at this clock edge. -/
def Starts (s : Regs) (i : Ports) : Prop :=
  i.reset = false ∧ s.presentState = .idle ∧ i.start = true

/-- A start is what makes the controller leave IDLE. -/
theorem starts_iff (spiClkDiv : Nat) (s : Regs) (i : Ports) (idle : s.presentState = .idle) :
    Starts s i ↔ (step spiClkDiv s i).presentState ≠ .idle := by
  cases reset : i.reset with
  | true => simp [Starts, step, shift, reset]
  | false =>
      cases start : i.start with
      | false => simp [Starts, step, shift, reset, start, idle]
      | true =>
          simp only [Starts, step, shift, reset, start, idle, Bool.false_eq_true, if_false,
            if_true, and_self, true_iff]
          split
          · simp
          · split <;> simp

end PscDigpid.Hdl.DacAd5781
