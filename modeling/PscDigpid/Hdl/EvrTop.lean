/- Unit: PscDigpid/Hdl/EvrTop
   layer: model
   source: src/hw/hdl/evr_top.vhd, src/hw/hdl/stretch.vhd
   digest: The event receiver: channels at the receiver's clock, synchronisers at the system's. -/

import PscDigpid.Hdl.EventRcvChan
import PscDigpid.Hdl.EventRcvTs
import PscDigpid.Sync.Crossing

set_option autoImplicit false
set_option relaxedAutoImplicit false

namespace PscDigpid.Hdl

namespace Stretch

/-- Registers of `stretch`. -/
structure Regs where
  trigCnt : Nat
  trigStretch : Bool
  prevSigIn : Bool

/-- The reset state, which is also the configured one. -/
def rest : Regs := ⟨0, false, false⟩

/-- One rising clock edge; the end of a pulse comes after its start. -/
def step (len : Nat) (s : Regs) (sigIn : Bool) : Regs where
  prevSigIn := sigIn
  trigStretch :=
    if s.trigStretch && decide (len ≤ s.trigCnt) then false
    else if !s.prevSigIn && sigIn then true
    else s.trigStretch
  trigCnt :=
    if s.trigStretch then if len ≤ s.trigCnt then 0 else s.trigCnt + 1 else s.trigCnt

end Stretch

namespace EvrTop

open PscDigpid.Sync

/-- The event numbers of the channels. -/
structure EvrParams where
  injEventno : BitVec 8
  pmEventno : BitVec 8
  onehzEventno : BitVec 8
  tenhzEventno : BitVec 8
  tenkhzEventno : BitVec 8

/-- What the receiver's clock samples. -/
structure RxPorts where
  sysRst : Bool
  rxdata : BitVec 16
  evrParams : EvrParams

/-- The filter and the pulse for the turn-by-turn trigger. -/
structure TbtRegs where
  prevDatastream : BitVec 4
  tbtTrigI : Bool
  active : Bool
  tbtCnt : BitVec 3
  tbtTrigStretch : Bool

/-- Registers at the receiver's clock. -/
structure RxRegs where
  ts : EventRcvTs.Regs
  eventPm : EventRcvChan.Regs
  event1Hz : EventRcvChan.Regs
  event10Hz : EventRcvChan.Regs
  event10KHz : EventRcvChan.Regs
  eventInj : EventRcvChan.Regs
  tbt : TbtRegs

/-- Three registers in a row, the last one of which is an output. -/
structure Synchronizer where
  sync0 : Bool
  sync1 : Bool
  out : Bool

/-- Registers at the system's clock. -/
structure SysRegs where
  inj : Synchronizer
  onehz : Synchronizer
  saLed : Stretch.Regs
  onehzLed : Stretch.Regs
  injLed : Stretch.Regs

structure Regs where
  rx : RxRegs
  sys : SysRegs

def rxPowerUp : RxRegs where
  ts := EventRcvTs.powerUp
  eventPm := EventRcvChan.rest
  event1Hz := EventRcvChan.rest
  event10Hz := EventRcvChan.rest
  event10KHz := EventRcvChan.rest
  eventInj := EventRcvChan.rest
  tbt := ⟨0, false, false, 0, false⟩

def sysPowerUp : SysRegs where
  inj := ⟨false, false, false⟩
  onehz := ⟨false, false, false⟩
  saLed := Stretch.rest
  onehzLed := Stretch.rest
  injLed := Stretch.rest

section Receiver

variable (i : RxPorts)

def datastream : BitVec 8 := i.rxdata.extractLsb' 8 8

def eventstream : BitVec 8 := i.rxdata.extractLsb' 0 8

/-- The ports of a channel, with a delay of one clock. -/
def chanPorts (eventno : BitVec 8) (width : BitVec 32) : EventRcvChan.Ports where
  reset := i.sysRst
  eventStream := eventstream i
  myEvent := eventno
  myDelay := 1
  myWidth := width
  myPolarity := false

/-- The post mortem pulse is the longest. -/
def pmPorts : EventRcvChan.Ports := chanPorts i i.evrParams.pmEventno 0x175

def onehzPorts : EventRcvChan.Ports := chanPorts i i.evrParams.onehzEventno 12

def tenhzPorts : EventRcvChan.Ports := chanPorts i i.evrParams.tenhzEventno 12

def tenkhzPorts : EventRcvChan.Ports := chanPorts i i.evrParams.tenkhzEventno 12

def injPorts : EventRcvChan.Ports := chanPorts i i.evrParams.injEventno 12

/-- The filter keeps its samples in a reset. -/
def tbtReset (s : TbtRegs) : TbtRegs :=
  { s with tbtTrigI := false, active := false, tbtCnt := 0, tbtTrigStretch := false }

def tbtStep (s : TbtRegs) : TbtRegs :=
  if i.sysRst then tbtReset s
  else
    { prevDatastream := s.prevDatastream.extractLsb' 0 3 ++ (datastream i).extractLsb' 0 1
      tbtTrigI := s.prevDatastream == 1#4
      active := if s.active then s.tbtCnt != 7#3 else s.tbtTrigI
      tbtCnt := if s.active then if s.tbtCnt = 7#3 then 0 else s.tbtCnt + 1 else s.tbtCnt
      tbtTrigStretch :=
        if s.active then if s.tbtCnt = 7#3 then false else s.tbtTrigStretch
        else if s.tbtTrigI then true
        else s.tbtTrigStretch }

/-- One edge of the receiver's clock. -/
def rxStep (s : RxRegs) : RxRegs where
  ts := EventRcvTs.step s.ts ⟨i.sysRst, eventstream i⟩
  eventPm := EventRcvChan.step s.eventPm (pmPorts i)
  event1Hz := EventRcvChan.step s.event1Hz (onehzPorts i)
  event10Hz := EventRcvChan.step s.event10Hz (tenhzPorts i)
  event10KHz := EventRcvChan.step s.event10KHz (tenkhzPorts i)
  eventInj := EventRcvChan.step s.eventInj (injPorts i)
  tbt := tbtStep i s.tbt

end Receiver

/-- What the system's clock samples of the receiver's registers. -/
structure SysPorts where
  sysRst : Bool
  saTrig : Bool
  onehzTrig : Bool
  injTrig : Bool

def Synchronizer.step (s : Synchronizer) (trig : Bool) : Synchronizer := ⟨trig, s.sync0, s.sync1⟩

/-- The LEDs stay on for some 25 ms. -/
def ledLen : Nat := 3000000

/-- One edge of the system's clock; the reset is for the LEDs only. -/
def sysStep (s : SysRegs) (i : SysPorts) : SysRegs where
  inj := s.inj.step i.injTrig
  onehz := s.onehz.step i.onehzTrig
  saLed := if i.sysRst then Stretch.rest else Stretch.step ledLen s.saLed i.saTrig
  onehzLed := if i.sysRst then Stretch.rest else Stretch.step ledLen s.onehzLed s.onehz.out
  injLed := if i.sysRst then Stretch.rest else Stretch.step ledLen s.injLed s.inj.out

/-- The triggers that the registers and the settings show. -/
def sysPorts (s : RxRegs) (i : RxPorts) : SysPorts where
  sysRst := i.sysRst
  saTrig := EventRcvChan.trigger s.event10Hz (tenhzPorts i)
  onehzTrig := EventRcvChan.trigger s.event1Hz (onehzPorts i)
  injTrig := EventRcvChan.trigger s.eventInj (injPorts i)

/-- An edge of one of the two clocks. -/
inductive Edge
  | rx | sys
  deriving DecidableEq

def ledReset (s : SysRegs) : SysRegs :=
  { s with saLed := Stretch.rest, onehzLed := Stretch.rest, injLed := Stretch.rest }

/-- An edge of one clock leaves the registers of the other, but for those whose reset waits for
no clock. -/
def step (s : Regs) (i : Edge × RxPorts) : Regs :=
  match i.1 with
  | .rx => ⟨rxStep i.2 s.rx, if i.2.sysRst then ledReset s.sys else s.sys⟩
  | .sys =>
      ⟨if i.2.sysRst then { s.rx with tbt := tbtReset s.rx.tbt } else s.rx,
        sysStep s.sys (sysPorts s.rx i.2)⟩

def powerUp : Regs := ⟨rxPowerUp, sysPowerUp⟩

end EvrTop

end PscDigpid.Hdl
