/- Unit: PscDigpid/Hdl/FaultBlock
   layer: model
   source: src/hw/hdl/fault_block.vhd
   digest: One channel's fault logic, process by process, and its checks as persistence checks. -/

import PscDigpid.Hdl.PscPkg
import PscDigpid.Sync.Bits
import PscDigpid.Sync.Persistence

set_option autoImplicit false
set_option relaxedAutoImplicit false

namespace PscDigpid.Hdl.FaultBlock

open PscDigpid.Sync

/-- Input ports of `fault_block`, sampled at one clock edge. -/
structure Ports where
  reset : Bool
  tenkhzTrig : Bool
  faultParams : FaultParamsOnech
  dcctAdcs : DcctAdcsOnech
  monAdcs : MonAdcsOnech
  fault1 : Bool
  fault2 : Bool
  fault3 : Bool
  dcctFault : Bool
  acOnIn : Bool
  acOnOut : Bool
  park : Bool
  dacSetpoint : BitVec 20
  evrFltIn : Bool
  deriving DecidableEq

/-- Registers of `fault_block`. -/
structure Regs where
  dff0 : Bool
  dff1 : Bool
  dff2 : Bool
  dff3 : Bool
  heartbeat : Bool
  tenKhzPulse : Bool
  ovcFaultCnt1 : BitVec 16
  ovcFaultCnt2 : BitVec 16
  ovvFaultCnt : BitVec 16
  errFaultCnt1 : BitVec 16
  errFaultCnt2 : BitVec 16
  igndFaultCnt : BitVec 16
  onFaultCnt : BitVec 32
  dcctFaultCnt : BitVec 16
  fault1Cnt : BitVec 16
  fault2Cnt : BitVec 16
  fault3Cnt : BitVec 16
  faultReg : BitVec 16
  dacSetpointRegNew : BitVec 20
  dacSetpointRegOld : BitVec 20
  dacChangeFlag : Bool
  re : Bool
  reReg : Bool
  clearPulse : Bool
  faultRegLat : BitVec 16
  faultRegLatMask : BitVec 16
  errorRegMask : BitVec 16
  deriving DecidableEq

/-- Every register as the device configures it. -/
def powerUp : Regs where
  dff0 := false
  dff1 := false
  dff2 := false
  dff3 := false
  heartbeat := false
  tenKhzPulse := false
  ovcFaultCnt1 := 0
  ovcFaultCnt2 := 0
  ovvFaultCnt := 0
  errFaultCnt1 := 0
  errFaultCnt2 := 0
  igndFaultCnt := 0
  onFaultCnt := 0
  dcctFaultCnt := 0
  fault1Cnt := 0
  fault2Cnt := 0
  fault3Cnt := 0
  faultReg := 0
  dacSetpointRegNew := 0
  dacSetpointRegOld := 0
  dacChangeFlag := false
  re := false
  reReg := false
  clearPulse := false
  faultRegLat := 0
  faultRegLatMask := 0
  errorRegMask := 0

/-- `abs(x) >= abs(signed(thresh))`; the most negative value is its own `abs`. -/
def absGe {w : Nat} (x thresh : BitVec w) : Bool := thresh.abs.sle x.abs

/-- The check every fault bit makes at a tick: new counter and live bit. -/
def faultCheck {w : Nat} (trip : Bool) (cntlim cnt : BitVec w) (live : Bool) :
    BitVec w × Bool :=
  if trip then
    if cnt = cntlim then (cnt, true) else (cnt + 1, live)
  else (0, false)

section Processes

-- A process reads the registers `s` and ports `i` before the edge and writes
-- the registers `next` after it.
variable (s : Regs) (i : Ports) (next : Regs)

def maskRegs : Regs :=
  { next with
    faultRegLatMask := 0x1FEF#16 &&& s.faultRegLat &&& i.faultParams.enable
    errorRegMask := 0x0010#16 &&& s.faultReg &&& i.faultParams.enable }

def dacSetpointRegs : Regs :=
  if i.reset then
    { next with dacSetpointRegNew := 0, dacSetpointRegOld := 0 }
  else if i.tenkhzTrig then
    { next with dacSetpointRegNew := i.dacSetpoint, dacSetpointRegOld := s.dacSetpointRegNew }
  else next

def tenKhzPulseRegs : Regs :=
  if i.reset then
    { next with dff0 := false, dff1 := false, tenKhzPulse := false }
  else
    { next with dff0 := i.tenkhzTrig, dff1 := s.dff0, tenKhzPulse := s.dff1 }

/-- The edge detector of the clear command; setting wins over the release. -/
def clearPulseRegs : Regs :=
  { next with
    re := i.faultParams.clear
    reReg := s.re
    clearPulse :=
      if !s.reReg && s.re then true
      else if s.tenKhzPulse then false
      else s.clearPulse }

def heartbeatRegs : Regs :=
  if i.reset then
    { next with dff2 := false, dff3 := false, heartbeat := false }
  else
    { next with dff2 := i.fault2, dff3 := s.dff2, heartbeat := !s.dff2 && s.dff3 }

def dacChangeFlagReg : Regs :=
  if i.reset then { next with dacChangeFlag := false }
  else { next with dacChangeFlag := s.dacSetpointRegNew != s.dacSetpointRegOld }

def ovc1Check : Regs :=
  let r := faultCheck (absGe i.dcctAdcs.dcct0 i.faultParams.ovc1Thresh && !s.clearPulse)
    i.faultParams.ovc1Cntlim s.ovcFaultCnt1 (s.faultReg.getLsbD 0)
  { next with ovcFaultCnt1 := r.1, faultReg := setBit next.faultReg 0 r.2 }

def ovc2Check : Regs :=
  let r := faultCheck (absGe i.dcctAdcs.dcct1 i.faultParams.ovc2Thresh && !s.clearPulse)
    i.faultParams.ovc2Cntlim s.ovcFaultCnt2 (s.faultReg.getLsbD 1)
  { next with ovcFaultCnt2 := r.1, faultReg := setBit next.faultReg 1 r.2 }

def ovvCheck : Regs :=
  let r := faultCheck (absGe i.monAdcs.voltage i.faultParams.ovvThresh && !s.clearPulse)
    i.faultParams.ovvCntlim s.ovvFaultCnt (s.faultReg.getLsbD 2)
  { next with ovvFaultCnt := r.1, faultReg := setBit next.faultReg 2 r.2 }

/-- The two loop error checks share their suppression: in park, or while the
DAC setpoint has just changed, both are cleared. -/
def errChecks : Regs :=
  let cleared : Regs :=
    { next with
      errFaultCnt1 := 0
      errFaultCnt2 := 0
      faultReg := setBit (setBit next.faultReg 3 false) 4 false }
  if !i.park then
    if !s.dacChangeFlag then
      let r1 := faultCheck (absGe i.monAdcs.psError i.faultParams.err1Thresh && !s.clearPulse)
        i.faultParams.err1Cntlim s.errFaultCnt1 (s.faultReg.getLsbD 3)
      let r2 := faultCheck (absGe i.monAdcs.psError i.faultParams.err2Thresh && !s.clearPulse)
        i.faultParams.err2Cntlim s.errFaultCnt2 (s.faultReg.getLsbD 4)
      { next with
        errFaultCnt1 := r1.1
        errFaultCnt2 := r2.1
        faultReg := setBit (setBit next.faultReg 3 r1.2) 4 r2.2 }
    else cleared
  else cleared

def igndCheck : Regs :=
  let r := faultCheck (absGe i.monAdcs.ignd i.faultParams.igndThresh && !s.clearPulse)
    i.faultParams.igndCntlim s.igndFaultCnt (s.faultReg.getLsbD 5)
  { next with igndFaultCnt := r.1, faultReg := setBit next.faultReg 5 r.2 }

def dcctCheck : Regs :=
  let r := faultCheck (!i.dcctFault && !s.clearPulse)
    i.faultParams.dcctCntlim s.dcctFaultCnt (s.faultReg.getLsbD 6)
  { next with dcctFaultCnt := r.1, faultReg := setBit next.faultReg 6 r.2 }

def fault1Check : Regs :=
  let r := faultCheck (i.fault1 && !s.clearPulse)
    i.faultParams.flt1Cntlim s.fault1Cnt (s.faultReg.getLsbD 7)
  { next with fault1Cnt := r.1, faultReg := setBit next.faultReg 7 r.2 }

def fault2Check : Regs :=
  let r := faultCheck (i.fault2 && !s.clearPulse)
    i.faultParams.flt2Cntlim s.fault2Cnt (s.faultReg.getLsbD 8)
  { next with fault2Cnt := r.1, faultReg := setBit next.faultReg 8 r.2 }

def fault3Check : Regs :=
  let r := faultCheck (i.fault3 && !s.clearPulse)
    i.faultParams.flt3Cntlim s.fault3Cnt (s.faultReg.getLsbD 9)
  { next with fault3Cnt := r.1, faultReg := setBit next.faultReg 9 r.2 }

/-- The 32-bit counter is compared with a 16-bit limit. -/
def onCheck : Regs :=
  let r := faultCheck (i.acOnOut && !i.acOnIn && !s.clearPulse)
    (i.faultParams.onCntlim.setWidth 32) s.onFaultCnt (s.faultReg.getLsbD 10)
  { next with onFaultCnt := r.1, faultReg := setBit next.faultReg 10 r.2 }

def tenKhzChecks : Regs :=
  onCheck s i <| fault3Check s i <| fault2Check s i <| fault1Check s i <| dcctCheck s i <|
    igndCheck s i <| errChecks s i <| ovvCheck s i <| ovc2Check s i <| ovc1Check s i next

/-- One turn of the latch loop, on the live bits before the edge. -/
def latchBit (lat : BitVec 16) (k : Nat) : BitVec 16 :=
  if !s.clearPulse then
    if s.faultReg.getLsbD k then setBit lat k true else lat
  else setBit lat k false

def faultLatches : Regs :=
  { next with
    faultReg := setBit next.faultReg 12 i.evrFltIn
    faultRegLat := (List.range 13).foldl (latchBit s) next.faultRegLat }

def mainFaultLogic : Regs :=
  if i.reset then
    { next with
      faultReg := 0
      faultRegLat := 0
      ovcFaultCnt1 := 0
      ovcFaultCnt2 := 0
      ovvFaultCnt := 0
      errFaultCnt1 := 0
      errFaultCnt2 := 0
      igndFaultCnt := 0 }
  else
    faultLatches s i (if s.tenKhzPulse then tenKhzChecks s i next else next)

/-- The processes beside the main fault logic. -/
def controlRegs : Regs :=
  dacChangeFlagReg s i <| heartbeatRegs s i <| clearPulseRegs s i <| tenKhzPulseRegs s i <|
    dacSetpointRegs s i <| maskRegs s i s

end Processes

/-- One rising clock edge. -/
def step (s : Regs) (i : Ports) : Regs := mainFaultLogic s i (controlRegs s i)

/-- The output port `fault_stat`. -/
def faultStat (s : Regs) : FaultStatOnech where
  live := s.faultReg
  lat := s.faultRegLatMask
  fltTrig := s.faultRegLatMask != 0
  errTrig := s.errorRegMask != 0

section Frames

variable (s : Regs) (i : Ports) (next : Regs)

/-- Suppression reads as a third factor of the trip condition: a suppressed
error check does what a check does when its threshold is not reached. -/
theorem errChecks_eq : errChecks s i next =
    let armed := !i.park && !s.dacChangeFlag && !s.clearPulse
    let r1 := faultCheck (absGe i.monAdcs.psError i.faultParams.err1Thresh && armed)
      i.faultParams.err1Cntlim s.errFaultCnt1 (s.faultReg.getLsbD 3)
    let r2 := faultCheck (absGe i.monAdcs.psError i.faultParams.err2Thresh && armed)
      i.faultParams.err2Cntlim s.errFaultCnt2 (s.faultReg.getLsbD 4)
    { next with
      errFaultCnt1 := r1.1
      errFaultCnt2 := r2.1
      faultReg := setBit (setBit next.faultReg 3 r1.2) 4 r2.2 } := by
  cases park : i.park <;> cases change : s.dacChangeFlag <;>
    simp [errChecks, park, change, faultCheck]

end Frames

/-- The registers that steer the main fault logic and are not written by it. -/
structure Control where
  dff0 : Bool
  dff1 : Bool
  dff2 : Bool
  dff3 : Bool
  heartbeat : Bool
  tenKhzPulse : Bool
  dacSetpointRegNew : BitVec 20
  dacSetpointRegOld : BitVec 20
  dacChangeFlag : Bool
  re : Bool
  reReg : Bool
  clearPulse : Bool
  faultRegLatMask : BitVec 16
  errorRegMask : BitVec 16

def control (s : Regs) : Control where
  dff0 := s.dff0
  dff1 := s.dff1
  dff2 := s.dff2
  dff3 := s.dff3
  heartbeat := s.heartbeat
  tenKhzPulse := s.tenKhzPulse
  dacSetpointRegNew := s.dacSetpointRegNew
  dacSetpointRegOld := s.dacSetpointRegOld
  dacChangeFlag := s.dacChangeFlag
  re := s.re
  reReg := s.reReg
  clearPulse := s.clearPulse
  faultRegLatMask := s.faultRegLatMask
  errorRegMask := s.errorRegMask

section Step

variable (s : Regs) (i : Ports) (next : Regs)

private theorem control_tenKhzChecks : control (tenKhzChecks s i next) = control next := by
  simp only [control, tenKhzChecks, ovc1Check, ovc2Check, ovvCheck, errChecks_eq, igndCheck,
    dcctCheck, fault1Check, fault2Check, fault3Check, onCheck]

private theorem control_mainFaultLogic :
    control (mainFaultLogic s i next) = control next := by
  unfold mainFaultLogic
  split_ifs
  · rfl
  · exact control_tenKhzChecks s i next
  · rfl

theorem clear_pulse_eq :
    (if !s.reReg && s.re then true else if s.tenKhzPulse then false else s.clearPulse) =
      (!s.reReg && s.re || !s.tenKhzPulse && s.clearPulse) := by
  cases s.reReg <;> cases s.re <;> cases s.tenKhzPulse <;> rfl

/-- What one edge does to the steering registers. -/
theorem control_step : control (step s i) =
    { dff0 := !i.reset && i.tenkhzTrig
      dff1 := !i.reset && s.dff0
      tenKhzPulse := !i.reset && s.dff1
      dff2 := !i.reset && i.fault2
      dff3 := !i.reset && s.dff2
      heartbeat := !i.reset && (!s.dff2 && s.dff3)
      dacSetpointRegNew :=
        if i.reset then 0 else if i.tenkhzTrig then i.dacSetpoint else s.dacSetpointRegNew
      dacSetpointRegOld :=
        if i.reset then 0 else if i.tenkhzTrig then s.dacSetpointRegNew else s.dacSetpointRegOld
      dacChangeFlag := !i.reset && s.dacSetpointRegNew != s.dacSetpointRegOld
      re := i.faultParams.clear
      reReg := s.re
      clearPulse := !s.reReg && s.re || !s.tenKhzPulse && s.clearPulse
      faultRegLatMask := 0x1FEF#16 &&& s.faultRegLat &&& i.faultParams.enable
      errorRegMask := 0x0010#16 &&& s.faultReg &&& i.faultParams.enable } := by
  rw [step, control_mainFaultLogic, ← clear_pulse_eq]
  cases reset : i.reset <;> cases trig : i.tenkhzTrig <;>
    simp [control, controlRegs, dacChangeFlagReg, heartbeatRegs, clearPulseRegs, tenKhzPulseRegs,
      dacSetpointRegs, maskRegs, reset, trig]

theorem step_dff0 : (step s i).dff0 = (!i.reset && i.tenkhzTrig) :=
  congrArg Control.dff0 (control_step s i)

theorem step_dff1 : (step s i).dff1 = (!i.reset && s.dff0) :=
  congrArg Control.dff1 (control_step s i)

theorem step_tenKhzPulse : (step s i).tenKhzPulse = (!i.reset && s.dff1) :=
  congrArg Control.tenKhzPulse (control_step s i)

theorem step_re : (step s i).re = i.faultParams.clear :=
  congrArg Control.re (control_step s i)

theorem step_reReg : (step s i).reReg = s.re :=
  congrArg Control.reReg (control_step s i)

theorem step_clearPulse : (step s i).clearPulse =
    (!s.reReg && s.re || !s.tenKhzPulse && s.clearPulse) :=
  congrArg Control.clearPulse (control_step s i)

theorem step_faultRegLatMask : (step s i).faultRegLatMask =
    0x1FEF#16 &&& s.faultRegLat &&& i.faultParams.enable :=
  congrArg Control.faultRegLatMask (control_step s i)

/-- Outside reset a trigger is a tick three clocks later. -/
theorem tenKhzPulse_run {s : Regs} {inp : Nat → Ports} (running : ∀ t, (inp t).reset = false)
    (t : Nat) : (run step s inp (t + 3)).tenKhzPulse = (inp t).tenkhzTrig := by
  rw [run_succ, step_tenKhzPulse, run_succ, step_dff1, run_succ, step_dff0, running, running,
    running]
  rfl

end Step

end PscDigpid.Hdl.FaultBlock
