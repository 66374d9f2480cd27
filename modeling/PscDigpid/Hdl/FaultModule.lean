/- Unit: PscDigpid/Hdl/FaultModule
   layer: model
   source: src/hw/hdl/fault_module.vhd
   digest: The four fault blocks behind their port maps, and how far the channels are isolated. -/

import PscDigpid.Hdl.FaultPersistence
import PscDigpid.Hdl.DigioLogic

set_option autoImplicit false
set_option relaxedAutoImplicit false

namespace PscDigpid.Hdl.FaultModule

open PscDigpid.Sync
open FaultBlock (FaultBit)

/-- Input ports of `fault_module`. -/
structure Ports where
  reset : Bool
  tenkhzTrig : Bool
  faultParams : FaultParams
  dcctAdcs : DcctAdcs
  monAdcs : MonAdcs
  dacStat : DacStat
  rcom : BitVec 20
  rsts : BitVec 20

abbrev Regs := PerChan FaultBlock.Regs

def powerUp : Regs := PerChan.of fun _ => FaultBlock.powerUp

section PortMaps

variable (i : Ports)

def ch1Faults : FaultBlock.Ports where
  reset := i.reset
  tenkhzTrig := i.tenkhzTrig
  faultParams := i.faultParams.ps1
  dcctAdcs := i.dcctAdcs.ps1
  monAdcs := i.monAdcs.ps1
  fault1 := i.rsts.getLsbD 1
  fault2 := i.rsts.getLsbD 2
  fault3 := i.rsts.getLsbD 3
  dcctFault := i.rsts.getLsbD 16
  acOnIn := i.rsts.getLsbD 0
  acOnOut := i.rcom.getLsbD 0
  park := i.rcom.getLsbD 16
  dacSetpoint := i.dacStat.ps1.dacSetpt
  evrFltIn := false

/-- The park port of channel 2 is connected to `rcom(16)`. -/
def ch2Faults : FaultBlock.Ports where
  reset := i.reset
  tenkhzTrig := i.tenkhzTrig
  faultParams := i.faultParams.ps2
  dcctAdcs := i.dcctAdcs.ps2
  monAdcs := i.monAdcs.ps2
  fault1 := i.rsts.getLsbD 5
  fault2 := i.rsts.getLsbD 6
  fault3 := i.rsts.getLsbD 7
  dcctFault := i.rsts.getLsbD 17
  acOnIn := i.rsts.getLsbD 4
  acOnOut := i.rcom.getLsbD 4
  park := i.rcom.getLsbD 16
  dacSetpoint := i.dacStat.ps2.dacSetpt
  evrFltIn := false

def ch3Faults : FaultBlock.Ports where
  reset := i.reset
  tenkhzTrig := i.tenkhzTrig
  faultParams := i.faultParams.ps3
  dcctAdcs := i.dcctAdcs.ps3
  monAdcs := i.monAdcs.ps3
  fault1 := i.rsts.getLsbD 9
  fault2 := i.rsts.getLsbD 10
  fault3 := i.rsts.getLsbD 11
  dcctFault := i.rsts.getLsbD 18
  acOnIn := i.rsts.getLsbD 8
  acOnOut := i.rcom.getLsbD 8
  park := i.rcom.getLsbD 18
  dacSetpoint := i.dacStat.ps3.dacSetpt
  evrFltIn := false

def ch4Faults : FaultBlock.Ports where
  reset := i.reset
  tenkhzTrig := i.tenkhzTrig
  faultParams := i.faultParams.ps4
  dcctAdcs := i.dcctAdcs.ps4
  monAdcs := i.monAdcs.ps4
  fault1 := i.rsts.getLsbD 13
  fault2 := i.rsts.getLsbD 14
  fault3 := i.rsts.getLsbD 15
  dcctFault := i.rsts.getLsbD 19
  acOnIn := i.rsts.getLsbD 12
  acOnOut := i.rcom.getLsbD 12
  park := i.rcom.getLsbD 19
  dacSetpoint := i.dacStat.ps4.dacSetpt
  evrFltIn := false

def chFaults : Chan → FaultBlock.Ports
  | .ps1 => ch1Faults i
  | .ps2 => ch2Faults i
  | .ps3 => ch3Faults i
  | .ps4 => ch4Faults i

end PortMaps

/-- One rising clock edge. -/
def step (s : Regs) (i : Ports) : Regs :=
  PerChan.of fun c => FaultBlock.step (s.get c) (chFaults i c)

/-- Output port `fault_stat`. -/
def faultStat (s : Regs) : FaultStat := PerChan.of fun c => FaultBlock.faultStat (s.get c)

@[simp] theorem step_get (s : Regs) (i : Ports) (c : Chan) :
    (step s i).get c = FaultBlock.step (s.get c) (chFaults i c) := PerChan.get_of _ c

/-- One channel of the module runs as a fault block of its own. -/
theorem block_run (c : Chan) (s : Regs) (inp : Nat → Ports) (t : Nat) :
    (run step s inp t).get c =
      run FaultBlock.step (s.get c) (fun u => chFaults (inp u) c) t :=
  run_project (fun s : Regs => s.get c) (fun _ i => chFaults i c) (fun _ => step_get _ _ c) t

/-- Two sets of ports agree on the inputs that belong to channel `c`, under the
bit map of `digio_logic`. -/
structure OwnPortsAgree (c : Chan) (i i' : Ports) : Prop where
  reset : i.reset = i'.reset
  tenkhzTrig : i.tenkhzTrig = i'.tenkhzTrig
  faultParams : i.faultParams.get c = i'.faultParams.get c
  dcctAdcs : i.dcctAdcs.get c = i'.dcctAdcs.get c
  monAdcs : i.monAdcs.get c = i'.monAdcs.get c
  dacStat : i.dacStat.get c = i'.dacStat.get c
  rsts : (DigioLogic.digStat i.rsts).get c = (DigioLogic.digStat i'.rsts).get c
  on : i.rcom.getLsbD (DigioLogic.onBit c) = i'.rcom.getLsbD (DigioLogic.onBit c)
  park : i.rcom.getLsbD (DigioLogic.parkBit c) = i'.rcom.getLsbD (DigioLogic.parkBit c)

/-- The bit of `rcom` at a channel's park port. -/
def parkPort : Chan → Nat
  | .ps1 => 16
  | .ps2 => 16
  | .ps3 => 18
  | .ps4 => 19

/-- Ports that agree on a channel's own inputs differ at its fault block in the
park port at most. -/
private theorem chFaults_of_agree {c : Chan} {i i' : Ports} (agree : OwnPortsAgree c i i') :
    chFaults i c = { chFaults i' c with park := i.rcom.getLsbD (parkPort c) } := by
  obtain ⟨reset, trig, params, dcct, mon, dac, rsts, on, -⟩ := agree
  cases c <;>
    simp only [DigioLogic.digStat, PerChan.get, DigStatOnech.mk.injEq, DigioLogic.onBit] at * <;>
    obtain ⟨acon, flt1, flt2, spare, dcctFlt⟩ := rsts <;>
    simp only [chFaults, ch1Faults, ch2Faults, ch3Faults, ch4Faults, parkPort, reset, trig, params,
      dcct, mon, dac, acon, flt1, flt2, spare, dcctFlt, on]

/-- A fault block hears its park port at a tick outside reset, with no clear
and no setpoint change suppressing the error checks, while the loop error is
over one of its two thresholds. -/
def parkHeard (s : FaultBlock.Regs) (i : FaultBlock.Ports) : Bool :=
  !i.reset && s.tenKhzPulse && !s.dacChangeFlag && !s.clearPulse &&
    (FaultBlock.absGe i.monAdcs.psError i.faultParams.err1Thresh ||
      FaultBlock.absGe i.monAdcs.psError i.faultParams.err2Thresh)

/-- Without the park port in the way, a threshold that is not reached or a
suppressed check leaves the error checks untripped. -/
private theorem unheard_trips {s : FaultBlock.Regs} {i : FaultBlock.Ports}
    (unheard : parkHeard s i = false) (running : i.reset = false) (tick : s.tenKhzPulse = true)
    (p : Bool) :
    (FaultBlock.absGe i.monAdcs.psError i.faultParams.err1Thresh &&
        (!p && !s.dacChangeFlag && !s.clearPulse)) = false ∧
      (FaultBlock.absGe i.monAdcs.psError i.faultParams.err2Thresh &&
        (!p && !s.dacChangeFlag && !s.clearPulse)) = false := by
  revert unheard
  simp only [parkHeard, running, tick]
  cases FaultBlock.absGe i.monAdcs.psError i.faultParams.err1Thresh <;>
    cases FaultBlock.absGe i.monAdcs.psError i.faultParams.err2Thresh <;>
    cases s.dacChangeFlag <;> cases s.clearPulse <;> simp

/-- A fault block that does not hear its park port goes on the same either way. -/
private theorem step_park {s : FaultBlock.Regs} {i : FaultBlock.Ports}
    (unheard : parkHeard s i = false) (p : Bool) :
    FaultBlock.step s { i with park := p } = FaultBlock.step s i := by
  have control : FaultBlock.controlRegs s { i with park := p } = FaultBlock.controlRegs s i := rfl
  have latches (next : FaultBlock.Regs) :
      FaultBlock.faultLatches s { i with park := p } next = FaultBlock.faultLatches s i next := rfl
  unfold FaultBlock.step FaultBlock.mainFaultLogic
  simp only [control, latches]
  split_ifs with reset tick
  · rfl
  · have trips := unheard_trips unheard (by simpa using reset) tick
    have errors (next : FaultBlock.Regs) :
        FaultBlock.errChecks s { i with park := p } next = FaultBlock.errChecks s i next := by
      simp only [FaultBlock.errChecks_eq, trips]
    have checks (next : FaultBlock.Regs) : FaultBlock.tenKhzChecks s { i with park := p } next =
        FaultBlock.tenKhzChecks s i next := by
      simp only [FaultBlock.tenKhzChecks, errors]
      rfl
    rw [checks]
  · rfl

/-- A channel's fault status depends on its own inputs only, except that channel
2 hears the park command of channel 1. -/
theorem channel_isolation (c : Chan) (s s' : Regs) (inp inp' : Nat → Ports)
    (equal : s.get c = s'.get c) (own : ∀ t, OwnPortsAgree c (inp t) (inp' t))
    (park : c = .ps2 → ∀ t,
      parkHeard ((run step s inp t).get c) (chFaults (inp t) c) = true →
      (inp t).rcom.getLsbD 16 = (inp' t).rcom.getLsbD 16) (t : Nat) :
    (faultStat (run step s inp t)).get c = (faultStat (run step s' inp' t)).get c := by
  have same : (run step s inp t).get c = (run step s' inp' t).get c := by
    refine run_related (R := fun z z' : Regs => z.get c = z'.get c) equal ?_ t
    intro t ih
    have ports := chFaults_of_agree (own t)
    rw [step_get, step_get, ← ih]
    cases heard : parkHeard ((run step s inp t).get c) (chFaults (inp t) c) with
    | false =>
        have unheard : parkHeard ((run step s inp t).get c) (chFaults (inp' t) c) = false := by
          rw [ports] at heard
          exact heard
        rw [ports]
        exact step_park unheard _
    | true =>
        have level : (inp t).rcom.getLsbD (parkPort c) = (chFaults (inp' t) c).park := by
          cases c with
          | ps1 => exact (own t).park
          | ps2 => exact park rfl t heard
          | ps3 => exact (own t).park
          | ps4 => exact (own t).park
        rw [ports, level]
  rw [faultStat, faultStat, PerChan.get_of, PerChan.get_of, same]

/-- Every channel ticks at each clock from the fourth on, with its loop error
over threshold 1, and channel 1 is parked or not. -/
def errorHeld (park1 : Bool) : Ports where
  reset := false
  tenkhzTrig := true
  faultParams := PerChan.of fun _ => FaultBlock.quiet.faultParams
  dcctAdcs := PerChan.of fun _ => ⟨0, 0⟩
  monAdcs := PerChan.of fun _ => ⟨0, 0, 1⟩
  dacStat := PerChan.of fun _ => ⟨0⟩
  rcom := if park1 then 0x10000#20 else 0
  rsts := 0xF0000#20

private theorem own_errorHeld {c : Chan} (other : c ≠ .ps1) :
    OwnPortsAgree c (errorHeld false) (errorHeld true) where
  reset := rfl
  tenkhzTrig := rfl
  faultParams := rfl
  dcctAdcs := rfl
  monAdcs := rfl
  dacStat := rfl
  rsts := rfl
  on := by cases c <;> decide
  park := by cases c <;> first | contradiction | decide

theorem channel2_hears_park1 :
    ¬ ∀ (c : Chan) (s s' : Regs) (inp inp' : Nat → Ports), s.get c = s'.get c →
      (∀ t, OwnPortsAgree c (inp t) (inp' t)) →
      ∀ t, (faultStat (run step s inp t)).get c = (faultStat (run step s' inp' t)).get c := by
  intro isolated
  have same := isolated .ps2 powerUp powerUp (fun _ => errorHeld false) (fun _ => errorHeld true)
    rfl (fun _ => own_errorHeld (by decide)) 4
  exact absurd same (by decide)

/-- Channel 3 shows the same fault whether channel 1 is parked or not. -/
theorem channel3_isolated :
    (faultStat (run step powerUp (fun _ => errorHeld false) 4)).get .ps3 =
      (faultStat (run step powerUp (fun _ => errorHeld true) 4)).get .ps3 :=
  channel_isolation .ps3 powerUp powerUp (fun _ => errorHeld false) (fun _ => errorHeld true) rfl
    (fun _ => own_errorHeld (by decide)) (fun same => absurd same (by decide)) 4

end PscDigpid.Hdl.FaultModule
