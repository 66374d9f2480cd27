/- Unit: PscDigpid/Hdl/Interlock
   layer: result
   source: src/hw/hdl/top.vhd (fault_gen, dig_io)
   digest: The fault module and the digital outputs in their loop, and the hold of the interlock. -/

import PscDigpid.Hdl.FaultModule

set_option autoImplicit false
set_option relaxedAutoImplicit false

namespace PscDigpid.Hdl.Interlock

open PscDigpid.Sync

/-- What reaches `fault_gen` and `dig_io` from outside their loop. -/
structure Ports where
  reset : Bool
  tenkhzTrig : Bool
  faultParams : FaultParams
  dcctAdcs : DcctAdcs
  monAdcs : MonAdcs
  dacStat : DacStat
  rsts : BitVec 20
  digCntrl : DigCntrl

structure Regs where
  digio : DigioLogic.Regs
  fault : FaultModule.Regs

def powerUp : Regs := ⟨DigioLogic.powerUp, FaultModule.powerUp⟩

section Wiring

variable (s : Regs) (i : Ports)

def digIo : DigioLogic.Ports where
  reset := i.reset
  fault := FaultModule.faultStat s.fault
  rsts := i.rsts
  digCntrl := i.digCntrl

def rcom : BitVec 20 := DigioLogic.rcom s.digio (digIo s i)

def faultGen : FaultModule.Ports where
  reset := i.reset
  tenkhzTrig := i.tenkhzTrig
  faultParams := i.faultParams
  dcctAdcs := i.dcctAdcs
  monAdcs := i.monAdcs
  dacStat := i.dacStat
  rcom := rcom s i
  rsts := i.rsts

end Wiring

/-- One rising clock edge. -/
def step (s : Regs) (i : Ports) : Regs where
  digio := DigioLogic.step s.digio (digIo s i)
  fault := FaultModule.step s.fault (faultGen s i)

/-- The fault block of a channel. -/
def block (s : Regs) (c : Chan) : FaultBlock.Regs := s.fault.get c

/-- The on command of a channel, as it leaves on `rcom`. -/
def onCommand (s : Regs) (i : Ports) (c : Chan) : Bool := (rcom s i).getLsbD (DigioLogic.onBit c)

section Runs

variable (c : Chan) (s : Regs) (inp : Nat → Ports)

/-- The ports of one channel's fault block along a run. -/
def blockPorts (t : Nat) : FaultBlock.Ports :=
  FaultModule.chFaults (faultGen (run step s inp t) (inp t)) c

/-- Inside the loop the fault module runs on what it is given there. -/
theorem fault_run (t : Nat) : (run step s inp t).fault =
    run FaultModule.step s.fault (fun u => faultGen (run step s inp u) (inp u)) t :=
  run_project (fun s : Regs => s.fault) faultGen (fun _ => rfl) t

/-- Inside the loop the digital outputs run on what they are given there. -/
theorem digio_run (t : Nat) : (run step s inp t).digio =
    run DigioLogic.step s.digio (fun u => digIo (run step s inp u) (inp u)) t :=
  run_project (fun s : Regs => s.digio) digIo (fun _ => rfl) t

/-- Each fault block in the loop runs as a fault block of its own. -/
theorem block_run (t : Nat) :
    block (run step s inp t) c = run FaultBlock.step (block s c) (blockPorts c s inp) t := by
  rw [block, fault_run, FaultModule.block_run]
  rfl

theorem blockPorts_reset (t : Nat) : (blockPorts c s inp t).reset = (inp t).reset := by
  cases c <;> rfl

theorem blockPorts_faultParams (t : Nat) :
    (blockPorts c s inp t).faultParams = (inp t).faultParams.get c := by
  cases c <;> rfl

theorem blockPorts_tenkhzTrig (t : Nat) :
    (blockPorts c s inp t).tenkhzTrig = (inp t).tenkhzTrig := by
  cases c <;> rfl

theorem blockPorts_acOnOut (t : Nat) :
    (blockPorts c s inp t).acOnOut = onCommand (run step s inp t) (inp t) c := by
  cases c <;> rfl

theorem blockPorts_acOnIn (t : Nat) :
    (blockPorts c s inp t).acOnIn = ((DigioLogic.digStat (inp t).rsts).get c).acon := by
  cases c <;> rfl

end Runs

/-- The on command is the pulsed request, gated by the channel's masked latches. -/
theorem onCommand_eq (s : Regs) (i : Ports) (c : Chan) : onCommand s i c =
    ((s.digio.get c).chEnable && !((block s c).faultRegLatMask != 0)) := by
  rw [onCommand, rcom, DigioLogic.rcom_onBit, digIo, FaultModule.faultStat, PerChan.get_of]
  rfl

/-- A masked latch that is set gates the on command. -/
theorem onCommand_gated {s : Regs} {c : Chan} {k : Nat}
    (set : (block s c).faultRegLatMask.getLsbD k = true) (i : Ports) : onCommand s i c = false := by
  have nonzero : (block s c).faultRegLatMask ≠ 0 :=
    (bits_ne_zero_iff _).2 ⟨k, BitVec.lt_of_getLsbD set, set⟩
  have gated : ((block s c).faultRegLatMask != 0) = true := bne_iff_ne.2 nonzero
  rw [onCommand_eq, gated, Bool.not_true, Bool.and_false]

/-- Every bit that the latch mask lets through has a latch. -/
theorem masked_latched {k : Nat} (masked : (0x1FEF#16).getLsbD k = true) : k < 13 := by
  by_contra high
  by_cases inside : k < 16
  · have last : k = 13 ∨ k = 14 ∨ k = 15 := by omega
    rcases last with rfl | rfl | rfl <;> exact absurd masked (by decide)
  · rw [BitVec.getLsbD_of_ge _ _ (by omega)] at masked
    contradiction

/-- Interlock hold. A fault bit that is live, not being cleared and enabled
turns the on command off two clocks later, and keeps it off until two clocks
after a clear pulse or a reset or one clock after the bit is disabled. -/
theorem interlock_hold (c : Chan) (k : Nat) (s : Regs) (inp : Nat → Ports) (t u : Nat)
    (masked : (0x1FEF#16).getLsbD k = true)
    (live : (block (run step s inp t) c).faultReg.getLsbD k = true)
    (unclear : (block (run step s inp t) c).clearPulse = false)
    (running : (inp t).reset = false)
    (later : t + 2 ≤ u)
    (held : ∀ v, t < v → v + 2 ≤ u →
      (block (run step s inp v) c).clearPulse = false ∧ (inp v).reset = false)
    (enabled : ∀ v, t ≤ v → v + 1 ≤ u → ((inp v).faultParams.get c).enable.getLsbD k = true) :
    onCommand (run step s inp u) (inp u) c = false := by
  have low : k < 13 := masked_latched masked
  obtain ⟨w, rfl⟩ : ∃ w, u = w + 1 := ⟨u - 1, by omega⟩
  have latched : (block (run step s inp (t + 1)) c).faultRegLat.getLsbD k = true := by
    have unreset : (blockPorts c s inp t).reset = false := by
      rw [blockPorts_reset]
      exact running
    rw [block_run, run_succ, FaultBlock.step_faultRegLat _ _ unreset low, ← block_run, live,
      unclear]
    rfl
  have stays : (block (run step s inp w) c).faultRegLat.getLsbD k = true := by
    rw [block_run] at latched ⊢
    refine FaultBlock.latch_stays ?_ low (by omega) ?_ latched
    · intro v after before
      rw [blockPorts_reset]
      exact (held v (by omega) (by omega)).2
    · intro v after before
      rw [← block_run]
      exact (held v (by omega) (by omega)).1
  refine onCommand_gated (k := k) ?_ _
  rw [block_run, run_succ, FaultBlock.step_faultRegLatMask, ← block_run, blockPorts_faultParams,
    BitVec.getLsbD_and, BitVec.getLsbD_and, masked, stays, enabled w (by omega) (Nat.le_refl _)]
  rfl

/-- Fault input 1 of channel 1 comes and goes again, every bit enabled and every
channel requested on. -/
def fault1Pulse (t : Nat) : Ports where
  reset := false
  tenkhzTrig := true
  faultParams := PerChan.of fun _ => { FaultBlock.quiet.faultParams with enable := 0xFFFF }
  dcctAdcs := PerChan.of fun _ => ⟨0, 0⟩
  monAdcs := PerChan.of fun _ => ⟨0, 0, 0⟩
  dacStat := PerChan.of fun _ => ⟨0⟩
  rsts := if t < 4 then 0xF0002#20 else 0xF0000#20
  digCntrl := PerChan.of fun _ => ⟨true, false, false, false, false⟩

theorem interlock_hold_fault1 :
    onCommand (run step powerUp fault1Pulse 8) (fault1Pulse 8) .ps1 = false := by
  refine interlock_hold .ps1 7 powerUp fault1Pulse 4 8 (by decide) (by decide) (by decide) rfl
    (by decide) ?_ (fun _ _ _ => show (0xFFFF#16).getLsbD 7 = true by decide)
  intro v low high
  have near : v = 5 ∨ v = 6 := by omega
  rcases near with rfl | rfl <;> exact ⟨by decide, rfl⟩

end PscDigpid.Hdl.Interlock
