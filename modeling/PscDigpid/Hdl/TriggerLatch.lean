/- Unit: PscDigpid/Hdl/TriggerLatch
   layer: model
   source: src/hw/hdl/ps_io.vhd (trigger inputs, address latch), src/hw/hdl/top.vhd
   digest: The triggers, and the ring's address and the time latched on each. -/

import PscDigpid.Hdl.SnapshotRing

set_option autoImplicit false
set_option relaxedAutoImplicit false

namespace PscDigpid.Hdl.TriggerLatch

open PscDigpid.Sync

/-- The trigger inputs: four of each kind, and one of the event receiver. -/
inductive TrigLine
  | usr (c : Chan) | flt (c : Chan) | err (c : Chan) | inj (c : Chan) | evr
  deriving DecidableEq

/-- What the process reads at one clock edge. -/
structure Ports where
  plReset : Bool
  softtrig : BitVec 8
  testtrig : BitVec 16
  dacCntrl : PerChan DacCntrlOnech
  faultStat : FaultStat
  injTrig : Bool
  tsS : BitVec 32
  tsNs : BitVec 32
  addrPtr : BitVec 32

/-- Registers of the process. -/
structure Regs where
  prev : TrigLine → Bool
  bufptr : TrigLine → BitVec 32
  tsS : TrigLine → BitVec 32
  tsNs : TrigLine → BitVec 32

/-- Every register as the device configures it. -/
def powerUp : Regs where
  prev := fun _ => false
  bufptr := fun _ => 0
  tsS := fun _ => 0
  tsNs := fun _ => 0

/-- A channel's bit among four. -/
def chanBit : Chan → Nat
  | .ps1 => 0
  | .ps2 => 1
  | .ps3 => 2
  | .ps4 => 3

section Step

variable (s : Regs) (i : Ports)

/-- The trigger inputs; an injection runs a channel's only in ramp mode. -/
def trig : TrigLine → Bool
  | .usr c => i.softtrig.getLsbD (chanBit c) || (i.dacCntrl.get c).ramprun
  | .flt c => i.testtrig.getLsbD (chanBit c) || (i.faultStat.get c).fltTrig
  | .err c => i.testtrig.getLsbD (4 + chanBit c) || (i.faultStat.get c).errTrig
  | .inj c => i.testtrig.getLsbD (8 + chanBit c) ||
      (i.injTrig && decide ((i.dacCntrl.get c).mode = 1))
  | .evr => i.testtrig.getLsbD 12

/-- A rising edge, outside reset. -/
def rises (l : TrigLine) : Bool := !i.plReset && (trig i l && !s.prev l)

/-- One rising clock edge. The reset keeps the last inputs and the times. -/
def step : Regs :=
  if i.plReset then { s with bufptr := fun _ => 0 }
  else
    { prev := trig i
      bufptr := fun l => if trig i l && !s.prev l then i.addrPtr else s.bufptr l
      tsS := fun l => if trig i l && !s.prev l then i.tsS else s.tsS l
      tsNs := fun l => if trig i l && !s.prev l then i.tsNs else s.tsNs l }

end Step

section Bus

/-- The address of the register that holds each pointer. -/
def bufptrAddr : TrigLine → BitVec 32
  | .usr c => BitVec.ofNat 32 (0xA20 + 0x10 * chanBit c)
  | .flt c => BitVec.ofNat 32 (0xA60 + 0x10 * chanBit c)
  | .err c => BitVec.ofNat 32 (0xAA0 + 0x10 * chanBit c)
  | .inj c => BitVec.ofNat 32 (0xAE0 + 0x10 * chanBit c)
  | .evr => 0xB20

def lines : List TrigLine :=
  [.usr .ps1, .usr .ps2, .usr .ps3, .usr .ps4, .flt .ps1, .flt .ps2, .flt .ps3, .flt .ps4,
   .err .ps1, .err .ps2, .err .ps3, .err .ps4, .inj .ps1, .inj .ps2, .inj .ps3, .inj .ps4, .evr]

/-- What a read returns at the address of a pointer; 0 stands for other registers. -/
def readBufptr (s : Regs) (addr : BitVec 32) : BitVec 32 :=
  ((lines.find? fun l => bufptrAddr l = addr).map s.bufptr).getD 0

theorem readBufptr_line (s : Regs) (l : TrigLine) : readBufptr s (bufptrAddr l) = s.bufptr l := by
  have found : (lines.find? fun l' => bufptrAddr l' = bufptrAddr l) = some l := by
    cases l with
    | evr => decide
    | _ c => cases c <;> decide
  rw [readBufptr, found]
  rfl

end Bus

/-- The ring's writer and the latch, on one clock and one reset. -/
structure Top where
  ring : Adc2ddr.Capture
  latch : Regs

/-- What comes in from the rest of the design. -/
structure TopPorts where
  adc2ddr : Adc2ddr.Ports
  softtrig : BitVec 8
  testtrig : BitVec 16
  dacCntrl : PerChan DacCntrlOnech
  faultStat : FaultStat
  injTrig : Bool
  tsS : BitVec 32
  tsNs : BitVec 32

namespace Top

variable (s : Top) (i : TopPorts)

/-- The address the writer publishes. -/
def ssAddrPtr : BitVec 32 := s.ring.writer.ssBufStat.addrPtr

def psIo : Ports where
  plReset := i.adc2ddr.reset
  softtrig := i.softtrig
  testtrig := i.testtrig
  dacCntrl := i.dacCntrl
  faultStat := i.faultStat
  injTrig := i.injTrig
  tsS := i.tsS
  tsNs := i.tsNs
  addrPtr := s.ssAddrPtr

/-- One rising clock edge. -/
def step : Top where
  ring := s.ring.step i.adc2ddr
  latch := TriggerLatch.step s.latch (psIo s i)

end Top

section Runs

variable (s : Top) (inp : Nat → TopPorts)

/-- A trigger input rises at clock `t`. -/
def risesAt (l : TrigLine) (t : Nat) : Bool :=
  rises (run Top.step s inp t).latch ((run Top.step s inp t).psIo (inp t)) l

/-- How many records begin before clock `t`. -/
def recordsBegun (t : Nat) : Nat := Adc2ddr.bursts s.ring (fun u => (inp u).adc2ddr) t

end Runs

section Runs

variable {s : Top} {inp : Nat → TopPorts}

theorem run_ring (t : Nat) : (run Top.step s inp t).ring =
    run Adc2ddr.Capture.step s.ring (fun u => (inp u).adc2ddr) t :=
  run_project Top.ring (fun (_ : Top) (i : TopPorts) => i.adc2ddr) (fun _ => rfl) t

/-- A pointer is latched at each edge and kept in between. -/
theorem bufptr_succ (running : ∀ t, (inp t).adc2ddr.reset = false) (l : TrigLine) (t : Nat) :
    (run Top.step s inp (t + 1)).latch.bufptr l =
      if risesAt s inp l t then (run Top.step s inp t).ssAddrPtr
      else (run Top.step s inp t).latch.bufptr l := by
  have live : ((run Top.step s inp t).psIo (inp t)).plReset = false := running t
  rw [risesAt, rises, live, run_succ, Top.step, step, live, if_neg Bool.false_ne_true,
    Bool.not_false, Bool.true_and]
  rfl

theorem bufptr_last (running : ∀ t, (inp t).adc2ddr.reset = false) {l : TrigLine} {t n : Nat}
    (last : LastTick (risesAt s inp l) t n) :
    (run Top.step s inp n).latch.bufptr l = (run Top.step s inp t).ssAddrPtr :=
  latched_last (fun n => (run Top.step s inp n).latch.bufptr l)
    (fun t => (run Top.step s inp t).ssAddrPtr) (bufptr_succ running l) last

theorem bufptr_never (running : ∀ t, (inp t).adc2ddr.reset = false) {l : TrigLine} {n : Nat}
    (never : ∀ v, v < n → risesAt s inp l v = false) :
    (run Top.step s inp n).latch.bufptr l = s.latch.bufptr l :=
  latched_never (fun n => (run Top.step s inp n).latch.bufptr l)
    (fun t => (run Top.step s inp t).ssAddrPtr) (bufptr_succ running l) never

end Runs

end PscDigpid.Hdl.TriggerLatch
