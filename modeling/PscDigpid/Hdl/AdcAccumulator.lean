/- Unit: PscDigpid/Hdl/AdcAccumulator
   layer: model
   source: src/hw/hdl/adc_accumulator.vhd, src/hw/hdl/adc_accumulator_top.vhd
   digest: The eight averagers of a channel, and those of the four channels. -/

import PscDigpid.Hdl.Average
import PscDigpid.Hdl.PscPkg

set_option autoImplicit false
set_option relaxedAutoImplicit false

namespace PscDigpid.Hdl

open PscDigpid.Sync

/-- The ADC readings of a channel. -/
inductive Reading
  | dcct1 | dcct2 | dacSp | voltMon | gndMon | spareMon | psRegOutput | psError
  deriving DecidableEq

namespace AdcAccumulator

/-- Input ports of `adc_accumulator`. -/
structure Ports where
  reset : Bool
  start : Bool
  mode : BitVec 2
  dcct1In : BitVec 20
  dcct2In : BitVec 20
  dacSpIn : BitVec 16
  voltMonIn : BitVec 16
  gndMonIn : BitVec 16
  spareMonIn : BitVec 16
  psRegOutputIn : BitVec 16
  psErrorIn : BitVec 16

structure Regs where
  averageInst1 : Average.Regs
  averageInst2 : Average.Regs
  averageInst3 : Average.Regs
  averageInst4 : Average.Regs
  averageInst5 : Average.Regs
  averageInst6 : Average.Regs
  averageInst7 : Average.Regs
  averageInst8 : Average.Regs

/-- The ports of one averager; they differ in the data. -/
def averagePorts (i : Ports) (dataIn : BitVec 20) : Average.Ports :=
  ⟨i.reset, i.start, dataIn, i.mode⟩

def step (s : Regs) (i : Ports) : Regs where
  averageInst1 := Average.step s.averageInst1 (averagePorts i i.dcct1In)
  averageInst2 := Average.step s.averageInst2 (averagePorts i i.dcct2In)
  averageInst3 := Average.step s.averageInst3 (averagePorts i (i.dacSpIn.signExtend 20))
  averageInst4 := Average.step s.averageInst4 (averagePorts i (i.voltMonIn.signExtend 20))
  averageInst5 := Average.step s.averageInst5 (averagePorts i (i.gndMonIn.signExtend 20))
  averageInst6 := Average.step s.averageInst6 (averagePorts i (i.spareMonIn.signExtend 20))
  averageInst7 := Average.step s.averageInst7 (averagePorts i (i.psRegOutputIn.signExtend 20))
  averageInst8 := Average.step s.averageInst8 (averagePorts i (i.psErrorIn.signExtend 20))

/-- The averager of a reading. -/
def inst (s : Regs) : Reading → Average.Regs
  | .dcct1 => s.averageInst1
  | .dcct2 => s.averageInst2
  | .dacSp => s.averageInst3
  | .voltMon => s.averageInst4
  | .gndMon => s.averageInst5
  | .spareMon => s.averageInst6
  | .psRegOutput => s.averageInst7
  | .psError => s.averageInst8

/-- The data of a reading, 20 bits wide. -/
def dataIn (i : Ports) : Reading → BitVec 20
  | .dcct1 => i.dcct1In
  | .dcct2 => i.dcct2In
  | .dacSp => i.dacSpIn.signExtend 20
  | .voltMon => i.voltMonIn.signExtend 20
  | .gndMon => i.gndMonIn.signExtend 20
  | .spareMon => i.spareMonIn.signExtend 20
  | .psRegOutput => i.psRegOutputIn.signExtend 20
  | .psError => i.psErrorIn.signExtend 20

theorem inst_step (s : Regs) (i : Ports) (k : Reading) :
    inst (step s i) k = Average.step (inst s k) (averagePorts i (dataIn i k)) := by
  cases k <;> rfl

end AdcAccumulator

namespace AdcAccumulatorTop

/-- Input ports of `adc_accumulator_top`; of the parameters it reads the modes. -/
structure Ports where
  reset : Bool
  start : Bool
  aveMode : PerChan (BitVec 2)
  dcctAdcs : DcctAdcs
  monAdcs : PerChan MonAdcsSnapOnech

abbrev Regs := PerChan AdcAccumulator.Regs

/-- The port map of a channel's accumulator. -/
def portMap (i : Ports) (mode : BitVec 2) (dcctAdcs : DcctAdcsOnech) (monAdcs : MonAdcsSnapOnech) :
    AdcAccumulator.Ports where
  reset := i.reset
  start := i.start
  mode := mode
  dcct1In := dcctAdcs.dcct0
  dcct2In := dcctAdcs.dcct1
  dacSpIn := monAdcs.dacmon
  voltMonIn := monAdcs.voltage
  gndMonIn := monAdcs.ignd
  spareMonIn := monAdcs.spare
  psRegOutputIn := monAdcs.psReg
  psErrorIn := monAdcs.psError

/-- The mode of the fourth channel's accumulator is the first channel's. -/
def ports (i : Ports) : PerChan AdcAccumulator.Ports where
  ps1 := portMap i i.aveMode.ps1 i.dcctAdcs.ps1 i.monAdcs.ps1
  ps2 := portMap i i.aveMode.ps2 i.dcctAdcs.ps2 i.monAdcs.ps2
  ps3 := portMap i i.aveMode.ps3 i.dcctAdcs.ps3 i.monAdcs.ps3
  ps4 := portMap i i.aveMode.ps1 i.dcctAdcs.ps4 i.monAdcs.ps4

def step (s : Regs) (i : Ports) : Regs where
  ps1 := AdcAccumulator.step s.ps1 (ports i).ps1
  ps2 := AdcAccumulator.step s.ps2 (ports i).ps2
  ps3 := AdcAccumulator.step s.ps3 (ports i).ps3
  ps4 := AdcAccumulator.step s.ps4 (ports i).ps4

def dcctAdcsAve (s : AdcAccumulator.Regs) : DcctAdcsAveOnech :=
  ⟨s.averageInst1.avgOut, s.averageInst2.avgOut⟩

def monAdcsAve (s : AdcAccumulator.Regs) : MonAdcsAveOnech :=
  ⟨s.averageInst3.avgOut, s.averageInst4.avgOut, s.averageInst5.avgOut, s.averageInst6.avgOut,
    s.averageInst7.avgOut, s.averageInst8.avgOut⟩

/-- The averager of a channel's reading. -/
def averager (s : Regs) (c : Chan) (k : Reading) : Average.Regs := AdcAccumulator.inst (s.get c) k

/-- What comes to it. -/
def averagerPorts (c : Chan) (k : Reading) (i : Ports) : Average.Ports :=
  AdcAccumulator.averagePorts ((ports i).get c) (AdcAccumulator.dataIn ((ports i).get c) k)

/-- Each averager runs by itself. -/
theorem averager_run (s : Regs) (inp : Nat → Ports) (c : Chan) (k : Reading) (t : Nat) :
    averager (run step s inp t) c k =
      run Average.step (averager s c k) (fun u => averagerPorts c k (inp u)) t := by
  apply run_project (fun s => averager s c k) fun _ i => averagerPorts c k i
  intro t
  cases c <;> exact AdcAccumulator.inst_step _ _ k

/-- The channel whose mode an accumulator is wired to. -/
def modeChan : Chan → Chan
  | .ps4 => .ps1
  | c => c

theorem averagerPorts_fields (c : Chan) (k : Reading) (i : Ports) :
    (averagerPorts c k i).reset = i.reset ∧
      (averagerPorts c k i).sel = i.aveMode.get (modeChan c) := by
  cases c <;> exact ⟨rfl, rfl⟩

end AdcAccumulatorTop

end PscDigpid.Hdl
