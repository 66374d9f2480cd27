/- Unit: PscDigpid/Hdl/PscPkg
   layer: model
   source: src/hw/hdl/psc_pkg.vhd
   digest: Records of the power supply controller that its channels exchange. -/

import Mathlib.Data.Nat.Init

set_option autoImplicit false
set_option relaxedAutoImplicit false

namespace PscDigpid.Hdl

/-- The four power supply channels. -/
inductive Chan
  | ps1 | ps2 | ps3 | ps4
  deriving DecidableEq

/-- The records of `psc_pkg` that hold one value for each channel. -/
structure PerChan (α : Type) where
  ps1 : α
  ps2 : α
  ps3 : α
  ps4 : α
  deriving DecidableEq

namespace PerChan

variable {α β : Type}

def get (x : PerChan α) : Chan → α
  | .ps1 => x.ps1
  | .ps2 => x.ps2
  | .ps3 => x.ps3
  | .ps4 => x.ps4

/-- The record whose field for each channel is given by a function. -/
def of (f : Chan → α) : PerChan α := ⟨f .ps1, f .ps2, f .ps3, f .ps4⟩

@[simp] theorem get_of (f : Chan → α) (c : Chan) : (of f).get c = f c := by
  cases c <;> rfl

end PerChan

structure DigCntrlOnech where
  on1 : Bool
  on2 : Bool
  reset : Bool
  spare : Bool
  park : Bool
  deriving DecidableEq

abbrev DigCntrl := PerChan DigCntrlOnech

structure DigStatOnech where
  acon : Bool
  flt1 : Bool
  flt2 : Bool
  spare : Bool
  dcctFlt : Bool
  deriving DecidableEq

abbrev DigStat := PerChan DigStatOnech

/-- Fault control parameters of one channel. -/
structure FaultParamsOnech where
  clear : Bool
  enable : BitVec 16
  ovc1Thresh : BitVec 20
  ovc2Thresh : BitVec 20
  ovvThresh : BitVec 16
  err1Thresh : BitVec 16
  err2Thresh : BitVec 16
  igndThresh : BitVec 16
  ovc1Cntlim : BitVec 16
  ovc2Cntlim : BitVec 16
  ovvCntlim : BitVec 16
  err1Cntlim : BitVec 16
  err2Cntlim : BitVec 16
  igndCntlim : BitVec 16
  dcctCntlim : BitVec 16
  flt1Cntlim : BitVec 16
  flt2Cntlim : BitVec 16
  flt3Cntlim : BitVec 16
  onCntlim : BitVec 16
  heartCntlim : BitVec 16
  deriving DecidableEq

abbrev FaultParams := PerChan FaultParamsOnech

structure FaultStatOnech where
  live : BitVec 16
  lat : BitVec 16
  fltTrig : Bool
  errTrig : Bool
  deriving DecidableEq

abbrev FaultStat := PerChan FaultStatOnech

structure DcctAdcsOnech where
  dcct0 : BitVec 20
  dcct1 : BitVec 20
  deriving DecidableEq

abbrev DcctAdcs := PerChan DcctAdcsOnech

structure DcctAdcsAveOnech where
  dcct0 : BitVec 32
  dcct1 : BitVec 32
  deriving DecidableEq

/-- The monitor channels the fault checks read. -/
structure MonAdcsOnech where
  voltage : BitVec 16
  ignd : BitVec 16
  psError : BitVec 16
  deriving DecidableEq

abbrev MonAdcs := PerChan MonAdcsOnech

structure MonAdcsAveOnech where
  dacmon : BitVec 32
  voltage : BitVec 32
  ignd : BitVec 32
  spare : BitVec 32
  psReg : BitVec 32
  psError : BitVec 32
  deriving DecidableEq

structure DacStatOnech where
  dacSetpt : BitVec 20
  deriving DecidableEq

abbrev DacStat := PerChan DacStatOnech

/-- The monitor channels the snapshots take, with those the fault checks read. -/
structure MonAdcsSnapOnech extends MonAdcsOnech where
  dacmon : BitVec 16
  spare : BitVec 16
  psReg : BitVec 16
  deriving DecidableEq

/-- What the snapshots take of the first channel's control loop. -/
structure PidStatOnech where
  errorF : BitVec 32
  setptout : BitVec 20
  deriving DecidableEq

/-- What the ring writer tells the processor: where the last record begins, and its count. -/
structure SnapshotStat where
  addrPtr : BitVec 32
  tenkhzcnt : BitVec 32
  deriving DecidableEq

/-- The signals of the snapshot port that its master drives. -/
structure PlSnapshotAxi4M2s where
  awaddr : BitVec 32
  awburst : BitVec 2
  awcache : BitVec 4
  awlen : BitVec 8
  awlock : BitVec 1
  awprot : BitVec 3
  awqos : BitVec 4
  awsize : BitVec 3
  awvalid : Bool
  wdata : BitVec 32
  wlast : Bool
  wstrb : BitVec 4
  wvalid : Bool
  bready : Bool
  deriving DecidableEq

/-- The signals of the snapshot port that its slave drives. -/
structure PlSnapshotAxi4S2m where
  awready : Bool
  wready : Bool
  bvalid : Bool
  deriving DecidableEq

/-- Controls of one DAC channel; the gain has 20 fraction bits. -/
structure DacCntrlOnech where
  setpoint : BitVec 20
  ramprun : Bool
  ramplen : BitVec 16
  gain : BitVec 24
  offset : BitVec 20
  smoothPhaseinc : BitVec 32
  cntrl : BitVec 8
  dpramAddr : BitVec 16
  dpramData : BitVec 20
  dpramWe : Bool
  reset : Bool
  mode : BitVec 2
  deriving DecidableEq

end PscDigpid.Hdl
