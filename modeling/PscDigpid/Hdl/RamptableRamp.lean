/- Unit: PscDigpid/Hdl/RamptableRamp
   layer: model
   source: src/hw/hdl/ramptable_ramp.vhd
   digest: Playback of a channel's ramp table from block RAM. -/

import Mathlib.Logic.Function.Basic
import PscDigpid.Hdl.PscPkg

set_option autoImplicit false
set_option relaxedAutoImplicit false

namespace PscDigpid.Hdl.RamptableRamp

inductive State
  | idle | runRamp | updateDac
  deriving DecidableEq

/-- Input ports of `ramptable_ramp`, and what the block RAM has on its read port. -/
structure Ports where
  reset : Bool
  tenkhzTrig : Bool
  dacCntrl : DacCntrlOnech
  dacRddata : BitVec 20

/-- Registers of `ramptable_ramp`. -/
structure Regs where
  state : State
  dacRdaddr : BitVec 16
  dacRden : Bool
  rampActive : Bool
  rampDacSetpt : BitVec 20

/-- Every register as the device configures it. -/
def powerUp : Regs where
  state := .idle
  dacRdaddr := 0
  dacRden := false
  rampActive := false
  rampDacSetpt := 0

/-- One rising clock edge. The incremented address is compared in its 16 bits. -/
def step (s : Regs) (i : Ports) : Regs :=
  if i.reset then powerUp
  else
    match s.state with
    | .idle =>
        if i.dacCntrl.ramprun then
          { s with state := .runRamp, dacRdaddr := 0, dacRden := true, rampActive := false }
        else { s with rampActive := false }
    | .runRamp =>
        if i.tenkhzTrig then { s with rampActive := true, dacRden := true, state := .updateDac }
        else s
    | .updateDac =>
        if i.dacCntrl.ramplen.toNat < (s.dacRdaddr + 1).toNat then
          { s with dacRden := false, state := .idle }
        else
          { s with
            dacRden := true
            dacRdaddr := s.dacRdaddr + 1
            rampDacSetpt := i.dacRddata
            rampActive := true
            state := .runRamp }

/-- One clock of the block RAM's write port. -/
def dpramWrite (table : BitVec 16 → BitVec 20) (dacCntrl : DacCntrlOnech) :
    BitVec 16 → BitVec 20 :=
  if dacCntrl.dpramWe then Function.update table dacCntrl.dpramAddr dacCntrl.dpramData else table

end PscDigpid.Hdl.RamptableRamp
