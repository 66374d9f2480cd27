/- Unit: PscDigpid/Hdl/MonGainoffset
   layer: model
   source: src/hw/hdl/mon_gainoffset.vhd
   digest: Offset and gain correction of one channel's monitor samples. -/

import PscDigpid.Hdl.PscPkg

set_option autoImplicit false
set_option relaxedAutoImplicit false

namespace PscDigpid.Hdl

/-- The six readings of a channel's monitor ADC. -/
inductive MonReading
  | dacmon | voltage | ignd | spare | psReg | psError
  deriving DecidableEq

/-- The records of `psc_pkg` that hold one value for each of the readings. -/
structure PerMon (α : Type) where
  dacmon : α
  voltage : α
  ignd : α
  spare : α
  psReg : α
  psError : α
  deriving DecidableEq

def PerMon.get {α : Type} (x : PerMon α) : MonReading → α
  | .dacmon => x.dacmon
  | .voltage => x.voltage
  | .ignd => x.ignd
  | .spare => x.spare
  | .psReg => x.psReg
  | .psError => x.psError

/-- Calibration of one channel's monitor samples; gains have 20 fraction bits. -/
structure MonAdcsParamsOnech where
  offset : PerMon (BitVec 16)
  gain : PerMon (BitVec 24)

namespace MonGainoffset

inductive State
  | idle | applyOffsets | applyGains | multDly
  deriving DecidableEq

/-- Input ports of `mon_gainoffset`; of `mon_adc` it reads the raw samples. -/
structure Ports where
  reset : Bool
  convDone : Bool
  monAdcRaw : PerMon (BitVec 16)
  monParams : MonAdcsParamsOnech

/-- Registers of `mon_gainoffset`; `monOut` has the corrected samples and, in its fields
`_oc`, the differences. -/
structure Regs where
  state : State
  convDoneLast : Bool
  multdlycnt : BitVec 4
  monOutOc : PerMon (BitVec 16)
  monOut : PerMon (BitVec 16)
  done : Bool

/-- Every register as the device configures it. -/
def powerUp : Regs where
  state := .idle
  convDoneLast := false
  multdlycnt := 0
  monOutOc := ⟨0, 0, 0, 0, 0, 0⟩
  monOut := ⟨0, 0, 0, 0, 0, 0⟩
  done := false

/-- The product of a sample and a gain, with the top `fractionBits` bits and all
bits below the sample's width dropped. -/
def fixedMul (a : BitVec 16) (b : BitVec 24) (fractionBits : Nat) : BitVec 16 :=
  let product : BitVec 40 := a.signExtend 40 * b.signExtend 40
  product.extractLsb' (39 - fractionBits - 15) 16

/-- One rising clock edge. The reset clears `done` only. -/
def step (s : Regs) (i : Ports) : Regs :=
  if i.reset then { s with done := false }
  else
    match s.state with
    | .idle =>
        { s with
          done := false
          convDoneLast := i.convDone
          state := if i.convDone && !s.convDoneLast then .applyOffsets else .idle }
    | .applyOffsets =>
        { s with
          monOutOc :=
            { dacmon := i.monAdcRaw.dacmon - i.monParams.offset.dacmon
              voltage := i.monAdcRaw.voltage - i.monParams.offset.voltage
              ignd := i.monAdcRaw.ignd - i.monParams.offset.ignd
              spare := i.monAdcRaw.spare - i.monParams.offset.spare
              psReg := i.monAdcRaw.psReg - i.monParams.offset.psReg
              psError := i.monAdcRaw.psError - i.monParams.offset.psError }
          state := .applyGains }
    | .applyGains =>
        { s with
          monOut :=
            { dacmon := fixedMul s.monOutOc.dacmon i.monParams.gain.dacmon 4
              voltage := fixedMul s.monOutOc.voltage i.monParams.gain.voltage 4
              ignd := fixedMul s.monOutOc.ignd i.monParams.gain.ignd 4
              spare := fixedMul s.monOutOc.spare i.monParams.gain.spare 4
              psReg := fixedMul s.monOutOc.psReg i.monParams.gain.psReg 4
              psError := fixedMul s.monOutOc.psError i.monParams.gain.psError 4 }
          state := .multDly
          multdlycnt := 0 }
    | .multDly =>
        if s.multdlycnt = 6#4 then { s with state := .idle, done := true }
        else { s with multdlycnt := s.multdlycnt + 1 }

end MonGainoffset

end PscDigpid.Hdl
