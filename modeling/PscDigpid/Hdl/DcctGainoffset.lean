/- Unit: PscDigpid/Hdl/DcctGainoffset
   layer: model
   source: src/hw/hdl/dcct_gainoffset.vhd
   digest: Offset and gain correction of one channel's DCCT samples. -/

import PscDigpid.Hdl.PscPkg

set_option autoImplicit false
set_option relaxedAutoImplicit false

namespace PscDigpid.Hdl

/-- Calibration of one channel's DCCT samples; gains have 20 fraction bits. -/
structure DcctAdcsParamsOnech where
  dcct0Gain : BitVec 24
  dcct0Offset : BitVec 20
  dcct1Gain : BitVec 24
  dcct1Offset : BitVec 20

structure DcctAdcsParams where
  numbitsSel : Bool
  ps : PerChan DcctAdcsParamsOnech

namespace DcctGainoffset

inductive State
  | idle | applyOffsets | applyGains | multDly
  deriving DecidableEq

/-- Input ports of `dcct_gainoffset`. -/
structure Ports where
  reset : Bool
  convDone : Bool
  dcct0Raw : BitVec 20
  dcct1Raw : BitVec 20
  dcctParams : DcctAdcsParamsOnech

/-- Registers of `dcct_gainoffset`. -/
structure Regs where
  state : State
  convDoneLast : Bool
  multdlycnt : BitVec 4
  dcct0Oc : BitVec 20
  dcct1Oc : BitVec 20
  dcctOut : DcctAdcsOnech
  done : Bool

/-- Every register as the device configures it. -/
def powerUp : Regs where
  state := .idle
  convDoneLast := false
  multdlycnt := 0
  dcct0Oc := 0
  dcct1Oc := 0
  dcctOut := ⟨0, 0⟩
  done := false

/-- The product of a sample and a gain, with the top `fractionBits` bits and all
bits below the sample's width dropped. -/
def fixedMul (a : BitVec 20) (b : BitVec 24) (fractionBits : Nat) : BitVec 20 :=
  let product : BitVec 44 := a.signExtend 44 * b.signExtend 44
  product.extractLsb' (43 - fractionBits - 19) 20

/-- One rising clock edge. The reset clears `done` only. -/
def step (s : Regs) (i : Ports) : Regs :=
  if i.reset then { s with done := false }
  else
    match s.state with
    | .idle =>
        { s with
          done := false
          convDoneLast := i.convDone
          state := if i.convDone && !s.convDoneLast then .applyOffsets else .idle }
    | .applyOffsets =>
        { s with
          dcct0Oc := i.dcct0Raw - i.dcctParams.dcct0Offset
          dcct1Oc := i.dcct1Raw - i.dcctParams.dcct1Offset
          state := .applyGains }
    | .applyGains =>
        { s with
          dcctOut :=
            { dcct0 := fixedMul s.dcct0Oc i.dcctParams.dcct0Gain 4
              dcct1 := fixedMul s.dcct1Oc i.dcctParams.dcct1Gain 4 }
          state := .multDly
          multdlycnt := 0 }
    | .multDly =>
        if s.multdlycnt = 6#4 then { s with state := .idle, done := true }
        else { s with multdlycnt := s.multdlycnt + 1 }

end DcctGainoffset

end PscDigpid.Hdl
