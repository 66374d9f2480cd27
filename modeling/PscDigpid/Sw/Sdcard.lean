/- Unit: PscDigpid/Sw/Sdcard
   layer: model
   source: src/sw/src/sdcard.c (mshsSelect), src/sw/src/local.h
   digest: The choice between a DAC of 18 bits and one of 20. -/

import PscDigpid.Sw.Board

set_option autoImplicit false
set_option relaxedAutoImplicit false

namespace PscDigpid.Sw

def convVoltsTo18Bits : ℚ := 13107.2

def convVoltsTo20Bits : ℚ := 52428.8

/-- Medium resolution, 18 bits, and high resolution, 20 bits. -/
inductive Resolution
  | ms | hs
  deriving DecidableEq

namespace Resolution

def code : Resolution → BitVec 32
  | .ms => 0
  | .hs => 1

def conv : Resolution → ℚ
  | .ms => convVoltsTo18Bits
  | .hs => convVoltsTo20Bits

/-- The least code of the DAC. -/
def lo : Resolution → Int
  | .ms => -131072
  | .hs => -524288

/-- The greatest code of the DAC. -/
def hi : Resolution → Int
  | .ms => 131071
  | .hs => 524287

theorem conv_pos (r : Resolution) : 0 < r.conv := by
  cases r <;> norm_num [conv, convVoltsTo18Bits, convVoltsTo20Bits]

end Resolution

def mshsSelect (pscResolution : BitVec 32) (b : Board) : Board :=
  let written := b.xilOut32 resolutionReg pscResolution
  if pscResolution = 1 then { written with convVoltsToDacBits := convVoltsTo20Bits }
  else { written with convVoltsToDacBits := convVoltsTo18Bits }

/-- The register and the conversion constant are those of one resolution. -/
structure Selected (r : Resolution) (b : Board) : Prop where
  register : b.xilIn32 resolutionReg = r.code
  conv : b.convVoltsToDacBits = r.conv

theorem mshsSelect_selected (r : Resolution) (b : Board) : Selected r (mshsSelect r.code b) := by
  have stored : Rdl.storedWidth resolutionReg = some 1 := by decide
  have shown : (b.xilOut32 resolutionReg r.code).xilIn32 resolutionReg = r.code := by
    rw [Board.xilIn32_stored _ (by rw [stored]; rfl), b.xilOut32_stored stored,
      Function.update_self]
    cases r <;> rfl
  cases r with
  | ms => exact ⟨shown, rfl⟩
  | hs => exact ⟨shown, rfl⟩

end PscDigpid.Sw
