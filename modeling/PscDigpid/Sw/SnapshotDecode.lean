/- Unit: PscDigpid/Sw/SnapshotDecode
   layer: result
   source: src/sw/src/snapshots.c (CopyDataChan), src/sw/src/local.h
   digest: The numbers of a record on each channel, and the word of the first one's error. -/

import PscDigpid.Sw.Snapshots

set_option autoImplicit false
set_option relaxedAutoImplicit false

namespace PscDigpid.Sw

open PscDigpid.Hdl (Chan)
open PscDigpid.Num

/-- The double that goes from 16 bits to volts. -/
def double16BitsToVolts : Fp :=
  ieee.div .double (ieee.constant .double 1) (ieee.constant .double convVoltsTo16Bits)

/-- A number in 16 bits times its factor: the product is a double that the message narrows. -/
def scaled16 (x : Fp) (factor : BitVec 32) : Fp :=
  ieee.narrow (ieee.mul .double (ieee.mul .double x double16BitsToVolts) (ieee.ofBits factor))

/-- A number of the message. The word of the first channel's error goes to a double as it is, the
others first to a float. -/
def Cell.value (dacConv : Fp) : Cell → Fp
  | .count word => ieee.ofInt .float word.toNat
  | .dacBits word factor =>
      ieee.mul .float (ieee.mul .float (ieee.ofInt .float word.toInt) dacConv) (ieee.ofBits factor)
  | .bits16 word factor => scaled16 (ieee.ofInt .float word.toInt) factor
  | .unsigned16 word factor => scaled16 (ieee.ofInt .double word.toNat) factor
  | .signed word => ieee.ofInt .float word.toInt
  | .raw word => ieee.ofBits word

/-- Where the words of a channel begin in a record, after the header and the counter. -/
def baseOffset : Chan → Nat
  | .ps1 => 2
  | .ps2 => 10
  | .ps3 => 18
  | .ps4 => 26

/-- A word of a record. -/
def recordWord (mem : BitVec 32 → BitVec 32) (record : BitVec 32) (n : Nat) : BitVec 32 :=
  mem (record + BitVec.ofNat 32 (4 * n))

section Record

variable {mem : BitVec 32 → BitVec 32} {digpid : BitVec 32} {sf : ScaleFactorType} {c : Chan}
  {record : BitVec 32}

/-- The numbers of a record without the loop's, by the words they are made from. -/
theorem recordCells_off (off : c = .ps1 → digpid ≠ 1) :
    recordCells mem digpid sf (chanNumber c) record =
    [.count (recordWord mem record 0), .count (recordWord mem record 1)] ++
      scaledCells mem sf record (baseOffset c) ++
      [.bits16 (recordWord mem record (baseOffset c + 6)) sf.regulator,
        if c = .ps1 then .unsigned16 (recordWord mem record (baseOffset c + 7)) sf.error
        else .bits16 (recordWord mem record (baseOffset c + 7)) sf.error] := by
  rw [recordCells]
  cases c with
  | ps1 =>
      rw [if_pos (show chanNumber .ps1 = 1 from rfl), if_neg (off rfl)]
      rfl
  | ps2 | ps3 | ps4 => rfl

/-- The numbers of a record with those of the loop. -/
theorem recordCells_on : recordCells mem 1 sf (chanNumber .ps1) record =
    [.count (recordWord mem record 0), .count (recordWord mem record 1)] ++
      scaledCells mem sf record (baseOffset .ps1) ++
      [.signed (recordWord mem record (baseOffset .ps1 + 6)),
        .raw (recordWord mem record (baseOffset .ps1 + 7))] := rfl

end Record

/-- An error that needs 25 bits is rounded before the product on the other channels only. -/
example : Cell.value 0 (.unsigned16 0x01000001 0x3F800000) = Fp.ofBits 0x45A00001 ∧
    Cell.value 0 (.bits16 0x01000001 0x3F800000) = Fp.ofBits 0x45A00000 := by
  decide +kernel

end PscDigpid.Sw
