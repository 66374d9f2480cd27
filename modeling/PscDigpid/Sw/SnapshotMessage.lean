/- Unit: PscDigpid/Sw/SnapshotMessage
   layer: result
   source: src/hw/hdl/adc2ddr.vhd, src/sw/src/snapshots.c (ReadDMABuf, CopyDataChan)
   digest: The numbers of a waveform message are the readings that its bursts have found. -/

import PscDigpid.Hdl.SnapshotRecords
import PscDigpid.Sw.SnapshotCopy
import PscDigpid.Sw.SnapshotDecode
import PscDigpid.Sw.SnapshotWindow

set_option autoImplicit false
set_option relaxedAutoImplicit false

namespace PscDigpid.Sw

open PscDigpid.Hdl
open PscDigpid.Hdl.Adc2ddr
open PscDigpid.Sync

/-- The words that a record has of a channel whose loop is off. -/
def readingWord (dcct : DcctAdcsOnech) (mon : MonAdcsSnapOnech) : ChanWord → BitVec 32
  | .dcct1 => dcct.dcct0.signExtend 32
  | .dcct2 => dcct.dcct1.signExtend 32
  | .mon1 => mon.dacmon.signExtend 32
  | .mon2 => mon.voltage.signExtend 32
  | .mon3 => mon.ignd.signExtend 32
  | .mon4 => mon.spare.signExtend 32
  | .mon5 => mon.psReg.signExtend 32
  | .mon6 => mon.psError.signExtend 32

/-- The numbers that a message has for one record of such a channel: header, tick counter and the
eight readings, the error of the first channel as an unsigned number. -/
def readingCells (sf : ScaleFactorType) (c : Chan) (tick : BitVec 32) (dcct : DcctAdcsOnech)
    (mon : MonAdcsSnapOnech) : List Cell :=
  let word := readingWord dcct mon
  [.count 0x80000000, .count tick,
   .dacBits (word .dcct1) sf.dacDccts, .dacBits (word .dcct2) sf.dacDccts,
   .bits16 (word .mon1) sf.dacDccts, .bits16 (word .mon2) sf.vout, .bits16 (word .mon3) sf.ignd,
   .bits16 (word .mon4) sf.spare, .bits16 (word .mon5) sf.regulator,
   if c = .ps1 then .unsigned16 (word .mon6) sf.error else .bits16 (word .mon6) sf.error]

theorem readingCells_length (sf : ScaleFactorType) (c : Chan) (tick : BitVec 32)
    (dcct : DcctAdcsOnech) (mon : MonAdcsSnapOnech) :
    (readingCells sf c tick dcct mon).length = 10 := rfl

/-- The burst whose record is the `j`th of a window around burst `m`, with bursts counted from
`first` on. The ring has one slot that the reader does not know: from its end on the window is one
burst ahead. -/
def windowBurst (first m pre j : Nat) : Nat :=
  m + j + ((first + m) % ringLen + 200000 - pre + j) / 200000 - (pre + 1)

section Law

variable (c : Capture) (inp : Nat → Ports) (first m : Nat) (trig : TriggerInfo)

/-- Memory as the processor has read it: each word of the window's records after its burst has
stored it and before the ring has gone round. -/
def Sees (mem : BitVec 32 → BitVec 32) : Prop :=
  ∀ j n, j < trig.pretrigpts.toNat + trig.posttrigpts.toNat → n < 34 →
    ∃ t, Stored c inp t (windowBurst first m trig.pretrigpts.toNat j) n ∧
      bursts c inp t ≤ windowBurst first m trig.pretrigpts.toNat j + ringLen ∧
      recordWord mem (bufAddr (windowPlace trig ((first + m) % ringLen) j)) n =
        (run Capture.step c inp t).mem
          (wordAddr (bufAddr (windowPlace trig ((first + m) % ringLen) j)) n)

/-- A channel's readings while burst `k` puts its words, with the channel's loop off. -/
structure Found (k : Nat) (chan : Chan) (dcct : DcctAdcsOnech) (mon : MonAdcsSnapOnech) :
    Prop where
  off : ∀ n u, n < 34 → PutAt c inp k n u → chan = .ps1 → (inp u).digpidEnb1 = false
  dcct : ∀ n u, n < 34 → PutAt c inp k n u → (inp u).dcctAdcs.get chan = dcct
  mon : ∀ n u, n < 34 → PutAt c inp k n u → (inp u).monAdcs.get chan = mon

end Law

section Record

/-- Where the words of a channel are in a record. -/
def wordPlace : ChanWord → Nat
  | .dcct1 => 0
  | .dcct2 => 1
  | .mon1 => 2
  | .mon2 => 3
  | .mon3 => 4
  | .mon4 => 5
  | .mon5 => 6
  | .mon6 => 7

theorem wordState_chan (chan : Chan) (w : ChanWord) :
    wordState (baseOffset chan + wordPlace w) = .ps chan w := by
  cases chan <;> cases w <;> rfl

theorem wordPlace_lt (chan : Chan) (w : ChanWord) : baseOffset chan + wordPlace w < 34 := by
  cases chan <;> cases w <;> decide

variable {c : Capture} {inp : Nat → Ports} {first k t u : Nat} {chan : Chan}
  {mem : BitVec 32 → BitVec 32} {record : BitVec 32} {dcct : DcctAdcsOnech} {mon : MonAdcsSnapOnech}

theorem chanWord_off {i : Ports} (off : chan = .ps1 → i.digpidEnb1 = false) (w : ChanWord) :
    chanWord i chan w = readingWord (i.dcctAdcs.get chan) (i.monAdcs.get chan) w := by
  have loop : (decide (chan = .ps1) && i.digpidEnb1) = false := by
    by_cases first : chan = .ps1
    · rw [off first, Bool.and_false]
    · rw [decide_eq_false first, Bool.false_and]
  cases w with
  | mon5 | mon6 => simp only [chanWord, readingWord, loop, Bool.false_eq_true, if_false]
  | _ => rfl

/-- A record read from memory, by what its burst found. -/
theorem recordCells_found (fresh : Fresh first c.writer) (running : ∀ t, (inp t).reset = false)
    {digpid : BitVec 32} (off : chan = .ps1 → digpid ≠ 1) (sf : ScaleFactorType)
    (found : Found c inp k chan dcct mon)
    (words : ∀ n, n < 34 → ∃ t, HasPut c inp t k n (recordWord mem record n)) :
    recordCells mem digpid sf (chanNumber chan) record =
      readingCells sf chan (c.writer.datacnt + BitVec.ofNat 32 (k + 1)) dcct mon := by
  have header : recordWord mem record 0 = 0x80000000 := by
    obtain ⟨t, u, -, -, same⟩ := words 0 (by decide)
    exact same
  have tick : recordWord mem record 1 = c.writer.datacnt + BitVec.ofNat 32 (k + 1) := by
    obtain ⟨t, u, -, put, same⟩ := words 1 (by decide)
    rw [← put.datacnt fresh running]
    exact same
  have value (w : ChanWord) :
      recordWord mem record (baseOffset chan + wordPlace w) = readingWord dcct mon w := by
    have inside := wordPlace_lt chan w
    obtain ⟨t, u, -, put, same⟩ := words _ inside
    rw [wordState_chan] at same
    rw [← found.dcct _ u inside put, ← found.mon _ u inside put, ←
      chanWord_off (found.off _ u inside put) w]
    exact same
  have cells : scaledCells mem sf record (baseOffset chan) =
      [.dacBits (recordWord mem record (baseOffset chan + wordPlace .dcct1)) sf.dacDccts,
       .dacBits (recordWord mem record (baseOffset chan + wordPlace .dcct2)) sf.dacDccts,
       .bits16 (recordWord mem record (baseOffset chan + wordPlace .mon1)) sf.dacDccts,
       .bits16 (recordWord mem record (baseOffset chan + wordPlace .mon2)) sf.vout,
       .bits16 (recordWord mem record (baseOffset chan + wordPlace .mon3)) sf.ignd,
       .bits16 (recordWord mem record (baseOffset chan + wordPlace .mon4)) sf.spare] := rfl
  have regulator : recordWord mem record (baseOffset chan + 6) = readingWord dcct mon .mon5 :=
    value .mon5
  have error : recordWord mem record (baseOffset chan + 7) = readingWord dcct mon .mon6 :=
    value .mon6
  rw [recordCells_off off, cells, header, tick, regulator, error, value, value, value, value,
    value, value]
  rfl

end Record

section Window

variable {c : Capture} {inp : Nat → Ports} {first m : Nat} {trig : TriggerInfo}
  {mem : BitVec 32 → BitVec 32} {chan : Chan}

/-- The slot of a place of the window is the one that its burst has gone to. -/
theorem slotAddr_windowBurst (fits : trig.pretrigpts.toNat + trig.posttrigpts.toNat < 200000)
    (filled : trig.pretrigpts.toNat < m) {j : Nat}
    (inside : j < trig.pretrigpts.toNat + trig.posttrigpts.toNat) :
    slotAddr (first + windowBurst first m trig.pretrigpts.toNat j) =
      bufAddr (windowPlace trig ((first + m) % ringLen) j) := by
  rw [slotAddr_bufAddr]
  congr 1
  have small := slot_le (first + m)
  have before : first + m = ringLen * ((first + m) / ringLen) + (first + m) % ringLen :=
    (Nat.div_add_mod _ _).symm
  rw [windowBurst, windowPlace]
  generalize (first + m) / ringLen = lap, (first + m) % ringLen = s at *
  generalize trig.pretrigpts.toNat = pre, trig.posttrigpts.toNat = post at *
  generalize place : s + 200000 - pre + j = q
  unfold ringLen at *
  have turns : q / 200000 = 0 ∨ q / 200000 = 1 ∨ q / 200000 = 2 := by omega
  rcases turns with turn | turn | turn
  · rw [turn]
    omega
  · rw [turn]
    omega
  · rw [turn]
    omega

/-- A message read in time has the readings that the bursts of its window found, in order. -/
theorem readDMABuf_readings (fresh : Fresh first c.writer) (running : ∀ t, (inp t).reset = false)
    (b : Board) (addr : trig.addr = slotAddr (first + m))
    (channel : trig.channum = chanNumber chan)
    (off : chan = .ps1 → b.xilIn32 (chanReg (chanNumber chan) dpidEnbReg) ≠ 1)
    (fits : trig.pretrigpts.toNat + trig.posttrigpts.toNat < 200000)
    (filled : trig.pretrigpts.toNat < m) (sees : Sees c inp first m trig mem)
    {dcct : Nat → DcctAdcsOnech} {mon : Nat → MonAdcsSnapOnech}
    (found : ∀ j, j < trig.pretrigpts.toNat + trig.posttrigpts.toNat →
      Found c inp (windowBurst first m trig.pretrigpts.toNat j) chan (dcct j) (mon j)) :
    readDMABuf mem b trig =
      (List.range (trig.pretrigpts.toNat + trig.posttrigpts.toNat)).flatMap fun j =>
        readingCells (b.scalefactors (chanNumber chan - 1)) chan (c.writer.datacnt +
          BitVec.ofNat 32 (windowBurst first m trig.pretrigpts.toNat j + 1)) (dcct j) (mon j) := by
  have place : trig.addr = bufAddr ((first + m) % ringLen) := addr
  rw [readDMABuf_eq, selected_bufAddr place (slot_le _) fits, List.flatMap_map, channel]
  refine List.flatMap_congr fun j among => ?_
  have inside := List.mem_range.1 among
  refine recordCells_found fresh running off _ (found j inside) fun n word => ?_
  obtain ⟨t, stored, intime, same⟩ := sees j n inside word
  have put := record_word fresh running (Nat.lt_of_lt_of_le word (by decide)) stored intime
  rw [slotAddr_windowBurst fits filled inside] at put
  exact ⟨t, same ▸ put⟩

end Window

end PscDigpid.Sw
