/- Unit: PscDigpid/Sw/RampTable
   layer: model
   source: src/sw/src/control.c (write_ramptable), src/hw/hdl/ps_io.vhd
   digest: The writes of a ramp table and what they leave in the channel's block RAM. -/

import PscDigpid.Hdl.PsIo
import PscDigpid.Hdl.RamptableRamp
import PscDigpid.Sw.ClientMsg

set_option autoImplicit false
set_option relaxedAutoImplicit false

namespace PscDigpid.Sw

open PscDigpid.Hdl
open PscDigpid.Num
open PscDigpid.Sync
open Pscmsg (Byte)

section Writes

variable {α : Type} (A : Arith α) (c : Chan) (msg : Nat → Byte) (b : Board)

/-- What is written for the `i`th point of a message. -/
def rampEntry (i : Nat) : BitVec 32 :=
  rampPoint (b.xilIn32 resolutionReg)
    (scaledValWith (chanNumber c) (msgWord msg i) b A .float b.convVoltsToDacBits (·.dacDccts))

/-- The address and then the entry. -/
def pointWrites (i : Nat) : List (BitVec 32 × BitVec 32) :=
  [(Rdl.chanAddr c .dacRampaddr, BitVec.ofNat 32 i),
   (Rdl.chanAddr c .dacRampdata, rampEntry A c msg b i)]

/-- The writes of a table of `n` points. -/
def rampWrites (n : Nat) : List (BitVec 32 × BitVec 32) :=
  (Rdl.chanAddr c .dacRamplen, BitVec.ofNat 32 n) ::
    (List.range n).flatMap (pointWrites A c msg b)

end Writes

section Writes

variable {α : Type} {A : Arith α} {c : Chan} {msg : Nat → Byte} {b : Board}

/-- One more point for a board whose scale factors have stayed. -/
theorem writeRampPoint_eq {later : Board} (factors : later.scalefactors = b.scalefactors)
    (conv : later.convVoltsToDacBits = b.convVoltsToDacBits) (i : Nat) :
    writeRampPoint A (chanNumber c) msg (b.xilIn32 resolutionReg) later i =
      later.xilOut32s (pointWrites A c msg b i) := by
  have addr := @chanReg_offset c dacRampaddrReg .dacRampaddr rfl
  have data := @chanReg_offset c dacRampdataReg .dacRampdata rfl
  rw [writeRampPoint, addr, data, scaledValWith, factors, conv]
  rfl

theorem foldl_writeRampPoint (points : List Nat) {later : Board}
    (factors : later.scalefactors = b.scalefactors)
    (conv : later.convVoltsToDacBits = b.convVoltsToDacBits) :
    points.foldl (writeRampPoint A (chanNumber c) msg (b.xilIn32 resolutionReg)) later =
      later.xilOut32s (points.flatMap (pointWrites A c msg b)) := by
  induction points generalizing later with
  | nil => rfl
  | cons i points ih =>
      have rest := @ih (later.xilOut32s (pointWrites A c msg b i)) factors conv
      rw [List.foldl_cons, writeRampPoint_eq factors conv, rest, List.flatMap_cons,
        Board.xilOut32s_append]

/-- A table that is not too long is written out, length first. -/
theorem writeRamptable_eq {msglen : Nat} (fits : msglen / 4 ≤ 50000) :
    writeRamptable A (chanNumber c) msg msglen b =
      b.xilOut32s (rampWrites A c msg b (msglen / 4)) := by
  have addr := @chanReg_offset c dacRamplenReg .dacRamplen rfl
  have stored := Rdl.storedWidth_chanAddr c (r := .dacRamplen) rfl
  have resolution : (b.xilOut32 (Rdl.chanAddr c .dacRamplen)
      (BitVec.ofNat 32 (msglen / 4))).xilIn32 resolutionReg = b.xilIn32 resolutionReg := by
    rw [Board.xilIn32, Board.xilIn32, b.xilOut32_stored stored, Function.update_of_ne]
    · rfl
    · exact (Rdl.chanAddr_ne_global (by decide)).symm
  rw [writeRamptable, if_neg (Nat.not_lt.2 fits), addr]
  dsimp only
  rw [resolution]
  exact foldl_writeRampPoint _ rfl rfl

end Writes

section Table

variable (c : Chan)

/-- The board and a channel's table after a write by software: the fabric sees the access
with the new value in the register. -/
def tableWrite (s : Board × (BitVec 16 → BitVec 20)) (w : BitVec 32 × BitVec 32) :
    Board × (BitVec 16 → BitVec 20) :=
  let after := s.1.xilOut32 w.1 w.2
  (after, RamptableRamp.dpramWrite s.2
    ((PsIo.dacCntrl after.regs (fun addr => addr = w.1) false).get c))

/-- A channel's table after writes in turn. -/
def tableAfter (b : Board) (table : BitVec 16 → BitVec 20)
    (writes : List (BitVec 32 × BitVec 32)) : BitVec 16 → BitVec 20 :=
  (writes.foldl (tableWrite c) (b, table)).2

end Table

section Table

variable {α : Type} {A : Arith α} {c : Chan} {b : Board} {table : BitVec 16 → BitVec 20}

/-- Only a write of the data register stores anything. -/
theorem tableWrite_other {addr data : BitVec 32} (other : addr ≠ Rdl.chanAddr c .dacRampdata) :
    tableWrite c (b, table) (addr, data) = (b.xilOut32 addr data, table) := by
  rw [tableWrite, RamptableRamp.dpramWrite, PsIo.dacCntrl_dpramWe, if_neg]
  simpa using other.symm

/-- It stores the data at the address that has been written before. -/
theorem tableWrite_data (data : BitVec 32) :
    (tableWrite c (b, table) (Rdl.chanAddr c .dacRampdata, data)).2 =
      Function.update table ((b.regs (Rdl.chanAddr c .dacRampaddr)).setWidth 16)
        (data.setWidth 20) := by
  have stored := Rdl.storedWidth_chanAddr c (r := .dacRampdata) rfl
  have apart : Rdl.chanAddr c .dacRampaddr ≠ Rdl.chanAddr c .dacRampdata :=
    Rdl.chanAddr_ne (by decide)
  rw [tableWrite]
  dsimp only
  rw [RamptableRamp.dpramWrite, PsIo.dacCntrl_dpramWe, if_pos (by simp),
    PsIo.dacCntrl_dpramAddr, PsIo.dacCntrl_dpramData, b.xilOut32_stored stored,
    Function.update_of_ne apart, Function.update_self]
  congr 1
  rw [Rdl.ChanReg.info, BitVec.setWidth_setWidth_of_le _ (by decide),
    BitVec.setWidth_setWidth_of_le _ (by decide)]

/-- The two writes of a point store it at its place. -/
theorem tableWrite_point {msg : Nat → Byte} {b' : Board} (i : Nat) :
    (pointWrites A c msg b' i).foldl (tableWrite c) (b, table) =
      (b.xilOut32s (pointWrites A c msg b' i),
        Function.update table (BitVec.ofNat 16 i) ((rampEntry A c msg b' i).setWidth 20)) := by
  have stored := Rdl.storedWidth_chanAddr c (r := .dacRampaddr) rfl
  rw [pointWrites, List.foldl_cons, tableWrite_other (Rdl.chanAddr_ne (by decide))]
  refine Prod.ext rfl ?_
  refine (tableWrite_data _).trans ?_
  rw [b.xilOut32_stored stored, Function.update_self]
  congr 1
  rw [Rdl.ChanReg.info]
  apply BitVec.eq_of_toNat_eq
  simp

/-- The writes of a table leave its points in the first places. -/
theorem tableAfter_rampWrites (msg : Nat → Byte) (n : Nat) :
    tableAfter c b table (rampWrites A c msg b n) =
      writeAll table ((List.range n).map fun i =>
        (BitVec.ofNat 16 i, (rampEntry A c msg b i).setWidth 20)) := by
  have points (l : List Nat) (later : Board) (table : BitVec 16 → BitVec 20) :
      ((l.flatMap (pointWrites A c msg b)).foldl (tableWrite c) (later, table)).2 =
        writeAll table (l.map fun i =>
          (BitVec.ofNat 16 i, (rampEntry A c msg b i).setWidth 20)) := by
    induction l generalizing later table with
    | nil => rfl
    | cons i l ih =>
        rw [List.flatMap_cons, List.foldl_append, tableWrite_point, ih, List.map_cons,
          writeAll_cons]
  rw [tableAfter, rampWrites, List.foldl_cons, tableWrite_other (Rdl.chanAddr_ne (by decide))]
  exact points _ _ _

/-- Each point is found at its own place. -/
theorem tableAfter_entry {msg : Nat → Byte} {n i : Nat} (fits : n ≤ 50000) (early : i < n) :
    tableAfter c b table (rampWrites A c msg b n) (BitVec.ofNat 16 i) =
      (rampEntry A c msg b i).setWidth 20 := by
  rw [tableAfter_rampWrites]
  apply writeAll_of_mem
  · rw [List.map_map, List.nodup_map_iff_inj_on List.nodup_range]
    intro j low k high same
    have equal := congrArg BitVec.toNat same
    rw [List.mem_range] at low high
    simp only [Function.comp_apply, BitVec.toNat_ofNat] at equal
    omega
  · exact List.mem_map.2 ⟨i, List.mem_range.2 early, rfl⟩

end Table

end PscDigpid.Sw
