/- Unit: PscDigpid/Sw/Board
   layer: model
   source: src/sw/src/qspi_flash.c, src/sw/src/local.h, src/hw/rdl/pl_regs.rdl
   digest: The state a message acts on: registers, scale factors and the settings flash. -/

import Mathlib.Logic.Function.Basic
import PscDigpid.Num.Single
import PscDigpid.Rdl.PlRegs
import PscDigpid.Sw.PlRegs
import PscDigpid.Sync.Writes

set_option autoImplicit false
set_option relaxedAutoImplicit false

namespace PscDigpid.Sw

/-- The scale factors of one channel, single-precision numbers. -/
structure ScaleFactorType where
  ampspersec : BitVec 32
  dacDccts : BitVec 32
  vout : BitVec 32
  ignd : BitVec 32
  spare : BitVec 32
  regulator : BitVec 32
  error : BitVec 32
  deriving DecidableEq

/-- The registers, by address from the base of the map, every write to them in turn,
the scale factors, by index, the conversion constant, and the flash, by word. -/
structure Board where
  regs : BitVec 32 → BitVec 32
  status : BitVec 32 → BitVec 32
  writes : List (BitVec 32 × BitVec 32)
  scalefactors : BitVec 32 → ScaleFactorType
  convVoltsToDacBits : ℚ
  flash : BitVec 24 → BitVec 32

namespace Board

variable (b : Board)

/-- A write leaves in a register the bits its field has. -/
def xilOut32 (addr data : BitVec 32) : Board :=
  { b with
    regs :=
      match Rdl.storedWidth addr with
      | some w => Function.update b.regs addr ((data.setWidth w).setWidth 32)
      | none => b.regs
    writes := b.writes ++ [(addr, data)] }

/-- A read sees what was stored, or else what the fabric shows. -/
def xilIn32 (addr : BitVec 32) : BitVec 32 :=
  if (Rdl.storedWidth addr).isSome then b.regs addr else b.status addr

def setScalefactors (chan : BitVec 32) (sf : ScaleFactorType) : Board :=
  { b with scalefactors := Function.update b.scalefactors (chan - 1) sf }

@[simp] theorem setScalefactors_regs (chan : BitVec 32) (sf : ScaleFactorType) :
    (b.setScalefactors chan sf).regs = b.regs :=
  rfl

@[simp] theorem setScalefactors_flash (chan : BitVec 32) (sf : ScaleFactorType) :
    (b.setScalefactors chan sf).flash = b.flash :=
  rfl

@[simp] theorem setScalefactors_self (chan : BitVec 32) (sf : ScaleFactorType) :
    (b.setScalefactors chan sf).scalefactors (chan - 1) = sf :=
  Function.update_self _ _ _

theorem xilOut32_stored {addr data : BitVec 32} {w : Nat}
    (stored : Rdl.storedWidth addr = some w) :
    (b.xilOut32 addr data).regs = Function.update b.regs addr ((data.setWidth w).setWidth 32) := by
  simp only [xilOut32, stored]

/-- A write where there is no register to store it changes none. -/
theorem xilOut32_unstored {addr data : BitVec 32} (unstored : Rdl.storedWidth addr = none) :
    (b.xilOut32 addr data).regs = b.regs := by
  simp only [xilOut32, unstored]

/-- What is left of a word in the register at an address. -/
def kept (addr data : BitVec 32) : BitVec 32 :=
  match Rdl.storedWidth addr with
  | some w => (data.setWidth w).setWidth 32
  | none => data

theorem xilOut32_regs {addr : BitVec 32} (stored : (Rdl.storedWidth addr).isSome)
    (data : BitVec 32) :
    (b.xilOut32 addr data).regs = Function.update b.regs addr (kept addr data) := by
  obtain ⟨w, width⟩ := Option.isSome_iff_exists.1 stored
  rw [b.xilOut32_stored width, kept, width]

theorem xilIn32_stored {addr : BitVec 32} (stored : (Rdl.storedWidth addr).isSome) :
    b.xilIn32 addr = b.regs addr :=
  if_pos stored

/-- Writes in turn. -/
def xilOut32s (writes : List (BitVec 32 × BitVec 32)) : Board :=
  writes.foldl (fun b w => b.xilOut32 w.1 w.2) b

theorem xilOut32s_regs {writes : List (BitVec 32 × BitVec 32)}
    (stored : ∀ w ∈ writes, (Rdl.storedWidth w.1).isSome) :
    (b.xilOut32s writes).regs = Sync.writeAll b.regs (writes.map fun w => (w.1, kept w.1 w.2)) := by
  induction writes generalizing b with
  | nil => rfl
  | cons w writes ih =>
      rw [List.map_cons, Sync.writeAll_cons, ← b.xilOut32_regs (stored w List.mem_cons_self)]
      exact ih (b.xilOut32 w.1 w.2) fun w' mem => stored w' (List.mem_cons_of_mem w mem)

theorem xilOut32s_append (writes more : List (BitVec 32 × BitVec 32)) :
    b.xilOut32s (writes ++ more) = (b.xilOut32s writes).xilOut32s more :=
  List.foldl_append

/-- Writes leave the rest of the board. -/
theorem xilOut32s_rest (writes : List (BitVec 32 × BitVec 32)) :
    (b.xilOut32s writes).flash = b.flash ∧
      (b.xilOut32s writes).scalefactors = b.scalefactors := by
  induction writes generalizing b with
  | nil => exact ⟨rfl, rfl⟩
  | cons w writes ih => exact ih (b.xilOut32 w.1 w.2)

theorem xilOut32s_writes (writes : List (BitVec 32 × BitVec 32)) :
    (b.xilOut32s writes).writes = b.writes ++ writes := by
  induction writes generalizing b with
  | nil => exact (List.append_nil _).symm
  | cons w writes ih =>
      refine (ih (b.xilOut32 w.1 w.2)).trans ?_
      exact (List.append_assoc b.writes [w] writes)

end Board

section Flash

/-- A page buffer, by word. -/
abbrev Page := Nat → BitVec 32

def flashSectorSize : BitVec 32 := 0x10000

/-- The flash takes 24 bits of an address. -/
def flashAddr (address : BitVec 32) : BitVec 24 := address.setWidth 24

/-- The registers in `QspiData_t`, in its order; one word of header comes before them. -/
def qspiRegs : List (BitVec 32) :=
  [dacSetptOffsetReg, dacSetptGainReg, dcct1OffsetReg, dcct1GainReg, dcct2OffsetReg,
   dcct2GainReg, dacmonOffsetReg, dacmonGainReg, voltOffsetReg, voltGainReg, gndOffsetReg,
   gndGainReg, spareOffsetReg, spareGainReg, regOffsetReg, regGainReg, errOffsetReg,
   errGainReg, ovc1ThreshReg, ovc2ThreshReg, ovvThreshReg, err1ThreshReg, err2ThreshReg,
   igndThreshReg, ovc1CntlimReg, ovc2CntlimReg, ovvCntlimReg, err1CntlimReg, err2CntlimReg,
   igndCntlimReg, dcctCntlimReg, flt1CntlimReg, flt2CntlimReg, flt3CntlimReg, onCntlimReg,
   heartbeatCntlimReg, faultMaskReg]

/-- The scale factors in `QspiData_t`, after the registers. -/
def qspiScalefactors (sf : ScaleFactorType) : List (BitVec 32) :=
  [sf.ampspersec, sf.dacDccts, sf.vout, sf.ignd, sf.spare, sf.regulator, sf.error]

variable (chan : BitVec 32) (b : Board)

/-- The page with a channel's settings; the header and what is beyond the record keep
what the buffer held. -/
def qspiGatherData (page : Page) : Page := fun k =>
  let data := (qspiRegs.map fun reg => b.xilIn32 (chan * chBaseAddr + reg)) ++
    qspiScalefactors (b.scalefactors (chan - 1))
  if k = 0 then page 0 else data.getD (k - 1) (page k)

def qspiDisperseData (page : Page) : Board :=
  let registers := qspiRegs.zipIdx.foldl
    (fun b entry => b.xilOut32 (chan * chBaseAddr + entry.1) (page (entry.2 + 1))) b
  registers.setScalefactors chan
    { ampspersec := page 38
      dacDccts := page 39
      vout := page 40
      ignd := page 41
      spare := page 42
      regulator := page 43
      error := page 44 }

def qspiFlashEraseSect (sector : BitVec 32) : Board :=
  { b with
    flash := fun a =>
      if a.toNat / 0x10000 = (flashAddr (sector * flashSectorSize)).toNat / 0x10000 then
        0xFFFFFFFF
      else b.flash a }

/-- The first word of the page is the command; the others are stored from the address on. -/
def qspiFlashWrite (address : BitVec 32) (page : Page) : Board :=
  { b with
    flash := fun a =>
      let off := (a - flashAddr address).toNat
      if off < 252 ∧ off % 4 = 0 then page (off / 4 + 1) else b.flash a }

/-- The first word of the page comes in with the command and is garbage. -/
def qspiFlashRead (address : BitVec 32) (page : Page) : Page := fun k =>
  if k = 0 then page 0 else b.flash (flashAddr address + BitVec.ofNat 24 (4 * (k - 1)))

end Flash

/-- A board with nothing in its registers and unit scale factors. -/
def blankBoard : Board where
  regs := fun _ => 0
  status := fun _ => 0
  writes := []
  scalefactors := fun _ => ⟨0x3F800000, 0x3F800000, 0x3F800000, 0x3F800000, 0x3F800000,
    0x3F800000, 0x3F800000⟩
  convVoltsToDacBits := 52428.8
  flash := fun _ => 0xFFFFFFFF

end PscDigpid.Sw
