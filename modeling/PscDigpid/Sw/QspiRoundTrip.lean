/- Unit: PscDigpid/Sw/QspiRoundTrip
   layer: result
   source: src/sw/src/qspi_flash.c, src/sw/src/control.c, src/sw/src/main.c
   digest: What is saved in the settings flash comes back, whatever is set in between. -/

import PscDigpid.Sw.ClientMsg
import PscDigpid.Sync.Exec

set_option autoImplicit false
set_option relaxedAutoImplicit false

namespace PscDigpid.Sw

open PscDigpid.Hdl (Chan)
open PscDigpid.Num
open PscDigpid.Sync

section Registers

namespace Board

/-- No register holds more than its bits. -/
def Fits (b : Board) : Prop := ∀ addr, kept addr (b.regs addr) = b.regs addr

end Board

/-- The saved registers in the register map, in the order of `qspiRegs`. -/
def savedRegs : List Rdl.ChanReg :=
  [.dacSetptOffset, .dacSetptGain, .dcct0Offset, .dcct0Gain, .dcct1Offset, .dcct1Gain,
   .dacmonOffset, .dacmonGain, .voltOffset, .voltGain, .gndOffset, .gndGain, .spareOffset,
   .spareGain, .regOffset, .regGain, .errOffset, .errGain, .ovc1Thresh, .ovc2Thresh,
   .ovvThresh, .err1Thresh, .err2Thresh, .igndThresh, .ovc1Cntlim, .ovc2Cntlim, .ovvCntlim,
   .err1Cntlim, .err2Cntlim, .igndCntlim, .dcctCntlim, .flt1Cntlim, .flt2Cntlim, .flt3Cntlim,
   .onCntlim, .heartbeatCntlim, .faultMask]

theorem savedRegs_nodup : savedRegs.Nodup := by
  decide

theorem savedRegs_software {r : Rdl.ChanReg} (saved : r ∈ savedRegs) :
    r.info.source = .software := by
  revert r
  decide

/-- The server's table and the register map agree on what is saved. -/
theorem qspiRegs_addr (c : Chan) :
    qspiRegs.map (fun reg => chanNumber c * chBaseAddr + reg) =
      savedRegs.map (Rdl.chanAddr c) := by
  have offsets : qspiRegs = savedRegs.map fun r => BitVec.ofNat 32 r.info.offset := by
    rfl
  rw [offsets, List.map_map]
  apply List.map_congr_left
  intro r _
  exact (BitVec.add_comm _ _).trans (chanReg_offset c rfl)

end Registers

section Pages

variable (c : Chan) (b : Board)

/-- The words of a channel's settings. -/
def settingsWords : List (BitVec 32) :=
  (qspiRegs.map fun reg => b.xilIn32 (chanNumber c * chBaseAddr + reg)) ++
    qspiScalefactors (b.scalefactors (chanNumber c - 1))

/-- A page holds a channel's settings. -/
def Holds (page : Page) : Prop :=
  ∀ k word, (settingsWords c b)[k]? = some word → page (k + 1) = word

theorem gather_holds (page : Page) : Holds c b (qspiGatherData (chanNumber c) b page) := by
  intro k word there
  rw [qspiGatherData]
  change (settingsWords c b).getD k (page (k + 1)) = word
  rw [List.getD_eq_getElem?_getD, there, Option.getD_some]

theorem qspiFlashRead_succ (address : BitVec 32) (page : Page) (k : Nat) :
    qspiFlashRead b address page (k + 1) =
      b.flash (flashAddr address + BitVec.ofNat 24 (4 * k)) :=
  if_neg (Nat.succ_ne_zero k)

/-- What a word of a page is when it is read back from where it was written. -/
theorem read_written (address : BitVec 32) (page page' : Page) {k : Nat} (low : k < 63) :
    qspiFlashRead (qspiFlashWrite b address page) address page' (k + 1) = page (k + 1) := by
  have offset :
      (flashAddr address + BitVec.ofNat 24 (4 * k) - flashAddr address).toNat = 4 * k := by
    rw [BitVec.add_comm, BitVec.add_sub_cancel, BitVec.toNat_ofNat]
    exact Nat.mod_eq_of_lt (by omega)
  rw [qspiFlashRead_succ, qspiFlashWrite]
  change (if _ then _ else _) = _
  rw [offset, if_pos (by omega), Nat.mul_div_cancel_left k (by omega)]

theorem holds_register {page : Page} (holds : Holds c b page) {entry : BitVec 32 × Nat}
    (mem : entry ∈ qspiRegs.zipIdx) :
    page (entry.2 + 1) = b.xilIn32 (chanNumber c * chBaseAddr + entry.1) := by
  have place := List.mem_zipIdx_iff_getElem?.1 mem
  obtain ⟨low, -⟩ := List.getElem?_eq_some_iff.1 place
  apply holds
  rw [settingsWords, List.getElem?_append_left (by rwa [List.length_map]), List.getElem?_map, place]
  rfl

theorem holds_scalefactor {page : Page} (holds : Holds c b page) (j : Nat) (word : BitVec 32)
    (there : (qspiScalefactors (b.scalefactors (chanNumber c - 1)))[j]? = some word) :
    page (38 + j) = word := by
  have words :
      (qspiRegs.map fun reg => b.xilIn32 (chanNumber c * chBaseAddr + reg)).length = 37 := by
    rw [List.length_map]
    rfl
  rw [Nat.add_right_comm 37 1 j]
  apply holds
  rw [settingsWords, List.getElem?_append_right (by omega), words, Nat.add_sub_cancel_left]
  exact there

/-- A dispersal is writes in turn and then the scale factors. -/
theorem disperse_eq (chan : BitVec 32) (target : Board) (page : Page) :
    qspiDisperseData chan target page =
      (target.xilOut32s (qspiRegs.zipIdx.map fun entry =>
        (chan * chBaseAddr + entry.1, page (entry.2 + 1)))).setScalefactors chan
          ⟨page 38, page 39, page 40, page 41, page 42, page 43, page 44⟩ := by
  rw [qspiDisperseData, Board.xilOut32s, List.foldl_map]

/-- The writes of a dispersal from a page that holds a board's settings. -/
theorem disperse_writes {page : Page} (holds : Holds c b page) :
    (qspiRegs.zipIdx.map fun entry =>
        (chanNumber c * chBaseAddr + entry.1, page (entry.2 + 1))) =
      savedRegs.map fun r => (Rdl.chanAddr c r, b.xilIn32 (Rdl.chanAddr c r)) :=
  calc (qspiRegs.zipIdx.map fun entry =>
        (chanNumber c * chBaseAddr + entry.1, page (entry.2 + 1)))
      = qspiRegs.zipIdx.map fun entry => (chanNumber c * chBaseAddr + entry.1,
          b.xilIn32 (chanNumber c * chBaseAddr + entry.1)) := by
        apply List.map_congr_left
        intro entry mem
        rw [holds_register c b holds mem]
    _ = (((qspiRegs.zipIdx.map Prod.fst).map fun reg => chanNumber c * chBaseAddr + reg).map
          fun addr => (addr, b.xilIn32 addr)) := by
        rw [List.map_map, List.map_map]
        rfl
    _ = savedRegs.map fun r => (Rdl.chanAddr c r, b.xilIn32 (Rdl.chanAddr c r)) := by
        rw [List.zipIdx_map_fst, qspiRegs_addr, List.map_map]
        rfl

/-- Two boards have the same settings of a channel. -/
def SameSettings (b b' : Board) : Prop :=
  (∀ reg ∈ qspiRegs, b'.xilIn32 (chanReg (chanNumber c) reg) =
    b.xilIn32 (chanReg (chanNumber c) reg)) ∧
  b'.scalefactors (chanNumber c - 1) = b.scalefactors (chanNumber c - 1)

theorem saved_stored {r : Rdl.ChanReg} (saved : r ∈ savedRegs) :
    (Rdl.storedWidth (Rdl.chanAddr c r)).isSome := by
  rw [Rdl.storedWidth_chanAddr c (savedRegs_software saved)]
  rfl

/-- The registers of a channel among those saved. -/
theorem sameSettings_of {b b' : Board}
    (regs : ∀ r ∈ savedRegs, b'.regs (Rdl.chanAddr c r) = b.regs (Rdl.chanAddr c r))
    (sf : b'.scalefactors (chanNumber c - 1) = b.scalefactors (chanNumber c - 1)) :
    SameSettings c b b' := by
  refine ⟨?_, sf⟩
  intro reg mem
  have addr : chanNumber c * chBaseAddr + reg ∈ savedRegs.map (Rdl.chanAddr c) := by
    rw [← qspiRegs_addr]
    exact List.mem_map_of_mem mem
  obtain ⟨r, saved, equal⟩ := List.mem_map.1 addr
  rw [chanReg, BitVec.add_comm, ← equal, Board.xilIn32_stored b' (saved_stored c saved),
    Board.xilIn32_stored b (saved_stored c saved), regs r saved]

/-- Dispersing a page that holds a board's settings gives a board with these settings. -/
theorem disperse_same {b : Board} (fits : b.Fits) {page : Page} (holds : Holds c b page)
    (target : Board) : SameSettings c b (qspiDisperseData (chanNumber c) target page) := by
  apply sameSettings_of
  · intro r saved
    have value : b.regs (Rdl.chanAddr c r) =
        Board.kept (Rdl.chanAddr c r) (b.xilIn32 (Rdl.chanAddr c r)) := by
      rw [Board.xilIn32_stored b (saved_stored c saved), fits]
    rw [disperse_eq, Board.setScalefactors_regs, disperse_writes c b holds, Board.xilOut32s_regs,
      List.map_map, value]
    · apply writeAll_of_mem
      · rw [List.map_map]
        exact savedRegs_nodup.map fun r r' same => (Rdl.chanAddr_injective same).2
      · exact List.mem_map_of_mem saved
    · intro w mem
      obtain ⟨r', saved', rfl⟩ := List.mem_map.1 mem
      exact saved_stored c saved'
  · have factor := holds_scalefactor c b holds
    rw [disperse_eq, Board.setScalefactors_self, factor 0 _ rfl, factor 1 _ rfl, factor 2 _ rfl,
      factor 3 _ rfl, factor 4 _ rfl, factor 5 _ rfl, factor 6 _ rfl]

theorem disperse_flash (chan : BitVec 32) (target : Board) (page : Page) :
    (qspiDisperseData chan target page).flash = target.flash := by
  rw [disperse_eq, Board.setScalefactors_flash, (target.xilOut32s_rest _).1]

/-- The flash after a save. -/
theorem writeQspi_flash (chan : BitVec 32) (page : Page) : (writeQspi chan b page).flash =
    (qspiFlashWrite (qspiFlashEraseSect b chan) (chan * flashSectorSize)
      (qspiGatherData chan (qspiFlashEraseSect b chan) page)).flash :=
  disperse_flash chan _ _

/-- The words of the page that was saved are in the flash. -/
theorem writeQspi_word (page : Page) {k : Nat} (low : k < 63) :
    (writeQspi (chanNumber c) b page).flash
        (flashAddr (chanNumber c * flashSectorSize) + BitVec.ofNat 24 (4 * k)) =
      qspiGatherData (chanNumber c) (qspiFlashEraseSect b (chanNumber c)) page (k + 1) := by
  rw [writeQspi_flash, ← qspiFlashRead_succ _ _ page, read_written _ _ _ _ low]

end Pages

section Sectors

variable (c : Chan) (b : Board)

/-- The addresses of a channel's sector. -/
def InSector (a : BitVec 24) : Prop := a.toNat / 0x10000 = (chanNumber c).toNat

theorem sector_start :
    (flashAddr (chanNumber c * flashSectorSize)).toNat = (chanNumber c).toNat * 0x10000 := by
  cases c <;> rfl

theorem chanNumber_bounds : 1 ≤ (chanNumber c).toNat ∧ (chanNumber c).toNat ≤ 4 := by
  cases c <;> decide

/-- A page of a sector lies in the sector. -/
theorem page_inSector {a : BitVec 24}
    (near : (a - flashAddr (chanNumber c * flashSectorSize)).toNat < 252) : InSector c a := by
  have start := sector_start c
  have bounds := chanNumber_bounds c
  have small := a.isLt
  rw [BitVec.toNat_sub] at near
  rw [InSector]
  omega

/-- What is read from a sector that is as it was after saving holds the settings saved. -/
theorem read_holds {page page' : Page} {restart : Board}
    (same : ∀ a, InSector c a → restart.flash a = (writeQspi (chanNumber c) b page).flash a) :
    Holds c b (qspiFlashRead restart (chanNumber c * flashSectorSize) page') := by
  intro k word there
  have low : k < 44 := (List.getElem?_eq_some_iff.1 there).1
  have inside :
      InSector c (flashAddr (chanNumber c * flashSectorSize) + BitVec.ofNat 24 (4 * k)) := by
    apply page_inSector
    rw [BitVec.add_comm, BitVec.add_sub_cancel, BitVec.toNat_ofNat]
    omega
  rw [qspiFlashRead_succ, same _ inside, writeQspi_word c b page (by omega)]
  exact gather_holds c (qspiFlashEraseSect b (chanNumber c)) page k word there

end Sectors

section Messages

variable {b after : Board} {chan data : BitVec 32} {page : Page}

/-- A message asks the settings of a channel to be written to the flash, or read from it. -/
def Delivered.Asks (d : Delivered) (c : Chan) (m : ChanMsg) : Prop :=
  d.msgid.setWidth 32 = chanNumber c ∧ msgWord d.msg 0 = m.addr ∧ msgWord d.msg 1 = 1

theorem chan_of_toChan {d : Delivered} (toChan : d.toChan) :
    ∃ c, d.msgid.setWidth 32 = chanNumber c := by
  rcases toChan with one | two | three | four
  · exact ⟨.ps1, by rw [one]; rfl⟩
  · exact ⟨.ps2, by rw [two]; rfl⟩
  · exact ⟨.ps3, by rw [three]; rfl⟩
  · exact ⟨.ps4, by rw [four]; rfl⟩

theorem msgid_of_number {d : Delivered} {c : Chan} (number : d.msgid.setWidth 32 = chanNumber c) :
    d.msgid = (chanNumber c).setWidth 16 := by
  rw [← number, BitVec.setWidth_setWidth_of_le _ (by decide), BitVec.setWidth_eq]

/-- What a message does to its channel. -/
theorem clientMsg_chan {d : Delivered} {c : Chan} (number : d.msgid.setWidth 32 = chanNumber c)
    (b : Board) : clientMsg b d = chanSettings d.page (chanNumber c) d.msg (blinkAccess b) := by
  have id := msgid_of_number number
  have other : d.msgid ≠ 0 := by
    rw [id]
    cases c <;> decide
  have toChan : d.toChan := by
    rw [Delivered.toChan, id]
    cases c <;> decide
  rw [clientMsg, clientMsgWith, if_neg other, if_pos toChan, number]
  rfl

theorem addr_of_ofAddr {addr : BitVec 32} {m : ChanMsg} (found : ChanMsg.ofAddr addr = some m) :
    m.addr = addr := by
  have hit := List.find?_some found
  exact of_decide_eq_true hit

end Messages

section Restore

variable {c : Chan} {b : Board}

namespace SameSettings

theorem trans {b b' b'' : Board} (first : SameSettings c b b') (second : SameSettings c b' b'') :
    SameSettings c b b'' :=
  ⟨fun reg mem => (second.1 reg mem).trans (first.1 reg mem), second.2.trans first.2⟩

end SameSettings

theorem Board.kept_kept (addr data : BitVec 32) : kept addr (kept addr data) = kept addr data := by
  rw [kept, kept]
  split
  next w _ =>
    have below : data.toNat % 2 ^ w % 2 ^ 32 < 2 ^ w :=
      (Nat.mod_le _ _).trans_lt (Nat.mod_lt _ (Nat.two_pow_pos w))
    apply BitVec.eq_of_toNat_eq
    rw [BitVec.toNat_setWidth, BitVec.toNat_setWidth, BitVec.toNat_setWidth, BitVec.toNat_setWidth,
      Nat.mod_eq_of_lt below, Nat.mod_mod]
  · rfl

/-- A write keeps every register within its bits. -/
theorem Board.Fits.xilOut32 (fits : b.Fits) (addr data : BitVec 32) :
    (b.xilOut32 addr data).Fits := by
  intro a
  by_cases stored : (Rdl.storedWidth addr).isSome
  · rw [b.xilOut32_regs stored]
    by_cases same : a = addr
    · rw [same, Function.update_self, Board.kept_kept]
    · rw [Function.update_of_ne same, fits a]
  · rw [b.xilOut32_unstored (Option.not_isSome_iff_eq_none.1 stored), fits a]

/-- The sector of a channel is as it was after its settings were saved. -/
def Saved (c : Chan) (b restart : Board) : Prop :=
  ∃ page, ∀ a, InSector c a → restart.flash a = (writeQspi (chanNumber c) b page).flash a

/-- Reading restores what was saved. -/
theorem Saved.readQspi {restart : Board} (saved : Saved c b restart) (fits : b.Fits) (page : Page) :
    SameSettings c b (readQspi (chanNumber c) restart page) := by
  obtain ⟨page', same⟩ := saved
  exact disperse_same c fits (read_holds c b same) restart

/-- What a message that asks for a transfer does. -/
theorem clientMsg_asks {d : Delivered} {m : ChanMsg} (asks : d.Asks c m) (b : Board) :
    clientMsg b d = chanMessage (chanNumber c) 1 (blinkAccess b) d.page m := by
  obtain ⟨number, address, one⟩ := asks
  rw [clientMsg_chan number, chanSettings, chanSettingsWith, address, ChanMsg.ofAddr_addr, one]
  rfl

end Restore

end PscDigpid.Sw
