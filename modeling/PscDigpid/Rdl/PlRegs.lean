/- Unit: PscDigpid/Rdl/PlRegs
   layer: model
   source: src/hw/rdl/pl_regs.rdl
   digest: The register map between the processor and the fabric. -/

import PscDigpid.Hdl.PscPkg

set_option autoImplicit false
set_option relaxedAutoImplicit false

namespace PscDigpid.Rdl

open PscDigpid.Hdl (Chan)

/-- Which side a register's value comes from (`hw = r` or `hw = w`). -/
inductive Source
  | software | fabric
  deriving DecidableEq

/-- Address, field width and source of a register; software may write them all. -/
structure RegInfo where
  offset : Nat
  width : Nat
  source : Source

/-- The registers each channel has, without the prefix `ps1_` to `ps4_`. -/
inductive ChanReg
  | dcct0 | dcct1 | dacmon | volt | gnd | spare | reg | err | dacSetptOffset | dacSetptGain
  | dacSetpt | dacOpmode | dacCntrl | dacReset | dacRamplen | dacRampaddr | dacRampdata
  | dacRunramp | dacRampactive | dacCurrsetpt | dcct0Offset | dcct0Gain | dcct1Offset
  | dcct1Gain | dacmonOffset | dacmonGain | voltOffset | voltGain | gndOffset | gndGain
  | spareOffset | spareGain | regOffset | regGain | errOffset | errGain | ovc1Thresh
  | ovc2Thresh | ovvThresh | err1Thresh | err2Thresh | igndThresh | ovc1Cntlim | ovc2Cntlim
  | ovvCntlim | err1Cntlim | err2Cntlim | igndCntlim | dcctCntlim | flt1Cntlim | flt2Cntlim
  | flt3Cntlim | onCntlim | faultClear | faultMask | heartbeatCntlim | digoutOn1
  | digoutOn2 | digoutReset | digoutSpare | digoutPark | digin | faultsLive | faultsLat
  | avemode | dacSmoothPhaseinc | kp | ki | kd | park | digpidEnb | itermLimit
  | digpidIreset | setptIn | feedback | error | pterm | iterm | dterm | sumterm | setptOut
  deriving DecidableEq

namespace ChanReg

/-- Address from the channel's base, the same for all four channels. -/
def info : ChanReg → RegInfo
  | .dcct0 => ⟨0x000, 32, .fabric⟩
  | .dcct1 => ⟨0x004, 32, .fabric⟩
  | .dacmon => ⟨0x008, 32, .fabric⟩
  | .volt => ⟨0x00C, 32, .fabric⟩
  | .gnd => ⟨0x010, 32, .fabric⟩
  | .spare => ⟨0x014, 32, .fabric⟩
  | .reg => ⟨0x018, 32, .fabric⟩
  | .err => ⟨0x01C, 32, .fabric⟩
  | .dacSetptOffset => ⟨0x020, 32, .software⟩
  | .dacSetptGain => ⟨0x024, 32, .software⟩
  | .dacSetpt => ⟨0x028, 20, .software⟩
  | .dacOpmode => ⟨0x02C, 2, .software⟩
  | .dacCntrl => ⟨0x030, 8, .software⟩
  | .dacReset => ⟨0x034, 1, .software⟩
  | .dacRamplen => ⟨0x038, 16, .software⟩
  | .dacRampaddr => ⟨0x03C, 16, .software⟩
  | .dacRampdata => ⟨0x040, 20, .software⟩
  | .dacRunramp => ⟨0x044, 1, .software⟩
  | .dacRampactive => ⟨0x048, 1, .fabric⟩
  | .dacCurrsetpt => ⟨0x04C, 32, .fabric⟩
  | .dcct0Offset => ⟨0x050, 32, .software⟩
  | .dcct0Gain => ⟨0x054, 32, .software⟩
  | .dcct1Offset => ⟨0x058, 32, .software⟩
  | .dcct1Gain => ⟨0x05C, 32, .software⟩
  | .dacmonOffset => ⟨0x060, 32, .software⟩
  | .dacmonGain => ⟨0x064, 32, .software⟩
  | .voltOffset => ⟨0x068, 32, .software⟩
  | .voltGain => ⟨0x06C, 32, .software⟩
  | .gndOffset => ⟨0x070, 32, .software⟩
  | .gndGain => ⟨0x074, 32, .software⟩
  | .spareOffset => ⟨0x078, 32, .software⟩
  | .spareGain => ⟨0x07C, 32, .software⟩
  | .regOffset => ⟨0x080, 32, .software⟩
  | .regGain => ⟨0x084, 32, .software⟩
  | .errOffset => ⟨0x088, 32, .software⟩
  | .errGain => ⟨0x08C, 32, .software⟩
  | .ovc1Thresh => ⟨0x090, 20, .software⟩
  | .ovc2Thresh => ⟨0x094, 20, .software⟩
  | .ovvThresh => ⟨0x098, 16, .software⟩
  | .err1Thresh => ⟨0x09C, 16, .software⟩
  | .err2Thresh => ⟨0x0A0, 16, .software⟩
  | .igndThresh => ⟨0x0A4, 16, .software⟩
  | .ovc1Cntlim => ⟨0x0A8, 16, .software⟩
  | .ovc2Cntlim => ⟨0x0AC, 16, .software⟩
  | .ovvCntlim => ⟨0x0B0, 16, .software⟩
  | .err1Cntlim => ⟨0x0B4, 16, .software⟩
  | .err2Cntlim => ⟨0x0B8, 16, .software⟩
  | .igndCntlim => ⟨0x0BC, 16, .software⟩
  | .dcctCntlim => ⟨0x0C0, 16, .software⟩
  | .flt1Cntlim => ⟨0x0C4, 16, .software⟩
  | .flt2Cntlim => ⟨0x0C8, 16, .software⟩
  | .flt3Cntlim => ⟨0x0CC, 16, .software⟩
  | .onCntlim => ⟨0x0D0, 16, .software⟩
  | .faultClear => ⟨0x0D4, 1, .software⟩
  | .faultMask => ⟨0x0D8, 16, .software⟩
  | .heartbeatCntlim => ⟨0x0DC, 16, .software⟩
  | .digoutOn1 => ⟨0x0E0, 1, .software⟩
  | .digoutOn2 => ⟨0x0E4, 1, .software⟩
  | .digoutReset => ⟨0x0E8, 1, .software⟩
  | .digoutSpare => ⟨0x0EC, 1, .software⟩
  | .digoutPark => ⟨0x0F0, 1, .software⟩
  | .digin => ⟨0x0F4, 5, .fabric⟩
  | .faultsLive => ⟨0x0F8, 16, .fabric⟩
  | .faultsLat => ⟨0x0FC, 16, .fabric⟩
  | .avemode => ⟨0x100, 2, .software⟩
  | .dacSmoothPhaseinc => ⟨0x104, 32, .software⟩
  | .kp => ⟨0x140, 32, .software⟩
  | .ki => ⟨0x144, 32, .software⟩
  | .kd => ⟨0x148, 32, .software⟩
  | .park => ⟨0x14C, 1, .software⟩
  | .digpidEnb => ⟨0x150, 1, .software⟩
  | .itermLimit => ⟨0x154, 32, .software⟩
  | .digpidIreset => ⟨0x158, 1, .software⟩
  | .setptIn => ⟨0x170, 32, .fabric⟩
  | .feedback => ⟨0x174, 32, .fabric⟩
  | .error => ⟨0x178, 32, .fabric⟩
  | .pterm => ⟨0x17C, 32, .fabric⟩
  | .iterm => ⟨0x180, 32, .fabric⟩
  | .dterm => ⟨0x184, 32, .fabric⟩
  | .sumterm => ⟨0x188, 32, .fabric⟩
  | .setptOut => ⟨0x18C, 32, .fabric⟩

def all : List ChanReg :=
  [.dcct0, .dcct1, .dacmon, .volt, .gnd, .spare, .reg, .err, .dacSetptOffset, .dacSetptGain,
   .dacSetpt, .dacOpmode, .dacCntrl, .dacReset, .dacRamplen, .dacRampaddr, .dacRampdata,
   .dacRunramp, .dacRampactive, .dacCurrsetpt, .dcct0Offset, .dcct0Gain, .dcct1Offset,
   .dcct1Gain, .dacmonOffset, .dacmonGain, .voltOffset, .voltGain, .gndOffset, .gndGain,
   .spareOffset, .spareGain, .regOffset, .regGain, .errOffset, .errGain, .ovc1Thresh,
   .ovc2Thresh, .ovvThresh, .err1Thresh, .err2Thresh, .igndThresh, .ovc1Cntlim, .ovc2Cntlim,
   .ovvCntlim, .err1Cntlim, .err2Cntlim, .igndCntlim, .dcctCntlim, .flt1Cntlim, .flt2Cntlim,
   .flt3Cntlim, .onCntlim, .faultClear, .faultMask, .heartbeatCntlim, .digoutOn1, .digoutOn2,
   .digoutReset, .digoutSpare, .digoutPark, .digin, .faultsLive, .faultsLat, .avemode,
   .dacSmoothPhaseinc, .kp, .ki, .kd, .park, .digpidEnb, .itermLimit, .digpidIreset,
   .setptIn, .feedback, .error, .pterm, .iterm, .dterm, .sumterm, .setptOut]

end ChanReg

/-- The registers that no channel owns, but for the trigger records, which the
fabric fills and whose addresses begin at 0xA20. -/
inductive GlobReg
  | fpgaver | leds | resolution | numChans | bandwidth | polarity | evrInjEventno
  | evrPmEventno | evr1hzEventno | evr10hzEventno | evr10khzEventno | evrTsS | evrTsNs
  | evrReset | iocAccess | tenhzDatasend | snapshotAddrptr | snapshotTotaltrigs | softtrig
  | testtrig
  deriving DecidableEq

namespace GlobReg

def info : GlobReg → RegInfo
  | .fpgaver => ⟨0x000, 32, .fabric⟩
  | .leds => ⟨0x004, 8, .software⟩
  | .resolution => ⟨0x008, 1, .software⟩
  | .numChans => ⟨0x00C, 1, .software⟩
  | .bandwidth => ⟨0x010, 1, .software⟩
  | .polarity => ⟨0x014, 1, .software⟩
  | .evrInjEventno => ⟨0x020, 8, .software⟩
  | .evrPmEventno => ⟨0x024, 8, .software⟩
  | .evr1hzEventno => ⟨0x028, 8, .software⟩
  | .evr10hzEventno => ⟨0x02C, 8, .software⟩
  | .evr10khzEventno => ⟨0x030, 8, .software⟩
  | .evrTsS => ⟨0x040, 32, .fabric⟩
  | .evrTsNs => ⟨0x044, 32, .fabric⟩
  | .evrReset => ⟨0x048, 8, .software⟩
  | .iocAccess => ⟨0x050, 1, .software⟩
  | .tenhzDatasend => ⟨0x054, 1, .software⟩
  | .snapshotAddrptr => ⟨0xA00, 32, .fabric⟩
  | .snapshotTotaltrigs => ⟨0xA04, 32, .fabric⟩
  | .softtrig => ⟨0xA08, 8, .software⟩
  | .testtrig => ⟨0xA0C, 16, .software⟩

def all : List GlobReg :=
  [.fpgaver, .leds, .resolution, .numChans, .bandwidth, .polarity, .evrInjEventno,
   .evrPmEventno, .evr1hzEventno, .evr10hzEventno, .evr10khzEventno, .evrTsS, .evrTsNs,
   .evrReset, .iocAccess, .tenhzDatasend, .snapshotAddrptr, .snapshotTotaltrigs, .softtrig,
   .testtrig]

end GlobReg

def base : Chan → Nat
  | .ps1 => 0x200
  | .ps2 => 0x400
  | .ps3 => 0x600
  | .ps4 => 0x800

def chanAddr (c : Chan) (r : ChanReg) : BitVec 32 := BitVec.ofNat 32 (base c + r.info.offset)

def globAddr (g : GlobReg) : BitVec 32 := BitVec.ofNat 32 g.info.offset

/-- The register at an address, if one of the above is there. -/
def infoAt (addr : BitVec 32) : Option RegInfo :=
  if 0x200 ≤ addr.toNat ∧ addr.toNat < 0xA00 then
    (ChanReg.all.find? fun r => r.info.offset = addr.toNat % 0x200).map ChanReg.info
  else (GlobReg.all.find? fun g => g.info.offset = addr.toNat).map GlobReg.info

/-- How many bits of a word written to an address stay there; what the fabric
supplies is overwritten by it at every clock. -/
def storedWidth (addr : BitVec 32) : Option Nat :=
  (infoAt addr).bind fun info => if info.source = .software then some info.width else none

namespace ChanReg

theorem find_offset (r : ChanReg) :
    (all.find? fun r' => r'.info.offset = r.info.offset) = some r := by
  cases r <;> rfl

theorem offset_lt (r : ChanReg) : r.info.offset < 0x200 := by
  cases r <;> decide

theorem offset_injective {r r' : ChanReg} (same : r.info.offset = r'.info.offset) : r = r' := by
  have found := find_offset r
  rw [same, find_offset r'] at found
  exact (Option.some.inj found).symm

end ChanReg

theorem base_bounds (c : Chan) : 0x200 ≤ base c ∧ base c ≤ 0x800 ∧ base c % 0x200 = 0 := by
  cases c <;> decide

theorem base_injective {c c' : Chan} (same : base c = base c') : c = c' := by
  cases c <;> cases c' <;> first | rfl | exact absurd same (by decide)

theorem chanAddr_toNat (c : Chan) (r : ChanReg) :
    (chanAddr c r).toNat = base c + r.info.offset := by
  have low := r.offset_lt
  have bounds := base_bounds c
  rw [chanAddr, BitVec.toNat_ofNat]
  exact Nat.mod_eq_of_lt (by omega)

/-- No two channel registers share an address. -/
theorem chanAddr_injective {c c' : Chan} {r r' : ChanReg} (same : chanAddr c r = chanAddr c' r') :
    c = c' ∧ r = r' := by
  have equal := congrArg BitVec.toNat same
  rw [chanAddr_toNat, chanAddr_toNat] at equal
  have low := r.offset_lt
  have low' := r'.offset_lt
  obtain ⟨-, -, aligned⟩ := base_bounds c
  obtain ⟨-, -, aligned'⟩ := base_bounds c'
  have bases : base c = base c' := by omega
  exact ⟨base_injective bases, ChanReg.offset_injective (by omega)⟩

theorem chanAddr_ne {c : Chan} {r r' : ChanReg} (apart : r ≠ r') : chanAddr c r ≠ chanAddr c r' :=
  fun same => apart (chanAddr_injective same).2

/-- The registers below the channels' belong to none. -/
theorem chanAddr_ne_global {c : Chan} {r : ChanReg} {addr : BitVec 32} (low : addr.toNat < 0x200) :
    chanAddr c r ≠ addr := by
  rintro rfl
  have bounds := base_bounds c
  rw [chanAddr_toNat] at low
  omega

theorem infoAt_chanAddr (c : Chan) (r : ChanReg) : infoAt (chanAddr c r) = some r.info := by
  have low := r.offset_lt
  obtain ⟨above, below, aligned⟩ := base_bounds c
  have offset : (base c + r.info.offset) % 0x200 = r.info.offset := by omega
  rw [infoAt, chanAddr_toNat, if_pos (by omega), offset, ChanReg.find_offset]
  rfl

theorem storedWidth_chanAddr (c : Chan) {r : ChanReg} (software : r.info.source = .software) :
    storedWidth (chanAddr c r) = some r.info.width := by
  rw [storedWidth, infoAt_chanAddr, Option.bind_some, if_pos software]

/-- What the fabric supplies is not stored. -/
theorem storedWidth_chanAddr_fabric (c : Chan) {r : ChanReg} (fabric : r.info.source = .fabric) :
    storedWidth (chanAddr c r) = none := by
  rw [storedWidth, infoAt_chanAddr, Option.bind_some, fabric]
  rfl

theorem find_chanAddr (c : Chan) (r : ChanReg) :
    (ChanReg.all.find? fun r' => chanAddr c r' = chanAddr c r) = some r := by
  have same : ∀ r', chanAddr c r' = chanAddr c r ↔ r'.info.offset = r.info.offset := by
    intro r'
    constructor
    · intro addr
      rw [(chanAddr_injective addr).2]
    · intro offset
      rw [ChanReg.offset_injective offset]
  simp only [same]
  exact ChanReg.find_offset r

end PscDigpid.Rdl
