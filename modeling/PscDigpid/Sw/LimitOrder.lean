/- Unit: PscDigpid/Sw/LimitOrder
   layer: result
   source: src/sw/src/control.c (chan_settings), src/hw/hdl/ps_io.vhd, src/hw/hdl/fault_module.vhd
   digest: Which larger limits are larger in the fault block too, with the server's roundings. -/

import PscDigpid.Sw.FaultLimits
import PscDigpid.Sw.SettingReadback
import PscDigpid.Sw.Sdcard

set_option autoImplicit false
set_option relaxedAutoImplicit false

namespace PscDigpid.Sw

open PscDigpid.Hdl
open PscDigpid.Num
open PscDigpid.Sync

/-- The limits of a channel's faults that messages set. -/
inductive Limit
  | thresh (k : Thresh)
  | cntlim (k : Cntlim)
  deriving DecidableEq

namespace Limit

def setting : Limit → Setting
  | thresh k => .thresh k
  | cntlim k => .cntlim k

/-- A threshold is taken by its magnitude, a count limit as it is. -/
def effective (p : FaultParamsOnech) : Limit → Nat
  | thresh .ovc1 => p.ovc1Thresh.toInt.natAbs
  | thresh .ovc2 => p.ovc2Thresh.toInt.natAbs
  | thresh .ovv => p.ovvThresh.toInt.natAbs
  | thresh .err1 => p.err1Thresh.toInt.natAbs
  | thresh .err2 => p.err2Thresh.toInt.natAbs
  | thresh .ignd => p.igndThresh.toInt.natAbs
  | cntlim .ovc1 => p.ovc1Cntlim.toNat
  | cntlim .ovc2 => p.ovc2Cntlim.toNat
  | cntlim .ovv => p.ovvCntlim.toNat
  | cntlim .err1 => p.err1Cntlim.toNat
  | cntlim .err2 => p.err2Cntlim.toNat
  | cntlim .ignd => p.igndCntlim.toNat
  | cntlim .dcct => p.dcctCntlim.toNat
  | cntlim .flt1 => p.flt1Cntlim.toNat
  | cntlim .flt2 => p.flt2Cntlim.toNat
  | cntlim .flt3 => p.flt3Cntlim.toNat
  | cntlim .on => p.onCntlim.toNat
  | cntlim .heart => p.heartCntlim.toNat

section Blocks

variable (i : FaultModule.Ports) (undriven : PerChan (BitVec 16)) (c : Chan) (b : Board)

/-- A limit at the port of a channel's fault block, whatever else comes to the fault
module. -/
def inBlock (l : Limit) : Nat :=
  effective (FaultModule.chFaults
    { i with faultParams := PsIo.faultParams b.regs undriven } c).faultParams l

theorem inBlock_thresh (k : Thresh) : inBlock i undriven c b (thresh k) =
    ((b.regs (Rdl.chanAddr c (Setting.thresh k).reg)).setWidth
      (Setting.thresh k).reg.info.width).toInt.natAbs := by
  cases c <;> cases k <;> rfl

/-- Every count limit but the DCCT fault's comes from its register. -/
theorem inBlock_cntlim (k : Cntlim) : inBlock i undriven c b (cntlim k) =
    if k = .dcct then (undriven.get c).toNat
    else ((b.regs (Rdl.chanAddr c (Setting.cntlim k).reg)).setWidth
      (Setting.cntlim k).reg.info.width).toNat := by
  cases c <;> cases k <;> rfl

end Blocks

section Counts

variable (c : Chan) (b : Board) (data : BitVec 32)

/-- The commanded value in counts, as the server computes it. -/
def converted : Limit → Fp
  | thresh k =>
      let w := (Setting.thresh k).width
      ieee.div w (ieee.mul w (ieee.ofBits data) (ieee.constant w ((Setting.thresh k).conv b)))
        (ieee.ofBits (k.sf (b.scalefactors (chanNumber c - 1))))
  | cntlim _ => ieee.mul .double (ieee.ofBits data) (ieee.constant .double sampleRate)

/-- The integer it becomes, kept within the server's integers. -/
def count (l : Limit) : Int := (ieee.toS32 (l.converted c b data)).toInt

/-- The word that the message writes. -/
def word (l : Limit) : BitVec 32 :=
  match l with
  | thresh k => Setting.thresh16 (ieee.toS32 (l.converted c b data)) k
  | cntlim _ => ieee.toS32 (l.converted c b data)

/-- What becomes of a count on its way to the fault block: the overcurrent thresholds keep 20 bits
and have a sign, the others stop at the largest of 16 bits, and a count limit keeps 16 bits. -/
def kept (dcct : BitVec 16) (n : Int) : Limit → Nat
  | thresh .ovc1 | thresh .ovc2 => (n.bmod 1048576).natAbs
  | thresh _ => (min n 32767).natAbs
  | cntlim .dcct => dcct.toNat
  | cntlim _ => (n % 65536).toNat

/-- When the larger of two counts is not kept as less than the other: it fits the register, or the
other is no farther past a multiple of the register's range, which for the overcurrent thresholds
is counted to the nearer multiple. -/
def Ordered (n n' : Int) : Limit → Prop
  | thresh .ovc1 | thresh .ovc2 =>
      n' ≤ 524288 ∨ (n.bmod 1048576).natAbs ≤ (n'.bmod 1048576).natAbs
  | thresh _ => True
  | cntlim .dcct => True
  | cntlim _ => n' < 65536 ∨ n % 65536 ≤ n' % 65536

end Counts

section Order

variable {n n' : Int}

/-- The order of the counts decides what is kept of them. -/
theorem kept_le_iff (l : Limit) (dcct : BitVec 16) (nonneg : 0 ≤ n) (le : n ≤ n') :
    l.kept dcct n ≤ l.kept dcct n' ↔ l.Ordered n n' := by
  have magnitude : (n.bmod 1048576).natAbs ≤ (n'.bmod 1048576).natAbs ↔
      n' ≤ 524288 ∨ (n.bmod 1048576).natAbs ≤ (n'.bmod 1048576).natAbs := by
    refine ⟨Or.inr, Or.rec (fun fits => ?_) id⟩
    rw [natAbs_bmod (by decide) nonneg (by omega), natAbs_bmod (by decide) (by omega) (by omega)]
    omega
  have remainder : (n % 65536).toNat ≤ (n' % 65536).toNat ↔
      n' < 65536 ∨ n % 65536 ≤ n' % 65536 := by
    omega
  cases l with
  | thresh k =>
      cases k with
      | ovc1 | ovc2 => exact magnitude
      | ovv | err1 | err2 | ignd =>
          refine iff_of_true ?_ trivial
          change (min n 32767).natAbs ≤ (min n' 32767).natAbs
          omega
  | cntlim k =>
      cases k with
      | dcct => exact iff_of_true le_rfl trivial
      | ovc1 | ovc2 | ovv | err1 | err2 | ignd | flt1 | flt2 | flt3 | on | heart =>
          exact remainder

end Order

/-- The DAC conversion is that of a resolution, and the scale factors of the channel are
positive. -/
structure Scaled (c : Chan) (b : Board) : Prop where
  conv : ∃ r : Resolution, b.convVoltsToDacBits = r.conv
  factors : ∀ word ∈ qspiScalefactors (b.scalefactors (chanNumber c - 1)), 0 < single word

section Messages

variable {c : Chan} {b : Board} {data : BitVec 32}

/-- What a value is multiplied by is still positive once it is rounded. -/
theorem Scaled.constant_positive (scaled : Scaled c b) (k : Thresh) :
    (ieee.constant (Setting.thresh k).width ((Setting.thresh k).conv b)).positive = true := by
  have dacBits : (ieee.constant .float b.convVoltsToDacBits).positive = true := by
    obtain ⟨r, conv⟩ := scaled.conv
    rw [conv]
    cases r with
    | ms | hs => decide +kernel
  have volts : (ieee.constant .double convVoltsTo16Bits).positive = true := by
    decide +kernel
  cases k with
  | ovc1 | ovc2 => exact dacBits
  | ovv | err1 | err2 | ignd => exact volts

theorem sampleRate_positive : (ieee.constant .double sampleRate).positive = true := by
  decide +kernel

/-- A larger value has no smaller count. -/
theorem Scaled.count_mono (scaled : Scaled c b) (l : Limit) {data' : BitVec 32}
    (nonneg : 0 ≤ Fp.ofBits data) (le : Fp.ofBits data ≤ Fp.ofBits data') :
    count c b data l ≤ count c b data' l := by
  cases l with
  | thresh k =>
      have positive := scaled.constant_positive k
      have products := Fp.mul_le_mul_right (f := (Setting.thresh k).width.format) positive nonneg le
      have low := Fp.mul_nonneg_right (f := (Setting.thresh k).width.format) positive nonneg
      obtain infinite | factor :=
        Fp.ofBits_of_single_pos (scaled.factors _ (Setting.thresh_sf_mem k _))
      · -- everything is divided away
        have none : ∀ data, (converted c b data (thresh k)).toS32 = 0 := by
          intro data
          change (Fp.div _ _ (Fp.ofBits _)).toS32 = 0
          rw [infinite, Fp.toS32_div_inf]
        rw [count, count]
        change (Fp.toS32 _).toInt ≤ (Fp.toS32 _).toInt
        rw [none, none]
      · exact Fp.toS32_mono (Fp.div_le_div_right factor low products)
  | cntlim k => exact Fp.toS32_mono (Fp.mul_le_mul_right sampleRate_positive nonneg le)

theorem Scaled.count_nonneg (scaled : Scaled c b) (l : Limit) (nonneg : 0 ≤ Fp.ofBits data) :
    0 ≤ count c b data l := by
  cases l with
  | thresh k =>
      have low := Fp.mul_nonneg_right (f := (Setting.thresh k).width.format)
        (scaled.constant_positive k) nonneg
      obtain infinite | factor :=
        Fp.ofBits_of_single_pos (scaled.factors _ (Setting.thresh_sf_mem k _))
      · change 0 ≤ (Fp.toS32 (Fp.div _ _ (Fp.ofBits _))).toInt
        rw [infinite, Fp.toS32_div_inf]
        decide
      · exact Fp.toS32_nonneg (Fp.div_nonneg_right factor low)
  | cntlim k => exact Fp.toS32_nonneg (Fp.mul_nonneg_right sampleRate_positive nonneg)

/-- The message of a limit writes its word. -/
theorem chanSettings_limit {l : Limit} {msg : Nat → BitVec 8}
    (address : msgWord msg 0 = l.setting.msg.addr) (page : Page) :
    chanSettingsWith ieee page (chanNumber c) msg b =
      some (b.xilOut32 (Rdl.chanAddr c l.setting.reg) (l.word c b (msgWord msg 1))) := by
  rw [chanSettingsWith, address, ChanMsg.ofAddr_addr, ← Setting.chanReg_swReg]
  cases l with
  | thresh k => exact Setting.chanMessageWith_thresh c b _ ieee k page
  | cntlim k => exact Setting.chanMessageWith_cntlim c b _ ieee k page

/-- A limit's register shows the low bits of what is written to it. -/
theorem regs_written (c : Chan) (b : Board) (s : Setting) (w : BitVec 32)
    (le : s.reg.info.width ≤ 32) :
    ((b.xilOut32 (Rdl.chanAddr c s.reg) w).regs (Rdl.chanAddr c s.reg)).setWidth
      s.reg.info.width = w.setWidth s.reg.info.width := by
  rw [b.xilOut32_regs (setting_stored c s), Function.update_self, Setting.kept_eq,
    BitVec.setWidth_setWidth_of_le _ le, BitVec.setWidth_eq]

theorem inBlock_thresh_written (k : Thresh) (low : 0 ≤ count c b data (thresh k))
    (i : FaultModule.Ports) (undriven : PerChan (BitVec 16)) :
    inBlock i undriven c (b.xilOut32 (Rdl.chanAddr c (Setting.thresh k).reg)
      (word c b data (thresh k))) (thresh k) =
        (thresh k).kept (undriven.get c) (count c b data (thresh k)) := by
  rw [inBlock_thresh]
  by_cases ovc : k = .ovc1 ∨ k = .ovc2
  · obtain rfl | rfl := ovc
    · rw [regs_written _ _ _ _ (by decide), toInt_setWidth_le _ (by decide)]
      rfl
    · rw [regs_written _ _ _ _ (by decide), toInt_setWidth_le _ (by decide)]
      rfl
  · have width := Setting.width_thresh ovc
    have stopped : kept (undriven.get c) (count c b data (thresh k)) (thresh k) =
        (min (count c b data (thresh k)) 32767).natAbs := by
      cases k <;> first | rfl | exact absurd (by simp) ovc
    have written : (word c b data (thresh k)).toInt = min (count c b data (thresh k)) 32767 :=
      Setting.toInt_thresh16 ovc _
    rw [regs_written _ _ _ _ (by omega), toInt_setWidth_le _ (by omega), width, stopped, written]
    exact natAbs_bmod (by decide) (by omega) (by omega)

theorem inBlock_cntlim_written (k : Cntlim) (low : 0 ≤ count c b data (cntlim k))
    (i : FaultModule.Ports) (undriven : PerChan (BitVec 16)) :
    inBlock i undriven c (b.xilOut32 (Rdl.chanAddr c (Setting.cntlim k).reg)
      (word c b data (cntlim k))) (cntlim k) =
        (cntlim k).kept (undriven.get c) (count c b data (cntlim k)) := by
  rw [inBlock_cntlim]
  by_cases dcct : k = .dcct
  · subst dcct
    rfl
  · have width : (Setting.reg (.cntlim k)).info.width = 16 := by
      cases k <;> rfl
    have cut : kept (undriven.get c) (count c b data (cntlim k)) (cntlim k) =
        (count c b data (cntlim k) % 65536).toNat := by
      cases k <;> first | rfl | exact absurd rfl dcct
    have value : (word c b data (cntlim k)).toInt = count c b data (cntlim k) := rfl
    rw [if_neg dcct, regs_written _ _ _ _ (by omega), BitVec.toNat_setWidth, width, cut, ← value]
    rw [← value, BitVec.toInt_eq_toNat_cond] at low
    rw [BitVec.toInt_eq_toNat_cond]
    omega

/-- What the fault block has of a limit once its message is handled. -/
theorem inBlock_written (l : Limit) (low : 0 ≤ count c b data l) (i : FaultModule.Ports)
    (undriven : PerChan (BitVec 16)) :
    inBlock i undriven c (b.xilOut32 (Rdl.chanAddr c l.setting.reg) (l.word c b data)) l =
      l.kept (undriven.get c) (count c b data l) := by
  cases l with
  | thresh k => exact inBlock_thresh_written k low i undriven
  | cntlim k => exact inBlock_cntlim_written k low i undriven

end Messages

/-- Two boards convert a channel's values alike. -/
structure SameScales (c : Chan) (b b' : Board) : Prop where
  conv : b'.convVoltsToDacBits = b.convVoltsToDacBits
  factors : b'.scalefactors (chanNumber c - 1) = b.scalefactors (chanNumber c - 1)

namespace SameScales

variable {c : Chan} {b b' : Board} (same : SameScales c b b')
include same

theorem count (data : BitVec 32) (l : Limit) : l.count c b' data = l.count c b data := by
  cases l with
  | thresh k =>
      have volts : (Setting.thresh k).conv b' = (Setting.thresh k).conv b := by
        cases k with
        | ovc1 | ovc2 => exact same.conv
        | ovv | err1 | err2 | ignd => rfl
      rw [Limit.count, Limit.count, converted, converted, volts, same.factors]
  | cntlim k => rfl

end SameScales

section Raised

variable {i : FaultModule.Ports} {undriven : PerChan (BitVec 16)} {page page' : Page} {c : Chan}
  {l : Limit} {msg msg' : Nat → BitVec 8} {b b' : Board}

/-- The messages of two values for one limit are handled, and the limit after the second is no
smaller. -/
def Raised (i : FaultModule.Ports) (undriven : PerChan (BitVec 16)) (page page' : Page)
    (c : Chan) (l : Limit) (msg msg' : Nat → BitVec 8) (b b' : Board) : Prop :=
  ∃ after after', chanSettingsWith ieee page (chanNumber c) msg b = some after ∧
    chanSettingsWith ieee page' (chanNumber c) msg' b' = some after' ∧
      inBlock i undriven c after l ≤ inBlock i undriven c after' l

theorem raised_iff_kept (address : msgWord msg 0 = l.setting.msg.addr)
    (address' : msgWord msg' 0 = l.setting.msg.addr) (same : SameScales c b b')
    (low : 0 ≤ l.count c b (msgWord msg 1)) (low' : 0 ≤ l.count c b (msgWord msg' 1)) :
    Raised i undriven page page' c l msg msg' b b' ↔
      l.kept (undriven.get c) (l.count c b (msgWord msg 1)) ≤
        l.kept (undriven.get c) (l.count c b (msgWord msg' 1)) := by
  have handled := chanSettings_limit (c := c) (b := b) address page
  have handled' := chanSettings_limit (c := c) (b := b') address' page'
  rw [← same.count (msgWord msg' 1)] at low' ⊢
  rw [← inBlock_written l low i undriven, ← inBlock_written l low' i undriven]
  constructor
  · rintro ⟨after, after', result, result', kept⟩
    obtain rfl := Option.some.inj (handled.symm.trans result)
    obtain rfl := Option.some.inj (handled'.symm.trans result')
    exact kept
  · intro kept
    exact ⟨_, _, handled, handled', kept⟩

end Raised

/-- The larger of two values for one limit, whenever each comes, leaves no smaller limit in the
fault block exactly when its count is ordered with the other's. -/
theorem raised_iff_ordered (i : FaultModule.Ports) (undriven : PerChan (BitVec 16))
    (page page' : Page) (c : Chan) (l : Limit) (msg msg' : Nat → BitVec 8) (b b' : Board)
    (address : msgWord msg 0 = l.setting.msg.addr)
    (address' : msgWord msg' 0 = l.setting.msg.addr)
    (scaled : Scaled c b) (same : SameScales c b b')
    (nonneg : 0 ≤ Fp.ofBits (msgWord msg 1))
    (le : Fp.ofBits (msgWord msg 1) ≤ Fp.ofBits (msgWord msg' 1)) :
    Raised i undriven page page' c l msg msg' b b' ↔
      l.Ordered (l.count c b (msgWord msg 1)) (l.count c b (msgWord msg' 1)) := by
  have low := scaled.count_nonneg l nonneg
  have order := scaled.count_mono l nonneg le
  rw [raised_iff_kept address address' same low (low.trans order)]
  exact kept_le_iff l _ low order

theorem blankBoard_scaled (c : Chan) : Scaled c blankBoard where
  conv := ⟨.hs, rfl⟩
  factors := blankBoard_factors _

/-- Two seconds are a larger limit than one. -/
theorem two_seconds_raise : Raised quietInputs (PerChan.of fun _ => 0) (fun _ => 0) (fun _ => 0)
    .ps1 (cntlim .ovc1) (wordMessage 212 0x3F800000) (wordMessage 212 0x40000000) blankBoard
    blankBoard := by
  have count : (cntlim .ovc1).count .ps1 blankBoard
      (msgWord (wordMessage 212 0x40000000) 1) = 20000 := by
    decide +kernel
  refine (raised_iff_ordered quietInputs (PerChan.of fun _ => 0) (fun _ => 0) (fun _ => 0) .ps1
    (cntlim .ovc1) (wordMessage 212 0x3F800000) (wordMessage 212 0x40000000) blankBoard
    blankBoard (by decide) (by decide) (blankBoard_scaled .ps1) ⟨rfl, rfl⟩
    (by decide +kernel) (by decide +kernel)).2 ?_
  left
  rw [count]
  decide

/-- Seven seconds are a smaller one. -/
theorem seven_seconds_lower :
    0 ≤ Fp.ofBits (msgWord (wordMessage 212 0x3F800000) 1) ∧
    Fp.ofBits (msgWord (wordMessage 212 0x3F800000) 1) ≤
      Fp.ofBits (msgWord (wordMessage 212 0x40E00000) 1) ∧
    Scaled .ps1 blankBoard ∧
    ¬ Raised quietInputs (PerChan.of fun _ => 0) (fun _ => 0) (fun _ => 0) .ps1 (cntlim .ovc1)
      (wordMessage 212 0x3F800000) (wordMessage 212 0x40E00000) blankBoard blankBoard := by
  refine ⟨by decide +kernel, by decide +kernel, blankBoard_scaled .ps1, ?_⟩
  have one : (cntlim .ovc1).count .ps1 blankBoard
      (msgWord (wordMessage 212 0x3F800000) 1) = 10000 := by
    decide +kernel
  have seven : (cntlim .ovc1).count .ps1 blankBoard
      (msgWord (wordMessage 212 0x40E00000) 1) = 70000 := by
    decide +kernel
  rw [raised_iff_kept (by decide) (by decide) ⟨rfl, rfl⟩ (by rw [one]; decide)
    (by rw [seven]; decide), one, seven]
  decide

/-- A full scale of 250 A takes 524288 counts, and what is a little more rounds up to one count
more, which the register takes as negative. -/
example :
    let board := updateScalefactors 1 blankBoard fun sf => { sf with dacDccts := 0x41C80000 }
    (thresh .ovc1).count .ps1 board 0x437A0000 = 524288 ∧
      (thresh .ovc1).count .ps1 board 0x437A001F = 524289 := by
  decide +kernel

end Limit

end PscDigpid.Sw
