/- Unit: PscDigpid/Sw/Settings
   layer: model
   source: src/sw/src/control.c (chan_settings), src/sw/src/sadata.c (sadata_push)
   digest: The settings that are scaled on their way in and on their way out. -/

import Mathlib.Data.List.Nodup
import PscDigpid.Sw.Sadata

set_option autoImplicit false
set_option relaxedAutoImplicit false

namespace PscDigpid.Sw

open PscDigpid.Hdl (Chan)
open PscDigpid.Num

/-- What has a gain and an offset. -/
inductive Gauge
  | dacSetpt | dcct1 | dcct2 | dacmon | volt | gnd | spare | reg | err
  deriving DecidableEq

inductive Thresh
  | ovc1 | ovc2 | ovv | err1 | err2 | ignd
  deriving DecidableEq

inductive Cntlim
  | ovc1 | ovc2 | ovv | err1 | err2 | ignd | dcct | flt1 | flt2 | flt3 | on | heart
  deriving DecidableEq

inductive Digout
  | on1 | on2 | reset | spare | park
  deriving DecidableEq

/-- The settings of a channel that a message commands as a number. -/
inductive Setting
  | gain (k : Gauge)
  | offset (k : Gauge)
  | thresh (k : Thresh)
  | cntlim (k : Cntlim)
  | digout (k : Digout)
  deriving DecidableEq

namespace Setting

/-- The message that commands a setting. -/
def msg : Setting → ChanMsg
  | .gain .dacSetpt => .dacSetptGain
  | .gain .dcct1 => .dcct1Gain
  | .gain .dcct2 => .dcct2Gain
  | .gain .dacmon => .dacmonGain
  | .gain .volt => .voltGain
  | .gain .gnd => .gndGain
  | .gain .spare => .spareGain
  | .gain .reg => .regGain
  | .gain .err => .errGain
  | .offset .dacSetpt => .dacSetptOffset
  | .offset .dcct1 => .dcct1Offset
  | .offset .dcct2 => .dcct2Offset
  | .offset .dacmon => .dacmonOffset
  | .offset .volt => .voltOffset
  | .offset .gnd => .gndOffset
  | .offset .spare => .spareOffset
  | .offset .reg => .regOffset
  | .offset .err => .errOffset
  | .thresh .ovc1 => .ovc1Thresh
  | .thresh .ovc2 => .ovc2Thresh
  | .thresh .ovv => .ovvThresh
  | .thresh .err1 => .err1Thresh
  | .thresh .err2 => .err2Thresh
  | .thresh .ignd => .igndThresh
  | .cntlim .ovc1 => .ovc1Cntlim
  | .cntlim .ovc2 => .ovc2Cntlim
  | .cntlim .ovv => .ovvCntlim
  | .cntlim .err1 => .err1Cntlim
  | .cntlim .err2 => .err2Cntlim
  | .cntlim .ignd => .igndCntlim
  | .cntlim .dcct => .dcctCntlim
  | .cntlim .flt1 => .flt1Cntlim
  | .cntlim .flt2 => .flt2Cntlim
  | .cntlim .flt3 => .flt3Cntlim
  | .cntlim .on => .onCntlim
  | .cntlim .heart => .heartCntlim
  | .digout .on1 => .digoutOn1
  | .digout .on2 => .digoutOn2
  | .digout .reset => .digoutReset
  | .digout .spare => .digoutSpare
  | .digout .park => .digoutPark

/-- The register that the message writes, in the server's table. -/
def swReg : Setting → BitVec 32
  | .gain .dacSetpt => dacSetptGainReg
  | .gain .dcct1 => dcct1GainReg
  | .gain .dcct2 => dcct2GainReg
  | .gain .dacmon => dacmonGainReg
  | .gain .volt => voltGainReg
  | .gain .gnd => gndGainReg
  | .gain .spare => spareGainReg
  | .gain .reg => regGainReg
  | .gain .err => errGainReg
  | .offset .dacSetpt => dacSetptOffsetReg
  | .offset .dcct1 => dcct1OffsetReg
  | .offset .dcct2 => dcct2OffsetReg
  | .offset .dacmon => dacmonOffsetReg
  | .offset .volt => voltOffsetReg
  | .offset .gnd => gndOffsetReg
  | .offset .spare => spareOffsetReg
  | .offset .reg => regOffsetReg
  | .offset .err => errOffsetReg
  | .thresh .ovc1 => ovc1ThreshReg
  | .thresh .ovc2 => ovc2ThreshReg
  | .thresh .ovv => ovvThreshReg
  | .thresh .err1 => err1ThreshReg
  | .thresh .err2 => err2ThreshReg
  | .thresh .ignd => igndThreshReg
  | .cntlim .ovc1 => ovc1CntlimReg
  | .cntlim .ovc2 => ovc2CntlimReg
  | .cntlim .ovv => ovvCntlimReg
  | .cntlim .err1 => err1CntlimReg
  | .cntlim .err2 => err2CntlimReg
  | .cntlim .ignd => igndCntlimReg
  | .cntlim .dcct => dcctCntlimReg
  | .cntlim .flt1 => flt1CntlimReg
  | .cntlim .flt2 => flt2CntlimReg
  | .cntlim .flt3 => flt3CntlimReg
  | .cntlim .on => onCntlimReg
  | .cntlim .heart => heartbeatCntlimReg
  | .digout .on1 => digoutOn1Reg
  | .digout .on2 => digoutOn2Reg
  | .digout .reset => digoutResetReg
  | .digout .spare => digoutSpareReg
  | .digout .park => digoutParkReg

/-- The same register in the register map. -/
def reg : Setting → Rdl.ChanReg
  | .gain .dacSetpt => .dacSetptGain
  | .gain .dcct1 => .dcct0Gain
  | .gain .dcct2 => .dcct1Gain
  | .gain .dacmon => .dacmonGain
  | .gain .volt => .voltGain
  | .gain .gnd => .gndGain
  | .gain .spare => .spareGain
  | .gain .reg => .regGain
  | .gain .err => .errGain
  | .offset .dacSetpt => .dacSetptOffset
  | .offset .dcct1 => .dcct0Offset
  | .offset .dcct2 => .dcct1Offset
  | .offset .dacmon => .dacmonOffset
  | .offset .volt => .voltOffset
  | .offset .gnd => .gndOffset
  | .offset .spare => .spareOffset
  | .offset .reg => .regOffset
  | .offset .err => .errOffset
  | .thresh .ovc1 => .ovc1Thresh
  | .thresh .ovc2 => .ovc2Thresh
  | .thresh .ovv => .ovvThresh
  | .thresh .err1 => .err1Thresh
  | .thresh .err2 => .err2Thresh
  | .thresh .ignd => .igndThresh
  | .cntlim .ovc1 => .ovc1Cntlim
  | .cntlim .ovc2 => .ovc2Cntlim
  | .cntlim .ovv => .ovvCntlim
  | .cntlim .err1 => .err1Cntlim
  | .cntlim .err2 => .err2Cntlim
  | .cntlim .ignd => .igndCntlim
  | .cntlim .dcct => .dcctCntlim
  | .cntlim .flt1 => .flt1Cntlim
  | .cntlim .flt2 => .flt2Cntlim
  | .cntlim .flt3 => .flt3Cntlim
  | .cntlim .on => .onCntlim
  | .cntlim .heart => .heartbeatCntlim
  | .digout .on1 => .digoutOn1
  | .digout .on2 => .digoutOn2
  | .digout .reset => .digoutReset
  | .digout .spare => .digoutSpare
  | .digout .park => .digoutPark

/-- The field of its name in the ten-hertz message. -/
def field (p : SAdataChan) : Setting → ℚ
  | .gain .dacSetpt => p.dacSetptGain
  | .gain .dcct1 => p.dcct1Gain
  | .gain .dcct2 => p.dcct2Gain
  | .gain .dacmon => p.dacmonGain
  | .gain .volt => p.voltGain
  | .gain .gnd => p.gndGain
  | .gain .spare => p.spareGain
  | .gain .reg => p.regGain
  | .gain .err => p.errorGain
  | .offset .dacSetpt => p.dacSetptOffset
  | .offset .dcct1 => p.dcct1Offset
  | .offset .dcct2 => p.dcct2Offset
  | .offset .dacmon => p.dacmonOffset
  | .offset .volt => p.voltOffset
  | .offset .gnd => p.gndOffset
  | .offset .spare => p.spareOffset
  | .offset .reg => p.regOffset
  | .offset .err => p.errorOffset
  | .thresh .ovc1 => p.ovc1Thresh
  | .thresh .ovc2 => p.ovc2Thresh
  | .thresh .ovv => p.ovvThresh
  | .thresh .err1 => p.err1Thresh
  | .thresh .err2 => p.err2Thresh
  | .thresh .ignd => p.igndThresh
  | .cntlim .ovc1 => p.ovc1Cntlim
  | .cntlim .ovc2 => p.ovc2Cntlim
  | .cntlim .ovv => p.ovvCntlim
  | .cntlim .err1 => p.err1Cntlim
  | .cntlim .err2 => p.err2Cntlim
  | .cntlim .ignd => p.igndCntlim
  | .cntlim .dcct => p.dcctCntlim
  | .cntlim .flt1 => p.flt1Cntlim
  | .cntlim .flt2 => p.flt2Cntlim
  | .cntlim .flt3 => p.flt3Cntlim
  | .cntlim .on => p.onCntlim
  | .cntlim .heart => p.heartbeatCntlim
  | .digout .on1 => p.digoutOn1.toNat
  | .digout .on2 => p.digoutOn2.toNat
  | .digout .reset => p.digoutReset.toNat
  | .digout .spare => p.digoutSpare.toNat
  | .digout .park => p.digoutPark.toNat

def all : List Setting :=
  let gauges : List Gauge := [.dacSetpt, .dcct1, .dcct2, .dacmon, .volt, .gnd, .spare, .reg, .err]
  gauges.map .gain ++ gauges.map .offset ++
    [Thresh.ovc1, .ovc2, .ovv, .err1, .err2, .ignd].map .thresh ++
    [Cntlim.ovc1, .ovc2, .ovv, .err1, .err2, .ignd, .dcct, .flt1, .flt2, .flt3, .on,
      .heart].map .cntlim ++
    [Digout.on1, .on2, .reset, .spare, .park].map .digout

theorem mem_all (s : Setting) : s ∈ all := by
  cases s with
  | _ k => cases k <;> decide

theorem reg_nodup : (all.map reg).Nodup := by
  decide

/-- Each setting has a register of its own. -/
theorem reg_injective {s s' : Setting} (same : s.reg = s'.reg) : s = s' :=
  List.inj_on_of_nodup_map reg_nodup (mem_all s) (mem_all s') same

/-- The server's table and the register map agree on every setting of every channel. -/
theorem chanReg_swReg (c : Chan) (s : Setting) :
    chanReg (chanNumber c) s.swReg = Rdl.chanAddr c s.reg := by
  apply chanReg_offset
  cases s with
  | _ k => cases k <;> rfl

theorem reg_software (s : Setting) : s.reg.info.source = .software := by
  cases s with
  | _ k => cases k <;> rfl

end Setting

/-- The scale factor of a gauge. -/
def Gauge.sf : Gauge → ScaleFactorType → BitVec 32
  | .volt => (·.vout)
  | .gnd => (·.ignd)
  | .spare => (·.spare)
  | .reg => (·.regulator)
  | .err => (·.error)
  | _ => (·.dacDccts)

/-- What a threshold is divided by on its way in. -/
def Thresh.sf : Thresh → ScaleFactorType → BitVec 32
  | .ovc1 | .ovc2 => (·.dacDccts)
  | .ovv => (·.vout)
  | .err1 | .err2 | .ignd => (·.error)

/-- What it is multiplied by on its way out. -/
def Thresh.sfShown : Thresh → ScaleFactorType → BitVec 32
  | .ignd => (·.ignd)
  | k => k.sf

/-- The output whose register the field of an output is read from. -/
def Digout.shown : Digout → Digout
  | .on1 | .on2 | .reset => .on1
  | .spare => .reset
  | .park => .park

namespace Setting

section Scales

variable (c : Chan) (b : Board)

/-- Counts for a volt. -/
def conv : Setting → ℚ
  | .offset .dacSetpt | .offset .dcct1 | .offset .dcct2 | .thresh .ovc1 | .thresh .ovc2 =>
      b.convVoltsToDacBits
  | _ => convVoltsTo16Bits

/-- The format the conversion computes in. -/
def width : Setting → Width
  | .offset .dacSetpt | .offset .dcct1 | .offset .dcct2 | .thresh .ovc1 | .thresh .ovc2 => .float
  | _ => .double

/-- The counts of a register for one of what is commanded. -/
def scale (s : Setting) : ℚ :=
  match s with
  | .gain _ => gain20BitFract
  | .offset k => s.conv b / scalefactor (chanNumber c) b k.sf
  | .thresh k => s.conv b / scalefactor (chanNumber c) b k.sf
  | .cntlim _ => sampleRate
  | .digout _ => 1

/-- What a field shows for one count. -/
def unit (s : Setting) : ℚ :=
  match s with
  | .gain _ => 1 / gain20BitFract
  -- this offset is shown in volts
  | .offset .dacSetpt => 1 / s.conv b
  | .offset k => 1 / s.conv b * scalefactor (chanNumber c) b k.sf
  | .thresh k => 1 / s.conv b * scalefactor (chanNumber c) b k.sfShown
  | .cntlim _ => 1 / sampleRate
  | .digout _ => 1

/-- The setting whose register a field is read from. -/
def shown : Setting → Setting
  | .digout k => .digout k.shown
  | s => s

/-- How the word in that register is taken. -/
def count (w : BitVec 32) : Setting → Int
  | .gain _ | .offset _ | .thresh .ovc1 | .thresh .ovc2 => w.toInt
  | _ => w.toNat

section Fields

variable (chan : BitVec 32) (b : Board)

theorem field_gain (k : Gauge) : field (sadataChan chan b) (.gain k) =
    readSigned chan b (swReg (.gain k)) / gain20BitFract := by
  cases k <;> rfl

theorem field_dacSetptOffset : field (sadataChan chan b) (.offset .dacSetpt) =
    readSigned chan b (swReg (.offset .dacSetpt)) * (1 / conv b (.offset .dacSetpt)) :=
  rfl

theorem field_offset {k : Gauge} (other : k ≠ .dacSetpt) :
    field (sadataChan chan b) (.offset k) =
      readSigned chan b (swReg (.offset k)) * (1 / conv b (.offset k)) *
        scalefactor chan b k.sf := by
  cases k <;> first | rfl | exact absurd rfl other

theorem field_thresh (k : Thresh) : field (sadataChan chan b) (.thresh k) =
    count (readChan chan b (swReg (.thresh k))) (.thresh k) * (1 / conv b (.thresh k)) *
      scalefactor chan b k.sfShown := by
  cases k <;> rfl

theorem field_cntlim (k : Cntlim) : field (sadataChan chan b) (.cntlim k) =
    readUnsigned chan b (swReg (.cntlim k)) / sampleRate := by
  cases k <;> rfl

theorem field_digout (k : Digout) : field (sadataChan chan b) (.digout k) =
    readUnsigned chan b (shown (.digout k)).swReg := by
  cases k <;> rfl

end Fields

/-- A field is a count of its register, scaled. -/
theorem field_eq (s : Setting) : field (sadataChan (chanNumber c) b) s =
    count (b.xilIn32 (Rdl.chanAddr c s.shown.reg)) s * s.unit c b := by
  rw [← chanReg_swReg]
  cases s with
  | gain k =>
      rw [field_gain, div_eq_mul_one_div]
      rfl
  | offset k =>
      by_cases unscaled : k = .dacSetpt
      · subst unscaled
        rw [field_dacSetptOffset]
        rfl
      · rw [field_offset _ _ unscaled, mul_assoc]
        cases k <;> first | rfl | exact absurd rfl unscaled
  | thresh k =>
      rw [field_thresh, mul_assoc]
      rfl
  | cntlim k =>
      rw [field_cntlim, div_eq_mul_one_div]
      rfl
  | digout k =>
      rw [field_digout, unit, mul_one]
      cases k <;> rfl

/-- What is commanded, from the data word of the message. -/
def commanded (data : BitVec 32) : Setting → ℚ
  | .digout _ => data.toNat
  | _ => single data

/-- The 16-bit thresholds are kept from above. -/
def thresh16 (w : BitVec 32) : Thresh → BitVec 32
  | .ovc1 | .ovc2 => w
  | _ => if 32767 ≤ w.toInt then 32767 else w

/-- The word that is written, from the converted value. -/
def word (data : BitVec 32) (x : ℚ) : Setting → BitVec 32
  | .gain _ => toU32 x
  | .offset _ | .cntlim _ => toS32 x
  | .thresh k => thresh16 (toS32 x) k
  | .digout _ => data

section Words

variable (data : BitVec 32)

/-- The commanded value in counts of the register. -/
def converted (s : Setting) : ℚ := s.commanded data * s.scale c b

theorem scaledVal_eq {sf : ScaleFactorType → BitVec 32} (conv : ℚ)
    (nonzero : scalefactor (chanNumber c) b sf ≠ 0) :
    scaledVal (chanNumber c) data b conv sf =
      toS32 (single data * (conv / scalefactor (chanNumber c) b sf)) := by
  rw [scaledVal, quotient, if_neg nonzero, mul_div_assoc]

theorem gauge_sf_mem (k : Gauge) (sf : ScaleFactorType) : k.sf sf ∈ qspiScalefactors sf := by
  cases k <;> simp [Gauge.sf, qspiScalefactors]

theorem thresh_sf_mem (k : Thresh) (sf : ScaleFactorType) : k.sf sf ∈ qspiScalefactors sf := by
  cases k <;> simp [Thresh.sf, qspiScalefactors]

section Arithmetic

variable {α : Type} (A : Arith α)

theorem chanMessageWith_thresh (k : Thresh) (page : Page) :
    chanMessageWith (chanNumber c) data b A page (msg (.thresh k)) =
      some (b.xilOut32 (chanReg (chanNumber c) (swReg (.thresh k)))
        (thresh16 (scaledValWith (chanNumber c) data b A (width (.thresh k)) (conv b (.thresh k))
          k.sf) k)) := by
  cases k <;> rfl

theorem chanMessageWith_cntlim (k : Cntlim) (page : Page) :
    chanMessageWith (chanNumber c) data b A page (msg (.cntlim k)) =
      some (writeCntlim (chanNumber c) data b A (swReg (.cntlim k))) := by
  cases k <;> rfl

end Arithmetic

/-- A message writes its setting's word to its setting's register. -/
theorem chanMessage_msg (s : Setting) (page : Page)
    (nonzero : ∀ word ∈ qspiScalefactors (b.scalefactors (chanNumber c - 1)), single word ≠ 0) :
    chanMessage (chanNumber c) data b page s.msg =
      some (b.xilOut32 (Rdl.chanAddr c s.reg) (s.word data (s.converted c b data))) := by
  rw [← chanReg_swReg]
  cases s with
  | gain k =>
      have written : chanMessage (chanNumber c) data b page (msg (.gain k)) =
          some (writeGain (chanNumber c) data b exact (swReg (.gain k))) := by
        cases k <;> rfl
      rw [written]
      rfl
  | offset k =>
      have written : chanMessage (chanNumber c) data b page (msg (.offset k)) =
          some (writeScaled (chanNumber c) data b exact (swReg (.offset k)) (width (.offset k))
            (conv b (.offset k)) k.sf) := by
        cases k <;> rfl
      have value : scaledVal (chanNumber c) data b (conv b (.offset k)) k.sf =
          toS32 (converted c b data (.offset k)) :=
        scaledVal_eq _ _ _ _ (nonzero _ (gauge_sf_mem k _))
      rw [written, word, ← value]
      rfl
  | thresh k =>
      have value : scaledVal (chanNumber c) data b (conv b (.thresh k)) k.sf =
          toS32 (converted c b data (.thresh k)) :=
        scaledVal_eq _ _ _ _ (nonzero _ (thresh_sf_mem k _))
      rw [chanMessage, chanMessageWith_thresh, word, ← value]
      rfl
  | cntlim k =>
      rw [chanMessage, chanMessageWith_cntlim]
      rfl
  | digout k =>
      cases k <;> rfl

end Words

end Scales

end Setting

end PscDigpid.Sw
