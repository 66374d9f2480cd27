/- Unit: PscDigpid/Sw/SettingCounts
   layer: result
   source: src/sw/src/control.c (chan_settings), src/sw/src/sadata.c (sadata_push)
   digest: What a setting's register keeps of a commanded value, and when it is near it. -/

import Mathlib.Tactic.FieldSimp
import Mathlib.Tactic.NormNum
import PscDigpid.Sw.Settings
import PscDigpid.Sync.Signed

set_option autoImplicit false
set_option relaxedAutoImplicit false

namespace PscDigpid.Sw

open PscDigpid.Hdl (Chan)
open PscDigpid.Num
open PscDigpid.Sync

namespace Setting

section Conditions

variable (c : Chan) (b : Board) (data : BitVec 32)

/-- A count fits a setting's register: gains and offsets are signed, count limits and outputs
are not, and a threshold may be taken either way. -/
def Fits (v : Int) : Setting → Prop
  | .gain _ | .offset _ => -2147483648 ≤ v ∧ v < 2147483648
  | .thresh .ovc1 | .thresh .ovc2 => -524288 ≤ v ∧ v < 1048576
  | .thresh _ => -32768 ≤ v ∧ v < 65536
  | .cntlim _ => 0 ≤ v ∧ v < 65536
  | .digout _ => 0 ≤ v ∧ v < 2

/-- An output's register, as it is before a message. -/
def outBefore (k : Digout) : BitVec 32 := b.xilIn32 (Rdl.chanAddr c (reg (.digout k)))

/-- When a setting is shown as commanded. -/
def ReadsBack (s : Setting) : Prop :=
  let x := s.converted c b data
  let v := trunc x
  let sf := scalefactor (chanNumber c) b
  match s with
  | .gain _ => 0 ≤ v
  | .offset .dacSetpt => |v / sf (·.dacDccts) - x| < 1
  | .offset _ => True
  | .thresh .ovc1 | .thresh .ovc2 => 0 ≤ v
  | .thresh .ignd => 0 ≤ v ∧ |min v 32767 * (sf (·.ignd) / sf (·.error)) - x| < 1
  | .thresh _ => 0 ≤ v ∧ v ≤ 32767
  | .cntlim _ => True
  | .digout .on1 => data = outBefore c b .on1
  | .digout .on2 => data = outBefore c b .on1
  | .digout .reset => data = outBefore c b .on1 ∧ data = outBefore c b .reset
  | .digout .spare => data = outBefore c b .reset
  | .digout .park => True

end Conditions

section Counts

variable {c : Chan} {data : BitVec 32} {x : ℚ} {v : Int}

/-- What the register of a setting keeps of its word. -/
def keptWord (c : Chan) (data : BitVec 32) (x : ℚ) (s : Setting) : BitVec 32 :=
  Board.kept (Rdl.chanAddr c s.reg) (s.word data x)

theorem kept_eq (s : Setting) (w : BitVec 32) :
    Board.kept (Rdl.chanAddr c s.reg) w = (w.setWidth s.reg.info.width).setWidth 32 := by
  rw [Board.kept, Rdl.storedWidth_chanAddr c s.reg_software]

/-- A register of 32 bits keeps all of the word. -/
theorem kept_whole {s : Setting} (width : s.reg.info.width = 32) (w : BitVec 32) :
    Board.kept (Rdl.chanAddr c s.reg) w = w := by
  rw [kept_eq, width, BitVec.setWidth_eq, BitVec.setWidth_eq]

/-- A smaller one keeps a remainder. -/
theorem toNat_kept {s : Setting} {n : Nat} (width : s.reg.info.width = n) (le : n ≤ 32)
    (w : BitVec 32) : ((Board.kept (Rdl.chanAddr c s.reg) w).toNat : Int) = w.toInt % 2 ^ n := by
  rw [kept_eq, width]
  exact toNat_low w le

theorem count_gain (k : Gauge) (high : trunc x < 2147483648) :
    count (keptWord c data x (.gain k)) (.gain k) = max 0 (trunc x) := by
  have width : (reg (.gain k)).info.width = 32 := by
    cases k <;> rfl
  rw [keptWord, kept_whole width]
  exact toInt_toU32 high

theorem count_offset (k : Gauge) (low : -2147483648 ≤ trunc x) (high : trunc x < 2147483648) :
    count (keptWord c data x (.offset k)) (.offset k) = trunc x := by
  have width : (reg (.offset k)).info.width = 32 := by
    cases k <;> rfl
  rw [keptWord, kept_whole width]
  exact toInt_toS32 low high

theorem count_cntlim (k : Cntlim) (low : 0 ≤ trunc x) (high : trunc x < 65536) :
    count (keptWord c data x (.cntlim k)) (.cntlim k) = trunc x := by
  have width : (reg (.cntlim k)).info.width = 16 := by
    cases k <;> rfl
  have kept := toNat_kept (c := c) width (by decide) (toS32 x)
  rw [toInt_toS32 (by omega) (by omega)] at kept
  exact kept.trans (Int.emod_eq_of_lt low high)

/-- The overcurrent thresholds are read as signed words that have no sign. -/
theorem count_ovc {k : Thresh} (ovc : k = .ovc1 ∨ k = .ovc2) (low : -524288 ≤ trunc x)
    (high : trunc x < 1048576) :
    count (keptWord c data x (.thresh k)) (.thresh k) = trunc x % 1048576 := by
  have value : (keptWord c data x (.thresh k)).toInt = trunc x % 1048576 := by
    have width : (reg (.thresh k)).info.width = 20 := by
      obtain rfl | rfl := ovc <;> rfl
    have written : word data x (.thresh k) = toS32 x := by
      obtain rfl | rfl := ovc <;> rfl
    have kept := toNat_kept (c := c) width (by decide) (toS32 x)
    rw [toInt_toS32 (by omega) (by omega)] at kept
    rw [keptWord, written, BitVec.toInt_eq_toNat_of_lt, kept]
    · rfl
    · omega
  obtain rfl | rfl := ovc
  · exact value
  · exact value

/-- The others are kept below their sign bit from above, but not from below. -/
theorem toInt_thresh16 {k : Thresh} (other : ¬ (k = .ovc1 ∨ k = .ovc2)) (w : BitVec 32) :
    (thresh16 w k).toInt = min w.toInt 32767 := by
  have clamped : thresh16 w k = if 32767 ≤ w.toInt then 32767 else w := by
    cases k <;> first | rfl | exact absurd (by simp) other
  rw [clamped]
  split_ifs with above
  · rw [min_eq_right above]
    rfl
  · rw [min_eq_left (by omega)]

theorem width_thresh {k : Thresh} (other : ¬ (k = .ovc1 ∨ k = .ovc2)) :
    (reg (.thresh k)).info.width = 16 := by
  cases k <;> first | rfl | exact absurd (by simp) other

theorem count_thresh {k : Thresh} (other : ¬ (k = .ovc1 ∨ k = .ovc2)) (low : -32768 ≤ trunc x)
    (high : trunc x < 65536) :
    count (keptWord c data x (.thresh k)) (.thresh k) = min (trunc x) 32767 % 65536 := by
  have written : (word data x (.thresh k)).toInt = min (trunc x) 32767 := by
    rw [word, toInt_thresh16 other, toInt_toS32 (by omega) (by omega)]
  have kept := toNat_kept (c := c) (width_thresh other) (by decide) (word data x (.thresh k))
  rw [written] at kept
  cases k with
  | ovc1 => exact absurd (.inl rfl) other
  | ovc2 => exact absurd (.inr rfl) other
  | ovv | err1 | err2 | ignd => exact kept

theorem keptWord_digout (k : Digout) (small : data.toNat < 2) :
    keptWord c data x (.digout k) = data := by
  have width : (reg (.digout k)).info.width = 1 := by
    cases k <;> rfl
  have kept := toNat_kept (c := c) width (by decide) data
  rw [BitVec.toInt_eq_toNat_of_lt (by omega)] at kept
  apply BitVec.eq_of_toNat_eq
  change (Board.kept _ data).toNat = data.toNat
  omega

end Counts

/-- The scale factors of a channel and the DAC conversion are positive. -/
structure PositiveScales (c : Chan) (b : Board) : Prop where
  dacBits : 0 < b.convVoltsToDacBits
  factors : ∀ word ∈ qspiScalefactors (b.scalefactors (chanNumber c - 1)), 0 < single word

namespace PositiveScales

variable {c : Chan} {b : Board} (positive : PositiveScales c b)
include positive

theorem conv_pos (s : Setting) : 0 < s.conv b := by
  have volts : 0 < convVoltsTo16Bits := by
    norm_num [convVoltsTo16Bits]
  cases s with
  | offset k => cases k <;> first | exact positive.dacBits | exact volts
  | thresh k => cases k <;> first | exact positive.dacBits | exact volts
  | _ => exact volts

/-- The message of a setting writes its word. -/
theorem chanSettings_msg {s : Setting} {msg : Nat → BitVec 8}
    (address : msgWord msg 0 = s.msg.addr) (page : Page) :
    chanSettings page (chanNumber c) msg b = some (b.xilOut32 (Rdl.chanAddr c s.reg)
      (s.word (msgWord msg 1) (s.converted c b (msgWord msg 1)))) := by
  rw [chanSettings, chanSettingsWith, address, ChanMsg.ofAddr_addr]
  exact chanMessage_msg c b _ s page fun word mem => (positive.factors word mem).ne'

theorem gauge_pos (k : Gauge) : 0 < scalefactor (chanNumber c) b k.sf :=
  positive.factors _ (gauge_sf_mem k _)

theorem thresh_pos (k : Thresh) : 0 < scalefactor (chanNumber c) b k.sf :=
  positive.factors _ (thresh_sf_mem k _)

theorem thresh_shown_pos (k : Thresh) : 0 < scalefactor (chanNumber c) b k.sfShown := by
  cases k <;> exact positive.factors _ (by simp [Thresh.sfShown, Thresh.sf, qspiScalefactors])

theorem scale_pos (s : Setting) : 0 < s.scale c b := by
  cases s with
  | gain k =>
      change 0 < gain20BitFract
      norm_num [gain20BitFract]
  | offset k => exact div_pos (positive.conv_pos _) (positive.gauge_pos k)
  | thresh k => exact div_pos (positive.conv_pos _) (positive.thresh_pos k)
  | cntlim k =>
      change 0 < sampleRate
      norm_num [sampleRate]
  | digout k => exact one_pos

theorem ratio_gain (k : Gauge) : unit c b (.gain k) * scale c b (.gain k) = 1 :=
  one_div_mul_cancel (positive.scale_pos (.gain k)).ne'

theorem ratio_cntlim (k : Cntlim) : unit c b (.cntlim k) * scale c b (.cntlim k) = 1 :=
  one_div_mul_cancel (positive.scale_pos (.cntlim k)).ne'

/-- The factors of a setting that is divided by one and multiplied by another. -/
theorem ratio_factors (s : Setting) (shown sf : ℚ) :
    1 / s.conv b * shown * (s.conv b / sf) = shown / sf := by
  have conv := (positive.conv_pos s).ne'
  field_simp

theorem ratio_thresh (k : Thresh) : unit c b (.thresh k) * scale c b (.thresh k) =
    scalefactor (chanNumber c) b k.sfShown / scalefactor (chanNumber c) b k.sf :=
  positive.ratio_factors _ _ _

theorem ratio_offset {k : Gauge} (other : k ≠ .dacSetpt) :
    unit c b (.offset k) * scale c b (.offset k) = 1 := by
  have shown : unit c b (.offset k) =
      1 / conv b (.offset k) * scalefactor (chanNumber c) b k.sf := by
    cases k <;> first | rfl | exact absurd rfl other
  rw [shown, scale, positive.ratio_factors]
  exact div_self (positive.gauge_pos k).ne'

theorem ratio_dacSetptOffset : unit c b (.offset .dacSetpt) * scale c b (.offset .dacSetpt) =
    1 / scalefactor (chanNumber c) b (·.dacDccts) := by
  have ratio := positive.ratio_factors (.offset .dacSetpt) 1
    (scalefactor (chanNumber c) b (·.dacDccts))
  rwa [mul_one] at ratio

end PositiveScales

section Steps

variable {c : Chan} {b : Board} {data : BitVec 32} {s : Setting}

/-- Within a step of what was commanded is within one of the converted value. -/
theorem near_iff (positive : 0 < s.scale c b) (n : Int) :
    |n * s.unit c b - s.commanded data| < 1 / s.scale c b ↔
      |n * (s.unit c b * s.scale c b) - s.converted c b data| < 1 := by
  have scaled : n * (s.unit c b * s.scale c b) - s.converted c b data =
      (n * s.unit c b - s.commanded data) * s.scale c b := by
    rw [converted]
    ring
  rw [scaled, abs_mul, abs_of_pos positive, lt_div_iff₀ positive]

/-- What the field shows of the kept count is less than a count from the converted value. -/
def Near (c : Chan) (b : Board) (data : BitVec 32) (s : Setting) : Prop :=
  |count (keptWord c data (s.converted c b data) s) s * (s.unit c b * s.scale c b) -
    s.converted c b data| < 1

/-- Nothing from zero up is near a value with a negative integer part. -/
theorem far_of_neg {n x : ℚ} (nonneg : 0 ≤ n) (neg : trunc x < 0) : ¬ |n - x| < 1 := by
  have below := le_of_trunc_neg neg
  intro near
  have above := (abs_lt.1 near).2
  linarith

/-- The bound of the 16-bit thresholds is far from what lies beyond it. -/
theorem far_of_above {x : ℚ} (above : 32767 < trunc x) : ¬ |((32767 : Int) : ℚ) - x| < 1 := by
  have beyond : ((32768 : Int) : ℚ) ≤ x := (le_trunc_iff (by decide)).1 above
  intro near
  have close := (abs_lt.1 near).1
  push_cast at beyond close
  linarith

variable (positive : PositiveScales c b)
include positive

theorem gain_iff {k : Gauge} (fits : Fits (trunc (converted c b data (.gain k))) (.gain k)) :
    Near c b data (.gain k) ↔ ReadsBack c b data (.gain k) := by
  change _ ↔ 0 ≤ trunc _
  rw [Near, positive.ratio_gain, mul_one, count_gain k fits.2]
  generalize converted c b data (.gain k) = x
  obtain nonneg | neg := le_or_gt 0 (trunc x)
  · rw [max_eq_right nonneg]
    exact iff_of_true (trunc_near x) nonneg
  · rw [max_eq_left neg.le]
    exact iff_of_false (far_of_neg le_rfl neg) (not_le.2 neg)

theorem offset_iff {k : Gauge}
    (fits : Fits (trunc (converted c b data (.offset k))) (.offset k)) :
    Near c b data (.offset k) ↔ ReadsBack c b data (.offset k) := by
  rw [Near, count_offset k fits.1 fits.2]
  by_cases unscaled : k = .dacSetpt
  · subst unscaled
    rw [positive.ratio_dacSetptOffset, mul_one_div]
    exact Iff.rfl
  · rw [positive.ratio_offset unscaled, mul_one]
    refine iff_of_true (trunc_near _) ?_
    cases k <;> trivial

theorem cntlim_iff {k : Cntlim}
    (fits : Fits (trunc (converted c b data (.cntlim k))) (.cntlim k)) :
    Near c b data (.cntlim k) ↔ ReadsBack c b data (.cntlim k) := by
  rw [Near, positive.ratio_cntlim, mul_one, count_cntlim k fits.1 fits.2]
  exact iff_of_true (trunc_near _) trivial

theorem ovc_iff {k : Thresh} (ovc : k = .ovc1 ∨ k = .ovc2)
    (fits : Fits (trunc (converted c b data (.thresh k))) (.thresh k)) :
    Near c b data (.thresh k) ↔ 0 ≤ trunc (converted c b data (.thresh k)) := by
  have bounds : -524288 ≤ trunc (converted c b data (.thresh k)) ∧
      trunc (converted c b data (.thresh k)) < 1048576 := by
    obtain rfl | rfl := ovc <;> exact fits
  have factors : scalefactor (chanNumber c) b k.sfShown = scalefactor (chanNumber c) b k.sf := by
    obtain rfl | rfl := ovc <;> rfl
  rw [Near, positive.ratio_thresh, factors, div_self (positive.thresh_pos k).ne', mul_one,
    count_ovc ovc bounds.1 bounds.2]
  generalize converted c b data (.thresh k) = x at bounds ⊢
  obtain nonneg | neg := le_or_gt 0 (trunc x)
  · rw [Int.emod_eq_of_lt nonneg bounds.2]
    exact iff_of_true (trunc_near x) nonneg
  · have remainder : (0 : ℚ) ≤ (trunc x % 1048576 : Int) :=
      Int.cast_nonneg (Int.emod_nonneg _ (by decide))
    exact iff_of_false (far_of_neg remainder neg) (not_le.2 neg)

/-- A threshold of 16 bits is shown right up to the factor between its two scale factors. -/
theorem thresh_iff {k : Thresh} (other : ¬ (k = .ovc1 ∨ k = .ovc2))
    (fits : Fits (trunc (converted c b data (.thresh k))) (.thresh k)) :
    Near c b data (.thresh k) ↔
      0 ≤ trunc (converted c b data (.thresh k)) ∧
        |(min (trunc (converted c b data (.thresh k))) 32767 : Int) *
          (scalefactor (chanNumber c) b k.sfShown / scalefactor (chanNumber c) b k.sf) -
            converted c b data (.thresh k)| < 1 := by
  have bounds : -32768 ≤ trunc (converted c b data (.thresh k)) ∧
      trunc (converted c b data (.thresh k)) < 65536 := by
    cases k <;> first | exact fits | exact absurd (by simp) other
  have ratio := (div_pos (positive.thresh_shown_pos k) (positive.thresh_pos k)).le
  rw [Near, positive.ratio_thresh, count_thresh other bounds.1 bounds.2]
  generalize converted c b data (.thresh k) = x at bounds ⊢
  generalize scalefactor (chanNumber c) b k.sfShown / scalefactor (chanNumber c) b k.sf = r at *
  obtain nonneg | neg := le_or_gt 0 (trunc x)
  · rw [Int.emod_eq_of_lt (by omega) (by omega), and_iff_right nonneg]
  · have remainder : (0 : ℚ) ≤ (min (trunc x) 32767 % 65536 : Int) :=
      Int.cast_nonneg (Int.emod_nonneg _ (by decide))
    exact iff_of_false (far_of_neg (mul_nonneg remainder ratio) neg) fun both =>
      not_le.2 neg both.1

/-- With one scale factor for both ways it is shown right up to its clamp. -/
theorem thresh_same_iff {k : Thresh} (other : ¬ (k = .ovc1 ∨ k = .ovc2)) (same : k ≠ .ignd)
    (fits : Fits (trunc (converted c b data (.thresh k))) (.thresh k)) :
    Near c b data (.thresh k) ↔
      0 ≤ trunc (converted c b data (.thresh k)) ∧
        trunc (converted c b data (.thresh k)) ≤ 32767 := by
  have factors : scalefactor (chanNumber c) b k.sfShown = scalefactor (chanNumber c) b k.sf := by
    cases k <;> first | rfl | exact absurd rfl same
  rw [thresh_iff positive other fits, factors, div_self (positive.thresh_pos k).ne', mul_one]
  generalize converted c b data (.thresh k) = x
  apply and_congr_right
  intro _
  obtain within | above := le_or_gt (trunc x) 32767
  · rw [min_eq_left within]
    exact iff_of_true (trunc_near x) within
  · rw [min_eq_right above.le]
    exact iff_of_false (far_of_above above) (not_le.2 above)

/-- A setting that is no output is shown as commanded exactly under its condition. -/
theorem own_iff (plain : ∀ k, s ≠ .digout k) (fits : s.Fits (trunc (s.converted c b data))) :
    |s.count (keptWord c data (s.converted c b data) s) * s.unit c b - s.commanded data| <
        1 / s.scale c b ↔ ReadsBack c b data s := by
  rw [near_iff (positive.scale_pos s)]
  cases s with
  | gain k => exact gain_iff positive fits
  | offset k => exact offset_iff positive fits
  | thresh k =>
      cases k with
      | ovc1 => exact ovc_iff positive (.inl rfl) fits
      | ovc2 => exact ovc_iff positive (.inr rfl) fits
      | ignd => exact thresh_iff positive (by decide) fits
      | ovv | err1 | err2 => exact thresh_same_iff positive (by decide) (by decide) fits
  | cntlim k => exact cntlim_iff positive fits
  | digout k => exact absurd rfl (plain k)

end Steps

end Setting

end PscDigpid.Sw
