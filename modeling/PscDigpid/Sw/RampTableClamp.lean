/- Unit: PscDigpid/Sw/RampTableClamp
   layer: result
   source: src/sw/src/control.c (write_ramptable), src/hw/rdl/pl_regs.rdl (dac_rampdata)
   digest: The entries of a ramp table are right while no point is beyond the DAC. -/

import PscDigpid.Sw.RampTable
import PscDigpid.Sw.Sdcard
import PscDigpid.Sync.Clamp
import PscDigpid.Sync.Signed

set_option autoImplicit false
set_option relaxedAutoImplicit false

namespace PscDigpid.Sw

open PscDigpid.Hdl (Chan)
open PscDigpid.Num
open PscDigpid.Sync
open Pscmsg (Byte)

section Points

variable {α : Type} (A : Arith α) (c : Chan) (msg : Nat → Byte) (b : Board)

/-- The code of the `i`th point of a message, over the integers. -/
def pointCode (i : Nat) : Int :=
  trunc (single (msgWord msg i) * b.convVoltsToDacBits /
    scalefactor (chanNumber c) b (·.dacDccts))

/-- A channel's table after a message of `msglen` bytes. -/
def tableOf (msglen : Nat) (table : BitVec 16 → BitVec 20) : BitVec 16 → BitVec 20 :=
  tableAfter c b table
    ((writeRamptable A (chanNumber c) msg msglen b).writes.drop b.writes.length)

/-- Every entry is its point's code limited to the DAC, and never of the opposite sign. -/
def Clamped (r : Resolution) (msglen : Nat) (table : BitVec 16 → BitVec 20) : Prop :=
  ∀ i, i < msglen / 4 →
    (tableOf exact c msg b msglen table (BitVec.ofNat 16 i)).toInt =
        clamp r.lo r.hi (pointCode c msg b i) ∧
      ¬ ((tableOf exact c msg b msglen table (BitVec.ofNat 16 i)).toInt < 0 ∧
          0 < single (msgWord msg i)) ∧
      ¬ (0 < (tableOf exact c msg b msglen table (BitVec.ofNat 16 i)).toInt ∧
          single (msgWord msg i) < 0)

/-- No point is beyond the codes of the DAC. -/
def Within (r : Resolution) (msglen : Nat) : Prop :=
  ∀ i, i < msglen / 4 → r.lo ≤ pointCode c msg b i ∧ pointCode c msg b i ≤ r.hi

end Points

section Points

variable {c : Chan} {msg : Nat → Byte} {b : Board} {r : Resolution} {msglen : Nat}

theorem tableOf_entry {α : Type} (A : Arith α) (fits : msglen / 4 ≤ 50000) {i : Nat}
    (early : i < msglen / 4) (table : BitVec 16 → BitVec 20) :
    tableOf A c msg b msglen table (BitVec.ofNat 16 i) = (rampEntry A c msg b i).setWidth 20 := by
  rw [tableOf, writeRamptable_eq fits, Board.xilOut32s_writes, List.drop_left]
  exact tableAfter_entry fits early

/-- The magnitude of a word, but for the most negative one, which keeps its sign. -/
theorem toInt_abs32 (x : BitVec 32) : x.abs.toInt =
    if x.toInt = -2147483648 then -2147483648 else (x.toInt.natAbs : Int) := by
  have least : BitVec.intMin 32 = BitVec.ofInt 32 (-2147483648) := by decide
  rw [BitVec.toInt_abs_eq_natAbs]
  by_cases extreme : x = BitVec.intMin 32
  · rw [if_pos extreme, extreme]
    rfl
  · rw [if_neg extreme, if_neg]
    intro value
    exact extreme (BitVec.eq_of_toInt_eq value)

/-- The limits of a point are beyond those of the DAC by a bit: none of them brings a right
entry. -/
theorem rampPoint_eq_clamp_iff (r : Resolution) (scaled : BitVec 32) :
    ((rampPoint r.code scaled).setWidth 20).toInt = clamp r.lo r.hi scaled.toInt ↔
      r.lo ≤ scaled.toInt ∧ scaled.toInt ≤ r.hi := by
  have low := BitVec.le_two_mul_toInt (x := scaled)
  have high := BitVec.two_mul_toInt_lt (x := scaled)
  have absolute := toInt_abs32 scaled
  have all : ((0xFFFFF : BitVec 32).setWidth 20).toInt = -1 := by decide
  have none : ((-0x100000 : BitVec 32).setWidth 20).toInt = 0 := by decide
  have all18 : ((0x3FFFF : BitVec 32).setWidth 20).toInt = 262143 := by decide
  have none18 : ((-0x40000 : BitVec 32).setWidth 20).toInt = -262144 := by decide
  have plain := toInt_setWidth_le scaled (show 20 ≤ 32 by decide)
  rw [Int.bmod_def] at plain
  unfold rampPoint clamp
  cases r with
  | ms =>
      have apart : ((0 : BitVec 32) = 1) = False := eq_false (by decide)
      simp only [Resolution.code, Resolution.lo, Resolution.hi, absolute, apart, false_and,
        true_and, if_false]
      split_ifs <;> omega
  | hs =>
      have apart : ((1 : BitVec 32) = 0) = False := eq_false (by decide)
      simp only [Resolution.code, Resolution.lo, Resolution.hi, absolute, apart, false_and,
        true_and, if_false]
      split_ifs <;> omega

/-- A point's word is its code as far as 32 bits go. -/
theorem scaledVal_point (positive : 0 < scalefactor (chanNumber c) b (·.dacDccts)) (i : Nat) :
    (scaledVal (chanNumber c) (msgWord msg i) b b.convVoltsToDacBits (·.dacDccts)).toInt =
      clamp (-2147483648) 2147483647 (pointCode c msg b i) := by
  have divides : quotient (single (msgWord msg i) * b.convVoltsToDacBits)
      (scalefactor (chanNumber c) b (·.dacDccts)) =
      single (msgWord msg i) * b.convVoltsToDacBits /
        scalefactor (chanNumber c) b (·.dacDccts) := if_neg (ne_of_gt positive)
  rw [scaledVal, divides]
  exact toInt_toS32_bound _

/-- A code has the sign of its point. -/
theorem pointCode_sign (conv : 0 < b.convVoltsToDacBits)
    (positive : 0 < scalefactor (chanNumber c) b (·.dacDccts)) (i : Nat) :
    (0 < single (msgWord msg i) → 0 ≤ pointCode c msg b i) ∧
      (single (msgWord msg i) < 0 → pointCode c msg b i ≤ 0) := by
  constructor
  · intro above
    exact trunc_nonneg (div_nonneg (mul_nonneg above.le conv.le) positive.le)
  · intro below
    have opposite := trunc_nonneg
      (div_nonneg (mul_nonneg (neg_nonneg.2 below.le) conv.le) positive.le)
    rw [neg_mul, neg_div, trunc_neg] at opposite
    exact Int.neg_nonneg.1 opposite

/-- An entry is its point's code limited to the DAC when the code is not beyond it. -/
theorem entry_eq_clamp_iff (table : BitVec 16 → BitVec 20) (selected : Selected r b)
    (positive : 0 < scalefactor (chanNumber c) b (·.dacDccts)) (fits : msglen / 4 ≤ 50000)
    {i : Nat} (early : i < msglen / 4) :
    (tableOf exact c msg b msglen table (BitVec.ofNat 16 i)).toInt =
        clamp r.lo r.hi (pointCode c msg b i) ↔
      r.lo ≤ pointCode c msg b i ∧ pointCode c msg b i ≤ r.hi := by
  have range : -2147483648 < r.lo ∧ r.lo ≤ r.hi ∧ r.hi < 2147483647 := by
    cases r <;> decide
  obtain ⟨low, le, high⟩ := range
  rw [tableOf_entry exact fits early, rampEntry, selected.register,
    ← clamp_clamp (Int.le_of_lt low) le (Int.le_of_lt high), ← clamp_mem_iff low le high,
    ← scaledVal_point positive]
  exact rampPoint_eq_clamp_iff r _

/-- The entries of a table are limited to the DAC exactly when no point is beyond it. -/
theorem ramp_table_clamped_iff (table : BitVec 16 → BitVec 20) (selected : Selected r b)
    (positive : 0 < scalefactor (chanNumber c) b (·.dacDccts)) (fits : msglen / 4 ≤ 50000) :
    Clamped c msg b r msglen table ↔ Within c msg b r msglen := by
  have conv : 0 < b.convVoltsToDacBits := by
    rw [selected.conv]
    exact r.conv_pos
  constructor
  · intro clamped i early
    exact (entry_eq_clamp_iff table selected positive fits early).1 (clamped i early).1
  · intro within i early
    have value := (entry_eq_clamp_iff table selected positive fits early).2 (within i early)
    obtain ⟨up, down⟩ := @pointCode_sign c msg b conv positive i
    rw [value, clamp_of_mem (within i early).1 (within i early).2]
    refine ⟨rfl, ?_, ?_⟩
    · rintro ⟨negative, plus⟩
      exact absurd (up plus) (Int.not_le.2 negative)
    · rintro ⟨plus, negative⟩
      exact absurd (down negative) (Int.not_le.2 plus)

end Points

/-- A message of one point. -/
def onePoint (bits : BitVec 32) : Nat → Byte := fun k => bits.extractLsb' (24 - 8 * k) 8

private theorem blank_selected : Selected .hs (mshsSelect 1 blankBoard) :=
  mshsSelect_selected .hs blankBoard

/-- Five amperes are within the range of a DAC of ten. -/
theorem five_amps_clamped :
    Clamped .ps1 (onePoint 0x40A00000) (mshsSelect 1 blankBoard) .hs 4 (fun _ => 0) := by
  refine (ramp_table_clamped_iff (fun _ => 0) blank_selected (by decide +kernel)
    (by decide)).2 ?_
  intro i early
  have first : i = 0 := by omega
  subst first
  decide +kernel

/-- Eleven amperes are stored with the opposite sign. -/
theorem eleven_amps_wrap : ¬ ∀ c msg b r msglen table, Selected r b →
    0 < scalefactor (chanNumber c) b (·.dacDccts) → msglen / 4 ≤ 50000 →
    Clamped c msg b r msglen table := by
  intro clamped
  have entry := (clamped .ps1 (onePoint 0x41300000) (mshsSelect 1 blankBoard) .hs 4 (fun _ => 0)
    blank_selected (by decide +kernel) (by decide) 0 (by decide)).1
  exact absurd entry (by decide +kernel)

end PscDigpid.Sw
