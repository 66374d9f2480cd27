/- Unit: PscDigpid/Hdl/DacSaturation
   layer: result
   source: src/hw/hdl/dac_gainoffset.vhd (APPLY_OFFSETS .. CHECKFORSAT)
   digest: The limited setpoint is the limited product when neither slice loses its sign. -/

import PscDigpid.Hdl.DacGainoffset
import PscDigpid.Hdl.SmoothRamp
import PscDigpid.Sync.Clamp

set_option autoImplicit false
set_option relaxedAutoImplicit false

namespace PscDigpid.Hdl.DacGainoffset

open PscDigpid.Sync

/-- What a conversion works on. -/
structure Operands where
  sel : Bool
  raw : BitVec 20
  offset : BitVec 20
  gain : BitVec 24
  deriving DecidableEq

/-- What the ports show of them. -/
def Ports.operands (i : Ports) : Operands :=
  ⟨i.numbitsSel, i.dacSetptRaw, i.dacCntrl.offset, i.dacCntrl.gain⟩

namespace Operands

variable (o : Operands)

/-- The difference, in the 20 bits of its register. -/
def oc : BitVec 20 := o.raw - o.offset

/-- The slice of the product, not limited yet. -/
def sliced : BitVec 20 := (o.oc.signExtend 44 * o.gain.signExtend 44).extractLsb' 20 20

/-- What a conversion leaves in the setpoint register. -/
def converted : BitVec 20 := (limit o.sel o.oc o.sliced).getD o.sliced

def lo : Int := if o.sel then -524288 else -131072

def hi : Int := if o.sel then 524287 else 131071

/-- The difference over the integers. -/
def delta : Int := o.raw.toInt - o.offset.toInt

/-- The setpoint before it is limited, over the integers. -/
def exact : Int := o.delta * o.gain.toInt / 1048576

/-- How often the difference has wrapped in its register. -/
def wraps : Int := (o.delta + 524288) / 1048576

/-- The least number the check can mean by the 20 bits of the slice: the sign of the kept
difference decides it with 20 bits. -/
def base : Int :=
  if o.sel then if o.delta < 1048576 * o.wraps then -1048576 else 0 else -524288

/-- What the check takes the slice for. -/
def meant : Int := reread o.base 1048576 (o.exact - o.wraps * o.gain.toInt)

/-- The limited setpoint is right: nothing of the exact one is lost on the way to the check,
or it and what the check takes for it are beyond the same limit. -/
def Faithful : Prop :=
  (1048576 ∣ o.wraps * o.gain.toInt ∧ o.base ≤ o.exact ∧ o.exact < o.base + 1048576) ∨
    (o.hi ≤ o.meant ∧ o.hi ≤ o.exact) ∨ (o.meant ≤ o.lo ∧ o.exact ≤ o.lo)

instance : Decidable o.Faithful := by unfold Faithful; infer_instance

theorem lo_lt_hi : o.lo < o.hi := by
  unfold lo hi
  split <;> decide

end Operands

/-- The registers of a conversion hold what it has worked out of `o` so far. -/
structure Carries (o : Operands) (s : Regs) : Prop where
  oc : s.state = .applyGains ∨ s.state = .scale ∨ s.state = .checkforsat → s.dacSetptOc = o.oc
  fs : s.state = .scale → s.dacSetptFs = o.oc.signExtend 44 * o.gain.signExtend 44
  sliced : s.state = .checkforsat → s.dacSetpt = o.sliced
  converted : s.state = .multDly → s.dacSetpt = o.converted

section Step

variable {o : Operands} {s : Regs} {i : Ports}

theorem carries_idle (idle : s.state = .idle) : Carries o s := by
  constructor <;> simp [idle]

/-- Held operands are carried through every state. -/
theorem carries_step (holds : i.operands = o) (carries : Carries o s) : Carries o (step s i) := by
  subst holds
  unfold step
  cases reset : i.reset with
  | true => exact ⟨carries.oc, carries.fs, carries.sliced, carries.converted⟩
  | false =>
      simp only [Bool.false_eq_true, if_false]
      cases state : s.state with
      | idle => cases tick : i.tenkhzTrig <;> constructor <;> simp
      | applyOffsets => constructor <;> simp [Operands.oc, Ports.operands]
      | applyGains =>
          have difference := carries.oc (.inl state)
          constructor <;> simp [difference, Ports.operands]
      | scale =>
          have difference := carries.oc (.inr (.inl state))
          have product := carries.fs state
          constructor <;> simp [difference, product, Operands.sliced]
      | checkforsat =>
          have difference := carries.oc (.inr (.inr state))
          have slice := carries.sliced state
          constructor <;> simp [difference, slice, Operands.converted, Ports.operands]
      | multDly =>
          have result := carries.converted state
          by_cases full : s.multdlycnt = 6#4
          · constructor <;> simp [full]
          · constructor <;> simp [full, result]

/-- `done` rises only at the end of a conversion, which leaves its result. -/
theorem done_rises (carries : Carries o s) (before : s.done = false)
    (done : (step s i).done = true) : (step s i).dacSetpt = o.converted := by
  unfold step at done ⊢
  cases reset : i.reset with
  | true => simp [reset] at done
  | false =>
      simp only [reset, Bool.false_eq_true, if_false] at done ⊢
      cases state : s.state with
      | multDly =>
          simp only [state] at done ⊢
          by_cases full : s.multdlycnt = 6#4
          · rw [if_pos full]
            exact carries.converted state
          · rw [if_neg full, before] at done
            exact absurd done Bool.false_ne_true
      | _ => simp [state, before] at done

end Step

section Arithmetic

variable (o : Operands)

theorem toInt_oc : o.oc.toInt = o.delta - 1048576 * o.wraps := by
  have first := SmoothRamp.toInt_bounds o.raw
  have second := SmoothRamp.toInt_bounds o.offset
  rw [Operands.oc, BitVec.toInt_sub, Int.bmod_def]
  unfold Operands.wraps Operands.delta
  omega

/-- The product of the kept difference is off by the gain for each wrap. -/
theorem toInt_sliced :
    o.sliced.toInt = (o.exact - o.wraps * o.gain.toInt).bmod (2 ^ 20) := by
  have first := SmoothRamp.toInt_bounds o.oc
  have second := SmoothRamp.toInt_bounds o.gain
  have size : (o.oc.toInt * o.gain.toInt).natAbs ≤ 2 ^ 19 * 2 ^ 23 := by
    rw [Int.natAbs_mul]
    exact Nat.mul_le_mul (by omega) (by omega)
  have product : (o.oc.signExtend 44 * o.gain.signExtend 44).toInt =
      o.oc.toInt * o.gain.toInt := by
    apply toInt_exact
    · rw [BitVec.toInt_mul, BitVec.toInt_signExtend_of_le (by omega),
        BitVec.toInt_signExtend_of_le (by omega)]
    · omega
    · omega
  have split : (o.delta - 1048576 * o.wraps) * o.gain.toInt =
      o.delta * o.gain.toInt - 1048576 * (o.wraps * o.gain.toInt) := by ring
  rw [Operands.sliced, toInt_slice _ (by omega), product, toInt_oc, split]
  congr 1
  exact Int.sub_mul_ediv_left _ _ (by decide)

/-- The check limits what it takes the slice for. -/
theorem toInt_converted : o.converted.toInt = clamp o.lo o.hi o.meant := by
  have slice := toInt_sliced o
  have kept := toInt_oc o
  have bounds := SmoothRamp.toInt_bounds o.sliced
  have sign {x : BitVec 20} : x.getLsbD 19 = decide (x.toInt < 0) := by
    rw [← BitVec.msb_eq_toInt, BitVec.msb_eq_getLsbD_last]
  have high : (BitVec.ofInt 20 (2 ^ 19 - 1)).toInt = 524287 := by decide
  have low : (BitVec.ofInt 20 (-2 ^ 19)).toInt = -524288 := by decide
  have high18 : (BitVec.ofInt 20 131071).toInt = 131071 := by decide
  have low18 : (BitVec.ofInt 20 (-131072)).toInt = -131072 := by decide
  rw [Int.bmod_def] at slice
  unfold Operands.converted limit clamp Operands.meant reread Operands.lo Operands.hi
    Operands.base
  cases o.sel with
  | true =>
      simp only [if_true, sign, Bool.and_eq_true, decide_eq_true_eq, Bool.not_eq_true',
        decide_eq_false_iff_not]
      split_ifs <;> simp only [Option.getD_some, Option.getD_none] <;> omega
  | false =>
      simp only [Bool.false_eq_true, if_false]
      split_ifs <;> simp only [Option.getD_some, Option.getD_none] <;> omega

/-- A conversion limits the exact setpoint exactly for faithful operands. -/
theorem converted_iff_faithful :
    o.converted.toInt = clamp o.lo o.hi o.exact ↔ o.Faithful := by
  rw [toInt_converted, clamp_eq_clamp_iff o.lo_lt_hi, Operands.Faithful]
  apply or_congr_left
  rw [Operands.meant, reread_eq_iff (by decide)]
  have lost : o.exact - o.wraps * o.gain.toInt - o.exact = -(o.wraps * o.gain.toInt) := by
    omega
  rw [lost, Int.dvd_neg]

end Arithmetic

/-- A tick in IDLE starts a conversion whose operands stay until `done` pulses at clock
`n`. -/
structure Conversion (s : Regs) (inp : Nat → Ports) (n : Nat) : Prop where
  idle : s.state = .idle
  running : (inp 0).reset = false
  tick : (inp 0).tenkhzTrig = true
  held : ∀ t, t < n → (inp t).operands = (inp 0).operands
  done : (run step s inp n).done = true
  first : ∀ t, 0 < t → t < n → (run step s inp t).done = false
  later : 0 < n

instance (s : Regs) (inp : Nat → Ports) (n : Nat) : Decidable (Conversion s inp n) :=
  decidable_of_iff (s.state = .idle ∧ (inp 0).reset = false ∧ (inp 0).tenkhzTrig = true ∧
    (∀ t, t < n → (inp t).operands = (inp 0).operands) ∧ (run step s inp n).done = true ∧
    (∀ t, t < n → 0 < t → (run step s inp t).done = false) ∧ 0 < n)
    ⟨fun ⟨a, b, c, d, e, f, g⟩ => ⟨a, b, c, d, e, fun t pos lt => f t lt pos, g⟩,
      fun ⟨a, b, c, d, e, f, g⟩ => ⟨a, b, c, d, e, fun t lt pos => f t pos lt, g⟩⟩

section Runs

variable {s : Regs} {inp : Nat → Ports} {n : Nat}

theorem carries_run {o : Operands} (carries : Carries o s)
    (held : ∀ t, t < n → (inp t).operands = o) : Carries o (run step s inp n) := by
  induction n with
  | zero => exact carries
  | succ n ih =>
      rw [run_succ]
      exact carries_step (held n (Nat.lt_succ_self n)) (ih fun t lt => held t (by omega))

theorem conversion_done (conversion : Conversion s inp n) :
    (run step s inp n).dacSetpt = (inp 0).operands.converted := by
  obtain ⟨idle, running, tick, held, done, first, later⟩ := conversion
  obtain ⟨n, rfl⟩ := Nat.exists_eq_add_of_lt later
  rw [Nat.zero_add] at held done first ⊢
  rw [run_succ] at done ⊢
  cases n with
  | zero => simp [step, running, idle] at done
  | succ n =>
      exact done_rises (carries_run (carries_idle idle) fun t lt => held t (by omega))
        (first (n + 1) (by omega) (by omega)) done

/-- When `done` pulses, the setpoint is the limited exact one exactly for faithful
operands. -/
theorem saturates_iff_faithful (conversion : Conversion s inp n) :
    (run step s inp n).dacSetpt.toInt =
        clamp (inp 0).operands.lo (inp 0).operands.hi (inp 0).operands.exact ↔
      (inp 0).operands.Faithful := by
  rw [conversion_done conversion]
  exact converted_iff_faithful _

end Runs

/-- A tick at the first clock, with 20 bits and no offset. -/
def oneTick (raw : BitVec 20) (gain : BitVec 24) (t : Nat) : Ports where
  reset := false
  tenkhzTrig := t == 0
  numbitsSel := true
  dacSetptRaw := raw
  dacCntrl := ⟨0, false, 0, gain, 0, 0, 0, 0, 0, false, false, 0⟩

/-- Half of a full scale and a gain of one and a half: the product is limited. -/
theorem above_saturates : (run step powerUp (oneTick 500000 0x180000) 12).dacSetpt.toInt =
    clamp (-524288) 524287 750000 :=
  (@saturates_iff_faithful powerUp (oneTick 500000 0x180000) 12 (by decide +kernel)).2 (by decide)

/-- A gain of zero makes a full negative scale of any setpoint below the offset. -/
theorem zero_gain_full_scale : ¬ ∀ s inp n, Conversion s inp n →
    (run step s inp n).dacSetpt.toInt =
      clamp (inp 0).operands.lo (inp 0).operands.hi (inp 0).operands.exact := by
  intro saturates
  have value := saturates powerUp (oneTick (-1) 0) 12 (by decide +kernel)
  exact absurd value (by decide +kernel)

end PscDigpid.Hdl.DacGainoffset
