/- Unit: PscDigpid/Hdl/InterlockLaw
   layer: result
   source: src/hw/hdl/top.vhd (fault_gen, dig_io), src/hw/hdl/fault_block.vhd
   digest: The on command as a function of the trip conditions of the ticks before it. -/

import PscDigpid.Hdl.FaultReset
import PscDigpid.Hdl.Interlock

set_option autoImplicit false
set_option relaxedAutoImplicit false

namespace PscDigpid.Hdl

open PscDigpid.Sync

namespace FaultBlock

section Step

variable (s : Regs) (i : Ports)

private theorem controlRegs_faultReg : (controlRegs s i).faultReg = s.faultReg := by
  cases reset : i.reset <;> cases trig : i.tenkhzTrig <;>
    simp only [controlRegs, dacChangeFlagReg, heartbeatRegs, clearPulseRegs, tenKhzPulseRegs,
      dacSetpointRegs, maskRegs, reset, trig, reduceIte, Bool.false_eq_true]

private theorem tenKhzChecks_high (next : Regs) :
    (tenKhzChecks s i next).faultReg.getLsbD 11 = next.faultReg.getLsbD 11 := by
  simp (disch := decide) only [tenKhzChecks, ovc1Check, ovc2Check, ovvCheck, errChecks_eq,
    igndCheck, dcctCheck, fault1Check, fault2Check, fault3Check, onCheck, getLsbD_setBit,
    reduceIte, Nat.reduceEqDiff]

/-- No check writes the bit between the checks and the event fault. -/
theorem step_faultReg_eleven :
    (step s i).faultReg.getLsbD 11 = (!i.reset && s.faultReg.getLsbD 11) := by
  rw [step, mainFaultLogic]
  cases reset : i.reset with
  | true => simp
  | false =>
    rw [if_neg Bool.false_ne_true, faultLatches, getLsbD_setBit _ _ _ _ (by decide),
      if_neg (by decide), Bool.not_false, Bool.true_and]
    split_ifs
    · rw [tenKhzChecks_high, controlRegs_faultReg]
    · rw [controlRegs_faultReg]

theorem step_faultReg_twelve :
    (step s i).faultReg.getLsbD 12 = (!i.reset && i.evrFltIn) := by
  rw [step, mainFaultLogic]
  cases reset : i.reset with
  | true => simp
  | false =>
    rw [if_neg Bool.false_ne_true, faultLatches, getLsbD_setBit _ _ _ _ (by decide), if_pos rfl,
      Bool.not_false, Bool.true_and]

end Step

/-- A block that has seen nothing yet. -/
structure Blank (s : Regs) : Prop where
  check : ∀ b, check b s = ⟨0, false⟩
  dark : s.faultReg = 0
  latched : s.faultRegLat = 0
  idle : s.tenKhzPulse = false

theorem blank_powerUp : Blank powerUp := by
  refine ⟨fun b => ?_, rfl, rfl, rfl⟩
  cases b <;> rfl

/-- A reset leaves a blank block blank. -/
theorem Blank.reset {s : Regs} (blank : Blank s) {i : Ports} (reset : i.reset = true) :
    Blank (step s i) := by
  rw [step_reset s reset]
  refine ⟨fun b => ?_, rfl, rfl, rfl⟩
  have count := congrArg Persist.count (blank.check b)
  cases b with
  | dcct | flt1 | flt2 | flt3 | on => exact Persist.mk.injEq .. |>.mpr ⟨count, BitVec.getLsbD_zero⟩
  | _ => exact Persist.mk.injEq .. |>.mpr ⟨BitVec.toNat_zero, BitVec.getLsbD_zero⟩

end FaultBlock

namespace Interlock

open FaultBlock (FaultBit Blank)

section Law

variable (c : Chan) (inp : Nat → Ports)

/-- The 10 kHz ticks of a channel's fault block. -/
def ticks (t : Nat) : Bool := (block (run step powerUp inp t) c).tenKhzPulse

/-- The clear pulse of a channel's fault block. -/
def clears (t : Nat) : Bool := (block (run step powerUp inp t) c).clearPulse

/-- The trip condition of a bit, as its check would test it at clock `t`. -/
def trips (b : FaultBit) (t : Nat) : Bool :=
  FaultBlock.trip (block (run step powerUp inp t) c) (blockPorts c powerUp inp t) b

/-- A bit is enabled at clock `t`. -/
def enabled (b : FaultBit) (t : Nat) : Bool :=
  ((inp t).faultParams.get c).enable.getLsbD b.index

/-- Before clock `t` the bit has tripped, at one tick more than its limit in a row, and has not been
cleared since then. -/
def Stands (limit : FaultBit → BitVec 16) (b : FaultBit) (t : Nat) : Prop :=
  ∃ v, v < t ∧ HeldLast (ticks c inp) (trips c inp b) ((limit b).toNat + 1) v ∧
    ∀ w, v ≤ w → w < t → clears c inp w = false

/-- The device is reset for so many clocks and not again, and the channel's limits stay. -/
structure Steady (limit : FaultBit → BitVec 16) (resets : Nat) : Prop where
  reset : ∀ t, (inp t).reset = decide (t < resets)
  limits : ∀ t b, FaultBlock.cntlim ((inp t).faultParams.get c) b = limit b

end Law

section Runs

variable {c : Chan} {inp : Nat → Ports} {limit : FaultBit → BitVec 16} {resets : Nat}

theorem block_next (t : Nat) : block (run step powerUp inp (t + 1)) c =
    FaultBlock.step (block (run step powerUp inp t) c) (blockPorts c powerUp inp t) := by
  rw [block_run, run_succ, ← block_run]

theorem blank_run (steady : Steady c inp limit resets) {t : Nat} (le : t ≤ resets) :
    Blank (block (run step powerUp inp t) c) := by
  induction t with
  | zero =>
    have start : block powerUp c = FaultBlock.powerUp := PerChan.get_of _ c
    rw [run_zero, start]
    exact FaultBlock.blank_powerUp
  | succ t ih =>
    rw [block_next]
    refine (ih (Nat.le_of_succ_le le)).reset ?_
    rw [blockPorts_reset, steady.reset, decide_eq_true_eq]
    exact le

/-- Each bit's check runs from zero, the clocks in reset included. -/
theorem check_run (steady : Steady c inp limit resets) (b : FaultBit) (t : Nat) :
    FaultBlock.check b (block (run step powerUp inp t) c) =
      run (persistStep b.cntWidth) ⟨0, false⟩
        (fun t => ⟨ticks c inp t, trips c inp b t, (limit b).toNat⟩) t := by
  induction t with
  | zero => exact (blank_run steady (Nat.zero_le _)).check b
  | succ t ih =>
    rw [run_succ (persistStep b.cntWidth), ← ih]
    by_cases early : t < resets
    · have idle := (blank_run steady (Nat.le_of_lt early)).idle
      rw [persistStep_idle idle, (blank_run steady early).check,
        (blank_run steady (Nat.le_of_lt early)).check]
    · have running : (blockPorts c powerUp inp t).reset = false := by
        rw [blockPorts_reset, steady.reset, decide_eq_false_iff_not]
        exact early
      have same : FaultBlock.cntlim (blockPorts c powerUp inp t).faultParams b = limit b := by
        rw [blockPorts_faultParams]
        exact steady.limits t b
      rw [block_next, FaultBlock.check_step _ _ _ running, FaultBlock.sample, same]
      rfl

theorem live_iff (steady : Steady c inp limit resets) (b : FaultBit) (t : Nat) :
    (block (run step powerUp inp t) c).faultReg.getLsbD b.index = true ↔
      HeldLast (ticks c inp) (trips c inp b) ((limit b).toNat + 1) t := by
  have fits : (limit b).toNat < 2 ^ b.cntWidth :=
    Nat.lt_of_lt_of_le (limit b).isLt b.cntWidth_ge
  let samples : Nat → Sample := fun t => ⟨ticks c inp t, trips c inp b t, (limit b).toNat⟩
  have live := @persist_live_iff _ samples _ fits (fun _ => rfl) t
  rw [← check_run steady b t] at live
  exact live

/-- The bits above the checks are never live. -/
theorem high_dark (k : Nat) (high : k = 11 ∨ k = 12) (t : Nat) :
    (block (run step powerUp inp t) c).faultReg.getLsbD k = false := by
  have start : block powerUp c = FaultBlock.powerUp := PerChan.get_of _ c
  induction t with
  | zero =>
    rw [run_zero, start]
    exact BitVec.getLsbD_zero
  | succ t ih =>
    have before : (blockPorts c powerUp inp t).evrFltIn = false := by cases c <;> rfl
    rw [block_next]
    obtain rfl | rfl := high
    · rw [FaultBlock.step_faultReg_eleven, ih, Bool.and_false]
    · rw [FaultBlock.step_faultReg_twelve, before, Bool.and_false]

theorem latch_iff (steady : Steady c inp limit resets) {k : Nat} (low : k < 13) (t : Nat) :
    (block (run step powerUp inp t) c).faultRegLat.getLsbD k = true ↔
      ∃ v, v < t ∧ (block (run step powerUp inp v) c).faultReg.getLsbD k = true ∧
        ∀ w, v ≤ w → w < t → clears c inp w = false := by
  refine latched_iff (fun t => (block (run step powerUp inp t) c).faultReg.getLsbD k)
    (clears c inp) (fun t => (block (run step powerUp inp t) c).faultRegLat.getLsbD k) ?_
    (fun t => ?_) t
  · rw [(blank_run steady (Nat.zero_le _)).latched]
    exact BitVec.getLsbD_zero
  · by_cases early : t < resets
    · have before := blank_run steady (Nat.le_of_lt early)
      rw [(blank_run steady early).latched, before.latched, before.dark]
      simp
    · have running : (blockPorts c powerUp inp t).reset = false := by
        rw [blockPorts_reset, steady.reset, decide_eq_false_iff_not]
        exact early
      rw [block_next, FaultBlock.step_faultRegLat _ _ running low]
      rfl

/-- A bit that the mask lets through is a check's, but for two bits that are never live. -/
theorem masked_bit {k : Nat} (masked : (0x1FEF#16).getLsbD k = true) :
    (∃ b : FaultBit, b ≠ .err2 ∧ b.index = k) ∨ k = 11 ∨ k = 12 := by
  have low := masked_latched masked
  have apart : k ≠ 4 := by
    rintro rfl
    exact absurd masked (by decide)
  obtain rfl | rfl | rfl | rfl | rfl | rfl | rfl | rfl | rfl | rfl | high :
    k = 0 ∨ k = 1 ∨ k = 2 ∨ k = 3 ∨ k = 5 ∨ k = 6 ∨ k = 7 ∨ k = 8 ∨ k = 9 ∨ k = 10 ∨
      k = 11 ∨ k = 12 := by omega
  · exact .inl ⟨.ovc1, by simp, rfl⟩
  · exact .inl ⟨.ovc2, by simp, rfl⟩
  · exact .inl ⟨.ovv, by simp, rfl⟩
  · exact .inl ⟨.err1, by simp, rfl⟩
  · exact .inl ⟨.ignd, by simp, rfl⟩
  · exact .inl ⟨.dcct, by simp, rfl⟩
  · exact .inl ⟨.flt1, by simp, rfl⟩
  · exact .inl ⟨.flt2, by simp, rfl⟩
  · exact .inl ⟨.flt3, by simp, rfl⟩
  · exact .inl ⟨.on, by simp, rfl⟩
  · exact .inr high

theorem masked_index {b : FaultBit} (other : b ≠ .err2) : (0x1FEF#16).getLsbD b.index = true := by
  cases b with
  | err2 => exact absurd rfl other
  | _ => rfl

theorem stands_iff (steady : Steady c inp limit resets) (b : FaultBit) (t : Nat) :
    Stands c inp limit b t ↔
      (block (run step powerUp inp t) c).faultRegLat.getLsbD b.index = true := by
  rw [latch_iff steady (Nat.lt_of_lt_of_le b.index_lt (by decide)), Stands]
  exact exists_congr fun v => and_congr_right fun _ => and_congr_left' (live_iff steady b v).symm

/-- The interlock as a whole, with limits that stay: a channel's on command is the pulsed request,
unless an enabled bit other than the second error stands. -/
theorem command_iff (c : Chan) (inp : Nat → Ports) (limit : FaultBit → BitVec 16) (resets : Nat)
    (steady : Steady c inp limit resets) (t : Nat) :
    onCommand (run step powerUp inp (t + 1)) (inp (t + 1)) c = true ↔
      ((run step powerUp inp (t + 1)).digio.get c).chEnable = true ∧
        ∀ b, b ≠ .err2 → enabled c inp b t = true → ¬Stands c inp limit b t := by
  rw [onCommand_eq, Bool.and_eq_true, Bool.not_eq_true', bne_eq_false_iff_eq]
  refine and_congr_right fun _ => ?_
  have mask : ∀ k, (block (run step powerUp inp (t + 1)) c).faultRegLatMask.getLsbD k =
      ((0x1FEF#16).getLsbD k && (block (run step powerUp inp t) c).faultRegLat.getLsbD k &&
        ((inp t).faultParams.get c).enable.getLsbD k) := by
    intro k
    rw [block_next, FaultBlock.step_faultRegLatMask, BitVec.getLsbD_and, BitVec.getLsbD_and,
      blockPorts_faultParams]
  constructor
  · intro none b other on stands
    have bit := mask b.index
    rw [none, masked_index other, (stands_iff steady b t).1 stands] at bit
    rw [enabled] at on
    rw [on] at bit
    simp at bit
  · intro calm
    by_contra some
    obtain ⟨k, -, set⟩ := (bits_ne_zero_iff _).1 some
    rw [mask, Bool.and_eq_true, Bool.and_eq_true] at set
    obtain ⟨⟨masked, latched⟩, on⟩ := set
    obtain ⟨b, other, rfl⟩ | high := masked_bit masked
    · exact calm b other on ((stands_iff steady b t).2 latched)
    · have low := masked_latched masked
      obtain ⟨v, -, live, -⟩ := (latch_iff steady low t).1 latched
      rw [high_dark k high v] at live
      cases live

/-- Fault input 1 of channel 1 stays up after two clocks of reset, with every bit enabled. -/
def fault1Stays (t : Nat) : Ports :=
  { fault1Pulse t with reset := decide (t < 2), rsts := 0xF0002#20 }

theorem command_iff_fault1 :
    onCommand (run step powerUp fault1Stays 9) (fault1Stays 9) .ps1 = true ↔
      ((run step powerUp fault1Stays 9).digio.get .ps1).chEnable = true ∧
        ∀ b, b ≠ .err2 → enabled .ps1 fault1Stays b 8 = true →
          ¬Stands .ps1 fault1Stays (fun _ => 0) b 8 := by
  refine command_iff .ps1 fault1Stays (fun _ => 0) 2 ⟨fun _ => rfl, fun t b => ?_⟩ 8
  cases b <;> rfl

end Runs

end Interlock

end PscDigpid.Hdl
