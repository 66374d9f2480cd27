/- Unit: PscDigpid/Hdl/FaultChecks
   layer: model
   source: src/hw/hdl/fault_block.vhd
   digest: The eleven fault bits, each refining a persistence check, and their latches. -/

import PscDigpid.Hdl.FaultBlock

set_option autoImplicit false
set_option relaxedAutoImplicit false

namespace PscDigpid.Hdl.FaultBlock

open PscDigpid.Sync

/-- The fault bits that have a check, under the names of their count limits. -/
inductive FaultBit
  | ovc1 | ovc2 | ovv | err1 | err2 | ignd | dcct | flt1 | flt2 | flt3 | on
  deriving DecidableEq

namespace FaultBit

/-- Position in `fault_reg`. -/
def index : FaultBit → Nat
  | ovc1 => 0
  | ovc2 => 1
  | ovv => 2
  | err1 => 3
  | err2 => 4
  | ignd => 5
  | dcct => 6
  | flt1 => 7
  | flt2 => 8
  | flt3 => 9
  | on => 10

def cntWidth : FaultBit → Nat
  | on => 32
  | _ => 16

theorem index_lt (b : FaultBit) : b.index < 11 := by
  cases b <;> decide

theorem cntWidth_ge (b : FaultBit) : 2 ^ 16 ≤ 2 ^ b.cntWidth := by
  cases b <;> decide

end FaultBit

/-- The counter of each fault bit. -/
def cnt (s : Regs) : FaultBit → Nat
  | .ovc1 => s.ovcFaultCnt1.toNat
  | .ovc2 => s.ovcFaultCnt2.toNat
  | .ovv => s.ovvFaultCnt.toNat
  | .err1 => s.errFaultCnt1.toNat
  | .err2 => s.errFaultCnt2.toNat
  | .ignd => s.igndFaultCnt.toNat
  | .dcct => s.dcctFaultCnt.toNat
  | .flt1 => s.fault1Cnt.toNat
  | .flt2 => s.fault2Cnt.toNat
  | .flt3 => s.fault3Cnt.toNat
  | .on => s.onFaultCnt.toNat

/-- The count limit of each fault bit. -/
def cntlim (p : FaultParamsOnech) : FaultBit → BitVec 16
  | .ovc1 => p.ovc1Cntlim
  | .ovc2 => p.ovc2Cntlim
  | .ovv => p.ovvCntlim
  | .err1 => p.err1Cntlim
  | .err2 => p.err2Cntlim
  | .ignd => p.igndCntlim
  | .dcct => p.dcctCntlim
  | .flt1 => p.flt1Cntlim
  | .flt2 => p.flt2Cntlim
  | .flt3 => p.flt3Cntlim
  | .on => p.onCntlim

/-- The condition each fault bit tests at a tick, suppressions included. -/
def trip (s : Regs) (i : Ports) : FaultBit → Bool
  | .ovc1 => absGe i.dcctAdcs.dcct0 i.faultParams.ovc1Thresh && !s.clearPulse
  | .ovc2 => absGe i.dcctAdcs.dcct1 i.faultParams.ovc2Thresh && !s.clearPulse
  | .ovv => absGe i.monAdcs.voltage i.faultParams.ovvThresh && !s.clearPulse
  | .err1 => absGe i.monAdcs.psError i.faultParams.err1Thresh &&
      (!i.park && !s.dacChangeFlag && !s.clearPulse)
  | .err2 => absGe i.monAdcs.psError i.faultParams.err2Thresh &&
      (!i.park && !s.dacChangeFlag && !s.clearPulse)
  | .ignd => absGe i.monAdcs.ignd i.faultParams.igndThresh && !s.clearPulse
  | .dcct => !i.dcctFault && !s.clearPulse
  | .flt1 => i.fault1 && !s.clearPulse
  | .flt2 => i.fault2 && !s.clearPulse
  | .flt3 => i.fault3 && !s.clearPulse
  | .on => i.acOnOut && !i.acOnIn && !s.clearPulse

def live (s : Regs) (b : FaultBit) : Bool := s.faultReg.getLsbD b.index

/-- One fault bit seen as a persistence check. -/
def check (b : FaultBit) (s : Regs) : Persist := ⟨cnt s b, live s b⟩

/-- What that check sees at one clock. -/
def sample (b : FaultBit) (s : Regs) (i : Ports) : Sample :=
  ⟨s.tenKhzPulse, trip s i b, (cntlim i.faultParams b).toNat⟩

theorem sample_fits (b : FaultBit) (s : Regs) (i : Ports) :
    (sample b s i).limit < 2 ^ b.cntWidth :=
  Nat.lt_of_lt_of_le (cntlim i.faultParams b).isLt b.cntWidth_ge

theorem cnt_lt (s : Regs) (b : FaultBit) : cnt s b < 2 ^ b.cntWidth := by
  cases b <;> exact BitVec.isLt _

section Step

variable (b : FaultBit) (s : Regs) (i : Ports)

private theorem faultCheck_persist {w : Nat} (trip : Bool) (cntlim cnt : BitVec w) (live : Bool) :
    (⟨(faultCheck trip cntlim cnt live).1.toNat, (faultCheck trip cntlim cnt live).2⟩ : Persist) =
      persistStep w ⟨cnt.toNat, live⟩ ⟨true, trip, cntlim.toNat⟩ := by
  cases trip with
  | false => simp [faultCheck, persistStep]
  | true =>
      by_cases hit : cnt = cntlim
      · simp [faultCheck, persistStep, hit]
      · have miss : cnt.toNat ≠ cntlim.toNat := fun same => hit (BitVec.eq_of_toNat_eq same)
        simp [faultCheck, persistStep, hit, miss]

private theorem check_tenKhzChecks (next : Regs) : check b (tenKhzChecks s i next) =
    persistStep b.cntWidth (check b s)
      ⟨true, trip s i b, (cntlim i.faultParams b).toNat⟩ := by
  cases b <;>
    simp (disch := decide) only [check, cnt, live, trip, cntlim, FaultBit.index,
      FaultBit.cntWidth, tenKhzChecks, ovc1Check, ovc2Check, ovvCheck, errChecks_eq, igndCheck,
      dcctCheck, fault1Check, fault2Check, fault3Check, onCheck, getLsbD_setBit, reduceIte,
      Nat.reduceEqDiff, reduceCtorEq, faultCheck_persist, BitVec.toNat_setWidth_of_le]

private theorem check_controlRegs : check b (controlRegs s i) = check b s := by
  cases reset : i.reset <;> cases trig : i.tenkhzTrig <;>
    simp only [controlRegs, dacChangeFlagReg, heartbeatRegs, tenKhzPulseRegs, dacSetpointRegs,
      reset, trig] <;>
    cases b <;> rfl

private theorem check_faultLatches (next : Regs) :
    check b (faultLatches s i next) = check b next := by
  have low := b.index_lt
  have bit : (setBit next.faultReg 12 i.evrFltIn).getLsbD b.index =
      next.faultReg.getLsbD b.index := by
    rw [getLsbD_setBit _ _ _ _ (by omega), if_neg (by omega)]
  refine Persist.mk.injEq .. |>.mpr ⟨?_, bit⟩
  cases b <;> rfl

/-- Outside reset, one clock of a fault bit is one clock of its persistence check. -/
theorem check_step (running : i.reset = false) :
    check b (step s i) = persistStep b.cntWidth (check b s) (sample b s i) := by
  rw [step, mainFaultLogic, if_neg (by simp [running]), check_faultLatches]
  cases tick : s.tenKhzPulse with
  | false =>
      rw [if_neg (by simp), check_controlRegs, persistStep_idle tick]
  | true =>
      rw [if_pos rfl, check_tenKhzChecks, sample, tick]

private theorem faultRegLat_tenKhzChecks (next : Regs) :
    (tenKhzChecks s i next).faultRegLat = next.faultRegLat := by
  simp only [tenKhzChecks, ovc1Check, ovc2Check, ovvCheck, errChecks_eq, igndCheck, dcctCheck,
    fault1Check, fault2Check, fault3Check, onCheck]

private theorem faultRegLat_controlRegs : (controlRegs s i).faultRegLat = s.faultRegLat := by
  cases reset : i.reset <;> cases trig : i.tenkhzTrig <;>
    simp only [controlRegs, dacChangeFlagReg, heartbeatRegs, clearPulseRegs, tenKhzPulseRegs,
      dacSetpointRegs, maskRegs, reset, trig, reduceIte, Bool.false_eq_true]

private theorem getLsbD_latchBit (lat : BitVec 16) (k j : Nat) (within : j < 16) :
    (latchBit s lat k).getLsbD j =
      if j = k then !s.clearPulse && (s.faultReg.getLsbD k || lat.getLsbD j)
      else lat.getLsbD j := by
  have set (b : Bool) := getLsbD_setBit lat k b j within
  by_cases same : j = k
  · subst same
    cases clear : s.clearPulse <;> cases bit : s.faultReg.getLsbD j <;>
      simp [latchBit, clear, bit, set]
  · cases clear : s.clearPulse <;> cases bit : s.faultReg.getLsbD k <;>
      simp [latchBit, clear, bit, set, same]

/-- Outside reset, a latch holds its live bit until the clear pulse. -/
theorem step_faultRegLat (running : i.reset = false) {k : Nat} (low : k < 13) :
    (step s i).faultRegLat.getLsbD k =
      (!s.clearPulse && (s.faultReg.getLsbD k || s.faultRegLat.getLsbD k)) := by
  have latches (next : Regs) (same : next.faultRegLat = s.faultRegLat) :
      (faultLatches s i next).faultRegLat.getLsbD k =
        (!s.clearPulse && (s.faultReg.getLsbD k || s.faultRegLat.getLsbD k)) := by
    change ((List.range 13).foldl (latchBit s) next.faultRegLat).getLsbD k = _
    rw [getLsbD_foldl_range (f := fun k old => !s.clearPulse && (s.faultReg.getLsbD k || old))
      (getLsbD_latchBit s) 13 _ k (by omega), if_pos low, same]
  rw [step, mainFaultLogic, if_neg (by simp [running])]
  apply latches
  split_ifs
  · rw [faultRegLat_tenKhzChecks, faultRegLat_controlRegs]
  · exact faultRegLat_controlRegs s i

end Step

section Latches

variable {s : Regs} {inp : Nat → Ports}

/-- A latch that is set while no clear pulse comes stays set. -/
theorem latch_stays {x y : Nat} (running : ∀ v, x ≤ v → v < y → (inp v).reset = false)
    {k : Nat} (low : k < 13) (le : x ≤ y)
    (off : ∀ v, x ≤ v → v < y → (run step s inp v).clearPulse = false)
    (set : (run step s inp x).faultRegLat.getLsbD k = true) :
    (run step s inp y).faultRegLat.getLsbD k = true := by
  apply stretch_induction (P := fun y => (run step s inp y).faultRegLat.getLsbD k = true) le set
  intro v from_x before held
  rw [run_succ, step_faultRegLat _ _ (running v from_x before) low, off v from_x before, held]
  simp

/-- A latch that was clear has seen its bit live. -/
theorem latch_from_live {x y : Nat} (running : ∀ v, x ≤ v → v < y → (inp v).reset = false)
    {k : Nat} (low : k < 13) (le : x ≤ y) (clear : (run step s inp x).faultRegLat.getLsbD k = false)
    (set : (run step s inp y).faultRegLat.getLsbD k = true) :
    ∃ v, x ≤ v ∧ v < y ∧ (run step s inp v).faultReg.getLsbD k = true := by
  revert set
  refine stretch_induction (P := fun y => (run step s inp y).faultRegLat.getLsbD k = true →
    ∃ v, x ≤ v ∧ v < y ∧ (run step s inp v).faultReg.getLsbD k = true) le ?_ ?_
  · intro set
    rw [clear] at set
    contradiction
  · intro v from_x before ih set
    rw [run_succ, step_faultRegLat _ _ (running v from_x before) low, Bool.and_eq_true,
      Bool.or_eq_true] at set
    rcases set.2 with raised | held
    · exact ⟨v, from_x, Nat.lt_succ_self v, raised⟩
    · obtain ⟨w, from_w, earlier, raised⟩ := ih held
      exact ⟨w, from_w, Nat.lt_succ_of_lt earlier, raised⟩

end Latches

end PscDigpid.Hdl.FaultBlock
