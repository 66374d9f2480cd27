/- Unit: PscDigpid/Hdl/FaultReset
   layer: result
   source: src/hw/hdl/fault_block.vhd
   digest: What a reset of the fault logic forgets, as a statement about two runs. -/

import PscDigpid.Hdl.FaultPersistence

set_option autoImplicit false
set_option relaxedAutoImplicit false

namespace PscDigpid.Hdl.FaultBlock

open PscDigpid.Sync

/-- A clear pulse is up, or the edge detector is about to raise it. -/
def pendingClear (s : Regs) : Bool := s.clearPulse || !s.reReg && s.re

/-- The fault bits whose counters the reset branch leaves alone. -/
def unreset : FaultBit → Bool
  | .dcct | .flt1 | .flt2 | .flt3 | .on => true
  | _ => false

/-- Two states agree on what reset does not clear. -/
def ResetAgrees (s s' : Regs) : Prop :=
  pendingClear s = pendingClear s' ∧ ∀ b, unreset b = true → cnt s b = cnt s' b

/-- Two states agree on the live register, the latches and the outputs. -/
def SameFaults (s s' : Regs) : Prop :=
  faultStat s = faultStat s' ∧ s.faultRegLat = s'.faultRegLat

/-- The registers that the reset branches do not clear. -/
structure Residue where
  re : Bool
  reReg : Bool
  clearPulse : Bool
  dcctFaultCnt : BitVec 16
  fault1Cnt : BitVec 16
  fault2Cnt : BitVec 16
  fault3Cnt : BitVec 16
  onFaultCnt : BitVec 32

def residue (s : Regs) : Residue where
  re := s.re
  reReg := s.reReg
  clearPulse := s.clearPulse
  dcctFaultCnt := s.dcctFaultCnt
  fault1Cnt := s.fault1Cnt
  fault2Cnt := s.fault2Cnt
  fault3Cnt := s.fault3Cnt
  onFaultCnt := s.onFaultCnt

/-- The configured registers with a given residue. -/
def released (r : Residue) : Regs :=
  { powerUp with
    re := r.re
    reReg := r.reReg
    clearPulse := r.clearPulse
    dcctFaultCnt := r.dcctFaultCnt
    fault1Cnt := r.fault1Cnt
    fault2Cnt := r.fault2Cnt
    fault3Cnt := r.fault3Cnt
    onFaultCnt := r.onFaultCnt }

/-- One clock in reset. -/
theorem step_reset (s : Regs) {i : Ports} (reset : i.reset = true) : step s i =
    { powerUp with
      re := i.faultParams.clear
      reReg := s.re
      clearPulse := !s.reReg && s.re || !s.tenKhzPulse && s.clearPulse
      dcctFaultCnt := s.dcctFaultCnt
      fault1Cnt := s.fault1Cnt
      fault2Cnt := s.fault2Cnt
      fault3Cnt := s.fault3Cnt
      onFaultCnt := s.onFaultCnt
      faultRegLatMask := 0x1FEF#16 &&& s.faultRegLat &&& i.faultParams.enable
      errorRegMask := 0x0010#16 &&& s.faultReg &&& i.faultParams.enable } := by
  rw [← clear_pulse_eq]
  simp [step, mainFaultLogic, controlRegs, dacChangeFlagReg, heartbeatRegs, clearPulseRegs,
    tenKhzPulseRegs, dacSetpointRegs, maskRegs, powerUp, reset]

/-- Two clocks in reset leave the residue and nothing else. -/
private theorem released_of_reset (s : Regs) {during : Nat → Ports} {n : Nat} (long : 2 ≤ n)
    (reset : ∀ t, t < n → (during t).reset = true) :
    run step s during n = released (residue (run step s during n)) := by
  obtain ⟨m, rfl⟩ : ∃ m, n = m + 1 + 1 := ⟨n - 2, by omega⟩
  rw [run_succ, run_succ, step_reset _ (reset (m + 1) (by omega)),
    step_reset _ (reset m (by omega))]
  simp [released, residue, powerUp]

/-- The edge detector of the clear command sees the same after two clocks. -/
private theorem same_edges (s s' : Regs) (inp : Nat → Ports) {n : Nat} (long : 2 ≤ n) :
    (run step s inp n).re = (run step s' inp n).re ∧
      (run step s inp n).reReg = (run step s' inp n).reReg := by
  obtain ⟨m, rfl⟩ : ∃ m, n = m + 1 + 1 := ⟨n - 2, by omega⟩
  simp only [run_succ, step_re, step_reReg, and_self]

private theorem latch_none (s : Regs) (silent : s.faultReg = 0#16) (ks : List Nat) :
    ks.foldl (latchBit s) 0#16 = 0#16 := by
  induction ks with
  | nil => rfl
  | cons k ks ih =>
      have turn : latchBit s 0#16 k = 0#16 := by
        cases clear : s.clearPulse <;> simp [latchBit, clear, silent, setBit]
      rw [List.foldl_cons, turn, ih]

/-- The first clock after reset, in terms of what reset leaves. -/
private theorem step_released (r : Residue) (i : Ports) : step (released r) i =
    { powerUp with
      dff0 := !i.reset && i.tenkhzTrig
      dff2 := !i.reset && i.fault2
      dacSetpointRegNew := if i.reset then 0 else if i.tenkhzTrig then i.dacSetpoint else 0
      re := i.faultParams.clear
      reReg := r.re
      clearPulse := pendingClear (released r)
      dcctFaultCnt := r.dcctFaultCnt
      fault1Cnt := r.fault1Cnt
      fault2Cnt := r.fault2Cnt
      fault3Cnt := r.fault3Cnt
      onFaultCnt := r.onFaultCnt
      faultReg := if i.reset then 0 else setBit 0 12 i.evrFltIn } := by
  cases reset : i.reset <;> cases trig : i.tenkhzTrig <;>
    simp [step, mainFaultLogic, faultLatches, controlRegs, dacChangeFlagReg, heartbeatRegs,
      clearPulseRegs, tenKhzPulseRegs, dacSetpointRegs, maskRegs, released, powerUp, pendingClear,
      latch_none, reset, trig, Bool.or_comm]

/-- After a reset, runs that agree on what it leaves show the same faults. -/
private theorem same_faults_of_agrees {r r' : Residue} (re : r.re = r'.re)
    (agrees : ResetAgrees (released r) (released r')) (after : Nat → Ports) (t : Nat) :
    SameFaults (run step (released r) after t) (run step (released r') after t) := by
  obtain ⟨pending, counts⟩ := agrees
  have dcct : r.dcctFaultCnt = r'.dcctFaultCnt := BitVec.eq_of_toNat_eq (counts .dcct rfl)
  have flt1 : r.fault1Cnt = r'.fault1Cnt := BitVec.eq_of_toNat_eq (counts .flt1 rfl)
  have flt2 : r.fault2Cnt = r'.fault2Cnt := BitVec.eq_of_toNat_eq (counts .flt2 rfl)
  have flt3 : r.fault3Cnt = r'.fault3Cnt := BitVec.eq_of_toNat_eq (counts .flt3 rfl)
  have on : r.onFaultCnt = r'.onFaultCnt := BitVec.eq_of_toNat_eq (counts .on rfl)
  have first : step (released r) (after 0) = step (released r') (after 0) := by
    simp only [step_released, re, pending, dcct, flt1, flt2, flt3, on]
  cases t with
  | zero => exact ⟨rfl, rfl⟩
  | succ t =>
      rw [Nat.add_comm t 1, run_add, run_add, run_succ, run_succ, run_zero, run_zero, first]
      exact ⟨rfl, rfl⟩

/-- Ports at which every counter left by reset is pressed, and no clear comes. -/
def probe : Ports :=
  { quiet with
    tenkhzTrig := true
    fault1 := true
    fault2 := true
    fault3 := true
    dcctFault := false
    acOnOut := true
    faultParams := { quiet.faultParams with ovc1Thresh := 0 } }

/-- The probe with one more reset, at the clock of its first tick. -/
def probeReset (t : Nat) : Ports := if t = 3 then { probe with reset := true } else probe

/-- The probe has come through to the ticks, and nothing is being cleared. -/
private structure Probed (s : Regs) : Prop where
  dff0 : s.dff0 = true
  dff1 : s.dff1 = true
  tick : s.tenKhzPulse = true
  edge : s.re = false
  pulse : s.clearPulse = false

private theorem probed_step {s : Regs} (probed : Probed s) : Probed (step s probe) where
  dff0 := by rw [step_dff0]; rfl
  dff1 := by rw [step_dff1, probed.dff0]; rfl
  tick := by rw [step_tenKhzPulse, probed.dff1]; rfl
  edge := by rw [step_re]; rfl
  pulse := by rw [step_clearPulse, probed.edge, probed.pulse]; simp

private theorem probed_run {s : Regs} (probed : Probed s) (t : Nat) :
    Probed (run step s (fun _ => probe) t) := by
  induction t with
  | zero => exact probed
  | succ t ih => exact probed_step ih

/-- Under the probe each unreset check is pressed. -/
private theorem samples_probed {s : Regs} (probed : Probed s) {b : FaultBit}
    (left : unreset b = true) : samples b s (fun _ => probe) = pressed := by
  have now {z : Regs} (here : Probed z) : sample b z probe = ⟨true, true, 0⟩ := by
    cases b <;> simp [unreset] at left <;>
      simp [sample, trip, cntlim, probe, quiet, here.tick, here.pulse]
  exact funext fun t => now (probed_run probed t)

/-- The probe takes three clocks after a reset to bring its first tick. -/
private theorem probe_three (r : Residue) {s : Regs}
    (start : s = run step (released r) (fun _ => probe) 3) :
    (s.dff0 = true ∧ s.dff1 = true ∧ s.tenKhzPulse = true) ∧ s.re = false ∧
      s.clearPulse = pendingClear (released r) ∧ ∀ b, check b s = check b (released r) := by
  subst start
  rw [run_succ, run_succ, run_succ, run_zero]
  have first := step_released r probe
  have tick1 : (step (released r) probe).tenKhzPulse = false := by rw [first]; rfl
  have tick2 : (step (step (released r) probe) probe).tenKhzPulse = false := by
    rw [step_tenKhzPulse, first]; rfl
  have re1 : (step (released r) probe).re = false := by rw [first]; rfl
  have re2 : (step (step (released r) probe) probe).re = false := by rw [step_re]; rfl
  refine ⟨⟨?_, ?_, ?_⟩, ?_, ?_, ?_⟩
  · rw [step_dff0]; rfl
  · rw [step_dff1, step_dff0]; rfl
  · rw [step_tenKhzPulse, step_dff1, first]; rfl
  · rw [step_re]; rfl
  · rw [step_clearPulse, re2, tick2, step_clearPulse, re1, tick1, first]
    simp
  · intro b
    rw [check_step _ _ _ rfl, persistStep_idle tick2, check_step _ _ _ rfl, persistStep_idle tick1,
      check_step _ _ _ rfl, persistStep_idle rfl]

/-- The first tick of the probe shows whether a clear is pending. -/
private theorem live_of_probe (r : Residue) :
    live (run step (released r) (fun _ => probe) 4) .ovc1 = !pendingClear (released r) := by
  obtain ⟨⟨-, -, tick⟩, -, pulse, same⟩ := probe_three r rfl
  have next := check_step .ovc1 (run step (released r) (fun _ => probe) 3) probe rfl
  rw [same] at next
  have seen : sample .ovc1 (run step (released r) (fun _ => probe) 3) probe =
      ⟨true, !pendingClear (released r), 0⟩ := by
    simp only [sample, trip, tick, pulse]
    rfl
  rw [seen] at next
  have bit := congrArg Persist.live next
  cases clear : pendingClear (released r) <;> rw [clear] at bit <;> exact bit

/-- The reset at the first tick of the probe drops a pending clear and keeps the
counts. -/
private theorem probeReset_four (r : Residue) {b : FaultBit} (left : unreset b = true) :
    ∃ q, run step (released r) probeReset 4 = released q ∧ pendingClear (released q) = false ∧
      check b (released q) = check b (released r) := by
  obtain ⟨⟨-, -, tick⟩, edge, -, same⟩ := probe_three r rfl
  have last : run step (released r) probeReset 4 =
      step (run step (released r) (fun _ => probe) 3) { probe with reset := true } := rfl
  have kept := same b
  have silent : live (released r) b = false := by simp [live, released, powerUp]
  rw [step_reset _ rfl] at last
  rw [last]
  generalize run step (released r) (fun _ => probe) 3 = z at tick edge kept
  refine ⟨⟨false, false, false, z.dcctFaultCnt, z.fault1Cnt, z.fault2Cnt, z.fault3Cnt,
    z.onFaultCnt⟩, ?_, ?_, ?_⟩
  · simp [released, powerUp, probe, quiet, tick, edge]
  · rfl
  · have count := congrArg Persist.count kept
    refine Persist.mk.injEq .. |>.mpr ⟨?_, ?_⟩
    · cases b <;> simp [unreset] at left <;> exact count
    · rw [silent]
      simp [live, released, powerUp]

/-- The probe with its reset shows how long each unreset counter takes to wrap. -/
private theorem live_of_probeReset (r : Residue) {b : FaultBit} (left : unreset b = true)
    (k : Nat) : live (run step (released r) probeReset (7 + k)) b =
      (run (persistStep b.cntWidth) ⟨cnt (released r) b, false⟩ pressed k).live := by
  obtain ⟨q, start, clear, kept⟩ := probeReset_four r left
  obtain ⟨⟨dff0, dff1, tick'⟩, edge', pulse, same'⟩ := probe_three q rfl
  have probed : Probed (run step (released q) (fun _ => probe) 3) :=
    ⟨dff0, dff1, tick', edge', pulse.trans clear⟩
  have split : run step (released r) probeReset (7 + k) =
      run step (run step (released q) (fun _ => probe) 3) (fun _ => probe) k := by
    rw [show 7 + k = 4 + (3 + k) by omega, run_add, start]
    have rest : (fun t => probeReset (4 + t)) = fun _ => probe := by
      funext t
      exact if_neg (by omega)
    rw [rest, run_add]
  have whole := checks_eq_run b (run step (released q) (fun _ => probe) 3) (fun _ => probe)
    (fun _ => rfl) k
  rw [samples_probed probed left, same', kept] at whole
  have silent : live (released r) b = false := by simp [live, released, powerUp]
  rw [split, ← silent]
  exact congrArg Persist.live whole

/-- After four or more clocks of reset two runs show the same faults under all
further inputs exactly when the reset ended with the same clear pending and the
same counts on the five digital fault bits, which the reset branch leaves out. -/
theorem reset_forgets_iff (s s' : Regs) (during : Nat → Ports) (n : Nat) (long : 4 ≤ n)
    (reset : ∀ t, t < n → (during t).reset = true) :
    (∀ after t, SameFaults (run step (run step s during n) after t)
      (run step (run step s' during n) after t)) ↔
    ResetAgrees (run step s during n) (run step s' during n) := by
  have edges := same_edges s s' during (show 2 ≤ n by omega)
  rw [released_of_reset s (by omega) reset, released_of_reset s' (by omega) reset]
  constructor
  · intro same
    have lives (after : Nat → Ports) (t : Nat) (b : FaultBit) := congrArg
      (fun f : FaultStatOnech => f.live.getLsbD b.index) (same after t).1
    constructor
    · have shown := lives (fun _ => probe) 4 .ovc1
      have both := (live_of_probe _).symm.trans (shown.trans (live_of_probe _))
      simpa using both
    · intro b left
      apply pressed_reveals (cnt_lt _ b) (cnt_lt _ b)
      intro k
      rw [← live_of_probeReset _ left, ← live_of_probeReset _ left]
      exact lives probeReset (7 + k) b
  · intro agrees after t
    exact same_faults_of_agrees edges.1 agrees after t

/-- Ports that hold the block in reset. -/
def held (_ : Nat) : Ports := { quiet with reset := true }

/-- DCCT 1 is over its threshold from the start. -/
def ovc1Held (_ : Nat) : Ports :=
  { quiet with
    tenkhzTrig := true
    dcctAdcs := ⟨1, 0⟩
    faultParams := { quiet.faultParams with ovc1Cntlim := 5 } }

theorem reset_forgets_ovc1 : cnt (run step powerUp ovc1Held 6) .ovc1 = 3 ∧
    ∀ after t, SameFaults (run step (run step (run step powerUp ovc1Held 6) held 4) after t)
      (run step (run step powerUp held 4) after t) := by
  refine ⟨by decide, ?_⟩
  refine (reset_forgets_iff (run step powerUp ovc1Held 6) powerUp held 4 (Nat.le_refl 4)
    (fun _ _ => rfl)).2 ⟨by decide, ?_⟩
  intro b left
  cases b <;> first | contradiction | decide

/-- The states a configured block can come to. -/
def Reachable (s : Regs) : Prop := ∃ inp t, s = run step powerUp inp t

theorem reset_keeps_fault1_count :
    ¬ ∀ s s' : Regs, Reachable s → Reachable s' → ∀ (during : Nat → Ports) (n : Nat), 4 ≤ n →
      (∀ t, t < n → (during t).reset = true) → ∀ after t,
        SameFaults (run step (run step s during n) after t)
          (run step (run step s' during n) after t) := by
  intro forgets
  have same := forgets powerUp (run step powerUp (fault1Held fun _ => 5) 5) ⟨held, 0, rfl⟩
    ⟨fault1Held fun _ => 5, 5, rfl⟩ held 4 (Nat.le_refl 4) (fun _ _ => rfl)
    (fault1Held fun _ => 2) 4
  exact absurd same.1 (by decide)

end PscDigpid.Hdl.FaultBlock
