/- Unit: PscDigpid/Hdl/FaultClear
   layer: result
   source: src/hw/hdl/fault_block.vhd
   digest: The clear command, from its rising edge to what can be latched again. -/

import PscDigpid.Hdl.FaultPersistence

set_option autoImplicit false
set_option relaxedAutoImplicit false

namespace PscDigpid.Hdl.FaultBlock

open PscDigpid.Sync

/-- No latch, no live fault bit and no count is left. -/
def Cleared (s : Regs) : Prop :=
  (∀ k, k < 13 → s.faultRegLat.getLsbD k = false) ∧
    ∀ b, live s b = false ∧ cnt s b = 0

theorem trip_clearPulse {s : Regs} (pulse : s.clearPulse = true) (i : Ports) (b : FaultBit) :
    trip s i b = false := by
  cases b <;> simp [trip, pulse]

/-- One tick under the clear pulse clears every check and latch. -/
theorem cleared_step {s : Regs} {i : Ports} (running : i.reset = false)
    (tick : s.tenKhzPulse = true) (pulse : s.clearPulse = true) : Cleared (step s i) := by
  constructor
  · intro k low
    rw [step_faultRegLat s i running low, pulse]
    rfl
  · intro b
    have clean := check_step b s i running
    rw [persistStep_clear tick (trip_clearPulse pulse i b)] at clean
    exact ⟨congrArg Persist.live clean, congrArg Persist.count clean⟩

section Runs

variable {s : Regs} {inp : Nat → Ports}

/-- A rising edge of the clear command raises the clear pulse two clocks later,
and the pulse stays until a tick. -/
theorem clear_pulse_rises {a u : Nat} (low : (inp a).faultParams.clear = false)
    (high : (inp (a + 1)).faultParams.clear = true) (later : a + 3 ≤ u)
    (quiet : ∀ v, a + 3 ≤ v → v < u → (run step s inp v).tenKhzPulse = false) :
    (run step s inp u).clearPulse = true := by
  apply stretch_induction (P := fun u => (run step s inp u).clearPulse = true) later
  · rw [run_succ, step_clearPulse, run_succ, step_reReg, step_re, run_succ, step_re, low, high]
    rfl
  · intro v from_a before pulse
    rw [run_succ, step_clearPulse, quiet v from_a before, pulse]
    simp

/-- While the clear command stays high no second pulse starts. -/
private theorem pulse_stays_low {a z u y : Nat} (from_a : a + 2 ≤ z) (le : z ≤ y) (high : y ≤ u)
    (held : ∀ v, a ≤ v → v < u → (inp v).faultParams.clear = true)
    (low : (run step s inp z).clearPulse = false) : (run step s inp y).clearPulse = false := by
  apply stretch_induction (P := fun y => (run step s inp y).clearPulse = false) le low
  intro v from_z before off
  obtain ⟨d, rfl⟩ := Nat.exists_eq_add_of_le (Nat.le_trans from_a from_z)
  have seen : (run step s inp (a + 2 + d)).reReg = true := by
    rw [show a + 2 + d = a + d + 1 + 1 by omega, run_succ, step_reReg, run_succ, step_re]
    exact held (a + d) (by omega) (by omega)
  rw [run_succ, step_clearPulse, seen, off]
  simp

/-- A check that is clean at clock `a` has, when its latch is found set, tripped
at a full count of ticks since. -/
private theorem latch_needs_ticks (running : ∀ t, (inp t).reset = false) {b : FaultBit} {a u : Nat}
    (clean : Cleared (run step s inp a)) (le : a ≤ u)
    (set : (run step s inp u).faultRegLat.getLsbD b.index = true) :
    ∃ v, a ≤ v ∧ v + 1 < u ∧ (run step s inp v).tenKhzPulse = true ∧
      HeldSince (tickOf (samples b s inp)) (tripOf (samples b s inp)) a
        ((cntlim (inp v).faultParams b).toNat + 1) (v + 1) := by
  have low : b.index < 13 := Nat.lt_trans b.index_lt (by decide)
  obtain ⟨w, from_a, before, raised⟩ :=
    latch_from_live (fun v _ _ => running v) low le (clean.1 _ low) set
  have zero : run (persistStep b.cntWidth) (check b s) (samples b s inp) a = ⟨0, false⟩ := by
    rw [← checks_eq_run b s inp running a, checks, check, (clean.2 b).1, (clean.2 b).2]
  have live : (run (persistStep b.cntWidth) (check b s) (samples b s inp) w).live = true := by
    rw [← checks_eq_run b s inp running w]
    exact raised
  obtain ⟨v, low_v, high_v, tick, held⟩ := persist_live_held zero from_a live
  exact ⟨v, low_v, by omega, tick, held⟩

/-- The clear law. A rising edge of the clear command holds the clear pulse up
to a tick. That tick clears latches, live bits and counters; afterwards a bit
under an unchanged limit is latched only after one more than that many further
ticks have tripped, and a clear command that is still high clears no latch. -/
theorem fault_clear_law (s : Regs) (inp : Nat → Ports) (running : ∀ t, (inp t).reset = false) :
    (∀ a u, (inp a).faultParams.clear = false → (inp (a + 1)).faultParams.clear = true →
      a + 3 ≤ u → (∀ v, a + 3 ≤ v → v < u → (run step s inp v).tenKhzPulse = false) →
      (run step s inp u).clearPulse = true) ∧
    ∀ t, (run step s inp t).tenKhzPulse = true → (run step s inp t).clearPulse = true →
      Cleared (run step s inp (t + 1)) ∧
      (∀ b limit u, t < u → (∀ v, t < v → v < u → cntlim (inp v).faultParams b = limit) →
        (run step s inp u).faultRegLat.getLsbD b.index = true →
        ∃ v, t < v ∧ v + 1 < u ∧ (run step s inp v).tenKhzPulse = true ∧
          HeldSince (tickOf (samples b s inp)) (tripOf (samples b s inp)) (t + 1)
            (limit.toNat + 1) (v + 1)) ∧
      ∀ a u k x y, a < t → (∀ v, a ≤ v → v < u → (inp v).faultParams.clear = true) → k < 13 →
        t < x → x ≤ y → y ≤ u → (run step s inp x).faultRegLat.getLsbD k = true →
        (run step s inp y).faultRegLat.getLsbD k = true := by
  refine ⟨fun a u low high later quiet => clear_pulse_rises low high later quiet, ?_⟩
  intro t tick pulse
  have clean : Cleared (run step s inp (t + 1)) := cleared_step (running t) tick pulse
  refine ⟨clean, ?_, ?_⟩
  · intro b limit u after steady set
    obtain ⟨v, low, high, ticked, held⟩ := latch_needs_ticks running clean after set
    rw [steady v low (by omega)] at held
    exact ⟨v, low, high, ticked, held⟩
  · intro a u k x y from_a held low after le high set
    obtain ⟨z, rfl⟩ : ∃ z, x = z + 1 := ⟨x - 1, by omega⟩
    have off : (run step s inp z).clearPulse = false := by
      rw [run_succ, step_faultRegLat _ _ (running z) low, Bool.and_eq_true] at set
      simpa using set.1
    have later : t < z := by
      rcases Nat.lt_or_eq_of_le (Nat.le_of_lt_succ after) with later | rfl
      · exact later
      · rw [pulse] at off
        contradiction
    exact latch_stays (fun v _ _ => running v) low le
      (fun v from_z before => pulse_stays_low (by omega) (by omega) (by omega) held off) set

end Runs

/-- Fault input 1 is on from the start and a clear command comes at clock 4. -/
def clearedFault1 (t : Nat) : Ports :=
  { fault1Held (fun _ => 0) t with
    faultParams := { quiet.faultParams with clear := decide (4 ≤ t) } }

theorem fault_clear_fault1 :
    (run step powerUp clearedFault1 6).faultRegLat.getLsbD 7 = true ∧
      Cleared (run step powerUp clearedFault1 7) :=
  ⟨by decide, ((fault_clear_law powerUp clearedFault1 (fun _ => rfl)).2 6
    (by decide) (by decide)).1⟩

end PscDigpid.Hdl.FaultBlock
