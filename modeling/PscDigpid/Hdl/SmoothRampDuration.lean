/- Unit: PscDigpid/Hdl/SmoothRampDuration
   layer: result
   source: src/hw/hdl/smooth_ramp.vhd (RUN_RAMP)
   digest: How many ticks a ramp with a held increment takes. -/

import PscDigpid.Hdl.SmoothRampLaw

set_option autoImplicit false
set_option relaxedAutoImplicit false

namespace PscDigpid.Hdl.SmoothRamp

open PscDigpid.Sync

/-- Half a turn of the phase, from which a ramp starts downward. -/
def halfTurn : Nat := 421657300

/-- Number of ticks of a ramp with increment `inc`. -/
def duration (inc : Nat) : Nat := halfTurn / inc + 3

/-- No reset between clock `a` and clock `t`. -/
def Undisturbed (inp : Nat → Ports) (a t : Nat) : Prop :=
  ∀ u, a < u → u < t → (inp u).reset = false

/-- Number of ticks after clock `a` and before clock `t`. -/
def elapsed (inp : Nat → Ports) (a t : Nat) : Nat :=
  ticksBefore (ticks inp) t - ticksBefore (ticks inp) (a + 1)

/-- The ramp that leaves IDLE at clock `a` stays in RUN_RAMP for just `d` ticks, and no
increment takes its phase beyond 32 bits. -/
structure Lasts (s : Regs) (inp : Nat → Ports) (a d : Nat) : Prop where
  during : ∀ t, a < t → Undisturbed inp a t → elapsed inp a t < d →
    (run step s inp t).state = .runRamp
  ends : ∀ t, a < t → Undisturbed inp a (t + 1) → elapsed inp a t < d →
    elapsed inp a (t + 1) = d → (run step s inp (t + 1)).state = .idle
  fits : ∀ t, a < t → Undisturbed inp a t → elapsed inp a t < d →
    ((run step s inp t).phase + (inp t).phaseInc).toInt =
      (run step s inp t).phase.toInt + (inp t).phaseInc.toInt

/-- A ramp after `n` ticks: its phase has gone up by as many increments, until it is past
zero, and then marks the last point. -/
structure Sweep (inc n : Nat) (s : Regs) : Prop where
  state : s.state = .runRamp
  phase : n ≤ halfTurn / inc + 1 → s.phase.toInt = (n * inc : Nat) - (halfTurn : Int)
  rest : halfTurn / inc + 1 < n → s.phase = 0
  mark : s.lastPoint = decide (n = halfTurn / inc + 2)

section Step

variable {inc n : Nat} {s : Regs} {i : Ports}

/-- The phase is past zero only after the increments that a half turn has, and one more. -/
theorem past_iff (positive : 0 < inc) : halfTurn < n * inc ↔ halfTurn / inc < n :=
  (Nat.div_lt_iff_lt_mul positive).symm

theorem past_below (le : n ≤ halfTurn / inc + 1) :
    n * inc ≤ halfTurn + inc := by
  have parts := Nat.div_mul_le_self halfTurn inc
  calc n * inc ≤ (halfTurn / inc + 1) * inc := Nat.mul_le_mul_right inc le
    _ = halfTurn / inc * inc + inc := Nat.succ_mul _ _
    _ ≤ halfTurn + inc := by omega

theorem sweep_start (idle : s.state = .idle) (leaves : (step s i).state = .runRamp) :
    Sweep inc 0 (step s i) := by
  have running : i.reset = false := by
    by_contra reset
    rw [Bool.not_eq_false] at reset
    rw [step, if_pos reset] at leaves
    exact State.noConfusion leaves
  rw [idle_leaves running idle leaves]
  refine ⟨rfl, ?_, ?_, ?_⟩
  · intro _
    rw [Nat.zero_mul]
    exact (by decide : negPi.toInt = ((0 : Nat) : Int) - (halfTurn : Int))
  · intro past
    exact absurd past (Nat.not_lt_zero _)
  · exact (decide_eq_false (Nat.succ_ne_zero _).symm).symm

/-- The sum of phase and increment fits its register. -/
theorem Sweep.fits (sweep : Sweep inc n s) (positive : 0 < inc) (le : inc ≤ halfTurn)
    (held : i.phaseInc = BitVec.ofNat 32 inc) :
    (s.phase + i.phaseInc).toInt = s.phase.toInt + i.phaseInc.toInt ∧
      i.phaseInc.toInt = inc := by
  have half : halfTurn = 421657300 := rfl
  have value : i.phaseInc.toInt = inc := by
    rw [held]
    exact toInt_exact (BitVec.toInt_ofNat' inc) (by omega) (by omega)
  refine ⟨?_, value⟩
  apply toInt_exact (BitVec.toInt_add _ _)
  · rw [value]
    by_cases early : n ≤ halfTurn / inc + 1
    · rw [sweep.phase early]
      omega
    · rw [sweep.rest (Nat.not_le.1 early), show (0 : BitVec 32).toInt = 0 from rfl]
      omega
  · rw [value]
    by_cases early : n ≤ halfTurn / inc + 1
    · have below := past_below early
      rw [sweep.phase early]
      omega
    · rw [sweep.rest (Nat.not_le.1 early), show (0 : BitVec 32).toInt = 0 from rfl]
      omega

/-- A tick before the last takes the ramp one place further. -/
theorem Sweep.tick (sweep : Sweep inc n s) (positive : 0 < inc) (le : inc ≤ halfTurn)
    (held : i.phaseInc = BitVec.ofNat 32 inc) (early : n < halfTurn / inc + 2) :
    Sweep inc (n + 1) (rampTick s i) := by
  obtain ⟨sum, value⟩ := sweep.fits positive le held
  have unmarked : s.lastPoint = false := by
    rw [sweep.mark, decide_eq_false_iff_not]
    omega
  have here := sweep.phase (Nat.le_of_lt_succ early)
  have law := @past_iff inc n positive
  by_cases past : 0 < s.phase.toInt
  · have beyond : halfTurn / inc < n := by
      rw [← law]
      omega
    have place : n = halfTurn / inc + 1 := by omega
    refine ⟨?_, ?_, ?_, ?_⟩
    · simp [rampTick, unmarked]
    · intro within
      omega
    · intro _
      simp [rampTick, past]
    · simp [rampTick, past, place]
  · have under : n ≤ halfTurn / inc := by
      rw [← Nat.not_lt, ← law]
      omega
    refine ⟨?_, ?_, ?_, ?_⟩
    · simp [rampTick, unmarked]
    · intro _
      simp only [rampTick, if_neg past]
      rw [sum, here, value, Nat.succ_mul]
      push_cast
      ring
    · intro beyond
      omega
    · simp only [rampTick, unmarked, past, decide_false, Bool.or_self]
      exact (decide_eq_false (by omega)).symm

/-- The tick after the last point was marked ends the ramp. -/
theorem Sweep.last (sweep : Sweep inc n s) (marked : n = halfTurn / inc + 2) :
    (rampTick s i).state = .idle := by
  have mark : s.lastPoint = true := by
    rw [sweep.mark, decide_eq_true_iff]
    exact marked
  simp [rampTick, mark]

end Step

section Runs

variable {s : Regs} {inp : Nat → Ports} {a t inc : Nat}

theorem elapsed_start (inp : Nat → Ports) (a : Nat) : elapsed inp a (a + 1) = 0 :=
  Nat.sub_self _

theorem elapsed_tick (after : a < t) (fires : (inp t).tenkhzTrig = true) :
    elapsed inp a (t + 1) = elapsed inp a t + 1 := by
  have from_start := ticksBefore_mono (ticks inp) (Nat.succ_le_of_lt after)
  rw [elapsed, elapsed, ticksBefore_tick (show ticks inp t = true from fires)]
  exact Nat.sub_add_comm from_start

theorem elapsed_wait (waits : (inp t).tenkhzTrig = false) :
    elapsed inp a (t + 1) = elapsed inp a t := by
  rw [elapsed, elapsed, ticksBefore_idle (show ticks inp t = false from waits)]

theorem elapsed_mono (inp : Nat → Ports) (a t : Nat) : elapsed inp a t ≤ elapsed inp a (t + 1) :=
  Nat.sub_le_sub_right (ticksBefore_mono _ (Nat.le_succ t)) _

/-- A ramp is where the count of its ticks puts it, whatever the setpoints do. -/
theorem sweep_run (leaves : Leaves s inp a) (positive : 0 < inc) (le : inc ≤ halfTurn)
    (held : ∀ t, a < t → (inp t).phaseInc = BitVec.ofNat 32 inc) (after : a < t)
    (undisturbed : Undisturbed inp a t) (early : elapsed inp a t < duration inc) :
    Sweep inc (elapsed inp a t) (run step s inp t) := by
  induction t, Nat.succ_le_of_lt after using Nat.le_induction with
  | base =>
      rw [Nat.succ_eq_add_one, elapsed_start]
      exact sweep_start leaves.1 leaves.2
  | succ t from_a ih =>
      have grows := elapsed_mono inp a t
      have sweep := ih from_a (fun u low high => undisturbed u low (Nat.lt_succ_of_lt high))
        (Nat.lt_of_le_of_lt grows early)
      have running := undisturbed t from_a (Nat.lt_succ_self t)
      rw [run_succ]
      cases fires : (inp t).tenkhzTrig with
      | false =>
          rw [elapsed_wait fires, step_wait running sweep.state fires]
          exact sweep
      | true =>
          rw [elapsed_tick from_a fires] at early ⊢
          rw [step_tick running sweep.state fires]
          exact sweep.tick positive le (held t from_a) (by unfold duration at early; omega)

theorem lasts_duration (leaves : Leaves s inp a) (positive : 0 < inc) (le : inc ≤ halfTurn)
    (held : ∀ t, a < t → (inp t).phaseInc = BitVec.ofNat 32 inc) :
    Lasts s inp a (duration inc) := by
  refine ⟨?_, ?_, ?_⟩
  · intro t after undisturbed early
    exact (sweep_run leaves positive le held after undisturbed early).state
  · intro t after undisturbed early last
    have sweep := sweep_run leaves positive le held after
      (fun u low high => undisturbed u low (Nat.lt_succ_of_lt high)) early
    cases fires : (inp t).tenkhzTrig with
    | false =>
        rw [elapsed_wait fires] at last
        exact absurd early (by omega)
    | true =>
        rw [elapsed_tick after fires, duration] at last
        rw [run_succ, step_tick (undisturbed t after (Nat.lt_succ_self t)) sweep.state fires]
        exact sweep.last (by omega)
  · intro t after undisturbed early
    exact ((sweep_run leaves positive le held after undisturbed early).fits positive le
      (held t after)).1

/-- A ramp of `n` samples takes at least three ticks more, and exactly as many as its rounded
increment needs, whatever the setpoints do. -/
theorem ramp_duration {n : Nat} (one : 1 ≤ n) (most : n ≤ 421657300) (leaves : Leaves s inp a)
    (held : ∀ t, a < t → (inp t).phaseInc = BitVec.ofNat 32 (421657300 / n)) :
    Lasts s inp a (421657300 / (421657300 / n) + 3) ∧
      n + 3 ≤ 421657300 / (421657300 / n) + 3 := by
  have positive : 0 < 421657300 / n := Nat.div_pos most one
  refine ⟨lasts_duration leaves positive (Nat.div_le_self _ _) held, ?_⟩
  have parts : n ≤ 421657300 / (421657300 / n) := by
    rw [Nat.le_div_iff_mul_le positive]
    exact Nat.mul_div_le 421657300 n
  omega

end Runs

/-- A changed setpoint at clock 0, and again at every clock, with a tick at each. -/
def restless (inc : BitVec 32) (t : Nat) : Ports where
  reset := false
  tenkhzTrig := true
  curSetpt := 0
  newSetpt := BitVec.ofNat 20 (t + 1)
  phaseInc := inc
  cordicDout := 0

theorem ten_samples : Lasts powerUp (restless 42165730) 0 13 ∧ 10 + 3 ≤ 13 :=
  @ramp_duration powerUp (restless 42165730) 0 10 (by decide) (by decide) ⟨rfl, by decide⟩
    fun _ _ => rfl

end PscDigpid.Hdl.SmoothRamp
