/- Unit: PscDigpid/Hdl/SmoothDeferral
   layer: result
   source: src/hw/hdl/smooth_ramp.vhd (smooth_ramp process)
   digest: What setpoints written during the first ramp after a reset do to it. -/

import PscDigpid.Hdl.SmoothRampDuration
import PscDigpid.Hdl.SmoothRampEnd

set_option autoImplicit false
set_option relaxedAutoImplicit false

namespace PscDigpid.Hdl.SmoothRamp

open PscDigpid.Sync

/-- `x` lies on the way from `old` to `new`. -/
def Between (old new x : Int) : Prop := Toward old new old x ∧ Toward old new x new

instance (old new x : Int) : Decidable (Between old new x) := by
  unfold Between Toward
  infer_instance

/-- The outputs that are settled already, the present one first. -/
def queue (s : Regs) : Nat → BitVec 20
  | 0 => s.rampout
  | 1 => narrow s.rampoutFp
  | _ + 2 => narrow (placed s.oldSetpt s.rampoutWdiff)

/-- What a tick adds to the start value, three ticks before it comes out: the part of the way
to the setpoint register, whatever it holds then, that the cosine asks for. -/
def part (s : Regs) (i : Ports) : Int :=
  (i.newSetpt.toInt - s.oldSetpt.toInt) * s.raisedCos.toInt / 1048576

section Ramps

variable (s : Regs) (inp : Nat → Ports) (a : Nat)

/-- The state comes from a reset and the ramp that leaves IDLE at clock `a` is the first. -/
structure FirstRamp : Prop where
  reset : ∃ before i, i.reset = true ∧ s = step before i
  running : ∀ t, (inp t).reset = false
  waits : ∀ u, u ≤ a → (run step s inp u).state = .idle
  leaves : Leaves s inp a

/-- At each tick of the ramp the core shows a number between minus one and one. -/
def Bounded : Prop :=
  ∀ u, InRamp s inp a u → (inp u).tenkhzTrig = true →
    -1048576 ≤ (cos (inp u)).toInt ∧ (cos (inp u)).toInt ≤ 1048576

/-- Until it returns to IDLE the ramp stays between its start and the target it has left for,
and when it returns and the setpoint is another a ramp to that leaves at once. -/
structure Deferred : Prop where
  between : ∀ t, InRamp s inp a t →
    Between (inp a).curSetpt.toInt (inp a).newSetpt.toInt (run step s inp t).rampout.toInt
  follows : ∀ b, InRamp s inp a b → (run step s inp b).state = .idle →
    (inp b).newSetpt ≠ (inp a).newSetpt →
    Leaves s inp b ∧ (run step s inp (b + 1)).newSetptPrev = (inp b).newSetpt

/-- Zero is between start and target, and no tick whose part still comes out in the ramp adds
one that leads back or beyond the target. -/
def Harmless : Prop :=
  Between (inp a).curSetpt.toInt (inp a).newSetpt.toInt 0 ∧
  ∀ u, InRamp s inp a u → (run step s inp u).state = .runRamp → (inp u).tenkhzTrig = true →
    (∃ t, InRamp s inp a t ∧ elapsed inp a t = elapsed inp a u + 3) →
    Between (inp a).curSetpt.toInt (inp a).newSetpt.toInt
      ((inp a).curSetpt.toInt + part (run step s inp u) (inp u))

/-- Where the output of the `n`th tick comes from. -/
def Origin (n : Nat) (x : BitVec 20) : Prop :=
  (n ≤ 1 ∧ x = 0) ∨ (n = 2 ∧ x = (inp a).curSetpt) ∨
    ∃ u, InRamp s inp a u ∧ (run step s inp u).state = .runRamp ∧ (inp u).tenkhzTrig = true ∧
      elapsed inp a u + 3 = n ∧
      x.toInt = (inp a).curSetpt.toInt + part (run step s inp u) (inp u)

end Ramps

section Step

variable {s : Regs} {i : Ports}

theorem between_start (old new : Int) : Between old new old :=
  ⟨Toward.refl _ _ _, fun up => up, fun down => down⟩

theorem narrow_placed_zero (old : BitVec 20) : narrow (placed old 0) = old := by
  apply BitVec.eq_of_getLsbD_eq
  intro k inside
  simp only [narrow, placed, BitVec.extractLsb'_zero, BitVec.ofNat_eq_ofNat, BitVec.add_zero,
    BitVec.getLsbD_extractLsb', Nat.zero_add, BitVec.getLsbD_signExtend, inside, if_true,
    decide_true, Bool.true_and]
  rw [decide_eq_true (by omega), Bool.true_and]

/-- Parts between zero and one of the way are exact. -/
theorem toInt_part (low : 0 ≤ s.raisedCos.toInt) (high : s.raisedCos.toInt ≤ 1048576) :
    (narrow (placed s.oldSetpt (scaled s.oldSetpt i.newSetpt s.raisedCos))).toInt =
      s.oldSetpt.toInt + part s i := by
  have bounds := toInt_bounds s.oldSetpt
  have bounds' := toInt_bounds i.newSetpt
  have between := along_between s.oldSetpt.toInt i.newSetpt.toInt low high (by omega)
  rw [toInt_narrow_placed]
  unfold Toward along at between
  unfold part
  exact Int.bmod_eq_of_le (by omega) (by omega)

/-- A tick brings every settled output one place closer. -/
theorem queue_tick (s : Regs) (i : Ports) {j : Nat} (inside : j < 2) :
    queue (rampTick s i) j = queue s (j + 1) := by
  match j, inside with
  | 0, _ | 1, _ => rfl

/-- A part of the way to a setpoint between start and target is between them. -/
theorem between_part {old new : Int} (start : s.oldSetpt.toInt = old)
    (low : 0 ≤ s.raisedCos.toInt) (high : s.raisedCos.toInt ≤ 1048576)
    (inside : Between old new i.newSetpt.toInt) : Between old new (old + part s i) := by
  subst start
  have way := along_between s.oldSetpt.toInt i.newSetpt.toInt low high (by omega)
  unfold Between Toward at *
  unfold along at way
  unfold part
  omega

end Step

section Runs

variable {s : Regs} {inp : Nat → Ports} {a t : Nat}

/-- The pipeline is still as the reset has left it when the first ramp leaves. -/
theorem FirstRamp.pipeline (first : FirstRamp s inp a) :
    (run step s inp a).rampout = 0 ∧ (run step s inp a).rampoutFp = 0 ∧
      (run step s inp a).rampoutWdiff = 0 ∧ (run step s inp a).raisedCos = 0 := by
  obtain ⟨before, i, reset, start⟩ := first.reset
  refine stretch_induction (P := fun t => (run step s inp t).rampout = 0 ∧
    (run step s inp t).rampoutFp = 0 ∧ (run step s inp t).rampoutWdiff = 0 ∧
    (run step s inp t).raisedCos = 0) (Nat.zero_le a) ?_ ?_
  · rw [run_zero, start, step, if_pos reset]
    exact ⟨rfl, rfl, rfl, rfl⟩
  · intro u _ early kept
    rw [run_succ, step_idle (first.running u) (first.waits u (Nat.le_of_lt early)), idleClock]
    split <;> exact kept

/-- The state in which the first ramp leaves. -/
theorem FirstRamp.start (first : FirstRamp s inp a) :
    (run step s inp (a + 1)).oldSetpt = (inp a).curSetpt ∧
    (run step s inp (a + 1)).newSetptPrev = (inp a).newSetpt ∧
    (run step s inp (a + 1)).rampout = 0 ∧ (run step s inp (a + 1)).rampoutFp = 0 ∧
    (run step s inp (a + 1)).rampoutWdiff = 0 ∧ (run step s inp (a + 1)).raisedCos = 0 := by
  rw [run_succ, idle_leaves (first.running a) first.leaves.1 first.leaves.2]
  exact ⟨rfl, rfl, first.pipeline⟩

/-- During a ramp its start and the target it has left for are kept, and the raised cosine is
between zero and one. -/
theorem FirstRamp.kept (first : FirstRamp s inp a) (bounded : Bounded s inp a)
    (inRamp : InRamp s inp a t) :
    (run step s inp t).oldSetpt = (inp a).curSetpt ∧
    (run step s inp t).newSetptPrev = (inp a).newSetpt ∧
    0 ≤ (run step s inp t).raisedCos.toInt ∧ (run step s inp t).raisedCos.toInt ≤ 1048576 := by
  obtain ⟨old, prev, -, -, -, raised⟩ := first.start
  refine ramp_induction (P := fun t => (run step s inp t).oldSetpt = (inp a).curSetpt ∧
    (run step s inp t).newSetptPrev = (inp a).newSetpt ∧
    0 ≤ (run step s inp t).raisedCos.toInt ∧ (run step s inp t).raisedCos.toInt ≤ 1048576)
    first.running ?_ ?_ ?_ inRamp
  · refine ⟨old, prev, ?_⟩
    rw [raised]
    decide
  · intro u _ holds _ same
    rw [same]
    exact holds
  · intro u here holds fires _ ticked
    obtain ⟨low, high⟩ := bounded u here fires
    have value : (rampTick (run step s inp u) (inp u)).raisedCos.toInt =
        ((cos (inp u)).toInt + 1048576) / 2 := toInt_raise low high
    rw [ticked, value]
    exact ⟨holds.1, holds.2.1, by omega, by omega⟩

/-- Every settled output has come from the reset, from the start value or from a tick. -/
theorem FirstRamp.origin (first : FirstRamp s inp a) (bounded : Bounded s inp a)
    (inRamp : InRamp s inp a t) : ∀ j, j ≤ 2 →
      Origin s inp a (elapsed inp a t + j) (queue (run step s inp t) j) := by
  refine ramp_induction (P := fun t => ∀ j, j ≤ 2 →
    Origin s inp a (elapsed inp a t + j) (queue (run step s inp t) j)) first.running ?_ ?_ ?_
    inRamp
  · obtain ⟨old, -, out, fp, wdiff, -⟩ := first.start
    intro j le
    rw [elapsed_start, Nat.zero_add]
    match j, le with
    | 0, _ => exact .inl ⟨by omega, out⟩
    | 1, _ => exact .inl ⟨by omega, by rw [queue, fp]; rfl⟩
    | 2, _ =>
        refine .inr (.inl ⟨rfl, ?_⟩)
        rw [queue, wdiff, old]
        exact narrow_placed_zero _
  · intro u _ origin waits same j le
    rw [elapsed_wait waits, same]
    exact origin j le
  · intro u here origin fires state ticked j le
    rw [elapsed_tick here.1 fires, ticked]
    rcases Nat.lt_or_eq_of_le le with inside | rfl
    · rw [queue_tick _ _ inside, show elapsed inp a u + 1 + j = elapsed inp a u + (j + 1) by omega]
      exact origin (j + 1) (by omega)
    · obtain ⟨old, -, low, high⟩ := first.kept bounded here
      refine .inr (.inr ⟨u, here, state, fires, rfl, ?_⟩)
      have value := @toInt_part _ (inp u) low high
      rw [old] at value
      rw [queue, ← value, ← old]
      rfl

/-- Ticks are told apart by their count. -/
theorem tick_unique {u v : Nat} (after : a < u) (after' : a < v)
    (fires : (inp u).tenkhzTrig = true) (fires' : (inp v).tenkhzTrig = true)
    (same : elapsed inp a u = elapsed inp a v) : u = v := by
  have mono {x y : Nat} (le : x ≤ y) : elapsed inp a x ≤ elapsed inp a y :=
    Nat.sub_le_sub_right (ticksBefore_mono _ le) _
  rcases Nat.lt_trichotomy u v with less | equal | more
  · have later := mono (Nat.succ_le_of_lt less)
    rw [Nat.succ_eq_add_one, elapsed_tick after fires] at later
    omega
  · exact equal
  · have later := mono (Nat.succ_le_of_lt more)
    rw [Nat.succ_eq_add_one, elapsed_tick after' fires'] at later
    omega

/-- When the ramp returns and the setpoint is not its target, the next ramp leaves. -/
theorem FirstRamp.follows (first : FirstRamp s inp a) (bounded : Bounded s inp a) {b : Nat}
    (inRamp : InRamp s inp a b) (idle : (run step s inp b).state = .idle)
    (changed : (inp b).newSetpt ≠ (inp a).newSetpt) :
    Leaves s inp b ∧ (run step s inp (b + 1)).newSetptPrev = (inp b).newSetpt := by
  have prev := (first.kept bounded inRamp).2.1
  have next : run step s inp (b + 1) = idleClock (run step s inp b) (inp b) := by
    rw [run_succ, step_idle (first.running b) idle]
  have apart : (run step s inp b).newSetptPrev ≠ (inp b).newSetpt := by
    rw [prev]
    exact changed.symm
  rw [idleClock, if_pos apart] at next
  refine ⟨⟨idle, ?_⟩, ?_⟩
  · rw [next]
  · rw [next]

/-- Setpoints written during the first ramp after a reset are deferred exactly when none of
the ramp's ticks adds a part that leads back or beyond its target. -/
theorem deferred_iff_harmless (first : FirstRamp s inp a) (bounded : Bounded s inp a) :
    Deferred s inp a ↔ Harmless s inp a := by
  have out {t : Nat} (inRamp : InRamp s inp a t) :
      Origin s inp a (elapsed inp a t) (run step s inp t).rampout :=
    first.origin bounded inRamp 0 (by omega)
  constructor
  · intro deferred
    refine ⟨?_, ?_⟩
    · have begun : InRamp s inp a (a + 1) :=
        ⟨Nat.lt_succ_self a, fun u low high => absurd high (by omega)⟩
      have zero := deferred.between (a + 1) begun
      rw [first.start.2.2.1] at zero
      exact zero
    · rintro u here state fires ⟨t, there, later⟩
      have between := deferred.between t there
      rcases out there with ⟨early, -⟩ | ⟨two, -⟩ | ⟨v, here', -, fires', count, value⟩
      · omega
      · omega
      · obtain rfl := tick_unique here.1 here'.1 fires fires' (by omega)
        rw [value] at between
        exact between
  · rintro ⟨zero, parts⟩
    refine ⟨?_, fun b inRamp idle changed => first.follows bounded inRamp idle changed⟩
    intro t inRamp
    rcases out inRamp with ⟨-, value⟩ | ⟨-, value⟩ | ⟨u, here, state, fires, count, value⟩
    · rw [value]
      exact zero
    · rw [value]
      exact between_start _ _
    · rw [value]
      exact parts u here state fires ⟨t, inRamp, count.symm⟩

/-- Setpoints between start and target do no harm. -/
theorem harmless_of_between (first : FirstRamp s inp a) (bounded : Bounded s inp a)
    (zero : Between (inp a).curSetpt.toInt (inp a).newSetpt.toInt 0)
    (inside : ∀ u, (inp u).tenkhzTrig = true →
      Between (inp a).curSetpt.toInt (inp a).newSetpt.toInt (inp u).newSetpt.toInt) :
    Harmless s inp a := by
  refine ⟨zero, ?_⟩
  intro u here _ fires _
  obtain ⟨old, -, low, high⟩ := first.kept bounded here
  exact between_part (congrArg BitVec.toInt old) low high (inside u fires)

end Runs

/-- A tick at every clock and a ramp of ten samples to 1000, during which the setpoint is
written again. -/
def written (later : BitVec 20) (t : Nat) : Ports where
  reset := false
  tenkhzTrig := true
  curSetpt := 0
  newSetpt := if t < 5 then 1000 else later
  phaseInc := 42165730
  cordicDout := 0

/-- What the ramp generator sees of them in the loop after a reset. -/
def writtenInp (later : BitVec 20) : Nat → Ports := Loop.driven straight afterReset (written later)

private theorem written_looped (later : BitVec 20) (t : Nat) :
    run step afterReset.ramp (writtenInp later) t =
      (run (Loop.step straight) afterReset (written later) t).ramp :=
  (Loop.ramp_run t).symm

/-- A ramp that is back in IDLE at a clock is over by then. -/
theorem InRamp.le_return {s : Regs} {inp : Nat → Ports} {a b t : Nat} (inRamp : InRamp s inp a t)
    (after : a < b) (idle : (run step s inp b).state = .idle) : t ≤ b := by
  by_contra late
  have state := inRamp.2 b after (by omega)
  rw [idle] at state
  exact absurd state (by decide)

private theorem written_first {later : BitVec 20}
    (leaves : (run (Loop.step straight) afterReset (written later) 1).ramp.state = .runRamp) :
    FirstRamp afterReset.ramp (writtenInp later) 0 where
  reset := ⟨afterReset.ramp, ⟨true, false, 0, 0, 0, 0⟩, rfl, rfl⟩
  running := fun _ => rfl
  waits := by
    intro u le
    obtain rfl := Nat.le_zero.1 le
    rfl
  leaves := ⟨rfl, by rw [written_looped]; exact leaves⟩

private theorem written_bounded {later : BitVec 20}
    (idle : (run (Loop.step straight) afterReset (written later) 14).ramp.state = .idle)
    (bounds : ∀ u, u < 15 → -1048576 ≤ (cos (writtenInp later u)).toInt ∧
      (cos (writtenInp later u)).toInt ≤ 1048576) :
    Bounded afterReset.ramp (writtenInp later) 0 := by
  intro u inRamp _
  rw [← written_looped] at idle
  exact bounds u (Nat.lt_succ_of_le (inRamp.le_return (by decide) idle))

/-- A second setpoint of 600 is deferred. -/
theorem between_setpoint_deferred : Deferred afterReset.ramp (writtenInp 600) 0 := by
  have first := @written_first 600 (by decide +kernel)
  have bounded := @written_bounded 600 (by decide +kernel) (by decide +kernel)
  refine (deferred_iff_harmless first bounded).2 (harmless_of_between first bounded ?_ ?_)
  · decide
  · intro u _
    change Between (0 : BitVec 20).toInt (1000 : BitVec 20).toInt
      (if u < 5 then (1000 : BitVec 20) else 600).toInt
    split <;> decide

/-- One of 400000 takes the first ramp beyond its target. -/
theorem far_setpoint_overtakes : ¬ ∀ cosine s inp a, IdealCosine cosine → Answers cosine s inp →
    FirstRamp s inp a → Bounded s inp a → (∀ t, 0 < (inp t).phaseInc.toInt) →
    Deferred s inp a := by
  intro defers
  have first := @written_first 400000 (by decide +kernel)
  have bounded := @written_bounded 400000 (by decide +kernel) (by decide +kernel)
  have deferred := defers straight _ _ 0 straight_ideal Loop.answers first bounded
    fun _ => show 0 < (42165730#32).toInt by decide
  have inRamp : InRamp afterReset.ramp (writtenInp 400000) 0 12 := by
    refine ⟨by decide, ?_⟩
    intro u low high
    have all : ∀ u, u < 12 → 0 < u →
        (run (Loop.step straight) afterReset (written 400000) u).ramp.state = .runRamp := by
      decide +kernel
    rw [written_looped]
    exact all u high low
  have beyond := (deferred.between 12 inRamp).2.1 (by decide)
  rw [← writtenInp, written_looped] at beyond
  exact absurd beyond (by decide +kernel)

end PscDigpid.Hdl.SmoothRamp
