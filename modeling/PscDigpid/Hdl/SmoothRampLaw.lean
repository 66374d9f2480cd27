/- Unit: PscDigpid/Hdl/SmoothRampLaw
   layer: result
   source: src/hw/hdl/smooth_ramp.vhd (smooth_ramp process, cordic_sine instance)
   digest: A ramp goes steadily from its start to its target when its pipeline starts flushed. -/

import PscDigpid.Hdl.SmoothRamp
import PscDigpid.Sync.Ticks

set_option autoImplicit false
set_option relaxedAutoImplicit false

namespace PscDigpid.Hdl.SmoothRamp

open PscDigpid.Sync

/-- The cosine the core computes: from minus one at the start phase up to one at zero. -/
structure IdealCosine (cosine : BitVec 24 → BitVec 24) : Prop where
  low : (cosine (phaseTop negPi)).toInt = -1048576
  high : (cosine 0).toInt = 1048576
  monotone : ∀ p q, (phaseTop negPi).toInt ≤ p.toInt → p.toInt ≤ q.toInt → q.toInt ≤ 0 →
    (cosine p).toInt ≤ (cosine q).toInt

def ticks (inp : Nat → Ports) (t : Nat) : Bool := (inp t).tenkhzTrig

/-- `shown` is on the core's output at the next tick from clock `t`. -/
def Shows (inp : Nat → Ports) (t : Nat) (shown : BitVec 24) : Prop :=
  ∀ u, NextTick (ticks inp) t u → cos (inp u) = shown

/-- At each tick the core takes in the phase and has its cosine out by the next tick. -/
def Answers (cosine : BitVec 24 → BitVec 24) (s : Regs) (inp : Nat → Ports) : Prop :=
  ∀ t, (inp t).tenkhzTrig = true → Shows inp (t + 1) (cosine (run step s inp t).phaseOut)

section Ramps

variable (s : Regs) (inp : Nat → Ports) (a : Nat)

/-- A ramp leaves IDLE at clock `a`. -/
def Leaves : Prop := (run step s inp a).state = .idle ∧ (run step s inp (a + 1)).state = .runRamp

/-- Clock `t` is in the ramp that left IDLE at clock `a`, or is its return to IDLE. -/
def InRamp (t : Nat) : Prop := a < t ∧ ∀ u, a < u → u < t → (run step s inp u).state = .runRamp

/-- From leaving IDLE until the return to IDLE the output goes steadily from the start
value to the target and never beyond either. -/
def RampLaw : Prop :=
  let way := Toward (inp a).curSetpt.toInt (inp a).newSetpt.toInt
  let out t := (run step s inp t).rampout.toInt
  (∀ t, InRamp s inp a t →
    way (inp a).curSetpt.toInt (out t) ∧ way (out t) (inp a).newSetpt.toInt) ∧
  ∀ t u, InRamp s inp a t → InRamp s inp a u → t ≤ u → way (out t) (out u)

end Ramps

/-- What a ramp finds in the pipeline would output its own start value. -/
structure Flushed (old new : BitVec 20) (shown : BitVec 24) (s : Regs) : Prop where
  rampout : s.rampout = old
  rampoutFp : narrow s.rampoutFp = old
  rampoutWdiff : narrow (placed old s.rampoutWdiff) = old
  raisedCos : narrow (placed old (scaled old new s.raisedCos)) = old
  cos : output old new shown = old

theorem flushed_iff {old new : BitVec 20} {shown : BitVec 24} {s : Regs} (taken : BitVec 24) :
    Flushed old new shown s ↔ ∀ k, k < 5 → pending old new shown taken s k = old := by
  constructor
  · intro flushed k early
    match k, early with
    | 0, _ => exact flushed.rampout
    | 1, _ => exact flushed.rampoutFp
    | 2, _ => exact flushed.rampoutWdiff
    | 3, _ => exact flushed.raisedCos
    | 4, _ => exact flushed.cos
  · intro all
    exact ⟨all 0 (by omega), all 1 (by omega), all 2 (by omega), all 3 (by omega),
      all 4 (by omega)⟩

section Ordered

variable {cosine : BitVec 24 → BitVec 24} {old new : BitVec 20}

theorem IdealCosine.bounds (ideal : IdealCosine cosine) {p : BitVec 24}
    (low : (phaseTop negPi).toInt ≤ p.toInt) (high : p.toInt ≤ 0) :
    -1048576 ≤ (cosine p).toInt ∧ (cosine p).toInt ≤ 1048576 := by
  have zero : (0 : BitVec 24).toInt = 0 := rfl
  have first := ideal.monotone _ p (Int.le_refl _) low high
  have last := ideal.monotone p 0 low (by omega) (by omega)
  rw [ideal.low] at first
  rw [ideal.high] at last
  exact ⟨first, last⟩

/-- A later phase puts the output further on the way, up to the target. -/
theorem IdealCosine.output_toward (ideal : IdealCosine cosine) {p q : BitVec 24}
    (low : (phaseTop negPi).toInt ≤ p.toInt) (le : p.toInt ≤ q.toInt) (high : q.toInt ≤ 0) :
    Toward old.toInt new.toInt (output old new (cosine p)).toInt (output old new (cosine q)).toInt ∧
    Toward old.toInt new.toInt (output old new (cosine q)).toInt new.toInt := by
  obtain ⟨lowP, highP⟩ := ideal.bounds low (Int.le_trans le high)
  obtain ⟨lowQ, highQ⟩ := ideal.bounds (Int.le_trans low le) high
  have ordered := ideal.monotone p q low le high
  rw [toInt_output lowP highP, toInt_output lowQ highQ]
  exact ⟨along_toward _ _ (by omega) (by omega),
    (along_between _ _ (by omega) (by omega) (by omega)).2⟩

/-- A ramp under way in good order: what it still outputs goes steadily onward from
its start, and its phase has not run past zero on the core's input. -/
structure Underway (cosine : BitVec 24 → BitVec 24) (old new : BitVec 20) (shown : BitVec 24)
    (s : Regs) : Prop where
  start : s.oldSetpt = old
  onward : Toward old.toInt new.toInt old.toInt s.rampout.toInt
  ordered : ∀ k, k < 5 → Toward old.toInt new.toInt
    (pending old new shown (cosine s.phaseOut) s k).toInt
    (pending old new shown (cosine s.phaseOut) s (k + 1)).toInt
  low : (phaseTop negPi).toInt ≤ s.phaseOut.toInt
  behind : s.phaseOut.toInt ≤ s.phase.toInt / 256
  high : s.phaseOut.toInt ≤ 0

/-- A ramp under way in good order has its output between start and target. -/
theorem Underway.between {shown : BitVec 24} {s : Regs} (ideal : IdealCosine cosine)
    (underway : Underway cosine old new shown s) :
    Toward old.toInt new.toInt s.rampout.toInt new.toInt :=
  have through := Toward.chain (f := fun k =>
    (pending old new shown (cosine s.phaseOut) s k).toInt) (Nat.zero_le 5)
    fun k _ early => underway.ordered k early
  through.trans (ideal.output_toward underway.low (Int.le_refl _) underway.high).2

/-- A tick takes the phase on the core's input forward, and not past zero. -/
theorem phase_tick {s : Regs} {i : Ports} (behind : s.phaseOut.toInt ≤ s.phase.toInt / 256)
    (high : s.phaseOut.toInt ≤ 0) (forward : 0 < i.phaseInc.toInt) :
    s.phaseOut.toInt ≤ (rampTick s i).phaseOut.toInt ∧
    (rampTick s i).phaseOut.toInt ≤ (rampTick s i).phase.toInt / 256 ∧
    (rampTick s i).phaseOut.toInt ≤ 0 := by
  by_cases past : 0 < s.phase.toInt
  · simp only [rampTick, if_pos past]
    exact ⟨Int.le_refl _, high, high⟩
  · have bounds := toInt_bounds s.phase
    have bounds' := toInt_bounds i.phaseInc
    have sum : (s.phase + i.phaseInc).toInt = s.phase.toInt + i.phaseInc.toInt :=
      toInt_exact (BitVec.toInt_add _ _) (by omega) (by omega)
    simp only [rampTick, if_neg past, toInt_phaseTop, sum]
    omega

theorem Underway.tick {shown : BitVec 24} {s : Regs} {i : Ports} (ideal : IdealCosine cosine)
    (underway : Underway cosine old new shown s) (target : i.newSetpt = new)
    (answer : cos i = shown) (forward : 0 < i.phaseInc.toInt) :
    Underway cosine old new (cosine s.phaseOut) (rampTick s i) := by
  obtain ⟨rfl, onward, ordered, low, behind, high⟩ := underway
  obtain ⟨further, behind', high'⟩ := phase_tick behind high forward
  have shift (k : Nat) (early : k < 5) :=
    pending_tick target (cosine s.phaseOut) (cosine (rampTick s i).phaseOut) early (s := s)
  rw [answer] at shift
  refine ⟨rfl, onward.trans (ordered 0 (by omega)), ?_, Int.le_trans low further, behind', high'⟩
  intro k early
  rcases Nat.lt_or_eq_of_le (Nat.le_of_lt_succ early) with inside | rfl
  · have same : pending s.oldSetpt new (cosine s.phaseOut) (cosine (rampTick s i).phaseOut)
        (rampTick s i) (k + 1) = pending s.oldSetpt new shown (cosine s.phaseOut) s (k + 2) :=
      shift (k + 1) (by omega)
    rw [shift k early, same]
    exact ordered (k + 1) (by omega)
  · exact (ideal.output_toward low further high').1

/-- A ramp whose pipeline is flushed leaves IDLE in good order. -/
theorem Flushed.underway {shown : BitVec 24} {s : Regs} (ideal : IdealCosine cosine)
    (flushed : Flushed old new shown s) (start : s.oldSetpt = old) (phase : s.phase = negPi)
    (phaseOut : s.phaseOut = phaseTop negPi) : Underway cosine old new shown s := by
  have all := (flushed_iff (cosine s.phaseOut)).1 flushed
  have first : pending old new shown (cosine s.phaseOut) s 5 = old := by
    have lowest : (cosine s.phaseOut).toInt = -1048576 := by rw [phaseOut, ideal.low]
    exact output_low lowest
  refine ⟨start, ?_, ?_, ?_, ?_, ?_⟩
  · rw [flushed.rampout]
    exact Toward.refl _ _ _
  · intro k early
    have next : pending old new shown (cosine s.phaseOut) s (k + 1) = old := by
      rcases Nat.lt_or_eq_of_le (Nat.succ_le_of_lt early) with inside | last
      · exact all (k + 1) inside
      · rw [show k + 1 = 5 from last, first]
    rw [all k early, next]
    exact Toward.refl _ _ _
  · rw [phaseOut]
  · rw [phaseOut, phase, toInt_phaseTop]
  · rw [phaseOut]
    decide

end Ordered

section Runs

variable {cosine : BitVec 24 → BitVec 24} {s : Regs} {inp : Nat → Ports} {a t : Nat}
  {shown : BitVec 24}

theorem Shows.here (answer : Shows inp t shown) (tick : (inp t).tenkhzTrig = true) :
    cos (inp t) = shown :=
  answer t (nextTick_self tick)

theorem Shows.wait (answer : Shows inp t shown) (wait : (inp t).tenkhzTrig = false) :
    Shows inp (t + 1) shown :=
  fun u next => answer u (next.skip wait)

/-- Induction along a ramp: it starts, waits and takes ticks. -/
theorem ramp_induction {P : Nat → Prop} (running : ∀ t, (inp t).reset = false)
    (start : P (a + 1))
    (wait : ∀ u, InRamp s inp a u → P u → (inp u).tenkhzTrig = false →
      run step s inp (u + 1) = run step s inp u → P (u + 1))
    (tick : ∀ u, InRamp s inp a u → P u → (inp u).tenkhzTrig = true →
      (run step s inp u).state = .runRamp →
      run step s inp (u + 1) = rampTick (run step s inp u) (inp u) → P (u + 1))
    (inRamp : InRamp s inp a t) : P t := by
  obtain ⟨after, ramp⟩ := inRamp
  apply stretch_induction (Nat.succ_le_of_lt after) start
  intro u low high holds
  have state := ramp u (by omega) high
  have here : InRamp s inp a u := ⟨by omega, fun v first last => ramp v first (by omega)⟩
  cases fires : (inp u).tenkhzTrig with
  | false => exact wait u here holds fires (step_wait (running u) state fires)
  | true => exact tick u here holds fires state (step_tick (running u) state fires)

/-- A ramp starts with the current setpoint and the start phase, and with the
product pipeline as the clock before left it. -/
theorem leaves_start (running : ∀ t, (inp t).reset = false) (leaves : Leaves s inp a) :
    (run step s inp (a + 1)).oldSetpt = (inp a).curSetpt ∧
    (run step s inp (a + 1)).phase = negPi ∧
    (run step s inp (a + 1)).phaseOut = phaseTop negPi ∧
    ∀ new shown, Flushed (inp a).curSetpt new shown (run step s inp (a + 1)) ↔
      Flushed (inp a).curSetpt new shown (run step s inp a) := by
  have start := idle_leaves (running a) leaves.1 leaves.2
  rw [run_succ, start]
  exact ⟨rfl, rfl, rfl, fun _ _ => ⟨fun ⟨r, f, w, c, o⟩ => ⟨r, f, w, c, o⟩,
    fun ⟨r, f, w, c, o⟩ => ⟨r, f, w, c, o⟩⟩⟩

/-- The setpoint register holds still during a ramp, and the phase moves forward. -/
def Steady (s : Regs) (inp : Nat → Ports) (a : Nat) : Prop :=
  ∀ t, InRamp s inp a t → (run step s inp t).state = .runRamp →
    (inp t).newSetpt = (inp a).newSetpt ∧ 0 < (inp t).phaseInc.toInt

/-- A ramp that starts flushed is in good order at every clock. -/
theorem underway_run (ideal : IdealCosine cosine) (running : ∀ t, (inp t).reset = false)
    (answers : Answers cosine s inp) (leaves : Leaves s inp a) (steady : Steady s inp a)
    (answer : Shows inp (a + 1) shown)
    (flushed : Flushed (inp a).curSetpt (inp a).newSetpt shown (run step s inp a))
    (inRamp : InRamp s inp a t) :
    ∃ now, Shows inp t now ∧
      Underway cosine (inp a).curSetpt (inp a).newSetpt now (run step s inp t) := by
  refine ramp_induction (P := fun t => ∃ now, Shows inp t now ∧
    Underway cosine (inp a).curSetpt (inp a).newSetpt now (run step s inp t))
    running ?_ ?_ ?_ inRamp
  · obtain ⟨start, phase, phaseOut, same⟩ := leaves_start running leaves
    exact ⟨shown, answer, ((same _ _).2 flushed).underway ideal start phase phaseOut⟩
  · rintro u - ⟨now, showsNow, underway⟩ waits kept
    exact ⟨now, showsNow.wait waits, kept ▸ underway⟩
  · rintro u inRamp ⟨now, showsNow, underway⟩ fires state ticked
    obtain ⟨target, forward⟩ := steady u inRamp state
    refine ⟨_, answers u fires, ?_⟩
    rw [ticked]
    exact underway.tick ideal target (showsNow.here fires) forward

theorem InRamp.earlier {u : Nat} (inRamp : InRamp s inp a t) (after : a < u) (le : u ≤ t) :
    InRamp s inp a u :=
  ⟨after, fun v first last => inRamp.2 v first (by omega)⟩

/-- A ramp that starts flushed keeps the law. -/
theorem law_of_flushed (ideal : IdealCosine cosine) (running : ∀ t, (inp t).reset = false)
    (answers : Answers cosine s inp) (leaves : Leaves s inp a) (steady : Steady s inp a)
    (answer : Shows inp (a + 1) shown)
    (flushed : Flushed (inp a).curSetpt (inp a).newSetpt shown (run step s inp a)) :
    RampLaw s inp a := by
  have good {u : Nat} (inRamp : InRamp s inp a u) :=
    underway_run ideal running answers leaves steady answer flushed inRamp
  constructor
  · intro t inRamp
    obtain ⟨now, -, underway⟩ := good inRamp
    exact ⟨underway.onward, underway.between ideal⟩
  · intro t u first last le
    apply Toward.chain (f := fun k => (run step s inp k).rampout.toInt) le
    intro k low high
    have here := last.earlier (Nat.lt_of_lt_of_le first.1 low) (Nat.le_of_lt high)
    have state := last.2 k here.1 high
    obtain ⟨now, -, underway⟩ := good here
    rw [run_succ]
    cases fires : (inp k).tenkhzTrig with
    | false =>
        rw [step_wait (running k) state fires]
        exact Toward.refl _ _ _
    | true =>
        rw [step_tick (running k) state fires]
        exact underway.ordered 0 (by omega)

/-- Of what was pending at the ramp's start, at clock `t` the first `n` values are out,
one for each tick, and the others come next. -/
def Delivered (cosine : BitVec 24 → BitVec 24) (s : Regs) (inp : Nat → Ports) (a : Nat)
    (shown : BitVec 24) (t : Nat) : Prop :=
  ∃ now n, Shows inp t now ∧
    ticksBefore (ticks inp) t = ticksBefore (ticks inp) (a + 1) + n ∧
    (run step s inp t).oldSetpt = (inp a).curSetpt ∧
    ∀ k, k + n < 6 → pending (inp a).curSetpt (inp a).newSetpt now
        (cosine (run step s inp t).phaseOut) (run step s inp t) k =
      pending (inp a).curSetpt (inp a).newSetpt shown (cosine (phaseTop negPi))
        (run step s inp (a + 1)) (k + n)

/-- During its first five ticks a ramp outputs what it found in the pipeline, and
then its start value. -/
theorem delivered_run (running : ∀ t, (inp t).reset = false) (answers : Answers cosine s inp)
    (leaves : Leaves s inp a) (steady : Steady s inp a) (answer : Shows inp (a + 1) shown)
    (inRamp : InRamp s inp a t) : Delivered cosine s inp a shown t := by
  obtain ⟨start, -, phaseOut, -⟩ := leaves_start running leaves
  refine ramp_induction running ?_ ?_ ?_ inRamp
  · refine ⟨shown, 0, answer, rfl, start, ?_⟩
    intro k _
    rw [phaseOut]
    rfl
  · rintro u - ⟨now, n, showsNow, count, old, same⟩ waits kept
    refine ⟨now, n, showsNow.wait waits, ?_, ?_⟩
    · rw [ticksBefore_idle waits, count]
    · rw [kept]
      exact ⟨old, same⟩
  · rintro u here ⟨now, n, showsNow, count, old, same⟩ fires state ticked
    refine ⟨_, n + 1, answers u fires, ?_, ?_⟩
    · rw [ticksBefore_tick fires, count, Nat.add_assoc]
    · rw [ticked]
      refine ⟨old, ?_⟩
      intro k early
      rw [← old, pending_tick (steady u here state).1 _ _ (by omega), old,
        showsNow.here fires, same (k + 1) (by omega)]
      congr 1
      omega

/-- A ramp of five ticks or more that keeps the law has started flushed. -/
theorem flushed_of_law (ideal : IdealCosine cosine) (running : ∀ t, (inp t).reset = false)
    (answers : Answers cosine s inp) (leaves : Leaves s inp a) (steady : Steady s inp a)
    (answer : Shows inp (a + 1) shown) (inRamp : InRamp s inp a t)
    (five : ticksBefore (ticks inp) (a + 1) + 5 ≤ ticksBefore (ticks inp) t)
    (law : RampLaw s inp a) :
    Flushed (inp a).curSetpt (inp a).newSetpt shown (run step s inp a) := by
  -- after `k` ticks the output is the `k`th of the pending values
  have reach (k : Nat) (early : k < 6) : ∃ u, InRamp s inp a u ∧
      ticksBefore (ticks inp) u = ticksBefore (ticks inp) (a + 1) + k ∧
      (run step s inp u).rampout = pending (inp a).curSetpt (inp a).newSetpt shown
        (cosine (phaseTop negPi)) (run step s inp (a + 1)) k := by
    have low : ticksBefore (ticks inp) (a + 1) ≤ ticksBefore (ticks inp) (a + 1) + k := by omega
    obtain ⟨u, first, last, count⟩ := ticksBefore_reaches inRamp.1 low (by omega)
    have here := inRamp.earlier (by omega) last
    obtain ⟨now, n, -, count', -, same⟩ :=
      delivered_run running answers leaves steady answer here
    obtain rfl : k = n := by omega
    refine ⟨u, here, count, ?_⟩
    have out := same 0 (by omega)
    rw [Nat.zero_add] at out
    exact out
  obtain ⟨-, -, -, start⟩ := leaves_start running leaves
  rw [← start, flushed_iff (cosine (phaseTop negPi))]
  intro k early
  obtain ⟨u, here, count, out⟩ := reach k (by omega)
  obtain ⟨v, there, count', last⟩ := reach 5 (by omega)
  have own : (run step s inp v).rampout = (inp a).curSetpt := last.trans (output_low ideal.low)
  have before : u ≤ v := by
    by_contra after
    have mono := ticksBefore_mono (ticks inp) (Nat.le_of_not_le after)
    omega
  have back : Toward (inp a).curSetpt.toInt (inp a).newSetpt.toInt
      (run step s inp u).rampout.toInt (run step s inp v).rampout.toInt :=
    law.2 u v here there before
  rw [own] at back
  rw [← out]
  exact BitVec.eq_of_toInt_eq (back.antisymm (law.1 u here).1)

/-- A ramp that starts with a flushed pipeline goes steadily from its start value to
its target; a ramp of five ticks or more does so only then. -/
theorem ramp_law_iff_flushed (ideal : IdealCosine cosine) (running : ∀ t, (inp t).reset = false)
    (answers : Answers cosine s inp) (steady : ∀ a, Leaves s inp a → Steady s inp a) :
    ∀ a shown, Leaves s inp a → Shows inp (a + 1) shown →
      (Flushed (inp a).curSetpt (inp a).newSetpt shown (run step s inp a) → RampLaw s inp a) ∧
      ∀ t, InRamp s inp a t →
        ticksBefore (ticks inp) (a + 1) + 5 ≤ ticksBefore (ticks inp) t →
        (RampLaw s inp a ↔
          Flushed (inp a).curSetpt (inp a).newSetpt shown (run step s inp a)) := by
  intro a shown leaves answer
  have enough := law_of_flushed ideal running answers leaves (steady a leaves) answer
  exact ⟨enough, fun t inRamp five =>
    ⟨flushed_of_law ideal running answers leaves (steady a leaves) answer inRamp five, enough⟩⟩

end Runs

/-- The ramp generator and a cosine core that answers each tick one clock later. -/
structure Loop where
  ramp : Regs
  dout : BitVec 48

namespace Loop

def ports (l : Loop) (i : Ports) : Ports := { i with cordicDout := l.dout }

/-- One rising clock edge. -/
def step (cosine : BitVec 24 → BitVec 24) (l : Loop) (i : Ports) : Loop where
  ramp := SmoothRamp.step l.ramp (ports l i)
  dout := if i.tenkhzTrig then (cosine l.ramp.phaseOut).setWidth 48 else l.dout

/-- What the ramp generator sees in the loop. -/
def driven (cosine : BitVec 24 → BitVec 24) (l : Loop) (inp : Nat → Ports) (t : Nat) : Ports :=
  ports (run (step cosine) l inp t) (inp t)

section Runs

variable {cosine : BitVec 24 → BitVec 24} {l : Loop} {inp : Nat → Ports}

theorem ramp_run (t : Nat) : (run (step cosine) l inp t).ramp =
    run SmoothRamp.step l.ramp (driven cosine l inp) t :=
  run_project (fun l : Loop => l.ramp) ports (fun _ => rfl) t

/-- In the loop the core answers every tick in time. -/
theorem answers : Answers cosine l.ramp (driven cosine l inp) := by
  intro t fires u next
  obtain ⟨le, -, between⟩ := next
  have held : (run (step cosine) l inp u).dout =
      (cosine (run (step cosine) l inp t).ramp.phaseOut).setWidth 48 := by
    refine stretch_induction (P := fun u => (run (step cosine) l inp u).dout =
      (cosine (run (step cosine) l inp t).ramp.phaseOut).setWidth 48) le ?_ ?_
    · have tick : (inp t).tenkhzTrig = true := fires
      rw [run_succ, step, tick, if_pos rfl]
    · intro v low high same
      have idle : (inp v).tenkhzTrig = false := between v low high
      rw [run_succ, step, idle, if_neg Bool.false_ne_true, same]
  have shown : (driven cosine l inp u).cordicDout =
      (cosine (run (step cosine) l inp t).ramp.phaseOut).setWidth 48 := held
  rw [cos, shown, ramp_run]
  ext k inside
  simp [inside]
  omega

end Runs

end Loop

/-- A straight line from minus one at the start phase to one at zero. -/
def straight (p : BitVec 24) : BitVec 24 :=
  BitVec.ofInt 24 (1048576 + p.toInt * 2097152 / 1647099)

theorem straight_ideal : IdealCosine straight := by
  have value (p : BitVec 24) (low : -1647099 ≤ p.toInt) (high : p.toInt ≤ 0) :
      (straight p).toInt = 1048576 + p.toInt * 2097152 / 1647099 :=
    toInt_exact (BitVec.toInt_ofInt _) (by omega) (by omega)
  have lowest : (phaseTop negPi).toInt = -1647099 := by decide
  refine ⟨by decide, by decide, ?_⟩
  intro p q low le high
  rw [value p (by omega) (by omega), value q (by omega) (by omega)]
  omega

/-- The state after a reset. -/
def afterReset : Loop where
  ramp :=
    { state := .idle
      phase := negPi
      phaseOut := phaseTop negPi
      raisedCos := 0
      cnt := 0
      rampoutWdiff := 0
      rampoutFp := 0
      rampout := 0
      lastPoint := false
      diffSetpt := 0
      newSetptPrev := 0
      oldSetpt := 0
      smoothActive := false }
  dout := (straight (phaseTop negPi)).setWidth 48

/-- A tick at every clock, and two ramps of five ticks each. -/
def twoSetpoints (t : Nat) : Ports where
  reset := false
  tenkhzTrig := true
  curSetpt := 0
  newSetpt := if t < 6 then 1000 else 2000
  phaseInc := 210828650
  cordicDout := 0

/-- What the ramp generator sees in the loop after a reset. -/
def afterResetInp : Nat → Ports := Loop.driven straight afterReset twoSetpoints

theorem looped (t : Nat) : run step afterReset.ramp afterResetInp t =
    (run (Loop.step straight) afterReset twoSetpoints t).ramp :=
  (Loop.ramp_run t).symm

theorem first_leaves : Leaves afterReset.ramp afterResetInp 0 := by
  rw [Leaves, looped, looped]
  decide +kernel

private theorem second_leaves : Leaves afterReset.ramp afterResetInp 6 := by
  rw [Leaves, looped, looped]
  decide +kernel

private theorem two_ramps {t : Nat} (early : t < 6)
    (leaves : Leaves afterReset.ramp afterResetInp t) : t = 0 := by
  have idle := leaves.1
  rw [looped] at idle
  have all : ∀ t, t < 6 →
      (run (Loop.step straight) afterReset twoSetpoints t).ramp.state = .idle → t = 0 := by
    decide +kernel
  exact all t early idle

theorem setpoints_steady (a : Nat) (leaves : Leaves afterReset.ramp afterResetInp a) :
    Steady afterReset.ramp afterResetInp a := by
  intro t inRamp state
  refine ⟨?_, show 0 < (210828650#32).toInt by decide⟩
  change (if t < 6 then (1000 : BitVec 20) else 2000) = if a < 6 then 1000 else 2000
  by_cases first : a < 6
  · obtain rfl := two_ramps first leaves
    have back : (run step afterReset.ramp afterResetInp 6).state = .idle := by
      rw [looped]
      decide +kernel
    have early : t < 6 := by
      rcases Nat.lt_trichotomy t 6 with before | at_end | after
      · exact before
      · rw [at_end, back] at state
        exact absurd state (by decide)
      · have under := inRamp.2 6 (by omega) after
        rw [back] at under
        exact absurd under (by decide)
    rw [if_pos early, if_pos first]
  · have later : ¬ t < 6 := by
      have after := inRamp.1
      omega
    rw [if_neg later, if_neg first]

/-- The first ramp after the reset keeps the law. -/
theorem first_ramp_steady : RampLaw afterReset.ramp afterResetInp 0 := by
  refine (ramp_law_iff_flushed straight_ideal (fun _ => rfl) Loop.answers setpoints_steady 0
    (cos (afterResetInp 1)) first_leaves ?_).1 ?_
  · rintro u ⟨le, -, between⟩
    rcases Nat.eq_or_lt_of_le le with rfl | later
    · rfl
    · exact absurd (between 1 (Nat.le_refl 1) later) (by decide)
  · exact ⟨by decide, by decide, by decide, by decide, by decide +kernel⟩

/-- The second ramp jumps to its target and back to its start. -/
theorem second_ramp_jumps : IdealCosine straight ∧ Answers straight afterReset.ramp afterResetInp ∧
    (∀ a, Leaves afterReset.ramp afterResetInp a → Steady afterReset.ramp afterResetInp a) ∧
    ¬ ∀ a, Leaves afterReset.ramp afterResetInp a → RampLaw afterReset.ramp afterResetInp a := by
  refine ⟨straight_ideal, Loop.answers, setpoints_steady, ?_⟩
  intro lawful
  have inRamp (t : Nat) (le : t ≤ 12) (after : 6 < t) :
      InRamp afterReset.ramp afterResetInp 6 t := by
    refine ⟨after, ?_⟩
    intro u low high
    have all : ∀ u, u < 12 → 6 < u →
        (run (Loop.step straight) afterReset twoSetpoints u).ramp.state = .runRamp := by
      decide +kernel
    rw [looped]
    exact all u (by omega) low
  have order := (lawful 6 second_leaves).2 10 12 (inRamp 10 (by omega) (by omega))
    (inRamp 12 (by omega) (by omega)) (by omega)
  have jumped : (run step afterReset.ramp afterResetInp 10).rampout = 2000 := by
    rw [looped]
    decide +kernel
  have fallen : (run step afterReset.ramp afterResetInp 12).rampout = 0 := by
    rw [looped]
    decide +kernel
  have wrong := order.1 (by decide)
  simp only [jumped, fallen] at wrong
  exact absurd wrong (by decide)

end PscDigpid.Hdl.SmoothRamp
