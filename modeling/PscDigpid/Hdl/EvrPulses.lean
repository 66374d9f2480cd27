/- Unit: PscDigpid/Hdl/EvrPulses
   layer: result
   source: src/hw/hdl/evr_top.vhd (tbt_trig_stretch), src/hw/hdl/stretch.vhd
   digest: The turn-by-turn trigger and the LEDs are pulses that are not started again. -/

import PscDigpid.Hdl.EvrTriggers
import PscDigpid.Sync.OneShot

set_option autoImplicit false
set_option relaxedAutoImplicit false

namespace PscDigpid.Hdl

open PscDigpid.Sync

namespace Stretch

section Runs

variable (len : Nat) (sig : Nat → Bool)

/-- The signal goes up at clock `t` as the registers see it. -/
def goesUp (t : Nat) : Bool := !(run (step len) rest sig t).prevSigIn && sig t

/-- Clocks of the pulse that are left. -/
def left (s : Regs) : Nat := if s.trigStretch then len + 1 - s.trigCnt else 0

variable {len : Nat} {sig : Nat → Bool}

/-- The count stays within the length and rests at zero. -/
def Counting (len : Nat) (s : Regs) : Prop :=
  s.trigCnt ≤ len ∧ (s.trigStretch = false → s.trigCnt = 0)

theorem step_counting {s : Regs} (counting : Counting len s) (now : Bool) :
    Counting len (step len s now) := by
  obtain ⟨within, rests⟩ := counting
  simp only [Counting, step]
  cases high : s.trigStretch with
  | false => simp [rests high]
  | true =>
    obtain last | inside := Nat.lt_or_ge s.trigCnt len
    · simp [Nat.not_le.2 last, Nat.succ_le_of_lt last]
    · simp [inside]

theorem step_left {s : Regs} (counting : Counting len s) (now : Bool) :
    left len (step len s now) = oneShot (len + 1) (left len s) (!s.prevSigIn && now) := by
  obtain ⟨count, stretched, before⟩ := s
  obtain ⟨within, rests⟩ := counting
  dsimp only at within rests ⊢
  simp only [left, oneShot, step]
  cases stretched with
  | false =>
    obtain rfl : count = 0 := rests rfl
    simp
  | true =>
    have remaining : len + 1 - count ≠ 0 := by omega
    obtain last | inside := Nat.lt_or_ge count len
    · have closing : len + 1 - (count + 1) = len + 1 - count - 1 := by omega
      simp [Nat.not_le.2 last, remaining, closing]
    · have ended : len + 1 - count - 1 = 0 := by omega
      simp [inside, remaining, ended]

theorem left_run (len : Nat) (sig : Nat → Bool) (t : Nat) :
    Counting len (run (step len) rest sig t) ∧
      left len (run (step len) rest sig t) = run (oneShot (len + 1)) 0 (goesUp len sig) t := by
  induction t with
  | zero => exact ⟨⟨Nat.zero_le _, fun _ => rfl⟩, rfl⟩
  | succ t ih =>
    obtain ⟨counting, same⟩ := ih
    refine ⟨step_counting counting (sig t), ?_⟩
    rw [run_succ, run_succ, step_left counting, same, goesUp]

theorem goesUp_iff (t : Nat) : goesUp len sig t = true ↔ Rises sig t := by
  rw [goesUp, Bool.and_eq_true, Rises, and_comm, and_congr_right_iff, Bool.not_eq_true']
  intro _
  cases t with
  | zero => exact iff_of_true rfl fun m impossible => absurd impossible (by omega)
  | succ t =>
    constructor
    · rintro low m same
      rw [← Nat.succ.inj same]
      exact low
    · intro low
      exact low t rfl

/-- A pulse lasts `len + 1` clocks from a rise of the signal on, whatever the signal does in it. -/
theorem stretched_pulses (len : Nat) (sig : Nat → Bool) :
    ∃ taken, Taken (len + 1) (Rises sig) taken ∧
      ∀ t, (run (step len) rest sig t).trigStretch = true ↔
        ∃ u, taken u ∧ u < t ∧ t ≤ u + (len + 1) := by
  obtain ⟨taken, separate, pulses⟩ :=
    oneShot_pulses (len + 1) (goesUp len sig)
  refine ⟨taken, fun v => ?_, fun t => ?_⟩
  · rw [separate v]
    exact and_congr_left' (goesUp_iff v)
  · obtain ⟨⟨within, -⟩, same⟩ := left_run len sig t
    rw [← pulses t, ← same, left]
    cases (run (step len) rest sig t).trigStretch with
    | false => simp
    | true =>
      rw [if_pos rfl]
      exact iff_of_true rfl (Nat.sub_pos_of_lt (Nat.lt_succ_of_le within))

end Runs

end Stretch

namespace EvrTop

section Leds

variable (params : EvrParams) (data : Nat → BitVec 16) (clock : Nat → Edge) (c : Synced)

/-- The LED of a trigger. -/
def Synced.led : Synced → SysRegs → Stretch.Regs
  | inj, s => s.injLed
  | onehz, s => s.onehzLed

theorem led_run (t : Nat) :
    c.led (run step powerUp (inputs params data clock) t).sys =
      run (Stretch.step ledLen) Stretch.rest (output params data clock c)
        (ticksBefore (sysEdge clock) t) := by
  have first : c.led powerUp.sys = Stretch.rest := by cases c <;> rfl
  have own := domain_run (Stretch.step ledLen) (sysEdge clock)
    (fun t => c.led (run step powerUp (inputs params data clock) t).sys)
    (output params data clock c) ?_ ?_ t
  · rw [own]
    exact congrArg (fun s => run _ s _ _) first
  · intro t edge
    have here : clock t = .sys := beq_iff_eq.1 edge
    rw [run_succ, output, edgeTime_ticksBefore edge, inputs, here]
    cases c
    all_goals rfl
  · intro t edge
    rw [run_succ, inputs, step]
    cases here : clock t with
    | rx => rfl
    | sys => exact absurd (edge.symm.trans (beq_iff_eq.2 here)) Bool.false_ne_true

end Leds

section Tbt

/-- The bit of the data stream that follows the turns. -/
def turn (data : Nat → BitVec 16) (n : Nat) : Bool := (data n).getLsbD 8

/-- The bit goes up at word `n` after three low words, where there are that many. -/
def TurnStarts (data : Nat → BitVec 16) (n : Nat) : Prop :=
  turn data n = true ∧ ∀ m, m < n → n ≤ m + 3 → turn data m = false

/-- The filter and the pulse after `n` words. -/
def tbtAfter (params : EvrParams) (data : Nat → BitVec 16) (n : Nat) : TbtRegs :=
  run (fun s i => tbtStep i s) rxPowerUp.tbt (fun k => ⟨false, data k, params⟩) n

variable {params : EvrParams} {data : Nat → BitVec 16} {clock : Nat → Edge}

/-- The filter keeps the last four bits, and starts with low ones. -/
theorem filter_bits (params : EvrParams) (data : Nat → BitVec 16) (n k : Nat) :
    (tbtAfter params data n).prevDatastream.getLsbD k =
      (decide (k < 4 ∧ k + 1 ≤ n) && turn data (n - (k + 1))) := by
  induction n generalizing k with
  | zero =>
    rw [decide_eq_false (by omega)]
    exact BitVec.getLsbD_zero
  | succ n ih =>
    have shifted : (tbtAfter params data (n + 1)).prevDatastream =
        (tbtAfter params data n).prevDatastream.extractLsb' 0 3 ++
          (datastream ⟨false, data n, params⟩).extractLsb' 0 1 := rfl
    rw [shifted, BitVec.getLsbD_append]
    cases k with
    | zero =>
      simp [datastream, turn]
    | succ k =>
      rw [if_neg (by omega), Nat.add_sub_cancel, BitVec.getLsbD_extractLsb', Nat.zero_add, ih,
        Nat.add_sub_add_right, ← Bool.and_assoc, ← Bool.decide_and]
      congr 1
      exact decide_eq_decide.2 (by omega)

theorem filter_iff (n : Nat) :
    (tbtAfter params data n).prevDatastream = 1#4 ↔ ∃ m, n = m + 1 ∧ TurnStarts data m := by
  constructor
  · intro pattern
    have bits := filter_bits params data n
    rw [pattern] at bits
    have started : 1 ≤ n ∧ turn data (n - 1) = true := by simpa using bits 0
    obtain ⟨m, rfl⟩ := Nat.exists_eq_succ_of_ne_zero (show n ≠ 0 by omega)
    refine ⟨m, rfl, started.2, fun p before near => ?_⟩
    have low := bits (m - p)
    have place : m + 1 - (m - p + 1) = p := by omega
    rw [place, decide_eq_true (by omega), Bool.true_and] at low
    rw [← low, BitVec.getLsbD_one]
    simp
    omega
  · rintro ⟨m, rfl, high, low⟩
    apply BitVec.eq_of_getLsbD_eq
    intro k within
    rw [filter_bits, BitVec.getLsbD_one]
    cases k with
    | zero => simpa using high
    | succ k =>
      rw [decide_eq_false (show ¬ k + 1 = 0 by omega)]
      obtain inside | outside := Nat.lt_or_ge k m
      · rw [Nat.add_sub_add_right, low _ (by omega) (by omega)]
        simp
      · rw [decide_eq_false (by omega)]
        simp

/-- Clocks of the pulse that are left. -/
def tbtLeft (s : TbtRegs) : Nat := if s.active then 8 - s.tbtCnt.toNat else 0

/-- The pulse is high in the active state, and the count rests at zero. -/
def TbtCounting (s : TbtRegs) : Prop :=
  s.tbtTrigStretch = s.active ∧ (s.active = false → s.tbtCnt = 0)

theorem tbtStep_left {s : TbtRegs} (counting : TbtCounting s) {i : RxPorts}
    (running : i.sysRst = false) : TbtCounting (tbtStep i s) ∧
      tbtLeft (tbtStep i s) = oneShot 8 (tbtLeft s) s.tbtTrigI := by
  obtain ⟨bits, trig, active, count, stretched⟩ := s
  obtain ⟨same, rests⟩ := counting
  dsimp only at same rests ⊢
  subst same
  simp only [TbtCounting, tbtLeft, oneShot, tbtStep, running, Bool.false_eq_true, if_false]
  cases stretched with
  | false =>
    obtain rfl : count = 0 := rests rfl
    cases trig with
    | false => simp
    | true => simp
  | true =>
    have few := count.isLt
    by_cases last : count = 7#3
    · subst last
      simp
    · have below : count.toNat < 7 := by
        have other : count.toNat ≠ 7 := fun same => last (BitVec.eq_of_toNat_eq same)
        omega
      have remaining : 8 - count.toNat ≠ 0 := by omega
      have closer : 8 - (count.toNat + 1) % 8 = 8 - count.toNat - 1 := by omega
      simp [last, remaining, closer]

theorem tbtLeft_run (params : EvrParams) (data : Nat → BitVec 16) (n : Nat) :
    TbtCounting (tbtAfter params data n) ∧ tbtLeft (tbtAfter params data n) =
      run (oneShot 8) 0 (fun k => (tbtAfter params data k).tbtTrigI) n := by
  induction n with
  | zero => exact ⟨⟨rfl, fun _ => rfl⟩, rfl⟩
  | succ n ih =>
    obtain ⟨counting, same⟩ := ih
    obtain ⟨next, one⟩ := tbtStep_left counting (i := ⟨false, data n, params⟩) rfl
    refine ⟨next, ?_⟩
    rw [run_succ, ← same]
    exact one

/-- The filter's register, two words after the start of a turn. -/
theorem tbtTrigI_iff (n : Nat) :
    (tbtAfter params data n).tbtTrigI = true ↔ ∃ m, n = m + 2 ∧ TurnStarts data m := by
  cases n with
  | zero => exact iff_of_false Bool.false_ne_true (by rintro ⟨m, impossible, -⟩; omega)
  | succ n =>
    have filter : (tbtAfter params data (n + 1)).tbtTrigI =
        ((tbtAfter params data n).prevDatastream == 1#4) := rfl
    rw [filter, beq_iff_eq, filter_iff]
    constructor
    · rintro ⟨m, rfl, starts⟩
      exact ⟨m, rfl, starts⟩
    · rintro ⟨m, same, starts⟩
      exact ⟨m, Nat.succ.inj same, starts⟩

theorem tbt_run (t : Nat) : (run step powerUp (inputs params data clock) t).rx.tbt =
    tbtAfter params data (ticksBefore (rxEdge clock) t) := by
  apply domain_run (fun s i => tbtStep i s) (rxEdge clock)
    (fun t => (run step powerUp (inputs params data clock) t).rx.tbt)
    (fun k => ⟨false, data k, params⟩)
  · intro t edge
    have here : clock t = .rx := beq_iff_eq.1 edge
    rw [run_succ, inputs, here]
    rfl
  · intro t edge
    rw [run_succ, inputs, step]
    cases here : clock t with
    | rx => exact absurd (edge.symm.trans (beq_iff_eq.2 here)) Bool.false_ne_true
    | sys => rfl

end Tbt

section Laws

variable (params : EvrParams) (data : Nat → BitVec 16) (clock : Nat → Edge)

/-- The turn-by-turn trigger is high for exactly eight words after each start of a turn that is
taken, and a start is taken when it comes after the pulse of the one taken before. -/
theorem tbt_pulses : ∃ taken, Taken 8 (TurnStarts data) taken ∧
    ∀ t, (run step powerUp (inputs params data clock) t).rx.tbt.tbtTrigStretch = true ↔
      ∃ n, taken n ∧ n + 3 ≤ ticksBefore (rxEdge clock) t ∧
        ticksBefore (rxEdge clock) t ≤ n + 10 := by
  obtain ⟨taken, separate, pulses⟩ :=
    oneShot_pulses 8 fun k => (tbtAfter params data k).tbtTrigI
  have shifted : ∀ u, taken u → ∃ m, u = m + 2 ∧ TurnStarts data m :=
    fun u accepted => (tbtTrigI_iff u).1 ((separate u).1 accepted).1
  refine ⟨fun n => taken (n + 2), fun n => ?_, fun t => ?_⟩
  · have starts : (tbtAfter params data (n + 2)).tbtTrigI = true ↔ TurnStarts data n := by
      rw [tbtTrigI_iff]
      constructor
      · rintro ⟨m, same, starts⟩
        obtain rfl : n = m := by omega
        exact starts
      · intro starts
        exact ⟨n, rfl, starts⟩
    apply ((separate (n + 2)).trans (and_congr_left' starts)).trans
    refine and_congr_right' ⟨fun free m before accepted => ?_, fun free u before accepted => ?_⟩
    · have apart := free (m + 2) (by omega) accepted
      omega
    · obtain ⟨m, rfl, -⟩ := shifted u accepted
      have apart := free m (by omega) accepted
      omega
  · obtain ⟨⟨same, -⟩, left⟩ :=
      tbtLeft_run params data (ticksBefore (rxEdge clock) t)
    have high : (run step powerUp (inputs params data clock) t).rx.tbt.tbtTrigStretch = true ↔
        0 < tbtLeft (tbtAfter params data (ticksBefore (rxEdge clock) t)) := by
      rw [tbt_run, same, tbtLeft]
      cases (tbtAfter params data (ticksBefore (rxEdge clock) t)).active with
      | false => simp
      | true => exact iff_of_true rfl (Nat.sub_pos_of_lt (BitVec.isLt _))
    rw [high, left, pulses]
    constructor
    · rintro ⟨u, accepted, before, upto⟩
      obtain ⟨m, rfl, -⟩ := shifted u accepted
      exact ⟨m, accepted, before, by omega⟩
    · rintro ⟨m, accepted, before, upto⟩
      exact ⟨m + 2, accepted, before, by omega⟩

/-- The LED of a trigger is on for `ledLen + 1` edges of the system's clock after each start of the
trigger that is taken; the trigger does what it likes in between. -/
theorem led_pulses (c : Synced) :
    ∃ taken, Taken (ledLen + 1) (Rises (output params data clock c)) taken ∧
      ∀ t, (c.led (run step powerUp (inputs params data clock) t).sys).trigStretch = true ↔
        ∃ k, taken k ∧ k < ticksBefore (sysEdge clock) t ∧
          ticksBefore (sysEdge clock) t ≤ k + (ledLen + 1) := by
  obtain ⟨taken, separate, pulses⟩ :=
    Stretch.stretched_pulses ledLen (output params data clock c)
  refine ⟨taken, separate, fun t => ?_⟩
  rw [led_run, pulses]

end Laws

end EvrTop

end PscDigpid.Hdl
