/- Unit: PscDigpid/Hdl/EvrTriggers
   layer: result
   source: src/hw/hdl/evr_top.vhd (inj_trig_sync, onehz_trig_sync)
   digest: An event at the receiver's clock is one trigger at the system's, in any order. -/

import PscDigpid.Hdl.EvrTop

set_option autoImplicit false
set_option relaxedAutoImplicit false

namespace PscDigpid.Hdl.EvrTop

open PscDigpid.Sync

/-- The triggers that pass from the receiver's clock to the system's. -/
inductive Synced
  | inj | onehz

namespace Synced

def channel : Synced → RxRegs → EventRcvChan.Regs
  | inj, s => s.eventInj
  | onehz, s => s.event1Hz

def line : Synced → SysRegs → Synchronizer
  | inj, s => s.inj
  | onehz, s => s.onehz

def eventno : Synced → EvrParams → BitVec 8
  | inj, p => p.injEventno
  | onehz, p => p.onehzEventno

end Synced

section Runs

variable (params : EvrParams) (data : Nat → BitVec 16) (clock : Nat → Edge)

def rxEdge (t : Nat) : Bool := clock t == .rx

def sysEdge (t : Nat) : Bool := clock t == .sys

/-- The receiver's clock samples the words of `data` in turn; there is no reset. -/
def inputs (t : Nat) : Edge × RxPorts :=
  (clock t, ⟨false, data (ticksBefore (rxEdge clock) t), params⟩)

/-- Number of edges of the receiver's clock before the system's edge number `k`. -/
noncomputable def place (k : Nat) : Nat :=
  ticksBefore (rxEdge clock) (edgeTime (sysEdge clock) k)

/-- A trigger as the system's edge number `k` finds it. -/
noncomputable def output (c : Synced) (k : Nat) : Bool :=
  (c.line (run step powerUp (inputs params data clock) (edgeTime (sysEdge clock) k)).sys).out

/-- A trigger goes up at the system's edge number `k + 4`. -/
def Starts (c : Synced) (k : Nat) : Prop :=
  output params data clock c (k + 3) = false ∧ output params data clock c (k + 4) = true

/-- What a channel sees, edge by edge of its clock. -/
def stream (c : Synced) (n : Nat) : EventRcvChan.Ports :=
  chanPorts ⟨false, data n, params⟩ (c.eventno params) 12

/-- The channel's pulse register after `n` edges of its clock. -/
def level (c : Synced) (n : Nat) : Bool :=
  (run EventRcvChan.step EventRcvChan.rest (stream params data c) n).startWidth

/-- The word number `n` has the trigger's event. -/
def occurs (c : Synced) (n : Nat) : Prop := c.eventno params = eventstream ⟨false, data n, params⟩

/-- The system's clock does not stop, has at most `gap` edges of the receiver's clock between two
of its own, and the pulses of an event are `gap` clocks apart. -/
structure Regular (gap : Nat) (c : Synced) : Prop where
  endless : ∀ t, ∃ u, t ≤ u ∧ clock u = .sys
  close : ∀ k, place clock (k + 1) ≤ place clock k + gap
  bounds : 5 ≤ gap ∧ gap ≤ 13
  spaced : ∀ m n, occurs params data c m → occurs params data c n → m < n → m + 13 + gap ≤ n

end Runs

section Level

variable {params : EvrParams} {data : Nat → BitVec 16} {clock : Nat → Edge} {c : Synced}

theorem occurs_iff (n : Nat) :
    EventRcvChan.occurs (stream params data c n) = true ↔ occurs params data c n :=
  decide_eq_true_iff

/-- The pulse of an occurrence is high for thirteen clocks, from the fourth one on. -/
theorem level_iff (spaced : ∀ m n, occurs params data c m → occurs params data c n → m < n →
      m + 18 ≤ n) (m : Nat) :
    level params data c m = true ↔ ∃ n, occurs params data c n ∧ n + 4 ≤ m ∧ m ≤ n + 16 := by
  have apart : EventRcvChan.Spaced (stream params data c) 1 12 := by
    intro t u first second before
    exact spaced t u ((occurs_iff t).1 first) ((occurs_iff u).1 second) before
  have one : EventRcvChan.InRange 1 := ⟨by decide, by decide⟩
  have twelve : EventRcvChan.InRange 12 := ⟨by decide, by decide⟩
  obtain ⟨ticked, never⟩ := EventRcvChan.registers_run
    (⟨fun _ => rfl, fun _ => rfl, fun _ => rfl, fun _ => rfl, fun _ => rfl⟩ :
      EventRcvChan.Configured (stream params data c) 1 12 (c.eventno params)) one twelve apart m
  obtain ⟨n, last⟩ | none :=
    exists_lastTick (fun v => EventRcvChan.occurs (stream params data c v)) m
  · have after : level params data c m = decide (3 ≤ m - (n + 1) ∧ m - (n + 1) ≤ 15) :=
      congrArg EventRcvChan.Regs.startWidth (ticked n last)
    obtain ⟨before, fires, between⟩ := last
    rw [after, decide_eq_true_iff]
    constructor
    · rintro ⟨low, high⟩
      exact ⟨n, (occurs_iff n).1 fires, by omega, by omega⟩
    · rintro ⟨p, other, low, high⟩
      obtain early | rfl | late := Nat.lt_trichotomy p n
      · have far := spaced p n other ((occurs_iff n).1 fires) early
        omega
      · omega
      · have quiet : EventRcvChan.occurs (stream params data c p) = false :=
          between p late (by omega)
        rw [(occurs_iff p).2 other] at quiet
        cases quiet
  · have resting : level params data c m = false :=
      congrArg EventRcvChan.Regs.startWidth (never none)
    rw [resting]
    refine iff_of_false Bool.false_ne_true ?_
    rintro ⟨p, other, low, -⟩
    have quiet : EventRcvChan.occurs (stream params data c p) = false := none p (by omega)
    rw [(occurs_iff p).2 other] at quiet
    cases quiet

theorem rises_iff (spaced : ∀ m n, occurs params data c m → occurs params data c n → m < n →
      m + 18 ≤ n) (m : Nat) :
    Rises (level params data c) m ↔ ∃ n, occurs params data c n ∧ m = n + 4 := by
  constructor
  · rintro ⟨high, before⟩
    obtain ⟨n, event, low, upto⟩ := (level_iff spaced m).1 high
    refine ⟨n, event, ?_⟩
    by_contra later
    obtain ⟨p, rfl⟩ := Nat.exists_eq_succ_of_ne_zero (show m ≠ 0 by omega)
    have still := (level_iff spaced p).2 ⟨n, event, by omega, by omega⟩
    exact absurd ((before p rfl).symm.trans still) Bool.false_ne_true
  · rintro ⟨n, event, rfl⟩
    refine ⟨(level_iff spaced _).2 ⟨n, event, Nat.le_refl _, by omega⟩, fun p same => ?_⟩
    rw [← Bool.not_eq_true, level_iff spaced]
    rintro ⟨other, earlier, low, high⟩
    have far := spaced other n earlier event (by omega)
    omega

theorem apart_of_bounds {gap : Nat} (bounds : 5 ≤ gap ∧ gap ≤ 13)
    (apart : ∀ m n, occurs params data c m → occurs params data c n → m < n → m + 13 + gap ≤ n)
    (m n : Nat) (first : occurs params data c m) (second : occurs params data c n)
    (before : m < n) : m + 18 ≤ n := by
  have far := apart m n first second before
  omega

theorem level_slow {gap : Nat} (bounds : 5 ≤ gap ∧ gap ≤ 13)
    (apart : ∀ m n, occurs params data c m → occurs params data c n → m < n → m + 13 + gap ≤ n) :
    Slow gap (level params data c) := by
  obtain ⟨least, most⟩ := bounds
  have spaced := apart_of_bounds ⟨least, most⟩ apart
  constructor
  · intro m rises p low high
    obtain ⟨n, event, rfl⟩ := (rises_iff spaced m).1 rises
    exact (level_iff spaced p).2 ⟨n, event, low, by omega⟩
  · rintro f ⟨off, m, rfl, on⟩ p low high
    obtain ⟨n, event, above, upto⟩ := (level_iff spaced m).1 on
    have last : n + 16 ≤ m := by
      by_contra inside
      have still := (level_iff spaced (m + 1)).2 ⟨n, event, by omega, by omega⟩
      exact absurd (off.symm.trans still) Bool.false_ne_true
    rw [← Bool.not_eq_true, level_iff spaced]
    rintro ⟨other, again, from_there, upto_there⟩
    obtain early | rfl | late := Nat.lt_trichotomy other n
    · have far := apart other n again event early
      omega
    · omega
    · have far := apart n other event again late
      omega

/-- Between two places the pulse rises once exactly when the event occurs once. -/
theorem occurrence_unique (spaced : ∀ m n, occurs params data c m → occurs params data c n →
      m < n → m + 18 ≤ n) {a b : Nat} :
    (∃! m, Rises (level params data c) m ∧ a < m ∧ m ≤ b) ↔
      ∃! n, occurs params data c n ∧ a < n + 4 ∧ n + 4 ≤ b := by
  constructor
  · rintro ⟨m, ⟨rises, low, high⟩, only⟩
    obtain ⟨n, event, rfl⟩ := (rises_iff spaced m).1 rises
    refine ⟨n, ⟨event, low, high⟩, ?_⟩
    rintro p ⟨other, above, upto⟩
    have same := only (p + 4) ⟨(rises_iff spaced _).2 ⟨p, other, rfl⟩, above, upto⟩
    omega
  · rintro ⟨n, ⟨event, low, high⟩, only⟩
    refine ⟨n + 4, ⟨(rises_iff spaced _).2 ⟨n, event, rfl⟩, low, high⟩, ?_⟩
    rintro m ⟨rises, above, upto⟩
    obtain ⟨p, other, rfl⟩ := (rises_iff spaced m).1 rises
    exact congrArg (· + 4) (only p ⟨other, above, upto⟩)

end Level

section Crossing

variable (params : EvrParams) (data : Nat → BitVec 16) (clock : Nat → Edge) (c : Synced)

theorem step_rx {t : Nat} (edge : rxEdge clock t = true) (s : Regs) :
    c.channel (step s (inputs params data clock t)).rx =
      EventRcvChan.step (c.channel s.rx)
        (stream params data c (ticksBefore (rxEdge clock) t)) := by
  have here : clock t = .rx := beq_iff_eq.1 edge
  cases c
  all_goals
    rw [inputs, here]
    rfl

theorem step_sys {t : Nat} (edge : sysEdge clock t = true) (s : Regs) :
    c.line (step s (inputs params data clock t)).sys =
      (c.line s.sys).step (c.channel s.rx).startWidth := by
  have here : clock t = .sys := beq_iff_eq.1 edge
  cases c
  all_goals
    rw [inputs, here]
    rfl

theorem keeps_rx {t : Nat} (edge : rxEdge clock t = false) (s : Regs) :
    c.channel (step s (inputs params data clock t)).rx = c.channel s.rx := by
  rw [inputs, step]
  cases here : clock t with
  | rx => exact absurd (edge.symm.trans (beq_iff_eq.2 here)) Bool.false_ne_true
  | sys => rfl

theorem keeps_sys {t : Nat} (edge : sysEdge clock t = false) (s : Regs) :
    c.line (step s (inputs params data clock t)).sys = c.line s.sys := by
  rw [inputs, step]
  cases here : clock t with
  | rx => rfl
  | sys => exact absurd (edge.symm.trans (beq_iff_eq.2 here)) Bool.false_ne_true

/-- The receiver's clock runs its channels by itself. -/
theorem channel_run (t : Nat) :
    c.channel (run step powerUp (inputs params data clock) t).rx =
      run EventRcvChan.step EventRcvChan.rest (stream params data c)
        (ticksBefore (rxEdge clock) t) := by
  have first : c.channel powerUp.rx = EventRcvChan.rest := by cases c <;> rfl
  have own := domain_run EventRcvChan.step (rxEdge clock)
    (fun t => c.channel (run step powerUp (inputs params data clock) t).rx)
    (stream params data c) (fun t edge => step_rx params data clock c edge _)
    (fun t edge => keeps_rx params data clock c edge _) t
  rw [own]
  exact congrArg (fun s => run _ s _ _) first

/-- The system's clock samples the pulse at its places. -/
theorem line_run (t : Nat) :
    c.line (run step powerUp (inputs params data clock) t).sys =
      run Synchronizer.step ⟨false, false, false⟩
        (fun k => level params data c (place clock k)) (ticksBefore (sysEdge clock) t) := by
  have first : c.line powerUp.sys = ⟨false, false, false⟩ := by cases c <;> rfl
  have own := domain_run Synchronizer.step (sysEdge clock)
    (fun t => c.line (run step powerUp (inputs params data clock) t).sys)
    (fun k => level params data c (place clock k)) ?_
    (fun t edge => keeps_sys params data clock c edge _) t
  · rw [own]
    exact congrArg (fun s => run _ s _ _) first
  · intro t edge
    rw [run_succ, step_sys params data clock c edge, channel_run, place,
      edgeTime_ticksBefore edge]
    rfl

variable {params : EvrParams} {data : Nat → BitVec 16} {clock : Nat → Edge} {c : Synced} {gap : Nat}

/-- A trigger shows the pulse as it was three edges of the system's clock before. -/
theorem output_shows (regular : Regular params data clock gap c) (k : Nat) :
    output params data clock c (k + 3) = level params data c (place clock k) := by
  have endless : ∀ t, ∃ u, t ≤ u ∧ sysEdge clock u = true := by
    intro t
    obtain ⟨u, later, edge⟩ := regular.endless t
    exact ⟨u, later, beq_iff_eq.2 edge⟩
  rw [output, line_run, ticksBefore_edgeTime endless]
  rfl

theorem place_samples (regular : Regular params data clock gap c) : Samples gap (place clock) := by
  refine ⟨fun k => ticksBefore_mono _ (edgeTime_mono ?_ (Nat.le_succ k)), regular.close⟩
  intro t
  obtain ⟨u, later, edge⟩ := regular.endless t
  exact ⟨u, later, beq_iff_eq.2 edge⟩

/-- However the two clocks interleave, a trigger starts at the system's clock exactly where the
receiver's clock has had an occurrence of the event since, one for one and none lost. -/
theorem event_crosses (regular : Regular params data clock gap c) :
    (∀ k, Starts params data clock c k ↔
      ∃! n, occurs params data c n ∧ place clock k < n + 4 ∧ n + 4 ≤ place clock (k + 1)) ∧
    (∀ n j, occurs params data c n → place clock 0 < n + 4 → n + 4 ≤ place clock j →
      ∃! k, Starts params data clock c k ∧
        place clock k < n + 4 ∧ n + 4 ≤ place clock (k + 1)) := by
  have slow := level_slow regular.bounds regular.spaced
  have samples := place_samples regular
  have starts : ∀ k, Starts params data clock c k ↔
      ∃! n, occurs params data c n ∧ place clock k < n + 4 ∧ n + 4 ≤ place clock (k + 1) := by
    intro k
    rw [Starts, output_shows regular k, output_shows regular (k + 1),
      sampled_rise_iff slow samples k]
    exact occurrence_unique (apart_of_bounds regular.bounds regular.spaced)
  refine ⟨starts, fun n j event first passed => ?_⟩
  obtain ⟨k, ⟨low, high⟩, only⟩ := samples.crosses first passed
  refine ⟨k, ⟨(starts k).2 ⟨n, ⟨event, low, high⟩, ?_⟩, low, high⟩, fun i other => only i other.2⟩
  rintro m ⟨other, above, upto⟩
  have near := samples.close k
  obtain ⟨least, most⟩ := regular.bounds
  obtain early | rfl | late := Nat.lt_trichotomy m n
  · have apart := regular.spaced m n other event early
    omega
  · rfl
  · have apart := regular.spaced n m event other late
    omega

section Alternating

/-- The two clocks take turns. -/
def alternating (t : Nat) : Edge := if t % 2 = 0 then .rx else .sys

theorem alternating_rx (t : Nat) : ticksBefore (rxEdge alternating) t = (t + 1) / 2 := by
  induction t with
  | zero => rfl
  | succ t ih =>
    have edge : rxEdge alternating t = decide (t % 2 = 0) := by
      rw [rxEdge, alternating]
      split_ifs with even
      · exact (decide_eq_true even).symm
      · exact (decide_eq_false even).symm
    rw [ticksBefore_succ, ih, edge]
    by_cases even : t % 2 = 0
    · rw [decide_eq_true even, Bool.toNat_true]
      omega
    · rw [decide_eq_false even, Bool.toNat_false]
      omega

theorem alternating_sys (k : Nat) : ticksBefore (sysEdge alternating) (2 * k + 1) = k := by
  induction k with
  | zero => rfl
  | succ k ih =>
    have odd : sysEdge alternating (2 * k + 1) = true := by
      rw [sysEdge, alternating, if_neg (by omega)]
      rfl
    have even : sysEdge alternating (2 * k + 2) = false := by
      rw [sysEdge, alternating, if_pos (by omega)]
      rfl
    rw [Nat.mul_succ, ticksBefore_idle even, ticksBefore_tick odd, ih]

theorem alternating_place (k : Nat) : place alternating k = k + 1 := by
  have odd : sysEdge alternating (2 * k + 1) = true := by
    rw [sysEdge, alternating, if_neg (by omega)]
    rfl
  have time := edgeTime_ticksBefore odd
  rw [alternating_sys] at time
  rw [place, time, alternating_rx]
  omega

/-- The injection event is in word 6 only. -/
def injAtSix (n : Nat) : BitVec 16 := if n = 6 then 0x0024 else 0

/-- The settings for it. -/
def injParams : EvrParams := ⟨0x24, 0x28, 0x7d, 0x1e, 0x1f⟩

theorem occurs_injAtSix (n : Nat) : occurs injParams injAtSix .inj n ↔ n = 6 := by
  rw [occurs, eventstream, injAtSix]
  split_ifs with six
  · exact iff_of_true (by decide) six
  · exact iff_of_false (by decide) six

theorem inj_starts : Starts injParams injAtSix alternating .inj 8 := by
  have regular : Regular injParams injAtSix alternating 5 .inj := by
    refine ⟨fun t => ⟨2 * t + 1, by omega, ?_⟩, fun k => ?_, ⟨by omega, by omega⟩, ?_⟩
    · rw [alternating, if_neg (by omega)]
    · rw [alternating_place, alternating_place]
      omega
    · intro m n first second before
      rw [occurs_injAtSix] at first second
      omega
  apply ((event_crosses regular).1 8).2
  refine ⟨6, ⟨(occurs_injAtSix 6).2 rfl, ?_, ?_⟩, fun n other => (occurs_injAtSix n).1 other.1⟩
  · rw [alternating_place]
    omega
  · rw [alternating_place]

end Alternating

end Crossing

end PscDigpid.Hdl.EvrTop
