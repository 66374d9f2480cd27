/- Unit: PscDigpid/Hdl/EventRcvChan
   layer: model
   source: src/hw/hdl/event_rcv_chan.vhd
   digest: A delayed pulse for an event, its two counters in step from the event to rest. -/

import PscDigpid.Sync.Ticks

set_option autoImplicit false
set_option relaxedAutoImplicit false

namespace PscDigpid.Hdl.EventRcvChan

open PscDigpid.Sync

/-- Input ports of `event_rcv_chan`. -/
structure Ports where
  reset : Bool
  eventStream : BitVec 8
  myEvent : BitVec 8
  myDelay : BitVec 32
  myWidth : BitVec 32
  myPolarity : Bool

/-- Registers of `event_rcv_chan`. -/
@[ext] structure Regs where
  delayCounter : BitVec 32
  widthCounter : BitVec 32
  startDelay : Bool
  startWidth : Bool

/-- The reset state, which is also the configured one. -/
def rest : Regs := ⟨0, 0, false, false⟩

def step (s : Regs) (i : Ports) : Regs :=
  if i.reset then rest
  else
    { delayCounter :=
        if s.startDelay then s.delayCounter + 1
        else if s.delayCounter ≥ i.myDelay then 0 else s.delayCounter
      widthCounter :=
        if s.startWidth then s.widthCounter + 1
        else if s.widthCounter ≥ i.myWidth then 0 else s.widthCounter
      startDelay :=
        if i.myEvent = i.eventStream then true
        else if s.delayCounter ≥ i.myDelay then false else s.startDelay
      startWidth :=
        if s.delayCounter > i.myDelay then true
        else if s.widthCounter ≥ i.myWidth then false else s.startWidth }

/-- The output, which follows the pulse register and the settings without a clock. -/
def trigger (s : Regs) (i : Ports) : Bool :=
  let trigVal := if i.myPolarity then !s.startWidth else s.startWidth
  if i.myDelay ≠ 0 ∧ i.myWidth ≠ 0 then trigVal else false

/-- The event of the channel is in the stream. -/
def occurs (i : Ports) : Bool := decide (i.myEvent = i.eventStream)

section Runs

variable (inp : Nat → Ports) (delay width : BitVec 32)

/-- The settings stay from the reset state on, and no reset comes. -/
structure Configured (myEvent : BitVec 8) : Prop where
  running : ∀ t, (inp t).reset = false
  event : ∀ t, (inp t).myEvent = myEvent
  delay : ∀ t, (inp t).myDelay = delay
  width : ∀ t, (inp t).myWidth = width
  polarity : ∀ t, (inp t).myPolarity = false

/-- A setting from 1 to 2^32 - 2. -/
def InRange (setting : BitVec 32) : Prop := 1 ≤ setting.toNat ∧ setting.toNat ≤ 2 ^ 32 - 2

/-- Occurrences of the event are far enough apart. -/
def Spaced : Prop :=
  ∀ t u, occurs (inp t) = true → occurs (inp u) = true → t < u →
    t + (delay.toNat + width.toNat + 5) ≤ u

/-- The clock is one of the `W + 1` after the `D + 2` edges that follow the event at clock `t`. -/
def Pulse (t n : Nat) : Prop :=
  t + 1 + (delay.toNat + 2) ≤ n ∧ n ≤ t + 1 + (delay.toNat + 2) + width.toNat

end Runs

/-- The registers `k` edges after the edge that sees the event. -/
def after (delay width k : Nat) : Regs where
  delayCounter := if k ≤ delay + 1 then BitVec.ofNat 32 k else 0
  widthCounter :=
    if delay + 2 ≤ k ∧ k ≤ delay + width + 3 then BitVec.ofNat 32 (k - (delay + 2)) else 0
  startDelay := decide (k ≤ delay)
  startWidth := decide (delay + 2 ≤ k ∧ k ≤ delay + 2 + width)

section Step

variable {delay width : BitVec 32} {i : Ports} {k : Nat}

theorem after_rest {delay width : Nat} (long : delay + width + 4 ≤ k) :
    after delay width k = rest := by
  rw [after, rest, if_neg (by omega), if_neg (by omega), decide_eq_false (by omega),
    decide_eq_false (by omega)]

theorem delayed_iff (ranged : InRange delay) (wide : Nat) :
    ((after delay.toNat wide k).delayCounter ≥ delay ↔ k = delay.toNat ∨ k = delay.toNat + 1) ∧
      ((after delay.toNat wide k).delayCounter > delay ↔ k = delay.toNat + 1) := by
  obtain ⟨low, high⟩ := ranged
  have count : (after delay.toNat wide k).delayCounter.toNat =
      if k ≤ delay.toNat + 1 then k else 0 := by
    dsimp only [after]
    split_ifs with early
    · exact Nat.mod_eq_of_lt (by omega)
    · rfl
  rw [ge_iff_le, gt_iff_lt, BitVec.le_def, BitVec.lt_def, count]
  constructor
  all_goals
    split_ifs
    · omega
    · omega

theorem widened_iff (wide : InRange width) (delay : Nat) :
    (after delay width.toNat k).widthCounter ≥ width ↔
      k = delay + 2 + width.toNat ∨ k = delay + 2 + width.toNat + 1 := by
  obtain ⟨low, high⟩ := wide
  have count : (after delay width.toNat k).widthCounter.toNat =
      if delay + 2 ≤ k ∧ k ≤ delay + width.toNat + 3 then k - (delay + 2) else 0 := by
    dsimp only [after]
    split_ifs with inside
    · exact Nat.mod_eq_of_lt (by omega)
    · rfl
  rw [ge_iff_le, BitVec.le_def, count]
  split_ifs
  · omega
  · omega

/-- One clock without the event. -/
theorem after_next (ranged : InRange delay) (wide : InRange width) (running : i.reset = false)
    (delays : i.myDelay = delay) (widths : i.myWidth = width) (none : occurs i = false) :
    step (after delay.toNat width.toNat k) i = after delay.toNat width.toNat (k + 1) := by
  obtain ⟨full, past⟩ := delayed_iff (k := k) ranged width.toNat
  have wider := widened_iff (k := k) wide delay.toNat
  have other : i.myEvent ≠ i.eventStream := of_decide_eq_false none
  rw [step, if_neg (by rw [running]; simp), if_neg other, delays, widths]
  simp only [full, past, wider]
  obtain ⟨low, high⟩ := ranged
  obtain ⟨least, most⟩ := wide
  ext : 1
  · simp only [after, decide_eq_true_eq]
    by_cases counting : k ≤ delay.toNat
    · rw [if_pos counting, if_pos (by omega), if_pos (by omega)]
      exact (BitVec.ofNat_add _ _).symm
    · rw [if_neg counting, if_neg (show ¬ k + 1 ≤ delay.toNat + 1 by omega)]
      by_cases last : k = delay.toNat + 1
      · exact if_pos (.inr last)
      · rw [if_neg (by omega), if_neg (by omega)]
  · simp only [after, decide_eq_true_eq]
    by_cases counting : delay.toNat + 2 ≤ k ∧ k ≤ delay.toNat + 2 + width.toNat
    · rw [if_pos counting, if_pos (by omega), if_pos (by omega), Nat.sub_add_comm counting.1]
      exact (BitVec.ofNat_add _ _).symm
    · rw [if_neg counting]
      by_cases first : k = delay.toNat + 1
      · rw [if_neg (by omega), if_neg (by omega), if_pos (by omega), first, Nat.sub_self]
        rfl
      · rw [if_neg (show ¬ (delay.toNat + 2 ≤ k + 1 ∧ _) by omega)]
        by_cases last : k = delay.toNat + 2 + width.toNat + 1
        · exact if_pos (.inr last)
        · rw [if_neg (by omega), if_neg (by omega)]
  · simp only [after]
    split_ifs
    · exact (decide_eq_false (by omega)).symm
    · exact decide_eq_decide.2 (by omega)
  · simp only [after]
    split_ifs
    · exact (decide_eq_true (by omega)).symm
    · exact (decide_eq_false (by omega)).symm
    · exact decide_eq_decide.2 (by omega)

/-- The event at rest. -/
theorem rest_next (ranged : InRange delay) (wide : InRange width) (running : i.reset = false)
    (delays : i.myDelay = delay) (widths : i.myWidth = width) (event : occurs i = true) :
    step rest i = after delay.toNat width.toNat 0 := by
  obtain ⟨low, _⟩ := ranged
  obtain ⟨least, _⟩ := wide
  have undelayed : ¬ delay ≤ 0 := fun le => absurd (BitVec.le_def.1 le) (Nat.not_le.2 low)
  have narrow : ¬ width ≤ 0 := fun le => absurd (BitVec.le_def.1 le) (Nat.not_le.2 least)
  have early : ¬ delay < 0 := fun lt => absurd (BitVec.lt_def.1 lt) (Nat.not_lt_zero _)
  have seen : i.myEvent = i.eventStream := of_decide_eq_true event
  rw [step, if_neg (by rw [running]; simp), if_pos seen, delays, widths]
  simp only [rest, after, ge_iff_le, gt_iff_lt, undelayed, narrow, early, if_false,
    Bool.false_eq_true]
  rw [if_pos (Nat.zero_le _), if_neg (by omega), decide_eq_true (Nat.zero_le _),
    decide_eq_false (by omega)]
  rfl

end Step

section Pulses

variable {inp : Nat → Ports} {delay width : BitVec 32} {myEvent : BitVec 8}

/-- The registers follow the last occurrence. -/
theorem registers_run (configured : Configured inp delay width myEvent) (ranged : InRange delay)
    (wide : InRange width) (spaced : Spaced inp delay width) (n : Nat) :
    (∀ t, LastTick (fun v => occurs (inp v)) t n →
        run step rest inp n = after delay.toNat width.toNat (n - (t + 1))) ∧
      ((∀ v, v < n → occurs (inp v) = false) → run step rest inp n = rest) := by
  induction n with
  | zero => exact ⟨fun t last => absurd last.1 (Nat.not_lt_zero t), fun _ => rfl⟩
  | succ n ih =>
      obtain ⟨ticked, never⟩ := ih
      cases event : occurs (inp n) with
      | true =>
          have before : run step rest inp n = rest := by
            obtain ⟨t, last⟩ | none := exists_lastTick (fun v => occurs (inp v)) n
            · have apart := spaced t n last.2.1 event last.1
              rw [ticked t last]
              exact after_rest (by omega)
            · exact never none
          constructor
          · intro t last
            rw [run_succ, before, last.of_tick event, Nat.sub_self]
            exact rest_next ranged wide (configured.running n) (configured.delay n)
              (configured.width n) event
          · intro none
            have idle := none n (Nat.lt_succ_self n)
            rw [event] at idle
            cases idle
      | false =>
          have next : ∀ k, run step rest inp n = after delay.toNat width.toNat k →
              run step rest inp (n + 1) = after delay.toNat width.toNat (k + 1) := by
            intro k same
            rw [run_succ, same]
            exact after_next ranged wide (configured.running n) (configured.delay n)
              (configured.width n) event
          constructor
          · intro t last
            have earlier := last.of_idle event
            rw [next _ (ticked t earlier), Nat.succ_sub earlier.1]
          · intro none
            have before := never fun v early => none v (Nat.lt_succ_of_lt early)
            have resting := next (delay.toNat + width.toNat + 4)
              (before.trans (after_rest le_rfl).symm)
            exact resting.trans (after_rest (Nat.le_succ _))

theorem trigger_run (configured : Configured inp delay width myEvent) (ranged : InRange delay)
    (wide : InRange width) (n : Nat) :
    trigger (run step rest inp n) (inp n) = (run step rest inp n).startWidth := by
  have set : ∀ {setting : BitVec 32}, InRange setting → setting ≠ 0 := by
    rintro _ ⟨low, _⟩ rfl
    exact absurd low (Nat.not_succ_le_zero 0)
  rw [trigger, configured.delay, configured.width, configured.polarity]
  exact if_pos ⟨set ranged, set wide⟩

/-- A clock of a pulse is of the pulse of the last occurrence. -/
theorem pulse_last (spaced : Spaced inp delay width) {t u n : Nat}
    (last : LastTick (fun v => occurs (inp v)) u n) (event : occurs (inp t) = true)
    (pulse : Pulse delay width t n) : t = u := by
  obtain ⟨before, fires, between⟩ := last
  obtain ⟨low, high⟩ := pulse
  obtain earlier | rfl | later := Nat.lt_trichotomy t u
  · have apart := spaced t u event fires earlier
    omega
  · rfl
  · have quiet : occurs (inp t) = false := between t later (by omega)
    rw [event] at quiet
    cases quiet

/-- Each occurrence gives one pulse of its own, and the output is low at all other times. -/
theorem trigger_iff (inp : Nat → Ports) (delay width : BitVec 32) (myEvent : BitVec 8)
    (configured : Configured inp delay width myEvent) (ranged : InRange delay)
    (wide : InRange width) (spaced : Spaced inp delay width) (n : Nat) :
    trigger (run step rest inp n) (inp n) = true ↔
      ∃! t, occurs (inp t) = true ∧ Pulse delay width t n := by
  obtain ⟨ticked, never⟩ := registers_run configured ranged wide spaced n
  rw [trigger_run configured ranged wide]
  obtain ⟨u, last⟩ | none := exists_lastTick (fun v => occurs (inp v)) n
  · obtain ⟨before, fires, _⟩ := id last
    rw [ticked u last]
    dsimp only [after]
    rw [decide_eq_true_eq]
    constructor
    · intro inside
      refine ⟨u, ⟨fires, by rw [Pulse]; omega⟩, ?_⟩
      rintro t ⟨event, pulse⟩
      exact pulse_last spaced last event pulse
    · rintro ⟨t, ⟨event, pulse⟩, _⟩
      have same := pulse_last spaced last event pulse
      rw [Pulse] at pulse
      omega
  · rw [never none]
    constructor
    · intro high
      cases high
    · rintro ⟨t, ⟨event, low, _⟩, _⟩
      have quiet : occurs (inp t) = false := none t (by omega)
      rw [event] at quiet
      cases quiet

/-- One event, with the settings of the 10 Hz channel. -/
def oneEvent (t : Nat) : Ports := ⟨false, if t = 3 then 30 else 0, 30, 1, 12, false⟩

theorem oneEvent_pulse : trigger (run step rest oneEvent 7) (oneEvent 7) = true := by
  have single : ∀ t, occurs (oneEvent t) = true → t = 3 := by
    intro t event
    by_contra other
    have event : (30 : BitVec 8) = if t = 3 then 30 else 0 := of_decide_eq_true event
    rw [if_neg other] at event
    cases event
  apply (trigger_iff oneEvent 1 12 30 ?_ ?_ ?_ ?_ 7).2
  · exact ⟨3, ⟨rfl, by decide, by decide⟩, fun t both => single t both.1⟩
  · exact ⟨fun _ => rfl, fun _ => rfl, fun _ => rfl, fun _ => rfl, fun _ => rfl⟩
  · exact ⟨by decide, by decide⟩
  · exact ⟨by decide, by decide⟩
  · intro t u first second before
    rw [single t first, single u second] at before
    exact absurd before (Nat.lt_irrefl 3)

end Pulses

end PscDigpid.Hdl.EventRcvChan
