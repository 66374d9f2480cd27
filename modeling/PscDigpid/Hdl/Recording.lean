/- Unit: PscDigpid/Hdl/Recording
   layer: result
   source: src/hw/hdl/top.vhd (clk_src, read_dcct_adcs, read_mon_adcs, adc2ddr, ps_regs)
   digest: The converters and the ring's writer under one clock source, and what a record finds. -/

import PscDigpid.Hdl.Acquisition
import PscDigpid.Hdl.SnapshotRecords
import PscDigpid.Hdl.TriggerLatch

set_option autoImplicit false
set_option relaxedAutoImplicit false

namespace PscDigpid.Hdl.Recording

open PscDigpid.Sync
open Adc2ddr (Capture PutAt Stored bursts begins)
open Acquisition (pulseClock)

/-- What reaches the converters, the ring's writer and the trigger latch from elsewhere. -/
structure Ports where
  acquisition : Acquisition.Ports
  digpidEnb1 : Bool
  s2m : PlSnapshotAxi4S2m
  pidStat1 : PidStatOnech
  softtrig : BitVec 8
  testtrig : BitVec 16
  dacCntrl : PerChan DacCntrlOnech
  faultStat : FaultStat
  injTrig : Bool
  tsS : BitVec 32
  tsNs : BitVec 32

structure Regs where
  acquisition : Acquisition.Regs
  top : TriggerLatch.Top

/-- The registers as the device configures them, over whatever the memory holds. -/
def powerUp (mem : BitVec 32 → BitVec 32) : Regs where
  acquisition := Acquisition.powerUp
  top := ⟨⟨Adc2ddr.powerUp, 0, mem⟩, TriggerLatch.powerUp⟩

def monOf {α : Type} (f : MonReading → α) : PerMon α where
  dacmon := f .dacmon
  voltage := f .voltage
  ignd := f .ignd
  spare := f .spare
  psReg := f .psReg
  psError := f .psError

/-- The part of a channel's monitor readings that a record holds. -/
def snapMon (mon : PerMon (BitVec 16)) : MonAdcsSnapOnech where
  voltage := mon.voltage
  ignd := mon.ignd
  psError := mon.psError
  dacmon := mon.dacmon
  spare := mon.spare
  psReg := mon.psReg

def adc2ddr (s : Regs) (i : Ports) : Adc2ddr.Ports where
  reset := i.acquisition.sampling.reset
  trigger := Sampling.tenkhzTrig s.acquisition.sampling
  digpidEnb1 := i.digpidEnb1
  s2m := i.s2m
  dcctAdcs := Acquisition.dcctAdcs s.acquisition
  monAdcs := PerChan.of fun c => snapMon ((Acquisition.monAdcs s.acquisition).get c)
  pidStat1 := i.pidStat1

def topPorts (s : Regs) (i : Ports) : TriggerLatch.TopPorts where
  adc2ddr := adc2ddr s i
  softtrig := i.softtrig
  testtrig := i.testtrig
  dacCntrl := i.dacCntrl
  faultStat := i.faultStat
  injTrig := i.injTrig
  tsS := i.tsS
  tsNs := i.tsNs

/-- One rising clock edge. -/
def step (s : Regs) (i : Ports) : Regs where
  acquisition := Acquisition.step s.acquisition i.acquisition
  top := s.top.step (topPorts s i)

/-- The clock of the `n`th 10 kHz tick, counted from the clock after the reset on. -/
def tick (n : Nat) : Nat := 10001 * n

section Runs

variable (mem : BitVec 32 → BitVec 32) (inp : Nat → Ports)

/-- Writer and latch when the reset at clock 0 is over. -/
def started : TriggerLatch.Top := (run step (powerUp mem) inp 1).top

/-- What writer and latch see, counted from the clock after the reset on. -/
def line (t : Nat) : TriggerLatch.TopPorts :=
  topPorts (run step (powerUp mem) inp (t + 1)) (inp (t + 1))

def ringLine (t : Nat) : Adc2ddr.Ports := (line mem inp t).adc2ddr

/-- The writer at a clock counted so. -/
def writer (t : Nat) : Adc2ddr.Regs :=
  (run Capture.step (started mem inp).ring (ringLine mem inp) t).writer

def acquisitionInp (t : Nat) : Acquisition.Ports := (inp t).acquisition

/-- One clock of reset, and a resolution that stays after it. -/
structure Clocked (resolution : Bool) : Prop where
  reset : (inp 0).acquisition.sampling.reset = true
  running : ∀ t, (inp (t + 1)).acquisition.sampling.reset = false
  steady : ∀ t, (inp (t + 1)).acquisition.sampling.dcctParams.numbitsSel = resolution

/-- Within 400 clocks of a tick the slave has taken its record and answered. -/
def PromptAt (n : Nat) : Prop :=
  ∃ t, tick n < t ∧ t ≤ tick n + 400 ∧ (writer mem inp t).state = .idle

def Prompt : Prop := ∀ n, 0 < n → PromptAt mem inp n

/-- The currents that a record of tick `n` finds: those of the last tick before it whose number is a
multiple of five. -/
def currents (resolution : Bool) (n : Nat) (c : Chan) : DcctAdcsOnech :=
  let a := pulseClock (5 * ((n - 1) / 5))
  let b := a + 320 + 20 * AdcLtc2376.wordBits resolution
  let corrected := DcctAdcModule.corrected (Acquisition.dcctLine (acquisitionInp inp)) a b c
  ⟨corrected .dcct0, corrected .dcct1⟩

/-- The monitor readings that a record of tick `n` finds, if the conversion of the tick before it
has ended at clock `b`. -/
def voltages (n b : Nat) (c : Chan) : MonAdcsSnapOnech :=
  snapMon (monOf (Adc8chModule.corrected (Acquisition.monLine (acquisitionInp inp))
    (pulseClock (n - 1)) b c))

/-- All words of a record of a tick find the readings of one conversion each, the currents from the
sixth tick on and the voltages of conversions that have ended at the clocks `ends`. -/
def Finds (resolution : Bool) (ends : Nat → Nat) : Prop :=
  ∀ k m u c, 5 ≤ k → PutAt (started mem inp).ring (ringLine mem inp) k m u →
    (ringLine mem inp u).dcctAdcs.get c = currents inp resolution (k + 1) c ∧
      (ringLine mem inp u).monAdcs.get c = voltages inp (k + 1) (ends k) c

end Runs

section Ticks

variable {mem : BitVec 32 → BitVec 32} {inp : Nat → Ports} {resolution : Bool} {n t : Nat}

theorem tick_succ (n : Nat) : tick (n + 1) = tick n + 10001 := Nat.mul_succ 10001 n

theorem acquisition_run (t : Nat) : (run step (powerUp mem) inp t).acquisition =
    run Acquisition.step Acquisition.powerUp (acquisitionInp inp) t :=
  run_project (fun s : Regs => s.acquisition) (fun _ (i : Ports) => i.acquisition) (fun _ => rfl) t

theorem top_run (t : Nat) : (run step (powerUp mem) inp (t + 1)).top =
    run TriggerLatch.Top.step (started mem inp) (line mem inp) t := by
  have rest : (run step (run step (powerUp mem) inp 1) (fun u => inp (1 + u)) t).top =
      run TriggerLatch.Top.step (started mem inp) (fun u => topPorts
        (run step (run step (powerUp mem) inp 1) (fun u => inp (1 + u)) u) (inp (1 + u))) t :=
    run_project (fun s : Regs => s.top) topPorts (fun _ => rfl) t
  rw [Nat.add_comm, run_add, rest]
  refine run_congr _ _ fun u _ => ?_
  rw [line, Nat.add_comm u 1, run_add]

/-- The writer starts at the base address, with no record counted. -/
theorem Clocked.fresh (clocked : Clocked inp resolution) (mem : BitVec 32 → BitVec 32) :
    Adc2ddr.Fresh 0 (started mem inp).ring.writer ∧
      (started mem inp).ring.writer.datacnt = 0 ∧
      (started mem inp).ring.writer.prevTrigger = false := by
  have clock : (started mem inp).ring.writer =
      Adc2ddr.step Adc2ddr.powerUp (adc2ddr (powerUp mem) (inp 0)) := rfl
  have reset : (adc2ddr (powerUp mem) (inp 0)).reset = true := clocked.reset
  rw [clock, Adc2ddr.step, if_pos reset]
  exact ⟨⟨rfl, rfl, rfl, rfl⟩, rfl, rfl⟩

theorem Clocked.live (clocked : Clocked inp resolution) (mem : BitVec 32 → BitVec 32) (t : Nat) :
    (line mem inp t).adc2ddr.reset = false := clocked.running t

theorem Clocked.live_after (clocked : Clocked inp resolution) (t : Nat) (after : 0 < t) :
    (acquisitionInp inp t).sampling.reset = false := by
  obtain ⟨t, rfl⟩ := Nat.exists_eq_succ_of_ne_zero (Nat.ne_of_gt after)
  exact clocked.running t

theorem Clocked.steady_after (clocked : Clocked inp resolution) (t : Nat) (after : 0 < t) :
    (acquisitionInp inp t).sampling.dcctParams.numbitsSel = resolution := by
  obtain ⟨t, rfl⟩ := Nat.exists_eq_succ_of_ne_zero (Nat.ne_of_gt after)
  exact clocked.steady t

theorem Clocked.ring_live (clocked : Clocked inp resolution) (mem : BitVec 32 → BitVec 32)
    (t : Nat) : (ringLine mem inp t).reset = false := clocked.running t

/-- The writer's trigger is up at the ticks only. -/
theorem Clocked.triggered_iff (clocked : Clocked inp resolution) (t : Nat) :
    (ringLine mem inp t).trigger = true ↔ ∃ n, 0 < n ∧ t = tick n := by
  have pulses : Sampling.tenkhzTrig
      (run Acquisition.step Acquisition.powerUp (acquisitionInp inp) (t + 1)).sampling = true ↔
        ∃ n, 0 < n ∧ t + 1 = pulseClock n :=
    (Acquisition.trig_iff clocked.reset clocked.live_after (Nat.succ_pos t)).trans (by
      simp only [Nat.zero_add])
  rw [← @acquisition_run mem] at pulses
  refine pulses.trans (exists_congr fun n => and_congr_right fun _ => ?_)
  rw [pulseClock, tick]
  omega

theorem Clocked.untriggered (clocked : Clocked inp resolution) (after : tick n < t)
    (before : t < tick (n + 1)) : (ringLine mem inp t).trigger = false := by
  rw [← Bool.not_eq_true, clocked.triggered_iff]
  rintro ⟨m, -, rfl⟩
  simp only [tick] at after before
  omega

theorem writer_succ (t : Nat) :
    writer mem inp (t + 1) = Adc2ddr.step (writer mem inp t) (ringLine mem inp t) := rfl

/-- Without a trigger the writer stays idle and forgets the last one. -/
theorem Clocked.rests (clocked : Clocked inp resolution)
    (idle : (writer mem inp t).state = .idle) (none : (ringLine mem inp t).trigger = false) :
    (writer mem inp (t + 1)).state = .idle ∧ (writer mem inp (t + 1)).prevTrigger = false := by
  rw [writer_succ, Adc2ddr.step_idle (clocked.ring_live mem t) idle, Adc2ddr.idleClock, none,
    Bool.false_and, if_neg Bool.false_ne_true]
  exact ⟨idle, rfl⟩

/-- Once idle after a tick the writer stays so until the next. -/
theorem Clocked.idle_until (clocked : Clocked inp resolution) {b : Nat} (after : tick n < b)
    (idle : (writer mem inp b).state = .idle) (le : b ≤ t) (upto : t ≤ tick (n + 1)) :
    (writer mem inp t).state = .idle ∧ (b < t → (writer mem inp t).prevTrigger = false) := by
  refine stretch_induction
    (P := fun t => (writer mem inp t).state = .idle ∧
      (b < t → (writer mem inp t).prevTrigger = false)) le
    ⟨idle, fun later => absurd later (Nat.lt_irrefl b)⟩ fun v low high before => ?_
  obtain ⟨state, prev⟩ :=
    clocked.rests before.1 (clocked.untriggered (by omega) (Nat.lt_of_lt_of_le high upto))
  exact ⟨state, fun _ => prev⟩

/-- Between two ticks no record begins. -/
theorem Clocked.bursts_between (clocked : Clocked inp resolution) (after : tick n < t)
    (upto : t ≤ tick (n + 1)) :
    bursts (started mem inp).ring (ringLine mem inp) t =
      bursts (started mem inp).ring (ringLine mem inp) (tick n + 1) := by
  refine stretch_induction
    (P := fun t => bursts (started mem inp).ring (ringLine mem inp) t =
      bursts (started mem inp).ring (ringLine mem inp) (tick n + 1)) after rfl
    fun v low high before => ?_
  have none : (ringLine mem inp v).trigger = false :=
    clocked.untriggered low (Nat.lt_of_lt_of_le high upto)
  rw [Adc2ddr.bursts_succ, before, begins, none, Bool.false_and, Bool.and_false, Bool.toNat_false,
    Nat.add_zero]

/-- Before the first tick the writer waits. -/
theorem Clocked.at_first (clocked : Clocked inp resolution) :
    (writer mem inp (tick 1)).state = .idle ∧ (writer mem inp (tick 1)).prevTrigger = false ∧
      bursts (started mem inp).ring (ringLine mem inp) (tick 1) = 0 := by
  obtain ⟨fresh, -, prev⟩ := clocked.fresh mem
  have none : ∀ t, t < tick 1 → (ringLine mem inp t).trigger = false := by
    intro t before
    rw [← Bool.not_eq_true, clocked.triggered_iff]
    rintro ⟨m, positive, rfl⟩
    simp only [tick] at before
    omega
  refine stretch_induction
    (P := fun t => (writer mem inp t).state = .idle ∧ (writer mem inp t).prevTrigger = false ∧
      bursts (started mem inp).ring (ringLine mem inp) t = 0) (Nat.zero_le _)
    ⟨fresh.state, prev, ticksBefore_zero _⟩ fun v _ high before => ?_
  obtain ⟨state, prev⟩ := clocked.rests before.1 (none v high)
  refine ⟨state, prev, ?_⟩
  rw [Adc2ddr.bursts_succ, before.2.2, begins, none v high, Bool.false_and, Bool.and_false]
  rfl

/-- A record begins at a tick that finds the writer idle. -/
theorem Clocked.begins_at (clocked : Clocked inp resolution)
    (idle : (writer mem inp (tick (n + 1))).state = .idle)
    (prev : (writer mem inp (tick (n + 1))).prevTrigger = false) :
    begins (writer mem inp (tick (n + 1))) (ringLine mem inp (tick (n + 1))) = true := by
  have trigger : (ringLine mem inp (tick (n + 1))).trigger = true :=
    (clocked.triggered_iff _).2 ⟨n + 1, Nat.succ_pos n, rfl⟩
  rw [begins, idle, prev, trigger]
  rfl

/-- If the record of a tick is taken promptly, the next tick finds the writer idle. -/
theorem Clocked.next_tick (clocked : Clocked inp resolution) (prompt : PromptAt mem inp n) :
    (writer mem inp (tick (n + 1))).state = .idle ∧
      (writer mem inp (tick (n + 1))).prevTrigger = false := by
  obtain ⟨b, after, bound, rests⟩ := prompt
  have next := tick_succ n
  obtain ⟨state, forgets⟩ :=
    clocked.idle_until after rests (t := tick (n + 1)) (by omega) (Nat.le_refl _)
  exact ⟨state, forgets (by omega)⟩

end Ticks

section Records

variable {mem : BitVec 32 → BitVec 32} {inp : Nat → Ports} {resolution : Bool} {n t : Nat}

/-- Every tick finds the writer idle, with one record for each tick before it. -/
theorem Clocked.at_tick (clocked : Clocked inp resolution)
    (prompt : Prompt mem inp) (n : Nat) :
    (writer mem inp (tick (n + 1))).state = .idle ∧
      (writer mem inp (tick (n + 1))).prevTrigger = false ∧
      bursts (started mem inp).ring (ringLine mem inp) (tick (n + 1)) = n := by
  induction n with
  | zero => exact clocked.at_first
  | succ n ih =>
    obtain ⟨idle, prev, count⟩ := ih
    obtain ⟨state, forgets⟩ := clocked.next_tick (prompt (n + 1) (Nat.succ_pos n))
    refine ⟨state, forgets, ?_⟩
    have next := tick_succ (n + 1)
    rw [clocked.bursts_between (n := n + 1) (by omega) (Nat.le_refl _), Adc2ddr.bursts_succ, count]
    exact congrArg (n + Bool.toNat ·) (clocked.begins_at idle prev)

/-- Between two ticks the records of the ticks so far have begun. -/
theorem Clocked.bursts_eq (clocked : Clocked inp resolution)
    (prompt : Prompt mem inp) (after : tick n < t) (upto : t ≤ tick (n + 1)) :
    bursts (started mem inp).ring (ringLine mem inp) t = n := by
  rw [clocked.bursts_between after upto,
    ← clocked.bursts_between (Nat.lt_of_lt_of_le after upto) (Nat.le_refl _)]
  exact (clocked.at_tick prompt n).2.2

theorem Clocked.bursts_of_tick (clocked : Clocked inp resolution)
    (prompt : Prompt mem inp) (t : Nat) :
    bursts (started mem inp).ring (ringLine mem inp) t = (t - 1) / 10001 := by
  cases t with
  | zero => exact ticksBefore_zero _
  | succ t =>
    refine clocked.bursts_eq prompt ?_ ?_
    · simp only [tick, Nat.add_sub_cancel]
      omega
    · simp only [tick, Nat.add_sub_cancel]
      omega

/-- The words of the record of a tick are put on the bus within 400 clocks. -/
theorem Clocked.put_within (clocked : Clocked inp resolution)
    (prompt : Prompt mem inp) {k m u : Nat}
    (put : PutAt (started mem inp).ring (ringLine mem inp) k m u) :
    tick (k + 1) < u ∧ u < tick (k + 1) + 400 := by
  have place := clocked.bursts_of_tick prompt u
  rw [put.burst] at place
  have after : tick (k + 1) < u := by
    simp only [tick]
    omega
  refine ⟨after, ?_⟩
  obtain ⟨b, later, bound, idle⟩ := prompt (k + 1) (Nat.succ_pos k)
  by_contra late
  obtain ⟨rests, -⟩ := clocked.idle_until later idle (t := u) (by omega) (by
    simp only [tick] at place ⊢
    omega)
  exact put.writes.1 rests

/-- A record is in memory 400 clocks after its tick. -/
theorem Clocked.stored (clocked : Clocked inp resolution)
    (prompt : Prompt mem inp) {k m : Nat}
    (later : tick (k + 1) + 400 ≤ t) :
    Stored (started mem inp).ring (ringLine mem inp) t k m := by
  have count := clocked.bursts_of_tick prompt t
  by_cases next : t ≤ tick (k + 1 + 1)
  · refine .inr ⟨(clocked.bursts_eq (n := k + 1) prompt (by omega) next).symm, .inl ?_⟩
    obtain ⟨b, after, bound, idle⟩ := prompt (k + 1) (Nat.succ_pos k)
    exact (clocked.idle_until after idle (by omega) next).1
  · left
    rw [count]
    simp only [tick] at next
    omega

end Records

section Ready

variable {mem : BitVec 32 → BitVec 32} {inp : Nat → Ports} {resolution : Bool} {n t : Nat}

/-- A slave that is ready at every clock takes the words of a record one by one. -/
theorem Clocked.ready_words (clocked : Clocked inp resolution)
    (ready : ∀ t, (inp t).s2m = ⟨true, true, true⟩)
    (address : (writer mem inp t).state = .address) {m : Nat} (few : m ≤ 40) :
    (writer mem inp (t + 1 + m)).state = Adc2ddr.wordState m := by
  have slave (t : Nat) : (ringLine mem inp t).s2m = ⟨true, true, true⟩ := ready (t + 1)
  have live := clocked.ring_live mem
  induction m with
  | zero =>
    rw [Nat.add_zero, writer_succ, Adc2ddr.step_address (live t) address, Adc2ddr.addressClock,
      slave]
    rfl
  | succ m ih =>
    have state := ih (Nat.le_of_succ_le few)
    have follows : ∀ m < 40, Adc2ddr.Writes (Adc2ddr.wordState m) ∧
        Adc2ddr.next (Adc2ddr.wordState m) = Adc2ddr.wordState (m + 1) := by
      unfold Adc2ddr.Writes
      decide
    obtain ⟨writes, next⟩ := follows m few
    rw [← state] at writes
    rw [← Nat.add_assoc, writer_succ, Adc2ddr.step_writes (live _) writes, Adc2ddr.writeWord, slave,
      if_pos rfl]
    exact (congrArg Adc2ddr.next state).trans next

/-- Such a slave is prompt. -/
theorem Clocked.prompt_of_ready (clocked : Clocked inp resolution)
    (ready : ∀ t, (inp t).s2m = ⟨true, true, true⟩) : Prompt mem inp := by
  intro n positive
  have taken (n : Nat) (idle : (writer mem inp (tick (n + 1))).state = .idle)
      (prev : (writer mem inp (tick (n + 1))).prevTrigger = false) :
      PromptAt mem inp (n + 1) := by
    have edge := (Adc2ddr.begins_state (clocked.begins_at idle prev)).2
    have address : (writer mem inp (tick (n + 1) + 1)).state = .address := by
      rw [writer_succ, Adc2ddr.step_idle (clocked.ring_live mem _) idle, Adc2ddr.idleClock,
        if_pos edge]
    have awaits : (writer mem inp (tick (n + 1) + 1 + 1 + 40)).state = .awaitresp :=
      clocked.ready_words ready address (Nat.le_refl 40)
    have answered : (ringLine mem inp (tick (n + 1) + 1 + 1 + 40)).s2m.bvalid = true :=
      congrArg PlSnapshotAxi4S2m.bvalid (ready _)
    refine ⟨tick (n + 1) + 1 + 1 + 40 + 1, by omega, by omega, ?_⟩
    generalize tick (n + 1) + 1 + 1 + 40 = t at awaits answered
    rw [writer_succ, Adc2ddr.step_awaitresp (clocked.ring_live mem t) awaits,
      Adc2ddr.awaitrespClock, if_pos answered]
  obtain ⟨n, rfl⟩ := Nat.exists_eq_succ_of_ne_zero (Nat.ne_of_gt positive)
  clear positive
  induction n with
  | zero =>
    obtain ⟨idle, prev, -⟩ := @Clocked.at_first mem _ _ clocked
    exact taken 0 idle prev
  | succ n ih =>
    obtain ⟨idle, prev⟩ := clocked.next_tick ih
    exact taken (n + 1) idle prev

end Ready

section Readings

variable {mem : BitVec 32 → BitVec 32} {inp : Nat → Ports} {resolution : Bool}

theorem eq_monOf {α : Type} {x : PerMon α} {f : MonReading → α} (same : ∀ k, x.get k = f k) :
    x = monOf f := by
  obtain rfl : x.get = f := funext same
  rfl

theorem eq_of_out {x y : DcctAdcsOnech} (same : ∀ k, DcctReading.out k x = k.out y) : x = y := by
  have first := same .dcct0
  have second := same .dcct1
  cases x
  cases y
  cases first
  cases second
  rfl

/-- Every record finds the readings of one conversion each. -/
theorem Clocked.found (clocked : Clocked inp resolution)
    (prompt : Prompt mem inp) :
    ∃ ends : Nat → Nat, (∀ n, 0 < n → pulseClock n < ends n ∧ ends n ≤ pulseClock n + 1693) ∧
      Finds mem inp resolution ends := by
  have measured := @Acquisition.mon_after_pulse (acquisitionInp inp) 0 clocked.reset
    clocked.live_after
  simp only [Nat.zero_add] at measured
  choose ends after bound shown using measured
  refine ⟨fun n => ends (n - 1), fun n positive => ?_, fun k m u c late put => ?_⟩
  · obtain ⟨n, rfl⟩ := Nat.exists_eq_succ_of_ne_zero (Nat.ne_of_gt positive)
    exact ⟨after n, bound n⟩
  · obtain ⟨low, high⟩ := clocked.put_within prompt put
    have from_pulse : pulseClock (k + 1) ≤ u + 1 := by
      simp only [pulseClock, tick] at low ⊢
      omega
    have upto : u + 1 ≤ pulseClock (k + 1) + 400 := by
      simp only [pulseClock, tick] at high ⊢
      omega
    have state : (run step (powerUp mem) inp (u + 1)).acquisition =
        run Acquisition.step Acquisition.powerUp (acquisitionInp inp) (u + 1) := acquisition_run _
    constructor
    · change (Acquisition.dcctAdcs (run step (powerUp mem) inp (u + 1)).acquisition).get c = _
      rw [state]
      refine eq_of_out fun r => ?_
      have from_start : 0 + pulseClock (k + 1) ≤ u + 1 := by rwa [Nat.zero_add]
      have upto_start : u + 1 ≤ 0 + pulseClock (k + 1) + 400 := by rwa [Nat.zero_add]
      have current := Acquisition.dcct_after_pulse clocked.reset clocked.live_after
        clocked.steady_after (m := k / 5) (by omega) (by omega) (by omega) from_start upto_start c r
      simp only [Nat.zero_add] at current
      rw [current]
      cases r with
      | dcct0 => rfl
      | dcct1 => rfl
    · obtain ⟨k, rfl⟩ := Nat.exists_eq_succ_of_ne_zero (n := k) (by omega)
      change (PerChan.of fun c => snapMon ((Acquisition.monAdcs
        (run step (powerUp mem) inp (u + 1)).acquisition).get c)).get c = _
      rw [PerChan.get_of, state]
      exact congrArg snapMon (eq_monOf fun r => shown k c r (u + 1) from_pulse
        (Nat.le_trans upto (Nat.add_le_add_left (by decide) _)))

end Readings

end PscDigpid.Hdl.Recording
