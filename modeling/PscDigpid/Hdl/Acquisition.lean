/- Unit: PscDigpid/Hdl/Acquisition
   layer: result
   source: src/hw/hdl/top.vhd (read_dcct_adcs, read_mon_adcs, clk_src)
   digest: All converters under the one clock source, and the age of what a 10 kHz pulse finds. -/

import PscDigpid.Hdl.DcctReadings
import PscDigpid.Hdl.MonReadings

set_option autoImplicit false
set_option relaxedAutoImplicit false

namespace PscDigpid.Hdl.Acquisition

open PscDigpid.Sync

/-- What reaches the clock source and the converters' readers from outside. -/
structure Ports where
  sampling : Sampling.Ports
  monParams : MonAdcsParams
  monAdcSdo : BitVec 3

structure Regs where
  sampling : Sampling.Regs
  readMonAdcs : Adc8chModule.Regs

def powerUp : Regs := ⟨Sampling.powerUp, Adc8chModule.powerUp⟩

def readMonAdcs (s : Regs) (i : Ports) : Adc8chModule.Ports where
  reset := i.sampling.reset
  start := Sampling.tenkhzTrig s.sampling
  monParams := i.monParams
  sdo := i.monAdcSdo

/-- One rising clock edge. -/
def step (s : Regs) (i : Ports) : Regs where
  sampling := Sampling.step s.sampling i.sampling
  readMonAdcs := Adc8chModule.step s.readMonAdcs (readMonAdcs s i)

def dcctAdcs (s : Regs) : DcctAdcs := DcctAdcModule.dcctOut s.sampling.readDcctAdcs

def monAdcs (s : Regs) : PerChan (PerMon (BitVec 16)) := Adc8chModule.monAdcs s.readMonAdcs

/-- How many clocks after a reset the `n`th 10 kHz pulse comes. -/
def pulseClock (n : Nat) : Nat := 10001 * n + 1

section Runs

variable (inp : Nat → Ports)

/-- What the monitor converters' module sees at clock `t`. -/
def monLine (t : Nat) : Adc8chModule.Ports := readMonAdcs (run step powerUp inp t) (inp t)

/-- What the DCCT converters' module sees at clock `t`. -/
def dcctLine (t : Nat) : DcctAdcModule.Ports :=
  Sampling.readDcctAdcs (run step powerUp inp t).sampling (inp t).sampling

theorem sampling_run (t : Nat) : (run step powerUp inp t).sampling =
    run Sampling.step Sampling.powerUp (fun u => (inp u).sampling) t :=
  run_project (fun s : Regs => s.sampling) (fun _ (i : Ports) => i.sampling) (fun _ => rfl) t

theorem readMonAdcs_run (t : Nat) : (run step powerUp inp t).readMonAdcs =
    run Adc8chModule.step Adc8chModule.powerUp (monLine inp) t :=
  run_project (fun s : Regs => s.readMonAdcs) readMonAdcs (fun _ => rfl) t

theorem readDcctAdcs_run (t : Nat) : (run step powerUp inp t).sampling.readDcctAdcs =
    run DcctAdcModule.step DcctAdcModule.powerUp (dcctLine inp) t :=
  run_project (fun s : Regs => s.sampling.readDcctAdcs)
    (fun s (i : Ports) => Sampling.readDcctAdcs s.sampling i.sampling) (fun _ => rfl) t

end Runs

section Pulses

variable {inp : Nat → Ports} {r : Nat}

/-- The run of the clock source and the DCCT converters from a reset on. -/
theorem sampling_after (inp : Nat → Ports) (r t : Nat) :
    (run step powerUp inp (r + 1 + t)).sampling =
      run Sampling.step (Sampling.step (run step powerUp inp r).sampling (inp r).sampling)
        (fun u => (inp (r + 1 + u)).sampling) t := by
  have next : (run step powerUp inp (r + 1)).sampling =
      Sampling.step (run step powerUp inp r).sampling (inp r).sampling := rfl
  rw [← next, sampling_run inp (r + 1), sampling_run inp (r + 1 + t)]
  exact run_add Sampling.step Sampling.powerUp (fun u => (inp u).sampling) (r + 1) t

/-- After a reset the pulses come at fixed clocks. -/
theorem trig_iff (reset : (inp r).sampling.reset = true)
    (running : ∀ t, r < t → (inp t).sampling.reset = false) {t : Nat} (after : r < t) :
    Sampling.tenkhzTrig (run step powerUp inp t).sampling = true ↔
      ∃ n, 0 < n ∧ t = r + pulseClock n := by
  obtain ⟨k, rfl⟩ := Nat.exists_eq_add_of_le (Nat.succ_le_of_lt after)
  have live : ∀ u, (inp (r + 1 + u)).sampling.reset = false := fun u => running _ (by omega)
  have pulses := Sampling.pulse_run (s := (run step powerUp inp r).sampling) reset live k
  rw [Sampling.pulse, ← sampling_after] at pulses
  change Sampling.tenkhzTrig (run step powerUp inp (r + 1 + k)).sampling = _ at pulses
  change Sampling.tenkhzTrig (run step powerUp inp (r + 1 + k)).sampling = true ↔ _
  rw [pulses, decide_eq_true_eq]
  constructor
  · rintro ⟨later, whole⟩
    obtain ⟨n, rfl⟩ := Nat.dvd_of_mod_eq_zero whole
    refine ⟨n, by omega, ?_⟩
    rw [pulseClock]
    omega
  · rintro ⟨n, later, same⟩
    rw [pulseClock] at same
    obtain rfl : k = 10001 * n := by omega
    exact ⟨by omega, Nat.mul_mod_right _ _⟩

/-- Between two pulses the monitor readers wait, once they are idle. -/
theorem idle_between (reset : (inp r).sampling.reset = true)
    (running : ∀ t, r < t → (inp t).sampling.reset = false) {a t : Nat} (since : r < a)
    (le : a ≤ t) (between : ∀ m, 0 < m → r + pulseClock m < a ∨ t ≤ r + pulseClock m)
    (idle :
      (run Adc8chModule.step Adc8chModule.powerUp (monLine inp) a).adc1.presentState = .idle) :
    (run Adc8chModule.step Adc8chModule.powerUp (monLine inp) t).adc1.presentState = .idle := by
  rw [← Adc8chModule.presentState_same _ .adc1] at idle ⊢
  refine AdcAds8568Intf.idle_stays idle le fun u from_a before => ?_
  change Sampling.tenkhzTrig (run step powerUp inp u).sampling = false
  rw [← Bool.not_eq_true, trig_iff reset running (Nat.lt_of_lt_of_le since from_a)]
  rintro ⟨m, later, rfl⟩
  obtain early | late := between m later
  · exact absurd early (Nat.not_lt.2 from_a)
  · exact absurd before (Nat.not_lt.2 late)

/-- A reset leaves the monitor readers idle. -/
theorem idle_after_reset (reset : (inp r).sampling.reset = true) :
    (run Adc8chModule.step Adc8chModule.powerUp (monLine inp) (r + 1)).adc1.presentState =
      .idle := by
  have held : (Adc8chModule.readerPorts (monLine inp r) .adc1).reset = true := reset
  change (AdcAds8568Intf.step _ _ (Adc8chModule.readerPorts (monLine inp r) .adc1)).presentState = _
  rw [AdcAds8568Intf.step, if_pos held]

/-- The monitor readers are idle at every pulse, and start a conversion at it. -/
theorem starts_at_pulse (reset : (inp r).sampling.reset = true)
    (running : ∀ t, r < t → (inp t).sampling.reset = false) (n : Nat) :
    Adc8chModule.Starts (monLine inp) (r + pulseClock (n + 1)) := by
  have pulse_after : ∀ n, r < r + pulseClock n := fun n => Nat.lt_add_of_pos_right (Nat.succ_pos _)
  have accepted : ∀ n, (run Adc8chModule.step Adc8chModule.powerUp (monLine inp)
      (r + pulseClock (n + 1))).adc1.presentState = .idle →
      Adc8chModule.Starts (monLine inp) (r + pulseClock (n + 1)) := by
    intro n idle
    refine ⟨?_, running _ (pulse_after _),
      (trig_iff reset running (pulse_after _)).2 ⟨n + 1, Nat.succ_pos n, rfl⟩⟩
    rw [Adc8chModule.presentState_same]
    exact idle
  induction n with
  | zero =>
    refine accepted 0 (idle_between reset running (Nat.lt_succ_self r) (pulse_after _)
      (fun m later => .inr ?_) (idle_after_reset reset))
    simp only [pulseClock]
    omega
  | succ n ih =>
    obtain ⟨b, after, bound, ends, -⟩ := ih.measured fun t later _ =>
      running t (Nat.lt_trans (pulse_after _) later)
    have back := ends.back
    have since := Nat.lt_trans (pulse_after _) after
    rw [Adc8chModule.presentState_same] at back
    refine accepted (n + 1) (idle_between reset running (a := b + 1) (Nat.lt_succ_of_lt since) ?_
      (fun m later => ?_) back)
    · simp only [pulseClock] at bound ⊢
      omega
    · simp only [pulseClock] at bound after ⊢
      omega

/-- What is shown of the monitor converters from the pulse after the conversion at pulse `n + 1`
on, while the next conversion is under way. -/
theorem mon_after_pulse (reset : (inp r).sampling.reset = true)
    (running : ∀ t, r < t → (inp t).sampling.reset = false) (n : Nat) :
    ∃ b, r + pulseClock (n + 1) < b ∧ b ≤ r + pulseClock (n + 1) + 1693 ∧ ∀ c k t,
      r + pulseClock (n + 2) ≤ t → t ≤ r + pulseClock (n + 2) + 1600 →
      ((monAdcs (run step powerUp inp t)).get c).get k =
        Adc8chModule.corrected (monLine inp) (r + pulseClock (n + 1)) b c k := by
  have pulse_after : ∀ n, r < r + pulseClock n := fun n => Nat.lt_add_of_pos_right (Nat.succ_pos _)
  have calm : ∀ n t, r + pulseClock n < t → (monLine inp t).reset = false :=
    fun n t later => running t (Nat.lt_trans (pulse_after n) later)
  obtain ⟨b, after, bound, ends, -, -, measures⟩ :=
    (starts_at_pulse reset running n).measured fun t later _ => calm _ t later
  have back := ends.back
  have since := Nat.lt_trans (pulse_after _) after
  rw [Adc8chModule.presentState_same] at back
  refine ⟨b, after, bound, fun c k t from_pulse upto => ?_⟩
  rw [monAdcs, readMonAdcs_run]
  refine (measures fun t later _ => calm _ t (Nat.lt_trans after later)).reading c k _ ?_ ?_
  · simp only [pulseClock] at bound from_pulse
    omega
  · intro u later before ended
    by_cases waits : u ≤ r + pulseClock (n + 2)
    · have idle := idle_between reset running (a := b + 1) (t := u) (Nat.lt_succ_of_lt since) later
        (fun m positive => ?_) back
      · rw [ended.1] at idle
        cases idle
      · simp only [pulseClock] at bound after waits ⊢
        omega
    · have early : u ≤ r + pulseClock (n + 2) + 1600 := by omega
      exact (starts_at_pulse reset running (n + 1)).early (calm _) (Nat.lt_of_not_le waits) early
        ended

section Dcct

variable {resolution : Bool}

theorem reader_state (inp : Nat → Ports) (c : Chan) (t : Nat) :
    (run AdcLtc2376.step AdcLtc2376.powerUp (DcctAdcModule.line (dcctLine inp) c) t).state =
      Sampling.readerState (run step powerUp inp t).sampling c := by
  rw [Sampling.readerState, readDcctAdcs_run, DcctAdcModule.reader_run]

/-- After a reset the DCCT readers leave `IDLE` at every fifth pulse. -/
theorem leaves_iff (reset : (inp r).sampling.reset = true)
    (running : ∀ t, r < t → (inp t).sampling.reset = false)
    (steady : ∀ t, r < t → (inp t).sampling.dcctParams.numbitsSel = resolution) (k : Nat) :
    DcctAdcModule.Leaves (dcctLine inp) (r + 1 + k) ↔ 0 < k ∧ k % 50005 = 0 := by
  have live : ∀ u, (inp (r + 1 + u)).sampling.reset = false := fun u => running _ (by omega)
  have width : ∀ u, (inp (r + 1 + u)).sampling.dcctParams.numbitsSel = resolution :=
    fun u => steady _ (by omega)
  have taken := Sampling.takesStart_run (s := (run step powerUp inp r).sampling) reset live width
    .ps1 k
  rw [Sampling.takesStart, decide_eq_decide, ← sampling_after, ← sampling_after] at taken
  rw [← taken, DcctAdcModule.Leaves, AdcLtc2376.Leaves, reader_state, reader_state]
  refine and_congr_right fun idle => ⟨fun busy => ?_, fun pulse => ?_⟩
  · rw [← reader_state] at idle busy
    rw [← reader_state]
    obtain back | pulse := AdcLtc2376.idle_next
      (i := DcctAdcModule.line (dcctLine inp) .ps1 (r + 1 + k)) idle
    · exact absurd back busy
    · exact pulse
  · change Sampling.readerState (run step powerUp inp (r + 1 + (k + 1))).sampling .ps1 ≠ _
    rw [pulse]
    simp

theorem steady_dcct (reset : (inp r).sampling.reset = true)
    (running : ∀ t, r < t → (inp t).sampling.reset = false)
    (steady : ∀ t, r < t → (inp t).sampling.dcctParams.numbitsSel = resolution) :
    DcctAdcModule.Steady (dcctLine inp) r resolution :=
  ⟨reset, running, steady⟩

theorem wordBits_bounds (resolution : Bool) :
    18 ≤ AdcLtc2376.wordBits resolution ∧ AdcLtc2376.wordBits resolution ≤ 20 := by
  cases resolution with
  | false | true => decide

/-- What is shown of the DCCT converters from a pulse on, while a conversion started by it is under
way: the conversion of the last pulse before it whose number is a multiple of five. -/
theorem dcct_after_pulse (reset : (inp r).sampling.reset = true)
    (running : ∀ t, r < t → (inp t).sampling.reset = false)
    (steady : ∀ t, r < t → (inp t).sampling.dcctParams.numbitsSel = resolution) {m n t : Nat}
    (first : 0 < m) (after : 5 * m < n) (upto : n ≤ 5 * m + 5) (from_pulse : r + pulseClock n ≤ t)
    (early : t ≤ r + pulseClock n + 400) (c : Chan) (k : DcctReading) :
    k.out ((dcctAdcs (run step powerUp inp t)).get c) =
      DcctAdcModule.corrected (dcctLine inp) (r + pulseClock (5 * m))
        (r + pulseClock (5 * m) + 320 + 20 * AdcLtc2376.wordBits resolution) c k := by
  have calm := steady_dcct reset running steady
  have start : r < r + pulseClock (5 * m) := Nat.lt_add_of_pos_right (Nat.succ_pos _)
  have width := wordBits_bounds resolution
  have place : r + pulseClock (5 * m) = r + 1 + 50005 * m := by
    rw [pulseClock]
    omega
  have fifth : DcctAdcModule.Leaves (dcctLine inp) (r + pulseClock (5 * m)) := by
    rw [place, leaves_iff reset running steady]
    exact ⟨by omega, Nat.mul_mod_right 50005 m⟩
  obtain ⟨b, ending, ends, -, measures⟩ := fifth.measured reset start (calm.undisturbed start)
  rw [calm.width _ start] at ending
  have found : ∀ u, b < u → u + 4 ≤ t → ¬DcctAdcModule.Ends (dcctLine inp) u := by
    intro u later before ended
    -- only the pulse five later can have started a conversion since, and that is still under way
    obtain ⟨a, since, leaves, done⟩ := calm.begun (by omega) ended
    obtain ⟨v, rfl⟩ := Nat.exists_eq_add_of_le (Nat.succ_le_of_lt since)
    obtain ⟨-, whole⟩ := (leaves_iff reset running steady v).1 leaves
    simp only [pulseClock] at ending early
    omega
  rw [dcctAdcs, readDcctAdcs_run, ← ending]
  refine (measures fun t later _ => calm.running t (by omega)).reading c k _ ?_ found
  simp only [pulseClock] at ending from_pulse
  omega

end Dcct

/-- Whatever has come before the last reset, from it on the 10 kHz pulses find the same: every pulse
from the second on finds all monitor readings of the one conversion that the pulse before has
started, and every pulse from the sixth on all currents of the conversion that the last pulse before
it whose number is a multiple of five has started. -/
theorem readings_at_pulse (inp : Nat → Ports) (resolution : Bool) (r : Nat)
    (reset : (inp r).sampling.reset = true)
    (running : ∀ t, r < t → (inp t).sampling.reset = false)
    (steady : ∀ t, r < t → (inp t).sampling.dcctParams.numbitsSel = resolution) :
    (∀ n, ∃ b, r + pulseClock (n + 1) < b ∧ b ≤ r + pulseClock (n + 1) + 1693 ∧ ∀ c k,
      ((monAdcs (run step powerUp inp (r + pulseClock (n + 2)))).get c).get k =
        Adc8chModule.corrected (monLine inp) (r + pulseClock (n + 1)) b c k) ∧
      ∀ m n, 0 < m → 5 * m < n → n ≤ 5 * m + 5 → ∀ c k,
        DcctReading.out k ((dcctAdcs (run step powerUp inp (r + pulseClock n))).get c) =
          DcctAdcModule.corrected (dcctLine inp) (r + pulseClock (5 * m))
            (r + pulseClock (5 * m) + 320 + 20 * AdcLtc2376.wordBits resolution) c k := by
  constructor
  · intro n
    obtain ⟨b, after, bound, shown⟩ := mon_after_pulse reset running n
    exact ⟨b, after, bound, fun c k => shown c k _ (Nat.le_refl _) (Nat.le_add_right _ _)⟩
  · intro m n first after upto c k
    exact dcct_after_pulse reset running steady first after upto (Nat.le_refl _)
      (Nat.le_add_right _ _) c k

/-- Unit gains, no offsets and silent data lines, with one clock of reset at clock `r`. -/
def unitGain (r t : Nat) : Ports where
  sampling := Sampling.unitGain (t == r)
  monParams := Adc8chModule.unitGain.monParams
  monAdcSdo := 0

theorem unitGain_running (r t : Nat) (after : r < t) : (unitGain r t).sampling.reset = false := by
  have apart : t ≠ r := Nat.ne_of_gt after
  simp [unitGain, Sampling.unitGain, apart]

/-- The tenth pulse after a reset at clock 100 finds the voltage of the ninth and the current of the
fifth. -/
theorem readings_at_tenth_pulse :
    (∃ b, 100 + pulseClock 9 < b ∧
      ((monAdcs (run step powerUp (unitGain 100) (100 + pulseClock 10))).get .ps1).get .voltage =
        Adc8chModule.corrected (monLine (unitGain 100)) (100 + pulseClock 9) b .ps1 .voltage) ∧
      DcctReading.out .dcct0
          ((dcctAdcs (run step powerUp (unitGain 100) (100 + pulseClock 10))).get .ps1) =
        DcctAdcModule.corrected (dcctLine (unitGain 100)) (100 + pulseClock 5)
          (100 + pulseClock 5 + 320 + 20 * AdcLtc2376.wordBits false) .ps1 .dcct0 := by
  obtain ⟨voltages, currents⟩ :=
    readings_at_pulse (unitGain 100) false 100 rfl (unitGain_running 100) fun _ _ => rfl
  obtain ⟨b, after, -, voltage⟩ := voltages 8
  exact ⟨⟨b, after, voltage .ps1 .voltage⟩,
    currents 1 10 (by decide) (by decide) (by decide) .ps1 .dcct0⟩

end Pulses

end PscDigpid.Hdl.Acquisition
