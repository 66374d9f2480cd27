/- Unit: PscDigpid/Hdl/DcctAdcModule
   layer: result
   source: src/hw/hdl/dcct_adc_module.vhd, src/hw/hdl/top.vhd (read_dcct_adcs, clk_src)
   digest: The four DCCT readers under the 10 kHz clock source, and the ticks they take. -/

import PscDigpid.Hdl.AdcLtc2376
import PscDigpid.Hdl.DcctGainoffset
import PscDigpid.Hdl.TenkhzMux

set_option autoImplicit false
set_option relaxedAutoImplicit false

namespace PscDigpid.Hdl

open PscDigpid.Sync

namespace DcctAdcModule

/-- Input ports of `dcct_adc_module`. -/
structure Ports where
  reset : Bool
  start : Bool
  dcctParams : DcctAdcsParams
  sdi : BitVec 4

structure Regs where
  adc : PerChan AdcLtc2376.Regs
  gainoff : PerChan DcctGainoffset.Regs

def powerUp : Regs where
  adc := PerChan.of fun _ => AdcLtc2376.powerUp
  gainoff := PerChan.of fun _ => DcctGainoffset.powerUp

/-- The data line of each channel's converter. -/
def sdiBit : Chan → Nat
  | .ps1 => 0
  | .ps2 => 1
  | .ps3 => 2
  | .ps4 => 3

def dcctAdc (i : Ports) (c : Chan) : AdcLtc2376.Ports where
  reset := i.reset
  start := i.start
  resolution := i.dcctParams.numbitsSel
  sdi := i.sdi.getLsbD (sdiBit c)

/-- Every channel's correction waits for the first converter. -/
def gainoffAdc (s : Regs) (i : Ports) (c : Chan) : DcctGainoffset.Ports where
  reset := i.reset
  convDone := s.adc.ps1.dataRdy
  dcct0Raw := (s.adc.get c).dcct1
  dcct1Raw := (s.adc.get c).dcct2
  dcctParams := i.dcctParams.ps.get c

/-- One rising clock edge. -/
def step (s : Regs) (i : Ports) : Regs where
  adc := PerChan.of fun c => AdcLtc2376.step (s.adc.get c) (dcctAdc i c)
  gainoff := PerChan.of fun c => DcctGainoffset.step (s.gainoff.get c) (gainoffAdc s i c)

def dcctOut (s : Regs) : DcctAdcs := PerChan.of fun c => (s.gainoff.get c).dcctOut

end DcctAdcModule

namespace Sampling

/-- What reaches the clock source and the readers from outside. -/
structure Ports where
  reset : Bool
  dcctParams : DcctAdcsParams
  sdi : BitVec 4

structure Regs where
  clkSrc : TenkhzMux.Regs
  readDcctAdcs : DcctAdcModule.Regs

def powerUp : Regs := ⟨TenkhzMux.powerUp, DcctAdcModule.powerUp⟩

/-- The clock source as the top level connects it. -/
def clkSrc (i : Ports) : TenkhzMux.Ports where
  reset := i.reset
  switch := true
  evr10khz := false
  fofb10khz := false
  timer := 10#16

def readDcctAdcs (s : Regs) (i : Ports) : DcctAdcModule.Ports where
  reset := i.reset
  start := TenkhzMux.o s.clkSrc
  dcctParams := i.dcctParams
  sdi := i.sdi

/-- One rising clock edge. -/
def step (s : Regs) (i : Ports) : Regs where
  clkSrc := TenkhzMux.step s.clkSrc (clkSrc i)
  readDcctAdcs := DcctAdcModule.step s.readDcctAdcs (readDcctAdcs s i)

/-- The 10 kHz trigger. -/
def tenkhzTrig (s : Regs) : Bool := TenkhzMux.o s.clkSrc

/-- The state of a channel's reader. -/
def readerState (s : Regs) (c : Chan) : AdcLtc2376.State := (s.readDcctAdcs.adc.get c).state

/-- The clock enable of a channel's reader. -/
def readerClkEnb (s : Regs) (c : Chan) : Bool := (s.readDcctAdcs.adc.get c).clkEnb

section Law

variable (s : Regs) (inp : Nat → Ports) (c : Chan)

/-- The clocks of the 10 kHz pulses. -/
def pulse (t : Nat) : Bool := tenkhzTrig (run step s inp t)

/-- A channel's reader leaves IDLE for SET_CNV at clock `t`. -/
def takesStart (t : Nat) : Bool :=
  decide (readerState (run step s inp t) c = .idle ∧
    readerState (run step s inp (t + 1)) c = .setCnv)

/-- The sample at clock `t` is no older than one tick: its conversion started at
a clock since which at most one pulse has come. -/
def FreshSample (t : Nat) : Prop :=
  ∃ u, u < t ∧ takesStart s inp c u = true ∧
    ticksBefore (pulse s inp) t ≤ ticksBefore (pulse s inp) u + 1

end Law

section Runs

variable {s : Regs} {i : Ports} {inp : Nat → Ports}

/-- From reset a pulse comes at every 10001st clock. -/
theorem pulse_run (reset : i.reset = true) (running : ∀ t, (inp t).reset = false) (t : Nat) :
    pulse (step s i) inp t = decide (0 < t ∧ t % 10001 = 0) := by
  have same : (run step (step s i) inp t).clkSrc =
      run TenkhzMux.step (TenkhzMux.step s.clkSrc (clkSrc i)) (fun u => clkSrc (inp u)) t :=
    run_project (fun s : Regs => s.clkSrc) (fun _ i => clkSrc i) (fun _ => rfl) t
  have source : (clkSrc i).reset = true := reset
  rw [pulse, tenkhzTrig, same, TenkhzMux.o_run source running]

/-- What a channel's reader sees at clock `t`. -/
private def readerPorts (s : Regs) (inp : Nat → Ports) (c : Chan) (t : Nat) : AdcLtc2376.Ports :=
  DcctAdcModule.dcctAdc (readDcctAdcs (run step s inp t) (inp t)) c

private theorem reader_run (c : Chan) (t : Nat) :
    (run step (step s i) inp t).readDcctAdcs.adc.get c =
      run AdcLtc2376.step
        (AdcLtc2376.step (s.readDcctAdcs.adc.get c) (DcctAdcModule.dcctAdc (readDcctAdcs s i) c))
        (readerPorts (step s i) inp c) t := by
  have start : (step s i).readDcctAdcs.adc.get c =
      AdcLtc2376.step (s.readDcctAdcs.adc.get c)
        (DcctAdcModule.dcctAdc (readDcctAdcs s i) c) := PerChan.get_of _ c
  rw [← start]
  exact run_project (fun s : Regs => s.readDcctAdcs.adc.get c)
    (fun s i => DcctAdcModule.dcctAdc (readDcctAdcs s i) c) (fun _ => PerChan.get_of _ c) t

private theorem readerPorts_width {resolution : Bool}
    (steady : ∀ t, (inp t).dcctParams.numbitsSel = resolution) (c : Chan) (t : Nat) :
    (AdcLtc2376.numBits (readerPorts (step s i) inp c t)).toNat =
      (if resolution then 40 else 36) := by
  have held : (readerPorts (step s i) inp c t).resolution = resolution := steady t
  rw [AdcLtc2376.numBits, held]
  cases resolution <;> rfl

variable {resolution : Bool}

/-- At every pulse every reader is idle: a conversion is over long before the next pulse. -/
theorem idle_at_pulse (reset : i.reset = true) (running : ∀ t, (inp t).reset = false)
    (steady : ∀ t, (inp t).dcctParams.numbitsSel = resolution) (c : Chan) {t : Nat}
    (fires : pulse (step s i) inp t = true) :
    readerState (run step (step s i) inp t) c = .idle := by
  rw [readerState, reader_run]
  refine AdcLtc2376.idle_at_start reset running (readerPorts_width steady c) ?_ ?_ fires
  · cases resolution <;> decide
  · intro a b start start' before
    change pulse (step s i) inp a = true at start
    change pulse (step s i) inp b = true at start'
    rw [pulse_run reset running, decide_eq_true_eq] at start start'
    omega

/-- The clock enables of every reader come at every fifth clock from reset. -/
theorem readerClkEnb_run (reset : i.reset = true) (running : ∀ t, (inp t).reset = false)
    (c : Chan) (t : Nat) :
    readerClkEnb (run step (step s i) inp t) c = decide (0 < t ∧ t % 5 = 0) := by
  rw [readerClkEnb, reader_run]
  exact AdcLtc2376.clkEnb_run reset running t

/-- The conversions start at every fifth pulse. -/
theorem takesStart_run (reset : i.reset = true) (running : ∀ t, (inp t).reset = false)
    (steady : ∀ t, (inp t).dcctParams.numbitsSel = resolution) (c : Chan) (t : Nat) :
    takesStart (step s i) inp c t = decide (0 < t ∧ t % 50005 = 0) := by
  have small : (if resolution then 40 else 36) ≤ 40 := by cases resolution <;> decide
  have starts (idle : readerState (run step (step s i) inp t) c = .idle) :
      readerState (run step (step s i) inp (t + 1)) c = .setCnv ↔
        pulse (step s i) inp t = true ∧ 0 < t ∧ t % 5 = 0 := by
    rw [readerState, reader_run] at idle ⊢
    exact AdcLtc2376.starts_iff reset running (readerPorts_width steady c) small idle
  rw [takesStart, decide_eq_decide]
  constructor
  · rintro ⟨idle, leaves⟩
    obtain ⟨fires, -, enabled⟩ := (starts idle).1 leaves
    rw [pulse_run reset running, decide_eq_true_eq] at fires
    omega
  · rintro ⟨positive, fifth⟩
    have fires : pulse (step s i) inp t = true := by
      rw [pulse_run reset running, decide_eq_true_eq]
      omega
    have idle := idle_at_pulse reset running steady c fires
    exact ⟨idle, (starts idle).2 ⟨fires, positive, by omega⟩⟩

/-- The sample at a pulse is no older than one tick exactly when the pulse before was taken. -/
theorem freshSample_iff (reset : i.reset = true) (running : ∀ t, (inp t).reset = false)
    (steady : ∀ t, (inp t).dcctParams.numbitsSel = resolution) (c : Chan) {t : Nat}
    (fires : pulse (step s i) inp t = true) :
    FreshSample (step s i) inp c t ↔
      10001 < t ∧ takesStart (step s i) inp c (t - 10001) = true := by
  have pulses := ticksBefore_every (pulse_run (s := s) reset running)
  rw [pulse_run reset running, decide_eq_true_eq] at fires
  obtain ⟨m, rfl⟩ := Nat.dvd_of_mod_eq_zero fires.2
  simp only [FreshSample, takesStart_run reset running steady, pulses, decide_eq_true_eq]
  constructor
  · rintro ⟨u, before, ⟨positive, taken⟩, recent⟩
    obtain ⟨n, rfl⟩ := Nat.dvd_of_mod_eq_zero taken
    have here : (10001 * m - 1) / 10001 = m - 1 := by omega
    have there : (50005 * n - 1) / 10001 = 5 * n - 1 := by omega
    rw [here, there] at recent
    have after : m = 5 * n + 1 := by omega
    omega
  · rintro ⟨later, taken⟩
    exact ⟨10001 * m - 10001, by omega, taken, by omega⟩

/-- A pulse starts a conversion exactly on a clock enable. -/
theorem taken_iff_enabled (reset : i.reset = true) (running : ∀ t, (inp t).reset = false)
    (steady : ∀ t, (inp t).dcctParams.numbitsSel = resolution) (c : Chan) {t : Nat}
    (fires : pulse (step s i) inp t = true) :
    takesStart (step s i) inp c t = true ↔ readerClkEnb (run step (step s i) inp t) c = true := by
  rw [pulse_run reset running, decide_eq_true_eq] at fires
  rw [takesStart_run reset running steady, readerClkEnb_run reset running, decide_eq_true_eq,
    decide_eq_true_eq]
  omega

private theorem pulse_before (reset : i.reset = true) (running : ∀ t, (inp t).reset = false)
    {t : Nat} (later : 10001 < t) (fires : pulse (step s i) inp t = true) :
    pulse (step s i) inp (t - 10001) = true := by
  rw [pulse_run reset running, decide_eq_true_eq] at fires ⊢
  exact ⟨by omega, (Nat.mod_eq_sub_mod (Nat.le_of_lt later)).symm.trans fires.2⟩

/-- A pulse finds every reader idle and starts a conversion exactly on a clock enable,
which is at every fifth pulse, so `n` pulses start `n / 5` conversions. -/
theorem pulse_taken_iff (reset : i.reset = true) (running : ∀ t, (inp t).reset = false)
    (steady : ∀ t, (inp t).dcctParams.numbitsSel = resolution) (c : Chan) :
    (∀ t, pulse (step s i) inp t = true →
      readerState (run step (step s i) inp t) c = .idle ∧
      (takesStart (step s i) inp c t = true ↔
        readerClkEnb (run step (step s i) inp t) c = true) ∧
      (readerClkEnb (run step (step s i) inp t) c = true ↔ t % 5 = 0) ∧
      (FreshSample (step s i) inp c t ↔
        10001 < t ∧ readerClkEnb (run step (step s i) inp (t - 10001)) c = true)) ∧
    ∀ t, ticksBefore (takesStart (step s i) inp c) t =
      ticksBefore (pulse (step s i) inp) t / 5 := by
  constructor
  · intro t fires
    refine ⟨idle_at_pulse reset running steady c fires,
      taken_iff_enabled reset running steady c fires, ?_, ?_⟩
    · rw [pulse_run reset running, decide_eq_true_eq] at fires
      rw [readerClkEnb_run reset running, decide_eq_true_eq]
      exact and_iff_right fires.1
    · rw [freshSample_iff reset running steady c fires]
      exact and_congr_right fun later =>
        taken_iff_enabled reset running steady c (pulse_before reset running later fires)
  · intro t
    rw [ticksBefore_every (takesStart_run reset running steady c),
      ticksBefore_every (pulse_run reset running), Nat.div_div_eq_div_mul]

end Runs

/-- Unit gains, no offsets and silent data lines, at the 18-bit resolution. -/
def unitGain (reset : Bool) : Ports where
  reset := reset
  dcctParams := ⟨false, PerChan.of fun _ => ⟨1048576#24, 0, 1048576#24, 0⟩⟩
  sdi := 0

theorem pulse_taken_iff_unit_gain :
    ticksBefore (takesStart (step powerUp (unitGain true)) (fun _ => unitGain false) .ps1) 100000 =
      ticksBefore (pulse (step powerUp (unitGain true)) fun _ => unitGain false) 100000 / 5 :=
  (pulse_taken_iff rfl (fun _ => rfl) (fun _ => rfl) .ps1).2 100000

/-- The first pulse after reset finds the first reader idle and is missed. -/
theorem first_pulse_missed : ¬ ∀ t,
    pulse (step powerUp (unitGain true)) (fun _ => unitGain false) t →
    readerState (run step (step powerUp (unitGain true)) (fun _ => unitGain false) t) .ps1 = .idle →
    takesStart (step powerUp (unitGain true)) (fun _ => unitGain false) .ps1 t := by
  intro every
  have fires : pulse (step powerUp (unitGain true)) (fun _ => unitGain false) 10001 = true := by
    rw [pulse_run rfl fun _ => rfl]
    decide
  have idle := idle_at_pulse rfl (fun _ => rfl) (fun _ => rfl) .ps1 fires
  have taken := every 10001 fires idle
  rw [takesStart_run rfl (fun _ => rfl) fun _ => rfl] at taken
  exact absurd taken (by decide)

end Sampling

end PscDigpid.Hdl
