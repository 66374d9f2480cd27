/- Unit: PscDigpid/Hdl/DacLimit
   layer: result
   source: src/hw/hdl/dac_chan.vhd (dac_data), src/hw/hdl/dac_gainoffset.vhd (CHECKFORSAT)
   digest: The converter gets the limited setpoint unless the loop runs past 18 bits. -/

import PscDigpid.Hdl.DacChan

set_option autoImplicit false
set_option relaxedAutoImplicit false

namespace PscDigpid.Hdl.DacChan

open PscDigpid.Sync
open DacGainoffset (In18)

/-- A value limited to 18 bits. -/
def clamp18 (x : Int) : Int := max (-131072) (min x 131071)

/-- The converter gets the setpoint in 20 bits, or four times the setpoint limited to 18. -/
structure WordLaw (s : Regs) (i : Ports) : Prop where
  word20 : i.dacNumbitsSel = true → (dacData s i).toInt = (dacSetpt s i).toInt
  word18 : i.dacNumbitsSel = false → (dacData s i).toInt = 4 * clamp18 (dacSetpt s i).toInt
  sign : ¬ ((dacData s i).toInt < 0 ∧ 0 < (dacSetpt s i).toInt) ∧
    ¬ (0 < (dacData s i).toInt ∧ (dacSetpt s i).toInt < 0)

/-- The low 18 bits of the setpoint are the limited setpoint: it needs no more bits, or they
are those of the limit by chance. -/
def Fits (x : BitVec 20) : Prop := In18 x ∨ x.toInt = 393215 ∨ x.toInt = -393216

section Word

variable {s : Regs} {i : Ports}

theorem toInt_word18 (x : BitVec 20) :
    (x.extractLsb' 0 18 ++ 0#2).toInt = 4 * x.toInt.bmod (2 ^ 18) := by
  rw [BitVec.toInt_append_zero, ← BitVec.setWidth_eq_extractLsb' (by decide),
    toInt_setWidth_le x (by decide)]
  rfl

theorem bmod_eq_clamp18_iff (x : BitVec 20) :
    x.toInt.bmod (2 ^ 18) = clamp18 x.toInt ↔ Fits x := by
  have bounds := SmoothRamp.toInt_bounds x
  unfold Fits In18 clamp18
  rw [Int.bmod_def]
  omega

/-- The word obeys the law when the setpoint fits the converter. -/
theorem wordLaw_iff : WordLaw s i ↔ i.dacNumbitsSel = true ∨ Fits (dacSetpt s i) := by
  have plain (sel : i.dacNumbitsSel = true) : dacData s i = dacSetpt s i := by
    rw [dacData, if_pos sel]
  have cut (sel : i.dacNumbitsSel = false) :
      (dacData s i).toInt = 4 * (dacSetpt s i).toInt.bmod (2 ^ 18) := by
    rw [dacData, sel, if_neg Bool.false_ne_true, toInt_word18]
  constructor
  · intro law
    cases sel : i.dacNumbitsSel with
    | true => exact .inl rfl
    | false =>
        right
        rw [← bmod_eq_clamp18_iff]
        have word := law.word18 sel
        have narrow := cut sel
        omega
  · intro fits
    cases sel : i.dacNumbitsSel with
    | true =>
        refine ⟨fun _ => by rw [plain sel],
          fun off => absurd (off.symm.trans sel) Bool.false_ne_true, ?_⟩
        rw [plain sel]
        omega
    | false =>
        have fit := fits.resolve_left (by rw [sel]; decide)
        rw [← bmod_eq_clamp18_iff] at fit
        have narrow := cut sel
        rw [fit] at narrow
        refine ⟨fun on => absurd (sel.symm.trans on) Bool.false_ne_true, fun _ => narrow, ?_⟩
        rw [narrow, clamp18]
        omega

end Word

/-- The setpoint is checked against its limits at this clock edge. -/
def Checks (s : DacGainoffset.Regs) (i : DacGainoffset.Ports) : Prop :=
  i.reset = false ∧ s.state = .checkforsat

section Gainoff

variable {s : DacGainoffset.Regs} {inp : Nat → DacGainoffset.Ports}

theorem done_idle_run (start : s.done = true → s.state = .idle) (t : Nat)
    (done : (run DacGainoffset.step s inp t).done = true) :
    (run DacGainoffset.step s inp t).state = .idle := by
  induction t with
  | zero => exact start done
  | succ t ih => exact DacGainoffset.done_idle ih done

/-- A setpoint that an 18 bit check has let pass stays until the next check is due. -/
theorem in18_run {u t : Nat} (checks : Checks (run DacGainoffset.step s inp u) (inp u))
    (narrow : (inp u).numbitsSel = false) (after : u < t)
    (last : ∀ v, u < v → v < t → ¬ Checks (run DacGainoffset.step s inp v) (inp v)) :
    (run DacGainoffset.step s inp t).state = .checkforsat ∨
      In18 (run DacGainoffset.step s inp t).dacSetpt := by
  refine stretch_induction (P := fun t => (run DacGainoffset.step s inp t).state = .checkforsat ∨
    In18 (run DacGainoffset.step s inp t).dacSetpt) (Nat.succ_le_of_lt after) ?_ ?_
  · right
    rw [run_succ, DacGainoffset.step, checks.1, if_neg Bool.false_ne_true, checks.2, narrow]
    exact DacGainoffset.limit_in18 _ _
  · intro v low high holds
    rw [run_succ]
    cases reset : (inp v).reset with
    | true =>
        rw [DacGainoffset.step, reset, if_pos rfl]
        exact holds
    | false =>
        have unchecked : (run DacGainoffset.step s inp v).state ≠ .checkforsat :=
          fun due => last v (by omega) high ⟨reset, due⟩
        by_cases scale : (run DacGainoffset.step s inp v).state = .scale
        · left
          rw [DacGainoffset.step, reset, if_neg Bool.false_ne_true, scale]
        · right
          rw [DacGainoffset.step_keeps scale unchecked]
          exact holds.resolve_left unchecked

end Gainoff

section Runs

variable (s : Regs) (inp : Nat → Ports) (t : Nat)

/-- An SPI transfer starts at clock `t`. -/
def Starts : Prop :=
  DacAd5781.Starts (run step s inp t).spiDac (spiPorts (run step s inp t) (inp t))

/-- The last check of the setpoint before clock `t` was one against 18 bits. -/
def Checked18 : Prop :=
  ∃ u, u < t ∧ Checks (run step s inp u).gainoffDac (gainoffPorts (run step s inp u) (inp u)) ∧
    (∀ v, u < v → v < t →
      ¬ Checks (run step s inp v).gainoffDac (gainoffPorts (run step s inp v) (inp v))) ∧
    (inp u).dacNumbitsSel = false

/-- The 20 bits are sent, or the loop's output fits 18, or the setpoint has been checked
against 18 bits or fits them. -/
def WithinLimit : Prop :=
  (inp t).dacNumbitsSel = true ∨
  ((inp t).digpidEnb = true ∧ Fits (inp t).controlOut) ∨
  ((inp t).digpidEnb = false ∧
    (Checked18 s inp t ∨ Fits (run step s inp t).gainoffDac.dacSetpt))

end Runs

section Runs

variable {s : Regs} {inp : Nat → Ports} {t : Nat}

/-- A checked setpoint still fits when its transfer starts. -/
theorem in18_of_checked (start : s.gainoffDac.done = true → s.gainoffDac.state = .idle)
    (starts : Starts s inp t) (checked : Checked18 s inp t) :
    In18 (run step s inp t).gainoffDac.dacSetpt := by
  obtain ⟨u, before, checks, last, narrow⟩ := checked
  have idle : (run step s inp t).gainoffDac.state = .idle := by
    have done : (run step s inp t).gainoffDac.done = true := starts.2.2
    rw [gainoff_run] at done ⊢
    exact done_idle_run start t done
  rw [gainoff_run] at idle ⊢
  simp only [gainoff_run] at checks last
  rcases in18_run checks narrow before last with due | fits
  · exact absurd (idle.symm.trans due) (by decide)
  · exact fits

/-- In every run from the power-up state, a transfer that starts sends the limited setpoint
exactly when the loop has not left it beyond the converter's bits. -/
theorem word_law_iff_within (inp : Nat → Ports) (t : Nat) (starts : Starts powerUp inp t) :
    WordLaw (run step powerUp inp t) (inp t) ↔ WithinLimit powerUp inp t := by
  rw [wordLaw_iff, WithinLimit]
  apply or_congr_right
  rw [dacSetpt]
  cases loop : (inp t).digpidEnb with
  | true => simp
  | false =>
      simp only [Bool.false_eq_true, if_false, false_and, true_and, false_or]
      constructor
      · exact .inr
      · rintro (checked | fits)
        · exact .inl (in18_of_checked (fun on => absurd on (by decide)) starts checked)
        · exact fits

end Runs

/-- A tick at every clock and a loop output one above the 18 bit range. -/
def loopAbove (loop : Bool) (_ : Nat) : Ports where
  reset := false
  tenkhzTrig := true
  dacNumbitsSel := false
  dacCntrl := ⟨0, false, 0, 0x100000, 0, 0, 0, 0, 0, false, false, 3⟩
  digpidEnb := loop
  controlOut := 131072
  dacRddata := 0
  cordicDout := 0
  fofbDacSetpt := 0

private theorem above_starts (loop : Bool) : Starts powerUp (loopAbove loop) 12 := by
  revert loop
  unfold Starts DacAd5781.Starts
  decide +kernel

theorem loop_off_word : WordLaw (run step powerUp (loopAbove false) 12) (loopAbove false 12) := by
  refine (word_law_iff_within (loopAbove false) 12 (above_starts false)).2 (.inr (.inr ⟨rfl, ?_⟩))
  exact .inr (.inl (by decide +kernel))

/-- With the loop on the converter gets a word of the opposite sign. -/
theorem loop_on_wraps : ¬ ∀ inp t, Starts powerUp inp t →
    WordLaw (run step powerUp inp t) (inp t) := by
  intro lawful
  have word := (lawful (loopAbove true) 12 (above_starts true)).word18 rfl
  exact absurd word (by decide +kernel)

end PscDigpid.Hdl.DacChan
