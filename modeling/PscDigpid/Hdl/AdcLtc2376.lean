/- Unit: PscDigpid/Hdl/AdcLtc2376
   layer: model
   source: src/hw/hdl/adc_ltc2376.vhd
   digest: The DCCT converter's reader, how long a conversion takes, and which starts it sees. -/

import PscDigpid.Sync.Bits
import PscDigpid.Sync.Ticks

set_option autoImplicit false
set_option relaxedAutoImplicit false

namespace PscDigpid.Hdl.AdcLtc2376

open PscDigpid.Sync

inductive State
  | idle | setCnv | waitForNotBusy | sclkHi | sclkLo | done
  deriving DecidableEq

/-- Input ports of `adc_ltc2376`; `busy` is not read inside. -/
structure Ports where
  reset : Bool
  start : Bool
  resolution : Bool
  sdi : Bool

/-- Registers of `adc_ltc2376`. The counts have a range of 0 to 500, nine bits. -/
structure Regs where
  state : State
  shiftReg : BitVec 40
  cnvCount : BitVec 9
  bitCount : BitVec 9
  clkEnb : Bool
  clkCnt : BitVec 8
  cnv : Bool
  sclk : Bool
  dcct1 : BitVec 20
  dcct2 : BitVec 20
  dataRdy : Bool

/-- Every register as the device configures it. -/
def powerUp : Regs where
  state := .idle
  shiftReg := 0
  cnvCount := 0
  bitCount := 0
  clkEnb := false
  clkCnt := 0
  cnv := false
  sclk := false
  dcct1 := 0
  dcct2 := 0
  dataRdy := false

def cnvPulse : BitVec 9 := 10

def cnvWidth : BitVec 9 := 51

def numBits (i : Ports) : BitVec 9 := if i.resolution then 40 else 36

section Processes

variable (s : Regs) (i : Ports) (next : Regs)

/-- The reader's states, one turn for each clock enable. -/
def readerCase : Regs :=
  match s.state with
  | .idle =>
      { next with
        state := if i.start then .setCnv else .idle
        bitCount := numBits i - 1
        sclk := false
        dataRdy := false }
  | .setCnv =>
      if s.cnvCount = cnvPulse then
        { next with cnv := false, cnvCount := 0, state := .waitForNotBusy }
      else { next with cnv := true, cnvCount := s.cnvCount + 1 }
  | .waitForNotBusy =>
      if s.cnvCount = cnvWidth then { next with cnvCount := 0, state := .sclkHi }
      else { next with cnvCount := s.cnvCount + 1 }
  | .sclkHi =>
      { next with
        shiftReg := setBit s.shiftReg s.bitCount.toNat i.sdi
        state := .sclkLo
        sclk := true }
  | .sclkLo =>
      -- after the last bit the count goes below zero and is cleared in DONE
      { next with
        sclk := false
        bitCount := s.bitCount - 1
        state := if s.bitCount = 0 then .done else .sclkHi }
  | .done =>
      { next with
        dcct2 :=
          if i.resolution then s.shiftReg.extractLsb' 20 20
          else (s.shiftReg.extractLsb' 18 18).signExtend 20
        dcct1 :=
          if i.resolution then s.shiftReg.extractLsb' 0 20
          else (s.shiftReg.extractLsb' 0 18).signExtend 20
        bitCount := 0
        dataRdy := true
        state := .idle }

def reader : Regs :=
  if i.reset then
    { next with
      cnvCount := 0
      bitCount := 0
      shiftReg := 0
      dcct1 := 0
      dcct2 := 0
      dataRdy := false
      cnv := false
      state := .idle }
  else if s.clkEnb then readerCase s i next
  else next

/-- The clock enable, at one clock in five. -/
def clkDivide : Regs :=
  if i.reset then { next with clkCnt := 0, clkEnb := false }
  else if s.clkCnt = 4#8 then { next with clkCnt := 0, clkEnb := true }
  else { next with clkCnt := s.clkCnt + 1, clkEnb := false }

end Processes

/-- One rising clock edge. -/
def step (s : Regs) (i : Ports) : Regs := clkDivide s i (reader s i s)

/-- Clock enables a conversion still takes, with `bits` bits to read. -/
def remaining (bits : Nat) (s : Regs) : Nat :=
  match s.state with
  | .idle => 0
  | .setCnv => 64 + 2 * bits - s.cnvCount.toNat
  | .waitForNotBusy => 53 + 2 * bits - s.cnvCount.toNat
  | .sclkHi => 2 * s.bitCount.toNat + 3
  | .sclkLo => 2 * s.bitCount.toNat + 2
  | .done => 1

/-- The counts a conversion of `bits` bits can show in each state. -/
def Counting (bits : Nat) (s : Regs) : Prop :=
  match s.state with
  | .idle => s.cnvCount = 0
  | .setCnv => s.cnvCount.toNat ≤ 10 ∧ s.bitCount.toNat + 1 = bits
  | .waitForNotBusy => s.cnvCount.toNat ≤ 51 ∧ s.bitCount.toNat + 1 = bits
  | .sclkHi => s.cnvCount = 0 ∧ s.bitCount.toNat + 1 ≤ bits
  | .sclkLo => s.cnvCount = 0 ∧ s.bitCount.toNat + 1 ≤ bits
  | .done => s.cnvCount = 0

section Step

variable {s : Regs} {i : Ports} {bits : Nat}

theorem remaining_eq_zero (counting : Counting bits s) :
    remaining bits s = 0 ↔ s.state = .idle := by
  unfold Counting at counting
  unfold remaining
  cases state : s.state <;> simp only [state] at counting ⊢ <;> simp <;> omega

/-- The divider leaves the reader's state and counts alone. -/
theorem step_fields : (step s i).state = (reader s i s).state ∧
    (step s i).cnvCount = (reader s i s).cnvCount ∧
    (step s i).bitCount = (reader s i s).bitCount := by
  unfold step clkDivide
  split_ifs <;> exact ⟨rfl, rfl, rfl⟩

private theorem remaining_step : remaining bits (step s i) = remaining bits (reader s i s) := by
  obtain ⟨state, cnv, bit⟩ := step_fields (s := s) (i := i)
  simp only [remaining, state, cnv, bit]

private theorem counting_step : Counting bits (step s i) ↔ Counting bits (reader s i s) := by
  obtain ⟨state, cnv, bit⟩ := step_fields (s := s) (i := i)
  simp only [Counting, state, cnv, bit]

/-- A clock without clock enable leaves the reader where it is. -/
theorem disabled_step (bits : Nat) (running : i.reset = false) (disabled : s.clkEnb = false) :
    (step s i).state = s.state ∧ remaining bits (step s i) = remaining bits s ∧
      (Counting bits (step s i) ↔ Counting bits s) := by
  have same : reader s i s = s := by simp [reader, running, disabled]
  rw [remaining_step, counting_step, step_fields.1, same]
  exact ⟨rfl, rfl, Iff.rfl⟩

/-- At a clock enable an idle reader starts a conversion exactly on a start. -/
theorem idle_step (running : i.reset = false) (enabled : s.clkEnb = true) (idle : s.state = .idle)
    (counting : Counting bits s) (width : (numBits i).toNat = bits) :
    (step s i).state = (if i.start then .setCnv else .idle) ∧
      remaining bits (step s i) = (if i.start then 64 + 2 * bits else 0) ∧
      Counting bits (step s i) := by
  have turn : reader s i s = readerCase s i s := by simp [reader, running, enabled]
  have zero : s.cnvCount = 0 := by simpa [Counting, idle] using counting
  have last : (numBits i - 1).toNat + 1 = bits := by
    rw [← width]
    unfold numBits
    cases i.resolution <;> rfl
  rw [remaining_step, counting_step, step_fields.1, turn]
  cases start : i.start with
  | false => simp [readerCase, idle, start, remaining, Counting, zero]
  | true =>
      simp only [readerCase, idle, start, remaining, Counting, zero, if_true]
      exact ⟨trivial, rfl, Nat.zero_le 10, last⟩

theorem count_up {x : BitVec 9} (small : x.toNat < 511) : (x + 1).toNat = x.toNat + 1 := by
  rw [BitVec.toNat_add]
  change (x.toNat + 1) % 512 = x.toNat + 1
  omega

theorem count_down {x : BitVec 9} (nonzero : x ≠ 0) : (x - 1).toNat + 1 = x.toNat := by
  have positive : x.toNat ≠ 0 := fun zero => nonzero (BitVec.eq_of_toNat_eq zero)
  rw [BitVec.toNat_sub]
  change (512 - 1 + x.toNat) % 512 + 1 = x.toNat
  have bound : x.toNat < 512 := x.isLt
  omega

private theorem count_below {x last : BitVec 9} (le : x.toNat ≤ last.toNat) (apart : x ≠ last) :
    x.toNat < last.toNat :=
  Nat.lt_of_le_of_ne le fun same => apart (BitVec.eq_of_toNat_eq same)

/-- At a clock enable a conversion under way comes one turn closer to its end. -/
theorem busy_step (running : i.reset = false) (enabled : s.clkEnb = true) (busy : s.state ≠ .idle)
    (counting : Counting bits s) :
    remaining bits (step s i) + 1 = remaining bits s ∧ Counting bits (step s i) := by
  have turn : reader s i s = readerCase s i s := by simp [reader, running, enabled]
  rw [remaining_step, counting_step, turn]
  cases state : s.state with
  | idle => exact absurd state busy
  | setCnv =>
      simp only [Counting, state] at counting
      by_cases last : s.cnvCount = cnvPulse
      · have ten : s.cnvCount.toNat = 10 := congrArg BitVec.toNat last
        simp only [readerCase, state, remaining, Counting, if_pos last, ten]
        refine ⟨?_, Nat.zero_le 51, counting.2⟩
        change 53 + 2 * bits - 0 + 1 = 64 + 2 * bits - 10
        omega
      · have below := count_below counting.1 last
        change s.cnvCount.toNat < 10 at below
        simp only [readerCase, state, remaining, Counting, if_neg last]
        rw [count_up (by omega)]
        exact ⟨by omega, by omega, counting.2⟩
  | waitForNotBusy =>
      simp only [Counting, state] at counting
      by_cases last : s.cnvCount = cnvWidth
      · have full : s.cnvCount.toNat = 51 := congrArg BitVec.toNat last
        simp only [readerCase, state, remaining, Counting, if_pos last, full]
        exact ⟨by omega, trivial, by omega⟩
      · have below := count_below counting.1 last
        change s.cnvCount.toNat < 51 at below
        simp only [readerCase, state, remaining, Counting, if_neg last]
        rw [count_up (by omega)]
        exact ⟨by omega, by omega, counting.2⟩
  | sclkHi =>
      simp only [Counting, state] at counting
      simp only [readerCase, state, remaining, Counting]
      exact ⟨trivial, counting⟩
  | sclkLo =>
      simp only [Counting, state] at counting
      by_cases last : s.bitCount = 0
      · simp [readerCase, state, remaining, Counting, last, counting]
      · have down := count_down last
        simp only [readerCase, state, remaining, Counting, if_neg last]
        exact ⟨by omega, counting.1, by omega⟩
  | done =>
      simp only [Counting, state] at counting
      simp [readerCase, state, remaining, Counting, counting]

end Step

/-- The clock after a reset edge has an idle reader and an idle divider. -/
theorem reset_step (s : Regs) {i : Ports} (reset : i.reset = true) :
    (step s i).clkCnt = 0 ∧ (step s i).clkEnb = false ∧ (step s i).state = .idle ∧
      ∀ bits, Counting bits (step s i) := by
  simp [step, clkDivide, reader, reset, Counting]

private theorem clkDivide_step (s : Regs) {i : Ports} (running : i.reset = false) :
    (step s i).clkCnt = (if s.clkCnt = 4#8 then 0 else s.clkCnt + 1) ∧
      (step s i).clkEnb = decide (s.clkCnt = 4#8) := by
  by_cases full : s.clkCnt = 4#8 <;> simp [step, clkDivide, running, full]

section Runs

variable {s : Regs} {i : Ports} {inp : Nat → Ports} {bits : Nat}

/-- From reset the clock enable is high at every fifth clock. -/
theorem clkEnb_run (reset : i.reset = true) (running : ∀ t, (inp t).reset = false) (t : Nat) :
    (run step (step s i) inp t).clkEnb = decide (0 < t ∧ t % 5 = 0) := by
  have full (u : Nat) : (run step (step s i) inp u).clkCnt = 4#8 ↔ u % 5 = 4 :=
    counter_full (fun u => (run step (step s i) inp u).clkCnt) 4#8 (reset_step s reset).1
      (fun u => (clkDivide_step _ (running u)).1) u
  cases t with
  | zero => exact (reset_step s reset).2.1
  | succ t =>
      rw [run_succ, (clkDivide_step _ (running t)).2, decide_eq_decide, full]
      omega

/-- A conversion that is under way goes back to some start, and has come closer
to its end with every clock enable since. -/
private theorem since_start (reset : i.reset = true) (running : ∀ t, (inp t).reset = false)
    (width : ∀ t, (numBits (inp t)).toNat = bits) (small : bits ≤ 40) (t : Nat) :
    Counting bits (run step (step s i) inp t) ∧
      (remaining bits (run step (step s i) inp t) = 0 ∨ ∃ u, u < t ∧ (inp u).start = true ∧
        remaining bits (run step (step s i) inp t) + (t - 1) / 5 ≤ 144 + u / 5) := by
  induction t with
  | zero =>
      obtain ⟨-, -, idle, counting⟩ := reset_step s reset
      exact ⟨counting bits, Or.inl ((remaining_eq_zero (counting bits)).2 idle)⟩
  | succ t ih =>
      obtain ⟨counting, left⟩ := ih
      have phase := clkEnb_run (s := s) reset running t
      rw [run_succ]
      cases enabled : (run step (step s i) inp t).clkEnb with
      | false =>
          obtain ⟨-, same, kept⟩ := disabled_step bits (running t) enabled
          rw [enabled, eq_comm, decide_eq_false_iff_not] at phase
          rw [same]
          refine ⟨kept.2 counting, ?_⟩
          rcases left with none | ⟨u, before, start, left⟩
          · exact Or.inl none
          · exact Or.inr ⟨u, by omega, start, by omega⟩
      | true =>
          rw [enabled, eq_comm, decide_eq_true_eq] at phase
          by_cases idle : (run step (step s i) inp t).state = .idle
          · obtain ⟨-, next, kept⟩ := idle_step (running t) enabled idle counting (width t)
            refine ⟨kept, ?_⟩
            rw [next]
            cases start : (inp t).start with
            | false => exact Or.inl rfl
            | true => exact Or.inr ⟨t, Nat.lt_succ_self t, start, by simp; omega⟩
          · obtain ⟨less, kept⟩ := busy_step (running t) enabled idle counting
            refine ⟨kept, ?_⟩
            rcases left with none | ⟨u, before, start, left⟩
            · omega
            · exact Or.inr ⟨u, by omega, start, by omega⟩

/-- Under starts that leave time for a conversion the reader is idle at each start. -/
theorem idle_at_start (reset : i.reset = true) (running : ∀ t, (inp t).reset = false)
    (width : ∀ t, (numBits (inp t)).toNat = bits) (small : bits ≤ 40)
    (spaced : ∀ t u, (inp t).start = true → (inp u).start = true → t < u → t + 726 ≤ u)
    {t : Nat} (start : (inp t).start = true) : (run step (step s i) inp t).state = .idle := by
  obtain ⟨counting, left⟩ := since_start (s := s) reset running width small t
  rcases left with none | ⟨u, before, earlier, left⟩
  · exact (remaining_eq_zero counting).1 none
  · have apart := spaced u t earlier start before
    omega

/-- An idle reader leaves for a conversion exactly when a start falls on a clock enable. -/
theorem starts_iff (reset : i.reset = true) (running : ∀ t, (inp t).reset = false)
    (width : ∀ t, (numBits (inp t)).toNat = bits) (small : bits ≤ 40) {t : Nat}
    (idle : (run step (step s i) inp t).state = .idle) :
    (run step (step s i) inp (t + 1)).state = .setCnv ↔
      (inp t).start = true ∧ 0 < t ∧ t % 5 = 0 := by
  obtain ⟨counting, -⟩ := since_start (s := s) reset running width small t
  have phase := clkEnb_run (s := s) reset running t
  rw [run_succ]
  cases enabled : (run step (step s i) inp t).clkEnb with
  | false =>
      rw [enabled, eq_comm, decide_eq_false_iff_not] at phase
      rw [(disabled_step bits (running t) enabled).1, idle]
      simp [phase]
  | true =>
      rw [enabled, eq_comm, decide_eq_true_eq] at phase
      rw [(idle_step (running t) enabled idle counting (width t)).1]
      cases start : (inp t).start <;> simp [phase]

end Runs

end PscDigpid.Hdl.AdcLtc2376
