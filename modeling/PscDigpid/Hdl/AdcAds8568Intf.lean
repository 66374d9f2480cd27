/- Unit: PscDigpid/Hdl/AdcAds8568Intf
   layer: model
   source: src/hw/hdl/adc_ads8568_intf.vhd
   digest: The monitor converters' reader, its counts in each state, and what a clock does. -/

import PscDigpid.Sync.Bits
import PscDigpid.Sync.Ticks

set_option autoImplicit false
set_option relaxedAutoImplicit false

namespace PscDigpid.Hdl.AdcAds8568Intf

open PscDigpid.Sync

inductive State
  | idle | setCnv | waitForNotBusy | waitForMsbValid | clockMsb | sclkHi | sclkLo | done
  deriving DecidableEq

/-- Input ports of `ADC_ADS8568_intf`; `busy` is not read inside. -/
structure Ports where
  reset : Bool
  start : Bool
  sdi : Bool

/-- Registers of `ADC_ADS8568_intf`, which drives no `sdo`. The counts have a range of 0 to 500,
nine bits. -/
structure Regs (dataBits : Nat) where
  presentState : State
  shiftReg : BitVec dataBits
  cnvCount : BitVec 9
  clkCount : BitVec 9
  bitCount : BitVec 9
  cnv : Bool
  nFs : Bool
  sclk : Bool
  dataOut : BitVec dataBits
  dataRdy : Bool

/-- Every register as the device configures it. -/
def powerUp (dataBits : Nat) : Regs dataBits where
  presentState := .idle
  shiftReg := 0
  cnvCount := 0
  clkCount := 0
  bitCount := 0
  cnv := false
  nFs := false
  sclk := false
  dataOut := 0
  dataRdy := false

def cnvPulse : BitVec 9 := 12

def cnvWidth : BitVec 9 := 400

def waitMsb : BitVec 9 := 6

variable {dataBits : Nat} (spiClkDiv : Nat)

/-- A clock of `SPI_CLK_DIV` has been counted. -/
def Divided (s : Regs dataBits) : Prop := s.clkCount.toNat + 1 = spiClkDiv

instance (s : Regs dataBits) : Decidable (Divided spiClkDiv s) :=
  inferInstanceAs (Decidable (_ = _))

/-- One rising clock edge. -/
def step (s : Regs dataBits) (i : Ports) : Regs dataBits :=
  if i.reset then
    { s with
      cnvCount := 0
      clkCount := 0
      bitCount := 0
      shiftReg := 0
      dataOut := 0
      dataRdy := false
      cnv := false
      presentState := .idle }
  else
    match s.presentState with
    | .idle =>
        { s with
          presentState := if i.start then .setCnv else .idle
          nFs := true
          sclk := true
          dataRdy := false }
    | .setCnv =>
        if s.cnvCount = cnvPulse then
          { s with cnv := false, cnvCount := 0, presentState := .waitForNotBusy }
        else { s with cnv := true, cnvCount := s.cnvCount + 1 }
    | .waitForNotBusy =>
        if s.cnvCount = cnvWidth then
          { s with cnvCount := 0, nFs := false, presentState := .waitForMsbValid }
        else { s with cnvCount := s.cnvCount + 1 }
    | .waitForMsbValid =>
        -- the count is left as it is, and the next conversion's pulse starts from it
        if s.cnvCount = waitMsb then
          { s with
            sclk := false
            shiftReg := s.shiftReg.shiftConcat i.sdi
            presentState := .clockMsb }
        else { s with cnvCount := s.cnvCount + 1 }
    | .clockMsb =>
        if Divided spiClkDiv s then { s with clkCount := 0, sclk := true, presentState := .sclkHi }
        else { s with clkCount := s.clkCount + 1, sclk := false }
    | .sclkHi =>
        if Divided spiClkDiv s then
          { s with
            sclk := false
            clkCount := 0
            bitCount := s.bitCount + 1
            shiftReg := s.shiftReg.shiftConcat i.sdi
            presentState := .sclkLo }
        else { s with clkCount := s.clkCount + 1, sclk := true }
    | .sclkLo =>
        if s.bitCount.toNat + 1 = dataBits then { s with bitCount := 0, presentState := .done }
        else if Divided spiClkDiv s then
          { s with clkCount := 0, sclk := true, presentState := .sclkHi }
        else { s with clkCount := s.clkCount + 1, sclk := false }
    | .done => { s with dataOut := s.shiftReg, dataRdy := true, presentState := .idle }

/-- The shift register takes a bit at this clock edge. -/
def shifts (s : Regs dataBits) : Bool :=
  match s.presentState with
  | .waitForMsbValid => s.cnvCount == waitMsb
  | .sclkHi => decide (Divided spiClkDiv s)
  | _ => false

/-- The counts that are found in each state. -/
def Counting (s : Regs dataBits) : Prop :=
  match s.presentState with
  | .idle => (s.cnvCount = 0 ∨ s.cnvCount = waitMsb) ∧ s.clkCount = 0 ∧ s.bitCount = 0
  | .setCnv => s.cnvCount.toNat ≤ 12 ∧ s.clkCount = 0 ∧ s.bitCount = 0
  | .waitForNotBusy => s.cnvCount.toNat ≤ 400 ∧ s.clkCount = 0 ∧ s.bitCount = 0
  | .waitForMsbValid => s.cnvCount.toNat ≤ 6 ∧ s.clkCount = 0 ∧ s.bitCount = 0
  | .clockMsb => s.cnvCount = waitMsb ∧ s.clkCount.toNat < spiClkDiv ∧ s.bitCount = 0
  | .sclkHi =>
      s.cnvCount = waitMsb ∧ s.clkCount.toNat < spiClkDiv ∧ s.bitCount.toNat + 1 < dataBits
  | .sclkLo =>
      s.cnvCount = waitMsb ∧ s.clkCount.toNat < spiClkDiv ∧ s.bitCount.toNat + 1 ≤ dataBits ∧
        (s.bitCount.toNat + 1 = dataBits → s.clkCount = 0)
  | .done => s.cnvCount = waitMsb ∧ s.clkCount = 0 ∧ s.bitCount = 0

/-- How many bits of its conversion a state has. -/
def taken (s : Regs dataBits) : Nat :=
  match s.presentState with
  | .clockMsb => 1
  | .sclkHi | .sclkLo => s.bitCount.toNat + 1
  | .done => dataBits
  | _ => 0

/-- Clocks to the end of a conversion from the beginning of a high clock, with so many bits after
the first. -/
def clocksFrom (dataBits spiClkDiv bits : Nat) : Nat :=
  spiClkDiv + (dataBits - 2 - bits) * (2 * spiClkDiv) + 1

/-- Clocks to the end of the conversion that is under way. -/
def remaining (s : Regs dataBits) : Nat :=
  match s.presentState with
  | .idle | .done => 0
  | .setCnv => 13 - s.cnvCount.toNat + 408 + (spiClkDiv + clocksFrom dataBits spiClkDiv 0)
  | .waitForNotBusy => 401 - s.cnvCount.toNat + 7 + (spiClkDiv + clocksFrom dataBits spiClkDiv 0)
  | .waitForMsbValid => 7 - s.cnvCount.toNat + (spiClkDiv + clocksFrom dataBits spiClkDiv 0)
  | .clockMsb => spiClkDiv - s.clkCount.toNat + clocksFrom dataBits spiClkDiv 0
  | .sclkHi => clocksFrom dataBits spiClkDiv s.bitCount.toNat - s.clkCount.toNat
  | .sclkLo =>
      if s.bitCount.toNat + 1 = dataBits then 1
      else spiClkDiv - s.clkCount.toNat + clocksFrom dataBits spiClkDiv s.bitCount.toNat

section Step

variable {spiClkDiv} {s : Regs dataBits} {i : Ports}

theorem count_up {x : BitVec 9} (small : x.toNat < 511) : (x + 1).toNat = x.toNat + 1 :=
  BitVec.toNat_add_of_lt (y := 1) (Nat.succ_lt_succ small)

theorem count_below {x last : BitVec 9} (le : x.toNat ≤ last.toNat) (apart : x ≠ last) :
    x.toNat < last.toNat :=
  Nat.lt_of_le_of_ne le fun same => apart (BitVec.eq_of_toNat_eq same)

/-- A bit takes a high and a low clock. -/
theorem clocksFrom_succ {bits : Nat} (more : bits + 2 < dataBits) :
    clocksFrom dataBits spiClkDiv bits =
      2 * spiClkDiv + clocksFrom dataBits spiClkDiv (bits + 1) := by
  have left : dataBits - 2 - bits = dataBits - 2 - (bits + 1) + 1 := by omega
  rw [clocksFrom, left, Nat.succ_mul, clocksFrom]
  omega

theorem clocksFrom_last {bits : Nat} (last : dataBits = bits + 2) :
    clocksFrom dataBits spiClkDiv bits = spiClkDiv + 1 := by
  rw [clocksFrom, last, Nat.add_sub_cancel, Nat.sub_self, Nat.zero_mul]

/-- What a clock does to a conversion under way. -/
structure Advances (spiClkDiv : Nat) (s s' : Regs dataBits) : Prop where
  busy : s'.presentState ≠ .idle
  counting : Counting spiClkDiv s'
  closer : remaining spiClkDiv s' < remaining spiClkDiv s
  takes : taken s' = taken s + (shifts spiClkDiv s).toNat

/-- Generics with which the counts stay in their range. -/
structure Generics (dataBits spiClkDiv : Nat) : Prop where
  two : 2 ≤ dataBits
  wide : dataBits ≤ 500
  one : 1 ≤ spiClkDiv
  slow : spiClkDiv ≤ 500

theorem step_setCnv (running : i.reset = false) (state : s.presentState = .setCnv)
    (counting : Counting spiClkDiv s) : Advances spiClkDiv s (step spiClkDiv s i) := by
  simp only [Counting, state] at counting
  obtain ⟨few, clk, bit⟩ := counting
  by_cases last : s.cnvCount = cnvPulse
  · have full : s.cnvCount.toNat = 12 := congrArg BitVec.toNat last
    constructor
    all_goals simp only [step, running, state, if_pos last, Counting, remaining, taken, shifts,
      Bool.false_eq_true, if_false]
    · simp
    · exact ⟨Nat.zero_le 400, clk, bit⟩
    · change 401 - 0 + 7 + _ < _
      omega
    · rfl
  · have below : s.cnvCount.toNat < 12 := count_below few last
    have up := count_up (x := s.cnvCount) (by omega)
    constructor
    all_goals simp only [step, running, state, if_neg last, Counting, remaining, taken, shifts,
      Bool.false_eq_true, if_false, up]
    · simp
    · exact ⟨below, clk, bit⟩
    · omega
    · rfl

theorem step_waitForNotBusy (running : i.reset = false) (state : s.presentState = .waitForNotBusy)
    (counting : Counting spiClkDiv s) : Advances spiClkDiv s (step spiClkDiv s i) := by
  simp only [Counting, state] at counting
  obtain ⟨few, clk, bit⟩ := counting
  by_cases last : s.cnvCount = cnvWidth
  · have full : s.cnvCount.toNat = 400 := congrArg BitVec.toNat last
    constructor
    all_goals simp only [step, running, state, if_pos last, Counting, remaining, taken, shifts,
      Bool.false_eq_true, if_false]
    · simp
    · exact ⟨Nat.zero_le 6, clk, bit⟩
    · change 7 - 0 + _ < _
      omega
    · rfl
  · have below : s.cnvCount.toNat < 400 := count_below few last
    have up := count_up (x := s.cnvCount) (by omega)
    constructor
    all_goals simp only [step, running, state, if_neg last, Counting, remaining, taken, shifts,
      Bool.false_eq_true, if_false, up]
    · simp
    · exact ⟨below, clk, bit⟩
    · omega
    · rfl

/-- The first bit is taken as the count ends. -/
theorem step_waitForMsbValid (generics : Generics dataBits spiClkDiv) (running : i.reset = false)
    (state : s.presentState = .waitForMsbValid) (counting : Counting spiClkDiv s) :
    Advances spiClkDiv s (step spiClkDiv s i) := by
  simp only [Counting, state] at counting
  obtain ⟨few, clk, bit⟩ := counting
  by_cases last : s.cnvCount = waitMsb
  · have full : s.cnvCount.toNat = 6 := congrArg BitVec.toNat last
    constructor
    all_goals simp only [step, running, state, if_pos last, Counting, remaining, taken, shifts,
      Bool.false_eq_true, if_false, clk, bit]
    · simp
    · exact ⟨last, generics.one, trivial⟩
    · change spiClkDiv - 0 + _ < _
      omega
    · rw [beq_iff_eq.2 last]
      rfl
  · have below : s.cnvCount.toNat < 6 := count_below few last
    have up := count_up (x := s.cnvCount) (by omega)
    constructor
    all_goals simp only [step, running, state, if_neg last, Counting, remaining, taken, shifts,
      Bool.false_eq_true, if_false, up]
    · simp
    · exact ⟨below, clk, bit⟩
    · omega
    · rw [beq_false_of_ne last]
      rfl

theorem step_clockMsb (generics : Generics dataBits spiClkDiv) (running : i.reset = false)
    (state : s.presentState = .clockMsb) (counting : Counting spiClkDiv s) :
    Advances spiClkDiv s (step spiClkDiv s i) := by
  obtain ⟨two, wide, one, slow⟩ := generics
  simp only [Counting, state] at counting
  obtain ⟨cnv, few, bit⟩ := counting
  by_cases last : Divided spiClkDiv s
  · constructor
    all_goals simp only [step, running, state, if_pos last, Counting, remaining, taken, shifts,
      Bool.false_eq_true, if_false, bit]
    · simp
    · exact ⟨cnv, one, two⟩
    · change clocksFrom dataBits spiClkDiv 0 - 0 < _
      omega
    · rfl
  · have more : s.clkCount.toNat + 1 < spiClkDiv := Nat.lt_of_le_of_ne few last
    have up := count_up (x := s.clkCount) (by omega)
    constructor
    all_goals simp only [step, running, state, if_neg last, Counting, remaining, taken, shifts,
      Bool.false_eq_true, if_false, up]
    · simp
    · exact ⟨cnv, more, bit⟩
    · omega
    · rfl

/-- Every other bit is taken as a high clock ends. -/
theorem step_sclkHi (generics : Generics dataBits spiClkDiv) (running : i.reset = false)
    (state : s.presentState = .sclkHi) (counting : Counting spiClkDiv s) :
    Advances spiClkDiv s (step spiClkDiv s i) := by
  obtain ⟨two, wide, one, slow⟩ := generics
  simp only [Counting, state] at counting
  obtain ⟨cnv, few, room⟩ := counting
  by_cases last : Divided spiClkDiv s
  · have up := count_up (x := s.bitCount) (by omega)
    have full : s.clkCount.toNat + 1 = spiClkDiv := last
    constructor
    all_goals simp only [step, running, state, if_pos last, Counting, remaining, taken, shifts,
      Bool.false_eq_true, if_false, up]
    · simp
    · exact ⟨cnv, one, room, fun _ => trivial⟩
    · split_ifs with whole
      · rw [clocksFrom_last whole.symm]
        omega
      · have rest := @clocksFrom_succ dataBits spiClkDiv s.bitCount.toNat (by omega)
        change spiClkDiv - 0 + _ < _
        omega
    · rw [decide_eq_true last]
      rfl
  · have more : s.clkCount.toNat + 1 < spiClkDiv := Nat.lt_of_le_of_ne few last
    have up := count_up (x := s.clkCount) (by omega)
    constructor
    all_goals simp only [step, running, state, if_neg last, Counting, remaining, taken, shifts,
      Bool.false_eq_true, if_false, up]
    · simp
    · exact ⟨cnv, more, room⟩
    · rw [clocksFrom]
      omega
    · rw [decide_eq_false last]
      rfl

theorem step_sclkLo (generics : Generics dataBits spiClkDiv) (running : i.reset = false)
    (state : s.presentState = .sclkLo) (counting : Counting spiClkDiv s) :
    Advances spiClkDiv s (step spiClkDiv s i) := by
  obtain ⟨two, wide, one, slow⟩ := generics
  simp only [Counting, state] at counting
  obtain ⟨cnv, few, room, cleared⟩ := counting
  by_cases whole : s.bitCount.toNat + 1 = dataBits
  · constructor
    all_goals simp only [step, running, state, if_pos whole, Counting, remaining, taken, shifts,
      Bool.false_eq_true, if_false]
    · simp
    · exact ⟨cnv, cleared whole, trivial⟩
    · exact Nat.one_pos
    · exact whole.symm
  · by_cases last : Divided spiClkDiv s
    · constructor
      all_goals simp only [step, running, state, if_neg whole, if_pos last, Counting, remaining,
        taken, shifts, Bool.false_eq_true, if_false]
      · simp
      · exact ⟨cnv, one, Nat.lt_of_le_of_ne room whole⟩
      · change clocksFrom dataBits spiClkDiv _ - 0 < _
        omega
      · rfl
    · have more : s.clkCount.toNat + 1 < spiClkDiv := Nat.lt_of_le_of_ne few last
      have up := count_up (x := s.clkCount) (by omega)
      constructor
      all_goals simp only [step, running, state, if_neg whole, if_neg last, Counting, remaining,
        taken, shifts, Bool.false_eq_true, if_false, up]
      · simp
      · exact ⟨cnv, more, room, fun same => absurd same whole⟩
      · omega
      · rfl

theorem busy_step (generics : Generics dataBits spiClkDiv) (running : i.reset = false)
    (busy : s.presentState ≠ .idle) (unfinished : s.presentState ≠ .done)
    (counting : Counting spiClkDiv s) : Advances spiClkDiv s (step spiClkDiv s i) := by
  cases state : s.presentState with
  | idle => exact absurd state busy
  | done => exact absurd state unfinished
  | setCnv => exact step_setCnv running state counting
  | waitForNotBusy => exact step_waitForNotBusy running state counting
  | waitForMsbValid => exact step_waitForMsbValid generics running state counting
  | clockMsb => exact step_clockMsb generics running state counting
  | sclkHi => exact step_sclkHi generics running state counting
  | sclkLo => exact step_sclkLo generics running state counting

end Step

end PscDigpid.Hdl.AdcAds8568Intf
