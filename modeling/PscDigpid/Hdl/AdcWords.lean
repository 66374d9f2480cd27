/- Unit: PscDigpid/Hdl/AdcWords
   layer: result
   source: src/hw/hdl/adc_ltc2376.vhd (IDLE to DONE)
   digest: The bits that a conversion reads, and the two words it publishes. -/

import PscDigpid.Hdl.AdcLtc2376

set_option autoImplicit false
set_option relaxedAutoImplicit false

namespace PscDigpid.Hdl.AdcLtc2376

open PscDigpid.Sync

/-- Bits of a word of one converter. -/
def wordBits (resolution : Bool) : Nat := if resolution then 20 else 18

section Conversion

variable (s : Regs) (inp : Nat → Ports)

/-- A bit is written to the shift register at this clock edge. -/
def samples (t : Nat) : Bool :=
  !(inp t).reset && (run step s inp t).clkEnb && decide ((run step s inp t).state = .sclkHi)

/-- A conversion leaves `IDLE` at this clock edge. -/
def Leaves (a : Nat) : Prop :=
  (run step s inp a).state = .idle ∧ (run step s inp (a + 1)).state ≠ .idle

/-- The conversion that left `IDLE` at clock `a` is not back yet at clock `t`. -/
def UnderWay (a t : Nat) : Prop := ∀ u, a < u → u ≤ t → (run step s inp u).state ≠ .idle

/-- The resolution stays, and no reset comes, while the conversion is under way. -/
def Undisturbed (a : Nat) : Prop :=
  ∀ t, a ≤ t → UnderWay s inp a t →
    (inp t).reset = false ∧ (inp t).resolution = (inp a).resolution

/-- The bits read from clock `a` on, before clock `b`. -/
def received (a b : Nat) : List Bool := (ticksFrom (samples s inp) a b).map fun t => (inp t).sdi

/-- The conversion that left `IDLE` at clock `a` ends at clock `b`: it has read two words, and
publishes the first as `dcct2` and the second as `dcct1`, the most significant bit first. -/
structure Publishes (a b : Nat) : Prop where
  ends : UnderWay s inp a b ∧ (run step s inp b).state = .done ∧
    (run step s inp (b + 1)).state = .idle
  count : (received s inp a b).length = 2 * wordBits (inp a).resolution
  dcct2 : (run step s inp (b + 1)).dcct2 =
    (BitVec.ofBoolListBE
      ((received s inp a b).take (wordBits (inp a).resolution))).signExtend 20
  dcct1 : (run step s inp (b + 1)).dcct1 =
    (BitVec.ofBoolListBE
      ((received s inp a b).drop (wordBits (inp a).resolution))).signExtend 20

end Conversion

/-- What every clock after a reset finds. -/
structure Sound (s : Regs) : Prop where
  tick : s.clkEnb = true → s.clkCnt = 0
  rests : s.state ≠ .setCnv → s.state ≠ .waitForNotBusy → s.cnvCount = 0
  index : s.state ≠ .idle → s.state ≠ .done → s.bitCount.toNat < 40

section Step

variable {s : Regs} {i : Ports}

theorem numBits_pred (i : Ports) : (numBits i - 1).toNat + 1 = 2 * wordBits i.resolution := by
  rw [numBits, wordBits]
  cases i.resolution <;> rfl

theorem numBits_small (i : Ports) : (numBits i - 1).toNat < 40 := by
  rw [numBits]
  cases i.resolution <;> decide

/-- A count below its last value goes on. -/
theorem count_ne {x last : BitVec 9} {k : Nat} (count : x.toNat = k) (below : k < last.toNat) :
    x ≠ last := by
  rintro rfl
  exact Nat.ne_of_lt below count.symm

theorem step_tick : (step s i).clkEnb = true → (step s i).clkCnt = 0 := by
  simp only [step, clkDivide]
  split_ifs <;> simp

/-- At a clock enable the registers take the reader's turn. -/
theorem step_enabled (running : i.reset = false) (enabled : s.clkEnb = true) :
    (step s i).state = (readerCase s i s).state ∧ (step s i).dcct2 = (readerCase s i s).dcct2 ∧
      (step s i).dcct1 = (readerCase s i s).dcct1 := by
  rw [step, reader, running, if_neg Bool.false_ne_true, enabled, if_pos rfl, clkDivide]
  split_ifs <;> exact ⟨rfl, rfl, rfl⟩

theorem sound_reset (reset : i.reset = true) : Sound (step s i) := by
  obtain ⟨_, _, idle, counting⟩ := reset_step s reset
  have zero : (step s i).cnvCount = 0 := by
    have rest := counting 40
    rw [Counting, idle] at rest
    exact rest
  exact ⟨step_tick, fun _ _ => zero, fun busy => absurd idle busy⟩

/-- A turn of the reader keeps the counts. -/
theorem Sound.turn (sound : Sound s) :
    ((readerCase s i s).state ≠ .setCnv → (readerCase s i s).state ≠ .waitForNotBusy →
      (readerCase s i s).cnvCount = 0) ∧
    ((readerCase s i s).state ≠ .idle → (readerCase s i s).state ≠ .done →
      (readerCase s i s).bitCount.toNat < 40) := by
  obtain ⟨_, rests, index⟩ := sound
  cases state : s.state with
  | idle =>
    have zero := rests (by simp [state]) (by simp [state])
    simp only [readerCase, state]
    exact ⟨fun _ _ => zero, fun _ _ => numBits_small i⟩
  | setCnv =>
    have small := index (by simp [state]) (by simp [state])
    simp only [readerCase, state]
    split_ifs
    · exact ⟨fun _ wait => absurd rfl wait, fun _ _ => small⟩
    · exact ⟨fun pulse _ => absurd rfl pulse, fun _ _ => small⟩
  | waitForNotBusy =>
    have small := index (by simp [state]) (by simp [state])
    simp only [readerCase, state]
    split_ifs
    · exact ⟨fun _ _ => rfl, fun _ _ => small⟩
    · exact ⟨fun _ wait => absurd rfl wait, fun _ _ => small⟩
  | sclkHi =>
    have zero := rests (by simp [state]) (by simp [state])
    have small := index (by simp [state]) (by simp [state])
    simp only [readerCase, state]
    exact ⟨fun _ _ => zero, fun _ _ => small⟩
  | sclkLo =>
    have zero := rests (by simp [state]) (by simp [state])
    have small := index (by simp [state]) (by simp [state])
    simp only [readerCase, state]
    split_ifs with last
    · exact ⟨fun _ _ => zero, fun _ done => absurd rfl done⟩
    · have down := count_down last
      exact ⟨fun _ _ => zero, fun _ _ => show (s.bitCount - 1).toNat < 40 by omega⟩
  | done =>
    have zero := rests (by simp [state]) (by simp [state])
    simp only [readerCase, state]
    exact ⟨fun _ _ => zero, fun busy => absurd rfl busy⟩

theorem Sound.next (sound : Sound s) : Sound (step s i) := by
  obtain ⟨state, cnv, bit⟩ := step_fields (s := s) (i := i)
  obtain ⟨rests, index⟩ := sound.turn (i := i)
  cases reset : i.reset with
  | true => exact sound_reset reset
  | false =>
    refine ⟨step_tick, ?_, ?_⟩
    all_goals
      simp only [state, cnv, bit, reader, reset, Bool.false_eq_true, if_false]
      split_ifs
    · exact rests
    · exact sound.rests
    · exact index
    · exact sound.index

end Step

section Turn

variable {s : Regs} {inp : Nat → Ports} {a c : Nat}

theorem sound_run {r t : Nat} (reset : (inp r).reset = true) (later : r < t) :
    Sound (run step s inp t) :=
  stretch_induction (P := fun t => Sound (run step s inp t)) later (sound_reset reset)
    fun _ _ _ before => before.next

/-- What the clocks up to the next turn find: the turn's registers, and the divider. -/
def between (x : Regs) (k : Nat) : Regs :=
  { x with clkCnt := if k = 4 then 0 else BitVec.ofNat 8 (k + 1), clkEnb := decide (k = 4) }

theorem between_next {x : Regs} {i : Ports} {k : Nat} (running : i.reset = false) (few : k < 4) :
    step (between x k) i = between x (k + 1) := by
  have waiting : reader (between x k) i (between x k) = between x k := by
    have disabled : (between x k).clkEnb = false := decide_eq_false (Nat.ne_of_lt few)
    rw [reader, running, if_neg Bool.false_ne_true, disabled, if_neg Bool.false_ne_true]
  rw [step, waiting, clkDivide, running, if_neg Bool.false_ne_true]
  obtain rfl | rfl | rfl | rfl : k = 0 ∨ k = 1 ∨ k = 2 ∨ k = 3 := by omega
  all_goals rfl

/-- A turn while a conversion is under way: its registers stay for five clocks. -/
theorem turn_run (undisturbed : Undisturbed s inp a) (le : a ≤ c) (under : UnderWay s inp a c)
    (enabled : (run step s inp c).clkEnb = true) (phase : (run step s inp c).clkCnt = 0)
    {x : Regs} (next : readerCase (run step s inp c) (inp c) (run step s inp c) = x)
    (busy : x.state ≠ .idle) {k : Nat} (few : k ≤ 4) :
    run step s inp (c + 1 + k) = between x k ∧ UnderWay s inp a (c + 1 + k) := by
  have extend : ∀ t, UnderWay s inp a t → (run step s inp (t + 1)).state ≠ .idle →
      UnderWay s inp a (t + 1) := by
    intro t before now u low high
    obtain early | last := Nat.lt_or_eq_of_le high
    · exact before u low (Nat.le_of_lt_succ early)
    · rw [last]
      exact now
  induction k with
  | zero =>
    have first : run step s inp (c + 1) = between x 0 := by
      rw [run_succ, step, reader, (undisturbed c le under).1, if_neg Bool.false_ne_true, enabled,
        if_pos rfl, next, clkDivide, (undisturbed c le under).1, if_neg Bool.false_ne_true, phase]
      rfl
    refine ⟨first, extend c under ?_⟩
    rw [first]
    exact busy
  | succ k ih =>
    obtain ⟨same, underway⟩ := ih (Nat.le_of_succ_le few)
    have more : run step s inp (c + 1 + k + 1) = between x (k + 1) := by
      rw [run_succ, same]
      exact between_next (undisturbed _ (by omega) underway).1 few
    have now : (run step s inp (c + 1 + k + 1)).state ≠ .idle := by
      rw [more]
      exact busy
    exact ⟨more, extend _ underway now⟩

/-- A turn reads one bit, at its own clock, in `SCLK_HI`. -/
theorem turn_ticks (undisturbed : Undisturbed s inp a) (le : a ≤ c) (under : UnderWay s inp a c)
    (enabled : (run step s inp c).clkEnb = true) (phase : (run step s inp c).clkCnt = 0)
    (busy : (readerCase (run step s inp c) (inp c) (run step s inp c)).state ≠ .idle) :
    ticksFrom (samples s inp) a (c + 5) = ticksFrom (samples s inp) a c ++
      if (run step s inp c).state = .sclkHi then [c] else [] := by
  have waits : ∀ k, k < 4 → samples s inp (c + 1 + k) = false := by
    intro k few
    have same := (turn_run undisturbed le under enabled phase rfl busy (Nat.le_of_lt few)).1
    have disabled : (run step s inp (c + 1 + k)).clkEnb = false := by
      rw [same]
      exact decide_eq_false (Nat.ne_of_lt few)
    rw [samples, disabled, Bool.and_false, Bool.false_and]
  have rest : ∀ k, k ≤ 4 → ticksFrom (samples s inp) a (c + 1 + k) =
      ticksFrom (samples s inp) a (c + 1) := by
    intro k few
    induction k with
    | zero => rfl
    | succ k ih =>
      rw [← Nat.add_assoc, ticksFrom_succ _ (by omega), waits k few, ih (Nat.le_of_lt few)]
      exact List.append_nil _
  rw [show c + 5 = c + 1 + 4 by omega, rest 4 (Nat.le_refl 4), ticksFrom_succ _ le, samples,
    (undisturbed c le under).1, enabled]
  by_cases high : (run step s inp c).state = .sclkHi
  · simp [high]
  · simp [high]

end Turn

/-- The clock of the turn that reads bit `m` of the conversion that left `IDLE` at clock `a`. -/
def sampleClock (a m : Nat) : Nat := a + 5 * (64 + 2 * m)

/-- The turn at clock `c` of that conversion: its state and counts, and that `m` of the `n`
bits have been read into their places. -/
structure Reaches (s : Regs) (inp : Nat → Ports) (a n c : Nat) (st : State) (cnv bit m : Nat) :
    Prop where
  after : a < c
  under : UnderWay s inp a c
  enabled : (run step s inp c).clkEnb = true
  phase : (run step s inp c).clkCnt = 0
  state : (run step s inp c).state = st
  cnv : (run step s inp c).cnvCount.toNat = cnv
  bit : (run step s inp c).bitCount.toNat = bit
  read : ticksFrom (samples s inp) a c = (List.range m).map (sampleClock a)
  stored : ∀ j, j < m →
    (run step s inp c).shiftReg.getLsbD (n - 1 - j) = (inp (sampleClock a j)).sdi

section Conversion

variable {s : Regs} {inp : Nat → Ports} {a n c : Nat} {st : State} {cnv bit m : Nat}

/-- A turn that reads no bit. -/
theorem Reaches.turn (reaches : Reaches s inp a n c st cnv bit m)
    (undisturbed : Undisturbed s inp a) (apart : st ≠ .sclkHi) {st' : State} {cnv' bit' : Nat}
    (busy : st' ≠ .idle)
    (state : (readerCase (run step s inp c) (inp c) (run step s inp c)).state = st')
    (shifted : (readerCase (run step s inp c) (inp c) (run step s inp c)).shiftReg =
      (run step s inp c).shiftReg)
    (count : (readerCase (run step s inp c) (inp c) (run step s inp c)).cnvCount.toNat = cnv')
    (index : (readerCase (run step s inp c) (inp c) (run step s inp c)).bitCount.toNat = bit') :
    Reaches s inp a n (c + 5) st' cnv' bit' m := by
  obtain ⟨after, under, enabled, phase, rfl, _, _, read, stored⟩ := reaches
  rw [← state] at busy
  obtain ⟨same, underway⟩ := turn_run undisturbed (Nat.le_of_lt after) under enabled phase rfl
    busy (Nat.le_refl 4)
  refine ⟨by omega, underway, by rw [same]; rfl, by rw [same]; rfl, by rw [same]; exact state,
    by rw [same]; exact count, by rw [same]; exact index, ?_, ?_⟩
  · rw [turn_ticks undisturbed (Nat.le_of_lt after) under enabled phase busy, if_neg apart,
      List.append_nil, read]
  · intro j few
    rw [same, ← stored j few, ← shifted]
    rfl

theorem Reaches.pulse {k : Nat} (reaches : Reaches s inp a n c .setCnv k bit m)
    (undisturbed : Undisturbed s inp a) (more : k < 10) :
    Reaches s inp a n (c + 5) .setCnv (k + 1) bit m := by
  have state := reaches.state
  have count := reaches.cnv
  have going : (run step s inp c).cnvCount ≠ cnvPulse := count_ne count more
  refine reaches.turn undisturbed (by simp) (by simp) ?_ ?_ ?_ ?_
  all_goals simp only [readerCase, state, if_neg going]
  · rw [count_up (by omega), count]
  · exact reaches.bit

theorem Reaches.pulsed (reaches : Reaches s inp a n c .setCnv 10 bit m)
    (undisturbed : Undisturbed s inp a) :
    Reaches s inp a n (c + 5) .waitForNotBusy 0 bit m := by
  have state := reaches.state
  have last : (run step s inp c).cnvCount = cnvPulse := BitVec.eq_of_toNat_eq reaches.cnv
  refine reaches.turn undisturbed (by simp) (by simp) ?_ ?_ ?_ ?_
  all_goals simp only [readerCase, state, if_pos last]
  · rfl
  · exact reaches.bit

theorem Reaches.wait {k : Nat} (reaches : Reaches s inp a n c .waitForNotBusy k bit m)
    (undisturbed : Undisturbed s inp a) (more : k < 51) :
    Reaches s inp a n (c + 5) .waitForNotBusy (k + 1) bit m := by
  have state := reaches.state
  have count := reaches.cnv
  have going : (run step s inp c).cnvCount ≠ cnvWidth := count_ne count more
  refine reaches.turn undisturbed (by simp) (by simp) ?_ ?_ ?_ ?_
  all_goals simp only [readerCase, state, if_neg going]
  · rw [count_up (by omega), count]
  · exact reaches.bit

theorem Reaches.waited (reaches : Reaches s inp a n c .waitForNotBusy 51 bit m)
    (undisturbed : Undisturbed s inp a) : Reaches s inp a n (c + 5) .sclkHi 0 bit m := by
  have state := reaches.state
  have last : (run step s inp c).cnvCount = cnvWidth := BitVec.eq_of_toNat_eq reaches.cnv
  refine reaches.turn undisturbed (by simp) (by simp) ?_ ?_ ?_ ?_
  all_goals simp only [readerCase, state, if_pos last]
  · rfl
  · exact reaches.bit

theorem Reaches.lower (reaches : Reaches s inp a n c .sclkLo cnv (bit + 1) m)
    (undisturbed : Undisturbed s inp a) : Reaches s inp a n (c + 5) .sclkHi cnv bit m := by
  have state := reaches.state
  have index := reaches.bit
  have going : (run step s inp c).bitCount ≠ 0 := by
    intro last
    have zero : bit + 1 = 0 := index.symm.trans (congrArg BitVec.toNat last)
    omega
  have down := count_down going
  refine reaches.turn undisturbed (by simp) (by simp) ?_ ?_ ?_ ?_
  all_goals simp only [readerCase, state, if_neg going]
  · exact reaches.cnv
  · omega

theorem Reaches.finishes (reaches : Reaches s inp a n c .sclkLo cnv 0 m)
    (undisturbed : Undisturbed s inp a) :
    Reaches s inp a n (c + 5) .done cnv 511 m := by
  have state := reaches.state
  have last : (run step s inp c).bitCount = 0 := BitVec.eq_of_toNat_eq reaches.bit
  refine reaches.turn undisturbed (by simp) (by simp) ?_ ?_ ?_ ?_
  all_goals simp only [readerCase, state, last, if_true]
  · exact reaches.cnv
  · rfl

/-- The turn that reads a bit. -/
theorem Reaches.sample (reaches : Reaches s inp a n (sampleClock a m) .sclkHi cnv (n - 1 - m) m)
    (undisturbed : Undisturbed s inp a) (few : m < n) (small : n ≤ 40) :
    Reaches s inp a n (sampleClock a m + 5) .sclkLo cnv (n - 1 - m) (m + 1) := by
  obtain ⟨after, under, enabled, phase, state, count, index, read, stored⟩ := reaches
  have turned : readerCase (run step s inp (sampleClock a m)) (inp (sampleClock a m))
      (run step s inp (sampleClock a m)) =
    { run step s inp (sampleClock a m) with
      shiftReg := setBit (run step s inp (sampleClock a m)).shiftReg (n - 1 - m)
        (inp (sampleClock a m)).sdi
      state := .sclkLo
      sclk := true } := by
    simp only [readerCase, state, index]
  obtain ⟨same, underway⟩ := turn_run undisturbed (Nat.le_of_lt after) under enabled phase turned
    (by simp) (Nat.le_refl 4)
  refine ⟨Nat.lt_add_right 5 after, underway, by rw [same]; rfl, by rw [same]; rfl,
    by rw [same]; rfl, by rw [same]; exact count, by rw [same]; exact index, ?_, ?_⟩
  · rw [turn_ticks undisturbed (Nat.le_of_lt after) under enabled phase (by rw [turned]; simp),
      if_pos state, read, List.range_succ, List.map_append]
    rfl
  · intro j before
    have place : (run step s inp (sampleClock a m + 5)).shiftReg.getLsbD (n - 1 - j) =
        if n - 1 - j = n - 1 - m then (inp (sampleClock a m)).sdi
        else (run step s inp (sampleClock a m)).shiftReg.getLsbD (n - 1 - j) := by
      rw [same]
      exact getLsbD_setBit _ _ _ _ (by omega)
    rw [place]
    obtain earlier | last := Nat.lt_or_eq_of_le (Nat.le_of_lt_succ before)
    · rw [if_neg (by omega), stored j earlier]
    · rw [last, if_pos rfl]

/-- A conversion leaves `IDLE` by a turn that finds `start`. -/
theorem Leaves.turned (leaves : Leaves s inp a) (running : (inp a).reset = false) :
    (run step s inp a).clkEnb = true ∧ (inp a).start = true := by
  obtain ⟨idle, left⟩ := leaves
  cases enabled : (run step s inp a).clkEnb with
  | false => exact absurd ((disabled_step 0 running enabled).1.trans idle) left
  | true =>
    refine ⟨rfl, ?_⟩
    cases start : (inp a).start with
    | true => rfl
    | false =>
      have stays : (readerCase (run step s inp a) (inp a) (run step s inp a)).state = .idle := by
        simp [readerCase, idle, start]
      exact absurd ((step_enabled running enabled).1.trans stays) left

/-- A conversion does not leave `IDLE` at a clock of reset. -/
theorem Leaves.sound (leaves : Leaves s inp a) (reset : (inp 0).reset = true) :
    Sound (run step s inp a) := by
  refine sound_run reset (Nat.pos_of_ne_zero fun zero => leaves.2 ?_)
  rw [zero]
  exact (reset_step s reset).2.2.1

/-- The first turn after `IDLE`. -/
theorem begins (sound : Sound (run step s inp a)) (leaves : Leaves s inp a)
    (undisturbed : Undisturbed s inp a) :
    Reaches s inp a (2 * wordBits (inp a).resolution) (a + 5) .setCnv 0
      (2 * wordBits (inp a).resolution - 1) 0 := by
  have idle := leaves.1
  have alone : UnderWay s inp a a := fun u low high => absurd low (Nat.not_lt.2 high)
  have running := (undisturbed a (Nat.le_refl a) alone).1
  obtain ⟨enabled, start⟩ := leaves.turned running
  have turned : (readerCase (run step s inp a) (inp a) (run step s inp a)).state = .setCnv := by
    simp only [readerCase, idle, start, if_true]
  have busy : (readerCase (run step s inp a) (inp a) (run step s inp a)).state ≠ .idle := by
    rw [turned]
    simp
  have phase := sound.tick enabled
  obtain ⟨same, underway⟩ := turn_run undisturbed (Nat.le_refl a) alone enabled phase rfl busy
    (Nat.le_refl 4)
  have count : (readerCase (run step s inp a) (inp a) (run step s inp a)).cnvCount = 0 := by
    simp only [readerCase, idle]
    exact sound.rests (by rw [idle]; simp) (by rw [idle]; simp)
  have index : (readerCase (run step s inp a) (inp a) (run step s inp a)).bitCount =
      numBits (inp a) - 1 := by
    simp only [readerCase, idle]
  have width := numBits_pred (inp a)
  refine ⟨by omega, underway, by rw [same]; rfl, by rw [same]; rfl, by rw [same]; exact turned,
    by rw [same]; exact congrArg BitVec.toNat count, ?_, ?_,
    fun j few => absurd few (Nat.not_lt_zero j)⟩
  · rw [same]
    exact (congrArg BitVec.toNat index).trans (by omega)
  · rw [turn_ticks undisturbed (Nat.le_refl a) alone enabled phase busy, idle, ticksFrom_self]
    rfl

/-- The turn that ends the conversion. -/
theorem reaches_done (sound : Sound (run step s inp a)) (leaves : Leaves s inp a)
    (undisturbed : Undisturbed s inp a) {n : Nat} (width : n = 2 * wordBits (inp a).resolution) :
    Reaches s inp a n (sampleClock a n) .done 0 511 n := by
  have small : n ≤ 40 := by
    rw [width, wordBits]
    split <;> decide
  have first : Reaches s inp a n (a + 5) .setCnv 0 (n - 1) 0 := by
    rw [width]
    exact begins sound leaves undisturbed
  have pulses : ∀ k, k ≤ 10 → Reaches s inp a n (a + 5 * (1 + k)) .setCnv k (n - 1) 0 := by
    intro k le
    induction k with
    | zero => exact first
    | succ k ih => exact (ih (Nat.le_of_lt le)).pulse undisturbed le
  have waits : ∀ k, k ≤ 51 → Reaches s inp a n (a + 5 * (12 + k)) .waitForNotBusy k (n - 1) 0 := by
    intro k le
    induction k with
    | zero => exact (pulses 10 (Nat.le_refl 10)).pulsed undisturbed
    | succ k ih => exact (ih (Nat.le_of_lt le)).wait undisturbed le
  have reads : ∀ m, m < n → Reaches s inp a n (sampleClock a m) .sclkHi 0 (n - 1 - m) m := by
    intro m few
    induction m with
    | zero => exact (waits 51 (Nat.le_refl 51)).waited undisturbed
    | succ m ih =>
      have sampled := (ih (Nat.lt_of_succ_lt few)).sample undisturbed (Nat.lt_of_succ_lt few) small
      rw [show n - 1 - m = n - 1 - (m + 1) + 1 by omega] at sampled
      exact sampled.lower undisturbed
  have few : n - 1 < n := by
    rw [width, wordBits]
    split <;> decide
  have last := (reads (n - 1) few).sample undisturbed few small
  rw [Nat.sub_self, Nat.sub_add_cancel (Nat.one_le_of_lt few)] at last
  have done := last.finishes undisturbed
  rwa [show sampleClock a (n - 1) + 5 + 5 = sampleClock a n by rw [sampleClock, sampleClock]; omega]
    at done

/-- A word whose bits stand in order in the shift register. -/
theorem ofBoolListBE_signExtend {bs : List Bool} {x : BitVec 40} {k w : Nat} (len : bs.length = w)
    (place : ∀ j, j < w → x.getLsbD (k + (w - 1 - j)) = bs.getD j false) :
    (x.extractLsb' k w).signExtend 20 = (BitVec.ofBoolListBE bs).signExtend 20 := by
  subst len
  congr 1
  apply BitVec.eq_of_getMsbD_eq
  intro j lt
  rw [BitVec.getMsbD_ofBoolListBE, ← place j lt, BitVec.getMsbD, decide_eq_true lt, Bool.true_and,
    BitVec.getLsbD_extractLsb', decide_eq_true (by omega), Bool.true_and]

/-- The two words that `DONE` takes from the shift register. -/
theorem done_words {r : Regs} {i : Ports} (state : r.state = .done) :
    (readerCase r i r).state = .idle ∧
      (readerCase r i r).dcct2 = (r.shiftReg.extractLsb' (wordBits i.resolution)
        (wordBits i.resolution)).signExtend 20 ∧
      (readerCase r i r).dcct1 =
        (r.shiftReg.extractLsb' 0 (wordBits i.resolution)).signExtend 20 := by
  simp only [readerCase, state, wordBits]
  cases i.resolution with
  | false => exact ⟨trivial, rfl, rfl⟩
  | true => exact ⟨trivial, (BitVec.signExtend_eq _).symm, (BitVec.signExtend_eq _).symm⟩

/-- The clock of the turn that publishes the words. -/
def lastClock (a : Nat) (resolution : Bool) : Nat := sampleClock a (2 * wordBits resolution)

/-- The bits that a conversion is read from. -/
def stream (inp : Nat → Ports) (a : Nat) : List Bool :=
  (List.range (2 * wordBits (inp a).resolution)).map fun m => (inp (sampleClock a m)).sdi

theorem received_stream (sound : Sound (run step s inp a)) (leaves : Leaves s inp a)
    (undisturbed : Undisturbed s inp a) :
    received s inp a (lastClock a (inp a).resolution) = stream inp a := by
  rw [received, lastClock, (reaches_done sound leaves undisturbed rfl).read, List.map_map]
  rfl

theorem stream_getD (few : m < 2 * wordBits (inp a).resolution) :
    (stream inp a).getD m false = (inp (sampleClock a m)).sdi := by
  simp [stream, few]

/-- The two words of the stream. -/
theorem words_stream {w b : Nat} (width : wordBits (inp a).resolution = w)
    (done : Reaches s inp a (2 * w) b .done cnv bit (2 * w)) :
    ((run step s inp b).shiftReg.extractLsb' w w).signExtend 20 =
        (BitVec.ofBoolListBE ((stream inp a).take w)).signExtend 20 ∧
      ((run step s inp b).shiftReg.extractLsb' 0 w).signExtend 20 =
        (BitVec.ofBoolListBE ((stream inp a).drop w)).signExtend 20 := by
  subst width
  have whole : (stream inp a).length = 2 * wordBits (inp a).resolution := by simp [stream]
  constructor
  · refine ofBoolListBE_signExtend (by rw [List.length_take]; omega) ?_
    intro j few
    have bit := (done.stored j (by omega)).trans (stream_getD (by omega)).symm
    rw [List.getD_eq_getElem?_getD, List.getElem?_take_of_lt few, ← List.getD_eq_getElem?_getD,
      ← bit]
    congr 1
    omega
  · refine ofBoolListBE_signExtend (by rw [List.length_drop]; omega) ?_
    intro j few
    have bit := (done.stored (wordBits (inp a).resolution + j) (by omega)).trans
      (stream_getD (by omega)).symm
    rw [List.getD_eq_getElem?_getD, List.getElem?_drop, ← List.getD_eq_getElem?_getD, ← bit]
    congr 1
    omega

theorem publishes (sound : Sound (run step s inp a)) (leaves : Leaves s inp a)
    (undisturbed : Undisturbed s inp a) :
    Publishes s inp a (lastClock a (inp a).resolution) := by
  have done := reaches_done sound leaves undisturbed rfl
  obtain ⟨running, resolution⟩ := undisturbed _ (Nat.le_of_lt done.after) done.under
  obtain ⟨state, high, low⟩ := step_enabled running done.enabled
  obtain ⟨idle, dcct2, dcct1⟩ := done_words (i := inp _) done.state
  obtain ⟨first, second⟩ := words_stream rfl done
  rw [resolution] at dcct2 dcct1
  refine ⟨⟨done.under, done.state, state.trans idle⟩, ?_, ?_, ?_⟩
  all_goals rw [received_stream sound leaves undisturbed]
  · simp [stream]
  · exact (high.trans dcct2).trans first
  · exact (low.trans dcct1).trans second

theorem index_small (reset : (inp 0).reset = true) {t : Nat} (reads : samples s inp t = true) :
    (run step s inp t).bitCount.toNat < 40 := by
  rw [samples, Bool.and_eq_true, Bool.and_eq_true, Bool.not_eq_true'] at reads
  have state := of_decide_eq_true reads.2
  have later : 0 < t := by
    refine Nat.pos_of_ne_zero fun zero => ?_
    rw [zero, reset] at reads
    exact Bool.noConfusion reads.1.1
  exact (sound_run reset later).index (by rw [state]; simp) (by rw [state]; simp)

/-- From a reset on, whatever the earlier conversions left behind: bits go to places 0 to 39
only, and each conversion that is not disturbed publishes the two words that it reads. A
second conversion, of any run, that reads the same bits takes as long and publishes the same. -/
theorem words_published {s' : Regs} {inp' : Nat → Ports} (reset : (inp 0).reset = true)
    (reset' : (inp' 0).reset = true) :
    (∀ t, samples s inp t = true → (run step s inp t).bitCount.toNat < 40) ∧
      ∀ a, Leaves s inp a → Undisturbed s inp a → ∃ k, Publishes s inp a (a + k) ∧
        ∀ a', Leaves s' inp' a' → Undisturbed s' inp' a' →
          (inp' a').resolution = (inp a).resolution →
          (∀ j, j < k → (inp' (a' + j)).sdi = (inp (a + j)).sdi) →
          Publishes s' inp' a' (a' + k) ∧
            (run step s' inp' (a' + k + 1)).dcct2 = (run step s inp (a + k + 1)).dcct2 ∧
            (run step s' inp' (a' + k + 1)).dcct1 = (run step s inp (a + k + 1)).dcct1 := by
  refine ⟨fun t => index_small reset, fun a leaves undisturbed => ?_⟩
  have sound := leaves.sound reset
  have first := publishes sound leaves undisturbed
  refine ⟨5 * (64 + 2 * (2 * wordBits (inp a).resolution)), first, ?_⟩
  intro a' leaves' undisturbed' width same
  have sound' := leaves'.sound reset'
  have second := publishes sound' leaves' undisturbed'
  have bits : stream inp' a' = stream inp a := by
    rw [stream, stream, width]
    refine List.map_congr_left fun m few => same _ ?_
    have inside := List.mem_range.1 few
    omega
  have words := received_stream sound leaves undisturbed
  have words' := received_stream sound' leaves' undisturbed'
  have high := second.dcct2
  have low := second.dcct1
  rw [words', bits, ← words, width] at high low
  rw [width] at second
  exact ⟨second, high.trans first.dcct2.symm, low.trans first.dcct1.symm⟩

end Conversion

/-- A reset clock, then starts from clock `first` on and a data line that alternates. -/
def alternating (first t : Nat) : Ports := ⟨t == 0, decide (first ≤ t), true, t / 10 % 2 == 0⟩

theorem alternating_undisturbed (first a : Nat) (later : 0 < a) :
    Undisturbed powerUp (alternating first) a := by
  intro t le _
  have running : t ≠ 0 := by omega
  exact ⟨by simp [alternating, running], rfl⟩

/-- Two conversions that leave `IDLE` ten clocks apart, and read opposite bits. -/
theorem alternating_published :
    (∃ k, Publishes powerUp (alternating 0) 6 (6 + k)) ∧
      ∃ k, Publishes powerUp (alternating 16) 16 (16 + k) := by
  have early := @words_published powerUp (alternating 0) powerUp (alternating 16) rfl rfl
  have late := @words_published powerUp (alternating 16) powerUp (alternating 0) rfl rfl
  obtain ⟨k, first, _⟩ := early.2 6 ⟨by decide, by decide⟩
    (alternating_undisturbed 0 6 (by decide))
  obtain ⟨l, second, _⟩ := late.2 16 ⟨by decide, by decide⟩
    (alternating_undisturbed 16 16 (by decide))
  exact ⟨⟨k, first⟩, ⟨l, second⟩⟩

end PscDigpid.Hdl.AdcLtc2376
