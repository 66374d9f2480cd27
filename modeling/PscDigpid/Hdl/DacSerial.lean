/- Unit: PscDigpid/Hdl/DacSerial
   layer: result
   source: src/hw/hdl/dac_ad5781.vhd (N_SYNC_ZERO to DAC_DONE)
   digest: The clock edges of a frame and the bits that the converter reads at them. -/

import Mathlib.Tactic.SplitIfs
import PscDigpid.Hdl.DacAd5781
import PscDigpid.Sync.Ticks

set_option autoImplicit false
set_option relaxedAutoImplicit false

namespace PscDigpid.Hdl.DacAd5781

open PscDigpid.Sync

/-- The state in the `q`th half of a clock period of a frame. -/
def halfState (q : Nat) : State :=
  if q = 0 then .firstBit else if q % 2 = 0 then .sclkHi else .sclkLo

/-- In the `q`th half period of a frame with the word `w`, after `r` clocks of it. -/
structure Shifting (w : BitVec 24) (flags : Nat × Bool) (q r : Nat) (s : Regs) : Prop where
  state : s.presentState = halfState q
  clk : s.clkCount = r
  bit : s.bitCount = (q + 1) / 2
  sclk : s.sclk = decide (q % 2 = 0)
  sync : s.nSync = false
  reg : s.shiftReg = w <<< (q / 2)
  flags : (s.initCount, s.setpointSent) = flags

section Step

variable {d : Nat} {s : Regs} {i : Ports} {w : BitVec 24} {flags : Nat × Bool} {q r : Nat}

theorem Shifting.within (shifting : Shifting w flags q r s) (live : i.reset = false)
    (more : r + 1 < d) : Shifting w flags q (r + 1) (step d s i) := by
  obtain ⟨state, clk, bit, sclk, sync, reg, flags⟩ := shifting
  have going : s.clkCount ≠ d - 1 := by omega
  have phase := state
  rw [halfState] at state
  split_ifs at state with first even
  all_goals
    simp only [step, shift, live, state, going, if_false, Bool.false_eq_true]
    refine ⟨by rw [← state]; exact phase, by rw [clk], bit, ?_, sync, reg, flags⟩
  · rw [first]
    rfl
  · rw [even]
    rfl
  · rw [decide_eq_false even]

theorem Shifting.across (shifting : Shifting w flags q r s) (live : i.reset = false)
    (last : r + 1 = d) (more : q < 48) : Shifting w flags (q + 1) 0 (step d s i) := by
  obtain ⟨state, clk, bit, sclk, sync, reg, flags⟩ := shifting
  have over_half : s.clkCount = d - 1 := by omega
  rw [halfState] at state
  split_ifs at state with first even
  · simp only [step, shift, live, state, over_half, if_true, if_false, Bool.false_eq_true]
    subst first
    exact ⟨rfl, rfl, by rw [bit], rfl, sync, reg, flags⟩
  · have unfinished : s.bitCount ≠ bits := by
      rw [bit, bits]
      omega
    have odd : (q + 1) % 2 ≠ 0 := by omega
    simp only [step, shift, live, state, over_half, unfinished, if_true, if_false,
      Bool.false_eq_true]
    refine ⟨?_, rfl, ?_, (decide_eq_false odd).symm, sync, ?_, flags⟩
    · rw [halfState, if_neg (Nat.succ_ne_zero q), if_neg odd]
    · change s.bitCount + 1 = _
      omega
    · rw [reg, show (q + 1) / 2 = q / 2 by omega]
  · simp only [step, shift, live, state, over_half, if_true, if_false, Bool.false_eq_true]
    have even : (q + 1) % 2 = 0 := by omega
    refine ⟨?_, rfl, ?_, (decide_eq_true even).symm, sync, ?_, flags⟩
    · rw [halfState, if_neg (Nat.succ_ne_zero q), if_pos even]
    · change s.bitCount = _
      omega
    · rw [reg, show (q + 1) / 2 = q / 2 + 1 by omega, BitVec.shiftLeft_add]

/-- After a frame, with the flags as the frame leaves them. -/
structure Shifted (flags : Nat × Bool) (s : Regs) : Prop where
  state : s.presentState = .dacDone
  clk : s.clkCount = 0
  bit : s.bitCount = 0
  sclk : s.sclk = true
  sync : s.nSync = false
  flags : (s.initCount, s.setpointSent) = flags

/-- How many frames the initialisation has had, with one more. -/
def countInit (n : Nat) : Nat := if n = 2 then 2 else n + 1

theorem Shifting.ends (shifting : Shifting w flags 48 r s) (live : i.reset = false)
    (last : r + 1 = d) : Shifted (countInit flags.1, flags.2) (step d s i) := by
  obtain ⟨state, clk, bit, sclk, sync, reg, rfl⟩ := shifting
  have over_half : s.clkCount = d - 1 := by omega
  have finished : s.bitCount = bits := bit
  rw [halfState, if_neg (by decide), if_pos (by decide)] at state
  simp only [step, shift, live, state, over_half, finished, if_true, if_false, Bool.false_eq_true]
  exact ⟨rfl, rfl, rfl, sclk, sync, rfl⟩

/-- The word waits in the shift register, `j` clocks since it was loaded. -/
structure Loading (w : BitVec 24) (flags : Nat × Bool) (j : Nat) (s : Regs) : Prop where
  state : s.presentState = .nSyncZero
  clk : s.clkCount = j
  bit : s.bitCount = 0
  sync : 0 < j → s.nSync = true
  reg : s.shiftReg = w
  flags : (s.initCount, s.setpointSent) = flags

theorem Loading.next {j : Nat} (loading : Loading w flags j s) (live : i.reset = false)
    (more : j < syncWidth) : Loading w flags (j + 1) (step d s i) := by
  obtain ⟨state, clk, bit, _, reg, flags⟩ := loading
  have going : s.clkCount ≠ syncWidth := by omega
  simp only [step, shift, live, state, going, if_false, Bool.false_eq_true]
  exact ⟨rfl, by rw [clk], bit, fun _ => rfl, reg, flags⟩

theorem Loading.starts (loading : Loading w flags syncWidth s) (live : i.reset = false) :
    Shifting w flags 0 0 (step d s i) := by
  obtain ⟨state, clk, bit, _, reg, flags⟩ := loading
  simp only [step, shift, live, state, clk, if_true, if_false, Bool.false_eq_true]
  exact ⟨rfl, rfl, bit, rfl, rfl, by rw [reg]; exact (BitVec.shiftLeft_zero w).symm, flags⟩

end Step

section Run

variable (d : Nat) (s : Regs) (inp : Nat → Ports)

/-- The clock to the converter falls at this clock edge. -/
def falls (t : Nat) : Bool := (run (step d) s inp t).sclk && !(run (step d) s inp (t + 1)).sclk

/-- The data at the falling edges from clock `a` on, before clock `b`. -/
def clocked (a b : Nat) : List Bool :=
  (ticksFrom (falls d s inp) a b).map fun t => sdo (run (step d) s inp t)

/-- The bits of a word, the most significant first. -/
def frameBits (w : BitVec 24) : List Bool := (List.range bits).map fun k => w.getLsbD (23 - k)

/-- A word is loaded into the shift register at this clock edge. -/
def Loads (t : Nat) : Prop :=
  (run (step d) s inp t).presentState ≠ .nSyncZero ∧
    (run (step d) s inp (t + 1)).presentState = .nSyncZero

/-- From `n_sync` going low at clock `a` to the first clock in `DAC_DONE`, `b`, the clock falls
once for each bit of the word, and the data is the bit before the edge and after it. -/
structure SendsWord (w : BitVec 24) (a b : Nat) : Prop where
  begins : (run (step d) s inp a).presentState = .nSyncZero ∧
    (run (step d) s inp a).nSync = true ∧ (run (step d) s inp (a + 1)).nSync = false
  ends : a < b ∧ (run (step d) s inp b).presentState = .dacDone
  inside : ∀ t, a < t → t < b →
    (run (step d) s inp t).presentState ≠ .dacDone ∧ (run (step d) s inp t).nSync = false
  bits : clocked d s inp a b = frameBits w
  held : ∀ t, a ≤ t → t < b → falls d s inp t = true →
    sdo (run (step d) s inp (t + 1)) = sdo (run (step d) s inp t)

end Run

section Frame

variable {d : Nat} {s : Regs} {inp : Nat → Ports} {w : BitVec 24} {flags : Nat × Bool} {t : Nat}

theorem clocked_succ {a b : Nat} (le : a ≤ b) : clocked d s inp a (b + 1) =
    clocked d s inp a b ++ if falls d s inp b then [sdo (run (step d) s inp b)] else [] := by
  rw [clocked, clocked, ticksFrom_succ _ le, List.map_append]
  cases falls d s inp b <;> rfl

theorem falls_eq {high low : Bool} (before : (run (step d) s inp t).sclk = high)
    (after : (run (step d) s inp (t + 1)).sclk = low) : falls d s inp t = (high && !low) := by
  rw [falls, before, after]

theorem loading_run {c : Nat} (loading : Loading w flags 0 (run (step d) s inp c))
    (live : ∀ u, c ≤ u → (inp u).reset = false) {j : Nat} (le : j ≤ syncWidth) :
    Loading w flags j (run (step d) s inp (c + j)) := by
  induction j with
  | zero => exact loading
  | succ j ih => exact (ih (Nat.le_of_succ_le le)).next (live _ (Nat.le_add_right c j)) le

/-- After so many clocks of a half period the bits before it have been clocked out. -/
structure Sending (d : Nat) (s : Regs) (inp : Nat → Ports) (w : BitVec 24) (flags : Nat × Bool)
    (a q r : Nat) : Prop where
  shifting : Shifting w flags q r (run (step d) s inp (a + 1 + (q * d + r)))
  bits : clocked d s inp a (a + 1 + (q * d + r)) =
    (List.range ((q + 1) / 2)).map fun k => w.getLsbD (23 - k)

theorem Sending.within {a q r : Nat} (sending : Sending d s inp w flags a q r)
    (live : (inp (a + 1 + (q * d + r))).reset = false) (more : r + 1 < d) :
    Sending d s inp w flags a q (r + 1) := by
  have next := sending.shifting.within live more
  have steady : falls d s inp (a + 1 + (q * d + r)) = false := by
    rw [falls_eq sending.shifting.sclk next.sclk, Bool.and_not_self]
  refine ⟨next, ?_⟩
  rw [← Nat.add_assoc (q * d), ← Nat.add_assoc (a + 1), clocked_succ (by omega), steady,
    sending.bits]
  exact List.append_nil _

theorem sdo_shifting {q r : Nat} (shifting : Shifting w flags q r s) (le : q / 2 ≤ 23) :
    sdo s = w.getLsbD (23 - q / 2) := by
  rw [sdo, shifting.reg, BitVec.getLsbD_shiftLeft, decide_eq_false (Nat.not_lt.2 le)]
  simp

theorem Sending.across {a q r : Nat} (sending : Sending d s inp w flags a q r)
    (live : (inp (a + 1 + (q * d + r))).reset = false) (last : r + 1 = d) (more : q < 48) :
    Sending d s inp w flags a (q + 1) 0 := by
  have next := sending.shifting.across live last more
  have clock : a + 1 + ((q + 1) * d + 0) = a + 1 + (q * d + r) + 1 := by
    rw [Nat.succ_mul]
    omega
  have edge := falls_eq sending.shifting.sclk next.sclk
  refine ⟨by rw [clock]; exact next, ?_⟩
  rw [clock, clocked_succ (by omega), edge, sending.bits, sdo_shifting sending.shifting (by omega)]
  by_cases even : q % 2 = 0
  · rw [decide_eq_true even, decide_eq_false (show (q + 1) % 2 ≠ 0 by omega),
      show (q + 1 + 1) / 2 = q / 2 + 1 by omega, show (q + 1) / 2 = q / 2 by omega,
      List.range_succ, List.map_append]
    rfl
  · rw [decide_eq_false even, show (q + 1 + 1) / 2 = (q + 1) / 2 by omega]
    exact List.append_nil _

theorem Sending.half {a q : Nat} (sending : Sending d s inp w flags a q 0)
    (live : ∀ u, a ≤ u → (inp u).reset = false) {r : Nat} (lt : r < d) :
    Sending d s inp w flags a q r := by
  induction r with
  | zero => exact sending
  | succ r ih => exact (ih (Nat.lt_of_succ_lt lt)).within (live _ (by omega)) lt

/-- From the end of `N_SYNC_ZERO` on, every clock of the frame is where its number says. -/
theorem sending_run {a : Nat} (loading : Loading w flags syncWidth (run (step d) s inp a))
    (live : ∀ u, a ≤ u → (inp u).reset = false) (pos : 0 < d) {q : Nat} (le : q ≤ 48) :
    ∀ {r : Nat}, r < d → Sending d s inp w flags a q r := by
  induction q with
  | zero =>
    intro r lt
    have first : Shifting w flags 0 0 (run (step d) s inp (a + 1)) :=
      loading.starts (live a (Nat.le_refl a))
    have begun : Sending d s inp w flags a 0 0 := by
      refine ⟨by rw [Nat.zero_mul]; exact first, ?_⟩
      have level : falls d s inp a = false := by
        rw [falls, first.sclk]
        exact Bool.and_false _
      rw [Nat.zero_mul, Nat.add_zero, Nat.add_zero, clocked_succ (Nat.le_refl a), level, clocked,
        ticksFrom_self]
      rfl
    exact begun.half live lt
  | succ q ih =>
    intro r lt
    have last := ih (Nat.le_of_succ_le le) (show d - 1 < d by omega)
    exact (last.across (live _ (by omega)) (by omega) le).half live lt

/-- The clock after a frame's last one. -/
def frameEnd (d a : Nat) : Nat := a + 1 + 49 * d

theorem half_of {a : Nat} (pos : 0 < d) (low : a < t) (high : t < frameEnd d a) :
    ∃ q r, q ≤ 48 ∧ r < d ∧ t = a + 1 + (q * d + r) := by
  obtain ⟨k, rfl⟩ := Nat.exists_eq_add_of_le (Nat.succ_le_of_lt low)
  refine ⟨k / d, k % d, ?_, Nat.mod_lt k pos, ?_⟩
  · have few : k < 49 * d := by
      rw [frameEnd] at high
      omega
    exact Nat.le_of_lt_succ (Nat.div_lt_of_lt_mul (by rw [Nat.mul_comm]; exact few))
  · rw [Nat.div_add_mod' k d]

/-- The last clock of the last half period. -/
theorem frame_last {a : Nat} (pos : 0 < d) : frameEnd d a = a + 1 + (48 * d + (d - 1)) + 1 := by
  rw [frameEnd]
  omega

theorem frame_done {a : Nat} (loading : Loading w flags syncWidth (run (step d) s inp a))
    (live : ∀ u, a ≤ u → (inp u).reset = false) (pos : 0 < d) :
    Shifted (countInit flags.1, flags.2) (run (step d) s inp (frameEnd d a)) := by
  have last := sending_run loading live pos (Nat.le_refl 48) (show d - 1 < d by omega)
  rw [frame_last pos]
  exact last.shifting.ends (live _ (by omega)) (by omega)

theorem frame_bits {a : Nat} (loading : Loading w flags syncWidth (run (step d) s inp a))
    (live : ∀ u, a ≤ u → (inp u).reset = false) (pos : 0 < d) :
    clocked d s inp a (frameEnd d a) = frameBits w := by
  have last := sending_run loading live pos (Nat.le_refl 48) (show d - 1 < d by omega)
  have done := frame_done loading live pos
  rw [frame_last pos] at done ⊢
  rw [clocked_succ (by omega), falls_eq last.shifting.sclk done.sclk, last.bits]
  exact List.append_nil _

/-- The data does not change at a falling edge. -/
theorem frame_held {a : Nat} (loading : Loading w flags syncWidth (run (step d) s inp a))
    (live : ∀ u, a ≤ u → (inp u).reset = false) (pos : 0 < d) (low : a ≤ t)
    (high : t < frameEnd d a) (fall : falls d s inp t = true) :
    sdo (run (step d) s inp (t + 1)) = sdo (run (step d) s inp t) := by
  have done := frame_done loading live pos
  obtain rfl | later := Nat.eq_or_lt_of_le low
  · have first : Shifting w flags 0 0 (run (step d) s inp (a + 1)) :=
      loading.starts (live a (Nat.le_refl a))
    rw [falls, first.sclk] at fall
    exact absurd fall (by simp)
  · obtain ⟨q, r, le, lt, rfl⟩ := half_of pos later high
    have shifting := (sending_run loading live pos le lt).shifting
    obtain more | last := Nat.lt_or_eq_of_le (Nat.succ_le_of_lt lt)
    · have next : Shifting w flags q (r + 1) (run (step d) s inp (a + 1 + (q * d + r) + 1)) :=
        shifting.within (live _ low) more
      rw [falls_eq shifting.sclk next.sclk, Bool.and_not_self] at fall
      exact absurd fall Bool.false_ne_true
    · obtain inner | outer := Nat.lt_or_eq_of_le le
      · have next : Shifting w flags (q + 1) 0 (run (step d) s inp (a + 1 + (q * d + r) + 1)) :=
          shifting.across (live _ low) last inner
        rw [falls_eq shifting.sclk next.sclk, Bool.and_eq_true] at fall
        have even : q % 2 = 0 := of_decide_eq_true fall.1
        rw [sdo_shifting shifting (by omega), sdo_shifting next (by omega),
          show (q + 1) / 2 = q / 2 by omega]
      · have final : a + 1 + (q * d + r) + 1 = frameEnd d a := by
          rw [frame_last pos, outer]
          omega
        rw [← final] at done
        rw [falls, done.sclk] at fall
        exact absurd fall (by simp)

/-- A loaded word is sent. -/
theorem sends_loaded {a : Nat} (loading : Loading w flags syncWidth (run (step d) s inp a))
    (live : ∀ u, a ≤ u → (inp u).reset = false) (pos : 0 < d) :
    SendsWord d s inp w a (frameEnd d a) := by
  have first : Shifting w flags 0 0 (run (step d) s inp (a + 1)) :=
    loading.starts (live a (Nat.le_refl a))
  refine ⟨⟨loading.state, loading.sync (by decide), first.sync⟩,
    ⟨by rw [frameEnd]; omega, (frame_done loading live pos).state⟩, ?_,
    frame_bits loading live pos, fun t low high => frame_held loading live pos low high⟩
  intro t low high
  obtain ⟨q, r, le, lt, rfl⟩ := half_of pos low high
  have shifting := (sending_run loading live pos le lt).shifting
  refine ⟨?_, shifting.sync⟩
  rw [shifting.state, halfState]
  split_ifs <;> simp

end Frame

/-- Between the frames: how far the state's own counter may be. -/
def restCount : State → Nat
  | .idle | .sendCtrlReg | .sendSetpoint => 1
  | .dacDone | .waitSyncLow => syncWidth
  | .nSyncZero | .firstBit | .sclkLo | .sclkHi => 0

/-- No frame is under way. -/
structure Resting (s : Regs) : Prop where
  clk : s.clkCount < restCount s.presentState
  bit : s.bitCount = 0

/-- A word has just been loaded. -/
def Loaded (s : Regs) : Prop := Loading s.shiftReg (s.initCount, s.setpointSent) 0 s

section Rest

variable {d : Nat} {s : Regs} {i : Ports}

theorem resting_reset (reset : i.reset = true) : Resting (step d s i) := by
  simp only [step, shift, reset, if_true]
  exact ⟨Nat.one_pos, rfl⟩

theorem Shifted.resting {flags : Nat × Bool} (shifted : Shifted flags s) : Resting s := by
  obtain ⟨state, clk, bit, _, _, _⟩ := shifted
  exact ⟨by rw [state, clk]; decide, bit⟩

theorem loaded_of (state : s.presentState = .nSyncZero) (clk : s.clkCount = 0)
    (bit : s.bitCount = 0) : Loaded s :=
  ⟨state, clk, bit, fun early => absurd early (Nat.lt_irrefl 0), rfl, rfl⟩

theorem Resting.next (resting : Resting s) (live : i.reset = false) :
    (Resting (step d s i) ∨ Loaded (step d s i)) ∧ (step d s i).sclk = s.sclk := by
  obtain ⟨clk, bit⟩ := resting
  cases state : s.presentState with
  | idle =>
    rw [state] at clk
    have zero : s.clkCount = 0 := Nat.lt_one_iff.1 clk
    simp only [step, shift, live, state, if_false, Bool.false_eq_true]
    split_ifs
    · exact ⟨.inr (loaded_of rfl zero bit), rfl⟩
    · exact ⟨.inr (loaded_of rfl zero bit), rfl⟩
    · exact ⟨.inl ⟨clk, bit⟩, rfl⟩
    · exact ⟨.inl ⟨clk, bit⟩, rfl⟩
  | sendCtrlReg =>
    rw [state] at clk
    simp only [step, shift, live, state, if_false, Bool.false_eq_true]
    exact ⟨.inr (loaded_of rfl (Nat.lt_one_iff.1 clk) bit), trivial⟩
  | sendSetpoint =>
    rw [state] at clk
    simp only [step, shift, live, state, if_false, Bool.false_eq_true]
    exact ⟨.inr (loaded_of rfl (Nat.lt_one_iff.1 clk) bit), trivial⟩
  | dacDone =>
    rw [state] at clk
    simp only [step, shift, live, state, if_false, Bool.false_eq_true]
    split_ifs with over_hold sent
    · exact ⟨.inl ⟨Nat.succ_pos 9, bit⟩, rfl⟩
    · exact ⟨.inl ⟨Nat.one_pos, bit⟩, rfl⟩
    · have more : s.clkCount + 1 < syncWidth := Nat.lt_of_le_of_ne clk (by omega)
      exact ⟨.inl ⟨more, bit⟩, rfl⟩
  | waitSyncLow =>
    rw [state] at clk
    simp only [step, shift, live, state, if_false, Bool.false_eq_true]
    split_ifs with over_hold
    · exact ⟨.inl ⟨Nat.one_pos, bit⟩, rfl⟩
    · have more : s.clkCount + 1 < syncWidth := Nat.lt_of_le_of_ne clk (by omega)
      exact ⟨.inl ⟨more, bit⟩, rfl⟩
  | nSyncZero | firstBit | sclkLo | sclkHi =>
    rw [state] at clk
    exact absurd clk (Nat.not_lt_zero _)

end Rest

section Serial

variable {d : Nat} {s : Regs} {inp : Nat → Ports} {t : Nat}

/-- The frame that was loaded at clock `c` is under way. -/
structure Within (d : Nat) (s : Regs) (inp : Nat → Ports) (c t : Nat) : Prop where
  loads : Loads d s inp c
  loaded : Loaded (run (step d) s inp (c + 1))
  low : c < t
  high : t < frameEnd d (c + 1 + syncWidth)

theorem Within.shifts {c : Nat} (within : Within d s inp c t)
    (live : ∀ u, 0 < u → (inp u).reset = false) :
    Loading (run (step d) s inp (c + 1)).shiftReg
      ((run (step d) s inp (c + 1)).initCount, (run (step d) s inp (c + 1)).setpointSent) syncWidth
      (run (step d) s inp (c + 1 + syncWidth)) :=
  loading_run within.loaded (fun u later => live u (Nat.lt_of_lt_of_le (Nat.succ_pos c) later))
    (Nat.le_refl syncWidth)

theorem resting_or_within (reset : (inp 0).reset = true)
    (live : ∀ u, 0 < u → (inp u).reset = false) (pos : 0 < d) (later : 0 < t) :
    Resting (run (step d) s inp t) ∨ ∃ c, Within d s inp c t := by
  induction t with
  | zero => exact absurd later (Nat.lt_irrefl 0)
  | succ t ih =>
    obtain rfl | earlier := Nat.eq_zero_or_pos t
    · exact .inl (resting_reset reset)
    · obtain resting | ⟨c, within⟩ := ih earlier
      · obtain rest | loaded := (resting.next (d := d) (live t earlier)).1
        · exact .inl rest
        · have idle : (run (step d) s inp t).presentState ≠ .nSyncZero := by
            intro loading
            have clk := resting.clk
            rw [loading] at clk
            exact Nat.not_lt_zero _ clk
          refine .inr ⟨t, ⟨idle, loaded.state⟩, loaded, Nat.lt_succ_self t, ?_⟩
          rw [frameEnd]
          omega
      · obtain inner | last := Nat.lt_or_eq_of_le (Nat.succ_le_of_lt within.high)
        · exact .inr ⟨c, within.loads, within.loaded, Nat.lt_succ_of_lt within.low, inner⟩
        · have done := frame_done (within.shifts live)
            (fun u after => live u (by omega)) pos
          rw [← last] at done
          exact .inl done.resting

/-- Inside a frame, either the word still waits or its bits are being sent. -/
theorem Within.part {c : Nat} (within : Within d s inp c t)
    (live : ∀ u, 0 < u → (inp u).reset = false) (pos : 0 < d) :
    (t ≤ c + 1 + syncWidth ∧
        ∃ w flags, Loading w flags (t - (c + 1)) (run (step d) s inp t)) ∨
      c + 1 + syncWidth < t ∧ ∃ w flags q r, Shifting w flags q r (run (step d) s inp t) := by
  obtain waits | sends := Nat.lt_or_ge (c + 1 + syncWidth) t
  · obtain ⟨q, r, le, lt, rfl⟩ := half_of pos waits within.high
    have after : ∀ u, c + 1 + syncWidth ≤ u → (inp u).reset = false :=
      fun u le => live u (by omega)
    exact .inr ⟨waits, _, _, q, r, (sending_run (within.shifts live) after pos le lt).shifting⟩
  · obtain ⟨j, rfl⟩ := Nat.exists_eq_add_of_le (Nat.succ_le_of_lt within.low)
    have few : j ≤ syncWidth := by omega
    rw [Nat.add_sub_cancel_left]
    exact .inl ⟨sends, _, _, loading_run within.loaded
      (fun u le => live u (Nat.lt_of_lt_of_le (Nat.succ_pos c) le)) few⟩

theorem Shifting.state_ne {w : BitVec 24} {flags : Nat × Bool} {q r : Nat}
    (shifting : Shifting w flags q r s) : s.presentState ≠ .nSyncZero := by
  rw [shifting.state, halfState]
  split_ifs <;> simp

/-- A word is loaded between two frames only. -/
theorem loaded_of_loads (reset : (inp 0).reset = true)
    (live : ∀ u, 0 < u → (inp u).reset = false) (pos : 0 < d) (later : 0 < t)
    (loads : Loads d s inp t) : Loaded (run (step d) s inp (t + 1)) := by
  obtain resting | ⟨c, within⟩ := resting_or_within reset live pos later
  · obtain rest | loaded := (resting.next (d := d) (live t later)).1
    · have clk : _ < restCount (run (step d) s inp (t + 1)).presentState := rest.clk
      rw [loads.2] at clk
      exact absurd clk (Nat.not_lt_zero _)
    · exact loaded
  · obtain inner | last := Nat.lt_or_eq_of_le (Nat.succ_le_of_lt within.high)
    · have next : Within d s inp c (t + 1) :=
        ⟨within.loads, within.loaded, Nat.lt_succ_of_lt within.low, inner⟩
      obtain ⟨_, _, _, loading⟩ | ⟨sends, _⟩ := within.part live pos
      · exact absurd loading.state loads.1
      · obtain ⟨waits, _⟩ | ⟨_, _, _, _, _, shifting⟩ := next.part live pos
        · exact absurd (Nat.lt_of_succ_le waits) (Nat.lt_asymm sends)
        · exact absurd loads.2 shifting.state_ne
    · have done := frame_done (within.shifts live)
        (fun u after => live u (by omega)) pos
      rw [← last] at done
      exact absurd (done.state.symm.trans loads.2) (by simp)

/-- The clock falls inside a frame only. -/
theorem within_of_falls (reset : (inp 0).reset = true)
    (live : ∀ u, 0 < u → (inp u).reset = false) (pos : 0 < d) (later : 0 < t)
    (fall : falls d s inp t = true) : ∃ c, c + 1 + syncWidth < t ∧ Within d s inp c t := by
  obtain resting | ⟨c, within⟩ := resting_or_within reset live pos later
  · have same : (run (step d) s inp (t + 1)).sclk = _ := (resting.next (live t later)).2
    rw [falls_eq rfl same, Bool.and_not_self] at fall
    exact absurd fall Bool.false_ne_true
  · obtain ⟨waits, _, _, loading⟩ | ⟨sends, _⟩ := within.part live pos
    · have level : (run (step d) s inp (t + 1)).sclk = true ∨
          (run (step d) s inp (t + 1)).sclk = (run (step d) s inp t).sclk := by
        rw [run_succ]
        simp only [step, shift, live t later, loading.state, if_false, Bool.false_eq_true]
        split_ifs
        · exact .inl rfl
        · exact .inr rfl
      obtain high | same := level
      · rw [falls, high] at fall
        exact absurd fall (by simp)
      · rw [falls_eq rfl same, Bool.and_not_self] at fall
        exact absurd fall Bool.false_ne_true
    · exact ⟨c, sends, within⟩

theorem Within.sends {c : Nat} (within : Within d s inp c t)
    (live : ∀ u, 0 < u → (inp u).reset = false) (pos : 0 < d) :
    SendsWord d s inp (run (step d) s inp (c + 1)).shiftReg (c + 1 + syncWidth)
      (frameEnd d (c + 1 + syncWidth)) :=
  sends_loaded (within.shifts live) (fun u after => live u (by omega)) pos

/-- After the reset, whatever `start` and the data do: each loaded word is clocked out in the
frame that follows, most significant bit first, and the clock falls nowhere else. -/
theorem word_serialized (reset : (inp 0).reset = true)
    (live : ∀ u, 0 < u → (inp u).reset = false) (pos : 0 < d) :
    (∀ t, 0 < t → Loads d s inp t →
      ∃ a b, t < a ∧ (∀ u, t < u → u ≤ a → (run (step d) s inp u).presentState = .nSyncZero) ∧
        SendsWord d s inp (run (step d) s inp (t + 1)).shiftReg a b) ∧
      ∀ t, 0 < t → falls d s inp t = true →
        ∃ c a b, Loads d s inp c ∧ SendsWord d s inp (run (step d) s inp (c + 1)).shiftReg a b ∧
          c < a ∧ a < t ∧ t < b := by
  constructor
  · intro t later loads
    have loaded := loaded_of_loads reset live pos later loads
    have within : Within d s inp t (t + 1) :=
      ⟨loads, loaded, Nat.lt_succ_self t, by rw [frameEnd]; omega⟩
    refine ⟨t + 1 + syncWidth, _, by omega, ?_, within.sends live pos⟩
    intro u after before
    obtain ⟨j, rfl⟩ := Nat.exists_eq_add_of_le (Nat.succ_le_of_lt after)
    exact (loading_run loaded (fun v le => live v (Nat.lt_of_lt_of_le (Nat.succ_pos t) le))
      (by omega)).state
  · intro t later fall
    obtain ⟨c, sends, within⟩ := within_of_falls reset live pos later fall
    exact ⟨c, _, _, within.loads, within.sends live pos, by omega, sends, within.high⟩


/-- A reset clock, and `start` high from then on. -/
def started (t : Nat) : Ports := ⟨t == 0, true, 0, 0⟩

/-- The first frame of the initialisation, with two clocks for a half period. -/
theorem reset_word_serialized :
    ∃ a b, SendsWord 2 powerUp started 0x400004#24 a b := by
  have serialized := (@word_serialized 2 powerUp started rfl
    (fun u later => by simp [started, Nat.ne_of_gt later]) Nat.two_pos).1
  obtain ⟨a, b, _, _, sends⟩ := serialized 1 Nat.one_pos ⟨by decide, by decide⟩
  exact ⟨a, b, sends⟩

end Serial

end PscDigpid.Hdl.DacAd5781
