/- Unit: PscDigpid/Hdl/RampPlayback
   layer: result
   source: src/hw/hdl/ramptable_ramp.vhd
   digest: A playback shows the table entry by entry; one of the greatest length never ends. -/

import PscDigpid.Hdl.RamptableRamp
import PscDigpid.Sync.Ticks

set_option autoImplicit false
set_option relaxedAutoImplicit false

namespace PscDigpid.Hdl.RamptableRamp

open PscDigpid.Sync

/-- The ports with another `ramprun`. -/
def Ports.withRamprun (i : Ports) (ramprun : Bool) : Ports :=
  { i with dacCntrl := { i.dacCntrl with ramprun } }

/-- There was a tick at the clock before, after the start at clock 0. -/
def heard (inp : Nat → Ports) (t : Nat) : Bool := decide (2 ≤ t) && (inp (t - 1)).tenkhzTrig

/-- Number of ticks the playback has answered at clock `t`. -/
def answered (inp : Nat → Ports) (t : Nat) : Nat := ticksBefore (heard inp) t

def Undisturbed (inp : Nat → Ports) (t : Nat) : Prop := ∀ v, v < t → (inp v).reset = false

/-- What the setpoint is after `k` entries. -/
def shown (table : BitVec 16 → BitVec 20) (s : Regs) : Nat → BitVec 20
  | 0 => s.rampDacSetpt
  | k + 1 => table (BitVec.ofNat 16 k)

section Playback

variable (table : BitVec 16 → BitVec 20) (len : BitVec 16) (s : Regs) (inp : Nat → Ports)

/-- A playback is started at clock 0, with a table and a length that stay. Ticks are never at
two clocks in turn, and the block RAM has answered when its data is used. -/
structure Playback : Prop where
  idle : s.state = .idle
  starts : (inp 0).dacCntrl.ramprun = true
  spaced : ∀ t, (inp t).tenkhzTrig = true → (inp (t + 1)).tenkhzTrig = false
  length : ∀ t, (inp t).dacCntrl.ramplen = len
  data : ∀ t, (run step s inp t).state = .updateDac →
    (inp t).dacRddata = table (run step s inp t).dacRdaddr

/-- Each tick shows the next entry, the one after the last ends the playback, and until then
`ramprun` makes no difference. -/
structure Plays : Prop where
  entry : ∀ t, 0 < t → Undisturbed inp t → answered inp t ≤ len.toNat →
    (run step s inp t).state ≠ .idle ∧
      (run step s inp t).rampDacSetpt = shown table s (answered inp t)
  ends : ∀ t, Undisturbed inp (t + 1) → answered inp t = len.toNat →
    answered inp (t + 1) = len.toNat + 1 →
    (run step s inp (t + 1)).state = .idle ∧
      (run step s inp (t + 1)).rampDacSetpt = shown table s len.toNat
  deaf : ∀ t ramprun, 0 < t → Undisturbed inp t → answered inp t ≤ len.toNat →
    step (run step s inp t) ((inp t).withRamprun ramprun) = step (run step s inp t) (inp t)

/-- The machine after `k` entries, with or without a tick still to answer. -/
structure Playing (k : Nat) (tick : Bool) (s' : Regs) : Prop where
  state : s'.state = if tick then .updateDac else .runRamp
  addr : s'.dacRdaddr = BitVec.ofNat 16 k
  setpt : s'.rampDacSetpt = shown table s k

end Playback

section Step

variable {table : BitVec 16 → BitVec 20} {s s' : Regs} {i : Ports} {k : Nat}

theorem playing_start (running : i.reset = false) (idle : s.state = .idle)
    (starts : i.dacCntrl.ramprun = true) : Playing table s 0 false (step s i) := by
  constructor <;> simp [step, running, idle, starts, shown]

theorem Playing.busy {tick : Bool} (playing : Playing table s k tick s') : s'.state ≠ .idle := by
  rw [playing.state]
  cases tick <;> simp

/-- Until the next tick nothing changes. -/
theorem playing_wait (running : i.reset = false) (playing : Playing table s k false s') :
    Playing table s k i.tenkhzTrig (step s' i) := by
  obtain ⟨state, addr, setpt⟩ := playing
  rw [if_neg Bool.false_ne_true] at state
  cases tick : i.tenkhzTrig with
  | true => constructor <;> simp [step, running, state, tick, addr, setpt]
  | false => constructor <;> simp [step, running, state, tick, addr, setpt]

theorem playing_addr (addr : s'.dacRdaddr = BitVec.ofNat 16 k) :
    s'.dacRdaddr + 1 = BitVec.ofNat 16 (k + 1) := by
  rw [addr, BitVec.ofNat_add]
  rfl

/-- An address that is still within the length when incremented brings the next entry. -/
theorem playing_next (running : i.reset = false) (playing : Playing table s k true s')
    (data : i.dacRddata = table s'.dacRdaddr)
    (within : (k + 1) % 65536 ≤ i.dacCntrl.ramplen.toNat) :
    Playing table s (k + 1) false (step s' i) := by
  obtain ⟨state, addr, setpt⟩ := playing
  rw [if_pos rfl] at state
  have next := playing_addr addr
  have more : ¬ i.dacCntrl.ramplen.toNat < (s'.dacRdaddr + 1).toNat := by
    rw [next, BitVec.toNat_ofNat]
    omega
  rw [step, running, if_neg Bool.false_ne_true, state]
  dsimp only
  rw [if_neg more]
  refine ⟨rfl, next, ?_⟩
  rw [data, addr]
  rfl

/-- One beyond the length it ends the playback. -/
theorem playing_last (running : i.reset = false) (playing : Playing table s k true s')
    (beyond : i.dacCntrl.ramplen.toNat < (k + 1) % 65536) :
    (step s' i).state = .idle ∧ (step s' i).rampDacSetpt = shown table s k := by
  obtain ⟨state, addr, setpt⟩ := playing
  rw [if_pos rfl] at state
  have passed : i.dacCntrl.ramplen.toNat < (s'.dacRdaddr + 1).toNat := by
    rw [playing_addr addr, BitVec.toNat_ofNat]
    omega
  rw [step, running, if_neg Bool.false_ne_true, state]
  dsimp only
  rw [if_pos passed]
  exact ⟨rfl, setpt⟩

/-- Only in IDLE does the machine look at `ramprun`. -/
theorem step_withRamprun (busy : s.state ≠ .idle) (ramprun : Bool) :
    step s (i.withRamprun ramprun) = step s i := by
  unfold step Ports.withRamprun
  cases state : s.state with
  | idle => exact absurd state busy
  | runRamp => rfl
  | updateDac => rfl

end Step

section Runs

variable {table : BitVec 16 → BitVec 20} {len : BitVec 16} {s : Regs} {inp : Nat → Ports}
  {t : Nat}

theorem heard_succ (later : 0 < t) : heard inp (t + 1) = (inp t).tenkhzTrig := by
  simp [heard, Nat.succ_le_of_lt later]

theorem answered_zero : answered inp 0 = 0 := ticksBefore_zero _

theorem answered_one : answered inp 1 = 0 := by
  rw [answered, ticksBefore_idle (by simp [heard]), ticksBefore_zero]

theorem Undisturbed.before (undisturbed : Undisturbed inp t) {u : Nat} (le : u ≤ t) :
    Undisturbed inp u :=
  fun v lt => undisturbed v (Nat.lt_of_lt_of_le lt le)

/-- While no address is beyond the length, every tick brings the next entry. -/
theorem playing_run (playback : Playback table len s inp) (later : 0 < t)
    (undisturbed : Undisturbed inp t)
    (within : ∀ k, k < answered inp t → (k + 1) % 65536 ≤ len.toNat) :
    Playing table s (answered inp t) (heard inp t) (run step s inp t) := by
  induction t, Nat.succ_le_of_lt later using Nat.le_induction with
  | base =>
      rw [Nat.succ_eq_add_one, Nat.zero_add, answered_one]
      exact playing_start (undisturbed 0 (by omega)) playback.idle playback.starts
  | succ t from_one ih =>
      have grows := ticksBefore_mono (heard inp) (Nat.le_succ t)
      have playing := ih from_one (undisturbed.before (Nat.le_succ t))
        fun k lt => within k (Nat.lt_of_lt_of_le lt grows)
      have running := undisturbed t (Nat.lt_succ_self t)
      rw [run_succ]
      cases tick : heard inp t with
      | false =>
          rw [tick] at playing
          rw [answered, ticksBefore_idle tick, heard_succ from_one]
          exact playing_wait running playing
      | true =>
          rw [tick] at playing
          have count : answered inp (t + 1) = answered inp t + 1 := ticksBefore_tick tick
          have quiet : heard inp (t + 1) = false := by
            obtain ⟨_, fired⟩ := Bool.and_eq_true_iff.1 tick
            have apart := playback.spaced (t - 1) fired
            rw [Nat.sub_add_cancel from_one] at apart
            rw [heard_succ from_one, apart]
          rw [count, quiet]
          refine playing_next running playing (playback.data t playing.state) ?_
          rw [playback.length t]
          exact within _ (by omega)

theorem within_of_le {n : Nat} (le : n ≤ len.toNat) (k : Nat) (lt : k < n) :
    (k + 1) % 65536 ≤ len.toNat :=
  Nat.le_trans (Nat.mod_le _ _) (by omega)

/-- With the greatest length no address is ever beyond it. -/
theorem within_greatest (greatest : len = 65535) (k : Nat) : (k + 1) % 65536 ≤ len.toNat := by
  subst greatest
  exact Nat.le_of_lt_succ (Nat.mod_lt _ (by decide))

/-- A tick that is counted was at the clock before. -/
theorem heard_of_answered (more : answered inp t < answered inp (t + 1)) : heard inp t = true := by
  by_contra silent
  rw [answered, answered, ticksBefore_idle (by simpa using silent)] at more
  exact absurd more (Nat.lt_irrefl _)

/-- The count passes every number on its way to a greater one. -/
theorem answered_passes {n : Nat} (reached : n < answered inp t) :
    ∃ u, u < t ∧ answered inp u = n ∧ answered inp (u + 1) = n + 1 := by
  induction t with
  | zero =>
      rw [answered_zero] at reached
      exact absurd reached (Nat.not_lt_zero n)
  | succ t ih =>
      by_cases early : n < answered inp t
      · obtain ⟨u, before, count⟩ := ih early
        exact ⟨u, Nat.lt_succ_of_lt before, count⟩
      · have step : answered inp (t + 1) = answered inp t + (heard inp t).toNat :=
          ticksBefore_succ _ _
        have one := Bool.toNat_le (heard inp t)
        exact ⟨t, Nat.lt_succ_self t, by omega, by omega⟩

/-- A playback of any length shows its entries and then ends, but for the greatest length. -/
theorem plays_of_shorter (playback : Playback table len s inp)
    (ends : len ≠ 65535 ∨ ∀ t, Undisturbed inp t → answered inp t ≤ 65535) :
    Plays table len s inp := by
  have playing {t : Nat} (later : 0 < t) (undisturbed : Undisturbed inp t)
      (le : answered inp t ≤ len.toNat) :=
    playing_run playback later undisturbed (within_of_le le)
  refine ⟨?_, ?_, ?_⟩
  · intro t later undisturbed le
    exact ⟨(playing later undisturbed le).busy, (playing later undisturbed le).setpt⟩
  · intro t undisturbed count next
    have later : 0 < t := by
      rw [Nat.pos_iff_ne_zero]
      rintro rfl
      rw [answered_one] at next
      exact absurd next (Nat.succ_ne_zero _).symm
    have due := playing later (undisturbed.before (Nat.le_succ t)) (Nat.le_of_eq count)
    rw [heard_of_answered (by omega), count] at due
    have short : len.toNat ≠ 65535 := by
      intro greatest
      rcases ends with shorter | few
      · exact shorter (BitVec.eq_of_toNat_eq greatest)
      · have bound := few (t + 1) undisturbed
        omega
    have bound := len.isLt
    refine playing_last (undisturbed t (Nat.lt_succ_self t)) due ?_
    rw [playback.length t, Nat.mod_eq_of_lt (by omega)]
    exact Nat.lt_succ_self _
  · intro t ramprun later undisturbed le
    exact step_withRamprun (playing later undisturbed le).busy ramprun

/-- After 65536 ticks a playback of the greatest length is still under way. -/
theorem not_plays_of_greatest (playback : Playback table len s inp) (greatest : len = 65535)
    (undisturbed : Undisturbed inp t) (reached : 65535 < answered inp t) :
    ¬ Plays table len s inp := by
  intro plays
  obtain ⟨u, before, count, next⟩ := answered_passes reached
  have early := undisturbed.before (Nat.succ_le_of_lt before)
  have length : len.toNat = 65535 := by rw [greatest]; rfl
  have playing := playing_run playback (Nat.succ_pos u) early
    fun k _ => within_greatest greatest k
  exact playing.busy (plays.ends u early (by rw [count, length]) (by rw [next, length])).1

/-- A playback is right exactly when its length is not the greatest or no 65536 ticks come
before a reset. -/
theorem plays_iff_ends (playback : Playback table len s inp) :
    Plays table len s inp ↔
      len ≠ 65535 ∨ ∀ t, Undisturbed inp t → answered inp t ≤ 65535 := by
  refine ⟨?_, plays_of_shorter playback⟩
  intro plays
  by_contra never
  obtain ⟨greatest, often⟩ := not_or.1 never
  push Not at greatest often
  obtain ⟨t, undisturbed, reached⟩ := often
  exact not_plays_of_greatest playback greatest undisturbed reached plays

end Runs

/-- A playback of a table of one value, with a tick at every other clock. -/
def everyOther (len : BitVec 16) (t : Nat) : Ports where
  reset := false
  tenkhzTrig := t % 2 == 1
  dacCntrl := ⟨0, t == 0, len, 0x100000, 0, 0, 0, 0, 0, false, false, 1⟩
  dacRddata := 1000

theorem everyOther_playback (len : BitVec 16) :
    Playback (fun _ => 1000) len powerUp (everyOther len) where
  idle := rfl
  starts := rfl
  spaced := by
    intro t fires
    simp only [everyOther, beq_iff_eq, beq_eq_false_iff_ne] at fires ⊢
    omega
  length := fun _ => rfl
  data := fun _ _ => rfl

theorem answered_everyOther (len : BitVec 16) (t : Nat) :
    answered (everyOther len) t = (t - 1) / 2 := by
  apply ticksBefore_every
  intro t
  rw [Bool.eq_iff_iff, heard, everyOther]
  simp only [Bool.and_eq_true, decide_eq_true_eq, beq_iff_eq]
  omega

theorem three_entries_play : Plays (fun _ => 1000) 3 powerUp (everyOther 3) :=
  (plays_iff_ends (everyOther_playback 3)).2 (.inl (by decide))

/-- The greatest length the register can hold is played over and over. -/
theorem greatest_length_repeats : ¬ ∀ table len s inp, Playback table len s inp →
    Plays table len s inp := by
  intro plays
  refine not_plays_of_greatest (everyOther_playback 65535) rfl (t := 131073)
    (fun v _ => rfl) ?_ (plays _ _ _ _ (everyOther_playback 65535))
  rw [answered_everyOther]
  decide

end PscDigpid.Hdl.RamptableRamp
