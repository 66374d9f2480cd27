/- Unit: PscDigpid/Hdl/RampOutput
   layer: result
   source: src/hw/hdl/dac_chan.vhd (rampmode), src/hw/hdl/ramptable_ramp.vhd
   digest: What a channel in ramp mode converts at each tick after the start of a playback. -/

import PscDigpid.Hdl.DacOutput
import PscDigpid.Hdl.RampPlayback

set_option autoImplicit false
set_option relaxedAutoImplicit false

namespace PscDigpid.Hdl.DacChan

open PscDigpid.Sync

section Playback

variable (table : BitVec 16 → BitVec 20) (len : BitVec 16) (inp : Nat → Ports) (a : Nat)

/-- What the playback machine sees from clock `a` on. -/
def rampLine (t : Nat) : RamptableRamp.Ports := rampPorts (inp (a + t))

/-- Number of ticks after clock `a` and before clock `t`. -/
def passed (t : Nat) : Nat := ticksBefore (fun v => decide (a < v) && (inp v).tenkhzTrig) t

/-- A playback is started at clock `a` in ramp mode, with a length that stays and a block RAM that
has answered when its data is used. -/
structure Replay : Prop where
  clocked : Clocked inp
  later : 0 < a
  idle : (run step powerUp inp a).rampmode.state = .idle
  starts : (inp a).dacCntrl.ramprun = true
  mode : ∀ t, a ≤ t → (inp t).dacCntrl.mode = 1#2
  length : ∀ t, a ≤ t → (inp t).dacCntrl.ramplen = len
  data : ∀ t, a ≤ t → (run step powerUp inp t).rampmode.state = .updateDac →
    (inp t).dacRddata = table (run step powerUp inp t).rampmode.dacRdaddr

end Playback

section Runs

variable {table : BitVec 16 → BitVec 20} {len : BitVec 16} {inp : Nat → Ports} {a t u : Nat}

theorem ramp_run (inp : Nat → Ports) (a t : Nat) : (run step powerUp inp (a + t)).rampmode =
    run RamptableRamp.step (run step powerUp inp a).rampmode (rampLine inp a) t := by
  rw [run_add]
  exact run_project (fun s : Regs => s.rampmode) (fun _ i => rampPorts i) (fun _ => rfl) t

theorem Replay.playback (replay : Replay table len inp a) :
    RamptableRamp.Playback table len (run step powerUp inp a).rampmode (rampLine inp a) where
  idle := replay.idle
  starts := replay.starts
  spaced t ticks := by
    cases again : (rampLine inp a (t + 1)).tenkhzTrig with
    | false => rfl
    | true =>
      have live : ∀ v, (inp (a + v)).reset = false :=
        fun v => replay.clocked.live _ (Nat.add_pos_left replay.later v)
      have here : fires inp (a + t) = true := Bool.and_eq_true_iff.2 ⟨ticks, by simp [live]⟩
      have next : fires inp (a + (t + 1)) = true := Bool.and_eq_true_iff.2 ⟨again, by simp [live]⟩
      have apart := replay.clocked.spaced _ _ here next (by omega)
      omega
  length t := replay.length _ (Nat.le_add_right a t)
  data t busy := by
    rw [← ramp_run] at busy ⊢
    exact replay.data _ (Nat.le_add_right a t) busy

theorem Replay.undisturbed (replay : Replay table len inp a) (t : Nat) :
    RamptableRamp.Undisturbed (rampLine inp a) t :=
  fun v _ => replay.clocked.live _ (Nat.add_pos_left replay.later v)

theorem passed_succ (inp : Nat → Ports) (a t : Nat) : passed inp a (t + 1) =
    passed inp a t + (decide (a < t) && (inp t).tenkhzTrig).toNat :=
  ticksBefore_succ _ _

/-- A tick is answered two clocks later. -/
theorem answered_passed (inp : Nat → Ports) (a t : Nat) :
    RamptableRamp.answered (rampLine inp a) (t + 1) = passed inp a (a + t) := by
  induction t with
  | zero =>
    rw [RamptableRamp.answered_one]
    refine (Nat.count_iff_forall_not.2 ?_).symm
    intro v early later
    exact absurd (of_decide_eq_true (Bool.and_eq_true_iff.1 later).1) (Nat.lt_asymm early)
  | succ t ih =>
    have answers : RamptableRamp.answered (rampLine inp a) (t + 1 + 1) =
        RamptableRamp.answered (rampLine inp a) (t + 1) +
          (RamptableRamp.heard (rampLine inp a) (t + 1)).toNat := ticksBefore_succ _ _
    have counts := passed_succ inp a (a + t)
    rw [answers, ih, ← Nat.add_assoc, counts]
    congr 2
    cases t with
    | zero => simp [RamptableRamp.heard]
    | succ t => simp [RamptableRamp.heard, rampLine, rampPorts]

/-- At a tick all the earlier ticks have been answered. -/
theorem Replay.answered (replay : Replay table len inp a) (fired : fires inp u = true)
    (after : a < u) :
    RamptableRamp.answered (rampLine inp a) (u - a) = passed inp a u := by
  obtain ⟨t, rfl⟩ := Nat.exists_eq_add_of_lt after
  have none : (decide (a < a + t) && (inp (a + t)).tenkhzTrig) = false := by
    cases tick : (inp (a + t)).tenkhzTrig with
    | false => exact Bool.and_false _
    | true =>
      have live := replay.clocked.live (a + t) (Nat.add_pos_left replay.later t)
      have before : fires inp (a + t) = true := Bool.and_eq_true_iff.2 ⟨tick, by simp [live]⟩
      have apart := replay.clocked.spaced _ _ before fired (Nat.lt_succ_self _)
      omega
  rw [passed_succ, none, Bool.toNat_false, Nat.add_zero, Nat.add_assoc, Nat.add_sub_cancel_left]
  exact answered_passed inp a t

theorem Replay.source (replay : Replay table len inp a) (after : a < u) :
    source (run step powerUp inp u) (inp u) (inp u).dacCntrl.mode =
      (run step powerUp inp u).rampmode.rampDacSetpt := by
  rw [replay.mode u (Nat.le_of_lt after)]
  rfl

theorem ramp_at (inp : Nat → Ports) (after : a < u) :
    (run step powerUp inp u).rampmode =
      run RamptableRamp.step (run step powerUp inp a).rampmode (rampLine inp a) (u - a) := by
  rw [← ramp_run, Nat.add_sub_cancel' (Nat.le_of_lt after)]

/-- A tick within the playback converts the entry that the tick before it has brought. -/
theorem Replay.shows (replay : Replay table len inp a) (short : len ≠ 65535)
    (fired : fires inp u = true) (after : a < u) (within : passed inp a u ≤ len.toNat) :
    (operandsOf powerUp inp u).raw =
      RamptableRamp.shown table (run step powerUp inp a).rampmode (passed inp a u) := by
  have plays := RamptableRamp.plays_of_shorter replay.playback (.inl short)
  rw [← replay.answered fired after] at within ⊢
  obtain ⟨-, setpt⟩ := plays.entry (u - a) (Nat.sub_pos_of_lt after) (replay.undisturbed _) within
  rw [← setpt, operandsOf]
  dsimp only
  rw [replay.source after, ramp_at inp after]

/-- A machine that has ended its playback keeps the last entry while it is not started again. -/
theorem ended_keeps {s : RamptableRamp.Regs} {line : Nat → RamptableRamp.Ports} {b : Nat}
    (idle : (run RamptableRamp.step s line b).state = .idle)
    (live : ∀ v, b ≤ v → (line v).reset = false)
    (none : ∀ v, b ≤ v → (line v).dacCntrl.ramprun = false) (le : b ≤ t) :
    (run RamptableRamp.step s line t).state = .idle ∧
      (run RamptableRamp.step s line t).rampDacSetpt =
        (run RamptableRamp.step s line b).rampDacSetpt := by
  refine stretch_induction
    (P := fun t => (run RamptableRamp.step s line t).state = .idle ∧
      (run RamptableRamp.step s line t).rampDacSetpt =
        (run RamptableRamp.step s line b).rampDacSetpt) le ⟨idle, rfl⟩ fun v low _ same => ?_
  obtain ⟨state, setpt⟩ := same
  rw [run_succ, RamptableRamp.step, live v low, if_neg Bool.false_ne_true, state, none v low]
  exact ⟨rfl, setpt⟩

/-- The ticks after the playback convert its last entry. -/
theorem Replay.holds (replay : Replay table len inp a) (short : len ≠ 65535)
    (fired : fires inp u = true) (after : a < u) (beyond : len.toNat < passed inp a u)
    (none : ∀ t, a < t → (inp t).dacCntrl.ramprun = false) :
    (operandsOf powerUp inp u).raw =
      RamptableRamp.shown table (run step powerUp inp a).rampmode len.toNat := by
  have plays := RamptableRamp.plays_of_shorter replay.playback (.inl short)
  rw [← replay.answered fired after] at beyond
  obtain ⟨b, before, count, next⟩ := RamptableRamp.answered_passes beyond
  obtain ⟨idle, last⟩ := plays.ends b (replay.undisturbed _) count next
  obtain ⟨-, same⟩ := ended_keeps idle
    (fun v _ => replay.clocked.live _ (Nat.add_pos_left replay.later v))
    (fun v low => none _ (by omega)) before
  rw [← last, ← same, operandsOf]
  dsimp only
  rw [replay.source after, ramp_at inp after]

end Runs

end PscDigpid.Hdl.DacChan
