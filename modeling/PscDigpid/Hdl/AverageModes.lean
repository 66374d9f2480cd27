/- Unit: PscDigpid/Hdl/AverageModes
   layer: result
   source: src/hw/hdl/average.vhd (IDLE, WRITE_TO_RAM)
   digest: The write index of an averager while its mode changes. -/

import PscDigpid.Hdl.AverageWindow

set_option autoImplicit false
set_option relaxedAutoImplicit false

namespace PscDigpid.Hdl.Average

open PscDigpid.Sync

/-- A pass that goes to the memory begins at this clock edge. -/
def begins (s : Regs) (i : Ports) : Bool :=
  !i.reset && (decide (s.presentState = .idle) && (i.start && decide (s.mode ≠ 0)))

/-- The write index stays in the memory, and in the window of a mode that is kept after 501 more
samples. -/
structure SurvivesSwitches (s : Regs) (inp : Nat → Ports) : Prop where
  inside : ∀ t, presents (run step s inp t) (inp t) = true →
    (run step s inp t).ramCnt ≠ (run step s inp t).addrMax → (run step s inp t).ramCnt ≤ 499
  settles : ∀ a mode, mode ≠ 0 → (∀ t, a ≤ t → (run step s inp t).mode = mode) →
    ∀ t, a ≤ t → (presented s inp a).length + 501 ≤ (presented s inp t).length →
      (run step s inp t).ramCnt ≤ size mode

/-- The window of the last pass to the memory that began before clock `t`, if there is one. -/
def lastSize (s : Regs) (inp : Nat → Ports) : Nat → Option Nat
  | 0 => none
  | t + 1 =>
      if begins (run step s inp t) (inp t) then some (size (run step s inp t).mode)
      else lastSize s inp t

/-- A pass that begins with another window than the pass before has the write index in it. -/
def SwitchesInside (s : Regs) (inp : Nat → Ports) : Prop :=
  ∀ t n, begins (run step s inp t) (inp t) = true → lastSize s inp t = some n →
    n ≠ size (run step s inp t).mode → (run step s inp t).ramCnt ≤ size (run step s inp t).mode

/-- Where the write index is before clock `t`: in every window while no pass has begun, and then in
the window of the last pass, which is the one compared with when its sample comes. -/
inductive Place (s : Regs) (inp : Nat → Ports) (t : Nat) : Prop
  | first (none : lastSize s inp t = none) (low : (run step s inp t).ramCnt ≤ 10)
      (unwritten : (run step s inp t).presentState ≠ .writeToRam)
  | within {n : Nat} (last : lastSize s inp t = some n) (inside : (run step s inp t).ramCnt ≤ n)
      (most : (run step s inp t).presentState = .writeToRam → (run step s inp t).addrMax = n)

section Step

variable {s : Regs} {i : Ports}

/-- The write index goes on only with what is presented. -/
theorem step_ramCnt : (step s i).ramCnt =
    if presents s i then (if s.ramCnt = s.addrMax then 0 else s.ramCnt + 1) else s.ramCnt := by
  have next := congrArg Circular.place (kept_step (s := s) (i := i))
  change (step s i).ramCnt = _ at next
  rw [next]
  split
  · rw [Circular.put]
    change (if s.ramCnt = s.addrMax then _ else _ : Circular _).place = _
    split <;> rfl
  · rfl

/-- A pass to the memory has just begun when a sample is about to be presented. -/
theorem begins_of_write (write : (step s i).presentState = .writeToRam) :
    begins s i = true ∧ (step s i).addrMax = size s.mode ∧ (step s i).ramCnt = s.ramCnt := by
  cases live : i.reset with
  | true =>
      rw [(reset_idle live).1] at write
      exact absurd write (by decide)
  | false =>
      cases state : s.presentState with
      | idle =>
          have quiet : presents s i = false := by
            rw [presents, state, decide_eq_false (by decide), Bool.and_false]
          rw [step_ramCnt, quiet]
          rw [step, storage, if_neg (by rw [live]; decide), state] at write
          dsimp only at write
          cases start : i.start with
          | false =>
              rw [start, if_neg Bool.false_ne_true] at write
              cases write
          | true =>
              by_cases none : s.mode = 0
              · rw [start, if_pos rfl, beginPass, if_pos none] at write
                cases write
              · refine ⟨?_, (step_begin live state start none).2.1, rfl⟩
                rw [begins, live, state, start, decide_eq_true none]
                rfl
      | writeToRam =>
          rw [(step_write live state).1] at write
          exact absurd write (by decide)
      | accumulate =>
          by_cases full : s.addrCnt = s.addrMax
          · rw [(step_full live state full).1] at write
            exact absurd write (by decide)
          · rw [(step_add live state full).1] at write
            exact absurd write (by decide)
      | finished =>
          rw [(step_publish live state).1] at write
          exact absurd write (by decide)

theorem presents_state (comes : presents s i = true) : s.presentState = .writeToRam :=
  of_decide_eq_true (Bool.and_eq_true_iff.1 comes).2

/-- The clock at which a pass begins leaves the write index. -/
theorem begins_ramCnt (begun : begins s i = true) : (step s i).ramCnt = s.ramCnt := by
  have idle : s.presentState = .idle :=
    of_decide_eq_true (Bool.and_eq_true_iff.1 (Bool.and_eq_true_iff.1 begun).2).1
  have quiet : presents s i = false := by
    rw [presents, idle, decide_eq_false (by decide), Bool.and_false]
  rw [step_ramCnt, quiet]
  rfl

theorem ten_le_size {mode : BitVec 2} (some : mode ≠ 0) : 10 ≤ size mode := by
  rw [size, if_neg some]
  split_ifs
  · decide
  · decide
  · exact le_rfl

theorem begins_mode (begun : begins s i = true) : s.mode ≠ 0 :=
  of_decide_eq_true
    (Bool.and_eq_true_iff.1 (Bool.and_eq_true_iff.1 (Bool.and_eq_true_iff.1 begun).2).2).2

end Step

section Run

variable {s : Regs} {inp : Nat → Ports} {t n : Nat}

theorem lastSize_begun (begun : begins (run step s inp t) (inp t) = true) :
    lastSize s inp (t + 1) = some (size (run step s inp t).mode) :=
  if_pos begun

theorem lastSize_kept (none : ¬ begins (run step s inp t) (inp t) = true) :
    lastSize s inp (t + 1) = lastSize s inp t :=
  if_neg none

/-- A pass that begins has the write index in its window. -/
theorem Place.begun (place : Place s inp t) (begun : begins (run step s inp t) (inp t) = true)
    (switch : ∀ n, lastSize s inp t = some n → n ≠ size (run step s inp t).mode →
      (run step s inp t).ramCnt ≤ size (run step s inp t).mode) : Place s inp (t + 1) := by
  have index : (run step s inp (t + 1)).ramCnt = (run step s inp t).ramCnt := begins_ramCnt begun
  refine .within (lastSize_begun begun) ?_ fun write => (begins_of_write write).2.1
  rw [index]
  cases place with
  | first none low unwritten => exact low.trans (ten_le_size (begins_mode begun))
  | @within n last inside most =>
      by_cases same : n = size (run step s inp t).mode
      · rw [← same]
        exact inside
      · exact switch n last same

/-- Any other clock keeps the index in the window of the last pass. -/
theorem Place.kept (place : Place s inp t)
    (none : ¬ begins (run step s inp t) (inp t) = true) : Place s inp (t + 1) := by
  have unwritten : (run step s inp (t + 1)).presentState ≠ .writeToRam :=
    fun write => none (begins_of_write write).1
  have last := lastSize_kept none
  have next : (run step s inp (t + 1)).ramCnt = _ := step_ramCnt
  cases comes : presents (run step s inp t) (inp t) with
  | false =>
      rw [comes, if_neg Bool.false_ne_true] at next
      cases place with
      | first never low _ => exact .first (last.trans never) (next ▸ low) unwritten
      | within before inside _ =>
          exact .within (last.trans before) (next ▸ inside) fun write => absurd write unwritten
  | true =>
      rw [comes, if_pos rfl] at next
      cases place with
      | first _ _ other => exact absurd (presents_state comes) other
      | within before inside most =>
          have full := most (presents_state comes)
          refine .within (last.trans before) ?_ fun write => absurd write unwritten
          rw [next]
          split
          · exact Nat.zero_le _
          · omega

/-- The index is in its place as long as the switches before have met the condition. -/
theorem place_run (idle : s.presentState = .idle) (low : s.ramCnt ≤ 10)
    (switches : ∀ u < t, ∀ n, begins (run step s inp u) (inp u) = true →
      lastSize s inp u = some n → n ≠ size (run step s inp u).mode →
        (run step s inp u).ramCnt ≤ size (run step s inp u).mode) : Place s inp t := by
  induction t with
  | zero =>
      refine .first rfl low ?_
      rw [run_zero, idle]
      decide
  | succ t ih =>
      have before := ih fun u earlier => switches u (Nat.lt_succ_of_lt earlier)
      by_cases begun : begins (run step s inp t) (inp t) = true
      · exact before.begun begun fun n => switches t (Nat.lt_succ_self t) n begun
      · exact before.kept begun

/-- When a sample is presented, the write index is in the window of the pass, begun a clock
before. -/
theorem write_inside (idle : s.presentState = .idle) (low : s.ramCnt ≤ 10)
    (condition : SwitchesInside s inp) (write : (run step s inp t).presentState = .writeToRam) :
    ∃ u, t = u + 1 ∧ (run step s inp t).addrMax = size (run step s inp u).mode ∧
      (run step s inp t).ramCnt ≤ (run step s inp t).addrMax := by
  have place : Place s inp t := place_run idle low fun u _ => condition u
  cases place with
  | first none low unwritten => exact absurd write unwritten
  | within last inside most =>
      cases t with
      | zero => exact absurd (idle.symm.trans write) (by decide)
      | succ u => exact ⟨u, rfl, (begins_of_write write).2.1, inside.trans_eq (most write).symm⟩

/-- Two samples after the mode is kept, the index is in its window. -/
theorem index_settles {a : Nat} {mode : BitVec 2} (idle : s.presentState = .idle)
    (low : s.ramCnt ≤ 10) (condition : SwitchesInside s inp)
    (held : ∀ t, a ≤ t → (run step s inp t).mode = mode) (le : a ≤ t)
    (more : (presented s inp a).length + 2 ≤ (presented s inp t).length) :
    (run step s inp t).ramCnt ≤ size mode := by
  induction t, le using Nat.le_induction with
  | base => exact absurd more (by omega)
  | succ t le ih =>
      rw [run_succ, step_ramCnt]
      rw [presented] at more
      cases comes : presents (run step s inp t) (inp t) with
      | false =>
          rw [comes, if_neg Bool.false_ne_true] at more
          exact ih more
      | true =>
          -- the sample before this one was also presented in the mode, so this pass is one of it
          rw [comes, if_pos rfl, List.length_cons] at more
          have later : a ≠ t := by
            rintro rfl
            omega
          obtain ⟨u, rfl, most, inside⟩ :=
            write_inside idle low condition (presents_state comes)
          rw [held u (by omega)] at most
          rw [if_pos rfl]
          split
          · exact Nat.zero_le _
          · omega

end Run

/-- While a pass that changes the window has the write index in the new one, the index stays in the
memory, and in a mode that is kept it comes to the window and stays there. -/
theorem survives_switches (s : Regs) (inp : Nat → Ports) (idle : s.presentState = .idle)
    (low : s.ramCnt ≤ 10) (condition : SwitchesInside s inp) : SurvivesSwitches s inp := by
  constructor
  · intro t comes differs
    obtain ⟨u, rfl, most, inside⟩ := write_inside idle low condition (presents_state comes)
    have small := size_le (run step s inp u).mode
    omega
  · intro a mode _ held t le more
    exact index_settles idle low condition held le (by omega)

section Widening

variable {s : Regs} {inp : Nat → Ports} {t n : Nat}

theorem lastSize_some (last : lastSize s inp t = some n) :
    ∃ u < t, n = size (run step s inp u).mode := by
  induction t with
  | zero => cases last
  | succ t ih =>
      by_cases begun : begins (run step s inp t) (inp t) = true
      · rw [lastSize_begun begun] at last
        exact ⟨t, Nat.lt_succ_self t, (Option.some.inj last).symm⟩
      · rw [lastSize_kept begun] at last
        obtain ⟨u, earlier, same⟩ := ih last
        exact ⟨u, Nat.lt_succ_of_lt earlier, same⟩

/-- A window that only grows meets the condition. -/
theorem switchesInside_of_growing (idle : s.presentState = .idle) (low : s.ramCnt ≤ 10)
    (grows : ∀ t n, begins (run step s inp t) (inp t) = true → lastSize s inp t = some n →
      n ≤ size (run step s inp t).mode) : SwitchesInside s inp := by
  intro t
  induction t using Nat.strong_induction_on with
  | _ t ih =>
      intro n begun last _
      have place : Place s inp t := place_run idle low ih
      cases place with
      | first none low unwritten => cases none.symm.trans last
      | within last' inside most =>
          cases last.symm.trans last'
          exact inside.trans (grows t n begun last)

end Widening

/-- The mode of ten first and the mode of 500 from clock 1000 on. -/
def lengthened (t : Nat) : Ports := ⟨decide (t = 0), true, 5, if t < 1000 then 3 else 2⟩

theorem lengthened_mode (t : Nat) : (run step powerUp lengthened (t + 1)).mode =
    if t < 1000 then 3 else 2 := rfl

/-- The index survives the switch to the longer window. -/
theorem lengthened_survives : SurvivesSwitches powerUp lengthened := by
  refine survives_switches powerUp lengthened rfl (Nat.zero_le _)
    (switchesInside_of_growing rfl (Nat.zero_le _) ?_)
  intro t n begun last
  obtain ⟨u, earlier, rfl⟩ := lastSize_some last
  obtain ⟨t, rfl⟩ : ∃ v, t = v + 1 := ⟨t - 1, by omega⟩
  rw [lengthened_mode]
  cases u with
  | zero =>
      refine Nat.le_trans (show size 0 ≤ 10 by decide) (ten_le_size ?_)
      split_ifs <;> decide
  | succ u =>
      rw [lengthened_mode]
      split_ifs
      · exact le_rfl
      · decide
      · omega
      · exact le_rfl

section Switch

theorem stored_index (s : Regs) (inp : Nat → Ports) (t : Nat) :
    (stored s inp t).1.place = (run step s inp t).ramCnt ∧
      (stored s inp t).2 = presented s inp t := ⟨rfl, rfl⟩

/-- Eleven samples in the mode of 500, then the mode of ten. -/
def shortened (t : Nat) : Ports := ⟨decide (t = 0), true, 0, if t < 5544 then 2 else 3⟩

theorem shortened_live (k : Nat) : (shortened (1 + k)).reset = false :=
  decide_eq_false (by omega)

theorem shortened_before {t : Nat} (early : t < 5544) :
    (run step powerUp shortened (t + 1)).mode = 2 := if_pos early

theorem shortened_after {t : Nat} (late : 5545 ≤ t) :
    (run step powerUp shortened t).mode = 3 := by
  obtain ⟨t, rfl⟩ : ∃ u, t = u + 1 := ⟨t - 1, by omega⟩
  exact if_neg (by omega)

/-- After the eleven samples the index is past the window of ten. -/
theorem shortened_index : Between (run step powerUp shortened 5545) ∧
    (stored powerUp shortened 5545).1.place = 11 := by
  have reset := reset_idle (s := powerUp) (i := shortened 0) rfl
  have first : Between (run step powerUp shortened 1) := ⟨reset.1, reset.2⟩
  obtain ⟨between, before⟩ := passes_run first (show (2 : BitVec 2) ≠ 0 by decide)
    (fun _ => rfl) shortened_live (n := 11) (fun k low => by
      rw [Nat.add_comm]
      exact shortened_before (by change k * 504 < 5544; omega))
  have clocks : 1 + 11 * (size 2 + 4) = 5545 := rfl
  rw [clocks] at between before
  refine ⟨between, ?_⟩
  rw [before, Circular.place_puts (Nat.zero_le 500), length_passed]
  rfl

/-- From there the index only goes on. -/
theorem shortened_runs_away (n : Nat) :
    (run step powerUp shortened (5545 + n * 14)).ramCnt = 11 + n ∧
      (presented powerUp shortened (5545 + n * 14)).length =
        (presented powerUp shortened 5545).length + n := by
  obtain ⟨between, index⟩ := shortened_index
  have live (k : Nat) : (shortened (5545 + k)).reset = false := decide_eq_false (by omega)
  obtain ⟨-, after⟩ := passes_run between (show (3 : BitVec 2) ≠ 0 by decide) (fun _ => rfl) live
    (n := n) (fun k _ => shortened_after (by omega))
  have period : size 3 + 4 = 14 := rfl
  have beyond : size 3 < (stored powerUp shortened 5545).1.place := by
    rw [index]
    decide
  obtain ⟨place, samples⟩ := stored_index powerUp shortened (5545 + n * 14)
  rw [period] at after
  rw [after] at place samples
  rw [← place, ← samples, (Circular.puts_beyond beyond _).1, List.length_append, length_passed,
    index, (stored_index powerUp shortened 5545).2, Nat.add_comm n]
  exact ⟨rfl, rfl⟩

end Switch

/-- Samples do not bring the index back after the switch. -/
theorem shortened_lost : ¬ SurvivesSwitches powerUp shortened := by
  intro survives
  obtain ⟨index, count⟩ := shortened_runs_away 501
  have settled := survives.settles 5545 3 (by decide) (fun t => shortened_after) (5545 + 501 * 14)
    (by decide) (by rw [count])
  rw [index] at settled
  exact absurd settled (by decide)

end PscDigpid.Hdl.Average
