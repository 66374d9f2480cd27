/- Unit: PscDigpid/Hdl/AverageWindow
   layer: result
   source: src/hw/hdl/average.vhd (storage process)
   digest: The memory of an averager against the samples presented to it, and its lost sample. -/

import PscDigpid.Hdl.Average
import PscDigpid.Sync.Circular

set_option autoImplicit false
set_option relaxedAutoImplicit false

namespace PscDigpid.Hdl.Average

open PscDigpid.Sync

/-- The memory with its write index. -/
def kept (s : Regs) : Circular (BitVec 20) := ⟨s.ramCnt, s.ram⟩

/-- A sample is presented to the memory at this clock edge. -/
def presents (s : Regs) (i : Ports) : Bool := !i.reset && decide (s.presentState = .writeToRam)

/-- The samples presented before clock `t`, the latest first. -/
def presented (s : Regs) (inp : Nat → Ports) : Nat → List (BitVec 20)
  | 0 => []
  | t + 1 =>
      if presents (run step s inp t) (inp t) then (inp t).dataIn :: presented s inp t
      else presented s inp t

section Step

variable {s : Regs} {i : Ports}

/-- The memory takes what is presented and nothing else. -/
theorem kept_step : kept (step s i) =
    if presents s i then (kept s).put s.addrMax i.dataIn else kept s := by
  rw [presents, step, storage]
  cases live : i.reset with
  | true => rfl
  | false =>
      rw [if_neg Bool.false_ne_true, Bool.not_false, Bool.true_and]
      cases state : s.presentState with
      | idle =>
          rw [decide_eq_false (by decide), if_neg Bool.false_ne_true]
          dsimp only
          split
          · rw [beginPass]
            split_ifs <;> rfl
          · rfl
      | writeToRam =>
          rw [decide_eq_true rfl, if_pos rfl, Circular.put]
          by_cases last : s.ramCnt = s.addrMax
          · rw [if_pos last, if_pos (show (kept s).place = s.addrMax from last)]
            rfl
          · rw [if_neg last, if_neg (show (kept s).place ≠ s.addrMax from last)]
            rfl
      | accumulate =>
          rw [decide_eq_false (by decide), if_neg Bool.false_ne_true]
          dsimp only
          split <;> rfl
      | finished => rfl

/-- A pass begins with the size of its mode. -/
theorem step_begin (live : i.reset = false) (idle : s.presentState = .idle)
    (start : i.start = true) (some : s.mode ≠ 0) :
    (step s i).presentState = .writeToRam ∧ (step s i).addrMax = size s.mode ∧
      (step s i).addrCnt = s.addrCnt := by
  rw [step, storage, if_neg (by rw [live]; decide), idle]
  dsimp only
  rw [if_pos start, beginPass, size]
  split_ifs
  · contradiction
  all_goals exact ⟨rfl, rfl, rfl⟩

theorem step_write (live : i.reset = false) (write : s.presentState = .writeToRam) :
    (step s i).presentState = .accumulate ∧ (step s i).addrMax = s.addrMax ∧
      (step s i).addrCnt = s.addrCnt := by
  rw [step, storage, if_neg (by rw [live]; decide), write]
  dsimp only
  split
  · exact ⟨rfl, rfl, rfl⟩
  · exact ⟨rfl, rfl, rfl⟩

theorem step_add (live : i.reset = false) (accumulate : s.presentState = .accumulate)
    (more : s.addrCnt ≠ s.addrMax) :
    (step s i).presentState = .accumulate ∧ (step s i).addrMax = s.addrMax ∧
      (step s i).addrCnt = s.addrCnt + 1 := by
  rw [step, storage, if_neg (by rw [live]; decide), accumulate]
  dsimp only
  rw [if_neg more]
  exact ⟨rfl, rfl, rfl⟩

theorem step_full (live : i.reset = false) (accumulate : s.presentState = .accumulate)
    (full : s.addrCnt = s.addrMax) :
    (step s i).presentState = .finished ∧ (step s i).addrCnt = 0 := by
  rw [step, storage, if_neg (by rw [live]; decide), accumulate]
  dsimp only
  rw [if_pos full]
  exact ⟨rfl, rfl⟩

theorem step_publish (live : i.reset = false) (finished : s.presentState = .finished) :
    (step s i).presentState = .idle ∧ (step s i).addrCnt = s.addrCnt ∧
      (step s i).avgOut = s.accum.signExtend 32 := by
  rw [step, storage, if_neg (by rw [live]; decide), finished]
  exact ⟨rfl, rfl, rfl⟩

/-- The memory stays while it is read. -/
theorem step_ram (other : s.presentState ≠ .writeToRam) : (step s i).ram = s.ram := by
  have stays := kept_step (s := s) (i := i)
  rw [presents, decide_eq_false other, Bool.and_false, if_neg Bool.false_ne_true] at stays
  exact congrArg Circular.mem stays

/-- What is added at a clock is the next part of the memory. -/
theorem added_step {P : Nat → Prop} {added : List (BitVec 20)} (window : Window P s added)
    (some : s.mode ≠ 0) (live : i.reset = false)
    (first : added = (List.range added.length).map s.ram) : collect s i added =
      (List.range (collect s i added).length).map (step s i).ram := by
  have quiet : ¬ i.reset = true := by
    rw [live]
    exact Bool.false_ne_true
  cases state : s.presentState with
  | idle =>
      rw [Window.collect_more quiet (by rw [state]; decide), taken, state,
        (window.idle state).1]
      dsimp only
      rw [if_neg fun both => some both.2]
      rfl
  | writeToRam =>
      rw [Window.collect_more quiet (by rw [state]; decide), taken, state,
        (window.write state).1]
      rfl
  | accumulate =>
      rw [Window.collect_more quiet (by rw [state]; decide), taken, state,
        step_ram (by rw [state]; decide)]
      dsimp only
      split_ifs
      · rw [List.append_nil]
        exact first
      · rw [List.length_append, List.length_singleton, List.range_succ, List.map_append,
          ← first, (window.accumulate state).1]
        rfl
  | finished =>
      have cleared : collect s i added = [] := if_pos (.inr state)
      rw [cleared]
      rfl

end Step

/-- What a run in one mode is: a reset at the first clock and none after it. -/
structure InMode (mode : BitVec 2) (inp : Nat → Ports) : Prop where
  window : mode ≠ 0
  reset : (inp 0).reset = true
  quiet : ∀ t, (inp (t + 1)).reset = false
  held : ∀ t, (inp t).sel = mode

section Run

variable {s : Regs} {inp : Nat → Ports} {mode : BitVec 2} {t : Nat}

theorem mode_run (held : InMode mode inp) (t : Nat) : (run step s inp (t + 1)).mode = mode :=
  held.held t

theorem reset_idle {i : Ports} (reset : i.reset = true) :
    (step s i).presentState = .idle ∧ (step s i).addrCnt = 0 := by
  rw [step, storage, if_pos reset]
  exact ⟨rfl, rfl⟩

theorem window_mode (held : InMode mode inp) (t : Nat) :
    Window (· = size mode) (run step s inp (t + 1)) (samples s inp (t + 1)) := by
  have first : (run step s inp 1).presentState = .idle := (reset_idle held.reset).1
  apply window_held (window_run held.reset 0) first (by omega)
  intro k low _
  obtain ⟨k, rfl⟩ : ∃ v, k = v + 1 := ⟨k - 1, by omega⟩
  exact mode_run held k

/-- The memory has what has been presented to it. -/
theorem kept_run (held : InMode mode inp) (t : Nat) :
    kept (run step s inp t) = (kept s).puts (size mode) (presented s inp t) := by
  induction t with
  | zero => rfl
  | succ t ih =>
      rw [run_succ, kept_step, presented]
      cases comes : presents (run step s inp t) (inp t) with
      | false => exact ih
      | true =>
          rw [presents, Bool.and_eq_true_iff] at comes
          cases t with
          | zero => exact absurd comes.1 (by rw [held.reset]; decide)
          | succ t =>
              have size := (window_mode held t).write (of_decide_eq_true comes.2)
              rw [if_pos rfl, if_pos rfl, Circular.puts, ← ih, size.2.2]

/-- What has been added is the first part of the memory. -/
theorem samples_kept (held : InMode mode inp) (t : Nat) : samples s inp (t + 1) =
    (List.range (samples s inp (t + 1)).length).map (run step s inp (t + 1)).ram := by
  induction t with
  | zero =>
      have cleared : samples s inp 1 = [] := if_pos (.inl held.reset)
      rw [cleared]
      rfl
  | succ t ih =>
      have some : (run step s inp (t + 1)).mode ≠ 0 := by
        rw [mode_run held t]
        exact held.window
      exact added_step (window_mode held t) some (held.quiet t) ih

end Run

theorem size_pos (mode : BitVec 2) : 0 < size mode := by
  rw [size]
  split_ifs <;> decide

section Sums

theorem total_range (f : Nat → BitVec 20) (n : Nat) :
    total ((List.range n).map f) = ∑ i ∈ Finset.range n, (f i).toInt := by
  induction n with
  | zero => rfl
  | succ n ih =>
      rw [List.range_succ, List.map_append, total_append, ih, Finset.sum_range_succ]
      exact congrArg _ (List.sum_singleton)

theorem take_eq_range {latest : List (BitVec 20)} {n : Nat} (full : n ≤ latest.length)
    (d : BitVec 20) : latest.take n = (List.range n).map fun a => latest.getD a d := by
  apply List.ext_getElem
  · rw [List.length_take, List.length_map, List.length_range, Nat.min_eq_left full]
  · intro a low high
    have inside : a < latest.length := by
      rw [List.length_take] at low
      omega
    rw [List.getElem_take, List.getElem_map, List.getElem_range, List.getD_eq_getElem?_getD,
      List.getElem?_eq_getElem inside]
    rfl

end Sums

/-- The sample that was not written is equal to the one that is still in the place to be written
next. If the index was beyond the window at the reset, the window has what it had then. -/
def MadeUp (n : Nat) (s : Regs) (latest : List (BitVec 20)) : Prop :=
  if s.ramCnt ≤ n then
    let next := (s.ramCnt + latest.length) % (n + 1)
    latest.getD next (s.ram next) = latest.getD n (s.ram next)
  else total ((List.range n).map s.ram) = total (latest.take n)

/-- The sum over the memory is that of the last samples exactly if the lost one is made up. -/
theorem total_kept_iff {n : Nat} {s : Regs} {latest : List (BitVec 20)}
    (full : n ≤ latest.length) :
    total ((List.range n).map ((kept s).puts n latest).mem) = total (latest.take n) ↔
      MadeUp n s latest := by
  rw [MadeUp]
  split
  · rename_i within
    have place : ((kept s).puts n latest).place = (s.ramCnt + latest.length) % (n + 1) :=
      Circular.place_puts within latest
    have sums := Circular.sum_puts BitVec.toInt (m := kept s) within full place
    have last := congrArg total (take_eq_range full (s.ram ((s.ramCnt + latest.length) % (n + 1))))
    rw [total_range] at last ⊢
    rw [last, ← BitVec.toInt_inj]
    change _ + (latest.getD _ (s.ram _)).toInt =
      ∑ a ∈ Finset.range n, (latest.getD a (s.ram _)).toInt + _ at sums
    constructor
    · intro same
      rw [same] at sums
      exact add_left_cancel sums
    · intro same
      rw [same] at sums
      exact add_right_cancel sums
  · rename_i beyond
    have stays := (Circular.puts_beyond (m := kept s) (Nat.lt_of_not_le beyond) latest).2
    rw [List.map_congr_left fun i low =>
      stays i (Nat.lt_trans (List.mem_range.1 low) (Nat.lt_of_not_le beyond))]
    rfl

/-- The average published is the sum over the memory. -/
theorem avgOut_kept {s : Regs} {inp : Nat → Ports} {mode : BitVec 2} {t : Nat}
    (held : InMode mode inp) (finished : (run step s inp t).presentState = .finished)
    (full : size mode ≤ (presented s inp t).length) : (run step s inp (t + 1)).avgOut.toInt =
      total ((List.range (size mode)).map
        ((kept s).puts (size mode) (presented s inp t)).mem) := by
  cases t with
  | zero => exact absurd full (Nat.not_le.2 (size_pos mode))
  | succ t =>
      have window := window_mode (s := s) held t
      have added := samples_kept (s := s) held t
      rw [(window.finished finished).2] at added
      rw [run_succ, (step_publish (held.quiet t) finished).2.2,
        BitVec.toInt_signExtend_of_le (by decide), window.sum, added, ← kept_run held]
      rfl

/-- The average published is the sum of the last samples presented exactly when the sample that
the write index passed over is made up. -/
theorem moving_sum_iff (s : Regs) (inp : Nat → Ports) (mode : BitVec 2) (held : InMode mode inp)
    (t : Nat) (finished : (run step s inp t).presentState = .finished)
    (full : size mode ≤ (presented s inp t).length) :
    (run step s inp (t + 1)).avgOut.toInt = total ((presented s inp t).take (size mode)) ↔
      MadeUp (size mode) s (presented s inp t) := by
  rw [avgOut_kept held finished full]
  exact total_kept_iff full

section Pass

variable {s : Regs} {inp : Nat → Ports} {mode : BitVec 2} {t : Nat}

/-- The memory and what has been presented to it before clock `t`. -/
def stored (s : Regs) (inp : Nat → Ports) (t : Nat) : Circular (BitVec 20) × List (BitVec 20) :=
  (kept (run step s inp t), presented s inp t)

theorem stored_quiet {other : State} (state : (run step s inp t).presentState = other)
    (differs : other ≠ .writeToRam) : stored s inp (t + 1) = stored s inp t := by
  have none : presents (run step s inp t) (inp t) = false := by
    rw [presents, state, decide_eq_false differs, Bool.and_false]
  rw [stored, stored, run_succ, kept_step, presented, none]
  rfl

theorem stored_write (live : (inp t).reset = false)
    (write : (run step s inp t).presentState = .writeToRam) {most : Nat}
    (size : (run step s inp t).addrMax = most) : stored s inp (t + 1) =
      ((stored s inp t).1.put most (inp t).dataIn,
        (inp t).dataIn :: (stored s inp t).2) := by
  have comes : presents (run step s inp t) (inp t) = true := by
    rw [presents, live, write]
    rfl
  rw [stored, stored, run_succ, kept_step, presented, comes, size]
  rfl

/-- The averager is idle between two passes. -/
structure Between (s : Regs) : Prop where
  idle : s.presentState = .idle
  counted : s.addrCnt = 0

/-- A sample has been written and the first `j` places added. -/
structure Adding (s : Regs) (n j : Nat) : Prop where
  state : s.presentState = .accumulate
  most : s.addrMax = n
  counted : s.addrCnt = j

theorem pass_adds (between : Between (run step s inp t)) (mode_at : (run step s inp t).mode = mode)
    (some : mode ≠ 0) (start : (inp t).start = true)
    (quiet : ∀ k, (inp (t + k)).reset = false) {j : Nat} (inside : j ≤ size mode) :
    Adding (run step s inp (t + (j + 2))) (size mode) j ∧ stored s inp (t + (j + 2)) =
      ((stored s inp t).1.put (size mode) (inp (t + 1)).dataIn,
        (inp (t + 1)).dataIn :: (stored s inp t).2) := by
  induction j with
  | zero =>
      obtain ⟨begun, most, counted⟩ :=
        step_begin (quiet 0) between.idle start (by rw [mode_at]; exact some)
      rw [mode_at] at most
      rw [between.counted] at counted
      obtain ⟨written, most', counted'⟩ := step_write (s := run step s inp (t + 1)) (quiet 1) begun
      refine ⟨⟨written, most'.trans most, counted'.trans counted⟩, ?_⟩
      have write := stored_write (s := s) (quiet 1) begun most
      rw [stored_quiet between.idle (by decide)] at write
      exact write
  | succ j ih =>
      obtain ⟨adding, before⟩ := ih (Nat.le_of_succ_le inside)
      have more : (run step s inp (t + (j + 2))).addrCnt ≠
          (run step s inp (t + (j + 2))).addrMax := by
        rw [adding.counted, adding.most]
        omega
      obtain ⟨state, most, counted⟩ := step_add (quiet (j + 2)) adding.state more
      refine ⟨⟨state, most.trans adding.most, ?_⟩, ?_⟩
      · exact counted.trans (congrArg (· + 1) adding.counted)
      · exact (stored_quiet adding.state (by decide)).trans before

/-- A pass presents one sample, and is finished when all places are added. -/
theorem pass_run (between : Between (run step s inp t)) (mode_at : (run step s inp t).mode = mode)
    (some : mode ≠ 0) (start : (inp t).start = true)
    (quiet : ∀ k, (inp (t + k)).reset = false) :
    (run step s inp (t + (size mode + 3))).presentState = .finished ∧
      Between (run step s inp (t + (size mode + 4))) ∧
      (∀ k, k = size mode + 3 ∨ k = size mode + 4 → stored s inp (t + k) =
        ((stored s inp t).1.put (size mode) (inp (t + 1)).dataIn,
          (inp (t + 1)).dataIn :: (stored s inp t).2)) := by
  obtain ⟨adding, before⟩ := pass_adds between mode_at some start quiet (Nat.le_refl _)
  obtain ⟨finished, counted⟩ := step_full (i := inp (t + (size mode + 2)))
    (quiet (size mode + 2)) adding.state (adding.counted.trans adding.most.symm)
  obtain ⟨idle, kept_count, -⟩ := step_publish (s := run step s inp (t + (size mode + 3)))
    (quiet (size mode + 3)) finished
  have last : stored s inp (t + (size mode + 3)) = stored s inp (t + (size mode + 2)) :=
    stored_quiet adding.state (by decide)
  have after : stored s inp (t + (size mode + 4)) = stored s inp (t + (size mode + 3)) :=
    stored_quiet finished (by decide)
  refine ⟨finished, ⟨idle, kept_count.trans counted⟩, ?_⟩
  rintro k (rfl | rfl)
  · rw [last, before]
  · rw [after, last, before]

/-- The samples of `n` passes of a period from clock `a` on, the latest first. -/
def passed (inp : Nat → Ports) (a period : Nat) : Nat → List (BitVec 20)
  | 0 => []
  | n + 1 => (inp (a + n * period + 1)).dataIn :: passed inp a period n

theorem length_passed (a period n : Nat) : (passed inp a period n).length = n := by
  induction n with
  | zero => rfl
  | succ n ih => exact congrArg (· + 1) ih

/-- With a start always there, one pass follows another. -/
theorem passes_run {a : Nat} (between : Between (run step s inp a)) (some : mode ≠ 0)
    (start : ∀ k, (inp (a + k)).start = true) (quiet : ∀ k, (inp (a + k)).reset = false) {n : Nat}
    (held : ∀ k < n, (run step s inp (a + k * (size mode + 4))).mode = mode) :
    Between (run step s inp (a + n * (size mode + 4))) ∧
      stored s inp (a + n * (size mode + 4)) =
        ((stored s inp a).1.puts (size mode) (passed inp a (size mode + 4) n),
          passed inp a (size mode + 4) n ++ (stored s inp a).2) := by
  induction n with
  | zero =>
      rw [Nat.zero_mul]
      exact ⟨between, rfl⟩
  | succ n ih =>
      obtain ⟨again, before⟩ := ih fun k earlier => held k (Nat.lt_succ_of_lt earlier)
      obtain ⟨-, next, after⟩ := pass_run again (held n (Nat.lt_succ_self n)) some (start _)
        (fun k => by rw [Nat.add_assoc]; exact quiet _)
      rw [Nat.succ_mul, ← Nat.add_assoc]
      refine ⟨next, ?_⟩
      rw [after _ (.inr rfl), before]
      rfl

end Pass

section Always

/-- A start at every clock and one mode, after a reset. -/
def always (mode : BitVec 2) (data : Nat → BitVec 20) (t : Nat) : Ports :=
  ⟨decide (t = 0), true, data t, mode⟩

variable {mode : BitVec 2} {data : Nat → BitVec 20}

theorem always_inMode (some : mode ≠ 0) : InMode mode (always mode data) :=
  ⟨some, rfl, fun _ => rfl, fun _ => rfl⟩

theorem always_live (k : Nat) : (always mode data (1 + k)).reset = false :=
  decide_eq_false (by omega)

theorem always_mode (k : Nat) : (run step powerUp (always mode data) (1 + k)).mode = mode := by
  rw [Nat.add_comm, run_succ]
  rfl

/-- The end of a pass, and what has been presented by then. -/
theorem always_finished (some : mode ≠ 0) (n : Nat) {t : Nat}
    (ends : t = 1 + n * (size mode + 4) + (size mode + 3)) :
    (run step powerUp (always mode data) t).presentState = .finished ∧
      presented powerUp (always mode data) t =
        passed (always mode data) 1 (size mode + 4) (n + 1) := by
  have reset := reset_idle (s := powerUp) (i := always mode data 0) rfl
  have first : Between (run step powerUp (always mode data) 1) := ⟨reset.1, reset.2⟩
  obtain ⟨between, before⟩ := passes_run first some (fun _ => rfl) always_live
    (n := n) (fun k _ => always_mode _)
  obtain ⟨finished, -, after⟩ := pass_run between (always_mode _) some rfl
    (fun k => by rw [Nat.add_assoc]; exact always_live _)
  rw [ends]
  refine ⟨finished, ?_⟩
  have samples := congrArg Prod.snd (after _ (.inl rfl))
  rw [before] at samples
  refine samples.trans ?_
  change _ :: (_ ++ []) = _
  rw [List.append_nil]
  rfl

/-- Samples of zero but for the eleventh, in the mode of ten. -/
def eleventh (t : Nat) : Ports := always 3 (fun t => if t = 142 then 1 else 0) t

theorem tenth_finished : (run step powerUp eleventh 140).presentState = .finished ∧
    presented powerUp eleventh 140 = passed eleventh 1 14 10 :=
  always_finished (by decide) 9 rfl

theorem eleventh_finished : (run step powerUp eleventh 154).presentState = .finished ∧
    presented powerUp eleventh 154 = passed eleventh 1 14 11 :=
  always_finished (by decide) 10 rfl

end Always

/-- The first ten samples are all in the sum. -/
theorem tenth_sum_whole : (run step powerUp eleventh (140 + 1)).avgOut.toInt =
    total ((presented powerUp eleventh 140).take (size 3)) := by
  apply (moving_sum_iff powerUp eleventh 3 (always_inMode (by decide)) 140 tenth_finished.1 ?_).2
  · rw [tenth_finished.2]
    rfl
  · rw [tenth_finished.2]
    decide

/-- The eleventh is not. -/
theorem eleventh_sum_lost : InMode 3 eleventh ∧
    (run step powerUp eleventh 154).presentState = .finished ∧
    size 3 ≤ (presented powerUp eleventh 154).length ∧
    (run step powerUp eleventh (154 + 1)).avgOut.toInt ≠
      total ((presented powerUp eleventh 154).take (size 3)) := by
  have held : InMode 3 eleventh := always_inMode (by decide)
  have full : size 3 ≤ (presented powerUp eleventh 154).length := by
    rw [eleventh_finished.2]
    decide
  refine ⟨held, eleventh_finished.1, full, ?_⟩
  rw [avgOut_kept held eleventh_finished.1 full, ne_eq, total_kept_iff full, eleventh_finished.2]
  change ¬ (1 : BitVec 20) = 0
  decide

end PscDigpid.Hdl.Average
