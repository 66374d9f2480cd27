/- Unit: PscDigpid/Hdl/AverageSum
   layer: result
   source: src/hw/hdl/average.vhd (ACCUMULATE, FINISHED)
   digest: When the loop over the memory ends in one clock more than its words, with their sum. -/

import PscDigpid.Hdl.AverageWindow

set_option autoImplicit false
set_option relaxedAutoImplicit false

namespace PscDigpid.Hdl.Average

open PscDigpid.Sync

/-- The first words of a memory. -/
def words (ram : Nat → BitVec 20) (n : Nat) : List (BitVec 20) := (List.range n).map ram

/-- The loop that begins after clock `t` over `n` words ends after `n + 1` clocks, with their
sum; a clock later the averager is idle and cleared. -/
structure SumsExactly (s : Regs) (inp : Nat → Ports) (t n : Nat) : Prop where
  loops : ∀ k, k ≤ n → (run step s inp (t + 1 + k)).presentState = .accumulate
  ends : (run step s inp (t + 1 + n + 1)).presentState = .finished
  sum : (run step s inp (t + 1 + n + 1)).accum.toInt = total (words (run step s inp (t + 1)).ram n)
  idle : (run step s inp (t + 1 + n + 2)).presentState = .idle
  cleared : (run step s inp (t + 1 + n + 2)).accum = 0 ∧
    (run step s inp (t + 1 + n + 2)).addrCnt = 0

/-- Some words are in the accumulator, and the loop is at the next. -/
structure Summing (ram : Nat → BitVec 20) (n k : Nat) (s : Regs) : Prop where
  state : s.presentState = .accumulate
  count : s.addrCnt = k
  most : s.addrMax = n
  memory : s.ram = ram
  sum : s.accum.toInt = total (words ram k)

/-- All words are in the accumulator. -/
structure Summed (ram : Nat → BitVec 20) (n : Nat) (s : Regs) : Prop where
  state : s.presentState = .finished
  count : s.addrCnt = 0
  sum : s.accum.toInt = total (words ram n)

section Step

variable {s : Regs} {i : Ports} {ram : Nat → BitVec 20} {n k : Nat}

theorem Summing.next (summing : Summing ram n k s) (quiet : i.reset = false) (more : k < n)
    (small : n ≤ 500) : Summing ram n (k + 1) (step s i) := by
  obtain ⟨state, count, most, memory, sum⟩ := summing
  have going : s.addrCnt ≠ s.addrMax := by omega
  have short : (words ram k).length < 500 := by
    simp only [words, List.length_map, List.length_range]
    omega
  simp only [step, storage, quiet, state, if_neg going, Bool.false_eq_true, if_false]
  refine ⟨rfl, by rw [count], most, memory, ?_⟩
  rw [memory, count, Window.toInt_accum sum short, words, words, List.range_succ, List.map_append]
  rfl

theorem Summing.last (summing : Summing ram n n s) (quiet : i.reset = false) :
    Summed ram n (step s i) := by
  obtain ⟨state, count, most, _, sum⟩ := summing
  have full : s.addrCnt = s.addrMax := count.trans most.symm
  simp only [step, storage, quiet, state, if_pos full, Bool.false_eq_true, if_false]
  exact ⟨rfl, rfl, sum⟩

theorem Summed.next (summed : Summed ram n s) (quiet : i.reset = false) :
    (step s i).presentState = .idle ∧ (step s i).accum = 0 ∧ (step s i).addrCnt = 0 := by
  obtain ⟨state, count, _⟩ := summed
  simp only [step, storage, quiet, state, Bool.false_eq_true, if_false]
  exact ⟨trivial, trivial, count⟩

theorem live_of_accumulate (enters : (step s i).presentState = .accumulate) : i.reset = false := by
  by_contra reset
  rw [step, storage, if_pos (by simpa using reset)] at enters
  cases enters

/-- The loop is entered from `WRITE_TO_RAM` only. -/
theorem write_of_enters (other : s.presentState ≠ .accumulate)
    (enters : (step s i).presentState = .accumulate) : s.presentState = .writeToRam := by
  rw [step, storage, if_neg (by rw [live_of_accumulate enters]; decide)] at enters
  cases state : s.presentState with
  | idle =>
      rw [state] at enters
      dsimp only at enters
      split at enters
      · rw [beginPass] at enters
        split_ifs at enters
      · cases enters
  | writeToRam => rfl
  | accumulate => exact absurd state other
  | finished =>
      rw [state] at enters
      cases enters

/-- It leaves the accumulator alone. -/
theorem enters_summing {window : List (BitVec 20)} (w : Window (· ≤ 500) s window)
    (other : s.presentState ≠ .accumulate) (enters : (step s i).presentState = .accumulate) :
    Summing (step s i).ram (step s i).addrMax 0 (step s i) ∧ (step s i).addrMax ≤ 500 := by
  have running := live_of_accumulate enters
  have state := write_of_enters other enters
  obtain ⟨rfl, counted, most⟩ := w.write state
  rw [step, storage, if_neg (by rw [running]; decide), state]
  dsimp only
  split
  · exact ⟨⟨rfl, counted, rfl, rfl, w.sum⟩, most⟩
  · exact ⟨⟨rfl, counted, rfl, rfl, w.sum⟩, most⟩

end Step

section Runs

variable {s : Regs} {inp : Nat → Ports} {ram : Nat → BitVec 20} {t n : Nat}

/-- The loop adds one word a clock. -/
theorem summing_run (summing : Summing ram n 0 (run step s inp t)) (small : n ≤ 500)
    (quiet : ∀ k, k < n → (inp (t + k)).reset = false) {k : Nat} (le : k ≤ n) :
    Summing ram n k (run step s inp (t + k)) := by
  induction k with
  | zero => exact summing
  | succ k ih => exact (ih (by omega)).next (quiet k (by omega)) (by omega) small

/-- A loop that begins with its sum in step is exact. -/
theorem sums_of_summing
    (summing : Summing (run step s inp (t + 1)).ram n 0 (run step s inp (t + 1))) (small : n ≤ 500)
    (quiet : ∀ k, k ≤ n + 1 → (inp (t + 1 + k)).reset = false) : SumsExactly s inp t n := by
  have all : ∀ k, k ≤ n →
      Summing (run step s inp (t + 1)).ram n k (run step s inp (t + 1 + k)) :=
    fun k le => summing_run summing small (fun j below => quiet j (by omega)) le
  have summed := (all n le_rfl).last (quiet _ (Nat.le_succ _))
  have rest := summed.next (quiet _ le_rfl)
  exact ⟨fun k le => (all k le).state, summed.state, summed.sum, rest.1, rest.2⟩

end Runs

/-- Before clock `t` the read index has been cleared: by a reset, or by the end of a loop over all
of the memory, which is where the index stands at power-up. -/
def ClearedBefore (inp : Nat → Ports) (t : Nat) : Prop :=
  ∃ u < t, (inp u).reset = true ∨
    ((run step powerUp inp u).presentState = .accumulate ∧ (run step powerUp inp u).addrMax = 500)

/-- An averager whose read index has not been cleared: it stands past every window but the largest,
where a loop over a smaller one does not end. -/
inductive Uncleared (s : Regs) : Prop
  | idle (state : s.presentState = .idle) (count : s.addrCnt = 500) (empty : s.accum = 0)
  | write (state : s.presentState = .writeToRam) (count : s.addrCnt = 500) (empty : s.accum = 0)
      (most : s.addrMax ≤ 500)
  | full (state : s.presentState = .accumulate) (count : s.addrCnt = 500) (empty : s.accum = 0)
      (most : s.addrMax = 500)
  | lost (state : s.presentState = .accumulate) (count : 500 ≤ s.addrCnt) (most : s.addrMax < 500)
  | finished (state : s.presentState = .finished) (count : s.addrCnt = 500)

section Uncleared

variable {s : Regs} {i : Ports}

theorem uncleared_idle (live : i.reset = false) (state : s.presentState = .idle)
    (count : s.addrCnt = 500) (empty : s.accum = 0) : Uncleared (step s i) := by
  by_cases start : i.start = true
  · by_cases none : s.mode = 0
    · rw [step, storage, if_neg (by rw [live]; decide), state]
      dsimp only
      rw [if_pos start, beginPass, if_pos none]
      exact .finished rfl count
    · obtain ⟨write, most, same⟩ := step_begin live state start none
      refine .write write (same.trans count) ?_ (most.trans_le (size_le _))
      rw [step, storage, if_neg (by rw [live]; decide), state]
      dsimp only
      rw [if_pos start, beginPass]
      split_ifs
      · contradiction
      · exact empty
      · exact empty
      · exact empty
  · rw [step, storage, if_neg (by rw [live]; decide), state]
    dsimp only
    rw [if_neg start]
    exact .idle rfl count empty

theorem uncleared_write (live : i.reset = false) (state : s.presentState = .writeToRam)
    (count : s.addrCnt = 500) (empty : s.accum = 0) (most : s.addrMax ≤ 500) :
    Uncleared (step s i) := by
  obtain ⟨accumulate, same_most, same⟩ := step_write live state
  by_cases full : s.addrMax = 500
  · refine .full accumulate (same.trans count) ?_ (same_most.trans full)
    rw [step, storage, if_neg (by rw [live]; decide), state]
    dsimp only
    split
    · exact empty
    · exact empty
  · exact .lost accumulate (same.trans count).ge (by omega)

/-- A clock without a reset, outside a loop over the whole memory, clears nothing. -/
theorem Uncleared.next (uncleared : Uncleared s) (live : i.reset = false)
    (other : ¬ (s.presentState = .accumulate ∧ s.addrMax = 500)) : Uncleared (step s i) := by
  cases uncleared with
  | idle state count empty => exact uncleared_idle live state count empty
  | write state count empty most => exact uncleared_write live state count empty most
  | full state _ _ most => exact absurd ⟨state, most⟩ other
  | lost state count most =>
      obtain ⟨again, same_most, next⟩ := step_add live state (by omega)
      exact .lost again (by omega) (by omega)
  | finished state count =>
      obtain ⟨idle, same, -⟩ := step_publish live state
      refine .idle idle (same.trans count) ?_
      rw [step, storage, if_neg (by rw [live]; decide), state]

/-- A loop over the whole memory ends at its first clock, with nothing added. -/
theorem Uncleared.ends (uncleared : Uncleared s) (live : i.reset = false)
    (state : s.presentState = .accumulate) (most : s.addrMax = 500) :
    (step s i).presentState = .finished ∧ Window (· ≤ 500) (step s i) [] := by
  cases uncleared with
  | idle other _ _ => exact absurd (other.symm.trans state) (by decide)
  | write other _ _ _ => exact absurd (other.symm.trans state) (by decide)
  | lost _ _ less => omega
  | finished other _ => exact absurd (other.symm.trans state) (by decide)
  | full _ count empty _ =>
      obtain ⟨finished, cleared⟩ := step_full live state (count.trans most.symm)
      refine ⟨finished, ?_, ?_, ?_, ?_, fun _ => ⟨cleared, Nat.zero_le _⟩⟩
      · rw [step, storage, if_neg (by rw [live]; decide), state]
        dsimp only
        rw [if_pos (count.trans most.symm)]
        exact congrArg BitVec.toInt empty
      · intro other
        exact absurd (finished.symm.trans other) (by decide)
      · intro other
        exact absurd (finished.symm.trans other) (by decide)
      · intro other
        exact absurd (finished.symm.trans other) (by decide)

end Uncleared

/-- What an averager is like at a clock, by whether its index has been cleared. -/
inductive Reached (inp : Nat → Ports) (t : Nat) : Prop
  | cleared (before : ClearedBefore inp t) {window : List (BitVec 20)}
      (w : Window (· ≤ 500) (run step powerUp inp t) window)
  | never (never : ¬ ClearedBefore inp t) (uncleared : Uncleared (run step powerUp inp t))

section Reached

variable {inp : Nat → Ports} {t : Nat}

theorem ClearedBefore.succ (before : ClearedBefore inp t) : ClearedBefore inp (t + 1) := by
  obtain ⟨u, earlier, clears⟩ := before
  exact ⟨u, Nat.lt_succ_of_lt earlier, clears⟩

theorem reached_run (inp : Nat → Ports) (t : Nat) : Reached inp t := by
  induction t with
  | zero =>
      refine .never ?_ (.idle rfl rfl rfl)
      rintro ⟨u, earlier, -⟩
      exact Nat.not_lt_zero u earlier
  | succ t ih =>
      cases ih with
      | cleared before w =>
          exact .cleared before.succ (w.next (fun _ most => most) (size_le _) (inp t))
      | never never uncleared =>
          cases live : (inp t).reset with
          | true =>
              exact .cleared ⟨t, Nat.lt_succ_self t, .inl live⟩ (Window.of_reset live _ [])
          | false =>
              by_cases full : (run step powerUp inp t).presentState = .accumulate ∧
                  (run step powerUp inp t).addrMax = 500
              · exact .cleared ⟨t, Nat.lt_succ_self t, .inr full⟩
                  (uncleared.ends live full.1 full.2).2
              · refine .never ?_ (uncleared.next live full)
                rintro ⟨u, earlier, clears⟩
                obtain earlier | rfl := Nat.lt_succ_iff_lt_or_eq.1 earlier
                · exact never ⟨u, earlier, clears⟩
                · obtain reset | ended := clears
                  · rw [live] at reset
                    exact Bool.noConfusion reset
                  · exact full ended

/-- A loop that an uncleared index does not end goes on. -/
theorem lost_run {n : Nat} (state : (run step powerUp inp t).presentState = .accumulate)
    (count : 500 ≤ (run step powerUp inp t).addrCnt) (most : (run step powerUp inp t).addrMax < 500)
    (quiet : ∀ k, k < n → (inp (t + k)).reset = false) :
    (run step powerUp inp (t + n)).presentState = .accumulate ∧
      500 ≤ (run step powerUp inp (t + n)).addrCnt ∧
      (run step powerUp inp (t + n)).addrMax < 500 := by
  induction n with
  | zero => exact ⟨state, count, most⟩
  | succ n ih =>
      obtain ⟨state, count, most⟩ := ih fun k below => quiet k (Nat.lt_succ_of_lt below)
      obtain ⟨again, same, next⟩ := step_add (quiet n (Nat.lt_succ_self n)) state (by omega)
      exact ⟨again, count.trans (Nat.le_succ _ |>.trans_eq next.symm), same.trans_lt most⟩

/-- With its index not cleared the loop is not exact. -/
theorem Uncleared.inexact (uncleared : Uncleared (run step powerUp inp (t + 1)))
    (enters : (run step powerUp inp (t + 1)).presentState = .accumulate)
    (quiet : ∀ k, k ≤ (run step powerUp inp (t + 1)).addrMax + 1 →
      (inp (t + 1 + k)).reset = false) :
    ¬ SumsExactly powerUp inp t (run step powerUp inp (t + 1)).addrMax := by
  intro exact_sum
  by_cases full : (run step powerUp inp (t + 1)).addrMax = 500
  · have ended := (uncleared.ends (quiet 0 (Nat.zero_le _)) enters full).1
    have going := exact_sum.loops 1 (by rw [full]; decide)
    exact absurd (going.symm.trans ended) (by decide)
  · cases uncleared with
    | idle other _ _ => exact absurd (other.symm.trans enters) (by decide)
    | write other _ _ _ => exact absurd (other.symm.trans enters) (by decide)
    | full _ _ _ most => exact full most
    | finished other _ => exact absurd (other.symm.trans enters) (by decide)
    | lost _ count most =>
        have going := lost_run (n := (run step powerUp inp (t + 1)).addrMax + 1) enters count most
          fun k below => quiet k (Nat.le_of_lt below)
        exact absurd (going.1.symm.trans exact_sum.ends) (by decide)

end Reached

/-- For every memory and every size a mode sets, the loop entered in a run from power-up ends after
one clock more than the size, with the exact sum, exactly when the read index was cleared before. -/
theorem accumulates_exactly_iff (inp : Nat → Ports) (t : Nat)
    (other : (run step powerUp inp t).presentState ≠ .accumulate)
    (enters : (run step powerUp inp (t + 1)).presentState = .accumulate)
    (quiet : ∀ k, k ≤ (run step powerUp inp (t + 1)).addrMax + 1 →
      (inp (t + 1 + k)).reset = false) :
    SumsExactly powerUp inp t (run step powerUp inp (t + 1)).addrMax ↔ ClearedBefore inp t := by
  cases reached_run inp t with
  | cleared before w =>
      obtain ⟨started, small⟩ := enters_summing w other enters
      exact iff_of_true (sums_of_summing started small quiet) before
  | never never uncleared =>
      have live : (inp t).reset = false := live_of_accumulate enters
      have next := uncleared.next live fun full => other full.1
      exact iff_of_false (next.inexact enters quiet) never

/-- Fives averaged in the ramping mode after a reset at the first clock. -/
def fives (t : Nat) : Ports := ⟨decide (t = 0), true, 5, 3⟩

/-- Ten words take eleven clocks. -/
theorem ten_summed : SumsExactly powerUp fives 2 10 := by
  apply (accumulates_exactly_iff fives 2 (by decide) (by decide) ?_).2
  · exact ⟨0, by decide, .inl rfl⟩
  · intro k _
    exact decide_eq_false (by omega)

/-- Fives averaged in the mode of 500 from power-up on, without a reset. -/
def unreset (_ : Nat) : Ports := ⟨false, true, 5, 2⟩

/-- The first pass to the memory adds nothing. -/
theorem first_pass_empty : (run step powerUp unreset 3).presentState ≠ .accumulate ∧
    (run step powerUp unreset 4).presentState = .accumulate ∧
    (run step powerUp unreset 4).addrMax = 500 ∧
    (run step powerUp unreset 5).presentState = .finished ∧
    (run step powerUp unreset 5).accum = 0 ∧
    ¬ SumsExactly powerUp unreset 3 500 := by
  refine ⟨by decide, by decide, by decide, by decide, by decide, ?_⟩
  intro exact_sum
  have going := exact_sum.loops 1 (by decide)
  exact absurd going (by decide)

end PscDigpid.Hdl.Average
