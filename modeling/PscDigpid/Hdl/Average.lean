/- Unit: PscDigpid/Hdl/Average
   layer: model
   source: src/hw/hdl/average.vhd
   digest: One averager, and the samples of the window it publishes. -/

import Mathlib.Logic.Function.Basic
import PscDigpid.Sync.Run
import PscDigpid.Sync.Signed

set_option autoImplicit false
set_option relaxedAutoImplicit false

namespace PscDigpid.Hdl.Average

open PscDigpid.Sync

inductive State
  | idle | writeToRam | accumulate | finished
  deriving DecidableEq

/-- Input ports of `average`. -/
structure Ports where
  reset : Bool
  start : Bool
  dataIn : BitVec 20
  sel : BitVec 2

/-- Registers of `average`; a write beyond the 500 words of the memory is lost, and none is
read there. -/
structure Regs where
  presentState : State
  ram : Nat → BitVec 20
  accum : BitVec 29
  addrCnt : Nat
  addrMax : Nat
  ramCnt : Nat
  mode : BitVec 2
  avgOut : BitVec 32
  done : Bool

/-- Every register as the device configures it. -/
def powerUp : Regs where
  presentState := .idle
  ram := fun _ => 0
  accum := 0
  addrCnt := 500
  addrMax := 0
  ramCnt := 0
  mode := 0
  avgOut := 0
  done := false

/-- A pass begins with the mode as it was registered. -/
def beginPass (s : Regs) (i : Ports) : Regs :=
  if s.mode = 0 then { s with accum := i.dataIn.signExtend 29, presentState := .finished }
  else if s.mode = 1 then { s with addrMax := 167, presentState := .writeToRam }
  else if s.mode = 2 then { s with addrMax := 500, presentState := .writeToRam }
  else { s with addrMax := 10, presentState := .writeToRam }

/-- The storage process, which leaves the mode. -/
def storage (s : Regs) (i : Ports) : Regs :=
  if i.reset then { s with addrCnt := 0, accum := 0, presentState := .idle, done := false }
  else
    match s.presentState with
    | .idle => if i.start then beginPass { s with done := false } i else { s with done := false }
    | .writeToRam =>
        -- the sample that comes when the memory is full is not written
        if s.ramCnt = s.addrMax then { s with ramCnt := 0, presentState := .accumulate }
        else
          { s with
            ram := Function.update s.ram s.ramCnt i.dataIn
            ramCnt := s.ramCnt + 1
            presentState := .accumulate }
    | .accumulate =>
        if s.addrCnt = s.addrMax then { s with addrCnt := 0, presentState := .finished }
        else
          { s with
            accum := s.accum + (s.ram s.addrCnt).signExtend 29
            addrCnt := s.addrCnt + 1 }
    | .finished =>
        { s with
          avgOut := s.accum.signExtend 32
          accum := 0
          done := true
          presentState := .idle }

def step (s : Regs) (i : Ports) : Regs := { storage s i with mode := i.sel }

section Windows

/-- How many samples a pass adds in a mode. -/
def size (mode : BitVec 2) : Nat :=
  if mode = 0 then 1 else if mode = 1 then 167 else if mode = 2 then 500 else 10

/-- The samples added to the accumulator at a clock. -/
def taken (s : Regs) (i : Ports) : List (BitVec 20) :=
  match s.presentState with
  | .idle => if i.start ∧ s.mode = 0 then [i.dataIn] else []
  | .accumulate => if s.addrCnt = s.addrMax then [] else [s.ram s.addrCnt]
  | _ => []

/-- The samples in the accumulator after a clock, from those before it. -/
def collect (s : Regs) (i : Ports) (samples : List (BitVec 20)) : List (BitVec 20) :=
  if i.reset ∨ s.presentState = .finished then [] else samples ++ taken s i

variable (s : Regs) (inp : Nat → Ports)

/-- The samples in the accumulator before clock `t`. -/
def samples : Nat → List (BitVec 20)
  | 0 => []
  | t + 1 => collect (run step s inp t) (inp t) (samples t)

/-- The samples behind what is published before clock `t`. -/
def published : Nat → List (BitVec 20)
  | 0 => []
  | t + 1 =>
      if (inp t).reset = false ∧ (run step s inp t).presentState = .finished then samples s inp t
      else published t

def total (window : List (BitVec 20)) : Int := (window.map BitVec.toInt).sum

theorem total_append (window more : List (BitVec 20)) :
    total (window ++ more) = total window + total more := by
  rw [total, List.map_append, List.sum_append]
  rfl

theorem sample_bounds (x : BitVec 20) : -524288 ≤ x.toInt ∧ x.toInt ≤ 524287 := by
  have low := x.le_toInt
  have high := x.toInt_lt
  omega

theorem total_bounds (window : List (BitVec 20)) :
    -(524288 * window.length) ≤ total window ∧ total window ≤ 524288 * window.length := by
  induction window with
  | nil => exact ⟨le_rfl, le_rfl⟩
  | cons x window ih =>
      have bounds := sample_bounds x
      have sum : total (x :: window) = x.toInt + total window := List.sum_cons
      rw [sum, List.length_cons]
      push_cast
      omega

end Windows

/-- A pass adds as many samples as `P` allows: the accumulator is the sum of those taken, and
their count goes with the state. -/
structure Window (P : Nat → Prop) (s : Regs) (window : List (BitVec 20)) : Prop where
  sum : s.accum.toInt = total window
  idle : s.presentState = .idle → window = [] ∧ s.addrCnt = 0
  write : s.presentState = .writeToRam → window = [] ∧ s.addrCnt = 0 ∧ P s.addrMax
  accumulate : s.presentState = .accumulate →
    window.length = s.addrCnt ∧ s.addrCnt ≤ s.addrMax ∧ P s.addrMax
  finished : s.presentState = .finished → s.addrCnt = 0 ∧ P window.length

namespace Window

variable {P : Nat → Prop} {s : Regs} {window : List (BitVec 20)}

/-- A reset leaves nothing in the accumulator. -/
theorem of_reset {i : Ports} (reset : i.reset = true) (s : Regs) (window : List (BitVec 20)) :
    Window P (step s i) (collect s i window) := by
  rw [step, storage, if_pos reset, collect, if_pos (.inl reset)]
  exact ⟨rfl, fun _ => ⟨rfl, rfl⟩, nofun, nofun, nofun⟩

/-- What an idle averager has is the same for any sizes. -/
theorem of_idle {Q : Nat → Prop} (w : Window P s window) (idle : s.presentState = .idle) :
    Window Q s window := by
  refine ⟨w.sum, w.idle, ?_, ?_, ?_⟩
  · intro write
    exact absurd (idle.symm.trans write) (by decide)
  · intro accumulate
    exact absurd (idle.symm.trans accumulate) (by decide)
  · intro finished
    exact absurd (idle.symm.trans finished) (by decide)

/-- A sample more does not overflow. -/
theorem toInt_accum {sum : BitVec 29} (value : sum.toInt = total window)
    (short : window.length < 500) (x : BitVec 20) :
    (sum + x.signExtend 29).toInt = total (window ++ [x]) := by
  have bounds := total_bounds (window ++ [x])
  have one : total [x] = x.toInt := List.sum_singleton
  rw [List.length_append, List.length_singleton] at bounds
  rw [total_append, one] at bounds ⊢
  apply toInt_exact
  · rw [BitVec.toInt_add, value, BitVec.toInt_signExtend_of_le (by decide)]
  · push_cast at bounds ⊢
    omega
  · push_cast at bounds ⊢
    omega

/-- The state a pass begins with, by the mode. -/
theorem of_beginPass (counted : s.addrCnt = 0) (empty : s.accum.toInt = 0)
    (allowed : P (size s.mode)) (i : Ports) :
    Window P (beginPass s i) (if s.mode = 0 then [i.dataIn] else []) := by
  rw [beginPass]
  rw [size] at allowed
  split_ifs at allowed ⊢
  · refine ⟨?_, nofun, nofun, nofun, fun _ => ⟨counted, allowed⟩⟩
    rw [BitVec.toInt_signExtend_of_le (by decide)]
    exact List.sum_singleton.symm
  all_goals exact ⟨empty, nofun, fun _ => ⟨rfl, counted, allowed⟩, nofun, nofun⟩

/-- The mode and the strobe are no part of it. -/
theorem with_mode (w : Window P s window) (mode : BitVec 2) : Window P { s with mode } window :=
  ⟨w.sum, w.idle, w.write, w.accumulate, w.finished⟩

theorem collect_more {i : Ports} (quiet : ¬ i.reset = true) (going : s.presentState ≠ .finished)
    (window : List (BitVec 20)) : collect s i window = window ++ taken s i := by
  apply if_neg
  rintro (reset | finished)
  · exact quiet reset
  · exact going finished

/-- One clock keeps the window, if a pass that begins at it has an allowed size. -/
theorem next (small : ∀ n, P n → n ≤ 500) (w : Window P s window) (allowed : P (size s.mode))
    (i : Ports) : Window P (step s i) (collect s i window) := by
  by_cases reset : i.reset = true
  · exact of_reset reset s window
  · apply with_mode
    rw [storage, if_neg reset]
    cases state : s.presentState with
    | idle =>
        obtain ⟨rfl, counted⟩ := w.idle state
        rw [collect_more reset (by rw [state]; decide), taken, state]
        dsimp only
        by_cases start : i.start = true
        · have pass := of_beginPass (s := { s with done := false }) counted w.sum allowed i
          rw [state] at pass
          rw [if_pos start, List.nil_append]
          simpa only [start, true_and] using pass
        · rw [if_neg start, if_neg fun both => start both.1]
          exact ⟨w.sum, fun _ => ⟨rfl, counted⟩, nofun, nofun, nofun⟩
    | writeToRam =>
        obtain ⟨rfl, counted, most⟩ := w.write state
        rw [collect_more reset (by rw [state]; decide), taken, state]
        dsimp only
        have first : ([] : List (BitVec 20)).length = s.addrCnt ∧ s.addrCnt ≤ s.addrMax ∧
            P s.addrMax := ⟨counted.symm, by omega, most⟩
        split
        · exact ⟨w.sum, nofun, nofun, fun _ => first, nofun⟩
        · exact ⟨w.sum, nofun, nofun, fun _ => first, nofun⟩
    | accumulate =>
        obtain ⟨count, below, most⟩ := w.accumulate state
        rw [collect_more reset (by rw [state]; decide), taken, state]
        dsimp only
        by_cases full : s.addrCnt = s.addrMax
        · rw [if_pos full, if_pos full, List.append_nil]
          exact ⟨w.sum, nofun, nofun, nofun, fun _ => ⟨rfl, by rwa [count, full]⟩⟩
        · have room := small _ most
          rw [if_neg full, if_neg full]
          refine ⟨toInt_accum w.sum (by omega) _, nofun, nofun, ?_, nofun⟩
          intro _
          refine ⟨?_, Nat.lt_of_le_of_ne below full, most⟩
          rw [List.length_append, count]
          rfl
    | finished =>
        obtain ⟨counted, -⟩ := w.finished state
        have cleared : collect s i window = [] := if_pos (.inr state)
        rw [cleared]
        exact ⟨rfl, fun _ => ⟨rfl, counted⟩, nofun, nofun, nofun⟩

end Window

theorem size_le (mode : BitVec 2) : size mode ≤ 500 := by
  rw [size]
  split_ifs <;> decide

/-- Only the end of a pass publishes. -/
theorem step_avgOut {s : Regs} {i : Ports}
    (other : ¬ (i.reset = false ∧ s.presentState = .finished)) :
    (step s i).avgOut = s.avgOut := by
  rw [step, storage]
  by_cases reset : i.reset = true
  · rw [if_pos reset]
  · rw [if_neg reset]
    cases state : s.presentState with
    | idle =>
        dsimp only
        split
        · rw [beginPass]
          split_ifs <;> rfl
        · rfl
    | writeToRam =>
        dsimp only
        split <;> rfl
    | accumulate =>
        dsimp only
        split <;> rfl
    | finished => exact absurd ⟨Bool.not_eq_true _ ▸ reset, state⟩ other

section Runs

variable {s : Regs} {inp : Nat → Ports} {mode : BitVec 2} {u f t : Nat}

/-- From a reset on the accumulator is the sum of the samples taken. -/
theorem window_run (reset : (inp 0).reset = true) (t : Nat) :
    Window (· ≤ 500) (run step s inp (t + 1)) (samples s inp (t + 1)) := by
  induction t with
  | zero => exact Window.of_reset reset s []
  | succ t ih => exact ih.next (fun _ most => most) (size_le _) (inp (t + 1))

/-- While the mode stays, the passes that begin have the mode's size. -/
theorem window_held (w : Window (· ≤ 500) (run step s inp u) (samples s inp u))
    (idle : (run step s inp u).presentState = .idle) (le : u ≤ t)
    (held : ∀ k, u ≤ k → k < t → (run step s inp k).mode = mode) :
    Window (· = size mode) (run step s inp t) (samples s inp t) := by
  apply stretch_induction le (w.of_idle idle)
  intro k low high ih
  apply ih.next
  · rintro n rfl
    exact size_le mode
  · rw [held k low high]

/-- The average register has the sum of the published window, whose size is the mode's, once
a pass begun since the averager was idle in this mode has finished. -/
theorem published_held (w : Window (· ≤ 500) (run step s inp u) (samples s inp u))
    (idle : (run step s inp u).presentState = .idle)
    (held : ∀ k, u ≤ k → k < t → (run step s inp k).mode = mode)
    (begun : u ≤ f) (ended : f < t) (quiet : (inp f).reset = false)
    (finished : (run step s inp f).presentState = .finished) :
    (run step s inp t).avgOut.toInt = total (published s inp t) ∧
      (published s inp t).length = size mode := by
  have publish : ∀ k, u ≤ k → k < t → (inp k).reset = false →
      (run step s inp k).presentState = .finished →
      (run step s inp (k + 1)).avgOut.toInt = total (published s inp (k + 1)) ∧
        (published s inp (k + 1)).length = size mode := by
    intro k low high calm final
    have window := window_held w idle low fun j from_u to_k => held j from_u (by omega)
    have out : (run step s inp (k + 1)).avgOut = (run step s inp k).accum.signExtend 32 := by
      rw [run_succ, step, storage, if_neg (by rw [calm]; decide), final]
    have shown : published s inp (k + 1) = samples s inp k := if_pos ⟨calm, final⟩
    rw [out, shown, BitVec.toInt_signExtend_of_le (by decide)]
    exact ⟨window.sum, (window.finished final).2⟩
  apply stretch_induction (Nat.succ_le_of_lt ended) (publish f begun ended quiet finished)
  intro k low high before
  by_cases again : (inp k).reset = false ∧ (run step s inp k).presentState = .finished
  · exact publish k (by omega) high again.1 again.2
  · have same : published s inp (k + 1) = published s inp k := if_neg again
    rw [run_succ, step_avgOut again, same]
    exact before

end Runs

end PscDigpid.Hdl.Average
