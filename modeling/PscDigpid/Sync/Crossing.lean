/- Unit: PscDigpid/Sync/Crossing
   layer: library
   source: none(general)
   digest: Two clocks side by side, and a level that one of them samples from the other. -/

import Mathlib.Data.Nat.Nth
import Mathlib.Logic.ExistsUnique
import Mathlib.Order.Interval.Finset.Basic
import PscDigpid.Sync.Ticks

set_option autoImplicit false
set_option relaxedAutoImplicit false

namespace PscDigpid.Sync

universe u v

section Domains

variable {σ : Type u} {ι : Type v}

/-- A clock that changes at its own edges only has a run of its own: its state at time `t` is the
one after the edges before, where the inputs of the edges are numbered. -/
theorem domain_run (step : σ → ι → σ) (edge : Nat → Bool) (state : Nat → σ) (inp : Nat → ι)
    (fires : ∀ t, edge t = true → state (t + 1) = step (state t) (inp (ticksBefore edge t)))
    (keeps : ∀ t, edge t = false → state (t + 1) = state t) (t : Nat) :
    state t = run step (state 0) inp (ticksBefore edge t) := by
  induction t with
  | zero => rfl
  | succ t ih =>
    cases tick : edge t with
    | false => rw [keeps t tick, ticksBefore_idle tick, ih]
    | true => rw [fires t tick, ticksBefore_tick tick, run_succ, ← ih]

/-- The time of the edge number `k`. -/
noncomputable def edgeTime (edge : Nat → Bool) (k : Nat) : Nat := Nat.nth (fun t => edge t = true) k

theorem edgeTime_ticksBefore {edge : Nat → Bool} {t : Nat} (fires : edge t = true) :
    edgeTime edge (ticksBefore edge t) = t :=
  Nat.nth_count fires

variable {edge : Nat → Bool}

theorem endless_infinite (endless : ∀ t, ∃ u, t ≤ u ∧ edge u = true) :
    (Set.ofPred fun t => edge t = true).Infinite := by
  apply Set.infinite_of_forall_exists_gt
  intro t
  obtain ⟨u, later, fires⟩ := endless (t + 1)
  exact ⟨u, fires, later⟩

theorem ticksBefore_edgeTime (endless : ∀ t, ∃ u, t ≤ u ∧ edge u = true) (k : Nat) :
    ticksBefore edge (edgeTime edge k) = k :=
  Nat.count_nth_of_infinite (endless_infinite endless) k

theorem edgeTime_mono (endless : ∀ t, ∃ u, t ≤ u ∧ edge u = true) {j k : Nat} (le : j ≤ k) :
    edgeTime edge j ≤ edgeTime edge k :=
  Nat.nth_monotone (endless_infinite endless) le

end Domains

section Levels

/-- A level goes up at clock `n`. -/
def Rises (level : Nat → Bool) (n : Nat) : Prop := level n = true ∧ ∀ m, n = m + 1 → level m = false

/-- A level goes down at clock `n`. -/
def Falls (level : Nat → Bool) (n : Nat) : Prop := level n = false ∧ ∃ m, n = m + 1 ∧ level m = true

/-- A level that stays high and low for at least `gap` clocks each time. -/
structure Slow (gap : Nat) (level : Nat → Bool) : Prop where
  high : ∀ n, Rises level n → ∀ m, n ≤ m → m < n + gap → level m = true
  low : ∀ n, Falls level n → ∀ m, n ≤ m → m < n + gap → level m = false

/-- Places in turn, never more than `gap` apart. -/
structure Samples (gap : Nat) (place : Nat → Nat) : Prop where
  forward : ∀ k, place k ≤ place (k + 1)
  close : ∀ k, place (k + 1) ≤ place k + gap

variable {level : Nat → Bool} {gap a b n : Nat}

theorem exists_rise (le : a ≤ b) (before : level a = false) (after : level b = true) :
    ∃ n, a < n ∧ n ≤ b ∧ Rises level n := by
  induction b, le using Nat.le_induction with
  | base => exact absurd (before.symm.trans after) Bool.false_ne_true
  | succ b le ih =>
    cases last : level b with
    | true =>
      obtain ⟨n, low, high, rises⟩ := ih last
      exact ⟨n, low, Nat.le_succ_of_le high, rises⟩
    | false =>
      refine ⟨b + 1, Nat.lt_succ_of_le le, Nat.le_refl _, after, fun m same => ?_⟩
      rw [← Nat.succ.inj same]
      exact last

theorem exists_fall (le : a ≤ b) (before : level a = true) (after : level b = false) :
    ∃ n, a < n ∧ n ≤ b ∧ Falls level n := by
  induction b, le using Nat.le_induction with
  | base => exact absurd (before.symm.trans after) (by simp)
  | succ b le ih =>
    cases last : level b with
    | false =>
      obtain ⟨n, low, high, falls⟩ := ih last
      exact ⟨n, low, Nat.le_succ_of_le high, falls⟩
    | true => exact ⟨b + 1, Nat.lt_succ_of_le le, Nat.le_refl _, after, b, rfl, last⟩

/-- Before a rise the level has been low for `gap` clocks, or from the start. -/
theorem Slow.low_before (slow : Slow gap level) (rises : Rises level n) {m : Nat} (before : m < n)
    (near : n ≤ m + gap) : level m = false := by
  obtain ⟨p, rfl⟩ := Nat.exists_eq_succ_of_ne_zero (Nat.ne_of_gt (Nat.zero_lt_of_lt before))
  have last := rises.2 p rfl
  cases here : level m with
  | false => rfl
  | true =>
    obtain ⟨f, after, upto, falls⟩ := exists_fall (Nat.le_of_lt_succ before) here last
    have still := slow.low f falls (p + 1) (Nat.le_succ_of_le upto) (by omega)
    exact absurd (still.symm.trans rises.1) Bool.false_ne_true

/-- Two rises are more than two stretches apart. -/
theorem Slow.rises_apart (slow : Slow gap level) {m : Nat} (first : Rises level m)
    (second : Rises level n) (later : m < n) : m + gap ≤ n := by
  by_contra close
  have low := slow.low_before second later (by omega)
  exact absurd (low.symm.trans first.1) Bool.false_ne_true

end Levels

section Crossing

variable {level : Nat → Bool} {place : Nat → Nat} {gap : Nat}

/-- Every rise of a slow level is sampled as one rise, and every sampled rise is one of the
level. -/
theorem sampled_rise_iff (slow : Slow gap level) (samples : Samples gap place) (k : Nat) :
    (level (place k) = false ∧ level (place (k + 1)) = true) ↔
      ∃! n, Rises level n ∧ place k < n ∧ n ≤ place (k + 1) := by
  have near := samples.close k
  constructor
  · rintro ⟨before, after⟩
    obtain ⟨n, low, high, rises⟩ := exists_rise (samples.forward k) before after
    refine ⟨n, ⟨rises, low, high⟩, ?_⟩
    rintro m ⟨other, above, upto⟩
    obtain early | rfl | late := Nat.lt_trichotomy m n
    · have apart := slow.rises_apart other rises early
      omega
    · rfl
    · have apart := slow.rises_apart rises other late
      omega
  · rintro ⟨n, ⟨rises, low, high⟩, -⟩
    exact ⟨slow.low_before rises low (by omega), slow.high n rises _ high (by omega)⟩

theorem Samples.mono (samples : Samples gap place) {j k : Nat} (le : j ≤ k) :
    place j ≤ place k := by
  induction k, le using Nat.le_induction with
  | base => exact Nat.le_refl _
  | succ k _ ih => exact Nat.le_trans ih (samples.forward k)

/-- A place that has been passed was passed between two samples. -/
theorem Samples.crosses (samples : Samples gap place) {n j : Nat} (start : place 0 < n)
    (passed : n ≤ place j) : ∃! k, place k < n ∧ n ≤ place (k + 1) := by
  have found : ∃ k, k < j ∧ place k < n ∧ n ≤ place (k + 1) := by
    induction j with
    | zero => exact absurd start (Nat.not_lt.2 passed)
    | succ j ih =>
      obtain before | reached := Nat.lt_or_ge (place j) n
      · exact ⟨j, Nat.lt_succ_self j, before, passed⟩
      · obtain ⟨k, early, crosses⟩ := ih reached
        exact ⟨k, Nat.lt_succ_of_lt early, crosses⟩
  obtain ⟨k, -, low, high⟩ := found
  refine ⟨k, ⟨low, high⟩, ?_⟩
  rintro i ⟨below, above⟩
  obtain early | rfl | late := Nat.lt_trichotomy i k
  · exact absurd (Nat.le_trans above (samples.mono early)) (Nat.not_le.2 low)
  · rfl
  · exact absurd (Nat.le_trans high (samples.mono late)) (Nat.not_le.2 below)

end Crossing

end PscDigpid.Sync
