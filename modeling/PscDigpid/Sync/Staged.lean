/- Unit: PscDigpid/Sync/Staged
   layer: library
   source: none(general)
   digest: A worker of two stages and a pause, and what a rising request makes it show. -/

import Mathlib.Tactic.SplitIfs
import PscDigpid.Sync.Run

set_option autoImplicit false
set_option relaxedAutoImplicit false

namespace PscDigpid.Sync.Staged

universe u v x

inductive Stage
  | waits | first | second | pause
  deriving DecidableEq

/-- A worker that takes a middle value and then a result from two clocks in a row, and counts a
pause before it says that it is done. -/
structure Worker (w : Nat) (γ : Type v) (δ : Type x) where
  stage : Stage
  seen : Bool
  count : BitVec w
  middle : γ
  result : δ
  done : Bool

/-- What a worker sees at one clock; held, it stays where it is. -/
structure Input (ι : Type u) where
  held : Bool
  request : Bool
  value : ι

variable {ι : Type u} {γ : Type v} {δ : Type x} {w : Nat}

section Law

variable (f : ι → γ) (g : γ → ι → δ) (m : BitVec w)

/-- One clock of a worker. -/
def step (s : Worker w γ δ) (i : Input ι) : Worker w γ δ :=
  if i.held then { s with done := false }
  else
    match s.stage with
    | .waits =>
        { s with
          done := false
          seen := i.request
          stage := if i.request && !s.seen then .first else .waits }
    | .first => { s with middle := f i.value, stage := .second }
    | .second =>
        { s with result := g s.middle i.value, stage := .pause, count := 0 }
    | .pause =>
        if s.count = m then { s with stage := .waits, done := true }
        else { s with count := s.count + 1 }

/-- Free clocks without request until the worker is ready for the next one. -/
def lag (s : Worker w γ δ) : Nat :=
  match s.stage with
  | .waits => s.seen.toNat
  | .first => m.toNat + 4
  | .second => m.toNat + 3
  | .pause => m.toNat - s.count.toNat + 2

/-- A pause is counted up to its last clock. -/
def Counting (s : Worker w γ δ) : Prop := s.stage = .pause → s.count.toNat ≤ m.toNat

end Law

section Step

variable {f : ι → γ} {g : γ → ι → δ} {m : BitVec w} {s : Worker w γ δ}
  {i : Input ι}

theorem step_held (held : i.held = true) :
    step f g m s i = { s with done := false } := by
  rw [step, if_pos held]

theorem step_waits (free : i.held = false) (stage : s.stage = .waits) :
    step f g m s i = { s with
      done := false
      seen := i.request
      stage := if i.request && !s.seen then .first else .waits } := by
  simp only [step, free, stage, Bool.false_eq_true, if_false]

theorem step_first (free : i.held = false) (stage : s.stage = .first) :
    step f g m s i =
      { s with middle := f i.value, stage := .second } := by
  simp only [step, free, stage, Bool.false_eq_true, if_false]

theorem step_second (free : i.held = false) (stage : s.stage = .second) :
    step f g m s i =
      { s with result := g s.middle i.value, stage := .pause, count := 0 } := by
  simp only [step, free, stage, Bool.false_eq_true, if_false]

theorem step_pause (free : i.held = false) (stage : s.stage = .pause) :
    step f g m s i =
      if s.count = m then { s with stage := .waits, done := true }
      else { s with count := s.count + 1 } := by
  simp only [step, free, stage, Bool.false_eq_true, if_false]

/-- A count below its last value goes up. -/
theorem count_up {c : BitVec w} (le : c.toNat ≤ m.toNat) (apart : c ≠ m) :
    c.toNat < m.toNat ∧ (c + 1).toNat = c.toNat + 1 := by
  have below : c.toNat < m.toNat :=
    Nat.lt_of_le_of_ne le fun same => apart (BitVec.eq_of_toNat_eq same)
  have bound := m.isLt
  have one : (1 : BitVec w).toNat = 1 := by
    change 1 % 2 ^ w = 1
    rw [Nat.mod_eq_of_lt (by omega)]
  exact ⟨below, by rw [BitVec.toNat_add, one, Nat.mod_eq_of_lt (by omega)]⟩

theorem Counting.next (counting : Counting m s) :
    Counting m (step f g m s i) := by
  cases held : i.held with
  | true =>
    rw [step_held held]
    exact counting
  | false =>
    intro paused
    cases stage : s.stage with
    | waits =>
      rw [step_waits held stage] at paused
      cases rise : i.request && !s.seen with
      | true => simp [rise] at paused
      | false => simp [rise] at paused
    | first => simp [step_first held stage] at paused
    | second =>
      rw [step_second held stage]
      change (0#w).toNat ≤ _
      rw [BitVec.toNat_zero]
      exact Nat.zero_le _
    | pause =>
      rw [step_pause held stage] at paused ⊢
      by_cases full : s.count = m
      · simp [full] at paused
      · rw [if_neg full, (count_up (counting stage) full).2]
        exact (count_up (counting stage) full).1

/-- A free clock without request brings the worker one clock closer to the next one. -/
theorem lag_step (counting : Counting m s) (free : i.held = false)
    (none : i.request = false) :
    lag m (step f g m s i) ≤ lag m s - 1 := by
  cases stage : s.stage with
  | waits =>
    rw [step_waits free stage, none]
    exact Nat.zero_le _
  | first =>
    rw [step_first free stage]
    simp only [lag, stage]
    omega
  | second =>
    rw [step_second free stage]
    simp only [lag, stage]
    omega
  | pause =>
    rw [step_pause free stage]
    by_cases full : s.count = m
    · have one := Bool.toNat_le s.seen
      rw [if_pos full]
      simp only [lag, stage]
      omega
    · obtain ⟨below, up⟩ := count_up (counting stage) full
      rw [if_neg full]
      simp only [lag, stage, up]
      omega

/-- A request that stays has been seen. -/
theorem seen_next (seen : s.seen = true) (request : i.request = true) :
    (step f g m s i).seen = true := by
  cases held : i.held with
  | true =>
    rw [step_held held]
    exact seen
  | false =>
    cases stage : s.stage with
    | waits =>
      rw [step_waits held stage]
      exact request
    | first =>
      rw [step_first held stage]
      exact seen
    | second =>
      rw [step_second held stage]
      exact seen
    | pause =>
      rw [step_pause held stage]
      split_ifs
      all_goals exact seen

theorem lag_le : lag m s ≤ m.toNat + 4 := by
  cases stage : s.stage with
  | waits =>
    have one := Bool.toNat_le s.seen
    simp only [lag, stage]
    omega
  | first | second | pause =>
    simp only [lag, stage]
    omega

theorem ready_iff : lag m s = 0 ↔ s.stage = .waits ∧ s.seen = false := by
  cases stage : s.stage with
  | waits => simp [lag, stage]
  | first | second | pause => simp [lag, stage]

end Step

section Runs

variable {f : ι → γ} {g : γ → ι → δ} {m : BitVec w} {s : Worker w γ δ}
  {inp : Nat → Input ι} {t : Nat}

theorem counting_run (counting : Counting m s) (inp : Nat → Input ι) (t : Nat) :
    Counting m (run (step f g m) s inp t) := by
  induction t with
  | zero => exact counting
  | succ t ih => exact ih.next

theorem ready_next (counting : Counting m s) (ready : lag m (run (step f g m) s inp t) = 0)
    (free : (inp t).held = false) (none : (inp t).request = false) :
    lag m (run (step f g m) s inp (t + 1)) = 0 := by
  have closer := lag_step (f := f) (g := g)
    (counting_run (f := f) (g := g) counting inp t) free none
  rw [run_succ]
  omega

/-- From clock `a` on the clocks until the worker is ready stay within a room that either is made
for a whole turn, or shrinks by one at a free clock without request. -/
theorem lag_paced (room : Nat → Nat) {a : Nat} (counting : Counting m s)
    (start : lag m (run (step f g m) s inp a) ≤ room a)
    (keep : ∀ t, a ≤ t → m.toNat + 4 ≤ room (t + 1) ∨
      (inp t).held = false ∧ (inp t).request = false ∧ room t ≤ room (t + 1) + 1) (le : a ≤ t) :
    lag m (run (step f g m) s inp t) ≤ room t := by
  refine stretch_induction (P := fun t => lag m (run (step f g m) s inp t) ≤ room t) le start ?_
  intro t low _ before
  obtain whole | ⟨free, none, shrinks⟩ := keep t low
  · exact Nat.le_trans lag_le whole
  · have closer := lag_step (f := f) (g := g)
      (counting_run (f := f) (g := g) counting inp t) free none
    rw [run_succ]
    omega

/-- A request comes up at clock `t`. -/
def Rises (f : ι → γ) (g : γ → ι → δ) (m : BitVec w) (s : Worker w γ δ) (inp : Nat → Input ι)
    (t : Nat) : Prop :=
  (inp t).request = true ∧ (run (step f g m) s inp t).seen = false

/-- The result has been kept since clock `a`, and a stage goes back to a request that is as many
clocks old. -/
structure Kept (f : ι → γ) (g : γ → ι → δ) (m : BitVec w) (s : Worker w γ δ)
    (inp : Nat → Input ι) (a t : Nat) : Prop where
  result : (run (step f g m) s inp t).result =
    (run (step f g m) s inp a).result
  first : (run (step f g m) s inp t).stage = .first →
    ∃ u, a ≤ u ∧ u + 1 ≤ t ∧ Rises f g m s inp u
  second : (run (step f g m) s inp t).stage = .second →
    ∃ u, a ≤ u ∧ u + 2 ≤ t ∧ Rises f g m s inp u

theorem Kept.hold {a : Nat} (kept : Kept f g m s inp a t)
    (held : (inp t).held = true) : Kept f g m s inp a (t + 1) := by
  obtain ⟨same, first, second⟩ := kept
  have next := step_held (f := f) (g := g) (m := m)
    (s := run (step f g m) s inp t) held
  rw [← run_succ (step f g m) s inp t] at next
  refine ⟨by rw [next]; exact same, ?_, ?_⟩
  · intro begun
    rw [next] at begun
    obtain ⟨u, low, before, rises⟩ := first begun
    exact ⟨u, low, Nat.le_succ_of_le before, rises⟩
  · intro begun
    rw [next] at begun
    obtain ⟨u, low, before, rises⟩ := second begun
    exact ⟨u, low, Nat.le_succ_of_le before, rises⟩

theorem Kept.next {a : Nat} (kept : Kept f g m s inp a t) (le : a ≤ t)
    (free : (inp t).held = false) (quiet : ∀ u, a ≤ u → u + 2 ≤ t → ¬Rises f g m s inp u) :
    Kept f g m s inp a (t + 1) := by
  obtain ⟨same, first, second⟩ := kept
  cases stage : (run (step f g m) s inp t).stage with
  | waits =>
    refine ⟨?_, fun begun => ⟨t, le, Nat.le_refl _, ?_⟩, fun begun => ?_⟩
    · rw [run_succ, step_waits free stage]
      exact same
    · rw [run_succ, step_waits free stage] at begun
      simp only at begun
      split_ifs at begun with rise
      rw [Bool.and_eq_true, Bool.not_eq_true'] at rise
      exact rise
    · rw [run_succ, step_waits free stage] at begun
      simp only at begun
      split_ifs at begun
  | first =>
    refine ⟨?_, fun begun => ?_, fun _ => ?_⟩
    · rw [run_succ, step_first free stage]
      exact same
    · simp [run_succ, step_first free stage] at begun
    · obtain ⟨u, low, before, rises⟩ := first stage
      exact ⟨u, low, Nat.succ_le_succ before, rises⟩
  | second =>
    -- the request behind this stage is at least two clocks old
    obtain ⟨u, low, before, rises⟩ := second stage
    exact absurd rises (quiet u low before)
  | pause =>
    have next := step_pause (f := f) (g := g) (m := m) free stage
    rw [← run_succ (step f g m) s inp t] at next
    split_ifs at next
    all_goals
      refine ⟨by rw [next]; exact same, fun begun => ?_, fun begun => ?_⟩
      · simp [next, stage] at begun
      · simp [next, stage] at begun

/-- From a clock outside the two stages on, the result stays for three clocks longer than no
request comes up. -/
theorem result_kept {a : Nat} (first : (run (step f g m) s inp a).stage ≠ .first)
    (second : (run (step f g m) s inp a).stage ≠ .second) (le : a ≤ t)
    (quiet : ∀ u, a ≤ u → u + 3 ≤ t → ¬Rises f g m s inp u) :
    (run (step f g m) s inp t).result =
      (run (step f g m) s inp a).result := by
  have base : Kept f g m s inp a a :=
    ⟨rfl, fun stage => absurd stage first, fun stage => absurd stage second⟩
  have kept := stretch_induction (P := Kept f g m s inp a) le base
    fun u low high before => by
      cases held : (inp u).held with
      | true => exact before.hold held
      | false => exact before.next low held fun v from_a later => quiet v from_a (by omega)
  exact kept.result

/-- What a ready worker shows after a request at clock `t` that no hold disturbs. -/
structure Served (f : ι → γ) (g : γ → ι → δ) (m : BitVec w) (s : Worker w γ δ)
    (inp : Nat → Input ι) (t : Nat) : Prop where
  seen : (run (step f g m) s inp (t + 1)).seen = true
  result : ∀ u, t + 3 ≤ u → (∀ v, t + 3 ≤ v → v + 3 ≤ u → ¬Rises f g m s inp v) →
    (run (step f g m) s inp u).result =
      g (f (inp (t + 1)).value) (inp (t + 2)).value
  done : ∀ u, t < u → u ≤ t + m.toNat + 4 →
    ((run (step f g m) s inp u).done = true ↔ u = t + m.toNat + 4)

theorem served (ready : lag m (run (step f g m) s inp t) = 0)
    (request : (inp t).request = true)
    (free : ∀ u, t ≤ u → u < t + m.toNat + 4 → (inp u).held = false) :
    Served f g m s inp t := by
  obtain ⟨waits, unseen⟩ := ready_iff.1 ready
  have first := step_waits (f := f) (g := g) (m := m)
    (free t (Nat.le_refl t) (by omega)) waits
  rw [request, unseen] at first
  simp only [Bool.not_false, Bool.and_self, if_true] at first
  rw [← run_succ (step f g m) s inp t] at first
  have second := step_first (f := f) (g := g) (m := m)
    (free (t + 1) (Nat.le_succ t) (by omega)) (congrArg Worker.stage first)
  rw [← run_succ (step f g m) s inp (t + 1)] at second
  have third := step_second (f := f) (g := g) (m := m)
    (free (t + 2) (by omega) (by omega)) (congrArg Worker.stage second)
  rw [← run_succ (step f g m) s inp (t + 2)] at third
  have paused : ∀ k, k ≤ m.toNat →
      (run (step f g m) s inp (t + 3 + k)).stage = .pause ∧
        (run (step f g m) s inp (t + 3 + k)).count.toNat = k ∧
        (run (step f g m) s inp (t + 3 + k)).done = false := by
    intro k le
    induction k with
    | zero =>
      rw [Nat.add_zero, third, second, first]
      exact ⟨rfl, BitVec.toNat_zero, rfl⟩
    | succ k ih =>
      obtain ⟨stage, count, low⟩ := ih (Nat.le_of_succ_le le)
      have apart : (run (step f g m) s inp (t + 3 + k)).count ≠ m := by
        intro full
        rw [full] at count
        omega
      have up := (count_up (by omega) apart).2
      rw [← Nat.add_assoc, run_succ,
        step_pause (free (t + 3 + k) (by omega) (by omega)) stage, if_neg apart]
      exact ⟨stage, by rw [up, count], low⟩
  obtain ⟨stage, count, low⟩ := paused m.toNat (Nat.le_refl _)
  have ends := step_pause (f := f) (g := g) (m := m)
    (free (t + 3 + m.toNat) (by omega) (by omega)) stage
  rw [if_pos (BitVec.eq_of_toNat_eq count), ← run_succ (step f g m) s inp] at ends
  refine ⟨by rw [first], ?_, ?_⟩
  · intro u le quiet
    rw [result_kept (by rw [third]; simp) (by rw [third]; simp) le quiet, third, second]
  · intro u after upto
    have cases : u = t + 1 ∨ u = t + 2 ∨ (∃ k, k ≤ m.toNat ∧ u = t + 3 + k) ∨
        u = t + 3 + m.toNat + 1 := by
      by_cases early : u ≤ t + 2
      · omega
      · by_cases paused : u ≤ t + 3 + m.toNat
        · exact .inr (.inr (.inl ⟨u - (t + 3), by omega, by omega⟩))
        · omega
    obtain rfl | rfl | ⟨k, le, rfl⟩ | rfl := cases
    · rw [first]
      simp only [Bool.false_eq_true, false_iff]
      omega
    · rw [second, first]
      simp only [Bool.false_eq_true, false_iff]
      omega
    · rw [(paused k le).2.2]
      simp only [Bool.false_eq_true, false_iff]
      omega
    · rw [ends]
      simp only [true_iff]
      omega

end Runs

end PscDigpid.Sync.Staged
