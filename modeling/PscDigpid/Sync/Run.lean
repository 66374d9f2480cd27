/- Unit: PscDigpid/Sync/Run
   layer: library
   source: none(general)
   digest: Runs of a clocked machine and the rules that carry facts along them. -/

import Mathlib.Data.Nat.Init

set_option autoImplicit false
set_option relaxedAutoImplicit false

namespace PscDigpid.Sync

universe u v w x

variable {σ : Type u} {ι : Type v} {τ : Type w} {κ : Type x}

/-- The state before clock edge `t`. Every edge takes one step on the inputs
sampled at that edge. -/
def run (step : σ → ι → σ) (s : σ) (inp : Nat → ι) : Nat → σ
  | 0 => s
  | t + 1 => step (run step s inp t) (inp t)

@[simp] theorem run_zero (step : σ → ι → σ) (s : σ) (inp : Nat → ι) :
    run step s inp 0 = s := rfl

theorem run_succ (step : σ → ι → σ) (s : σ) (inp : Nat → ι) (t : Nat) :
    run step s inp (t + 1) = step (run step s inp t) (inp t) := rfl

/-- A run restarted at clock `a` is the rest of the same run. -/
theorem run_add (step : σ → ι → σ) (s : σ) (inp : Nat → ι) (a b : Nat) :
    run step s inp (a + b) = run step (run step s inp a) (fun t => inp (a + t)) b := by
  induction b with
  | zero => rfl
  | succ b ih => rw [← Nat.add_assoc, run_succ, run_succ, ih]

/-- Induction over the clocks of one stretch: what holds at its first clock and
is kept by each clock of the stretch holds at its end. -/
theorem stretch_induction {P : Nat → Prop} {a b : Nat} (le : a ≤ b) (base : P a)
    (keep : ∀ t, a ≤ t → t < b → P t → P (t + 1)) : P b := by
  obtain ⟨d, rfl⟩ := Nat.exists_eq_add_of_le le
  clear le
  induction d with
  | zero => exact base
  | succ d ih =>
      exact keep (a + d) (Nat.le_add_right a d) (by omega)
        (ih fun t low high => keep t low (by omega))

/-- A loop ends: what holds at its first clock is kept by each clock but the last, and a measure
falls there. -/
theorem loop_ends {P last : Nat → Prop} (measure : Nat → Nat) {a : Nat} (base : P a)
    (keep : ∀ t, a ≤ t → P t → ¬last t → P (t + 1) ∧ measure (t + 1) < measure t) :
    ∃ b, a ≤ b ∧ last b ∧ ∀ t, a ≤ t → t ≤ b → P t := by
  induction left : measure a using Nat.strongRecOn generalizing a with
  | ind n ih =>
      by_cases ends : last a
      · refine ⟨a, Nat.le_refl a, ends, fun t low high => ?_⟩
        rw [Nat.le_antisymm high low]
        exact base
      · obtain ⟨next, closer⟩ := keep a (Nat.le_refl a) base ends
        obtain ⟨b, le, found, all⟩ := ih (measure (a + 1)) (left ▸ closer) next
          (fun t low => keep t (Nat.le_of_succ_le low)) rfl
        refine ⟨b, Nat.le_of_succ_le le, found, fun t low high => ?_⟩
        obtain rfl | later := Nat.eq_or_lt_of_le low
        · exact base
        · exact all t later high

/-- Two runs stay related while each pair of steps keeps the relation. -/
theorem run_related {step : σ → ι → σ} {other : τ → κ → τ} {R : σ → τ → Prop}
    {s : σ} {s' : τ} {inp : Nat → ι} {inp' : Nat → κ} (start : R s s')
    (keep : ∀ t, R (run step s inp t) (run other s' inp' t) →
      R (step (run step s inp t) (inp t)) (other (run other s' inp' t) (inp' t)))
    (t : Nat) : R (run step s inp t) (run other s' inp' t) := by
  induction t with
  | zero => exact start
  | succ t ih => exact keep t ih

/-- A state depends on the inputs before its clock only. -/
theorem run_congr (step : σ → ι → σ) (s : σ) {inp inp' : Nat → ι} {t : Nat}
    (same : ∀ u, u < t → inp u = inp' u) : run step s inp t = run step s inp' t := by
  induction t with
  | zero => rfl
  | succ t ih =>
      rw [run_succ, run_succ, same t (Nat.lt_succ_self t),
        ih fun u early => same u (Nat.lt_succ_of_lt early)]

/-- Refinement along a run: when each step projects to a step of a second
machine, the projected run is the second machine's run on the projected inputs. -/
theorem run_project {step : σ → ι → σ} {other : τ → κ → τ} (f : σ → τ) (g : σ → ι → κ)
    {s : σ} {inp : Nat → ι}
    (law : ∀ t, f (step (run step s inp t) (inp t)) =
      other (f (run step s inp t)) (g (run step s inp t) (inp t))) (t : Nat) :
    f (run step s inp t) =
      run other (f s) (fun u => g (run step s inp u) (inp u)) t := by
  induction t with
  | zero => rfl
  | succ t ih => rw [run_succ, run_succ, law, ih]

end PscDigpid.Sync
