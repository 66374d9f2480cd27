/- Unit: PscDigpid/Sync/OneShot
   layer: library
   source: none(general)
   digest: A pulse of fixed length that is not started again before its end. -/

import PscDigpid.Sync.Run

set_option autoImplicit false
set_option relaxedAutoImplicit false

namespace PscDigpid.Sync

/-- Clocks of the pulse that are left; a trigger counts only when none is. -/
def oneShot (n left : Nat) (trig : Bool) : Nat :=
  if left = 0 then if trig then n else 0 else left - 1

section Runs

variable (n : Nat) (trig : Nat → Bool)

/-- The trigger at clock `u` starts a pulse. -/
def Accepts (u : Nat) : Prop := run (oneShot n) 0 trig u = 0 ∧ trig u = true

variable {n : Nat} {trig : Nat → Bool} {t u v : Nat}

/-- From its trigger on a pulse runs down. -/
theorem Accepts.left (accepts : Accepts n trig u) {k : Nat} (within : k < n) :
    run (oneShot n) 0 trig (u + 1 + k) = n - k := by
  induction k with
  | zero =>
    obtain ⟨idle, fires⟩ := accepts
    rw [Nat.add_zero, run_succ, oneShot, if_pos idle, if_pos fires, Nat.sub_zero]
  | succ k ih =>
    have before := ih (Nat.lt_of_succ_lt within)
    rw [← Nat.add_assoc, run_succ, before, oneShot, if_neg (by omega), Nat.sub_sub]

/-- The pulses are exactly the `n` clocks after the triggers that start one. -/
theorem oneShot_high_iff : 0 < run (oneShot n) 0 trig t ↔
    ∃ u, Accepts n trig u ∧ u < t ∧ t ≤ u + n := by
  constructor
  · intro high
    induction t with
    | zero => exact absurd high (Nat.lt_irrefl 0)
    | succ t ih =>
      obtain idle | busy := Nat.eq_zero_or_pos (run (oneShot n) 0 trig t)
      · rw [run_succ, oneShot, if_pos idle] at high
        cases fires : trig t with
        | false =>
          rw [fires, if_neg Bool.false_ne_true] at high
          exact absurd high (Nat.lt_irrefl 0)
        | true =>
          rw [fires, if_pos rfl] at high
          exact ⟨t, ⟨idle, fires⟩, Nat.lt_succ_self t, Nat.add_le_add_left high t⟩
      · obtain ⟨u, accepts, before, upto⟩ := ih busy
        refine ⟨u, accepts, Nat.lt_succ_of_lt before, ?_⟩
        obtain ⟨k, rfl⟩ := Nat.exists_eq_add_of_le (Nat.succ_le_of_lt before)
        have left := accepts.left (show k < n by omega)
        rw [run_succ, oneShot, if_neg (Nat.ne_of_gt busy), left] at high
        omega
  · rintro ⟨u, accepts, before, upto⟩
    obtain ⟨k, rfl⟩ := Nat.exists_eq_add_of_le (Nat.succ_le_of_lt before)
    rw [accepts.left (by omega)]
    omega

/-- A trigger starts a pulse exactly when no pulse is under way. -/
theorem accepts_iff : Accepts n trig v ↔
    trig v = true ∧ ∀ u, u < v → Accepts n trig u → u + n < v := by
  constructor
  · rintro ⟨idle, fires⟩
    refine ⟨fires, fun u before accepts => Nat.not_le.1 fun within => ?_⟩
    exact absurd idle (Nat.ne_of_gt (oneShot_high_iff.2 ⟨u, accepts, before, within⟩))
  · rintro ⟨fires, ended⟩
    refine ⟨Nat.eq_zero_of_not_pos fun high => ?_, fires⟩
    obtain ⟨u, accepts, before, within⟩ := oneShot_high_iff.1 high
    exact absurd (ended u before accepts) (Nat.not_lt.2 within)

/-- Of the triggers those are taken that come after the pulse of the one taken before. -/
def Taken (n : Nat) (trig taken : Nat → Prop) : Prop :=
  ∀ v, taken v ↔ trig v ∧ ∀ u, u < v → taken u → u + n < v

theorem oneShot_pulses (n : Nat) (trig : Nat → Bool) :
    ∃ taken, Taken n (fun t => trig t = true) taken ∧
      ∀ t, 0 < run (oneShot n) 0 trig t ↔ ∃ u, taken u ∧ u < t ∧ t ≤ u + n :=
  ⟨Accepts n trig, fun _ => accepts_iff, fun _ => oneShot_high_iff⟩

end Runs

end PscDigpid.Sync
