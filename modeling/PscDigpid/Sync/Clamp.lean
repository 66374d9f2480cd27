/- Unit: PscDigpid/Sync/Clamp
   layer: library
   source: none(general)
   digest: Integers limited to a range, and remainders read back from a given base. -/

import Mathlib.Data.Int.Init
import Mathlib.Tactic.Ring

set_option autoImplicit false
set_option relaxedAutoImplicit false

namespace PscDigpid.Sync

/-- `x`, or the limit it is beyond. -/
def clamp (lo hi x : Int) : Int := max lo (min x hi)

section Clamp

variable {lo hi x y : Int}

theorem clamp_bounds (le : lo ≤ hi) (x : Int) : lo ≤ clamp lo hi x ∧ clamp lo hi x ≤ hi := by
  unfold clamp
  omega

theorem clamp_of_mem (low : lo ≤ x) (high : x ≤ hi) : clamp lo hi x = x := by
  unfold clamp
  omega

/-- A wider range that limits first makes no difference. -/
theorem clamp_clamp {lo' hi' : Int} (low : lo' ≤ lo) (le : lo ≤ hi) (high : hi ≤ hi') (x : Int) :
    clamp lo hi (clamp lo' hi' x) = clamp lo hi x := by
  unfold clamp
  omega

/-- Nor does it bring a number into the narrower one. -/
theorem clamp_mem_iff {lo' hi' : Int} (low : lo' < lo) (le : lo ≤ hi) (high : hi < hi')
    (x : Int) : lo ≤ clamp lo' hi' x ∧ clamp lo' hi' x ≤ hi ↔ lo ≤ x ∧ x ≤ hi := by
  unfold clamp
  omega

/-- Two numbers have one limited value when they are equal or beyond the same limit. -/
theorem clamp_eq_clamp_iff (lt : lo < hi) :
    clamp lo hi x = clamp lo hi y ↔ x = y ∨ hi ≤ x ∧ hi ≤ y ∨ x ≤ lo ∧ y ≤ lo := by
  unfold clamp
  omega

end Clamp

/-- The number from `base` on that leaves the remainder of `v`. -/
def reread (base m v : Int) : Int := base + (v - base) % m

section Reread

variable {base m v x : Int}

theorem reread_bounds (base : Int) (positive : 0 < m) (v : Int) :
    base ≤ reread base m v ∧ reread base m v < base + m := by
  have low := Int.emod_nonneg (v - base) (Int.ne_of_gt positive)
  have high := Int.emod_lt_of_pos (v - base) positive
  unfold reread
  omega

/-- What is read back is the number with the remainder of `v` in the window. -/
theorem reread_eq_iff (positive : 0 < m) :
    reread base m v = x ↔ m ∣ v - x ∧ base ≤ x ∧ x < base + m := by
  constructor
  · rintro rfl
    refine ⟨?_, reread_bounds base positive v⟩
    have split := Int.mul_ediv_add_emod (v - base) m
    refine ⟨(v - base) / m, ?_⟩
    unfold reread
    omega
  · rintro ⟨⟨k, split⟩, low, high⟩
    have value : v - base = x - base + m * k := by omega
    unfold reread
    rw [value, Int.add_mul_emod_self_left, Int.emod_eq_of_lt (by omega) (by omega)]
    omega

end Reread

end PscDigpid.Sync
