/- Unit: PscDigpid/Sync/Bits
   layer: library
   source: none(general)
   digest: Assignments to single bits of a vector, loops of them, and shift registers. -/

import Mathlib.Data.List.GetD
import Mathlib.Data.List.Induction
import Mathlib.Tactic.ByContra

set_option autoImplicit false
set_option relaxedAutoImplicit false

namespace PscDigpid.Sync

/-- The vector with bit `k` replaced. -/
def setBit {w : Nat} (v : BitVec w) (k : Nat) (b : Bool) : BitVec w :=
  if b then v ||| BitVec.twoPow w k else v &&& ~~~BitVec.twoPow w k

section SetBit

variable {w : Nat}

theorem getLsbD_setBit (v : BitVec w) (k : Nat) (b : Bool) (j : Nat) (within : j < w) :
    (setBit v k b).getLsbD j = if j = k then b else v.getLsbD j := by
  by_cases same : j = k
  · subst same
    cases b <;> simp [setBit, within]
  · cases b <;> simp [setBit, within, same]

/-- A loop that rewrites the bits `0` to `n - 1`, bit `k` from its old value
through `f k`. -/
theorem getLsbD_foldl_range {body : BitVec w → Nat → BitVec w} {f : Nat → Bool → Bool}
    (law : ∀ v k j, j < w →
      (body v k).getLsbD j = if j = k then f k (v.getLsbD j) else v.getLsbD j)
    (n : Nat) (v : BitVec w) (j : Nat) (within : j < w) :
    ((List.range n).foldl body v).getLsbD j =
      if j < n then f j (v.getLsbD j) else v.getLsbD j := by
  induction n with
  | zero => simp
  | succ n ih =>
      rw [List.range_succ, List.foldl_append, List.foldl_cons, List.foldl_nil,
        law _ _ _ within, ih]
      by_cases last : j = n
      · subst last
        simp
      · rw [if_neg last]
        by_cases early : j < n
        · rw [if_pos early, if_pos (by omega)]
        · rw [if_neg early, if_neg (by omega)]

end SetBit

/-- A vector is nonzero exactly when one of its bits is set. -/
theorem bits_ne_zero_iff {w : Nat} (v : BitVec w) :
    v ≠ 0 ↔ ∃ j, j < w ∧ v.getLsbD j = true := by
  constructor
  · intro nonzero
    by_contra none
    refine nonzero (BitVec.eq_of_getLsbD_eq ?_)
    intro j within
    by_contra set
    refine none ⟨j, within, ?_⟩
    simpa using set
  · rintro ⟨j, -, set⟩ rfl
    simp at set

section ShiftRegister

/-- A bit shifted in at the bottom is found above those that follow it. -/
theorem getLsbD_foldl_shiftConcat {w : Nat} (v : BitVec w) (bits : List Bool) {j : Nat}
    (within : j < w) (taken : j < bits.length) :
    (bits.foldl BitVec.shiftConcat v).getLsbD j = bits.getD (bits.length - 1 - j) false := by
  induction bits using List.reverseRecOn generalizing j with
  | nil => exact absurd taken (Nat.not_lt_zero j)
  | append_singleton bits bit ih =>
      rw [List.length_append, List.length_singleton] at taken
      rw [List.foldl_append, List.foldl_cons, List.foldl_nil, BitVec.getLsbD_shiftConcat,
        decide_eq_true within, Bool.true_and, List.length_append, List.length_singleton,
        Nat.add_sub_cancel]
      cases j with
      | zero => simp
      | succ j =>
          have earlier : bits.length - (j + 1) < bits.length := by omega
          have place : bits.length - 1 - j = bits.length - (j + 1) := by omega
          rw [if_neg (Nat.succ_ne_zero j), Nat.add_sub_cancel, ih (by omega) (by omega), place,
            List.getD_append _ _ _ _ earlier]

/-- A shift register that has taken as many bits as it is wide holds them, the first on top. -/
theorem foldl_shiftConcat {w : Nat} (v : BitVec w) (bits : List Bool) (whole : bits.length = w) :
    bits.foldl BitVec.shiftConcat v = (BitVec.ofBoolListBE bits).setWidth w := by
  apply BitVec.eq_of_getLsbD_eq
  intro j within
  have taken : j < bits.length := whole ▸ within
  rw [getLsbD_foldl_shiftConcat v bits within taken, BitVec.getLsbD_setWidth,
    BitVec.getLsbD_ofBoolListBE, decide_eq_true within, decide_eq_true taken, Bool.true_and,
    Bool.true_and]

/-- A field of a word of bits in a row, so many places from the top. -/
theorem slice_ofBoolListBE {l : List Bool} {w k n : Nat} (length : l.length = w)
    (inside : k + n ≤ w) :
    ((BitVec.ofBoolListBE l).setWidth w).extractLsb' (w - k - n) n =
      (BitVec.ofBoolListBE ((l.drop k).take n)).setWidth n := by
  apply BitVec.eq_of_getLsbD_eq
  intro j lt
  have part : ((l.drop k).take n).length = n := by
    rw [List.length_take, List.length_drop]
    omega
  rw [BitVec.getLsbD_extractLsb', BitVec.getLsbD_setWidth, BitVec.getLsbD_setWidth,
    BitVec.getLsbD_ofBoolListBE, BitVec.getLsbD_ofBoolListBE, part, length,
    List.getD_eq_getElem?_getD, List.getD_eq_getElem?_getD, List.getElem?_take_of_lt (by omega),
    List.getElem?_drop]
  have place : w - 1 - (w - k - n + j) = k + (n - 1 - j) := by omega
  rw [place, decide_eq_true lt, decide_eq_true (by omega), Bool.true_and, Bool.true_and]

end ShiftRegister

end PscDigpid.Sync
