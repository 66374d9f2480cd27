/- Unit: PscDigpid/Sync/Scaled
   layer: library
   source: none(general)
   digest: When a difference that is scaled, both results wrapped, keeps order and sign. -/

import Mathlib.Data.Int.Init
import Mathlib.Tactic.Linarith
import Mathlib.Tactic.Ring

set_option autoImplicit false
set_option relaxedAutoImplicit false

namespace PscDigpid.Sync

/-- A signed number of half a range either side of zero. -/
def InRange (half : Nat) (v : Int) : Prop := -(half : Int) ≤ v ∧ v < half

section Wrap

variable {half : Nat} {v : Int}

theorem wrap_inside (inside : InRange half v) : v.bmod (2 * half) = v := by
  obtain ⟨low, high⟩ := inside
  apply Int.bmod_eq_of_le_mul_two
  · push_cast
    omega
  · push_cast
    omega

theorem wrap_above (low : (half : Int) ≤ v) (high : v < 3 * half) :
    v.bmod (2 * half) = v - 2 * half := by
  have back := Int.sub_bmod_right v (2 * half)
  push_cast at back
  rw [← back]
  exact wrap_inside ⟨by omega, by omega⟩

theorem wrap_below (low : -(3 * half : Int) ≤ v) (high : v < -half) :
    v.bmod (2 * half) = v + 2 * half := by
  have back := Int.add_bmod_right v (2 * half)
  push_cast at back
  rw [← back]
  exact wrap_inside ⟨by omega, by omega⟩

end Wrap

/-- A number times a gain in parts of a scale, rounded down and wrapped. -/
def scaled (half scale : Nat) (gain d : Int) : Int := (d * gain / scale).bmod (2 * half)

/-- The same of a difference that is wrapped before. -/
def corrected (half scale : Nat) (offset gain x : Int) : Int :=
  scaled half scale gain ((x - offset).bmod (2 * half))

/-- Larger numbers have no smaller results, and no result has the other sign than its
difference. -/
structure KeepsOrder (half scale : Nat) (offset gain : Int) : Prop where
  order : ∀ x y, InRange half x → InRange half y → x ≤ y →
    corrected half scale offset gain x ≤ corrected half scale offset gain y
  sign : ∀ x, InRange half x → (offset < x → 0 ≤ corrected half scale offset gain x) ∧
    (x < offset → corrected half scale offset gain x ≤ 0)

section Scaled

variable {half scale : Nat} {offset gain x y d e : Int}

/-- A product that fits is not wrapped. -/
theorem scaled_fits (positive : 0 < scale) (low : -(half * scale : Int) ≤ d * gain)
    (high : d * gain < half * scale) : scaled half scale gain d = d * gain / scale := by
  have unit : (0 : Int) < scale := Int.natCast_pos.2 positive
  apply wrap_inside
  refine ⟨?_, (Int.ediv_lt_iff_lt_mul unit).2 high⟩
  rw [Int.le_ediv_iff_mul_le unit, Int.neg_mul]
  exact low

/-- The first multiple from a limit on is less than one gain beyond it. -/
theorem exists_first_multiple (positive : 0 < gain) (limit : Int) :
    ∃ d, limit ≤ d * gain ∧ d * gain < limit + gain ∧ ∀ e, limit ≤ e * gain → d ≤ e := by
  have below := Int.ediv_mul_le (limit + gain - 1) (Int.ne_of_gt positive)
  have above := Int.lt_ediv_add_one_mul_self (limit + gain - 1) positive
  rw [Int.add_mul, Int.one_mul] at above
  refine ⟨(limit + gain - 1) / gain, by omega, by omega, ?_⟩
  intro e reaches
  apply Int.le_of_lt_add_one
  rw [Int.ediv_lt_iff_lt_mul positive, Int.add_mul, Int.one_mul]
  omega

/-- If the largest numbers go over the range, some positive number has a negative result. -/
theorem exists_over_top (large : 8 < half) (unit : 0 < scale) (positive : 0 < gain)
    (bound : gain < 8 * scale) (beyond : (half * scale : Int) ≤ (half - 1) * gain) :
    ∃ d : Int, 0 < d ∧ d < half ∧ scaled half scale gain d < 0 := by
  have unit' : (0 : Int) < scale := Int.natCast_pos.2 unit
  obtain ⟨d, reaches, near, first⟩ := exists_first_multiple positive (half * scale)
  have last := first _ beyond
  have low : (half : Int) ≤ d * gain / scale := (Int.le_ediv_iff_mul_le unit').2 reaches
  have high : d * gain / scale < half + 8 := by
    rw [Int.ediv_lt_iff_lt_mul unit', Int.add_mul]
    omega
  refine ⟨d, ?_, by omega, ?_⟩
  · by_contra none
    have small : d * gain ≤ 0 := Int.mul_nonpos_of_nonpos_of_nonneg (by omega) (by omega)
    have some : (0 : Int) < half * scale := Int.mul_pos (by omega) unit'
    omega
  · rw [scaled, wrap_above low (by omega)]
    omega

/-- If the smallest go under it, some negative number has a positive result. -/
theorem exists_under_bottom (large : 8 < half) (unit : 0 < scale) (bound : gain < 8 * scale)
    (beyond : (scale : Int) < gain) :
    ∃ d : Int, -half ≤ d ∧ d < 0 ∧ 0 < scaled half scale gain d := by
  have unit' : (0 : Int) < scale := Int.natCast_pos.2 unit
  have positive : 0 < gain := by omega
  obtain ⟨d, reaches, near, first⟩ := exists_first_multiple positive (half * scale + 1)
  have last : d ≤ half := by
    apply first
    have steps := Int.mul_le_mul_of_nonneg_left (Int.add_one_le_of_lt beyond)
      (Int.natCast_nonneg half)
    rw [Int.mul_add, Int.mul_one] at steps
    omega
  have high : -d * gain / scale < -half := by
    rw [Int.ediv_lt_iff_lt_mul unit', Int.neg_mul, Int.neg_mul]
    omega
  have low : -(half : Int) - 8 ≤ -d * gain / scale := by
    rw [Int.le_ediv_iff_mul_le unit', Int.neg_mul, Int.sub_mul, Int.neg_mul]
    omega
  refine ⟨-d, by omega, ?_, ?_⟩
  · by_contra none
    have small : d * gain ≤ 0 := Int.mul_nonpos_of_nonpos_of_nonneg (by omega) (by omega)
    have some : (0 : Int) ≤ half * scale := Int.mul_nonneg (by omega) (by omega)
    omega
  · rw [scaled, wrap_below (by omega) high]
    omega

end Scaled

/-- An offset and a gain with which nothing is wrapped but what comes out as the largest. -/
def OrderedBy (half scale : Nat) (offset gain : Int) : Prop :=
  gain = 0 ∨ (offset = 0 ∧ gain ≤ scale) ∨
    (offset = -1 ∧ (scale : Int) < gain ∧ half * gain ≤ (half + 1) * scale)

/-- Neither the difference nor the product is wrapped. -/
structure Fits (half scale : Nat) (offset gain x : Int) : Prop where
  difference : InRange half (x - offset)
  low : -(half * scale : Int) ≤ (x - offset) * gain
  high : (x - offset) * gain < half * scale

section Order

variable {half scale : Nat} {offset gain x y : Int}

theorem Fits.exact (fits : Fits half scale offset gain x) (unit : 0 < scale) :
    corrected half scale offset gain x = (x - offset) * gain / scale := by
  rw [corrected, wrap_inside fits.difference, scaled_fits unit fits.low fits.high]

theorem Fits.order (fits : Fits half scale offset gain x) (fits' : Fits half scale offset gain y)
    (unit : 0 < scale) (nonneg : 0 ≤ gain) (le : x ≤ y) :
    corrected half scale offset gain x ≤ corrected half scale offset gain y := by
  rw [fits.exact unit, fits'.exact unit]
  apply Int.ediv_le_ediv (Int.natCast_pos.2 unit)
  exact Int.mul_le_mul_of_nonneg_right (by omega) nonneg

theorem Fits.sign (fits : Fits half scale offset gain x) (unit : 0 < scale) (nonneg : 0 ≤ gain) :
    (offset < x → 0 ≤ corrected half scale offset gain x) ∧
      (x < offset → corrected half scale offset gain x ≤ 0) := by
  have unit' : (0 : Int) < scale := Int.natCast_pos.2 unit
  rw [fits.exact unit]
  constructor
  · intro above
    exact Int.ediv_nonneg (Int.mul_nonneg (by omega) nonneg) (Int.le_of_lt unit')
  · intro below
    apply Int.le_of_lt_add_one
    rw [Int.ediv_lt_iff_lt_mul unit', Int.zero_add, Int.one_mul]
    have product : (x - offset) * gain ≤ 0 := Int.mul_nonpos_of_nonpos_of_nonneg (by omega) nonneg
    omega

/-- With no offset and a gain of at most one everything fits. -/
theorem fits_unit_gain (nonneg : 0 ≤ gain) (small : gain ≤ scale) (unit : 0 < scale)
    (inside : InRange half x) : Fits half scale 0 gain x := by
  obtain ⟨low, high⟩ := inside
  have unit' : (0 : Int) < scale := Int.natCast_pos.2 unit
  rw [← Int.sub_zero x] at low high
  refine ⟨⟨low, high⟩, ?_, ?_⟩
  · calc -(half * scale : Int) ≤ -(half * gain) :=
        Int.neg_le_neg (Int.mul_le_mul_of_nonneg_left small (Int.natCast_nonneg half))
      _ = -half * gain := (Int.neg_mul _ _).symm
      _ ≤ (x - 0) * gain := Int.mul_le_mul_of_nonneg_right low nonneg
  · obtain neg | pos := Int.lt_or_le (x - 0) 0
    · have product : (x - 0) * gain ≤ 0 :=
        Int.mul_nonpos_of_nonpos_of_nonneg (Int.le_of_lt neg) nonneg
      have some : (0 : Int) < half * scale := Int.mul_pos (by omega) unit'
      omega
    · calc (x - 0) * gain ≤ (x - 0) * scale := Int.mul_le_mul_of_nonneg_left small pos
        _ < half * scale := Int.mul_lt_mul_of_pos_right high unit'

/-- With an offset of minus one and a gain just over one everything fits but the largest. -/
theorem fits_over_one (over_one : (scale : Int) < gain)
    (bound : (half * gain : Int) ≤ (half + 1) * scale) (inside : InRange half x)
    (below : x < half - 1) : Fits half scale (-1) gain x := by
  obtain ⟨low, _⟩ := inside
  have nonneg : 0 ≤ gain := by omega
  have top : (half - 1) * gain < (half * scale : Int) := by
    rw [Int.sub_mul]
    rw [Int.add_mul] at bound
    omega
  refine ⟨⟨by omega, by omega⟩, ?_, ?_⟩
  · have steps := Int.mul_le_mul_of_nonneg_right (show -(half - 1 : Int) ≤ x - -1 by omega) nonneg
    rw [Int.neg_mul] at steps
    omega
  · have steps := Int.mul_le_mul_of_nonneg_right (show x - -1 ≤ (half - 1 : Int) by omega) nonneg
    omega

/-- The largest is wrapped twice and comes out as it was. -/
theorem corrected_largest (some : 0 < half) (unit : 0 < scale) (over_one : (scale : Int) < gain)
    (bound : (half * gain : Int) ≤ (half + 1) * scale) :
    corrected half scale (-1) gain (half - 1) = half - 1 := by
  have unit' : (0 : Int) < scale := Int.natCast_pos.2 unit
  have some' : (0 : Int) < half := Int.natCast_pos.2 some
  have difference : ((half : Int) - 1 - -1).bmod (2 * half) = -half := by
    rw [wrap_above (by omega) (by omega)]
    omega
  have product : -half * gain / scale = -(half : Int) - 1 := by
    apply Int.le_antisymm
    · apply Int.le_of_lt_add_one
      rw [Int.ediv_lt_iff_lt_mul unit', Int.sub_add_cancel]
      exact Int.mul_lt_mul_of_neg_left over_one (by omega)
    · rw [Int.le_ediv_iff_mul_le unit', Int.sub_mul, Int.neg_mul, Int.neg_mul]
      rw [Int.add_mul] at bound
      omega
  rw [corrected, difference, scaled, product, wrap_below (by omega) (by omega)]
  omega

theorem corrected_le (some : 0 < half) (x : Int) :
    corrected half scale offset gain x ≤ half - 1 := by
  have high := Int.bmod_lt (x := (x - offset).bmod (2 * half) * gain / scale)
    (show 0 < 2 * half by omega)
  rw [corrected, scaled]
  omega

theorem keepsOrder_over_one (some : 0 < half) (unit : 0 < scale) (over_one : (scale : Int) < gain)
    (bound : (half * gain : Int) ≤ (half + 1) * scale) : KeepsOrder half scale (-1) gain := by
  have nonneg : 0 ≤ gain := by omega
  have largest := corrected_largest some unit over_one bound
  refine ⟨fun x y left right le => ?_, fun x inside => ?_⟩
  · obtain below | top := Int.lt_or_le y (half - 1)
    · exact (fits_over_one over_one bound left (by omega)).order
        (fits_over_one over_one bound right below) unit nonneg le
    · obtain rfl : y = half - 1 := by have := right.2; omega
      rw [largest]
      exact corrected_le some x
  · obtain below | top := Int.lt_or_le x (half - 1)
    · exact (fits_over_one over_one bound inside below).sign unit nonneg
    · obtain rfl : x = half - 1 := by have := inside.2; omega
      rw [largest]
      exact ⟨fun _ => by omega, fun below => by omega⟩

theorem OrderedBy.keepsOrder (ordered : OrderedBy half scale offset gain) (some : 0 < half)
    (unit : 0 < scale) (nonneg : 0 ≤ gain) : KeepsOrder half scale offset gain := by
  rcases ordered with rfl | ⟨rfl, small⟩ | ⟨rfl, over_one, bound⟩
  · have zero (x : Int) : corrected half scale offset 0 x = 0 := by
      simp [corrected, scaled]
    refine ⟨fun x y _ _ _ => ?_, fun x _ => ⟨fun _ => ?_, fun _ => ?_⟩⟩
    · rw [zero, zero]
    · rw [zero]
    · rw [zero]
  · refine ⟨fun x y left right le => ?_, fun x inside => ?_⟩
    · exact (fits_unit_gain nonneg small unit left).order
        (fits_unit_gain nonneg small unit right) unit nonneg le
    · exact (fits_unit_gain nonneg small unit inside).sign unit nonneg
  · exact keepsOrder_over_one some unit over_one bound

end Order

section Necessary

variable {half scale : Nat} {offset gain : Int}

/-- With a gain of at most one the largest difference does not come right before the smallest. -/
theorem KeepsOrder.apart (keeps : KeepsOrder half scale offset gain) (some : 0 < half)
    (unit : 0 < scale) (positive : 0 < gain) (small : gain ≤ scale) {x : Int}
    (left : InRange half x) (right : InRange half (x + 1))
    (largest : (x - offset).bmod (2 * half) = half - 1) :
    (x + 1 - offset).bmod (2 * half) ≠ -half := by
  intro smallest
  have order := keeps.order x (x + 1) left right (by omega)
  have unit' : (0 : Int) < scale := Int.natCast_pos.2 unit
  have some' : (0 : Int) < half := Int.natCast_pos.2 some
  have product := Int.mul_pos some' positive
  have most := Int.mul_le_mul_of_nonneg_left small (Int.natCast_nonneg half)
  have first : (half - 1) * gain < (half * scale : Int) := by
    rw [Int.sub_mul]
    omega
  have nonneg : 0 ≤ (half - 1) * gain := Int.mul_nonneg (by omega) (by omega)
  have last : -half * gain = -(half * gain : Int) := Int.neg_mul _ _
  have neg : -half * gain / scale < 0 := by
    rw [Int.ediv_lt_iff_lt_mul unit']
    omega
  rw [corrected, corrected, largest, smallest, scaled_fits unit (by omega) first,
    scaled_fits unit (by omega) (by omega)] at order
  have top := Int.ediv_nonneg nonneg (Int.le_of_lt unit')
  omega

theorem KeepsOrder.offset_zero (keeps : KeepsOrder half scale offset gain)
    (range : InRange half offset) (some : 0 < half) (unit : 0 < scale) (positive : 0 < gain)
    (small : gain ≤ scale) : offset = 0 := by
  obtain ⟨low, high⟩ := range
  by_contra other
  obtain neg | pos := Int.lt_or_lt_of_ne other
  · apply keeps.apart some unit positive small (x := half - 1 + offset)
    · exact ⟨by omega, by omega⟩
    · exact ⟨by omega, by omega⟩
    · rw [Int.add_sub_cancel]
      exact wrap_inside ⟨by omega, by omega⟩
    · rw [wrap_above (by omega) (by omega)]
      omega
  · apply keeps.apart some unit positive small (x := -half + offset - 1)
    · exact ⟨by omega, by omega⟩
    · exact ⟨by omega, by omega⟩
    · rw [wrap_below (by omega) (by omega)]
      omega
    · rw [wrap_inside ⟨by omega, by omega⟩]
      omega

/-- With a gain over one small numbers are wrapped, so only a negative offset is left. -/
theorem KeepsOrder.offset_neg (keeps : KeepsOrder half scale offset gain)
    (range : InRange half offset) (large : 8 < half) (unit : 0 < scale)
    (bound : gain < 8 * scale) (over_one : (scale : Int) < gain) : offset < 0 := by
  by_contra nonneg
  obtain ⟨d, low, neg, wrong⟩ := exists_under_bottom large unit bound over_one
  have inside : InRange half (d + offset) := ⟨by omega, by have := range.2; omega⟩
  have sign := (keeps.sign (d + offset) inside).2 (by omega)
  rw [corrected, Int.add_sub_cancel, wrap_inside ⟨low, by omega⟩] at sign
  omega

theorem KeepsOrder.fits_top (keeps : KeepsOrder half scale offset gain)
    (range : InRange half offset) (neg : offset < 0) (large : 8 < half) (unit : 0 < scale)
    (positive : 0 < gain) (bound : gain < 8 * scale) :
    (half - 1) * gain < (half * scale : Int) := by
  by_contra beyond
  obtain ⟨d, pos, high, wrong⟩ :=
    exists_over_top large unit positive bound (Int.not_lt.1 beyond)
  have inside : InRange half (d + offset) := ⟨by have := range.1; omega, by omega⟩
  have sign := (keeps.sign (d + offset) inside).1 (by omega)
  rw [corrected, Int.add_sub_cancel, wrap_inside ⟨by omega, high⟩] at sign
  omega

/-- With a gain over one no difference but the largest is wrapped. -/
theorem KeepsOrder.offset_neg_one (keeps : KeepsOrder half scale offset gain)
    (range : InRange half offset) (neg : offset < 0) (large : 1 < half) (unit : 0 < scale)
    (positive : 0 < gain) (top : (half - 1) * gain < (half * scale : Int)) : offset = -1 := by
  obtain ⟨low, _⟩ := range
  by_contra other
  have sign := (keeps.sign (half + 1 + offset) ⟨by omega, by omega⟩).1 (by omega)
  have unit' : (0 : Int) < scale := Int.natCast_pos.2 unit
  have product : 0 < (half - 1) * gain := Int.mul_pos (by omega) positive
  have opposite : (half + 1 - 2 * half) * gain = -((half - 1) * gain) := by
    rw [← Int.neg_mul]
    congr 1
    omega
  have wrong : (half + 1 - 2 * half) * gain / scale < 0 := by
    rw [Int.ediv_lt_iff_lt_mul unit']
    omega
  rw [corrected, Int.add_sub_cancel, wrap_above (by omega) (by omega),
    scaled_fits unit (by omega) (by omega)] at sign
  omega

/-- How far a gain is over one, if the products of all numbers but the smallest fit. -/
theorem over_one_bound {parts : Nat} (scaled_parts : scale = half * parts) (small : parts < half)
    (top : (half - 1) * gain < (half * scale : Int)) :
    (half * gain : Int) ≤ (half + 1) * scale := by
  obtain ⟨over_one, rfl⟩ : ∃ e, gain = scale + e := ⟨gain - scale, by omega⟩
  have little : over_one ≤ parts := by
    by_contra more
    have steps := Int.mul_le_mul_of_nonneg_left (show (parts : Int) + 1 ≤ over_one by omega)
      (show (0 : Int) ≤ half - 1 by omega)
    subst scaled_parts
    push_cast at top
    have room : (parts : Int) + 1 ≤ half := by omega
    nlinarith only [top, steps, room]
  have steps := Int.mul_le_mul_of_nonneg_left little (Int.natCast_nonneg half)
  rw [Int.mul_add, Int.add_mul, Int.one_mul]
  have parts_scale : (scale : Int) = half * parts := by
    rw [scaled_parts]
    push_cast
    rfl
  omega

/-- Which offsets and gains keep order and sign. -/
theorem keepsOrder_iff (parts : Nat) (large : 8 < half) (some : 0 < parts) (small : parts < half)
    (scaled_parts : scale = half * parts) (range : InRange half offset) (nonneg : 0 ≤ gain)
    (bound : gain < 8 * scale) :
    KeepsOrder half scale offset gain ↔ OrderedBy half scale offset gain := by
  have unit : 0 < scale := by
    rw [scaled_parts]
    exact Nat.mul_pos (by omega) some
  constructor
  · intro keeps
    obtain rfl | positive := eq_or_lt_of_le nonneg
    · exact .inl rfl
    · obtain at_most | over_one := Int.lt_or_le scale gain |>.symm
      · exact .inr (.inl
          ⟨keeps.offset_zero range (by omega) unit positive at_most, at_most⟩)
      · have neg := keeps.offset_neg range large unit bound over_one
        have top := keeps.fits_top range neg large unit positive bound
        exact .inr (.inr ⟨keeps.offset_neg_one range neg (by omega) unit positive top, over_one,
          over_one_bound scaled_parts small top⟩)
  · intro ordered
    exact ordered.keepsOrder (by omega) unit nonneg

end Necessary

end PscDigpid.Sync
