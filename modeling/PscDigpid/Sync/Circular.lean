/- Unit: PscDigpid/Sync/Circular
   layer: library
   source: none(general)
   digest: A circular memory whose place stands still for one value at each turn. -/

import Mathlib.Algebra.BigOperators.Intervals
import Mathlib.Logic.Function.Basic

set_option autoImplicit false
set_option relaxedAutoImplicit false

namespace PscDigpid.Sync

open Finset (range)

/-- Places for values, and the one that the next value goes to. -/
structure Circular (α : Type*) where
  place : Nat
  mem : Nat → α

namespace Circular

variable {α : Type*} {n : Nat}

/-- A value goes to the place, which goes on. At the place `n` it goes nowhere, and the place
goes back to the first. -/
def put (n : Nat) (m : Circular α) (x : α) : Circular α :=
  if m.place = n then { m with place := 0 }
  else ⟨m.place + 1, Function.update m.mem m.place x⟩

/-- The memory after some values, the latest first. -/
def puts (n : Nat) (m : Circular α) : List α → Circular α
  | [] => m
  | x :: latest => (m.puts n latest).put n x

/-- How many values came after the one a place has, when the next place is `r`. -/
def age (n r i : Nat) : Nat := if i < r then r - 1 - i else r + n - i

section Within

variable {m : Circular α}

theorem place_put (within : m.place ≤ n) (x : α) : (m.put n x).place = (m.place + 1) % (n + 1) := by
  rw [put]
  split
  · rename_i last
    rw [last, Nat.mod_self]
  · have room : m.place + 1 < n + 1 := by omega
    exact (Nat.mod_eq_of_lt room).symm

theorem place_puts (within : m.place ≤ n) (latest : List α) :
    (m.puts n latest).place = (m.place + latest.length) % (n + 1) := by
  induction latest with
  | nil => exact (Nat.mod_eq_of_lt (Nat.lt_succ_of_le within)).symm
  | cons x latest ih =>
      have before : (m.puts n latest).place ≤ n := by
        rw [ih]
        exact Nat.le_of_lt_succ (Nat.mod_lt _ (Nat.succ_pos n))
      rw [puts, place_put before, ih, Nat.mod_add_mod, List.length_cons, Nat.add_assoc]

theorem place_puts_le (within : m.place ≤ n) (latest : List α) : (m.puts n latest).place ≤ n := by
  rw [place_puts within]
  exact Nat.le_of_lt_succ (Nat.mod_lt _ (Nat.succ_pos n))

/-- A place has the value of its age, or what it had if there were fewer values. -/
theorem mem_puts (within : m.place ≤ n) (latest : List α) {i : Nat} (inside : i < n) :
    (m.puts n latest).mem i = latest.getD (age n (m.puts n latest).place i) (m.mem i) := by
  induction latest with
  | nil => rfl
  | cons x latest ih =>
      have before := place_puts_le within latest
      rw [puts, put]
      generalize m.puts n latest = kept at *
      by_cases last : kept.place = n
      · have older : age n 0 i = age n kept.place i + 1 := by
          rw [age, age, last, if_neg (Nat.not_lt_zero i), if_pos inside]
          omega
        rw [if_pos last, older, List.getD_cons_succ]
        exact ih
      · rw [if_neg last]
        by_cases here : i = kept.place
        · have newest : age n (kept.place + 1) i = 0 := by
            rw [age, if_pos (by omega)]
            omega
          rw [newest, List.getD_cons_zero, here]
          exact Function.update_self _ _ _
        · have older : age n (kept.place + 1) i = age n kept.place i + 1 := by
            rw [age, age]
            split_ifs <;> omega
          rw [older, List.getD_cons_succ, ← ih]
          exact Function.update_of_ne here _ _

/-- The places have all ages up to `n` but that of the value dropped. -/
theorem sum_age {G : Type*} [AddCommMonoid G] (h : Nat → G) {r : Nat} (within : r ≤ n) :
    ∑ i ∈ range n, h (age n r i) + h r = ∑ a ∈ range (n + 1), h a := by
  obtain ⟨k, rfl⟩ := Nat.exists_eq_add_of_le within
  have young : ∑ i ∈ range r, h (age (r + k) r i) = ∑ a ∈ range r, h a := by
    rw [← Finset.sum_range_reflect h r]
    apply Finset.sum_congr rfl
    intro i low
    rw [age, if_pos (Finset.mem_range.1 low)]
  have old : ∑ j ∈ range k, h (age (r + k) r (r + j)) = ∑ j ∈ range k, h (r + 1 + j) := by
    rw [← Finset.sum_range_reflect (fun j => h (r + 1 + j)) k]
    apply Finset.sum_congr rfl
    intro j low
    have inside := Finset.mem_range.1 low
    rw [age, if_neg (by omega)]
    congr 1
    omega
  rw [Finset.sum_range_add, young, old, Nat.add_right_comm, Finset.sum_range_add,
    Finset.sum_range_succ, add_right_comm]

/-- What is in the places against the last `n` values: the value dropped last is missing, and
the one before them all is there. -/
theorem sum_puts {G : Type*} [AddCommMonoid G] (f : α → G) (within : m.place ≤ n)
    {latest : List α} (full : n ≤ latest.length) {r : Nat} (next : (m.puts n latest).place = r) :
    ∑ i ∈ range n, f ((m.puts n latest).mem i) + f (latest.getD r (m.mem r)) =
      ∑ a ∈ range n, f (latest.getD a (m.mem r)) + f (latest.getD n (m.mem r)) := by
  have before : r ≤ n := by
    rw [← next]
    exact place_puts_le within latest
  rw [← Finset.sum_range_succ (fun a => f (latest.getD a (m.mem r))),
    ← sum_age (fun a => f (latest.getD a (m.mem r))) before]
  congr 1
  apply Finset.sum_congr rfl
  intro i low
  have inside := Finset.mem_range.1 low
  rw [mem_puts within latest inside, next]
  by_cases same : i = r
  · rw [same]
  · have recent : age n r i < latest.length := by
      rw [age]
      split_ifs <;> omega
    rw [List.getD_eq_getElem?_getD, List.getD_eq_getElem?_getD, List.getElem?_eq_getElem recent]
    rfl

end Within

section Beyond

variable {m : Circular α}

/-- Beyond the place where it turns the place only goes on, and the first places stay. -/
theorem puts_beyond (beyond : n < m.place) (latest : List α) :
    (m.puts n latest).place = m.place + latest.length ∧
      ∀ i < m.place, (m.puts n latest).mem i = m.mem i := by
  induction latest with
  | nil => exact ⟨rfl, fun _ _ => rfl⟩
  | cons x latest ih =>
      obtain ⟨place, kept⟩ := ih
      rw [puts, put, if_neg (by omega)]
      refine ⟨?_, ?_⟩
      · rw [List.length_cons, ← Nat.add_assoc, ← place]
      · intro i low
        rw [← kept i low]
        exact Function.update_of_ne (by omega) _ _

end Beyond

end Circular

end PscDigpid.Sync
