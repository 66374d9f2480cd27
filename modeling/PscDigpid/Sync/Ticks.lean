/- Unit: PscDigpid/Sync/Ticks
   layer: library
   source: none(general)
   digest: Ticks counted over clocks, conditions held at the last ticks, modulo counters. -/

import Mathlib.Data.Nat.Count
import PscDigpid.Sync.Run

set_option autoImplicit false
set_option relaxedAutoImplicit false

namespace PscDigpid.Sync

/-- Number of ticks at the clocks before `t`. -/
def ticksBefore (tick : Nat → Bool) (t : Nat) : Nat := Nat.count (fun u => tick u = true) t

@[simp] theorem ticksBefore_zero (tick : Nat → Bool) : ticksBefore tick 0 = 0 :=
  Nat.count_zero _

theorem ticksBefore_tick {tick : Nat → Bool} {t : Nat} (fires : tick t = true) :
    ticksBefore tick (t + 1) = ticksBefore tick t + 1 := by
  rw [ticksBefore, Nat.count_succ, if_pos fires]
  rfl

theorem ticksBefore_idle {tick : Nat → Bool} {t : Nat} (idle : tick t = false) :
    ticksBefore tick (t + 1) = ticksBefore tick t := by
  rw [ticksBefore, Nat.count_succ, if_neg (by simp [idle])]
  rfl

theorem ticksBefore_succ (tick : Nat → Bool) (t : Nat) :
    ticksBefore tick (t + 1) = ticksBefore tick t + (tick t).toNat := by
  cases fires : tick t with
  | true => exact ticksBefore_tick fires
  | false => exact ticksBefore_idle fires

theorem ticksBefore_mono (tick : Nat → Bool) {a b : Nat} (le : a ≤ b) :
    ticksBefore tick a ≤ ticksBefore tick b :=
  Nat.count_monotone _ le

/-- Ticks at the positive multiples of a period. -/
theorem ticksBefore_every {tick : Nat → Bool} {period : Nat}
    (every : ∀ t, tick t = decide (0 < t ∧ t % period = 0)) (t : Nat) :
    ticksBefore tick t = (t - 1) / period := by
  induction t with
  | zero => simp
  | succ t ih =>
      cases fires : tick t with
      | false =>
          rw [every t, decide_eq_false_iff_not] at fires
          rw [ticksBefore_idle (by simpa [every t] using fires), ih]
          cases t with
          | zero => rfl
          | succ k =>
              have off : ¬ period ∣ k + 1 :=
                fun divides => fires ⟨Nat.succ_pos k, Nat.mod_eq_zero_of_dvd divides⟩
              exact (Nat.succ_div_of_not_dvd off).symm
      | true =>
          rw [ticksBefore_tick fires, ih]
          rw [every t, decide_eq_true_eq] at fires
          obtain ⟨k, rfl⟩ := Nat.exists_eq_succ_of_ne_zero (Nat.pos_iff_ne_zero.1 fires.1)
          exact (Nat.succ_div_of_dvd (Nat.dvd_of_mod_eq_zero fires.2)).symm

/-- The ticks from clock `a` on, before clock `b`. -/
def ticksFrom (tick : Nat → Bool) (a b : Nat) : List Nat := (List.range' a (b - a)).filter tick

@[simp] theorem ticksFrom_self (tick : Nat → Bool) (a : Nat) : ticksFrom tick a a = [] := by
  rw [ticksFrom, Nat.sub_self]
  rfl

theorem ticksFrom_succ (tick : Nat → Bool) {a b : Nat} (le : a ≤ b) :
    ticksFrom tick a (b + 1) = ticksFrom tick a b ++ if tick b then [b] else [] := by
  rw [ticksFrom, ticksFrom, Nat.succ_sub le, List.range'_concat, List.filter_append, Nat.one_mul,
    Nat.add_sub_cancel' le]
  congr 1
  cases fires : tick b
  all_goals simp [fires]

theorem mem_ticksFrom {tick : Nat → Bool} {a b t : Nat} :
    t ∈ ticksFrom tick a b ↔ a ≤ t ∧ t < b ∧ tick t = true := by
  rw [ticksFrom, List.mem_filter, List.mem_range'_1, and_assoc]
  have inside : a ≤ t → (t < a + (b - a) ↔ t < b) := by omega
  exact and_congr_right fun low => and_congr_left' (inside low)

/-- The next tick at or after clock `t` is at clock `u`. -/
def NextTick (tick : Nat → Bool) (t u : Nat) : Prop :=
  t ≤ u ∧ tick u = true ∧ ∀ v, t ≤ v → v < u → tick v = false

theorem nextTick_self {tick : Nat → Bool} {t : Nat} (fires : tick t = true) : NextTick tick t t :=
  ⟨Nat.le_refl t, fires, fun _ low high => absurd high (Nat.not_lt.2 low)⟩

/-- A clock without tick is skipped on the way to the next. -/
theorem NextTick.skip {tick : Nat → Bool} {t u : Nat} (next : NextTick tick (t + 1) u)
    (idle : tick t = false) : NextTick tick t u := by
  obtain ⟨le, fires, between⟩ := next
  refine ⟨by omega, fires, ?_⟩
  intro v low high
  rcases Nat.eq_or_lt_of_le low with rfl | later
  · exact idle
  · exact between v later high

/-- The last tick before clock `n` is at clock `t`. -/
def LastTick (tick : Nat → Bool) (t n : Nat) : Prop :=
  t < n ∧ tick t = true ∧ ∀ v, t < v → v < n → tick v = false

theorem lastTick_self {tick : Nat → Bool} {t : Nat} (fires : tick t = true) :
    LastTick tick t (t + 1) :=
  ⟨Nat.lt_succ_self t, fires, fun _ late early => absurd early (by omega)⟩

theorem LastTick.skip {tick : Nat → Bool} {t n : Nat} (last : LastTick tick t n)
    (idle : tick n = false) : LastTick tick t (n + 1) := by
  obtain ⟨before, fires, between⟩ := last
  refine ⟨Nat.lt_succ_of_lt before, fires, ?_⟩
  intro v late early
  rcases Nat.lt_or_eq_of_le (Nat.le_of_lt_succ early) with inside | rfl
  · exact between v late inside
  · exact idle

/-- A tick at the last clock is the last one. -/
theorem LastTick.of_tick {tick : Nat → Bool} {t n : Nat} (last : LastTick tick t (n + 1))
    (fires : tick n = true) : t = n := by
  obtain ⟨before, _, between⟩ := last
  by_contra other
  have idle := between n (by omega) (Nat.lt_succ_self n)
  rw [fires] at idle
  cases idle

theorem LastTick.of_idle {tick : Nat → Bool} {t n : Nat} (last : LastTick tick t (n + 1))
    (idle : tick n = false) : LastTick tick t n := by
  obtain ⟨before, fires, between⟩ := last
  have other : t ≠ n := by
    rintro rfl
    rw [idle] at fires
    cases fires
  exact ⟨by omega, fires, fun v late early => between v late (Nat.lt_succ_of_lt early)⟩

/-- A stretch with a tick has a last one. -/
theorem exists_lastTick (tick : Nat → Bool) (n : Nat) :
    (∃ t, LastTick tick t n) ∨ ∀ v, v < n → tick v = false := by
  induction n with
  | zero => exact .inr fun v early => absurd early (Nat.not_lt_zero v)
  | succ n ih =>
      cases fires : tick n with
      | true => exact .inl ⟨n, lastTick_self fires⟩
      | false =>
          rcases ih with ⟨t, last⟩ | never
          · exact .inl ⟨t, last.skip fires⟩
          · right
            intro v early
            rcases Nat.lt_or_eq_of_le (Nat.le_of_lt_succ early) with inside | rfl
            · exact never v inside
            · exact fires

/-- A register that takes a value at each tick and keeps it has the value of the last tick. -/
theorem latched_last {α : Type*} {tick : Nat → Bool} (reg value : Nat → α)
    (next : ∀ t, reg (t + 1) = if tick t then value t else reg t) {t n : Nat}
    (last : LastTick tick t n) : reg n = value t := by
  obtain ⟨before, fires, between⟩ := last
  apply stretch_induction (P := fun m => reg m = value t) before
  · rw [next, if_pos fires]
  · intro v late early same
    rw [next, between v late early, if_neg Bool.false_ne_true, same]

theorem latched_never {α : Type*} {tick : Nat → Bool} (reg value : Nat → α)
    (next : ∀ t, reg (t + 1) = if tick t then value t else reg t) {n : Nat}
    (never : ∀ v, v < n → tick v = false) : reg n = reg 0 := by
  apply stretch_induction (P := fun m => reg m = reg 0) (Nat.zero_le n) rfl
  intro v _ early same
  rw [next, never v early, if_neg Bool.false_ne_true, same]

/-- The count of ticks takes every value on its way. -/
theorem ticksBefore_reaches {tick : Nat → Bool} {a b n : Nat} (le : a ≤ b)
    (low : ticksBefore tick a ≤ n) (high : n ≤ ticksBefore tick b) :
    ∃ t, a ≤ t ∧ t ≤ b ∧ ticksBefore tick t = n := by
  induction b, le using Nat.le_induction with
  | base => exact ⟨a, Nat.le_refl a, Nat.le_refl a, Nat.le_antisymm low high⟩
  | succ b from_a ih =>
      by_cases reached : n ≤ ticksBefore tick b
      · obtain ⟨t, first, last, count⟩ := ih reached
        exact ⟨t, first, by omega, count⟩
      · refine ⟨b + 1, by omega, Nat.le_refl _, Nat.le_antisymm ?_ high⟩
        cases fires : tick b with
        | false => rw [ticksBefore_idle fires]; omega
        | true => rw [ticksBefore_tick fires]; omega

/-- From clock `a` on, `trip` held at each of the last `n` ticks before clock
`t`: a stretch of clocks ending at `t` has `n` ticks and no tick without `trip`. -/
def HeldSince (tick trip : Nat → Bool) (a n t : Nat) : Prop :=
  ∃ b, a ≤ b ∧ b ≤ t ∧ ticksBefore tick b + n ≤ ticksBefore tick t ∧
    ∀ u, b ≤ u → u < t → tick u = true → trip u = true

/-- `trip` held at each of the last `n` ticks before clock `t`. -/
def HeldLast (tick trip : Nat → Bool) (n t : Nat) : Prop := HeldSince tick trip 0 n t

section Held

variable {tick trip : Nat → Bool} {a n t : Nat}

theorem heldSince_zero (le : a ≤ t) : HeldSince tick trip a 0 t :=
  ⟨t, le, Nat.le_refl t, Nat.le_refl _, fun _ low high => absurd high (by omega)⟩

theorem HeldSince.extend (held : HeldSince tick trip a n t) (fires : tick t = true)
    (trips : trip t = true) : HeldSince tick trip a (n + 1) (t + 1) := by
  obtain ⟨b, low, high, count, all⟩ := held
  refine ⟨b, low, by omega, ?_, ?_⟩
  · rw [ticksBefore_tick fires]
    omega
  · intro u from_b before fired
    rcases Nat.lt_or_eq_of_le (Nat.le_of_lt_succ before) with earlier | rfl
    · exact all u from_b earlier fired
    · exact trips

theorem HeldSince.idle (held : HeldSince tick trip a n t) (idle : tick t = false) :
    HeldSince tick trip a n (t + 1) := by
  obtain ⟨b, low, high, count, all⟩ := held
  refine ⟨b, low, by omega, ?_, ?_⟩
  · rw [ticksBefore_idle idle]
    exact count
  · intro u from_b before fired
    rcases Nat.lt_or_eq_of_le (Nat.le_of_lt_succ before) with earlier | rfl
    · exact all u from_b earlier fired
    · simp [idle] at fired

theorem HeldSince.fewer (held : HeldSince tick trip a n t) {m : Nat} (le : m ≤ n) :
    HeldSince tick trip a m t := by
  obtain ⟨b, low, high, count, all⟩ := held
  exact ⟨b, low, high, by omega, all⟩

theorem HeldSince.imp {trip' : Nat → Bool} {a' : Nat} (held : HeldSince tick trip a n t)
    (le : a' ≤ a) (weaker : ∀ u, a ≤ u → u < t → tick u = true → trip u = true → trip' u = true) :
    HeldSince tick trip' a' n t := by
  obtain ⟨b, low, high, count, all⟩ := held
  refine ⟨b, Nat.le_trans le low, high, count, ?_⟩
  intro u from_b before fired
  exact weaker u (Nat.le_trans low from_b) before fired (all u from_b before fired)

/-- A stretch with a tick in it starts before its end. -/
theorem HeldSince.stretch (held : HeldSince tick trip a (n + 1) (t + 1)) :
    ∃ b, a ≤ b ∧ b ≤ t ∧ ticksBefore tick b + (n + 1) ≤ ticksBefore tick (t + 1) ∧
      ∀ u, b ≤ u → u < t + 1 → tick u = true → trip u = true := by
  obtain ⟨b, low, high, count, all⟩ := held
  refine ⟨b, low, ?_, count, all⟩
  by_contra late
  have same : b = t + 1 := by omega
  rw [same] at count
  omega

theorem HeldSince.trips (held : HeldSince tick trip a (n + 1) (t + 1))
    (fires : tick t = true) : trip t = true := by
  obtain ⟨b, -, before, -, all⟩ := held.stretch
  exact all t before (Nat.lt_succ_self t) fires

/-- A clock without tick adds nothing to a stretch. -/
theorem HeldSince.of_idle (held : HeldSince tick trip a n (t + 1)) (idle : tick t = false)
    (le : a ≤ t) : HeldSince tick trip a n t := by
  obtain ⟨b, low, high, count, all⟩ := held
  rw [ticksBefore_idle idle] at count
  rcases Nat.lt_or_eq_of_le high with early | rfl
  · exact ⟨b, low, Nat.le_of_lt_succ early, count,
      fun u from_b before => all u from_b (Nat.lt_succ_of_lt before)⟩
  · rw [ticksBefore_idle idle] at count
    have none : n = 0 := by omega
    rw [none]
    exact heldSince_zero le

/-- A tick at the end of a stretch is one of its ticks. -/
theorem HeldSince.of_tick (held : HeldSince tick trip a (n + 1) (t + 1)) (fires : tick t = true) :
    HeldSince tick trip a n t := by
  obtain ⟨b, low, before, count, all⟩ := held.stretch
  rw [ticksBefore_tick fires] at count
  refine ⟨b, low, before, by omega, fun u from_b earlier => ?_⟩
  exact all u from_b (Nat.lt_succ_of_lt earlier)

end Held

/-- A register that is set by one condition and cleared by another is set when it was set and has
not been cleared since. -/
theorem latched_iff (set clear reg : Nat → Bool) (start : reg 0 = false)
    (next : ∀ t, reg (t + 1) = (!clear t && (set t || reg t))) (t : Nat) :
    reg t = true ↔ ∃ v, v < t ∧ set v = true ∧ ∀ w, v ≤ w → w < t → clear w = false := by
  induction t with
  | zero =>
    rw [start]
    exact iff_of_false Bool.false_ne_true fun ⟨v, early, _⟩ => Nat.not_lt_zero v early
  | succ t ih =>
    rw [next, Bool.and_eq_true, Bool.not_eq_true', Bool.or_eq_true]
    constructor
    · rintro ⟨unclear, now | before⟩
      · refine ⟨t, Nat.lt_succ_self t, now, fun w low high => ?_⟩
        rw [Nat.le_antisymm (Nat.le_of_lt_succ high) low]
        exact unclear
      · obtain ⟨v, early, raised, since⟩ := ih.1 before
        refine ⟨v, Nat.lt_succ_of_lt early, raised, fun w low high => ?_⟩
        rcases Nat.lt_or_eq_of_le (Nat.le_of_lt_succ high) with inside | rfl
        · exact since w low inside
        · exact unclear
    · rintro ⟨v, early, raised, since⟩
      refine ⟨since t (Nat.le_of_lt_succ early) (Nat.lt_succ_self t), ?_⟩
      rcases Nat.lt_or_eq_of_le (Nat.le_of_lt_succ early) with inside | rfl
      · right
        exact ih.2 ⟨v, inside, raised, fun w low high => since w low (Nat.lt_succ_of_lt high)⟩
      · exact .inl raised

/-- A counter that returns to zero after `last` runs through the residues
modulo `last + 1`. -/
theorem counter_mod {w : Nat} (count : Nat → BitVec w) (last : BitVec w) (zero : count 0 = 0)
    (next : ∀ t, count (t + 1) = if count t = last then 0 else count t + 1) (t : Nat) :
    (count t).toNat = t % (last.toNat + 1) := by
  induction t with
  | zero =>
      rw [zero, Nat.zero_mod]
      exact BitVec.toNat_zero
  | succ t ih =>
      have small : t % (last.toNat + 1) < last.toNat + 1 := Nat.mod_lt t (by omega)
      have bound := last.isLt
      rw [next, ← Nat.mod_add_mod t (last.toNat + 1) 1, ← ih]
      rw [← ih] at small
      by_cases full : count t = last
      · rw [if_pos full, full, Nat.mod_self]
        exact BitVec.toNat_zero
      · have apart : (count t).toNat ≠ last.toNat := fun same => full (BitVec.eq_of_toNat_eq same)
        have one : (1 : BitVec w).toNat = 1 := by
          change 1 % 2 ^ w = 1
          rw [Nat.mod_eq_of_lt (by omega)]
        rw [if_neg full, BitVec.toNat_add, one, Nat.mod_eq_of_lt (show _ < 2 ^ w by omega),
          Nat.mod_eq_of_lt (show _ < last.toNat + 1 by omega)]

/-- Such a counter is at its last value at the last residue. -/
theorem counter_full {w : Nat} (count : Nat → BitVec w) (last : BitVec w) (zero : count 0 = 0)
    (next : ∀ t, count (t + 1) = if count t = last then 0 else count t + 1) (t : Nat) :
    count t = last ↔ t % (last.toNat + 1) = last.toNat := by
  rw [← counter_mod count last zero next t]
  constructor
  · intro same
    exact congrArg BitVec.toNat same
  · intro same
    exact BitVec.eq_of_toNat_eq same

end PscDigpid.Sync
