/- Unit: PscDigpid/Sync/Persistence
   layer: library
   source: none(general)
   digest: Persistence checks, the limit they are held to, and what their live bit records. -/

import PscDigpid.Sync.Ticks

set_option autoImplicit false
set_option relaxedAutoImplicit false

namespace PscDigpid.Sync

/-- A persistence check: it counts ticks at which its condition trips and raises
its live bit when the count is found equal to the limit. -/
structure Persist where
  count : Nat
  live : Bool
  deriving DecidableEq

/-- What a persistence check sees at one clock. -/
structure Sample where
  tick : Bool
  trip : Bool
  limit : Nat

/-- One clock of a persistence check with a counter of `w` bits. -/
def persistStep (w : Nat) (p : Persist) (x : Sample) : Persist :=
  if x.tick then
    if x.trip then
      if p.count = x.limit then { p with live := true }
      else { p with count := (p.count + 1) % 2 ^ w }
    else ⟨0, false⟩
  else p

section Step

variable {w : Nat} {p : Persist} {x : Sample}

theorem persistStep_idle (idle : x.tick = false) : persistStep w p x = p := by
  simp [persistStep, idle]

theorem persistStep_clear (tick : x.tick = true) (clear : x.trip = false) :
    persistStep w p x = ⟨0, false⟩ := by
  simp [persistStep, tick, clear]

theorem persistStep_hit (tick : x.tick = true) (trip : x.trip = true)
    (hit : p.count = x.limit) : persistStep w p x = ⟨p.count, true⟩ := by
  simp [persistStep, tick, trip, hit]

theorem persistStep_count (tick : x.tick = true) (trip : x.trip = true)
    (miss : p.count ≠ x.limit) :
    persistStep w p x = ⟨(p.count + 1) % 2 ^ w, p.live⟩ := by
  simp [persistStep, tick, trip, miss]

/-- What one clock can do: it brings no tick, or at a tick the condition fails, or
it trips at the limit, or it trips elsewhere and is counted. -/
theorem persistStep_cases (w : Nat) (p : Persist) (x : Sample) :
    (x.tick = false ∧ persistStep w p x = p) ∨
    (x.tick = true ∧ x.trip = false ∧ persistStep w p x = ⟨0, false⟩) ∨
    (x.tick = true ∧ x.trip = true ∧ p.count = x.limit ∧ persistStep w p x = ⟨p.count, true⟩) ∨
    (x.tick = true ∧ x.trip = true ∧ p.count ≠ x.limit ∧
      persistStep w p x = ⟨(p.count + 1) % 2 ^ w, p.live⟩) := by
  cases tick : x.tick with
  | false => exact Or.inl ⟨rfl, persistStep_idle tick⟩
  | true =>
      right
      cases trip : x.trip with
      | false => exact Or.inl ⟨rfl, rfl, persistStep_clear tick trip⟩
      | true =>
          right
          by_cases hit : p.count = x.limit
          · exact Or.inl ⟨rfl, rfl, hit, persistStep_hit tick trip hit⟩
          · exact Or.inr ⟨rfl, rfl, hit, persistStep_count tick trip hit⟩

theorem persistStep_live (tick : x.tick = true) (trip : x.trip = true)
    (live : p.live = true ∨ p.count = x.limit) : (persistStep w p x).live = true := by
  by_cases hit : p.count = x.limit
  · rw [persistStep_hit tick trip hit]
  · rw [persistStep_count tick trip hit]
    exact live.resolve_right hit

end Step

/-- The tick times of a sample stream. -/
def tickOf (xs : Nat → Sample) (t : Nat) : Bool := (xs t).tick

/-- The trip condition of a sample stream. -/
def tripOf (xs : Nat → Sample) (t : Nat) : Bool := (xs t).trip

/-- Whenever the condition trips at a tick, the check is already live or its
counter has not run past the limit in force. -/
def WithinLimit (r : Nat → Persist) (xs : Nat → Sample) : Prop :=
  ∀ t, (xs t).tick = true → (xs t).trip = true →
    (r t).live = true ∨ (r t).count ≤ (xs t).limit

/-- The law a persistence check is meant to obey at every tick. -/
def PersistLaw (r : Nat → Persist) (xs : Nat → Sample) : Prop :=
  ∀ t, (xs t).tick = true →
    (HeldLast (tickOf xs) (tripOf xs) ((xs t).limit + 1) (t + 1) →
      (r (t + 1)).live = true) ∧
    ((xs t).trip = false → (r (t + 1)).live = false ∧ (r (t + 1)).count = 0)

section Runs

variable {w : Nat} {p : Persist} {xs : Nat → Sample}

/-- Over a stretch whose ticks all trip, a check that stays within its limit is
live or has counted every tick of the stretch. -/
private theorem live_or_counted (fits : ∀ t, (xs t).limit < 2 ^ w)
    (within : WithinLimit (run (persistStep w) p xs) xs) {b t : Nat} (le : b ≤ t)
    (all : ∀ u, b ≤ u → u < t → (xs u).tick = true → (xs u).trip = true) :
    (run (persistStep w) p xs t).live = true ∨
      ticksBefore (tickOf xs) t ≤
        ticksBefore (tickOf xs) b + (run (persistStep w) p xs t).count := by
  refine stretch_induction (P := fun t => (run (persistStep w) p xs t).live = true ∨
    ticksBefore (tickOf xs) t ≤ ticksBefore (tickOf xs) b + (run (persistStep w) p xs t).count)
    le (Or.inr (Nat.le_add_right _ _)) ?_
  intro u low high ih
  rw [run_succ]
  rcases persistStep_cases w (run (persistStep w) p xs u) (xs u) with
    ⟨idle, next⟩ | ⟨tick, clear, -⟩ | ⟨-, -, -, next⟩ | ⟨tick, trip, miss, next⟩
  · rw [next, @ticksBefore_idle (tickOf xs) u idle]
    exact ih
  · rw [all u low high tick] at clear
    contradiction
  · exact Or.inl (congrArg Persist.live next)
  · rw [next, @ticksBefore_tick (tickOf xs) u tick]
    rcases ih with live | counted
    · exact Or.inl live
    · rcases within u tick trip with live | bounded
      · exact Or.inl live
      · have small := fits u
        right
        change _ ≤ _ + ((run (persistStep w) p xs u).count + 1) % 2 ^ w
        rw [Nat.mod_eq_of_lt (by omega)]
        omega

/-- A check that stays within its limit raises its live bit after the condition
has tripped at one tick more than the limit in force. -/
theorem persist_live_of_held (fits : ∀ t, (xs t).limit < 2 ^ w)
    (within : WithinLimit (run (persistStep w) p xs) xs) {t : Nat}
    (tick : (xs t).tick = true)
    (held : HeldLast (tickOf xs) (tripOf xs) ((xs t).limit + 1) (t + 1)) :
    (run (persistStep w) p xs (t + 1)).live = true := by
  have trip : (xs t).trip = true := held.trips tick
  obtain ⟨b, -, before, count, all⟩ := held.stretch
  rw [@ticksBefore_tick (tickOf xs) t tick] at count
  rw [run_succ]
  apply persistStep_live tick trip
  rcases live_or_counted fits within before (fun u low high => all u low (by omega))
    with live | counted
  · exact Or.inl live
  · rcases within t tick trip with live | bounded
    · exact Or.inl live
    · exact Or.inr (by omega)

/-- A check that starts from zero has counted ticks that all tripped. -/
theorem persist_count_held {a : Nat} (zero : (run (persistStep w) p xs a).count = 0)
    {t : Nat} (le : a ≤ t) :
    HeldSince (tickOf xs) (tripOf xs) a (run (persistStep w) p xs t).count t := by
  refine stretch_induction (P := fun t =>
    HeldSince (tickOf xs) (tripOf xs) a (run (persistStep w) p xs t).count t) le ?_ ?_
  · rw [zero]
    exact heldSince_zero (Nat.le_refl a)
  · intro u low high ih
    rw [run_succ]
    rcases persistStep_cases w (run (persistStep w) p xs u) (xs u) with
      ⟨idle, next⟩ | ⟨-, -, next⟩ | ⟨tick, trip, -, next⟩ | ⟨tick, trip, -, next⟩ <;> rw [next]
    · exact ih.idle idle
    · exact heldSince_zero (by omega)
    · exact (ih.extend tick trip).fewer (Nat.le_succ _)
    · exact (ih.extend tick trip).fewer (Nat.mod_le _ _)

/-- A live bit that was clear at clock `a` was raised at a tick up to which the
condition had tripped at one tick more than the limit then in force. -/
theorem persist_live_held {a : Nat} (zero : run (persistStep w) p xs a = ⟨0, false⟩)
    {t : Nat} (le : a ≤ t) (live : (run (persistStep w) p xs t).live = true) :
    ∃ v, a ≤ v ∧ v < t ∧ (xs v).tick = true ∧
      HeldSince (tickOf xs) (tripOf xs) a ((xs v).limit + 1) (v + 1) := by
  revert live
  refine stretch_induction (P := fun t => (run (persistStep w) p xs t).live = true →
    ∃ v, a ≤ v ∧ v < t ∧ (xs v).tick = true ∧
      HeldSince (tickOf xs) (tripOf xs) a ((xs v).limit + 1) (v + 1)) le ?_ ?_
  · rw [zero]
    exact fun live => absurd live (by simp)
  · intro u low high ih live
    have later (raised : (run (persistStep w) p xs u).live = true) :
        ∃ v, a ≤ v ∧ v < u + 1 ∧ (xs v).tick = true ∧
          HeldSince (tickOf xs) (tripOf xs) a ((xs v).limit + 1) (v + 1) := by
      obtain ⟨v, from_a, before, rest⟩ := ih raised
      exact ⟨v, from_a, by omega, rest⟩
    rw [run_succ] at live
    rcases persistStep_cases w (run (persistStep w) p xs u) (xs u) with
      ⟨-, next⟩ | ⟨-, -, next⟩ | ⟨tick, trip, hit, -⟩ | ⟨-, -, -, next⟩
    · rw [next] at live
      exact later live
    · rw [next] at live
      contradiction
    · have counted := persist_count_held (by rw [zero]) low
      rw [hit] at counted
      exact ⟨u, low, Nat.lt_succ_self u, tick, counted.extend tick trip⟩
    · rw [next] at live
      exact later live

/-- From any state, staying within the limit is enough for the law. -/
theorem persist_law_of_within (fits : ∀ t, (xs t).limit < 2 ^ w)
    (within : WithinLimit (run (persistStep w) p xs) xs) :
    PersistLaw (run (persistStep w) p xs) xs := by
  intro t tick
  refine ⟨persist_live_of_held fits within tick, ?_⟩
  intro clear
  rw [run_succ, persistStep_clear tick clear]
  exact ⟨rfl, rfl⟩

/-- From a clear check, staying within the limit is exactly the law: the first
tick found past its limit breaks it. -/
theorem persist_law_iff_within (fits : ∀ t, (xs t).limit < 2 ^ w) (clean : p.count = 0) :
    PersistLaw (run (persistStep w) p xs) xs ↔ WithinLimit (run (persistStep w) p xs) xs := by
  refine ⟨?_, persist_law_of_within fits⟩
  intro law t tick trip
  by_contra past
  simp only [not_or, Bool.not_eq_true, Nat.not_le] at past
  have start : (run (persistStep w) p xs 0).count = 0 := clean
  have counted := persist_count_held start (Nat.zero_le t)
  have live := (law t tick).1 ((counted.extend tick trip).fewer (by omega))
  rw [run_succ, persistStep_count tick trip (by omega)] at live
  simp [past.1] at live

/-- Under one limit throughout, a counter that starts below it stays below it. -/
theorem persist_count_le {limit : Nat} (steady : ∀ t, (xs t).limit = limit)
    (start : p.count ≤ limit) (t : Nat) : (run (persistStep w) p xs t).count ≤ limit := by
  induction t with
  | zero => exact start
  | succ t ih =>
      rw [run_succ]
      rcases persistStep_cases w (run (persistStep w) p xs t) (xs t) with
        ⟨-, next⟩ | ⟨-, -, next⟩ | ⟨-, -, -, next⟩ | ⟨-, -, miss, next⟩ <;> rw [next]
      · exact ih
      · exact Nat.zero_le limit
      · exact ih
      · rw [steady t] at miss
        exact Nat.le_trans (Nat.mod_le _ _) (by omega)

theorem within_limit_of_steady {limit : Nat} (steady : ∀ t, (xs t).limit = limit)
    (start : p.count ≤ limit) : WithinLimit (run (persistStep w) p xs) xs :=
  fun t _ _ => Or.inr (by rw [steady t]; exact persist_count_le steady start t)

/-- What a check under one limit shows of the ticks before it. -/
structure Shows (limit : Nat) (p : Persist) (xs : Nat → Sample) (t : Nat) : Prop where
  counted : p.count ≤ limit
  held : HeldLast (tickOf xs) (tripOf xs) p.count t
  dark : p.live = false → ¬HeldLast (tickOf xs) (tripOf xs) (p.count + 1) t
  full : p.live = true → p.count = limit
  lit : p.live = true → HeldLast (tickOf xs) (tripOf xs) (limit + 1) t

theorem Shows.next {limit t : Nat} (shows : Shows limit p xs t) (fits : limit < 2 ^ w)
    (steady : (xs t).limit = limit) : Shows limit (persistStep w p (xs t)) xs (t + 1) := by
  obtain ⟨counted, held, dark, full, lit⟩ := shows
  rcases persistStep_cases w p (xs t) with
    ⟨idle, next⟩ | ⟨tick, clear, next⟩ | ⟨tick, trip, hit, next⟩ | ⟨tick, trip, miss, next⟩
  all_goals rw [next]
  · exact ⟨counted, held.idle idle, fun off more => dark off (more.of_idle idle (Nat.zero_le t)),
      full, fun on => (lit on).idle idle⟩
  · refine ⟨Nat.zero_le limit, heldSince_zero (Nat.zero_le _), fun _ more => ?_,
      fun on => Bool.noConfusion on, fun on => Bool.noConfusion on⟩
    have trips : tripOf xs t = true := more.trips tick
    rw [tripOf, clear] at trips
    cases trips
  · rw [steady] at hit
    have more := held.extend tick trip
    exact ⟨counted, more.fewer (Nat.le_succ _), fun off => Bool.noConfusion off, fun _ => hit,
      fun _ => hit ▸ more⟩
  · rw [steady] at miss
    have below : p.count < limit := Nat.lt_of_le_of_ne counted miss
    have off : p.live = false := Bool.eq_false_iff.2 fun on => miss (full on)
    rw [Nat.mod_eq_of_lt (by omega)]
    exact ⟨below, held.extend tick trip, fun _ more => dark off (more.of_tick tick),
      fun on => absurd on (by simp [off]), fun on => absurd on (by simp [off])⟩

/-- Under one limit throughout, the live bit of a check that started from zero tells exactly
whether the condition tripped at each of the last ticks, one more than the limit. -/
theorem persist_live_iff {limit : Nat} (fits : limit < 2 ^ w)
    (steady : ∀ t, (xs t).limit = limit) (t : Nat) :
    (run (persistStep w) ⟨0, false⟩ xs t).live = true ↔
      HeldLast (tickOf xs) (tripOf xs) (limit + 1) t := by
  have shows : Shows limit (run (persistStep w) ⟨0, false⟩ xs t) xs t := by
    induction t with
    | zero =>
      refine ⟨Nat.zero_le limit, heldSince_zero (Nat.le_refl 0), fun _ held => ?_,
        fun on => Bool.noConfusion on, fun on => Bool.noConfusion on⟩
      obtain ⟨b, -, -, count, -⟩ := held
      rw [ticksBefore_zero] at count
      omega
    | succ t ih => exact ih.next fits (steady t)
  refine ⟨shows.lit, fun held => ?_⟩
  by_contra off
  exact shows.dark (Bool.eq_false_iff.2 off) (held.fewer (Nat.succ_le_succ shows.counted))

end Runs

/-- A check that trips at a tick on every clock, under the limit zero. -/
def pressed : Nat → Sample := fun _ => ⟨true, true, 0⟩

section Pressed

variable {w c : Nat}

/-- Pressed from the count `c`, the counter wraps round to zero and then the
live bit rises. -/
private theorem pressed_run (small : c < 2 ^ w) (k : Nat) :
    run (persistStep w) ⟨c, false⟩ pressed k =
      if k ≤ (2 ^ w - c) % 2 ^ w then ⟨(c + k) % 2 ^ w, false⟩ else ⟨0, true⟩ := by
  induction k with
  | zero => rw [run_zero, if_pos (Nat.zero_le _), Nat.add_zero, Nat.mod_eq_of_lt small]
  | succ k ih =>
      rw [run_succ, ih]
      rcases Nat.lt_trichotomy k ((2 ^ w - c) % 2 ^ w) with before | at_wrap | after
      · have bound : (2 ^ w - c) % 2 ^ w ≤ 2 ^ w - c := Nat.mod_le _ _
        have start : c ≠ 0 := by
          rintro rfl
          simp at before
        have value : (c + k) % 2 ^ w = c + k := Nat.mod_eq_of_lt (by omega)
        rw [if_pos (by omega), if_pos (by omega), value]
        have miss : c + k ≠ (pressed k).limit := show c + k ≠ 0 by omega
        exact persistStep_count rfl rfl miss
      · have wrapped : (c + k) % 2 ^ w = 0 := by
          rw [at_wrap, Nat.add_mod_mod, Nat.add_sub_cancel' (Nat.le_of_lt small), Nat.mod_self]
        rw [if_pos (by omega), if_neg (by omega), wrapped]
        simp [persistStep, pressed]
      · rw [if_neg (by omega), if_neg (by omega)]
        simp [persistStep, pressed]

/-- How long a pressed check takes to go live reveals its count. -/
theorem pressed_reveals {c' : Nat} (small : c < 2 ^ w) (small' : c' < 2 ^ w)
    (same : ∀ k, (run (persistStep w) ⟨c, false⟩ pressed k).live =
      (run (persistStep w) ⟨c', false⟩ pressed k).live) : c = c' := by
  have wait (k : Nat) : k ≤ (2 ^ w - c) % 2 ^ w ↔ k ≤ (2 ^ w - c') % 2 ^ w := by
    have now := same k
    rw [pressed_run small, pressed_run small'] at now
    by_cases here : k ≤ (2 ^ w - c) % 2 ^ w <;> by_cases there : k ≤ (2 ^ w - c') % 2 ^ w <;>
      simp [here, there] at now ⊢
  have equal : (2 ^ w - c) % 2 ^ w = (2 ^ w - c') % 2 ^ w :=
    Nat.le_antisymm ((wait _).1 (Nat.le_refl _)) ((wait _).2 (Nat.le_refl _))
  rcases Nat.eq_zero_or_pos c with rfl | positive
  · rcases Nat.eq_zero_or_pos c' with rfl | positive'
    · rfl
    · rw [Nat.sub_zero, Nat.mod_self, Nat.mod_eq_of_lt (by omega)] at equal
      omega
  · rw [Nat.mod_eq_of_lt (show 2 ^ w - c < 2 ^ w by omega)] at equal
    rcases Nat.eq_zero_or_pos c' with rfl | positive'
    · rw [Nat.sub_zero, Nat.mod_self] at equal
      omega
    · rw [Nat.mod_eq_of_lt (by omega)] at equal
      omega

end Pressed

end PscDigpid.Sync
