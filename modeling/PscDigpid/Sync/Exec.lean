/- Unit: PscDigpid/Sync/Exec
   layer: library
   source: none(general)
   digest: Runs of a machine that may refuse an event, and the rules that carry facts along them. -/

import Mathlib.Data.Nat.Init

set_option autoImplicit false
set_option relaxedAutoImplicit false

namespace PscDigpid.Sync

universe u v

variable {σ : Type u} {ε : Type v}

/-- The state after a list of events, if none of them is refused. -/
def exec (step : σ → ε → Option σ) (s : σ) : List ε → Option σ
  | [] => some s
  | e :: events => (step s e).bind fun s' => exec step s' events

/-- Every event of a run meets a condition on it and the state it comes in. -/
def Meets (step : σ → ε → Option σ) (C : σ → ε → Prop) (s : σ) : List ε → Prop
  | [] => True
  | e :: events => C s e ∧ ∀ s', step s e = some s' → Meets step C s' events

section Rules

variable {step : σ → ε → Option σ} {s t : σ}

theorem exec_cons {e : ε} {events : List ε} :
    exec step s (e :: events) = some t ↔
      ∃ s', step s e = some s' ∧ exec step s' events = some t :=
  Option.bind_eq_some_iff

/-- What holds at the start and is kept by every event that meets the condition holds after a
run of such events. -/
theorem exec_meets {P : σ → Prop} {C : σ → ε → Prop}
    (keep : ∀ s e s', P s → C s e → step s e = some s' → P s') {events : List ε} (start : P s)
    (meets : Meets step C s events) (run : exec step s events = some t) : P t := by
  induction events generalizing s with
  | nil =>
      obtain rfl := Option.some.inj run
      exact start
  | cons e events ih =>
      obtain ⟨s', first, rest⟩ := exec_cons.1 run
      exact ih (keep s e s' start meets.1 first) (meets.2 s' first) rest

/-- What holds at the start and is kept by every event holds after every run. -/
theorem exec_invariant {P : σ → Prop} (keep : ∀ s e s', P s → step s e = some s' → P s')
    {events : List ε} (start : P s) (run : exec step s events = some t) : P t := by
  induction events generalizing s with
  | nil =>
      obtain rfl := Option.some.inj run
      exact start
  | cons e events ih =>
      obtain ⟨s', first, rest⟩ := exec_cons.1 run
      exact ih (keep s e s' start first) rest

/-- When each event keeps `Q` exactly if it meets the condition, `Q` holds after a run exactly if
all its events meet it. -/
theorem exec_meets_iff {P Q : σ → Prop} {C : σ → ε → Prop}
    (keep : ∀ s e s', P s → step s e = some s' → P s')
    (law : ∀ s e s', P s → step s e = some s' → (Q s' ↔ Q s ∧ C s e))
    {events : List ε} (start : P s) (run : exec step s events = some t) :
    Q t ↔ Q s ∧ Meets step C s events := by
  induction events generalizing s with
  | nil =>
      obtain rfl := Option.some.inj run
      exact (and_iff_left trivial).symm
  | cons e events ih =>
      obtain ⟨s', first, rest⟩ := exec_cons.1 run
      rw [ih (keep s e s' start first) rest, law s e s' start first, Meets, and_assoc]
      constructor
      · rintro ⟨base, meets, later⟩
        refine ⟨base, meets, ?_⟩
        intro other same
        obtain rfl := Option.some.inj (first.symm.trans same)
        exact later
      · rintro ⟨base, meets, later⟩
        exact ⟨base, meets, later s' first⟩

/-- A count along a run: what each event does to it and to the state is known at every place of the
run, and so is what holds there. -/
theorem exec_counts {P : Nat → σ → Prop} {C : σ → ε → Prop} {R : Nat → Nat → ε → σ → σ → Prop}
    (keep : ∀ n s e s', P n s → C s e → step s e = some s' → ∃ m, P m s' ∧ R n m e s s')
    {events : List ε} {n : Nat} (start : P n s) (meets : Meets step C s events)
    (run : exec step s events = some t) :
    ∃ count : Nat → Nat, count 0 = n ∧
      (∀ i u, exec step s (events.take i) = some u → P (count i) u) ∧
      ∀ i e u u', events[i]? = some e → exec step s (events.take i) = some u →
        step u e = some u' → R (count i) (count (i + 1)) e u u' := by
  induction events generalizing s n with
  | nil =>
      refine ⟨fun _ => n, rfl, ?_, ?_⟩
      · intro i u same
        rw [List.take_nil] at same
        obtain rfl := Option.some.inj same
        exact start
      · intro i e u u' place
        cases place
  | cons e events ih =>
      obtain ⟨s', first, rest⟩ := exec_cons.1 run
      obtain ⟨m, holds, law⟩ := keep n s e s' start meets.1 first
      obtain ⟨count, zero, before, after⟩ := ih holds (meets.2 s' first) rest
      refine ⟨fun i => if i = 0 then n else count (i - 1), rfl, ?_, ?_⟩
      · intro i u upto
        cases i with
        | zero =>
            obtain rfl := Option.some.inj upto
            exact start
        | succ i =>
            obtain ⟨s'', next, later⟩ := exec_cons.1 upto
            obtain rfl := Option.some.inj (first.symm.trans next)
            exact before i u later
      · intro i e' u u' place upto next
        cases i with
        | zero =>
            obtain rfl := Option.some.inj place
            obtain rfl := Option.some.inj upto
            obtain rfl := Option.some.inj (first.symm.trans next)
            rw [← zero] at law
            exact law
        | succ i =>
            obtain ⟨s'', now, later⟩ := exec_cons.1 upto
            obtain rfl := Option.some.inj (first.symm.trans now)
            exact after i e' u u' place later next

end Rules

end PscDigpid.Sync
