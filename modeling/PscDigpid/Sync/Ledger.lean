/- Unit: PscDigpid/Sync/Ledger
   layer: library
   source: none(general)
   digest: Resources that come to a holder and go again: what each holder has and what was done. -/

import Mathlib.Logic.Function.Basic

set_option autoImplicit false
set_option relaxedAutoImplicit false

namespace PscDigpid.Sync

universe u v

variable {α : Type u} {ρ : Type v}

/-- What happens to a resource: it comes to a holder, or goes in the name of one or of none. -/
inductive Mark (α : Type u)
  | opened (holder : α)
  | closed (holder : Option α)

section Standing

variable [DecidableEq α]

/-- A resource comes when no one has it and goes in its holder's name; anything else goes wrong. -/
def follow : Option (Option α) → Mark α → Option (Option α)
  | some none, .opened a => some (some a)
  | some (some a), .closed (some b) => if b = a then some none else none
  | _, _ => none

/-- Who has a resource, if nothing went wrong. -/
def standing (marks : List (Mark α)) : Option (Option α) := marks.foldl follow (some none)

variable {marks : List (Mark α)} {a : α}

theorem standing_append (mark : Mark α) :
    standing (marks ++ [mark]) = follow (standing marks) mark := by
  rw [standing, List.foldl_append]
  rfl

theorem standing_opened (free : standing marks = some none) (a : α) :
    standing (marks ++ [.opened a]) = some (some a) := by
  rw [standing_append, free]
  rfl

theorem standing_closed (held : standing marks = some (some a)) :
    standing (marks ++ [.closed (some a)]) = some none := by
  rw [standing_append, held]
  exact if_pos rfl

end Standing

/-- What each holder has is in its name. -/
def Agree (has : α → Option ρ) (owner : ρ → Option α) : Prop :=
  ∀ a r, has a = some r ↔ owner r = some a

namespace Agree

variable [DecidableEq α] [DecidableEq ρ] {has : α → Option ρ} {owner : ρ → Option α} {a : α} {r : ρ}

/-- A resource no one has comes to a holder that has none. -/
theorem opened (agree : Agree has owner) (empty : has a = none) (free : owner r = none) :
    Agree (Function.update has a (some r)) (Function.update owner r (some a)) := by
  intro b t
  rw [Function.update_apply, Function.update_apply]
  by_cases own : b = a
  · rw [if_pos own, own]
    by_cases here : t = r
    · rw [if_pos here, here]
      exact iff_of_true rfl rfl
    · rw [if_neg here, ← agree a t, empty]
      refine iff_of_false ?_ ?_
      · intro same
        exact here (Option.some.inj same).symm
      · exact (Option.some_ne_none t).symm
  · rw [if_neg own]
    by_cases here : t = r
    · rw [if_pos here, here, agree b r, free]
      refine iff_of_false ?_ ?_
      · exact (Option.some_ne_none b).symm
      · intro same
        exact own (Option.some.inj same).symm
    · rw [if_neg here]
      exact agree b t

/-- A holder gives up what it has. -/
theorem closed (agree : Agree has owner) (held : has a = some r) :
    Agree (Function.update has a none) (Function.update owner r none) := by
  intro b t
  rw [Function.update_apply, Function.update_apply]
  by_cases own : b = a
  · rw [if_pos own, own]
    refine iff_of_false (Option.some_ne_none t).symm ?_
    by_cases here : t = r
    · rw [if_pos here]
      exact (Option.some_ne_none a).symm
    · rw [if_neg here, ← agree a t, held]
      intro same
      exact here (Option.some.inj same).symm
  · rw [if_neg own]
    by_cases here : t = r
    · rw [if_pos here, here]
      refine iff_of_false ?_ (Option.some_ne_none b).symm
      intro theirs
      have both := ((agree b r).1 theirs).symm.trans ((agree a r).1 held)
      exact own (Option.some.inj both)
    · rw [if_neg here]
      exact agree b t

end Agree

end PscDigpid.Sync
