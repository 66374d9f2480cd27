/- Unit: PscDigpid/Sync/RefCount
   layer: library
   source: none(general)
   digest: Objects with reference counts that refer to one another in chains. -/

import Mathlib.Logic.Function.Basic

set_option autoImplicit false
set_option relaxedAutoImplicit false

namespace PscDigpid.Sync

universe u

/-- How often each object is referred to, and the object it refers to itself. -/
structure Counted (β : Type u) where
  ref : β → Nat
  next : β → Option β

namespace Counted

variable {β : Type u} [DecidableEq β] {c : Counted β} {h t p : β} {depth : Nat}

/-- A new object with one reference. -/
def hold (c : Counted β) (h : β) : Counted β :=
  ⟨Function.update c.ref h 1, Function.update c.next h none⟩

/-- A reference from one object to another. -/
def link (c : Counted β) (h t : β) : Counted β :=
  ⟨Function.update c.ref t (c.ref t + 1), Function.update c.next h (some t)⟩

def drop (c : Counted β) (p : β) : Counted β :=
  { c with ref := Function.update c.ref p (c.ref p - 1) }

/-- The last reference to an object gives up what it refers to as well. -/
def release : Nat → Counted β → β → Counted β
  | 0, c, _ => c
  | depth + 1, c, p =>
      if 1 < c.ref p then c.drop p
      else
        match c.next p with
        | none => c.drop p
        | some t => release depth (c.drop p) t

theorem release_shared (shared : 1 < c.ref p) : release (depth + 1) c p = c.drop p := if_pos shared

theorem release_chained (last : c.ref p = 1) (next : c.next p = some t) :
    release (depth + 1) c p = release depth (c.drop p) t := by
  rw [release, if_neg (by omega), next]

@[simp] theorem ref_hold : (c.hold h).ref h = 1 := Function.update_self _ _ _

/-- Nothing else refers to a new object that refers to one in use. -/
theorem ref_linked (fresh : c.ref h = 0) (used : 0 < c.ref t) :
    ((c.hold h).link h t).ref h = 1 := by
  have apart : h ≠ t := by
    rintro rfl
    omega
  exact (Function.update_of_ne apart _ _).trans ref_hold

/-- A new object that is linked to one in use and released leaves every count as it was. -/
theorem ref_borrow (fresh : c.ref h = 0) (used : 0 < c.ref t) :
    (release (depth + 2) ((c.hold h).link h t) h).ref = c.ref := by
  have apart : h ≠ t := by
    rintro rfl
    omega
  have linked : ((c.hold h).link h t).next h = some t := Function.update_self _ _ _
  have shared : (((c.hold h).link h t).drop h).ref t = c.ref t + 1 := by
    simp [hold, link, drop, apart.symm]
  rw [release_chained (ref_linked fresh used) linked, release_shared (by omega)]
  funext q
  change Function.update _ t _ q = _
  rw [shared]
  by_cases atTarget : q = t
  · rw [atTarget, Function.update_self, Nat.add_sub_cancel]
  · rw [Function.update_of_ne atTarget]
    by_cases atHolder : q = h
    · simp [hold, link, drop, atHolder, fresh, apart]
    · simp [hold, link, drop, atHolder, atTarget]

end Counted

end PscDigpid.Sync
