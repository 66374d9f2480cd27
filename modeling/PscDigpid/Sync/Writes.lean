/- Unit: PscDigpid/Sync/Writes
   layer: library
   source: none(general)
   digest: A store after a list of writes in turn. -/

import Mathlib.Data.List.Nodup
import Mathlib.Logic.Function.Basic

set_option autoImplicit false
set_option relaxedAutoImplicit false

namespace PscDigpid.Sync

universe u v

variable {α : Type u} {β : Type v} [DecidableEq α]

/-- The store after writes in turn, each an address and a value. -/
def writeAll (store : α → β) (writes : List (α × β)) : α → β :=
  writes.foldl (fun store w => Function.update store w.1 w.2) store

theorem writeAll_cons (store : α → β) (w : α × β) (writes : List (α × β)) :
    writeAll store (w :: writes) = writeAll (Function.update store w.1 w.2) writes :=
  rfl

/-- An address that is not written keeps its value. -/
theorem writeAll_of_notMem {writes : List (α × β)} {a : α} (apart : a ∉ writes.map Prod.fst)
    (store : α → β) : writeAll store writes a = store a := by
  induction writes generalizing store with
  | nil => rfl
  | cons w writes ih =>
      rw [List.map_cons, List.mem_cons, not_or] at apart
      rw [writeAll_cons, ih apart.2, Function.update_of_ne apart.1]

/-- When no address is written twice, each write is seen in the end. -/
theorem writeAll_of_mem {writes : List (α × β)} (distinct : (writes.map Prod.fst).Nodup)
    {a : α} {value : β} (written : (a, value) ∈ writes) (store : α → β) :
    writeAll store writes a = value := by
  induction writes generalizing store with
  | nil => cases written
  | cons w writes ih =>
      rw [List.map_cons, List.nodup_cons] at distinct
      rw [writeAll_cons]
      rcases List.mem_cons.1 written with rfl | later
      · rw [writeAll_of_notMem distinct.1, Function.update_self]
      · exact ih distinct.2 later _

end PscDigpid.Sync
