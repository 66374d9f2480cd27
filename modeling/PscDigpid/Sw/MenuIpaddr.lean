/- Unit: PscDigpid/Sw/MenuIpaddr
   layer: result
   source: src/sw/src/console.c (menu_get_ipaddr)
   digest: The entry of an address, and exactly which lines stay in its buffer. -/

import Mathlib.Data.List.Induction
import Mathlib.Logic.Function.Basic
import PscDigpid.Sw.Hwaddr

set_option autoImplicit false
set_option relaxedAutoImplicit false

namespace PscDigpid.Sw.MenuIpaddr

open PscDigpid.Sw.Hwaddr (Text)

/-- `ip_addr` and its neighbours on the stack, by the distance from its first place. -/
abbrev Stack := BitVec 32 → Char

/-- Places of `ip_addr`. -/
def ipAddrLen : Nat := 40

/-- The locals of `menu_get_ipaddr`, the indices written so far, and whether the text has been
passed to `sscanf`. -/
structure Entry where
  index : BitVec 32
  ipAddr : Stack
  writes : List (BitVec 32)
  passed : Bool

/-- `ip_addr[index++] = c` -/
def Entry.put (e : Entry) (c : Char) : Entry :=
  { e with
    index := e.index + 1
    ipAddr := Function.update e.ipAddr e.index c
    writes := e.writes ++ [e.index] }

/-- One turn of the loop, which a return leaves. -/
def Entry.key (e : Entry) (c : Char) : Entry :=
  if e.passed then e
  else if c = '\x08' then { e with index := e.index - 1 }
  else if c = '\r' then { e.put '\n' with passed := true }
  else e.put c

/-- The entry of a line; what the stack holds before is not cleared. -/
def menuGetIpaddr (stack : Stack) (typed : Text) : Entry :=
  typed.foldl Entry.key ⟨0, stack, [], false⟩

/-- Nothing is written outside `ip_addr`, and the text passed on ends inside. -/
structure Entry.Stays (e : Entry) : Prop where
  within : ∀ i ∈ e.writes, i.toNat < ipAddrLen
  terminated : e.passed = true → ∃ i : BitVec 32, i.toNat < ipAddrLen ∧ e.ipAddr i = '\x00'

section Condition

variable (stack : Stack) (typed : Text)

/-- The character typed after `before` is one to store: no backspace, and no return came before. -/
def Stored (before : Text) (c : Char) : Prop :=
  (∃ rest, typed = before ++ c :: rest) ∧ '\r' ∉ before ∧ c ≠ '\x08'

/-- Characters less backspaces. -/
def place (before : Text) : BitVec 32 :=
  BitVec.ofNat 32 (before.countP (· ≠ '\x08')) - BitVec.ofNat 32 (before.count '\x08')

/-- A nul is left at a place: the last character typed there, or there before. -/
def NulAt (i : BitVec 32) : Prop :=
  (∃ before, Stored typed before '\x00' ∧ place before = i ∧
    ∀ later c, Stored typed later c → before.length < later.length → place later ≠ i) ∨
  stack i = '\x00' ∧ ∀ before c, Stored typed before c → place before ≠ i

/-- No character is typed where backspaces and characters do not leave a place of `ip_addr`, and
a line that is ended leaves a nul there. -/
structure Fits : Prop where
  places : ∀ before c, Stored typed before c → (place before).toNat < ipAddrLen
  nul : '\r' ∈ typed → ∃ i : BitVec 32, i.toNat < ipAddrLen ∧ NulAt stack typed i

end Condition

section Snoc

variable {stack : Stack} {typed before : Text} {c d : Char}

theorem place_backspace : place (typed ++ ['\x08']) = place typed - 1 := by
  have chars : (typed ++ ['\x08']).countP (· ≠ '\x08') = typed.countP (· ≠ '\x08') := by simp
  have backs : (typed ++ ['\x08']).count '\x08' = typed.count '\x08' + 1 := by simp
  rw [place, place, chars, backs]
  bv_omega

theorem place_char (char : c ≠ '\x08') : place (typed ++ [c]) = place typed + 1 := by
  have chars : (typed ++ [c]).countP (· ≠ '\x08') = typed.countP (· ≠ '\x08') + 1 := by
    simp [char]
  have backs : (typed ++ [c]).count '\x08' = typed.count '\x08' := by simp [char]
  rw [place, place, chars, backs]
  bv_omega

theorem stored_snoc : Stored (typed ++ [d]) before c ↔
    Stored typed before c ∨ before = typed ∧ c = d ∧ '\r' ∉ typed ∧ d ≠ '\x08' := by
  constructor
  · rintro ⟨⟨rest, same⟩, unended, char⟩
    obtain rfl | ⟨rest, final, rfl⟩ := rest.eq_nil_or_concat
    · obtain ⟨rfl, last⟩ := List.append_inj' same rfl
      cases last
      exact .inr ⟨rfl, rfl, unended, char⟩
    · rw [List.concat_eq_append, ← List.cons_append, ← List.append_assoc] at same
      exact .inl ⟨⟨rest, (List.append_inj' same rfl).1⟩, unended, char⟩
  · rintro (⟨⟨rest, rfl⟩, unended, char⟩ | ⟨rfl, rfl, unended, char⟩)
    · exact ⟨⟨rest ++ [d], by simp⟩, unended, char⟩
    · exact ⟨⟨[], rfl⟩, unended, char⟩

/-- A backspace, or what comes after the return, is not stored. -/
theorem stored_skip (skipped : '\r' ∈ typed ∨ d = '\x08') :
    Stored (typed ++ [d]) before c ↔ Stored typed before c := by
  rw [stored_snoc]
  refine or_iff_left ?_
  rintro ⟨_, _, unended, char⟩
  exact skipped.elim unended char

theorem nulAt_skip (skipped : '\r' ∈ typed ∨ d = '\x08') (i : BitVec 32) :
    NulAt stack (typed ++ [d]) i ↔ NulAt stack typed i := by
  simp only [NulAt, stored_skip skipped]

theorem Stored.length_lt (stored : Stored typed before c) : before.length < typed.length := by
  obtain ⟨⟨rest, rfl⟩, _⟩ := stored
  simp

/-- A character that is stored decides on its own place only. -/
theorem nulAt_stored (unended : '\r' ∉ typed) (char : d ≠ '\x08') (i : BitVec 32) :
    NulAt stack (typed ++ [d]) i ↔
      if i = place typed then d = '\x00' else NulAt stack typed i := by
  have here : Stored (typed ++ [d]) typed d := stored_snoc.2 (.inr ⟨rfl, rfl, unended, char⟩)
  have kept : ∀ {before c}, Stored typed before c → Stored (typed ++ [d]) before c :=
    fun stored => stored_snoc.2 (.inl stored)
  split_ifs with same
  · constructor
    · rintro (⟨before, stored, _, last⟩ | ⟨_, never⟩)
      · obtain earlier | ⟨_, nul, _⟩ := stored_snoc.1 stored
        · exact absurd same.symm (last typed d here earlier.length_lt)
        · exact nul.symm
      · exact absurd same.symm (never typed d here)
    · rintro rfl
      refine .inl ⟨typed, here, same.symm, fun later c stored after => ?_⟩
      have short := stored.length_lt
      rw [List.length_append, List.length_singleton] at short
      exact absurd after (Nat.not_lt.2 (Nat.le_of_lt_succ short))
  · constructor
    · rintro (⟨before, stored, placed, last⟩ | ⟨nul, never⟩)
      · obtain earlier | ⟨rfl, _⟩ := stored_snoc.1 stored
        · exact .inl ⟨before, earlier, placed, fun later c next => last later c (kept next)⟩
        · exact absurd placed.symm same
      · exact .inr ⟨nul, fun before c stored => never before c (kept stored)⟩
    · have apart : ∀ {later c}, Stored (typed ++ [d]) later c → place later = i →
          Stored typed later c := by
        intro later c stored placed
        obtain earlier | ⟨rfl, _⟩ := stored_snoc.1 stored
        · exact earlier
        · exact absurd placed.symm same
      rintro (⟨before, stored, placed, last⟩ | ⟨nul, never⟩)
      · exact .inl ⟨before, kept stored, placed,
          fun later c next after same => last later c (apart next same) after same⟩
      · exact .inr ⟨nul, fun before c stored placed => never before c (apart stored placed) placed⟩

end Snoc

/-- What the characters typed so far leave of an entry. -/
structure Follows (stack : Stack) (typed : Text) (e : Entry) : Prop where
  passed : e.passed = true ↔ '\r' ∈ typed
  index : '\r' ∉ typed → e.index = place typed
  writes : ∀ i, i ∈ e.writes ↔ ∃ before c, Stored typed before c ∧ place before = i
  nul : ∀ i, e.ipAddr i = '\x00' ↔ NulAt stack typed i

section Run

variable {stack : Stack} {typed : Text} {e : Entry} {c d : Char}

theorem follows_start : Follows stack [] ⟨0, stack, [], false⟩ := by
  have none : ∀ {before c}, ¬Stored [] before c := fun stored =>
    absurd stored.length_lt (Nat.not_lt_zero _)
  refine ⟨by simp, fun _ => rfl, fun i => ?_, fun i => ?_⟩
  · simp [none]
  · simp [NulAt, none]

theorem Follows.skip (follows : Follows stack typed e) (skipped : '\r' ∈ typed ∨ d = '\x08')
    {index : BitVec 32} (passed : e.passed = true ↔ '\r' ∈ typed ++ [d])
    (moved : '\r' ∉ typed ++ [d] → index = place (typed ++ [d])) :
    Follows stack (typed ++ [d]) { e with index := index } := by
  refine ⟨passed, moved, fun i => ?_, fun i => ?_⟩
  · simp only [stored_skip skipped]
    exact follows.writes i
  · rw [nulAt_skip skipped]
    exact follows.nul i

/-- A character is stored under another code, that is a nul for a nul only. -/
theorem Follows.store (follows : Follows stack typed e) (unended : '\r' ∉ typed)
    (char : d ≠ '\x08') {code : Char} (nul : code = '\x00' ↔ d = '\x00') {passed : Bool}
    (ends : passed = true ↔ '\r' ∈ typed ++ [d]) :
    Follows stack (typed ++ [d]) { e.put code with passed := passed } := by
  have here := follows.index unended
  refine ⟨ends, fun _ => ?_, fun i => ?_, fun i => ?_⟩
  · rw [place_char char, ← here]
    rfl
  · simp only [Entry.put, List.mem_append, List.mem_singleton, follows.writes i, stored_snoc]
    constructor
    · rintro (⟨before, c, stored, placed⟩ | rfl)
      · exact ⟨before, c, .inl stored, placed⟩
      · exact ⟨typed, d, .inr ⟨rfl, rfl, unended, char⟩, here.symm⟩
    · rintro ⟨before, c, stored | ⟨rfl, _⟩, placed⟩
      · exact .inl ⟨before, c, stored, placed⟩
      · exact .inr (placed.symm.trans here.symm)
  · rw [nulAt_stored unended char, ← here]
    change Function.update e.ipAddr e.index code i = _ ↔ _
    rw [Function.update_apply]
    split_ifs
    · exact nul
    · exact follows.nul i

theorem Follows.key (follows : Follows stack typed e) : Follows stack (typed ++ [d]) (e.key d) := by
  by_cases ended : '\r' ∈ typed
  · have still : '\r' ∈ typed ++ [d] := List.mem_append_left _ ended
    rw [Entry.key, if_pos (follows.passed.2 ended)]
    exact follows.skip (.inl ended) (iff_of_true (follows.passed.2 ended) still)
      (fun unended => absurd still unended)
  · have running : ¬e.passed = true := fun passed => ended (follows.passed.1 passed)
    rw [Entry.key, if_neg running]
    split_ifs with back final
    · subst back
      refine follows.skip (.inr rfl) (iff_of_false running (by simp [ended])) fun _ => ?_
      rw [place_backspace, follows.index ended]
    · subst final
      exact follows.store ended back (by decide) (iff_of_true rfl (by simp))
    · exact follows.store ended back Iff.rfl
        (iff_of_false running (by simp [ended, Ne.symm final]))

theorem follows (stack : Stack) (typed : Text) :
    Follows stack typed (menuGetIpaddr stack typed) := by
  induction typed using List.reverseRecOn with
  | nil => exact follows_start
  | append_singleton typed d ih =>
    rw [menuGetIpaddr, List.foldl_append, List.foldl_cons, List.foldl_nil]
    exact ih.key

end Run

/-- An entry stays in its buffer exactly for the lines that fit. -/
theorem stays_iff_fits (stack : Stack) (typed : Text) :
    (menuGetIpaddr stack typed).Stays ↔ Fits stack typed := by
  obtain ⟨passed, _, writes, nul⟩ := follows stack typed
  constructor
  · rintro ⟨within, terminated⟩
    refine ⟨fun before c stored => within _ ((writes _).2 ⟨before, c, stored, rfl⟩), ?_⟩
    intro ended
    obtain ⟨i, inside, left⟩ := terminated (passed.2 ended)
    exact ⟨i, inside, (nul i).1 left⟩
  · rintro ⟨places, left⟩
    refine ⟨fun i written => ?_, fun ended => ?_⟩
    · obtain ⟨before, c, stored, rfl⟩ := (writes i).1 written
      exact places before c stored
    · obtain ⟨i, inside, found⟩ := left (passed.1 ended)
      exact ⟨i, inside, (nul i).2 found⟩

/-- A backspace at the start of the line moves the index below the buffer. -/
theorem backspace_escapes : ¬(menuGetIpaddr (fun _ => '\x00') ['\x08', '1', '\r']).Stays :=
  fun stays => absurd (stays.within 0xFFFFFFFF (by decide)) (by decide)

end PscDigpid.Sw.MenuIpaddr
