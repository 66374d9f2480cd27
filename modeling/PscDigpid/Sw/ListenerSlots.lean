/- Unit: PscDigpid/Sw/ListenerSlots
   layer: result
   source: src/sw/src/listener.c
   digest: What a step of the server can do, and who has each slot in every run. -/

import PscDigpid.Sw.Listener

set_option autoImplicit false
set_option relaxedAutoImplicit false

namespace PscDigpid.Sw.Listener

open PscDigpid.Sync
open PscDigpid.Sw.Pscmsg

/-- What the server can do at an event. -/
inductive Moves (s : Server) : Event → Server → Prop
  | accept {fd : Int} (pc : s.acceptPc = .accepting) (valid : 0 ≤ fd) (unused : s.owner fd = none) :
      Moves s (.accept fd)
        { record s (.accepted ⟨s.connections, fd⟩) with
          acceptPc := .accepted ⟨s.connections, fd⟩
          connections := s.connections + 1
          owner := Function.update s.owner fd (some (.connection s.connections)) }
  | full {c : Connection} (pc : s.acceptPc = .accepted c) (taken : ∀ i, used s.key i = true) :
      Moves s .alloc { s with acceptPc := .dropping c }
  | alloc {c : Connection} {i : SlotIndex} (pc : s.acceptPc = .accepted c)
      (clear : used s.key i = false) :
      Moves s .alloc
        { s with
          key := takeSlot s.key i
          acceptPc := .assigning c i
          holder := Function.update s.holder i (some c) }
  | drop {c : Connection} (pc : s.acceptPc = .dropping c) :
      Moves s .drop
        { record (closeFd s c.fd) (.closed c.fd c.number) with acceptPc := .accepting }
  | assign {c : Connection} {i : SlotIndex} (pc : s.acceptPc = .assigning c i) :
      Moves s .assign
        { record s (.assigned i c) with key := setSock s.key i c.fd, acceptPc := .spawning c i }
  | spawn {c : Connection} {i : SlotIndex} (pc : s.acceptPc = .spawning c i) :
      Moves s .spawn
        { s with
          acceptPc := .accepting
          handlers := Function.update s.handlers c.number (.starting i) }
  | start {n : Nat} {i : SlotIndex} (pc : s.handlers n = .starting i) :
      Moves s (.start n)
        { s with
          handlers := Function.update s.handlers n (.receiving i (s.key.clients i).sock) }
  | recvError {n : Nat} {i : SlotIndex} {sock : Int} (pc : s.handlers n = .receiving i sock) :
      Moves s (.recvError n)
        { s with handlers := Function.update s.handlers n (.freeing i sock) }
  | free {n : Nat} {i : SlotIndex} {sock : Int} (pc : s.handlers n = .freeing i sock) :
      Moves s (.free n)
        { s with
          key := pscClientFree s.key i
          handlers := Function.update s.handlers n (.closing sock)
          holder := Function.update s.holder i none }
  | close {n : Nat} {sock : Int} (pc : s.handlers n = .closing sock) :
      Moves s (.close n)
        { record (closeFd s sock) (.closed sock n) with
          handlers := Function.update s.handlers n .gone }
  | sendBegin {m : Message} : Moves s (.sendBegin m) { s with sendguard := some (0, m) }
  | skipSlot {i : SlotIndex} {m : Message} {results : List SendResult}
      {held : Option (Nat × Message)} (at_slot : s.sendguard = some (i.val, m))
      (idle : used s.key i = false) : Moves s (.sendSlot results) { s with sendguard := held }
  | sendSlot {i : SlotIndex} {m : Message} {results : List SendResult}
      {held : Option (Nat × Message)} (at_slot : s.sendguard = some (i.val, m))
      (busy : used s.key i = true) :
      Moves s (.sendSlot results) { sendTo s .pscSend i m results with sendguard := held }
  | sendEnd : Moves s .sendEnd { s with sendguard := none }
  | sendOne {i : SlotIndex} {m : Message} {results : List SendResult}
      (there : (s.key.clients i).psc = true) :
      Moves s (.sendOne i m results) (sendTo s .pscSendOne i m results)

section Inversion

variable {s s' : Server} {e : Event}

theorem pscClientAlloc_cases (key : PscKey) :
    (pscClientAlloc key = (none, key) ∧ ∀ i, used key i = true) ∨
      ∃ i, used key i = false ∧ pscClientAlloc key = (some i, takeSlot key i) := by
  rw [pscClientAlloc]
  cases found : (List.finRange pscMaxClients).find? fun i => !used key i with
  | none =>
      left
      refine ⟨rfl, ?_⟩
      intro i
      have taken := List.find?_eq_none.1 found i (List.mem_finRange i)
      simpa using taken
  | some i =>
      right
      have clear := List.find?_some found
      exact ⟨i, by simpa using clear, rfl⟩

theorem allocStep_moves (taken : allocStep s = some s') : Moves s .alloc s' := by
  rw [allocStep] at taken
  split at taken
  · rename_i c pc guard
    rcases pscClientAlloc_cases s.key with ⟨result, full⟩ | ⟨i, clear, result⟩
    · rw [result] at taken
      obtain rfl := Option.some.inj taken
      exact .full pc full
    · rw [result] at taken
      obtain rfl := Option.some.inj taken
      exact .alloc pc clear
  · exact absurd taken.symm (Option.some_ne_none s')

theorem step_moves (taken : step s e = some s') : Moves s e s' := by
  cases e with
  | accept fd =>
      rw [step, acceptStep] at taken
      split at taken
      · rename_i enabled
        obtain ⟨pc, valid, unused⟩ := enabled
        obtain rfl := Option.some.inj taken
        exact .accept pc valid unused
      · exact absurd taken.symm (Option.some_ne_none s')
  | alloc => exact allocStep_moves taken
  | drop =>
      rw [step, dropStep] at taken
      split at taken
      · rename_i c pc
        obtain rfl := Option.some.inj taken
        exact .drop pc
      · exact absurd taken.symm (Option.some_ne_none s')
  | assign =>
      rw [step, assignStep] at taken
      split at taken
      · rename_i c i pc
        obtain rfl := Option.some.inj taken
        exact .assign pc
      · exact absurd taken.symm (Option.some_ne_none s')
  | spawn =>
      rw [step, spawnStep] at taken
      split at taken
      · rename_i c i pc
        obtain rfl := Option.some.inj taken
        exact .spawn pc
      · exact absurd taken.symm (Option.some_ne_none s')
  | start n =>
      rw [step, startStep] at taken
      split at taken
      · rename_i i pc
        obtain rfl := Option.some.inj taken
        exact .start pc
      · exact absurd taken.symm (Option.some_ne_none s')
  | recvError n =>
      rw [step, recvErrorStep] at taken
      split at taken
      · rename_i i sock pc
        obtain rfl := Option.some.inj taken
        exact .recvError pc
      · exact absurd taken.symm (Option.some_ne_none s')
  | free n =>
      rw [step, freeStep] at taken
      split at taken
      · rename_i i sock pc guard
        obtain rfl := Option.some.inj taken
        exact .free pc
      · exact absurd taken.symm (Option.some_ne_none s')
  | close n =>
      rw [step, closeStep] at taken
      split at taken
      · rename_i sock pc guard
        obtain rfl := Option.some.inj taken
        exact .close pc
      · exact absurd taken.symm (Option.some_ne_none s')
  | sendBegin m =>
      rw [step] at taken
      split at taken
      · obtain rfl := Option.some.inj taken
        exact .sendBegin
      · exact absurd taken.symm (Option.some_ne_none s')
  | sendSlot results =>
      rw [step, sendSlotStep] at taken
      split at taken
      · rename_i idx m guard
        split at taken
        · rename_i within
          obtain rfl := Option.some.inj taken
          cases busy : used s.key ⟨idx, within⟩ with
          | true => exact .sendSlot (i := ⟨idx, within⟩) guard busy
          | false => exact .skipSlot (i := ⟨idx, within⟩) guard busy
        · exact absurd taken.symm (Option.some_ne_none s')
      · exact absurd taken.symm (Option.some_ne_none s')
  | sendEnd =>
      rw [step] at taken
      split at taken
      · split at taken
        · obtain rfl := Option.some.inj taken
          exact .sendEnd
        · exact absurd taken.symm (Option.some_ne_none s')
      · exact absurd taken.symm (Option.some_ne_none s')
  | sendOne i m results =>
      rw [step, sendOneStep] at taken
      split at taken
      · rename_i enabled
        obtain rfl := Option.some.inj taken
        exact .sendOne enabled.2
      · exact absurd taken.symm (Option.some_ne_none s')

end Inversion

section Senders

variable (s : Server) (sender : Sender) (i : SlotIndex) (m : Message) (results : List SendResult)

/-- What sending to a slot can do: nothing when its socket is marked; or the message goes out,
whole, or in part, and then the socket is closed and marked. -/
theorem sendTo_cases :
    ((s.key.clients i).sock = -1 ∧ sendTo s sender i m results = s) ∨
    ((s.key.clients i).sock ≠ -1 ∧ (sendmsg results m.msgid m.payload).ret = none ∧
      sendTo s sender i m results = record s (.sent sender i (s.key.clients i).sock (s.holder i) m
        (sendmsg results m.msgid m.payload))) ∨
    ((s.key.clients i).sock ≠ -1 ∧ (sendmsg results m.msgid m.payload).ret ≠ none ∧
      sendTo s sender i m results =
        { s with
          key := setSock s.key i (-1)
          owner := Function.update s.owner (s.key.clients i).sock none
          trace := s.trace ++ [.sent sender i (s.key.clients i).sock (s.holder i) m
              (sendmsg results m.msgid m.payload)] ++
            [.sendClosed sender i (s.key.clients i).sock (s.holder i)] }) := by
  rw [sendTo]
  by_cases marked : (s.key.clients i).sock = -1
  · exact .inl ⟨marked, if_pos marked⟩
  · right
    cases result : (sendmsg results m.msgid m.payload).ret with
    | none =>
        refine .inl ⟨marked, rfl, ?_⟩
        simp only [marked, if_false, result, Option.isSome_none, Bool.false_eq_true]
    | some errno =>
        refine .inr ⟨marked, Option.some_ne_none errno, ?_⟩
        simp only [marked, if_false, result, Option.isSome_some, if_true]
        rfl

/-- A sender moves no thread and gives no slot to another. -/
theorem sendTo_frame :
    (sendTo s sender i m results).holder = s.holder ∧
      (sendTo s sender i m results).acceptPc = s.acceptPc ∧
      (sendTo s sender i m results).handlers = s.handlers ∧
      (sendTo s sender i m results).connections = s.connections := by
  rcases sendTo_cases s sender i m results with ⟨-, same⟩ | ⟨-, -, same⟩ | ⟨-, -, same⟩ <;>
    rw [same]
  · exact ⟨rfl, rfl, rfl, rfl⟩
  · exact ⟨rfl, rfl, rfl, rfl⟩
  · exact ⟨rfl, rfl, rfl, rfl⟩

/-- Of the key a sender changes sockets only, and marks them. -/
theorem sendTo_key : (sendTo s sender i m results).key = s.key ∨
    (sendTo s sender i m results).key = setSock s.key i (-1) := by
  rcases sendTo_cases s sender i m results with ⟨-, same⟩ | ⟨-, -, same⟩ | ⟨-, -, same⟩ <;>
    rw [same]
  · exact .inl rfl
  · exact .inl rfl
  · exact .inr rfl

end Senders

/-- The key tells which slots have a connection, and each of these knows its place. -/
structure KeyLaw (key : PscKey) (holder : SlotIndex → Option Connection) : Prop where
  bit : ∀ i, used key i = (holder i).isSome
  psc : ∀ i, (key.clients i).psc = (holder i).isSome
  index : ∀ i, (holder i).isSome = true → (key.clients i).index = BitVec.ofNat 32 i

namespace KeyLaw

variable {key : PscKey} {holder : SlotIndex → Option Connection} {i : SlotIndex}

theorem used_setBit (v : BitVec 32) (b : Bool) (i j : SlotIndex) :
    (setBit v i b).getLsbD j = if j = i then b else v.getLsbD j := by
  have small : j.val < 32 := Nat.lt_trans j.isLt (by decide)
  rw [getLsbD_setBit v i b j small]
  simp only [Fin.ext_iff]

theorem alloc (law : KeyLaw key holder) (c : Connection) :
    KeyLaw (takeSlot key i) (Function.update holder i (some c)) := by
  refine ⟨?_, ?_, ?_⟩
  · intro j
    rw [used, takeSlot, used_setBit, Function.update_apply]
    split
    · rfl
    · exact law.bit j
  · intro j
    rw [takeSlot_clients, Function.update_apply]
    split
    · rfl
    · exact law.psc j
  · intro j held
    rw [Function.update_apply] at held
    rw [takeSlot_clients]
    by_cases same : j = i
    · rw [if_pos same, same]
    · rw [if_neg same] at held ⊢
      exact law.index j held

/-- The slot that is freed clears its own bit. -/
theorem free (law : KeyLaw key holder) (held : (holder i).isSome = true) :
    KeyLaw (pscClientFree key i) (Function.update holder i none) := by
  have own : (key.clients i).index.toNat = i := by
    rw [law.index i held, BitVec.toNat_ofNat]
    exact Nat.mod_eq_of_lt (Nat.lt_trans i.isLt (by decide))
  refine ⟨?_, ?_, ?_⟩
  · intro j
    rw [used, pscClientFree, own, used_setBit, Function.update_apply]
    split
    · rfl
    · exact law.bit j
  · intro j
    rw [pscClientFree_clients, Function.update_apply]
    split
    · rfl
    · exact law.psc j
  · intro j still
    rw [Function.update_apply] at still
    rw [pscClientFree_clients]
    by_cases same : j = i
    · rw [if_pos same] at still
      exact absurd still Bool.false_ne_true
    · rw [if_neg same] at still ⊢
      exact law.index j still

theorem setSock (law : KeyLaw key holder) (sock : Int) :
    KeyLaw (setSock key i sock) holder := by
  refine ⟨law.bit, ?_, ?_⟩
  · intro j
    rw [setSock_clients]
    by_cases same : j = i
    · rw [if_pos same, same]
      exact law.psc i
    · rw [if_neg same]
      exact law.psc j
  · intro j held
    rw [setSock_clients]
    by_cases same : j = i
    · rw [if_pos same]
      rw [same] at held ⊢
      exact law.index i held
    · rw [if_neg same]
      exact law.index j held

end KeyLaw

/-- The slot a handler has not given back. -/
def HandlerPc.slot : HandlerPc → Option SlotIndex
  | .starting i | .receiving i _ | .freeing i _ => some i
  | _ => Option.none

/-- The connection `psc_run` has not passed on. -/
def AcceptPc.connection : AcceptPc → Option Connection
  | .accepting => none
  | .accepted c | .dropping c | .assigning c _ | .spawning c _ => some c

/-- The slot `psc_run` has taken for it. -/
def AcceptPc.slot : AcceptPc → Option (Connection × SlotIndex)
  | .assigning c i | .spawning c i => some (c, i)
  | _ => none

theorem AcceptPc.connection_of_slot {pc : AcceptPc} {c : Connection} {i : SlotIndex}
    (has : pc.slot = some (c, i)) : pc.connection = some c := by
  cases pc with
  | assigning c' j =>
      obtain ⟨rfl, rfl⟩ := Prod.mk.inj (Option.some.inj has)
      rfl
  | spawning c' j =>
      obtain ⟨rfl, rfl⟩ := Prod.mk.inj (Option.some.inj has)
      rfl
  | _ => exact absurd has.symm (Option.some_ne_none (c, i))

/-- Each slot taken belongs to the connection whose thread has it. -/
structure Slots (s : Server) : Prop where
  key : KeyLaw s.key s.holder
  preparing : ∀ c i, s.acceptPc.slot = some (c, i) → s.holder i = some c
  handling : ∀ n i, (s.handlers n).slot = some i → ∃ fd, s.holder i = some ⟨n, fd⟩
  current : ∀ c, s.acceptPc.connection = some c →
    c.number < s.connections ∧ s.handlers c.number = .none
  unborn : ∀ n, s.connections ≤ n → s.handlers n = .none

namespace Slots

variable {s s' : Server} {e : Event}

theorem sendTo (slots : Slots s) (sender : Sender) (i : SlotIndex) (m : Message)
    (results : List SendResult) : Slots (sendTo s sender i m results) := by
  obtain ⟨holder, acceptPc, handlers, connections⟩ := sendTo_frame s sender i m results
  refine ⟨?_, by rw [acceptPc, holder]; exact slots.preparing,
    by rw [handlers, holder]; exact slots.handling,
    by rw [acceptPc, handlers, connections]; exact slots.current,
    by rw [handlers, connections]; exact slots.unborn⟩
  rw [holder]
  rcases sendTo_key s sender i m results with same | marked
  · rw [same]
    exact slots.key
  · rw [marked]
    exact slots.key.setSock (-1)

/-- A handler that keeps its slot or gives up having one. -/
theorem handler (slots : Slots s) {n : Nat} (pc : HandlerPc) (alive : s.handlers n ≠ .none)
    (kept : pc.slot = (s.handlers n).slot ∨ pc.slot = none) :
    Slots { s with handlers := Function.update s.handlers n pc } := by
  refine ⟨slots.key, slots.preparing, ?_, ?_, ?_⟩
  · intro k i has
    by_cases same : k = n
    · subst same
      change (Function.update s.handlers k pc k).slot = some i at has
      rw [Function.update_self] at has
      rcases kept with before | given_up
      · exact slots.handling k i (before.symm.trans has)
      · exact absurd (given_up.symm.trans has).symm (Option.some_ne_none i)
    · change (Function.update s.handlers n pc k).slot = some i at has
      rw [Function.update_of_ne same] at has
      exact slots.handling k i has
  · intro c passing
    obtain ⟨early, unborn⟩ := slots.current c passing
    refine ⟨early, ?_⟩
    have other : c.number ≠ n := by
      rintro rfl
      exact alive unborn
    exact (Function.update_of_ne other pc s.handlers).trans unborn
  · intro k late
    have other : k ≠ n := by
      rintro rfl
      exact alive (slots.unborn k late)
    exact (Function.update_of_ne other pc s.handlers).trans (slots.unborn k late)

theorem ready_slots (listenSock : Int) : Slots (ready listenSock) := by
  refine ⟨⟨?_, fun _ => rfl, ?_⟩, ?_, ?_, ?_, fun _ _ => rfl⟩
  · intro i
    exact BitVec.getLsbD_zero
  · intro i held
    exact absurd held Bool.false_ne_true
  · intro c i taken
    exact absurd taken.symm (Option.some_ne_none (c, i))
  · intro n i has
    exact absurd has.symm (Option.some_ne_none i)
  · intro c passing
    exact absurd passing.symm (Option.some_ne_none c)

theorem not_held (slots : Slots s) {i : SlotIndex} (clear : used s.key i = false) :
    s.holder i = none := by
  rw [slots.key.bit i, Option.isSome_eq_false_iff, Option.isNone_iff_eq_none] at clear
  exact clear

/-- One step keeps each slot with its connection. -/
theorem step (slots : Slots s) (taken : Listener.step s e = some s') : Slots s' := by
  cases step_moves taken with
  | @accept fd pc valid unused =>
      refine ⟨slots.key, ?_, slots.handling, ?_, ?_⟩
      · intro c i has
        exact absurd has.symm (Option.some_ne_none (c, i))
      · intro c passing
        obtain rfl := Option.some.inj passing
        exact ⟨Nat.lt_succ_self _, slots.unborn _ (Nat.le_refl _)⟩
      · intro n late
        exact slots.unborn n (Nat.le_of_succ_le late)
  | @full c pc taken =>
      refine ⟨slots.key, ?_, slots.handling, ?_, slots.unborn⟩
      · intro c i has
        exact absurd has.symm (Option.some_ne_none (c, i))
      · intro c' passing
        exact slots.current c' (by rw [pc]; exact passing)
  | @alloc c i pc clear =>
      have empty := slots.not_held clear
      refine ⟨slots.key.alloc c, ?_, ?_, ?_, slots.unborn⟩
      · intro c' j has
        obtain ⟨rfl, rfl⟩ := Prod.mk.inj (Option.some.inj has)
        exact Function.update_self _ _ _
      · intro n j has
        obtain ⟨fd, held⟩ := slots.handling n j has
        refine ⟨fd, ?_⟩
        have other : j ≠ i := by
          rintro rfl
          exact absurd (empty.symm.trans held).symm (Option.some_ne_none _)
        exact (Function.update_of_ne other _ s.holder).trans held
      · intro c' passing
        exact slots.current c' (by rw [pc]; exact passing)
  | @drop c pc =>
      refine ⟨slots.key, ?_, slots.handling, ?_, slots.unborn⟩
      · intro c i has
        exact absurd has.symm (Option.some_ne_none (c, i))
      · intro c passing
        exact absurd passing.symm (Option.some_ne_none c)
  | @assign c i pc =>
      refine ⟨slots.key.setSock c.fd, ?_, slots.handling, ?_, slots.unborn⟩
      · intro c' j has
        exact slots.preparing c' j (by rw [pc]; exact has)
      · intro c' passing
        exact slots.current c' (by rw [pc]; exact passing)
  | @spawn c i pc =>
      obtain ⟨early, unborn⟩ := slots.current c (by rw [pc]; rfl)
      have held := slots.preparing c i (by rw [pc]; rfl)
      refine ⟨slots.key, ?_, ?_, ?_, ?_⟩
      · intro c i has
        exact absurd has.symm (Option.some_ne_none (c, i))
      · intro n j has
        change (Function.update s.handlers c.number (.starting i) n).slot = some j at has
        rw [Function.update_apply] at has
        by_cases own : n = c.number
        · rw [if_pos own] at has
          obtain rfl := Option.some.inj has
          rw [own]
          exact ⟨c.fd, held⟩
        · rw [if_neg own] at has
          exact slots.handling n j has
      · intro c passing
        exact absurd passing.symm (Option.some_ne_none c)
      · intro n late
        have other : n ≠ c.number := Nat.ne_of_gt (Nat.lt_of_lt_of_le early late)
        exact (Function.update_of_ne other _ s.handlers).trans (slots.unborn n late)
  | @start n i pc =>
      exact slots.handler _ (by rw [pc]; exact HandlerPc.noConfusion) (.inl (by rw [pc]; rfl))
  | @recvError n i sock pc =>
      exact slots.handler _ (by rw [pc]; exact HandlerPc.noConfusion) (.inl (by rw [pc]; rfl))
  | @free n i sock pc =>
      obtain ⟨fd, held⟩ := slots.handling n i (by rw [pc]; rfl)
      have closing := slots.handler (n := n) (.closing sock)
        (by rw [pc]; exact HandlerPc.noConfusion) (.inr rfl)
      refine ⟨slots.key.free (by rw [held]; rfl), ?_, ?_, closing.current, closing.unborn⟩
      · intro c j has
        have before := slots.preparing c j has
        have other : j ≠ i := by
          rintro rfl
          obtain rfl := Option.some.inj (before.symm.trans held)
          have unborn := (slots.current ⟨n, fd⟩ (AcceptPc.connection_of_slot has)).2
          exact absurd (pc.symm.trans unborn) HandlerPc.noConfusion
        exact (Function.update_of_ne other _ s.holder).trans before
      · intro k j has
        obtain ⟨fd', before⟩ := closing.handling k j has
        have other : j ≠ i := by
          rintro rfl
          obtain ⟨rfl, -⟩ := Connection.mk.inj (Option.some.inj (before.symm.trans held))
          change (Function.update s.handlers k (.closing sock) k).slot = some j at has
          rw [Function.update_self] at has
          exact absurd has.symm (Option.some_ne_none j)
        exact ⟨fd', (Function.update_of_ne other _ s.holder).trans before⟩
  | @close n sock pc =>
      have gone := slots.handler (n := n) .gone (by rw [pc]; exact HandlerPc.noConfusion) (.inr rfl)
      exact ⟨gone.key, gone.preparing, gone.handling, gone.current, gone.unborn⟩
  | sendBegin => exact ⟨slots.key, slots.preparing, slots.handling, slots.current, slots.unborn⟩
  | skipSlot => exact ⟨slots.key, slots.preparing, slots.handling, slots.current, slots.unborn⟩
  | @sendSlot i m results held at_slot busy =>
      have sent := slots.sendTo .pscSend i m results
      exact ⟨sent.key, sent.preparing, sent.handling, sent.current, sent.unborn⟩
  | sendEnd => exact ⟨slots.key, slots.preparing, slots.handling, slots.current, slots.unborn⟩
  | @sendOne i m results there => exact slots.sendTo .pscSendOne i m results

end Slots

end PscDigpid.Sw.Listener
