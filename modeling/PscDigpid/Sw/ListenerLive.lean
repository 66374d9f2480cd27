/- Unit: PscDigpid/Sw/ListenerLive
   layer: result
   source: src/sw/src/listener.c
   digest: How many client threads there are, and what the key says of their slots. -/

import Mathlib.Data.Fintype.Card
import PscDigpid.Sw.ListenerSockets

set_option autoImplicit false
set_option relaxedAutoImplicit false

namespace PscDigpid.Sw.Listener

open PscDigpid.Sync

section Mask

/-- Of the mask only the bits of slots are used. -/
def NoOtherBits (s : Server) : Prop :=
  ∀ k, pscMaxClients ≤ k → s.key.clientsUsed.getLsbD k = false

variable {s s' : Server} {e : Event}

theorem other_bit_setBit (v : BitVec 32) {j k : Nat} (other : k ≠ j) (b : Bool) :
    (setBit v j b).getLsbD k = v.getLsbD k := by
  by_cases small : k < 32
  · rw [getLsbD_setBit v j b k small, if_neg other]
  · rw [BitVec.getLsbD_of_ge _ _ (Nat.le_of_not_lt small),
      BitVec.getLsbD_of_ge _ _ (Nat.le_of_not_lt small)]

theorem NoOtherBits.sendTo (clear : NoOtherBits s) (sender : Sender) (i : SlotIndex)
    (m : Pscmsg.Message) (results : List Pscmsg.SendResult) :
    NoOtherBits (sendTo s sender i m results) := by
  intro k high
  rcases sendTo_key s sender i m results with same | marked
  · rw [same]
    exact clear k high
  · rw [marked]
    exact clear k high

theorem NoOtherBits.step (clear : NoOtherBits s) (slots : Slots s)
    (taken : step s e = some s') : NoOtherBits s' := by
  cases step_moves taken with
  | @alloc c i pc unused =>
      intro k high
      have other : k ≠ i.val := Nat.ne_of_gt (Nat.lt_of_lt_of_le i.isLt high)
      exact (other_bit_setBit _ other true).trans (clear k high)
  | @free n i sock pc =>
      obtain ⟨fd, held⟩ := slots.handling n i (by rw [pc]; rfl)
      have own : (s.key.clients i).index.toNat = i := by
        rw [slots.key.index i (by rw [held]; rfl), BitVec.toNat_ofNat]
        exact Nat.mod_eq_of_lt (Nat.lt_trans i.isLt (by decide))
      intro k high
      have other : k ≠ (s.key.clients i).index.toNat := by
        rw [own]
        exact Nat.ne_of_gt (Nat.lt_of_lt_of_le i.isLt high)
      exact (other_bit_setBit _ other false).trans (clear k high)
  | @sendSlot i m results held at_slot busy => exact clear.sendTo .pscSend i m results
  | @sendOne i m results there => exact clear.sendTo .pscSendOne i m results
  | accept => exact clear
  | full => exact clear
  | drop => exact clear
  | assign => exact clear
  | spawn => exact clear
  | start => exact clear
  | recvError => exact clear
  | close => exact clear
  | sendBegin => exact clear
  | skipSlot => exact clear
  | sendEnd => exact clear

end Mask

section Holding

variable {s : Server}

/-- Two handlers have different slots. -/
theorem Slots.slot_injective (slots : Slots s) {n m : Nat} {i : SlotIndex}
    (one : (s.handlers n).slot = some i) (two : (s.handlers m).slot = some i) : n = m := by
  obtain ⟨fd, held⟩ := slots.handling n i one
  obtain ⟨fd', held'⟩ := slots.handling m i two
  exact (Connection.mk.inj (Option.some.inj (held.symm.trans held'))).1

/-- There are no more handlers with a slot than slots. -/
theorem Slots.card_le (slots : Slots s) {holding : Finset Nat}
    (has : ∀ n ∈ holding, (s.handlers n).slot.isSome = true) : holding.card ≤ pscMaxClients := by
  have small : (Finset.univ.map Function.Embedding.some : Finset (Option SlotIndex)).card =
      pscMaxClients := by
    rw [Finset.card_map, Finset.card_univ, Fintype.card_fin]
  rw [← small]
  apply Finset.card_le_card_of_injOn fun n => (s.handlers n).slot
  · intro n member
    obtain ⟨i, slot⟩ := Option.isSome_iff_exists.1 (has n member)
    exact Finset.mem_map.2 ⟨i, Finset.mem_univ i, slot.symm⟩
  · intro n member m _ same
    obtain ⟨i, slot⟩ := Option.isSome_iff_exists.1 (has n member)
    exact slots.slot_injective slot (same.symm.trans slot)

/-- With every slot taken none is given and the key stays as it is. -/
theorem Slots.alloc_full (slots : Slots s) (taken : ∀ i, s.holder i ≠ none) :
    pscClientAlloc s.key = (none, s.key) := by
  rcases pscClientAlloc_cases s.key with ⟨result, -⟩ | ⟨i, clear, -⟩
  · exact result
  · exact absurd (slots.not_held clear) (taken i)

end Holding

/-- What the key and the threads of a server agree on: no two handlers have one slot, so no more
than `PSC_MAX_CLIENTS` have one; the mask has the bits of the slots allocated and not yet freed,
and no others; each of these knows its place and its key; and with all of them taken
`psc_client_alloc` gives none and changes nothing. -/
structure SlotInvariant (s : Server) : Prop where
  bounded : ∀ holding : Finset Nat, (∀ n ∈ holding, (s.handlers n).slot.isSome = true) →
    holding.card ≤ pscMaxClients
  apart : ∀ n m i, (s.handlers n).slot = some i → (s.handlers m).slot = some i → n = m
  bit : ∀ k, s.key.clientsUsed.getLsbD k = true ↔ ∃ i : SlotIndex, i.val = k ∧ s.holder i ≠ none
  place : ∀ i, s.holder i ≠ none →
    (s.key.clients i).index = BitVec.ofNat 32 i ∧ (s.key.clients i).psc = true
  held : ∀ n i, (s.handlers n).slot = some i → ∃ fd, s.holder i = some ⟨n, fd⟩
  full : (∀ i, s.holder i ≠ none) → pscClientAlloc s.key = (none, s.key)

/-- Whatever the accept loop, the client threads and the senders do, in every order. -/
theorem slot_invariant {listenSock : Int} {events : List Event} {s : Server}
    (run : exec step (ready listenSock) events = some s) : SlotInvariant s := by
  have both : Slots s ∧ NoOtherBits s := by
    apply exec_invariant (P := fun s => Slots s ∧ NoOtherBits s) ?_ ?_ run
    · intro s e s' before taken
      exact ⟨before.1.step taken, before.2.step before.1 taken⟩
    · exact ⟨Slots.ready_slots listenSock, fun _ _ => BitVec.getLsbD_zero⟩
  obtain ⟨slots, clear⟩ := both
  refine ⟨fun holding has => slots.card_le has,
    fun n m i one two => slots.slot_injective one two, ?_, ?_, slots.handling, slots.alloc_full⟩
  · intro k
    constructor
    · intro set
      by_cases small : k < pscMaxClients
      · refine ⟨⟨k, small⟩, rfl, ?_⟩
        have held := (slots.key.bit ⟨k, small⟩).symm.trans set
        exact Option.isSome_iff_ne_none.1 held
      · rw [clear k (Nat.le_of_not_lt small)] at set
        exact absurd set Bool.false_ne_true
    · rintro ⟨i, rfl, held⟩
      exact (slots.key.bit i).trans (Option.isSome_iff_ne_none.2 held)
  · intro i held
    have some_one := Option.isSome_iff_ne_none.2 held
    exact ⟨slots.key.index i some_one, (slots.key.psc i).trans some_one⟩

/-- Four clients connect, the first is gone as far as its slot, and the next one connects. -/
def fifthRun : List Event :=
  [.accept 1, .alloc, .assign, .spawn, .accept 2, .alloc, .assign, .spawn,
    .accept 3, .alloc, .assign, .spawn, .accept 4, .alloc, .assign, .spawn,
    .start 0, .recvError 0, .free 0, .accept 5, .alloc, .assign, .spawn]

theorem fifthRun_slots : SlotInvariant (after fifthRun) := by
  have run : exec step (ready 0) fifthRun = some (after fifthRun) := rfl
  exact slot_invariant run

/-- A thread there is: started and not yet deleted. -/
def HandlerPc.Live (pc : HandlerPc) : Prop := pc ≠ .none ∧ pc ≠ .gone

/-- The thread of the first client has its socket still to close. -/
theorem fifthRun_five_threads :
    ¬ ∀ (listenSock : Int) (events : List Event) (s : Server),
      exec step (ready listenSock) events = some s →
        ∀ threads : Finset Nat, (∀ n ∈ threads, (s.handlers n).Live) →
          threads.card ≤ pscMaxClients := by
  intro bound
  refine absurd (bound 0 fifthRun (after fifthRun) rfl (Finset.range 5) ?_) (by decide)
  intro n member
  have small := Finset.mem_range.1 member
  match n with
  | 0 => exact ⟨HandlerPc.noConfusion, HandlerPc.noConfusion⟩
  | 1 => exact ⟨HandlerPc.noConfusion, HandlerPc.noConfusion⟩
  | 2 => exact ⟨HandlerPc.noConfusion, HandlerPc.noConfusion⟩
  | 3 => exact ⟨HandlerPc.noConfusion, HandlerPc.noConfusion⟩
  | 4 => exact ⟨HandlerPc.noConfusion, HandlerPc.noConfusion⟩
  | n + 5 => omega

end PscDigpid.Sw.Listener
