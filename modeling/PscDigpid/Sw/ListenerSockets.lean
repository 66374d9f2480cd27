/- Unit: PscDigpid/Sw/ListenerSockets
   layer: result
   source: src/sw/src/listener.c (psc_client_alloc, psc_run, psc_send)
   digest: The socket a slot has in every run, and when a broadcast goes to another. -/

import PscDigpid.Sw.ListenerSlots

set_option autoImplicit false
set_option relaxedAutoImplicit false

namespace PscDigpid.Sw.Listener

open PscDigpid.Sync
open PscDigpid.Sw.Pscmsg

/-- A slot whose socket has not been stored yet has the one it was wiped with, any other its
connection's; either may be marked. -/
structure Socks (s : Server) : Prop where
  wiped : ∀ c i, s.acceptPc = .assigning c i →
    (s.key.clients i).sock = 0 ∨ (s.key.clients i).sock = -1
  own : ∀ c i, s.holder i = some c → s.acceptPc ≠ .assigning c i →
    (s.key.clients i).sock = c.fd ∨ (s.key.clients i).sock = -1

namespace Socks

variable {s s' : Server} {e : Event}

theorem ready_socks (listenSock : Int) : Socks (ready listenSock) := by
  refine ⟨?_, ?_⟩
  · intro c i assigning
    exact absurd assigning AcceptPc.noConfusion
  · intro c i held
    exact absurd held.symm (Option.some_ne_none c)

/-- Marking sockets keeps the law. -/
theorem marked (socks : Socks s) (i : SlotIndex) :
    Socks { s with key := setSock s.key i (-1) } := by
  have sock : ∀ j, ((setSock s.key i (-1)).clients j).sock = (s.key.clients j).sock ∨
      ((setSock s.key i (-1)).clients j).sock = -1 := by
    intro j
    rw [setSock_clients]
    split
    · exact .inr rfl
    · exact .inl rfl
  refine ⟨?_, ?_⟩
  · intro c j assigning
    rcases sock j with same | minus
    · exact (socks.wiped c j assigning).imp same.trans same.trans
    · exact .inr minus
  · intro c j held other
    rcases sock j with same | minus
    · exact (socks.own c j held other).imp same.trans same.trans
    · exact .inr minus

theorem sendTo (socks : Socks s) (sender : Sender) (i : SlotIndex) (m : Message)
    (results : List SendResult) : Socks (sendTo s sender i m results) := by
  rcases sendTo_cases s sender i m results with ⟨-, same⟩ | ⟨-, -, same⟩ | ⟨-, -, same⟩
  · rw [same]
    exact socks
  · rw [same]
    exact ⟨socks.wiped, socks.own⟩
  · rw [same]
    exact ⟨(socks.marked i).wiped, (socks.marked i).own⟩

/-- A step with no socket to be stored before or after. -/
theorem passing (socks : Socks s) (pc : AcceptPc) (before : ∀ c i, s.acceptPc ≠ .assigning c i)
    (after : ∀ c i, pc ≠ .assigning c i) : Socks { s with acceptPc := pc } := by
  refine ⟨?_, ?_⟩
  · intro c i assigning
    exact absurd assigning (after c i)
  · intro c i held _
    exact socks.own c i held (before c i)

/-- One step keeps the sockets of the slots. -/
theorem step (socks : Socks s) (slots : Slots s) (taken : Listener.step s e = some s') :
    Socks s' := by
  cases step_moves taken with
  | @accept fd pc valid unused =>
      have next := socks.passing (.accepted ⟨s.connections, fd⟩)
        (by rw [pc]; exact fun _ _ => AcceptPc.noConfusion) fun _ _ => AcceptPc.noConfusion
      exact ⟨next.wiped, next.own⟩
  | @full c pc taken =>
      exact socks.passing (.dropping c) (by rw [pc]; exact fun _ _ => AcceptPc.noConfusion)
        fun _ _ => AcceptPc.noConfusion
  | @alloc c i pc clear =>
      refine ⟨?_, ?_⟩
      · intro c' j assigning
        obtain ⟨rfl, rfl⟩ := AcceptPc.assigning.inj assigning
        left
        change ((takeSlot s.key i).clients i).sock = 0
        rw [takeSlot_clients, if_pos rfl]
      · intro c' j held other
        change Function.update s.holder i (some c) j = some c' at held
        change ((takeSlot s.key i).clients j).sock = _ ∨ ((takeSlot s.key i).clients j).sock = _
        by_cases same : j = i
        · subst same
          rw [Function.update_self] at held
          obtain rfl := Option.some.inj held
          exact absurd rfl other
        · rw [Function.update_of_ne same] at held
          rw [takeSlot_clients, if_neg same]
          exact socks.own c' j held (by rw [pc]; exact AcceptPc.noConfusion)
  | @drop c pc =>
      have next := socks.passing .accepting (by rw [pc]; exact fun _ _ => AcceptPc.noConfusion)
        fun _ _ => AcceptPc.noConfusion
      exact ⟨next.wiped, next.own⟩
  | @assign c i pc =>
      refine ⟨?_, ?_⟩
      · intro c' j assigning
        exact absurd assigning AcceptPc.noConfusion
      · intro c' j held _
        change ((setSock s.key i c.fd).clients j).sock = _ ∨
          ((setSock s.key i c.fd).clients j).sock = _
        rw [setSock_clients]
        by_cases same : j = i
        · rw [if_pos same]
          have first := slots.preparing c i (by rw [pc]; rfl)
          rw [same] at held
          obtain rfl := Option.some.inj (first.symm.trans held)
          exact .inl rfl
        · rw [if_neg same]
          refine socks.own c' j held ?_
          rw [pc]
          intro assigning
          exact same (AcceptPc.assigning.inj assigning).2.symm
  | @spawn c i pc =>
      have next := socks.passing .accepting (by rw [pc]; exact fun _ _ => AcceptPc.noConfusion)
        fun _ _ => AcceptPc.noConfusion
      exact ⟨next.wiped, next.own⟩
  | @free n i sock pc =>
      have wiped : ∀ j, ((pscClientFree s.key i).clients j).sock = 0 ∨
          j ≠ i ∧ (pscClientFree s.key i).clients j = s.key.clients j := by
        intro j
        rw [pscClientFree_clients]
        split
        · exact .inl rfl
        · rename_i other
          exact .inr ⟨other, rfl⟩
      refine ⟨?_, ?_⟩
      · intro c j assigning
        change ((pscClientFree s.key i).clients j).sock = _ ∨
          ((pscClientFree s.key i).clients j).sock = _
        rcases wiped j with zero | ⟨-, same⟩
        · exact .inl zero
        · rw [same]
          exact socks.wiped c j assigning
      · intro c j held other
        change Function.update s.holder i none j = some c at held
        change ((pscClientFree s.key i).clients j).sock = _ ∨
          ((pscClientFree s.key i).clients j).sock = _
        rw [pscClientFree_clients]
        by_cases same : j = i
        · rw [same, Function.update_self] at held
          exact absurd held.symm (Option.some_ne_none c)
        · rw [Function.update_of_ne same] at held
          rw [if_neg same]
          exact socks.own c j held other
  | start => exact ⟨socks.wiped, socks.own⟩
  | recvError => exact ⟨socks.wiped, socks.own⟩
  | close => exact ⟨socks.wiped, socks.own⟩
  | sendBegin => exact ⟨socks.wiped, socks.own⟩
  | skipSlot => exact ⟨socks.wiped, socks.own⟩
  | @sendSlot i m results =>
      have sent := socks.sendTo .pscSend i m results
      exact ⟨sent.wiped, sent.own⟩
  | sendEnd => exact ⟨socks.wiped, socks.own⟩
  | @sendOne i m results => exact socks.sendTo .pscSendOne i m results

end Socks

/-- A broadcast sends to the descriptor of the connection that has the slot, and closes no
other. -/
def Own : Access → Prop
  | .sent .pscSend _ fd holder _ _ | .sendClosed .pscSend _ fd holder =>
      ∃ c, holder = some c ∧ fd = c.fd
  | _ => True

def OwnSockets (s : Server) : Prop := ∀ a ∈ s.trace, Own a

/-- When a broadcast comes to a slot its socket has been stored, or the descriptor to be stored
is the one the slot was wiped with, or the slot has been marked. -/
def Stored (s : Server) : Event → Prop
  | .sendSlot _ => ∀ i m c, s.sendguard = some (i.val, m) → s.acceptPc = .assigning c i →
      c.fd = 0 ∨ (s.key.clients i).sock = -1
  | _ => True

section Broadcasts

variable {s s' : Server} {e : Event}

theorem own_append {trace new : List Access} :
    (∀ a ∈ trace ++ new, Own a) ↔ (∀ a ∈ trace, Own a) ∧ ∀ a ∈ new, Own a :=
  List.forall_mem_append

/-- What a broadcast does at a slot in use is its own exactly when the socket is the slot's. -/
theorem sendTo_own (i : SlotIndex) (m : Message) (results : List SendResult) :
    OwnSockets (sendTo s .pscSend i m results) ↔
      OwnSockets s ∧ ((s.key.clients i).sock = -1 ∨
        ∃ c, s.holder i = some c ∧ (s.key.clients i).sock = c.fd) := by
  rcases sendTo_cases s .pscSend i m results with
    ⟨marked, same⟩ | ⟨sound, -, same⟩ | ⟨sound, -, same⟩
  · rw [same]
    exact (and_iff_left (.inl marked)).symm
  · rw [same, or_iff_right sound]
    change (∀ a ∈ _ ++ _, Own a) ↔ _
    rw [own_append, List.forall_mem_singleton]
    rfl
  · rw [same, or_iff_right sound]
    change (∀ a ∈ _ ++ _ ++ _, Own a) ↔ _
    rw [own_append, own_append, List.forall_mem_singleton, List.forall_mem_singleton, and_assoc]
    exact and_congr_right fun _ => and_self_iff

/-- The other sender does nothing that counts. -/
theorem sendTo_one (i : SlotIndex) (m : Message) (results : List SendResult) :
    OwnSockets (sendTo s .pscSendOne i m results) ↔ OwnSockets s := by
  rcases sendTo_cases s .pscSendOne i m results with
    ⟨marked, same⟩ | ⟨sound, -, same⟩ | ⟨sound, -, same⟩
  · rw [same]
  · rw [same]
    change (∀ a ∈ _ ++ _, Own a) ↔ _
    rw [own_append, List.forall_mem_singleton]
    exact and_iff_left trivial
  · rw [same]
    change (∀ a ∈ _ ++ _ ++ _, Own a) ↔ _
    rw [own_append, own_append, List.forall_mem_singleton, List.forall_mem_singleton]
    exact (and_iff_left trivial).trans (and_iff_left trivial)

/-- At a slot in use the socket is its connection's unless it is yet to be stored. -/
theorem own_sock_iff (slots : Slots s) (socks : Socks s) {i : SlotIndex}
    (busy : used s.key i = true) :
    ((s.key.clients i).sock = -1 ∨ ∃ c, s.holder i = some c ∧ (s.key.clients i).sock = c.fd) ↔
      ∀ c, s.acceptPc = .assigning c i → c.fd = 0 ∨ (s.key.clients i).sock = -1 := by
  rw [slots.key.bit i, Option.isSome_iff_exists] at busy
  obtain ⟨c, held⟩ := busy
  have holds : ∀ c', s.acceptPc = .assigning c' i → c' = c := by
    intro c' assigning
    have prepared := slots.preparing c' i (by rw [assigning]; rfl)
    exact Option.some.inj (prepared.symm.trans held)
  constructor
  · intro own c' assigning
    rcases own with marked | ⟨c'', held', same⟩
    · exact .inr marked
    · obtain rfl := holds c' assigning
      obtain rfl := Option.some.inj (held.symm.trans held')
      rcases socks.wiped c' i assigning with zero | marked
      · exact .inl (same.symm.trans zero)
      · exact .inr marked
  · intro stored
    by_cases assigning : s.acceptPc = .assigning c i
    · rcases stored c assigning with zero | marked
      · rcases socks.wiped c i assigning with wiped | marked
        · exact .inr ⟨c, held, wiped.trans zero.symm⟩
        · exact .inl marked
      · exact .inl marked
    · rcases socks.own c i held assigning with own | marked
      · exact .inr ⟨c, held, own⟩
      · exact .inl marked

/-- What other threads do with descriptors is no broadcast's doing. -/
theorem own_kept {new : List Access} (trace : s'.trace = s.trace ++ new)
    (others : ∀ a ∈ new, Own a) (stored : Stored s e) :
    OwnSockets s' ↔ OwnSockets s ∧ Stored s e := by
  rw [OwnSockets, trace, own_append, and_iff_left others, and_iff_left stored]
  rfl

/-- One step keeps broadcasts to their own sockets exactly when the one it comes to is stored. -/
theorem own_step (slots : Slots s) (socks : Socks s) (taken : step s e = some s') :
    OwnSockets s' ↔ OwnSockets s ∧ Stored s e := by
  cases step_moves taken with
  | accept => exact own_kept rfl (List.forall_mem_singleton.2 trivial) trivial
  | full => exact own_kept (List.append_nil _).symm (List.forall_mem_nil _) trivial
  | alloc => exact own_kept (List.append_nil _).symm (List.forall_mem_nil _) trivial
  | drop => exact own_kept rfl (List.forall_mem_singleton.2 trivial) trivial
  | assign => exact own_kept rfl (List.forall_mem_singleton.2 trivial) trivial
  | spawn => exact own_kept (List.append_nil _).symm (List.forall_mem_nil _) trivial
  | start => exact own_kept (List.append_nil _).symm (List.forall_mem_nil _) trivial
  | recvError => exact own_kept (List.append_nil _).symm (List.forall_mem_nil _) trivial
  | free => exact own_kept (List.append_nil _).symm (List.forall_mem_nil _) trivial
  | close => exact own_kept rfl (List.forall_mem_singleton.2 trivial) trivial
  | sendBegin => exact own_kept (List.append_nil _).symm (List.forall_mem_nil _) trivial
  | @skipSlot i m results held at_slot idle =>
      refine own_kept (List.append_nil _).symm (List.forall_mem_nil _) ?_
      intro j m' c at_slot' assigning
      have same : i.val = j.val := congrArg Prod.fst (Option.some.inj (at_slot.symm.trans at_slot'))
      obtain rfl := Fin.ext same
      have prepared := slots.preparing c i (by rw [assigning]; rfl)
      exact absurd ((slots.not_held idle).symm.trans prepared).symm (Option.some_ne_none c)
  | @sendSlot i m results held at_slot busy =>
      refine (sendTo_own i m results).trans (and_congr_right fun _ => ?_)
      rw [own_sock_iff slots socks busy]
      constructor
      · intro stored j m' c at_slot' assigning
        have same : i.val = j.val :=
          congrArg Prod.fst (Option.some.inj (at_slot.symm.trans at_slot'))
        obtain rfl := Fin.ext same
        exact stored c assigning
      · intro stored c assigning
        exact stored i m c at_slot assigning
  | sendEnd => exact own_kept (List.append_nil _).symm (List.forall_mem_nil _) trivial
  | @sendOne i m results there =>
      exact (sendTo_one i m results).trans (and_iff_left trivial).symm

/-- In every run the broadcasts go to the sockets of the slots' own connections exactly when none
comes to a slot whose socket is still to be stored. -/
theorem broadcast_own_iff {listenSock : Int} {events : List Event}
    (run : exec step (ready listenSock) events = some s) :
    OwnSockets s ↔ Meets step Stored (ready listenSock) events := by
  have law := exec_meets_iff (P := fun s => Slots s ∧ Socks s) (Q := OwnSockets) (C := Stored)
    (fun _ _ _ both taken => ⟨both.1.step taken, both.2.step both.1 taken⟩)
    (fun _ _ _ both taken => own_step both.1 both.2 taken)
    ⟨Slots.ready_slots listenSock, Socks.ready_socks listenSock⟩ run
  exact law.trans (and_iff_right (List.forall_mem_nil _))

end Broadcasts

/-- Where a run from a server that listens on descriptor 0 ends. -/
def after (events : List Event) : Server := (exec step (ready 0) events).getD (ready 0)

/-- A message without payload. -/
def shortMessage : Message := ⟨50, [], by decide⟩

/-- One connection, with its socket stored before the broadcast. -/
def storedRun : List Event :=
  [.accept 1, .alloc, .assign, .sendBegin shortMessage, .sendSlot [.sent 8]]

theorem storedRun_own : OwnSockets (after storedRun) := by
  have run : exec step (ready 0) storedRun = some (after storedRun) := rfl
  refine (broadcast_own_iff run).2 ?_
  refine ⟨trivial, fun _ first => ⟨trivial, fun _ second => ⟨trivial, fun _ third =>
    ⟨trivial, fun _ fourth => ⟨?_, fun _ _ => trivial⟩⟩⟩⟩⟩
  obtain rfl := Option.some.inj first
  obtain rfl := Option.some.inj second
  obtain rfl := Option.some.inj third
  obtain rfl := Option.some.inj fourth
  intro i m c _ assigning
  exact absurd assigning AcceptPc.noConfusion

/-- The broadcast comes before the socket is stored. -/
def earlyRun : List Event :=
  [.accept 1, .alloc, .sendBegin shortMessage, .sendSlot [.error .enotconn]]

/-- A message for the connection on descriptor 1 goes to descriptor 0, which is closed: it was
the one the server listened on. -/
theorem earlyRun_foreign : exec step (ready 0) earlyRun = some (after earlyRun) ∧
    ¬ OwnSockets (after earlyRun) ∧ (ready 0).owner 0 = some .listener ∧
    (after earlyRun).owner 0 = none := by
  refine ⟨rfl, ?_, rfl, rfl⟩
  intro own
  obtain ⟨c, holds, same⟩ := own (.sendClosed .pscSend 0 0 (some ⟨0, 1⟩))
    (List.mem_of_getElem? (i := 2) rfl)
  obtain rfl := Option.some.inj holds
  exact absurd same (by decide)

end PscDigpid.Sw.Listener
