/- Unit: PscDigpid/Sw/ListenerStreams
   layer: result
   source: src/sw/src/listener.c (psc_send, psc_send_one), src/sw/src/pscmsg.c
   digest: What goes out on a client's socket is whole messages, with a last one cut at an error. -/

import PscDigpid.Sw.ListenerSockets
import PscDigpid.Sw.PscFraming

set_option autoImplicit false
set_option relaxedAutoImplicit false

namespace PscDigpid.Sw.Listener

open PscDigpid.Sync
open PscDigpid.Sw.Pscmsg

/-- One message sent, whole or in part: the descriptor and what went out. -/
structure Sending where
  fd : Int
  m : Message
  wire : List Byte

section Streams

variable (i : SlotIndex)

/-- What has been sent for a slot since its socket was stored. -/
def sentNext (sent : List Sending) : Access → List Sending
  | .assigned j _ => if j = i then [] else sent
  | .sent _ j fd _ m result => if j = i then sent ++ [⟨fd, m, result.wire⟩] else sent
  | _ => sent

def sentFor (trace : List Access) : List Sending := trace.foldl (sentNext i) []

theorem sentFor_append (trace : List Access) (a : Access) :
    sentFor i (trace ++ [a]) = sentNext i (sentFor i trace) a := by
  rw [sentFor, List.foldl_append]
  rfl

end Streams

/-- Sendings on one descriptor, each of a message as a whole but that the last may be in part. -/
structure Stream (fd : Int) (sent : List Sending) : Prop where
  own : ∀ x ∈ sent, x.fd = fd
  front : ∀ x ∈ sent, x.wire <+: encode x.m
  whole : ∀ x ∈ sent.dropLast, x.wire = encode x.m

/-- Unless the socket is marked, the last is a whole message too. -/
structure Sound (fd sock : Int) (sent : List Sending) : Prop extends Stream fd sent where
  unmarked : sock ≠ -1 → ∀ x ∈ sent, x.wire = encode x.m

section Sound

variable {fd sock : Int} {sent : List Sending}

theorem sound_nil (fd sock : Int) : Sound fd sock [] :=
  ⟨⟨List.forall_mem_nil _, List.forall_mem_nil _, List.forall_mem_nil _⟩,
    fun _ => List.forall_mem_nil _⟩

/-- A stream whose messages are whole goes on. -/
theorem Sound.extend (sound : Sound fd sock sent) (unmarked : sock ≠ -1) {x : Sending}
    (own : x.fd = fd) (front : x.wire <+: encode x.m) : Stream fd (sent ++ [x]) := by
  refine ⟨?_, ?_, ?_⟩
  · exact List.forall_mem_append.2 ⟨sound.own, List.forall_mem_singleton.2 own⟩
  · exact List.forall_mem_append.2 ⟨sound.front, List.forall_mem_singleton.2 front⟩
  · rw [List.dropLast_concat]
    exact sound.unmarked unmarked

theorem Sound.success (sound : Sound fd sock sent) (unmarked : sock ≠ -1) {x : Sending}
    (own : x.fd = fd) (whole : x.wire = encode x.m) : Sound fd sock (sent ++ [x]) := by
  refine ⟨sound.extend unmarked own (whole ▸ List.prefix_refl _), fun _ => ?_⟩
  exact List.forall_mem_append.2 ⟨sound.unmarked unmarked, List.forall_mem_singleton.2 whole⟩

theorem Sound.failure (sound : Sound fd sock sent) (unmarked : sock ≠ -1) {x : Sending}
    (own : x.fd = fd) (front : x.wire <+: encode x.m) : Sound fd (-1) (sent ++ [x]) :=
  ⟨sound.extend unmarked own front, fun other => absurd rfl other⟩

/-- The bytes of a stream are whole messages and then, at most, part of one. -/
theorem Stream.bytes (stream : Stream fd sent) :
    ∃ (complete : List Message) (part : List Byte),
      sent.flatMap Sending.wire = complete.flatMap encode ++ part ∧
        (part = [] ∨ ∃ m, part <+: encode m ∧ part ≠ encode m) := by
  rcases List.eq_nil_or_concat sent with rfl | ⟨before, x, rfl⟩
  · exact ⟨[], [], rfl, .inl rfl⟩
  · have whole := stream.whole
    rw [List.concat_eq_append, List.dropLast_concat] at whole
    have early : before.flatMap Sending.wire = (before.map Sending.m).flatMap encode := by
      rw [List.flatMap_map]
      exact List.flatMap_congr whole
    rw [List.concat_eq_append, List.flatMap_append, List.flatMap_singleton, early]
    by_cases last : x.wire = encode x.m
    · refine ⟨before.map Sending.m ++ [x.m], [], ?_, .inl rfl⟩
      rw [List.flatMap_append, List.flatMap_singleton, last, List.append_nil]
    · exact ⟨before.map Sending.m, x.wire, rfl,
        .inr ⟨x.m, stream.front x (by simp), last⟩⟩

end Sound

/-- Every slot whose socket has been stored has a sound stream. -/
def Streams (s : Server) : Prop :=
  ∀ i c, s.holder i = some c → s.acceptPc ≠ .assigning c i →
    Sound c.fd (s.key.clients i).sock (sentFor i s.trace)

namespace Streams

variable {s s' : Server} {e : Event}

theorem ready_streams (listenSock : Int) : Streams (ready listenSock) := by
  intro i c held
  exact absurd held.symm (Option.some_ne_none c)

/-- What is no sending and stores no socket changes no stream. -/
theorem kept (streams : Streams s) (clients : s'.key.clients = s.key.clients)
    (holder : s'.holder = s.holder) (sent : ∀ i, sentFor i s'.trace = sentFor i s.trace)
    (stored : ∀ c i, s.holder i = some c → s'.acceptPc ≠ .assigning c i →
      s.acceptPc ≠ .assigning c i) : Streams s' := by
  intro i c held other
  rw [holder] at held
  rw [clients, sent]
  exact streams i c held (stored c i held other)

theorem sendTo (streams : Streams s) (socks : Socks s) (sender : Sender) (i : SlotIndex)
    (m : Message) (results : List SendResult) : Streams (sendTo s sender i m results) := by
  rcases sendTo_cases s sender i m results with
    ⟨-, same⟩ | ⟨sound, success, same⟩ | ⟨sound, failure, same⟩
  · rw [same]
    exact streams
  · rw [same]
    intro j c held other
    change Sound c.fd (s.key.clients j).sock (sentFor j (s.trace ++ [_]))
    have before := streams j c held other
    rw [sentFor_append, sentNext]
    split
    · rename_i own
      subst own
      have fd := (socks.own c i held other).resolve_right sound
      exact before.success sound fd (sendmsg_wire success)
    · exact before
  · rw [same]
    intro j c held other
    change Sound c.fd ((setSock s.key i (-1)).clients j).sock (sentFor j (s.trace ++ [_] ++ [_]))
    have before := streams j c held other
    rw [sentFor_append, sentFor_append, setSock_clients]
    change Sound c.fd _ (if i = j then sentFor j s.trace ++ [_] else sentFor j s.trace)
    by_cases own : i = j
    · subst own
      rw [if_pos rfl, if_pos rfl]
      have fd := (socks.own c i held other).resolve_right sound
      exact before.failure sound fd (sendmsg_part failure).1
    · rw [if_neg own, if_neg (Ne.symm own)]
      exact before

/-- One step keeps every stream sound. -/
theorem step (streams : Streams s) (socks : Socks s)
    (taken : Listener.step s e = some s') : Streams s' := by
  cases step_moves taken with
  | @accept fd pc =>
      refine streams.kept rfl rfl (fun i => sentFor_append i _ _) ?_
      intro c i _ _
      rw [pc]
      exact AcceptPc.noConfusion
  | @full c pc =>
      refine streams.kept rfl rfl (fun _ => rfl) ?_
      intro c i _ _
      rw [pc]
      exact AcceptPc.noConfusion
  | @alloc c i pc clear =>
      intro j c' held other
      change Function.update s.holder i (some c) j = some c' at held
      change Sound c'.fd ((takeSlot s.key i).clients j).sock (sentFor j s.trace)
      rw [takeSlot_clients]
      by_cases same : j = i
      · rw [same, Function.update_self] at held
        obtain rfl := Option.some.inj held
        rw [same] at other
        exact absurd rfl other
      · rw [Function.update_of_ne same] at held
        rw [if_neg same]
        exact streams j c' held (by rw [pc]; exact AcceptPc.noConfusion)
  | @drop c pc =>
      refine streams.kept rfl rfl (fun i => sentFor_append i _ _) ?_
      intro c i _ _
      rw [pc]
      exact AcceptPc.noConfusion
  | @assign c i pc =>
      intro j c' held other
      change Sound c'.fd ((setSock s.key i c.fd).clients j).sock (sentFor j (s.trace ++ [_]))
      rw [sentFor_append, sentNext, setSock_clients]
      by_cases same : i = j
      · rw [if_pos same]
        exact sound_nil _ _
      · rw [if_neg same, if_neg (Ne.symm same)]
        refine streams j c' held ?_
        rw [pc]
        intro assigning
        exact same (AcceptPc.assigning.inj assigning).2
  | @spawn c i pc =>
      refine streams.kept rfl rfl (fun _ => rfl) ?_
      intro c i _ _
      rw [pc]
      exact AcceptPc.noConfusion
  | @free n i sock pc =>
      intro j c held other
      change Function.update s.holder i none j = some c at held
      change Sound c.fd ((pscClientFree s.key i).clients j).sock (sentFor j s.trace)
      rw [pscClientFree_clients]
      by_cases same : j = i
      · rw [same, Function.update_self] at held
        exact absurd held.symm (Option.some_ne_none c)
      · rw [Function.update_of_ne same] at held
        rw [if_neg same]
        exact streams j c held other
  | start => exact streams
  | recvError => exact streams
  | close =>
      exact streams.kept rfl rfl (fun i => sentFor_append i _ _) fun _ _ _ other => other
  | sendBegin => exact streams
  | skipSlot => exact streams
  | @sendSlot i m results => exact streams.sendTo socks .pscSend i m results
  | sendEnd => exact streams
  | @sendOne i m results => exact streams.sendTo socks .pscSendOne i m results

end Streams

/-- In every run, what has been sent for a slot since its socket was stored and while its client
has it is on the client's descriptor, and is whole messages and then, at most, part of one, after
which nothing follows. -/
theorem only_whole_messages {listenSock : Int} {events : List Event} {s : Server}
    (run : exec step (ready listenSock) events = some s) {i : SlotIndex} {c : Connection}
    (held : s.holder i = some c) (stored : s.acceptPc ≠ .assigning c i) :
    Stream c.fd (sentFor i s.trace) ∧
      ∃ (complete : List Message) (part : List Byte),
        (sentFor i s.trace).flatMap Sending.wire = complete.flatMap encode ++ part ∧
          (part = [] ∨ ∃ m, part <+: encode m ∧ part ≠ encode m) := by
  have law := exec_invariant (P := fun s => Slots s ∧ Socks s ∧ Streams s)
    (fun _ _ _ all taken => ⟨all.1.step taken, all.2.1.step all.1 taken,
      all.2.2.step all.2.1 taken⟩)
    ⟨Slots.ready_slots listenSock, Socks.ready_socks listenSock,
      Streams.ready_streams listenSock⟩ run
  have sound := law.2.2 i c held stored
  exact ⟨sound.toStream, sound.toStream.bytes⟩

/-- A broadcast that goes out whole and one that does not. -/
def brokenRun : List Event :=
  [.accept 1, .alloc, .assign, .sendBegin shortMessage, .sendSlot [.sent 3, .sent 5],
   .sendSlot [], .sendSlot [], .sendSlot [], .sendEnd, .sendBegin shortMessage,
   .sendSlot [.sent 2, .error .enotconn]]

theorem brokenRun_stream :
    Stream 1 (sentFor 0 (after brokenRun).trace) ∧
      ∃ (complete : List Message) (part : List Byte),
        (sentFor 0 (after brokenRun).trace).flatMap Sending.wire =
            complete.flatMap encode ++ part ∧
          (part = [] ∨ ∃ m, part <+: encode m ∧ part ≠ encode m) := by
  have run : exec step (ready 0) brokenRun = some (after brokenRun) := rfl
  have held : (after brokenRun).holder 0 = some ⟨0, 1⟩ := rfl
  exact only_whole_messages run held AcceptPc.noConfusion

end PscDigpid.Sw.Listener
