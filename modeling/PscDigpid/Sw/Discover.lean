/- Unit: PscDigpid/Sw/Discover
   layer: model
   source: src/sw/src/discover.c
   digest: Discovery over UDP: which datagrams are answered, and the buffers that take part. -/

import Mathlib.Tactic.SplitIfs
import PscDigpid.Sync.RefCount

set_option autoImplicit false
set_option relaxedAutoImplicit false

namespace PscDigpid.Sw.Discover

open PscDigpid.Sync

abbrev Byte := BitVec 8

/-- The part of lwIP that discovery uses, over lwIP's own state. -/
structure Lwip (σ β : Type) where
  /-- The references to and between the buffers. -/
  pbufs : σ → Counted β
  /-- The bytes of a buffer with those chained to it. -/
  payload : σ → β → List Byte
  longest : Nat
  pbufCopyPartial : σ → β → Nat → List Byte
  pbufAlloc : σ → Option (β × σ)
  pbufAllocReference : σ → List Byte → Option (β × σ)
  pbufChain : σ → β → β → σ
  pbufFree : σ → β → σ
  udpNewIpType : σ → Option σ
  udpBind : σ → BitVec 16 → σ × Bool
  udpSendto : σ → β → BitVec 32 → BitVec 16 → σ × Bool

/-- What lwIP documents of these functions. -/
structure Documented {σ β : Type} [DecidableEq β] (lwip : Lwip σ β) : Prop where
  copies : ∀ s p n, lwip.pbufCopyPartial s p n = (lwip.payload s p).take n
  allocs : ∀ s h s', lwip.pbufAlloc s = some (h, s') →
    (lwip.pbufs s).ref h = 0 ∧ lwip.pbufs s' = (lwip.pbufs s).hold h
  references : ∀ s bytes r s', lwip.pbufAllocReference s bytes = some (r, s') →
    (lwip.pbufs s).ref r = 0 ∧ lwip.pbufs s' = (lwip.pbufs s).hold r
  chains : ∀ s h t, (lwip.pbufs s).next h = none →
    lwip.pbufs (lwip.pbufChain s h t) = (lwip.pbufs s).link h t
  sends : ∀ s p addr port, lwip.pbufs (lwip.udpSendto s p addr port).1 = lwip.pbufs s
  long : 2 ≤ lwip.longest
  frees : ∀ s p, 0 < (lwip.pbufs s).ref p →
    lwip.pbufs (lwip.pbufFree s p) = (lwip.pbufs s).release lwip.longest p

/-- A call on a buffer, as `disco_recv` makes it. -/
inductive Call (β : Type)
  | alloc (h : β)
  | chain (h t : β)
  | sendto (h : β) (addr : BitVec 32) (port : BitVec 16)
  | free (p : β)
  deriving DecidableEq

/-- The identifier of a message, in network order. -/
def msgid (msg : List Byte) : BitVec 16 := msg.getD 2 0 ++ msg.getD 3 0

/-- The length of a message's body, in network order. -/
def msglen (msg : List Byte) : BitVec 32 :=
  msg.getD 4 0 ++ msg.getD 5 0 ++ msg.getD 6 0 ++ msg.getD 7 0

/-- The message structure has 12 bytes: a header of eight, a serial number and its padding. -/
def sizeofMsg : Nat := 12

section Receive

variable {σ β : Type}

/-- The state after a received datagram, and the calls made for it. -/
def discoRecv (lwip : Lwip σ β) (discoReplyBuf : β) (s : σ) (p : β) (addr : BitVec 32)
    (port : BitVec 16) : σ × List (Call β) :=
  let msg := lwip.pbufCopyPartial s p sizeofMsg
  let n := msg.length
  if n < 8 ∨ msg.getD 0 0 ≠ 0x50 ∨ msg.getD 1 0 ≠ 0x53 then (s, [])
  else if n - 8 < (msglen msg).toNat then (s, [])
  else if msgid msg ≠ 1234 then (s, [])
  else
    -- the serial number is read but not compared with anything yet
    match lwip.pbufAlloc s with
    | none => (s, [])
    | some (h, s) =>
        let s := lwip.pbufChain s h discoReplyBuf
        -- a failure to send is only reported
        let s := (lwip.udpSendto s h addr port).1
        (lwip.pbufFree s h, [.alloc h, .chain h discoReplyBuf, .sendto h addr port, .free h])

/-- The reply that is sent for ever: its header, the revision, no serial number, and padding. -/
def discoReply (gitHash : BitVec 32) : List Byte :=
  [0x50, 0x53, 0x04, 0xD2, 0, 0, 0, 8, gitHash.extractLsb' 24 8, gitHash.extractLsb' 16 8,
   gitHash.extractLsb' 8 8, gitHash.extractLsb' 0 8, 0, 0, 0, 0]

/-- The reply buffer, if the receiver is set up. -/
def discoverPrep (lwip : Lwip σ β) (gitHash : BitVec 32) (s : σ) : Option (β × σ) :=
  match lwip.udpNewIpType s with
  | none => none
  | some s => lwip.pbufAllocReference (lwip.udpBind s 3000).1 (discoReply gitHash)

end Receive

/-- A request for discovery, as it should be: the letters, the identifier, and a body at least as
long as declared. -/
def WellFormed (datagram : List Byte) : Prop :=
  8 ≤ datagram.length ∧ datagram.getD 0 0 = 0x50 ∧ datagram.getD 1 0 = 0x53 ∧
    msgid datagram = 1234 ∧ 8 + (msglen datagram).toNat ≤ datagram.length

instance (datagram : List Byte) : Decidable (WellFormed datagram) :=
  inferInstanceAs (Decidable (_ ∧ _ ∧ _ ∧ _ ∧ _))

section Answers

variable {σ β : Type} {lwip : Lwip σ β} {discoReplyBuf p : β} {s : σ} {addr : BitVec 32}
  {port : BitVec 16}

/-- A reply goes to the sender of the datagram. -/
def Replies (lwip : Lwip σ β) (discoReplyBuf : β) (s : σ) (p : β) (addr : BitVec 32)
    (port : BitVec 16) : Prop :=
  ∃ h, Call.sendto h addr port ∈ (discoRecv lwip discoReplyBuf s p addr port).2

theorem getD_take {datagram : List Byte} {n k : Nat} (inside : k < n) :
    (datagram.take n).getD k 0 = datagram.getD k 0 := by
  rw [List.getD_eq_getElem?_getD, List.getD_eq_getElem?_getD, List.getElem?_take_of_lt inside]

/-- The header of a datagram is in the message structure, if the datagram has one. -/
theorem copied (documented : ∀ n, lwip.pbufCopyPartial s p n = (lwip.payload s p).take n) :
    (lwip.pbufCopyPartial s p sizeofMsg).length = min 12 (lwip.payload s p).length ∧
      (∀ k, k < 12 → (lwip.pbufCopyPartial s p sizeofMsg).getD k 0 =
        (lwip.payload s p).getD k 0) := by
  rw [documented, sizeofMsg]
  exact ⟨List.length_take, fun k inside => getD_take inside⟩

/-- What is answered: a well-formed request with at most four bytes of body. -/
theorem replies_iff (documented : ∀ n, lwip.pbufCopyPartial s p n = (lwip.payload s p).take n)
    (allocated : (lwip.pbufAlloc s).isSome = true) :
    Replies lwip discoReplyBuf s p addr port ↔
      WellFormed (lwip.payload s p) ∧ (msglen (lwip.payload s p)).toNat ≤ 4 := by
  obtain ⟨length, bytes⟩ := copied documented
  have long : msglen (lwip.pbufCopyPartial s p sizeofMsg) = msglen (lwip.payload s p) := by
    simp only [msglen, bytes, Nat.reduceLT]
  have known : msgid (lwip.pbufCopyPartial s p sizeofMsg) = msgid (lwip.payload s p) := by
    simp only [msgid, bytes, Nat.reduceLT]
  obtain ⟨⟨h, after⟩, alloc⟩ := Option.isSome_iff_exists.1 allocated
  simp only [Replies, discoRecv, length, long, known, bytes, Nat.reduceLT, alloc, WellFormed]
  split_ifs with header truncated other
  · refine iff_of_false (by simp) ?_
    rintro ⟨⟨whole, letterP, letterS, -⟩, -⟩
    rcases header with short | notP | notS
    · omega
    · exact notP letterP
    · exact notS letterS
  · refine iff_of_false (by simp) ?_
    rintro ⟨⟨_, _, _, _, body⟩, few⟩
    omega
  · refine iff_of_false (by simp) ?_
    rintro ⟨⟨_, _, _, id, _⟩, -⟩
    exact other id
  · rw [not_or, not_or, not_not, not_not] at header
    rw [not_not] at other
    refine iff_of_true ⟨h, by simp⟩ ?_
    exact ⟨⟨by omega, header.2.1, header.2.2, other, by omega⟩, by omega⟩

/-- Well-formed requests are answered, and nothing else, unless one has more than four bytes of
body. -/
theorem answers_iff (lwip : Lwip σ β) (discoReplyBuf p : β) (s : σ) (addr : BitVec 32)
    (port : BitVec 16)
    (documented : ∀ n, lwip.pbufCopyPartial s p n = (lwip.payload s p).take n)
    (allocated : (lwip.pbufAlloc s).isSome = true) :
    (Replies lwip discoReplyBuf s p addr port ↔ WellFormed (lwip.payload s p)) ↔
      (WellFormed (lwip.payload s p) → (msglen (lwip.payload s p)).toNat ≤ 4) := by
  rw [replies_iff documented allocated]
  exact and_iff_left_iff_imp

end Answers

/-- Numbered buffers, with as many as there is room for. -/
structure Heap where
  used : Nat
  pbufs : Counted Nat
  payload : Nat → List Byte

/-- The next buffer, if it is not in use. -/
def Heap.alloc (s : Heap) (bytes : List Byte) : Option (Nat × Heap) :=
  if s.pbufs.ref s.used = 0 then
    some (s.used,
      ⟨s.used + 1, s.pbufs.hold s.used, Function.update s.payload s.used bytes⟩)
  else none

/-- An lwIP of such buffers whose calls succeed. -/
def heapLwip : Lwip Heap Nat where
  pbufs := Heap.pbufs
  payload := Heap.payload
  longest := 16
  pbufCopyPartial s p n := (s.payload p).take n
  pbufAlloc s := s.alloc []
  pbufAllocReference := Heap.alloc
  pbufChain s h t :=
    ⟨s.used, s.pbufs.link h t, Function.update s.payload h (s.payload h ++ s.payload t)⟩
  pbufFree s p := { s with pbufs := s.pbufs.release 16 p }
  udpNewIpType := some
  udpBind s _ := (s, true)
  udpSendto s _ _ _ := (s, true)

theorem heap_alloc {s s' : Heap} {bytes : List Byte} {p : Nat}
    (alloc : s.alloc bytes = some (p, s')) : s.pbufs.ref p = 0 ∧ s'.pbufs = s.pbufs.hold p := by
  rw [Heap.alloc] at alloc
  split at alloc
  · obtain ⟨rfl, rfl⟩ := Prod.mk.inj (Option.some.inj alloc)
    exact ⟨by assumption, rfl⟩
  · cases alloc

theorem heap_documented : Documented heapLwip where
  copies _ _ _ := rfl
  allocs _ _ _ alloc := heap_alloc alloc
  references _ _ _ _ alloc := heap_alloc alloc
  chains _ _ _ _ := rfl
  sends _ _ _ _ := rfl
  long := by decide
  frees _ _ _ := rfl

/-- The reply is buffer 0, and a received datagram buffer 1. -/
def inbox (datagram : List Byte) : Heap :=
  ⟨2, ⟨fun p => if p < 2 then 1 else 0, fun _ => none⟩, fun _ => datagram⟩

/-- A request with five bytes of body. -/
def fiveBytes : List Byte := [0x50, 0x53, 0x04, 0xD2, 0, 0, 0, 5, 1, 2, 3, 4, 5]

theorem fiveBytes_unanswered :
    ¬ (Replies heapLwip 0 (inbox fiveBytes) 1 0x0A000002 4000 ↔
      WellFormed (heapLwip.payload (inbox fiveBytes) 1)) := by
  intro answered
  obtain ⟨h, sent⟩ := answered.2 (by decide)
  have silent : (discoRecv heapLwip 0 (inbox fiveBytes) 1 0x0A000002 4000).2 = [] := by decide
  rw [silent] at sent
  cases sent

theorem emptyBody_answered :
    Replies heapLwip 0 (inbox (fiveBytes.take 7 ++ [0])) 1 0x0A000002 4000 ↔
      WellFormed (heapLwip.payload (inbox (fiveBytes.take 7 ++ [0])) 1) := by
  apply (answers_iff heapLwip 0 1 (inbox (fiveBytes.take 7 ++ [0])) 0x0A000002 4000 ?_ ?_).2
  · intro _
    decide
  · intro _
    rfl
  · rfl

end PscDigpid.Sw.Discover
