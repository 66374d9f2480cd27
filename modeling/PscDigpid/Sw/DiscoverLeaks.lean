/- Unit: PscDigpid/Sw/DiscoverLeaks
   layer: result
   source: src/sw/src/discover.c (disco_recv, discover_prep)
   digest: Discovery returns what it takes itself, and keeps every datagram that it is given. -/

import Mathlib.Data.List.Count
import PscDigpid.Sw.Discover

set_option autoImplicit false
set_option relaxedAutoImplicit false

namespace PscDigpid.Sw.Discover

open PscDigpid.Sync

section Runs

variable {σ β : Type} (lwip : Lwip σ β) (discoReplyBuf : β)

/-- lwIP puts a datagram into a buffer that no one has, for the receiver to own. -/
structure Delivered (s s' : σ) (p : β) : Prop where
  fresh : (lwip.pbufs s).ref p = 0
  owned : (lwip.pbufs s').ref p = 1
  kept : (lwip.pbufs s').ref discoReplyBuf = (lwip.pbufs s).ref discoReplyBuf

/-- Datagrams that came one after the other in these buffers, and the calls made for them. -/
inductive Handled (start : σ) : List β → List (Call β) → σ → Prop
  | none : Handled start [] [] start
  | next {ps : List β} {calls : List (Call β)} {s s' : σ} {p : β} {addr : BitVec 32}
      {port : BitVec 16} (earlier : Handled start ps calls s)
      (delivered : Delivered lwip discoReplyBuf s s' p) :
      Handled start (ps ++ [p]) (calls ++ (discoRecv lwip discoReplyBuf s' p addr port).2)
        (discoRecv lwip discoReplyBuf s' p addr port).1

/-- Each buffer, received or allocated, has been freed as often as it was obtained, and the reply
has as many references as at the start. -/
structure Accounted [DecidableEq β] (start : σ) (ps : List β) (calls : List (Call β)) (s : σ) :
    Prop where
  freed : ∀ p, calls.count (.free p) = ps.count p + calls.count (.alloc p)
  kept : (lwip.pbufs s).ref discoReplyBuf = (lwip.pbufs start).ref discoReplyBuf

end Runs

section Leaks

variable {σ β : Type} {lwip : Lwip σ β} {discoReplyBuf p q : β} {start s : σ}
  {addr : BitVec 32} {port : BitVec 16} {ps : List β} {calls : List (Call β)}

/-- A datagram is ignored, or a header is allocated for its reply. -/
theorem discoRecv_cases (lwip : Lwip σ β) (discoReplyBuf p : β) (s : σ) (addr : BitVec 32)
    (port : BitVec 16) : discoRecv lwip discoReplyBuf s p addr port = (s, []) ∨
    ∃ h s', lwip.pbufAlloc s = some (h, s') ∧
      discoRecv lwip discoReplyBuf s p addr port =
        (lwip.pbufFree (lwip.udpSendto (lwip.pbufChain s' h discoReplyBuf) h addr port).1 h,
          [.alloc h, .chain h discoReplyBuf, .sendto h addr port, .free h]) := by
  rw [discoRecv]
  split_ifs
  · exact .inl rfl
  · exact .inl rfl
  · exact .inl rfl
  · cases alloc : lwip.pbufAlloc s with
    | none => exact .inl rfl
    | some both => exact .inr ⟨both.1, both.2, rfl, rfl⟩

variable [DecidableEq β]

/-- Every header is freed, and nothing else. -/
theorem count_free : (discoRecv lwip discoReplyBuf s p addr port).2.count (.free q) =
    (discoRecv lwip discoReplyBuf s p addr port).2.count (.alloc q) := by
  obtain ignored | ⟨h, s', -, answered⟩ :=
    discoRecv_cases lwip discoReplyBuf p s addr port
  · rw [ignored, List.count_nil, List.count_nil]
  · rw [answered]
    simp [List.count_cons]

/-- Every count of references is as it was, so that the datagram's buffer stays taken. -/
theorem ref_discoRecv (documented : Documented lwip)
    (held : 0 < (lwip.pbufs s).ref discoReplyBuf) :
    (lwip.pbufs (discoRecv lwip discoReplyBuf s p addr port).1).ref = (lwip.pbufs s).ref := by
  obtain ignored | ⟨h, s', alloc, answered⟩ :=
    discoRecv_cases lwip discoReplyBuf p s addr port
  · rw [ignored]
  · obtain ⟨fresh, taken⟩ := documented.allocs s h s' alloc
    obtain ⟨depth, long⟩ : ∃ depth, lwip.longest = depth + 2 :=
      ⟨lwip.longest - 2, (Nat.sub_add_cancel documented.long).symm⟩
    have linked : lwip.pbufs (lwip.udpSendto (lwip.pbufChain s' h discoReplyBuf) h addr port).1 =
        ((lwip.pbufs s).hold h).link h discoReplyBuf := by
      rw [documented.sends, documented.chains, taken]
      rw [taken]
      exact Function.update_self _ _ _
    rw [answered, documented.frees, linked, long]
    · exact Counted.ref_borrow fresh held
    · rw [linked, Counted.ref_linked fresh held]
      exact Nat.one_pos

theorem ref_handled (documented : Documented lwip)
    (held : 0 < (lwip.pbufs start).ref discoReplyBuf)
    (handled : Handled lwip discoReplyBuf start ps calls s) :
    (lwip.pbufs s).ref discoReplyBuf = (lwip.pbufs start).ref discoReplyBuf := by
  induction handled with
  | none => rfl
  | next _ delivered ih =>
      rw [ref_discoRecv documented]
      · exact delivered.kept.trans ih
      · rw [delivered.kept, ih]
        exact held

theorem count_handled (handled : Handled lwip discoReplyBuf start ps calls s) (q : β) :
    calls.count (.free q) = calls.count (.alloc q) := by
  induction handled with
  | none => rw [List.count_nil, List.count_nil]
  | next _ _ ih => rw [List.count_append, List.count_append, ih, count_free]

/-- From the set-up on every buffer is accounted for while no datagram has come. -/
theorem accounted_iff (lwip : Lwip σ β) (documented : Documented lwip) (gitHash : BitVec 32)
    (s₀ start s : σ) (discoReplyBuf : β)
    (ready : discoverPrep lwip gitHash s₀ = some (discoReplyBuf, start)) (ps : List β)
    (calls : List (Call β)) (handled : Handled lwip discoReplyBuf start ps calls s) :
    Accounted lwip discoReplyBuf start ps calls s ↔ ps = [] := by
  have held : 0 < (lwip.pbufs start).ref discoReplyBuf := by
    rw [discoverPrep] at ready
    split at ready
    · cases ready
    · rw [(documented.references _ _ _ _ ready).2]
      exact Nat.lt_of_lt_of_eq Nat.one_pos Counted.ref_hold.symm
  constructor
  · rintro ⟨freed, _⟩
    apply List.eq_nil_iff_forall_not_mem.2
    intro p received
    have once := List.count_pos_iff.2 received
    have balance := freed p
    have headers := count_handled handled p
    omega
  · rintro rfl
    refine ⟨?_, ref_handled documented held handled⟩
    intro p
    rw [count_handled handled p, List.count_nil, Nat.zero_add]

/-- A processor where no buffer is in use yet. -/
def unused : Heap := ⟨0, ⟨fun _ => 0, fun _ => none⟩, fun _ => []⟩

/-- The same with one buffer more. -/
def arrived (s : Heap) (bytes : List Byte) : Heap :=
  ⟨s.used + 1, s.pbufs.hold s.used, Function.update s.payload s.used bytes⟩

theorem emptyDatagram_kept : ¬ ∀ (start s : Heap) (discoReplyBuf : Nat) (ps : List Nat)
    (calls : List (Call Nat)), discoverPrep heapLwip 0 unused = some (discoReplyBuf, start) →
      Handled heapLwip discoReplyBuf start ps calls s →
        Accounted heapLwip discoReplyBuf start ps calls s := by
  intro accounted
  have delivered : Delivered heapLwip 0 (arrived unused (discoReply 0))
      (arrived (arrived unused (discoReply 0)) []) 1 := ⟨rfl, rfl, rfl⟩
  have handled : Handled heapLwip 0 (arrived unused (discoReply 0)) [1] []
      (arrived (arrived unused (discoReply 0)) []) :=
    @Handled.next _ _ _ _ _ _ _ _ _ _ 0 0 .none delivered
  have never := (accounted _ _ _ _ _ rfl handled).freed 1
  cases never

/-- An answered request is kept as well. -/
theorem answeredRequest_kept : ¬ Accounted heapLwip 0 (arrived unused (discoReply 0)) [1]
    [.alloc 2, .chain 2 0, .sendto 2 0x0A000002 4000, .free 2]
    (discoRecv heapLwip 0
      (arrived (arrived unused (discoReply 0)) (fiveBytes.take 7 ++ [0])) 1 0x0A000002 4000).1 := by
  intro accounted
  have delivered : Delivered heapLwip 0 (arrived unused (discoReply 0))
      (arrived (arrived unused (discoReply 0)) (fiveBytes.take 7 ++ [0])) 1 := ⟨rfl, rfl, rfl⟩
  have handled : Handled heapLwip 0 (arrived unused (discoReply 0)) [1]
      [.alloc 2, .chain 2 0, .sendto 2 0x0A000002 4000, .free 2]
      (discoRecv heapLwip 0
        (arrived (arrived unused (discoReply 0)) (fiveBytes.take 7 ++ [0])) 1 0x0A000002 4000).1 :=
    .next .none delivered
  cases (accounted_iff heapLwip heap_documented 0 unused _ _ 0 rfl [1] _ handled).1 accounted

end Leaks

end PscDigpid.Sw.Discover
