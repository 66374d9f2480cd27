/- Unit: PscDigpid/Sw/TftpSession
   layer: result
   source: src/sw/src/tftp_server.c
   digest: What one event does to an open session, and what holds after every history. -/

import Mathlib.Tactic.SplitIfs
import PscDigpid.Sw.Tftp

set_option autoImplicit false
set_option relaxedAutoImplicit false

namespace PscDigpid.Sw.Tftp

open PscDigpid.Sync

/-- A host that can be answered. -/
def Peer.Valid (p : Peer) : Prop := p.addr ≠ 0 ∧ p.port ≠ 0

section Session

variable {φ : Type}

/-- Two states that differ in their clocks only. -/
structure Alike (s s' : State φ) : Prop where
  file : s'.file = s.file
  handle : s'.handle = s.handle
  lastData : s'.lastData = s.lastData
  peer : s'.peer = s.peer
  blknum : s'.blknum = s.blknum
  modeWrite : s'.modeWrite = s.modeWrite

/-- No session, after one with the file. -/
structure Closed (ctx : Context φ) (file : φ) (s' : State φ) : Prop where
  file : s'.file = ctx.closeFile file
  handle : s'.handle = false

def Errors (new : List Sent) : Prop := ∀ p ∈ new, ∃ code str, p.2 = .error code str

/-- The datagram is a block of the session's peer that the server has written. -/
structure Written (ctx : Context φ) (s : State φ) (d : Datagram) (file : φ) (ok : Bool) : Prop where
  sender : d.sender = s.peer
  mode : s.modeWrite = true
  opcode : d.opcode = 3
  blknum : d.word 1 = s.blknum
  written : ctx.writeFile s.file d.removeHeader = (ok, file)

/-- The datagram is the acknowledgement of the session's peer for the last block. -/
structure Acked (s : State φ) (d : Datagram) : Prop where
  sender : d.sender = s.peer
  mode : s.modeWrite = false
  opcode : d.opcode = 4
  blknum : d.word 1 = s.blknum

/-- What an event does to an open session. -/
inductive Acts (ctx : Context φ) (room : Room) (s : State φ) :
    Event → State φ → List Sent → Prop
  | idle {e : Event} {s' : State φ} {new : List Sent} (alike : Alike s s') (errors : Errors new) :
      Acts ctx room s e s' new
  | again {d : Datagram} {s' : State φ} (alike : Alike s s') (mode : s.modeWrite = true)
      (previous : d.word 1 + 1 = s.blknum) :
      Acts ctx room s (.recv d) s' (send room s.peer (.ack (d.word 1)))
  | store {d : Datagram} {s' : State φ} {file : φ} (written : Written ctx s d file true)
      (long : tftpMaxPayloadSize ≤ d.payload.length)
      (alike : Alike { s with file := file, blknum := s.blknum + 1 } s') :
      Acts ctx room s (.recv d) s' (send room s.peer (.ack s.blknum))
  | finish {d : Datagram} {s' : State φ} {file : φ} (written : Written ctx s d file true)
      (short : d.payload.length < tftpMaxPayloadSize) (closed : Closed ctx file s') :
      Acts ctx room s (.recv d) s' (send room s.peer (.ack s.blknum))
  | broken {d : Datagram} {s' : State φ} {file : φ} {new : List Sent}
      (written : Written ctx s d file false) (closed : Closed ctx file s') (errors : Errors new) :
      Acts ctx room s (.recv d) s' new
  | next {d : Datagram} {s' : State φ} {file : φ} {bytes : List Byte} (acked : Acked s d)
      (full : lastpkt s = false)
      (read : ctx.readFile s.file tftpMaxPayloadSize = (some bytes, file))
      (alike : Alike { s with
        file := file, blknum := s.blknum + 1, lastData := some ⟨s.blknum + 1, bytes⟩ } s') :
      Acts ctx room s (.recv d) s' (send room s.peer (.data (s.blknum + 1) bytes))
  | starve {d : Datagram} {s' : State φ} (acked : Acked s d) (full : lastpkt s = false)
      (alike : Alike { s with blknum := s.blknum + 1, lastData := none } s') :
      Acts ctx room s (.recv d) s' []
  | unread {d : Datagram} {s' : State φ} {file : φ} {new : List Sent} (acked : Acked s d)
      (full : lastpkt s = false) (read : ctx.readFile s.file tftpMaxPayloadSize = (none, file))
      (closed : Closed ctx file s') (errors : Errors new) : Acts ctx room s (.recv d) s' new
  | done {d : Datagram} {s' : State φ} (acked : Acked s d) (last : lastpkt s = true)
      (closed : Closed ctx s.file s') : Acts ctx room s (.recv d) s' []
  | retry {s' : State φ} {d : LastData} (alike : Alike s s') (kept : s.lastData = some d) :
      Acts ctx room s .tmr s' (send room s.peer (.data d.blknum d.bytes))
  | expire {s' : State φ} (closed : Closed ctx s.file s') : Acts ctx room s .tmr s' []

variable {ctx : Context φ} {room : Room} {s : State φ}

theorem errors_nil : Errors [] := by
  intro p mem
  cases mem

theorem errors_sendError (room : Room) (recipient : Peer) (code : TftpError) (str : String) :
    Errors (sendError room recipient code str) := by
  intro p mem
  rw [sendError, send] at mem
  split_ifs at mem
  · rw [List.mem_singleton.1 mem]
    exact ⟨code, str, rfl⟩
  · cases mem

theorem foreign_eq_false_iff {sender : Peer} (valid : s.peer.Valid) :
    foreign s sender = false ↔ sender = s.peer := by
  obtain ⟨addr, port⟩ := valid
  rw [foreign, Bool.or_eq_false_iff, bne_iff_ne.2 port, bne_iff_ne.2 addr, Bool.true_and,
    Bool.true_and, bne_eq_false_iff_eq, bne_eq_false_iff_eq]
  constructor
  · rintro ⟨samePort, sameAddr⟩
    cases sender
    cases same : s.peer
    simp_all
  · rintro rfl
    exact ⟨rfl, rfl⟩

/-- The server after a heeded datagram's time is noted. -/
def heeded (s : State φ) : State φ := { s with lastPkt := s.timer, retries := 0 }

theorem heeded_alike (s : State φ) : Alike s (heeded s) := ⟨rfl, rfl, rfl, rfl, rfl, rfl⟩

theorem recvData_acts {d : Datagram} (isOpen : s.handle = true) (sender : d.sender = s.peer)
    (opcode : d.opcode = 3) :
    Acts ctx room s (.recv d) (recvData ctx room (heeded s) d).1
      (recvData ctx room (heeded s) d).2 := by
  obtain ⟨file, handle, kept, peer, timer, lastPkt, blknum, retries, mode, timeouts⟩ := s
  obtain rfl : handle = true := isOpen
  cases mode with
  | false => exact .idle ⟨rfl, rfl, rfl, rfl, rfl, rfl⟩ (errors_sendError _ _ _ _)
  | true =>
    by_cases same : d.word 1 = blknum
    · obtain ⟨⟨ok, file'⟩, result⟩ : ∃ r, ctx.writeFile file d.removeHeader = r := ⟨_, rfl⟩
      have written : Written ctx ⟨file, true, kept, peer, timer, lastPkt, blknum, retries, true,
        timeouts⟩ d file' ok := ⟨sender, rfl, opcode, same, result⟩
      simp only [recvData, heeded, same, result, Bool.not_true, Bool.false_eq_true, if_false,
        if_true]
      cases ok with
      | false =>
        simp only [Bool.false_eq_true, if_false]
        refine .broken written ?_ (errors_sendError _ _ _ _)
        split_ifs
        · exact ⟨rfl, rfl⟩
        · exact ⟨rfl, rfl⟩
      | true =>
        simp only [if_true]
        split_ifs with short
        · exact .finish written short ⟨rfl, rfl⟩
        · exact .store written (Nat.le_of_not_lt short) ⟨rfl, rfl, rfl, rfl, rfl, rfl⟩
    · by_cases previous : d.word 1 + 1 = blknum
      · simp only [recvData, heeded, same, previous, Bool.not_true, Bool.false_eq_true, if_false,
          if_true]
        exact .again ⟨rfl, rfl, rfl, rfl, rfl, rfl⟩ rfl previous
      · simp only [recvData, heeded, same, previous, Bool.not_true, Bool.false_eq_true, if_false]
        exact .idle ⟨rfl, rfl, rfl, rfl, rfl, rfl⟩ (errors_sendError _ _ _ _)

theorem recvAck_acts {d : Datagram} (isOpen : s.handle = true) (sender : d.sender = s.peer)
    (opcode : d.opcode = 4) :
    Acts ctx room s (.recv d) (recvAck ctx room (heeded s) d).1
      (recvAck ctx room (heeded s) d).2 := by
  obtain ⟨file, handle, kept, peer, timer, lastPkt, blknum, retries, mode, timeouts⟩ := s
  obtain rfl : handle = true := isOpen
  cases mode with
  | true => exact .idle ⟨rfl, rfl, rfl, rfl, rfl, rfl⟩ (errors_sendError _ _ _ _)
  | false =>
    by_cases same : d.word 1 = blknum
    · have acked : Acked ⟨file, true, kept, peer, timer, lastPkt, blknum, retries, false,
        timeouts⟩ d := ⟨sender, rfl, opcode, same⟩
      obtain last | full := Bool.eq_false_or_eq_true
        (lastpkt ⟨file, true, kept, peer, timer, timer, blknum, 0, false, timeouts⟩)
      · simp only [recvAck, heeded, same, last, Bool.not_true, Bool.false_eq_true, if_false, ne_eq,
          not_true_eq_false, if_true]
        exact .done acked last ⟨rfl, rfl⟩
      · simp only [recvAck, heeded, same, full, Bool.not_true, Bool.false_eq_true, if_false, ne_eq,
          not_true_eq_false, sendData]
        cases room.data with
        | false => exact .starve acked full ⟨rfl, rfl, rfl, rfl, rfl, rfl⟩
        | true =>
          obtain ⟨⟨bytes, file'⟩, result⟩ : ∃ r, ctx.readFile file tftpMaxPayloadSize = r :=
            ⟨_, rfl⟩
          rw [if_pos rfl, result]
          cases bytes with
          | none => exact .unread acked full result ⟨rfl, rfl⟩ (errors_sendError _ _ _ _)
          | some bytes => exact .next acked full result ⟨rfl, rfl, rfl, rfl, rfl, rfl⟩
    · simp only [recvAck, heeded, same, Bool.not_true, Bool.false_eq_true, if_false, ne_eq,
        not_false_eq_true, if_true]
      exact .idle ⟨rfl, rfl, rfl, rfl, rfl, rfl⟩ (errors_sendError _ _ _ _)

theorem recv_acts {d : Datagram} (isOpen : s.handle = true) (valid : s.peer.Valid) :
    Acts ctx room s (.recv d) (recv ctx room s d).1 (recv ctx room s d).2 := by
  rw [recv]
  split_ifs with other read write data ack
  · exact .idle ⟨rfl, rfl, rfl, rfl, rfl, rfl⟩ (errors_sendError _ _ _ _)
  · rw [recvRequest, if_pos isOpen]
    exact .idle (heeded_alike s) (errors_sendError _ _ _ _)
  · rw [recvRequest, if_pos isOpen]
    exact .idle (heeded_alike s) (errors_sendError _ _ _ _)
  · exact recvData_acts isOpen ((foreign_eq_false_iff valid).1 (Bool.eq_false_iff.2 other)) data
  · exact recvAck_acts isOpen ((foreign_eq_false_iff valid).1 (Bool.eq_false_iff.2 other)) ack
  · exact .idle (heeded_alike s) (errors_sendError _ _ _ _)

theorem tftpTmr_acts (isOpen : s.handle = true) (n : Nat) :
    Acts ctx room s .tmr (tftpTmr ctx room { s with timeouts := n }).1
      (tftpTmr ctx room { s with timeouts := n }).2 := by
  obtain ⟨file, handle, kept, peer, timer, lastPkt, blknum, retries, mode, timeouts⟩ := s
  obtain rfl : handle = true := isOpen
  simp only [tftpTmr, Bool.not_true, Bool.false_eq_true, if_false]
  split_ifs with late again
  · cases kept with
    | none => cases again
    | some d => exact .retry ⟨rfl, rfl, rfl, rfl, rfl, rfl⟩ rfl
  · exact .expire ⟨rfl, rfl⟩
  · exact .idle ⟨rfl, rfl, rfl, rfl, rfl, rfl⟩ errors_nil

theorem step_recv (ctx : Context φ) (w : World φ) (room : Room) (d : Datagram) :
    step ctx w (room, .recv d) =
      some ⟨(recv ctx room w.server d).1, w.sent ++ (recv ctx room w.server d).2⟩ := rfl

/-- What one event does to an open session, and what the server sends for it. -/
theorem step_acts {w w' : World φ} {e : Room × Event} (isOpen : w.server.handle = true)
    (valid : w.server.peer.Valid) (next : step ctx w e = some w') :
    ∃ new, w'.sent = w.sent ++ new ∧ Acts ctx e.1 w.server e.2 w'.server new := by
  obtain ⟨room, event⟩ := e
  cases event with
  | recv d =>
    obtain rfl := Option.some.inj next
    exact ⟨_, rfl, recv_acts isOpen valid⟩
  | tmr =>
    simp only [step] at next
    split_ifs at next
    obtain rfl := Option.some.inj next
    exact ⟨_, rfl, tftpTmr_acts isOpen _⟩

end Session

section Sound

variable {φ : Type}

/-- What holds of the server after every history: an open session has a timer, a kept packet belongs
to an open session that reads, and the last datagram is past. -/
structure Sound (s : State φ) : Prop where
  armed : s.handle = true → 0 < s.timeouts
  kept : s.lastData.isSome = true → s.handle = true ∧ s.modeWrite = false
  past : s.lastPkt ≤ s.timer

variable {ctx : Context φ} {room : Room} {s : State φ}

theorem sound_of_none (armed : s.handle = true → 0 < s.timeouts) (none : s.lastData = none)
    (past : s.lastPkt ≤ s.timer) : Sound s := by
  refine ⟨armed, fun kept => ?_, past⟩
  rw [none] at kept
  cases kept

theorem closeHandle_sound (past : s.lastPkt ≤ s.timer) : Sound (closeHandle ctx s) :=
  sound_of_none (fun impossible => absurd impossible Bool.false_ne_true) rfl past

theorem Sound.none_kept (sound : Sound s) (other : ¬ (s.handle = true ∧ s.modeWrite = false)) :
    s.lastData = none :=
  Option.not_isSome_iff_eq_none.1 fun kept => other (sound.kept kept)

theorem sendData_sound (armed : 0 < s.timeouts) (isOpen : s.handle = true)
    (reading : s.modeWrite = false) (past : s.lastPkt ≤ s.timer) :
    Sound (sendData ctx room s).1 := by
  rw [sendData]
  split_ifs
  · obtain ⟨⟨bytes, file⟩, result⟩ : ∃ r, ctx.readFile s.file tftpMaxPayloadSize = r := ⟨_, rfl⟩
    rw [result]
    cases bytes with
    | none => exact closeHandle_sound past
    | some bytes => exact ⟨fun _ => armed, fun _ => ⟨isOpen, reading⟩, past⟩
  · exact sound_of_none (fun _ => armed) rfl past

theorem recvRequest_sound (sound : Sound s) (d : Datagram) (write : Bool) :
    Sound (recvRequest ctx room s d write).1 := by
  obtain isOpen | shut := Bool.eq_false_or_eq_true s.handle
  · rw [recvRequest, if_pos isOpen]
    exact sound
  · have none := sound.none_kept fun both => Bool.false_ne_true (shut.symm.trans both.1)
    have later : 0 < s.timeouts + 1 := Nat.succ_pos _
    rw [recvRequest, if_neg (by simp [shut])]
    dsimp only
    cases d.parse with
    | error str => exact sound_of_none (fun _ => later) none sound.past
    | ok both =>
      obtain ⟨filename, mode⟩ := both
      obtain ⟨⟨ok, file⟩, result⟩ :
          ∃ r, ctx.openFile s.file (cString filename) (cString mode) write = r := ⟨_, rfl⟩
      dsimp only
      rw [result]
      cases ok with
      | false => exact sound_of_none (fun _ => later) none sound.past
      | true =>
        cases write with
        | true => exact sound_of_none (fun _ => later) none sound.past
        | false => exact sendData_sound later rfl rfl sound.past

theorem recvData_sound (sound : Sound s) (d : Datagram) :
    Sound (recvData ctx room s d).1 := by
  obtain isOpen | shut := Bool.eq_false_or_eq_true s.handle
  · obtain writing | reading := Bool.eq_false_or_eq_true s.modeWrite
    · have none := sound.none_kept fun both => Bool.false_ne_true (both.2.symm.trans writing)
      by_cases same : d.word 1 = s.blknum
      · obtain ⟨⟨ok, file⟩, result⟩ : ∃ r, ctx.writeFile s.file d.removeHeader = r := ⟨_, rfl⟩
        simp only [recvData, isOpen, writing, same, result, Bool.not_true, Bool.false_eq_true,
          if_false, if_true]
        cases ok with
        | false =>
          simp only [Bool.false_eq_true, if_false]
          split_ifs
          · exact closeHandle_sound sound.past
          · exact sound_of_none (fun impossible => absurd impossible Bool.false_ne_true) rfl
              sound.past
        | true =>
          simp only [if_true]
          split_ifs
          · exact closeHandle_sound sound.past
          · exact sound_of_none (fun _ => sound.armed isOpen) none sound.past
      · simp only [recvData, isOpen, writing, same, Bool.not_true, Bool.false_eq_true, if_false]
        split_ifs
        · exact sound
        · exact sound
    · rw [recvData, isOpen, reading]
      exact sound
  · rw [recvData, shut]
    exact sound

theorem recvAck_sound (sound : Sound s) (d : Datagram) :
    Sound (recvAck ctx room s d).1 := by
  rw [recvAck]
  split_ifs with shut writing other last
  · exact sound
  · exact sound
  · exact sound
  · exact closeHandle_sound sound.past
  · have isOpen : s.handle = true := by simpa using shut
    exact sendData_sound (sound.armed isOpen) isOpen (Bool.eq_false_iff.2 writing) sound.past

theorem recv_sound (sound : Sound s) (d : Datagram) : Sound (recv ctx room s d).1 := by
  have heeds : Sound (heeded s) := ⟨sound.armed, sound.kept, Nat.le_refl _⟩
  rw [recv]
  split_ifs
  · exact sound
  · exact recvRequest_sound heeds d false
  · exact recvRequest_sound heeds d true
  · exact recvData_sound heeds d
  · exact recvAck_sound heeds d
  · exact heeds

theorem tftpTmr_sound (sound : Sound s) (n : Nat) :
    Sound (tftpTmr ctx room { s with timeouts := n }).1 := by
  have past : s.lastPkt ≤ s.timer + 1 := Nat.le_succ_of_le sound.past
  obtain isOpen | shut := Bool.eq_false_or_eq_true s.handle
  · rw [tftpTmr, if_neg (by simp [isOpen])]
    dsimp only
    split_ifs
    · exact ⟨fun _ => Nat.succ_pos _, sound.kept, past⟩
    · exact closeHandle_sound past
    · exact ⟨fun _ => Nat.succ_pos _, sound.kept, past⟩
  · have none := sound.none_kept fun both => Bool.false_ne_true (shut.symm.trans both.1)
    rw [tftpTmr, if_pos (by simp [shut])]
    exact sound_of_none (fun isOpen => absurd (shut.symm.trans isOpen) Bool.false_ne_true) none
      past

/-- Every history from `tftp_init` on leaves the server sound. -/
theorem sound_run {file : φ} {events : List (Room × Event)} {w : World φ}
    (run : exec (step ctx) (tftpInit file) events = some w) : Sound w.server := by
  refine exec_invariant (P := fun w => Sound w.server) ?_ ?_ run
  · rintro w ⟨room, event⟩ w' sound next
    cases event with
    | recv d =>
      obtain rfl := Option.some.inj next
      exact recv_sound sound d
    | tmr =>
      simp only [step] at next
      split_ifs at next
      obtain rfl := Option.some.inj next
      exact tftpTmr_sound sound _
  · exact sound_of_none (fun impossible => absurd impossible Bool.false_ne_true) rfl
      (Nat.le_refl 0)

end Sound

section Opens

variable {φ : Type} {ctx : Context φ} {room : Room}

/-- The server right after a successful `open`. -/
def opened (s : State φ) (sender : Peer) (file : φ) (write : Bool) : State φ :=
  { heeded s with
    timeouts := s.timeouts + 1, file := file, handle := true, blknum := 1, peer := sender,
    modeWrite := write }

/-- A datagram that opens a session is a request whose file could be opened. -/
theorem request_opens {w w' : World φ} {d : Datagram} (write : Bool)
    (opcode : d.opcode = if write then 2 else 1) (fresh : w.server.handle = false)
    (next : step ctx w (room, .recv d) = some w') (accepted : w'.server.handle = true) :
    ∃ fname mode file, ctx.openFile w.server.file fname mode write = (true, file) ∧
      w' =
        if write then
          ⟨opened w.server d.sender file write,
            w.sent ++ sendAck room (opened w.server d.sender file write) 0⟩
        else
          ⟨(sendData ctx room (opened w.server d.sender file write)).1,
            w.sent ++ (sendData ctx room (opened w.server d.sender file write)).2⟩ := by
  rw [step_recv] at next
  obtain rfl := Option.some.inj next
  replace accepted : (recv ctx room w.server d).1.handle = true := accepted
  have request : recv ctx room w.server d = recvRequest ctx room (heeded w.server) d write := by
    cases other : foreign w.server d.sender with
    | true =>
      rw [recv, if_pos other] at accepted
      exact absurd (fresh.symm.trans accepted) Bool.false_ne_true
    | false =>
      rw [recv, if_neg (by simp [other])]
      cases write with
      | false => exact if_pos opcode
      | true =>
        have two : d.opcode = 2 := opcode
        have one : d.opcode ≠ 1 := by
          rw [two]
          decide
        exact (if_neg one).trans (if_pos two)
  have shut : ¬ (heeded w.server).handle = true := fun isOpen =>
    Bool.false_ne_true (fresh.symm.trans isOpen)
  rw [request, recvRequest, if_neg shut] at accepted
  rw [request, recvRequest, if_neg shut]
  dsimp only at accepted ⊢
  cases parsed : d.parse with
  | error str =>
    rw [parsed] at accepted
    exact absurd accepted shut
  | ok both =>
    obtain ⟨fname, mode⟩ := both
    rw [parsed] at accepted
    obtain ⟨⟨ok, file⟩, result⟩ :
        ∃ r, ctx.openFile w.server.file (cString fname) (cString mode) write = r := ⟨_, rfl⟩
    have heard : ctx.openFile (heeded w.server).file (cString fname) (cString mode) write =
      (ok, file) := result
    dsimp only at accepted ⊢
    rw [heard] at accepted ⊢
    cases ok with
    | false => exact absurd accepted shut
    | true =>
      refine ⟨cString fname, cString mode, file, result, ?_⟩
      cases write with
      | false => rfl
      | true => rfl

end Opens

end PscDigpid.Sw.Tftp
