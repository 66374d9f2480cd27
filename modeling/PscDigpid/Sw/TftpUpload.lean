/- Unit: PscDigpid/Sw/TftpUpload
   layer: result
   source: src/sw/src/tftp_server.c, src/sw/src/tftp_handler.c
   digest: What an upload has stored when a block is acknowledged, whatever the network does. -/

import PscDigpid.Sw.TftpHandler
import PscDigpid.Sw.TftpSession

set_option autoImplicit false
set_option relaxedAutoImplicit false

namespace PscDigpid.Sw.Tftp

open PscDigpid.Sync

/-- The first blocks of an upload, which start with number one. -/
def blocks (block : BitVec 16 → List Byte) (n : Nat) : List Byte :=
  (List.range n).flatMap fun k => block (BitVec.ofNat 16 (k + 1))

theorem blocks_succ (block : BitVec 16 → List Byte) (n : Nat) :
    blocks block (n + 1) = blocks block n ++ block (BitVec.ofNat 16 (n + 1)) := by
  rw [blocks, List.range_succ, List.flatMap_append, List.flatMap_singleton]
  rfl

section Upload

variable {σ : Type} (fat : FatFs σ) (peer : Peer) (block : BitVec 16 → List Byte)
  (before : List Byte)

/-- The peer's data packets have the blocks that belong to their numbers; all that others send, and
what else the peer does, is free. -/
def Honest (e : Room × Event) : Prop :=
  ∀ d, e.2 = .recv d → d.sender = peer → d.opcode = 3 → d.payload = block (d.word 1)

/-- The first `n` blocks are in the file, at the place of what was there before. -/
structure Stored (n : Nat) (file : σ) : Prop where
  contents : fat.contents file = overwrite before 0 (blocks block n)
  fptr : fat.fptr file = (blocks block n).length

/-- An upload with `n` blocks so far. -/
structure Uploading (n : Nat) (s : State σ) : Prop where
  handle : s.handle = true
  mode : s.modeWrite = true
  peer : s.peer = peer
  blknum : s.blknum = BitVec.ofNat 16 (n + 1)
  lastData : s.lastData = none
  stored : Stored fat block before n s.file

/-- How an event ends an upload that has `m` blocks then: with a short block, the last of them, with
a timeout, or with a block that cannot be written. What is closed has the blocks, as far as they are
written. -/
inductive UploadEnds (m : Nat) (s s' : State σ) : Event → Prop
  | complete {d : Datagram} {file : σ} (written : Written (ctxt fat) s d file true) (some : 0 < m)
      (payload : d.payload = block (BitVec.ofNat 16 m))
      (short : d.payload.length < tftpMaxPayloadSize) (stored : Stored fat block before m file)
      (closed : Closed (ctxt fat) file s') : UploadEnds m s s' (.recv d)
  | expired (stored : Stored fat block before m s.file)
      (closed : Closed (ctxt fat) s.file s') : UploadEnds m s s' .tmr
  | broken {d : Datagram} {file : σ} (failed : Written (ctxt fat) s d file false)
      (payload : d.payload = block (BitVec.ofNat 16 (m + 1)))
      (stored : Stored fat block before m s.file)
      (closed : Closed (ctxt fat) file s') : UploadEnds m s s' (.recv d)

/-- What an event does to an upload of `n` blocks, which has `m` then: only a block that has been
written is counted, and if the peer gets an acknowledgement, it is for the last one counted. -/
structure Uploads (n m : Nat) (e : Room × Event) (w w' : World σ) : Prop where
  count : m = n ∨ m = n + 1 ∧ ∃ d file, e.2 = .recv d ∧ Written (ctxt fat) w.server d file true
  acks : ∃ new, w'.sent = w.sent ++ new ∧
    ∀ b, (peer, Packet.ack b) ∈ new → b = BitVec.ofNat 16 m
  ends : w'.server.handle = false → UploadEnds fat block before m w.server w'.server e.2

/-- A run of an upload: how many blocks it has at each place, and how it comes there. -/
structure UploadRun (w : World σ) (events : List (Room × Event)) (count : Nat → Nat) : Prop where
  start : count 0 = 0
  going : ∀ i t, exec (step (ctxt fat)) w (events.take i) = some t → t.server.handle = true →
    Uploading fat peer block before (count i) t.server
  next : ∀ i e t t', events[i]? = some e → exec (step (ctxt fat)) w (events.take i) = some t →
    step (ctxt fat) t e = some t' → Uploads fat peer block before (count i) (count (i + 1)) e t t'

variable {fat peer block before}

theorem no_acks {new : List Sent} (errors : Errors new) (b : BitVec 16) :
    (peer, Packet.ack b) ∉ new := by
  intro mem
  obtain ⟨code, str, impossible⟩ := errors _ mem
  cases impossible

theorem ack_of_send {room : Room} {a b : BitVec 16}
    (mem : (peer, Packet.ack b) ∈ send room peer (.ack a)) : b = a := by
  rw [send] at mem
  split_ifs at mem
  · exact Packet.ack.inj (Prod.mk.inj (List.mem_singleton.1 mem)).2
  · cases mem

theorem Uploading.alike {n : Nat} {s s' : State σ} (uploading : Uploading fat peer block before n s)
    (alike : Alike s s') : Uploading fat peer block before n s' where
  handle := alike.handle.trans uploading.handle
  mode := alike.modeWrite.trans uploading.mode
  peer := alike.peer.trans uploading.peer
  blknum := alike.blknum.trans uploading.blknum
  lastData := alike.lastData.trans uploading.lastData
  stored := by
    rw [alike.file]
    exact uploading.stored

/-- A block that the server has written is the next one. -/
theorem Uploading.written (documented : fat.Documented) {n : Nat} {s : State σ}
    (uploading : Uploading fat peer block before n s) {d : Datagram} {file : σ} {room : Room}
    (honest : Honest peer block (room, .recv d)) (written : Written (ctxt fat) s d file true) :
    d.payload = block (BitVec.ofNat 16 (n + 1)) ∧ Stored fat block before (n + 1) file := by
  have payload : d.payload = block (BitVec.ofNat 16 (n + 1)) := by
    rw [honest d rfl (written.sender.trans uploading.peer) written.opcode, written.blknum,
      uploading.blknum]
  obtain ⟨contents, fptr⟩ := uploading.stored
  have within : fat.fptr s.file ≤ (fat.contents s.file).length := by
    rw [contents, fptr, ← Nat.zero_add (blocks block n).length]
    exact length_overwrite (Nat.zero_le _)
  obtain ⟨after, moved⟩ := tftpSdcardWrite_ok documented within written.written
  have bytes : d.removeHeader.flatten = block (BitVec.ofNat 16 (n + 1)) := payload
  refine ⟨payload, ⟨?_, ?_⟩⟩
  · have combined := overwrite_overwrite (a := blocks block n)
      (b := block (BitVec.ofNat 16 (n + 1))) (Nat.zero_le before.length)
    rw [after, contents, fptr, bytes, blocks_succ, ← combined, Nat.zero_add]
  · rw [moved, fptr, bytes, blocks_succ, List.length_append]

/-- One event of an open upload. -/
theorem upload_step (documented : fat.Documented) (valid : peer.Valid) {n : Nat} {w w' : World σ}
    {e : Room × Event} (uploading : Uploading fat peer block before n w.server)
    (honest : Honest peer block e) (next : step (ctxt fat) w e = some w') :
    ∃ m, (w'.server.handle = true → Uploading fat peer block before m w'.server) ∧
      Uploads fat peer block before n m e w w' := by
  have sender : w.server.peer = peer := uploading.peer
  obtain ⟨new, sent, acts⟩ := step_acts uploading.handle (sender ▸ valid) next
  obtain ⟨room, event⟩ := e
  dsimp only at acts
  have writing := uploading.mode
  have stays : ∀ {s' : State σ}, Alike w.server s' → s'.handle ≠ false := by
    intro s' alike shut
    exact Bool.false_ne_true (shut.symm.trans (alike.handle.trans uploading.handle))
  have none : ∀ {file : σ}, Closed (ctxt fat) file w'.server → w'.server.handle ≠ true :=
    fun closed isOpen => Bool.false_ne_true (closed.handle.symm.trans isOpen)
  cases acts with
  | idle alike errors =>
    exact ⟨n, fun _ => uploading.alike alike, .inl rfl,
      ⟨new, sent, fun b mem => absurd mem (no_acks errors b)⟩,
      fun shut => absurd shut (stays alike)⟩
  | again alike mode previous =>
    have number : BitVec.ofNat 16 (n + 1) = BitVec.ofNat 16 n + 1 := BitVec.ofNat_add n 1
    rw [uploading.blknum, number, BitVec.add_left_inj] at previous
    rw [previous, sender] at sent
    exact ⟨n, fun _ => uploading.alike alike, .inl rfl, ⟨_, sent, fun b mem => ack_of_send mem⟩,
      fun shut => absurd shut (stays alike)⟩
  | store written long alike =>
    obtain ⟨-, stored⟩ := uploading.written documented honest written
    rw [uploading.blknum, sender] at sent
    refine ⟨n + 1, fun _ => ?_, .inr ⟨rfl, _, _, rfl, written⟩,
      ⟨_, sent, fun b mem => ack_of_send mem⟩, fun shut => ?_⟩
    · refine ⟨alike.handle.trans uploading.handle, alike.modeWrite.trans uploading.mode,
        alike.peer.trans sender, ?_, alike.lastData.trans uploading.lastData, alike.file ▸ stored⟩
      rw [alike.blknum, uploading.blknum]
      exact (BitVec.ofNat_add (n + 1) 1).symm
    · exact absurd (shut.symm.trans (alike.handle.trans uploading.handle)) Bool.false_ne_true
  | finish written short closed =>
    obtain ⟨payload, stored⟩ := uploading.written documented honest written
    rw [uploading.blknum, sender] at sent
    exact ⟨n + 1, fun isOpen => absurd isOpen (none closed), .inr ⟨rfl, _, _, rfl, written⟩,
      ⟨_, sent, fun b mem => ack_of_send mem⟩,
      fun _ => .complete written (Nat.succ_pos n) payload short stored closed⟩
  | @broken d s' file new written closed errors =>
    have payload : d.payload = block (BitVec.ofNat 16 (n + 1)) := by
      rw [honest d rfl (written.sender.trans sender) written.opcode, written.blknum,
        uploading.blknum]
    exact ⟨n, fun isOpen => absurd isOpen (none closed), .inl rfl,
      ⟨_, sent, fun b mem => absurd mem (no_acks errors b)⟩,
      fun _ => .broken written payload uploading.stored closed⟩
  | next acked => exact absurd (acked.mode.symm.trans writing) Bool.false_ne_true
  | starve acked => exact absurd (acked.mode.symm.trans writing) Bool.false_ne_true
  | unread acked => exact absurd (acked.mode.symm.trans writing) Bool.false_ne_true
  | done acked => exact absurd (acked.mode.symm.trans writing) Bool.false_ne_true
  | retry alike kept =>
    rw [uploading.lastData] at kept
    cases kept
  | expire closed =>
    exact ⟨n, fun isOpen => absurd isOpen (none closed), .inl rfl,
      ⟨[], sent, fun b mem => absurd mem List.not_mem_nil⟩,
      fun _ => .expired uploading.stored closed⟩

/-- After any history a write request that opens its file starts an upload. -/
theorem upload_opens (documented : fat.Documented) {file : σ} {history : List (Room × Event)}
    {w w' : World σ} {room : Room} {d : Datagram}
    (reached : exec (step (ctxt fat)) (tftpInit file) history = some w)
    (fresh : w.server.handle = false) (opcode : d.opcode = 2)
    (next : step (ctxt fat) w (room, .recv d) = some w') (accepted : w'.server.handle = true) :
    Uploading fat d.sender block (fat.contents w'.server.file) 0 w'.server := by
  have none : w.server.lastData = none :=
    (sound_run reached).none_kept fun both => Bool.false_ne_true (fresh.symm.trans both.1)
  obtain ⟨fname, mode, opens, found, rfl⟩ := request_opens true opcode fresh next accepted
  exact ⟨rfl, rfl, rfl, rfl, none,
    ⟨(overwrite_nil _ _).symm, tftpSdcardOpen_ok documented found⟩⟩

/-- An upload from any history on, through loss, repetition and reordering of datagrams, other
peers' datagrams, timeouts and lack of memory: at each place of the run the file has the blocks of
the upload so far over what was there before, only the last of them is acknowledged, and the session
ends with a short block, with a timeout, or with a write that fails. -/
theorem upload_stored (documented : fat.Documented) {file : σ}
    {history events : List (Room × Event)} {w w' t : World σ} {room : Room} {d : Datagram}
    (reached : exec (step (ctxt fat)) (tftpInit file) history = some w)
    (fresh : w.server.handle = false) (opcode : d.opcode = 2) (valid : d.sender.Valid)
    (next : step (ctxt fat) w (room, .recv d) = some w') (accepted : w'.server.handle = true)
    (session : Meets (step (ctxt fat))
      (fun w e => w.server.handle = true ∧ Honest d.sender block e) w' events)
    (run : exec (step (ctxt fat)) w' events = some t) :
    ∃ count, UploadRun fat d.sender block (fat.contents w'.server.file) w' events count := by
  have opens : Uploading fat d.sender block (fat.contents w'.server.file) 0 w'.server :=
    upload_opens documented reached fresh opcode next accepted
  obtain ⟨count, start, going, law⟩ := exec_counts
    (P := fun n t => t.server.handle = true →
      Uploading fat d.sender block (fat.contents w'.server.file) n t.server)
    (R := Uploads fat d.sender block (fat.contents w'.server.file))
    (fun n s e s' going meets next =>
      upload_step documented valid (going meets.1) meets.2 next)
    (fun _ => opens) session run
  exact ⟨count, start, going, law⟩

end Upload

section Short

def writeRequest : Datagram where
  sender := ⟨0x0A000001, 2000⟩
  chain := [[0, 2, 0x66, 0] ++ octet ++ [0]]
  beyond := fun _ => 0

/-- A block of three bytes in two buffers. -/
def shortBlock : Datagram where
  sender := ⟨0x0A000001, 2000⟩
  chain := [[0, 3, 0, 1, 1, 2], [3]]
  beyond := fun _ => 0

def plenty : Room := ⟨true, true⟩

def requested : World (List Byte × Nat) :=
  (step (ctxt memoryFat) (tftpInit ([9, 9, 9, 9], 0)) (plenty, .recv writeRequest)).getD
    (tftpInit ([], 0))

def uploaded : World (List Byte × Nat) :=
  (step (ctxt memoryFat) requested (plenty, .recv shortBlock)).getD (tftpInit ([], 0))

/-- Three bytes over a file of four leave its last one. -/
theorem short_upload_stored : uploaded.server.file.1 = [1, 2, 3, 9] ∧
    ∃ count, UploadRun memoryFat ⟨0x0A000001, 2000⟩ (fun _ => [1, 2, 3]) [9, 9, 9, 9] requested
      [(plenty, .recv shortBlock)] count := by
  have reached : exec (step (ctxt memoryFat)) (tftpInit ([9, 9, 9, 9], 0)) [] =
    some (tftpInit ([9, 9, 9, 9], 0)) := rfl
  have run : exec (step (ctxt memoryFat)) requested [(plenty, .recv shortBlock)] =
    some uploaded := rfl
  have next : step (ctxt memoryFat) (tftpInit ([9, 9, 9, 9], 0)) (plenty, .recv writeRequest) =
    some requested := rfl
  have honest : Honest ⟨0x0A000001, 2000⟩ (fun _ => [1, 2, 3]) (plenty, .recv shortBlock) := by
    rintro d same - -
    obtain rfl := Event.recv.inj same
    rfl
  have session : Meets (step (ctxt memoryFat)) (fun w e => w.server.handle = true ∧
      Honest ⟨0x0A000001, 2000⟩ (fun _ => [1, 2, 3]) e) requested [(plenty, .recv shortBlock)] :=
    And.intro ⟨rfl, honest⟩ fun _ _ => trivial
  exact ⟨rfl, upload_stored memoryFat_documented reached rfl rfl ⟨by decide, by decide⟩ next rfl
    session run⟩

end Short

end PscDigpid.Sw.Tftp
