/- Unit: PscDigpid/Sw/TftpDownload
   layer: result
   source: src/sw/src/tftp_server.c, src/sw/src/tftp_handler.c
   digest: What a download has sent, whatever the network does, and that its end is the file's. -/

import PscDigpid.Sw.TftpHandler
import PscDigpid.Sw.TftpSession

set_option autoImplicit false
set_option relaxedAutoImplicit false

namespace PscDigpid.Sw.Tftp

open PscDigpid.Sync

/-- A block of a file, the first one of which has number zero here. -/
def chunk (contents : List Byte) (k : Nat) : List Byte := (contents.drop (512 * k)).take 512

section Chunks

variable {contents : List Byte} {k n : Nat}

theorem length_chunk : (chunk contents k).length = min 512 (contents.length - 512 * k) := by
  rw [chunk, List.length_take, List.length_drop]

theorem chunks_flatMap (n : Nat) :
    (List.range n).flatMap (chunk contents) = contents.take (512 * n) := by
  induction n with
  | zero => rfl
  | succ n ih =>
    rw [List.range_succ, List.flatMap_append, List.flatMap_singleton, ih, chunk, Nat.mul_succ,
      List.take_add]

end Chunks

section Download

variable {σ : Type} (fat : FatFs σ) (peer : Peer) (contents : List Byte)

/-- The data packets to the peer are among the first `m` blocks, each under its own number. -/
def DataUpTo (m : Nat) (new : List Sent) : Prop :=
  ∀ b bytes, (peer, Packet.data b bytes) ∈ new →
    ∃ k, k < m ∧ b = BitVec.ofNat 16 (k + 1) ∧ bytes = chunk contents k

/-- The block has been sent. -/
def Passed (new : List Sent) (k : Nat) : Prop :=
  (peer, Packet.data (BitVec.ofNat 16 (k + 1)) (chunk contents k)) ∈ new

/-- The peer acknowledges only blocks that have been sent since the place `start` of the log. -/
def Causal (start : Nat) (w : World σ) (e : Room × Event) : Prop :=
  ∀ d, e.2 = .recv d → d.sender = peer → d.opcode = 4 →
    ∃ bytes, (peer, Packet.data (d.word 1) bytes) ∈ w.sent.drop start

/-- A download at its block `n`, which is kept, or for which there was no memory. -/
structure Downloading (n : Nat) (new : List Sent) (s : State σ) : Prop where
  handle : s.handle = true
  mode : s.modeWrite = false
  served : s.peer = peer
  blknum : s.blknum = BitVec.ofNat 16 (n + 1)
  image : fat.contents s.file = contents
  within : 512 * n ≤ contents.length
  kept : (s.lastData = some ⟨BitVec.ofNat 16 (n + 1), chunk contents n⟩ ∧
      fat.fptr s.file = 512 * n + (chunk contents n).length ∧
        DataUpTo peer contents (n + 1) new) ∨
    (s.lastData = none ∧ fat.fptr s.file = 512 * n ∧ DataUpTo peer contents n new)
  passed : ∀ k, k < n → Passed peer contents new k

/-- The kept block of a download is at the peer, and so are those before. -/
structure Acknowledged (n : Nat) (new : List Sent) (s : State σ) : Prop where
  lastData : s.lastData = some ⟨BitVec.ofNat 16 (n + 1), chunk contents n⟩
  fptr : fat.fptr s.file = 512 * n + (chunk contents n).length
  sound : DataUpTo peer contents (n + 1) new
  passed : ∀ k, k < n + 1 → Passed peer contents new k

/-- How an event ends a download at its block `n`: with the acknowledgement of this block, which is
shorter than the others, when all blocks have been sent and are the file, with a timeout, or with an
acknowledgement after which the next block cannot be read. -/
inductive DownloadEnds (n : Nat) (new : List Sent) (s s' : State σ) : Event → Prop
  | complete {d : Datagram} (acked : Acked s d) (short : (chunk contents n).length < 512)
      (passed : ∀ k, k < n + 1 → Passed peer contents new k)
      (whole : (List.range (n + 1)).flatMap (chunk contents) = contents)
      (closed : Closed (ctxt fat) s.file s') : DownloadEnds n new s s' (.recv d)
  | expired (closed : Closed (ctxt fat) s.file s') : DownloadEnds n new s s' .tmr
  | unread {d : Datagram} {file : σ} (acked : Acked s d)
      (failed : fat.fRead s.file 512 = (none, file)) (closed : Closed (ctxt fat) file s') :
      DownloadEnds n new s s' (.recv d)

/-- What an event does to a download at its block `n`, which is at block `m` then: the peer gets no
other block than this one, and the next one only after the acknowledgement of the one before. -/
structure Downloads (start n m : Nat) (e : Room × Event) (w w' : World σ) : Prop where
  count : m = n ∨ m = n + 1 ∧ ∃ d, e.2 = .recv d ∧ Acked w.server d
  data : ∃ more, w'.sent = w.sent ++ more ∧ ∀ b bytes, (peer, Packet.data b bytes) ∈ more →
    b = BitVec.ofNat 16 (m + 1) ∧ bytes = chunk contents m
  ends : w'.server.handle = false →
    DownloadEnds fat peer contents n (w.sent.drop start) w.server w'.server e.2

/-- A download, open or at its end, with what is in the log from the place `start` on. -/
structure Download (start n : Nat) (w : World σ) : Prop where
  logged : start ≤ w.sent.length
  sound : DataUpTo peer contents (n + 1) (w.sent.drop start)
  going : w.server.handle = true → Downloading fat peer contents n (w.sent.drop start) w.server

/-- A run of a download: at which block it is at each place, and how it comes there. -/
structure DownloadRun (start : Nat) (w : World σ) (events : List (Room × Event))
    (count : Nat → Nat) : Prop where
  first : count 0 = 0
  holds : ∀ i t, exec (step (ctxt fat)) w (events.take i) = some t →
    Download fat peer contents start (count i) t
  next : ∀ i e t t', events[i]? = some e → exec (step (ctxt fat)) w (events.take i) = some t →
    step (ctxt fat) t e = some t' →
      Downloads fat peer contents start (count i) (count (i + 1)) e t t'

variable {fat peer contents}

theorem no_data {new : List Sent} (errors : Errors new) (b : BitVec 16) (bytes : List Byte) :
    (peer, Packet.data b bytes) ∉ new := by
  intro mem
  obtain ⟨code, str, impossible⟩ := errors _ mem
  cases impossible

theorem data_of_send {room : Room} {a b : BitVec 16} {block bytes : List Byte}
    (mem : (peer, Packet.data b bytes) ∈ send room peer (.data a block)) :
    b = a ∧ bytes = block := by
  rw [send] at mem
  split_ifs at mem
  · exact Packet.data.inj (Prod.mk.inj (List.mem_singleton.1 mem)).2
  · cases mem

theorem dataUpTo_errors {new : List Sent} (errors : Errors new) (m : Nat) :
    DataUpTo peer contents m new :=
  fun b bytes mem => absurd mem (no_data errors b bytes)

theorem dataUpTo_send {room : Room} {k m : Nat} (lt : k < m) :
    DataUpTo peer contents m
      (send room peer (.data (BitVec.ofNat 16 (k + 1)) (chunk contents k))) := by
  intro b bytes mem
  obtain ⟨number, block⟩ := data_of_send mem
  exact ⟨k, lt, number, block⟩

theorem DataUpTo.append {new more : List Sent} {m n : Nat} (first : DataUpTo peer contents m new)
    (le : m ≤ n) (second : DataUpTo peer contents n more) :
    DataUpTo peer contents n (new ++ more) := by
  intro b bytes mem
  obtain early | late := List.mem_append.1 mem
  · obtain ⟨k, lt, same⟩ := first b bytes early
    exact ⟨k, Nat.lt_of_lt_of_le lt le, same⟩
  · exact second b bytes late

theorem Downloading.sound {n : Nat} {new : List Sent} {s : State σ}
    (downloading : Downloading fat peer contents n new s) :
    DataUpTo peer contents (n + 1) new := by
  obtain ⟨-, -, sound⟩ | ⟨-, -, sound⟩ := downloading.kept
  · exact sound
  · intro b bytes mem
    obtain ⟨k, lt, same⟩ := sound b bytes mem
    exact ⟨k, Nat.lt_succ_of_lt lt, same⟩

/-- Block numbers do not come again in a file of less than 65535 blocks. -/
theorem ofNat_inj {k n : Nat} (first : k < 65535) (second : n < 65535)
    (same : BitVec.ofNat 16 (k + 1) = BitVec.ofNat 16 (n + 1)) : k = n := by
  have numbers := congrArg BitVec.toNat same
  rw [BitVec.toNat_ofNat, BitVec.toNat_ofNat, Nat.mod_eq_of_lt (by omega),
    Nat.mod_eq_of_lt (by omega)] at numbers
  exact Nat.succ.inj numbers

/-- What an acknowledgement that is heeded says: its block is kept and has been sent. -/
theorem Downloading.acked (few : contents.length < 512 * 65535) {n start : Nat} {w : World σ}
    (downloading : Downloading fat peer contents n (w.sent.drop start) w.server) {room : Room}
    {d : Datagram} (causal : Causal peer start w (room, .recv d)) (acked : Acked w.server d) :
    Acknowledged fat peer contents n (w.sent.drop start) w.server := by
  have within := downloading.within
  obtain ⟨bytes, sent⟩ := causal d rfl (acked.sender.trans downloading.served) acked.opcode
  rw [acked.blknum, downloading.blknum] at sent
  obtain ⟨lastData, fptr, sound⟩ | ⟨-, -, sound⟩ := downloading.kept
  · refine ⟨lastData, fptr, sound, fun k lt => ?_⟩
    obtain before | rfl := Nat.lt_succ_iff_lt_or_eq.1 lt
    · exact downloading.passed k before
    · obtain ⟨i, lt, same, rfl⟩ := sound _ _ sent
      obtain rfl := ofNat_inj (by omega) (by omega) same
      exact sent
  · obtain ⟨i, lt, same, -⟩ := sound _ _ sent
    have equal := ofNat_inj (by omega) (by omega) same
    omega

theorem Downloading.alike {n : Nat} {new more : List Sent} {s s' : State σ}
    (downloading : Downloading fat peer contents n new s) (alike : Alike s s')
    (kept : (s.lastData = some ⟨BitVec.ofNat 16 (n + 1), chunk contents n⟩ ∧
        DataUpTo peer contents (n + 1) more) ∨ s.lastData = none ∧ DataUpTo peer contents n more) :
    Downloading fat peer contents n (new ++ more) s' where
  handle := alike.handle.trans downloading.handle
  mode := alike.modeWrite.trans downloading.mode
  served := alike.peer.trans downloading.served
  blknum := alike.blknum.trans downloading.blknum
  image := by
    rw [alike.file]
    exact downloading.image
  within := downloading.within
  kept := by
    rw [alike.lastData, alike.file]
    obtain ⟨some, fptr, sound⟩ | ⟨none, fptr, sound⟩ := downloading.kept
    · obtain ⟨-, fresh⟩ | ⟨none, -⟩ := kept
      · exact .inl ⟨some, fptr, sound.append (Nat.le_refl _) fresh⟩
      · rw [none] at some
        cases some
    · obtain ⟨some, -⟩ | ⟨-, fresh⟩ := kept
      · rw [some] at none
        cases none
      · exact .inr ⟨none, fptr, sound.append (Nat.le_refl _) fresh⟩
  passed k lt := List.mem_append_left more (downloading.passed k lt)

theorem lastpkt_iff {s : State σ} {d : LastData} (kept : s.lastData = some d) :
    lastpkt s = true ↔ d.bytes.length ≠ 512 := by
  simp only [lastpkt, kept, tftpHeaderLength, tftpMaxPayloadSize, bne_iff_ne]
  omega

section Next

variable {n : Nat} {new : List Sent} {s s' : State σ}

/-- A block that is not the last is a whole one. -/
theorem Acknowledged.whole (acked : Acknowledged fat peer contents n new s)
    (full : lastpkt s = false) :
    (chunk contents n).length = 512 ∧ 512 * (n + 1) ≤ contents.length := by
  have length : (chunk contents n).length = 512 := not_not.1 fun other =>
    Bool.false_ne_true (full.symm.trans ((lastpkt_iff acked.lastData).2 other))
  have some := length
  rw [length_chunk] at some
  exact ⟨length, by omega⟩

/-- The last block is shorter, and with it the blocks are the file. -/
theorem Acknowledged.last (acked : Acknowledged fat peer contents n new s)
    (last : lastpkt s = true) :
    (chunk contents n).length < 512 ∧
      (List.range (n + 1)).flatMap (chunk contents) = contents := by
  have length := (lastpkt_iff acked.lastData).1 last
  rw [length_chunk] at length
  constructor
  · rw [length_chunk]
    omega
  · rw [chunks_flatMap]
    exact List.take_of_length_le (by omega)

theorem Downloading.number (downloading : Downloading fat peer contents n new s) :
    s.blknum + 1 = BitVec.ofNat 16 (n + 1 + 1) := by
  rw [downloading.blknum]
  exact (BitVec.ofNat_add (n + 1) 1).symm

/-- What is read after an acknowledgement is the next block. -/
theorem Acknowledged.reads (documented : fat.Documented)
    (acked : Acknowledged fat peer contents n new s)
    (downloading : Downloading fat peer contents n new s) (full : lastpkt s = false)
    {bytes : List Byte} {file : σ} (read : fat.fRead s.file 512 = (some bytes, file)) :
    bytes = chunk contents (n + 1) ∧ fat.contents file = contents ∧
      fat.fptr file = 512 * (n + 1) + (chunk contents (n + 1)).length := by
  obtain ⟨length, -⟩ := acked.whole full
  obtain ⟨got, image, moved⟩ := documented.reads _ _ _ _ read
  have block : bytes = chunk contents (n + 1) := by
    rw [got, downloading.image, acked.fptr, length, chunk, Nat.mul_succ]
  refine ⟨block, image.trans downloading.image, moved.trans ?_⟩
  rw [block, acked.fptr, length, Nat.mul_succ]

/-- The download is at the next block, which has gone out. -/
theorem Downloading.next (downloading : Downloading fat peer contents n new s)
    (acked : Acknowledged fat peer contents n new s) (full : lastpkt s = false) {file : σ}
    (image : fat.contents file = contents)
    (fptr : fat.fptr file = 512 * (n + 1) + (chunk contents (n + 1)).length)
    (alike : Alike { s with
      file := file
      blknum := BitVec.ofNat 16 (n + 1 + 1)
      lastData := some ⟨BitVec.ofNat 16 (n + 1 + 1), chunk contents (n + 1)⟩ } s')
    {more : List Sent} (fresh : DataUpTo peer contents (n + 1 + 1) more) :
    Downloading fat peer contents (n + 1) (new ++ more) s' where
  handle := alike.handle.trans downloading.handle
  mode := alike.modeWrite.trans downloading.mode
  served := alike.peer.trans downloading.served
  blknum := alike.blknum
  image := by
    rw [alike.file]
    exact image
  within := (acked.whole full).2
  kept := by
    refine .inl ⟨alike.lastData, ?_, acked.sound.append (Nat.le_succ _) fresh⟩
    rw [alike.file]
    exact fptr
  passed k lt := List.mem_append_left _ (acked.passed k lt)

/-- The download is at the next block, for which there was no memory. -/
theorem Downloading.starved (downloading : Downloading fat peer contents n new s)
    (acked : Acknowledged fat peer contents n new s) (full : lastpkt s = false)
    (alike : Alike { s with blknum := s.blknum + 1, lastData := none } s') :
    Downloading fat peer contents (n + 1) (new ++ []) s' where
  handle := alike.handle.trans downloading.handle
  mode := alike.modeWrite.trans downloading.mode
  served := alike.peer.trans downloading.served
  blknum := alike.blknum.trans downloading.number
  image := by
    rw [alike.file]
    exact downloading.image
  within := (acked.whole full).2
  kept := by
    rw [List.append_nil]
    refine .inr ⟨alike.lastData, ?_, acked.sound⟩
    rw [alike.file]
    exact acked.fptr.trans (by rw [(acked.whole full).1, Nat.mul_succ])
  passed k lt := List.mem_append_left _ (acked.passed k lt)

end Next

/-- An event after which the download is still at a block. -/
theorem Download.next {start n m : Nat} {w w' : World σ} {more : List Sent}
    (download : Download fat peer contents start n w) (sent : w'.sent = w.sent ++ more)
    (le : n ≤ m) (fresh : DataUpTo peer contents (m + 1) more)
    (going : w'.server.handle = true →
      Downloading fat peer contents m (w.sent.drop start ++ more) w'.server) :
    Download fat peer contents start m w' := by
  have log : w'.sent.drop start = w.sent.drop start ++ more := by
    rw [sent, List.drop_append_of_le_length download.logged]
  refine ⟨?_, ?_, ?_⟩
  · rw [sent, List.length_append]
    exact Nat.le_add_right_of_le download.logged
  · rw [log]
    exact download.sound.append (Nat.succ_le_succ le) fresh
  · rw [log]
    exact going

/-- One event of an open download. -/
theorem download_step (documented : fat.Documented) (valid : peer.Valid)
    (few : contents.length < 512 * 65535) {n start : Nat} {w w' : World σ} {e : Room × Event}
    (download : Download fat peer contents start n w) (isOpen : w.server.handle = true)
    (causal : Causal peer start w e) (next : step (ctxt fat) w e = some w') :
    ∃ m, Download fat peer contents start m w' ∧
      Downloads fat peer contents start n m e w w' := by
  have downloading := download.going isOpen
  have served : w.server.peer = peer := downloading.served
  obtain ⟨more, sent, acts⟩ := step_acts downloading.handle (served ▸ valid) next
  obtain ⟨room, event⟩ := e
  dsimp only at acts
  have reading := downloading.mode
  have stays : ∀ {s s' : State σ}, Alike s s' → s.handle = true → s'.handle ≠ false :=
    fun alike before shut => Bool.false_ne_true (shut.symm.trans (alike.handle.trans before))
  have ended : ∀ {file : σ}, Closed (ctxt fat) file w'.server → w'.server.handle ≠ true :=
    fun closed after => Bool.false_ne_true (closed.handle.symm.trans after)
  cases acts with
  | idle alike errors =>
    refine ⟨n, download.next sent (Nat.le_refl n) (dataUpTo_errors errors _) fun _ => ?_, .inl rfl,
      ⟨more, sent, fun b bytes mem => absurd mem (no_data errors b bytes)⟩,
      fun shut => absurd shut (stays alike isOpen)⟩
    refine downloading.alike alike ?_
    obtain ⟨some, -⟩ | ⟨none, -⟩ := downloading.kept
    · exact .inl ⟨some, dataUpTo_errors errors _⟩
    · exact .inr ⟨none, dataUpTo_errors errors _⟩
  | again alike mode => exact absurd (reading.symm.trans mode) Bool.false_ne_true
  | store written => exact absurd (reading.symm.trans written.mode) Bool.false_ne_true
  | finish written => exact absurd (reading.symm.trans written.mode) Bool.false_ne_true
  | broken written => exact absurd (reading.symm.trans written.mode) Bool.false_ne_true
  | @next d s' file bytes acked full read alike =>
    have there := downloading.acked few causal acked
    obtain ⟨rfl, image, fptr⟩ := there.reads documented downloading full read
    rw [downloading.number] at alike sent
    rw [served] at sent
    have fresh : DataUpTo peer contents (n + 1 + 1)
        (send room peer (.data (BitVec.ofNat 16 (n + 1 + 1)) (chunk contents (n + 1)))) :=
      dataUpTo_send (Nat.lt_succ_self (n + 1))
    exact ⟨n + 1, download.next sent (Nat.le_succ n) fresh
        fun _ => downloading.next there full image fptr alike fresh,
      .inr ⟨rfl, d, rfl, acked⟩, ⟨_, sent, fun b bytes mem => data_of_send mem⟩,
      fun shut => absurd shut (stays alike isOpen)⟩
  | @starve d s' acked full alike =>
    have there := downloading.acked few causal acked
    exact ⟨n + 1, download.next sent (Nat.le_succ n) (dataUpTo_errors errors_nil _)
        fun _ => downloading.starved there full alike,
      .inr ⟨rfl, d, rfl, acked⟩, ⟨[], sent, fun b bytes mem => absurd mem List.not_mem_nil⟩,
      fun shut => absurd shut (stays alike isOpen)⟩
  | unread acked full read closed errors =>
    exact ⟨n, download.next sent (Nat.le_refl n) (dataUpTo_errors errors _)
        fun after => absurd after (ended closed), .inl rfl,
      ⟨more, sent, fun b bytes mem => absurd mem (no_data errors b bytes)⟩,
      fun _ => .unread acked read closed⟩
  | @done d s' acked last closed =>
    have there := downloading.acked few causal acked
    obtain ⟨short, whole⟩ := there.last last
    exact ⟨n, download.next sent (Nat.le_refl n) (dataUpTo_errors errors_nil _)
        fun after => absurd after (ended closed), .inl rfl,
      ⟨[], sent, fun b bytes mem => absurd mem List.not_mem_nil⟩,
      fun _ => .complete acked short there.passed whole closed⟩
  | @retry s' d alike kept =>
    obtain ⟨some, -, -⟩ | ⟨none, -, -⟩ := downloading.kept
    · obtain rfl := Option.some.inj (some.symm.trans kept)
      rw [served] at sent
      have again : DataUpTo peer contents (n + 1)
          (send room peer (.data (BitVec.ofNat 16 (n + 1)) (chunk contents n))) :=
        dataUpTo_send (Nat.lt_succ_self n)
      exact ⟨n, download.next sent (Nat.le_refl n) again
          fun _ => downloading.alike alike (.inl ⟨some, again⟩), .inl rfl,
        ⟨_, sent, fun b bytes mem => data_of_send mem⟩,
        fun shut => absurd shut (stays alike isOpen)⟩
    · rw [none] at kept
      cases kept
  | expire closed =>
    exact ⟨n, download.next sent (Nat.le_refl n) (dataUpTo_errors errors_nil _)
        fun after => absurd after (ended closed), .inl rfl,
      ⟨[], sent, fun b bytes mem => absurd mem List.not_mem_nil⟩, fun _ => .expired closed⟩

/-- After any history a read request that opens its file starts a download. -/
theorem download_opens (documented : fat.Documented) {w w' : World σ} {room : Room} {d : Datagram}
    (fresh : w.server.handle = false) (opcode : d.opcode = 1)
    (next : step (ctxt fat) w (room, .recv d) = some w') (accepted : w'.server.handle = true) :
    w.sent.length ≤ w'.sent.length ∧
      Downloading fat d.sender (fat.contents w'.server.file) 0 (w'.sent.drop w.sent.length)
        w'.server := by
  obtain ⟨fname, mode, opens, found, rfl⟩ := request_opens false opcode fresh next accepted
  have start : fat.fptr opens = 0 := tftpSdcardOpen_ok documented found
  simp only [Bool.false_eq_true, if_false] at accepted ⊢
  rw [List.drop_left, List.length_append]
  refine ⟨Nat.le_add_right _ _, ?_⟩
  cases memory : room.data with
  | false =>
    simp only [sendData, memory, Bool.false_eq_true, if_false]
    refine ⟨rfl, rfl, rfl, rfl, rfl, Nat.zero_le _, .inr ⟨rfl, start, ?_⟩, fun k impossible => ?_⟩
    · exact dataUpTo_errors errors_nil 0
    · exact absurd impossible (Nat.not_lt_zero k)
  | true =>
    obtain ⟨⟨bytes, file⟩, read⟩ : ∃ r, fat.fRead opens 512 = r := ⟨_, rfl⟩
    have heard : (ctxt fat).readFile (opened w.server d.sender opens false).file
      tftpMaxPayloadSize = (bytes, file) := read
    simp only [sendData, memory, heard, if_true] at accepted ⊢
    cases bytes with
    | none => exact absurd accepted Bool.false_ne_true
    | some bytes =>
      obtain ⟨got, image, moved⟩ := documented.reads _ _ _ _ read
      have block : bytes = chunk (fat.contents file) 0 := by
        rw [got, image, start, chunk]
      refine ⟨rfl, rfl, rfl, rfl, rfl, Nat.zero_le _, .inl ⟨?_, ?_, ?_⟩, fun k impossible => ?_⟩
      · rw [← block]
        rfl
      · rw [← block]
        exact moved.trans (by rw [start])
      · rw [block]
        exact dataUpTo_send Nat.one_pos
      · exact absurd impossible (Nat.not_lt_zero k)

/-- A download that starts at any time, through loss, repetition and reordering of datagrams, other
peers' datagrams, timeouts and lack of memory: every data packet to the peer is a block of the file
under its own number, the next one is sent only after the acknowledgement of the one before, and the
session ends with the acknowledgement of the last block, when all of the file has been sent, with a
timeout, or with a read that fails. -/
theorem download_sent (documented : fat.Documented) {events : List (Room × Event)}
    {w w' t : World σ} {room : Room} {d : Datagram}
    (fresh : w.server.handle = false) (opcode : d.opcode = 1) (valid : d.sender.Valid)
    (next : step (ctxt fat) w (room, .recv d) = some w') (accepted : w'.server.handle = true)
    (few : (fat.contents w'.server.file).length < 512 * 65535)
    (session : Meets (step (ctxt fat))
      (fun v e => v.server.handle = true ∧ Causal d.sender w.sent.length v e) w' events)
    (run : exec (step (ctxt fat)) w' events = some t) :
    ∃ count, DownloadRun fat d.sender (fat.contents w'.server.file) w.sent.length w' events
      count := by
  obtain ⟨logged, downloading⟩ := download_opens documented fresh opcode next accepted
  have opens : Download fat d.sender (fat.contents w'.server.file) w.sent.length 0 w' :=
    ⟨logged, downloading.sound, fun _ => downloading⟩
  obtain ⟨count, first, holds, law⟩ := exec_counts
    (P := Download fat d.sender (fat.contents w'.server.file) w.sent.length)
    (R := Downloads fat d.sender (fat.contents w'.server.file) w.sent.length)
    (fun n s e s' download meets next =>
      download_step documented valid few download meets.1 meets.2 next)
    opens session run
  exact ⟨count, first, holds, law⟩

end Download

section Short

def readRequest : Datagram where
  sender := ⟨0x0A000001, 2000⟩
  chain := [[0, 1, 0x66, 0] ++ octet ++ [0]]
  beyond := fun _ => 0

def firstAck : Datagram where
  sender := ⟨0x0A000001, 2000⟩
  chain := [[0, 4, 0, 1]]
  beyond := fun _ => 0

def idleServer : World (List Byte × Nat) := tftpInit ([7, 8, 9], 0)

def served : World (List Byte × Nat) :=
  (step (ctxt memoryFat) idleServer (⟨true, true⟩, .recv readRequest)).getD idleServer

def downloaded : World (List Byte × Nat) :=
  (step (ctxt memoryFat) served (⟨true, true⟩, .recv firstAck)).getD idleServer

/-- A file of three bytes is one block, and its acknowledgement the end. -/
theorem short_download_sent :
    downloaded.sent = [(⟨0x0A000001, 2000⟩, .data 1 [7, 8, 9])] ∧
      ∃ count, DownloadRun memoryFat ⟨0x0A000001, 2000⟩ [7, 8, 9] 0 served
        [(⟨true, true⟩, .recv firstAck)] count := by
  have next : step (ctxt memoryFat) idleServer (⟨true, true⟩, .recv readRequest) = some served :=
    rfl
  have run : exec (step (ctxt memoryFat)) served [(⟨true, true⟩, .recv firstAck)] =
    some downloaded := rfl
  have causal : Causal ⟨0x0A000001, 2000⟩ 0 served (⟨true, true⟩, .recv firstAck) := by
    rintro d same - -
    obtain rfl := Event.recv.inj same
    exact ⟨[7, 8, 9], List.mem_singleton_self _⟩
  have session : Meets (step (ctxt memoryFat)) (fun w e => w.server.handle = true ∧
      Causal ⟨0x0A000001, 2000⟩ 0 w e) served [(⟨true, true⟩, .recv firstAck)] :=
    And.intro ⟨rfl, causal⟩ fun _ _ => trivial
  exact ⟨rfl, download_sent memoryFat_documented rfl rfl ⟨by decide, by decide⟩ next rfl (by decide)
    session run⟩

end Short

end PscDigpid.Sw.Tftp
