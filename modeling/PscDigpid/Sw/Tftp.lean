/- Unit: PscDigpid/Sw/Tftp
   layer: model
   source: src/sw/src/tftp_server.c, src/sw/src/tftp_opts.h
   digest: The TFTP server as a machine: datagrams and ticks in, callbacks and datagrams out. -/

import PscDigpid.Sync.Exec

set_option autoImplicit false
set_option relaxedAutoImplicit false

namespace PscDigpid.Sw.Tftp

open PscDigpid.Sync

abbrev Byte := BitVec 8

/-- The callbacks of `tftp_context`, over the state behind them. A read that fails has no bytes. -/
structure Context (φ : Type) where
  openFile : φ → List Byte → List Byte → Bool → Bool × φ
  closeFile : φ → φ
  readFile : φ → Nat → Option (List Byte) × φ
  writeFile : φ → List (List Byte) → Bool × φ

/-- The sender of a datagram. -/
structure Peer where
  addr : BitVec 32
  port : BitVec 16
  deriving DecidableEq

/-- A received datagram: a chain of buffers, and the memory behind the first of them, which the
server reads where the buffer is too short. -/
structure Datagram where
  sender : Peer
  chain : List (List Byte)
  beyond : Nat → Byte

inductive TftpError
  | fileNotFound | accessViolation | diskFull | illegalOperation | unknownTrfrId | fileExists
  | noSuchUser
  deriving DecidableEq

/-- What the server sends. -/
inductive Packet
  | error (code : TftpError) (str : String)
  | ack (blknum : BitVec 16)
  | data (blknum : BitVec 16) (bytes : List Byte)
  deriving DecidableEq

abbrev Sent := Peer × Packet

/-- A data packet that is kept for another try. -/
structure LastData where
  blknum : BitVec 16
  bytes : List Byte

/-- The static `tftp_state`, the state behind its callbacks, and the number of armed timers. -/
structure State (φ : Type) where
  file : φ
  handle : Bool
  lastData : Option LastData
  peer : Peer
  timer : Nat
  lastPkt : Nat
  blknum : BitVec 16
  retries : BitVec 8
  modeWrite : Bool
  timeouts : Nat

/-- Whether there is memory for a datagram to send, and for a data packet to keep. -/
structure Room where
  send : Bool
  data : Bool

def tftpMaxPayloadSize : Nat := 512

def tftpHeaderLength : Nat := 4

/-- `sizeof(filename)`, with its end. -/
def sizeofFilename : Nat := 21

/-- `sizeof(mode)`, with its end. -/
def sizeofMode : Nat := 8

def tftpMaxRetries : BitVec 8 := 5

/-- The timeout in ticks of the timer. -/
def timeoutTicks : Nat := 10

namespace Datagram

variable (d : Datagram)

def bytes : List Byte := d.chain.flatten

/-- A byte at the payload pointer of the first buffer. -/
def byteAt (i : Nat) : Byte := (d.chain.headD [])[i]?.getD (d.beyond i)

/-- A word of the packet, in network order. -/
def word (k : Nat) : BitVec 16 := d.byteAt (2 * k) ++ d.byteAt (2 * k + 1)

def opcode : BitVec 16 := d.word 0

/-- `pbuf_memfind` of a zero byte. -/
def memfind (start : Nat) : BitVec 16 :=
  match (d.bytes.drop start).findIdx? (· == 0) with
  | some i => BitVec.ofNat 16 (start + i)
  | none => 0xFFFF

/-- `pbuf_copy_partial`. -/
def copyPartial (len offset : Nat) : List Byte := (d.bytes.drop offset).take len

/-- The chain without the header, which stays where the first buffer is too short for it. -/
def removeHeader : List (List Byte) :=
  match d.chain with
  | [] => []
  | first :: rest =>
      (if tftpHeaderLength ≤ first.length then first.drop tftpHeaderLength else first) :: rest

def payload : List Byte := d.removeHeader.flatten

/-- The file name and the mode of a request, with their ends, or what is answered instead. -/
def parse : Except String (List Byte × List Byte) :=
  let filenameEnd := d.memfind 2
  if sizeofFilename < (filenameEnd - 1).toNat then .error "Filename too long/not NULL terminated"
  else
    let filename := d.copyPartial (filenameEnd - 1).toNat 2
    let modeEnd := d.memfind (filenameEnd + 1).toNat
    if sizeofMode < (modeEnd - filenameEnd).toNat then .error "Mode too long/not NULL terminated"
    else .ok (filename, d.copyPartial (modeEnd - filenameEnd).toNat (filenameEnd + 1).toNat)

end Datagram

/-- A buffer as a C string. -/
def cString (buffer : List Byte) : List Byte := buffer.takeWhile (· != 0)

section Server

variable {φ : Type} (ctx : Context φ) (room : Room) (s : State φ)

/-- The state after `close_handle`; of the armed timers one is taken out. -/
def closeHandle : State φ :=
  { s with
    peer := ⟨0, 0⟩
    lastData := none
    timeouts := s.timeouts - 1
    file := if s.handle then ctx.closeFile s.file else s.file
    handle := false }

def send (recipient : Peer) (p : Packet) : List Sent := if room.send then [(recipient, p)] else []

def sendError (recipient : Peer) (code : TftpError) (str : String) : List Sent :=
  send room recipient (.error code str)

def sendAck (blknum : BitVec 16) : List Sent := send room s.peer (.ack blknum)

def resendData : List Sent :=
  match s.lastData with
  | none => []
  | some d => send room s.peer (.data d.blknum d.bytes)

def sendData : State φ × List Sent :=
  if room.data then
    match ctx.readFile s.file tftpMaxPayloadSize with
    | (none, file) =>
        (closeHandle ctx { s with file := file },
          sendError room s.peer .accessViolation "Error occurred while reading the file.")
    | (some bytes, file) =>
        let s := { s with file := file, lastData := some ⟨s.blknum, bytes⟩ }
        (s, resendData room s)
  else ({ s with lastData := none }, [])

/-- A read or a write request; the timer is armed before anything is checked. -/
def recvRequest (d : Datagram) (write : Bool) : State φ × List Sent :=
  if s.handle then
    (s, sendError room d.sender .accessViolation "Only one connection at a time is supported")
  else
    let s := { s with timeouts := s.timeouts + 1 }
    match d.parse with
    | .error str => (s, sendError room d.sender .accessViolation str)
    | .ok (filename, mode) =>
        match ctx.openFile s.file (cString filename) (cString mode) write with
        | (false, file) =>
            ({ s with file := file, blknum := 1 },
              sendError room d.sender .fileNotFound "Unable to open requested file.")
        | (true, file) =>
            let s :=
              { s with
                file := file, handle := true, blknum := 1, peer := d.sender, modeWrite := write }
            if write then (s, sendAck room s 0) else sendData ctx room s

def recvData (d : Datagram) : State φ × List Sent :=
  if !s.handle then (s, sendError room d.sender .accessViolation "No connection")
  else if !s.modeWrite then (s, sendError room d.sender .accessViolation "Not a write connection")
  else
    let blknum := d.word 1
    if blknum = s.blknum then
      let written := ctx.writeFile s.file d.removeHeader
      let s := { s with file := written.2 }
      let sent :=
        if written.1 then sendAck room s blknum
        else sendError room d.sender .accessViolation "error writing file"
      let s := if written.1 then s else closeHandle ctx s
      -- a short block ends the file, also where the write has failed
      (if d.payload.length < tftpMaxPayloadSize then closeHandle ctx s
        else { s with blknum := s.blknum + 1 }, sent)
    else if blknum + 1 = s.blknum then (s, sendAck room s blknum)
    else (s, sendError room d.sender .unknownTrfrId "Wrong block number")

/-- The kept packet is the last one of its file. -/
def lastpkt : Bool :=
  match s.lastData with
  | none => false
  | some d => tftpHeaderLength + d.bytes.length != tftpMaxPayloadSize + tftpHeaderLength

def recvAck (d : Datagram) : State φ × List Sent :=
  if !s.handle then (s, sendError room d.sender .accessViolation "No connection")
  else if s.modeWrite then (s, sendError room d.sender .accessViolation "Not a read connection")
  else if d.word 1 ≠ s.blknum then
    (s, sendError room d.sender .unknownTrfrId "Wrong block number")
  else if lastpkt s then (closeHandle ctx s, [])
  else sendData ctx room { s with blknum := s.blknum + 1 }

/-- The datagram comes from someone else than the peer of the session. -/
def foreign (sender : Peer) : Bool :=
  (s.peer.port != 0 && sender.port != s.peer.port) ||
    (s.peer.addr != 0 && sender.addr != s.peer.addr)

def recv (d : Datagram) : State φ × List Sent :=
  if foreign s d.sender then
    (s, sendError room d.sender .accessViolation "Only one connection at a time is supported")
  else
    let s := { s with lastPkt := s.timer, retries := 0 }
    if d.opcode = 1 then recvRequest ctx room s d false
    else if d.opcode = 2 then recvRequest ctx room s d true
    else if d.opcode = 3 then recvData ctx room s d
    else if d.opcode = 4 then recvAck ctx room s d
    else (s, sendError room d.sender .illegalOperation "Unknown operation")

def tftpTmr : State φ × List Sent :=
  let s := { s with timer := s.timer + 1 }
  if !s.handle then (s, [])
  else
    let s := { s with timeouts := s.timeouts + 1 }
    if timeoutTicks < s.timer - s.lastPkt then
      if s.lastData.isSome && s.retries < tftpMaxRetries then
        ({ s with retries := s.retries + 1 }, resendData room s)
      else (closeHandle ctx s, [])
    else (s, [])

end Server

/-- What the server waits for. -/
inductive Event
  | recv (d : Datagram)
  | tmr

section Runs

variable {φ : Type}

/-- The server, and all that it has sent. -/
structure World (φ : Type) where
  server : State φ
  sent : List Sent

/-- One event, with the memory there is at that time; a tick takes an armed timer. -/
def step (ctx : Context φ) (w : World φ) (e : Room × Event) : Option (World φ) :=
  match e.2 with
  | .recv d =>
      let (s, sent) := recv ctx e.1 w.server d
      some ⟨s, w.sent ++ sent⟩
  | .tmr =>
      if w.server.timeouts = 0 then none
      else
        let (s, sent) := tftpTmr ctx e.1 { w.server with timeouts := w.server.timeouts - 1 }
        some ⟨s, w.sent ++ sent⟩

/-- The state that `tftp_init` leaves. -/
def tftpInit (file : φ) : World φ where
  server :=
    { file := file, handle := false, lastData := none, peer := ⟨0, 0⟩, timer := 0, lastPkt := 0,
      blknum := 0, retries := 0, modeWrite := false, timeouts := 0 }
  sent := []

end Runs

end PscDigpid.Sw.Tftp
