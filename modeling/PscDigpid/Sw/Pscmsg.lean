/- Unit: PscDigpid/Sw/Pscmsg
   layer: model
   source: src/sw/src/pscmsg.c
   digest: Messages on a socket: whole sends, whole receives and what is skipped. -/

import Mathlib.Algebra.Group.Nat.Defs
import Mathlib.Data.List.Basic

set_option autoImplicit false
set_option relaxedAutoImplicit false

namespace PscDigpid.Sw.Pscmsg

abbrev Byte := BitVec 8

inductive Errno
  | enotconn | eio | other (code : Nat)
  deriving DecidableEq

section Send

/-- What one call of `send` does: it takes some of the bytes, at most what it is given, or
fails. -/
inductive SendResult
  | sent (count : Nat)
  | error (errno : Errno)
  deriving DecidableEq

/-- How sending ends, `none` for success, with the bytes it has put on the wire and the results
of the calls still to come. -/
structure Sent where
  ret : Option Errno
  wire : List Byte
  rest : List SendResult
  deriving DecidableEq

/-- A call beyond the results given fails. -/
def sendall : List SendResult → List Byte → Sent
  | results, [] => ⟨none, [], results⟩
  | [], _ :: _ => ⟨some .enotconn, [], []⟩
  | .error e :: results, _ :: _ => ⟨some e, [], results⟩
  | .sent count :: results, b :: buf =>
      if count = 0 then ⟨some .enotconn, [], results⟩
      else
        let later := sendall results ((b :: buf).drop count)
        ⟨later.ret, (b :: buf).take count ++ later.wire, later.rest⟩

/-- The header of a message: its letters, identifier and length, in network order. -/
def header (msgid : BitVec 16) (msglen : BitVec 32) : List Byte :=
  [0x50, 0x53, msgid.extractLsb' 8 8, msgid.extractLsb' 0 8, msglen.extractLsb' 24 8,
   msglen.extractLsb' 16 8, msglen.extractLsb' 8 8, msglen.extractLsb' 0 8]

/-- A message whose length fits its header. -/
structure Message where
  msgid : BitVec 16
  payload : List Byte
  fits : payload.length < 2 ^ 32

/-- A message as it is on the wire. -/
def encode (m : Message) : List Byte :=
  header m.msgid (BitVec.ofNat 32 m.payload.length) ++ m.payload

def sendhead (results : List SendResult) (msgid : BitVec 16) (msglen : BitVec 32) : Sent :=
  sendall results (header msgid msglen)

/-- The length of the payload is the length given. -/
def sendmsg (results : List SendResult) (msgid : BitVec 16) (payload : List Byte) : Sent :=
  let head := sendhead results msgid (BitVec.ofNat 32 payload.length)
  if head.ret.isSome then head
  else
    let body := sendall head.rest payload
    ⟨body.ret, head.wire ++ body.wire, body.rest⟩

end Send

section Receive

/-- What comes in at a socket: bytes that are there together, or an error of one call. -/
inductive Arrival
  | bytes (chunk : List Byte)
  | error (errno : Errno)
  deriving DecidableEq

/-- How receiving ends, `none` for success, with the bytes written to the buffer, what is still
to come in, and for each call of `recv` where in the buffer it writes and how much it asks for. -/
structure Received where
  ret : Option Errno
  data : List Byte
  rest : List Arrival
  asks : List (Nat × Nat)
  deriving DecidableEq

/-- Each call of `recv` gets what is there, up to what it asks for; with nothing more to come
the connection is closed. -/
def recvall : List Arrival → (offset buflen : Nat) → Received
  | arrivals, _, 0 => ⟨none, [], arrivals, []⟩
  | [], offset, n + 1 => ⟨some .enotconn, [], [], [(offset, n + 1)]⟩
  | .error e :: arrivals, offset, n + 1 => ⟨some e, [], arrivals, [(offset, n + 1)]⟩
  | .bytes chunk :: arrivals, offset, n + 1 =>
      if chunk = [] then ⟨some .enotconn, [], arrivals, [(offset, n + 1)]⟩
      else if n + 1 < chunk.length then
        ⟨none, chunk.take (n + 1), .bytes (chunk.drop (n + 1)) :: arrivals, [(offset, n + 1)]⟩
      else
        let later := recvall arrivals (offset + chunk.length) (n + 1 - chunk.length)
        ⟨later.ret, chunk ++ later.data, later.rest, (offset, n + 1) :: later.asks⟩

/-- The bytes skipped go through a buffer of 128. After an error the last call still asks for
all that is left. -/
def recvskip (arrivals : List Arrival) (len : Nat) : Received :=
  if more : 128 < len then
    let first := recvall arrivals 0 128
    let later :=
      if first.ret.isNone then recvskip first.rest (len - 128) else recvall first.rest 0 len
    { later with asks := first.asks ++ later.asks }
  else recvall arrivals 0 len
termination_by len
decreasing_by omega

/-- How receiving a header ends, with what it says; on an error nothing is said. -/
structure Head where
  ret : Option Errno
  msgid : BitVec 16
  msglen : BitVec 32
  rest : List Arrival
  deriving DecidableEq

def recvhead (arrivals : List Arrival) : Head :=
  let got := recvall arrivals 0 8
  let buf := fun n => got.data.getD n 0
  if got.ret.isSome then ⟨got.ret, 0, 0, got.rest⟩
  else if buf 0 ≠ 0x50 ∨ buf 1 ≠ 0x53 then ⟨some .eio, 0, 0, got.rest⟩
  else ⟨none, buf 2 ++ buf 3, buf 4 ++ buf 5 ++ buf 6 ++ buf 7, got.rest⟩

/-- How receiving a message ends: the return value, the identifier if it is written, the length
as it is left, and the bytes written to the buffer. -/
structure RecvMsg where
  ret : Option Errno
  msgid : Option (BitVec 16)
  msglen : BitVec 32
  data : List Byte
  rest : List Arrival
  deriving DecidableEq

def recvmsg (maxlen : BitVec 32) (arrivals : List Arrival) : RecvMsg :=
  let head := recvhead arrivals
  if head.ret.isSome then ⟨head.ret, none, maxlen, [], head.rest⟩
  else
    let rlen := if maxlen < head.msglen then maxlen else head.msglen
    let body := recvall head.rest 0 rlen.toNat
    if body.ret.isSome then ⟨body.ret, none, maxlen, body.data, body.rest⟩
    else if rlen < head.msglen then
      let skipped := recvskip body.rest (head.msglen - rlen).toNat
      ⟨skipped.ret, some head.msgid, rlen, body.data, skipped.rest⟩
    else ⟨none, some head.msgid, rlen, body.data, body.rest⟩

end Receive

end PscDigpid.Sw.Pscmsg
