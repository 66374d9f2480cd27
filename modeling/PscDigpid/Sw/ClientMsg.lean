/- Unit: PscDigpid/Sw/ClientMsg
   layer: model
   source: src/sw/src/main.c, src/sw/src/control.c, src/sw/src/listener.c (handle_client)
   digest: What the server does with a message of a client, and with the settings flash at start. -/

import PscDigpid.Sw.Control
import PscDigpid.Sw.Pscmsg

set_option autoImplicit false
set_option relaxedAutoImplicit false

namespace PscDigpid.Sw

open PscDigpid.Num
open Pscmsg (Byte)

/-- The messages `glob_settings` handles. -/
inductive GlobMsg
  | softTrig | testTrig | fpLed | evrReset | evrInjEventnum | evrPmEventnum | evr1hzEventnum
  | evr10hzEventnum | evr10khzEventnum
  deriving DecidableEq

namespace GlobMsg

def addr : GlobMsg → BitVec 32
  | .softTrig => 0
  | .testTrig => 4
  | .fpLed => 8
  | .evrReset => 16
  | .evrInjEventnum => 20
  | .evrPmEventnum => 24
  | .evr1hzEventnum => 28
  | .evr10hzEventnum => 32
  | .evr10khzEventnum => 36

def all : List GlobMsg :=
  [.softTrig, .testTrig, .fpLed, .evrReset, .evrInjEventnum, .evrPmEventnum, .evr1hzEventnum,
   .evr10hzEventnum, .evr10khzEventnum]

def ofAddr (addr : BitVec 32) : Option GlobMsg := all.find? fun m => m.addr = addr

end GlobMsg

section Globals

variable (data : BitVec 32) (b : Board)

def softTrig : Board := (b.xilOut32 softtrigReg data).xilOut32 softtrigReg 0

def setFpleds : Board := b.xilOut32 ledsReg data

def globMessage : GlobMsg → Board
  | .softTrig => softTrig data b
  | .testTrig => (b.xilOut32 testtrigReg data).xilOut32 testtrigReg 0
  | .fpLed => setFpleds data b
  | .evrReset => if data = 1 then b.xilOut32 evrResetReg 0xFF else b.xilOut32 evrResetReg 0
  | .evrInjEventnum => b.xilOut32 evrInjEventnumReg data
  | .evrPmEventnum => b.xilOut32 evrPmEventnumReg data
  | .evr1hzEventnum => b.xilOut32 evr1hzEventnumReg data
  | .evr10hzEventnum => b.xilOut32 evr10hzEventnumReg data
  | .evr10khzEventnum => b.xilOut32 evr10khzEventnumReg data

def globSettings (msg : Nat → Byte) : Board :=
  match GlobMsg.ofAddr (msgWord msg 0) with
  | some m => globMessage (msgWord msg 1) b m
  | none => b

end Globals

section Ramptable

/-- A point of the table, kept within the range of the DAC: 20 bits or 18. -/
def rampPoint (resolution scaled : BitVec 32) : BitVec 32 :=
  if resolution = 1 ∧ 0x100000 < scaled.abs.toInt then
    if 0 < scaled.toInt then 0xFFFFF else -0x100000
  else if resolution = 0 ∧ 0x40000 < scaled.abs.toInt then
    if 0 < scaled.toInt then 0x3FFFF else -0x40000
  else scaled

variable {α : Type} (A : Arith α)

def writeRampPoint (chan : BitVec 32) (msg : Nat → Byte) (resolution : BitVec 32) (b : Board)
    (i : Nat) : Board :=
  let scaled := scaledValWith chan (msgWord msg i) b A .float b.convVoltsToDacBits (·.dacDccts)
  (b.xilOut32 (chanReg chan dacRampaddrReg) (BitVec.ofNat 32 i)).xilOut32
    (chanReg chan dacRampdataReg) (rampPoint resolution scaled)

def writeRamptable (chan : BitVec 32) (msg : Nat → Byte) (msglen : Nat) (b : Board) : Board :=
  let rampLen := msglen / 4
  if 50000 < rampLen then b
  else
    let first := b.xilOut32 (chanReg chan dacRamplenReg) (BitVec.ofNat 32 rampLen)
    (List.range rampLen).foldl (writeRampPoint A chan msg (first.xilIn32 resolutionReg)) first

end Ramptable

/-- A message as the handlers get it: they read the receive buffer, whatever the length; `page`
is what the page buffer on the stack holds before. -/
structure Delivered where
  msgid : BitVec 16
  msg : Nat → Byte
  msglen : Nat
  page : Page

/-- The messages for one channel. -/
def Delivered.toChan (d : Delivered) : Prop :=
  d.msgid = 1 ∨ d.msgid = 2 ∨ d.msgid = 3 ∨ d.msgid = 4

instance (d : Delivered) : Decidable d.toChan := by
  unfold Delivered.toChan
  infer_instance

/-- A front panel LED blinks with every message. -/
def blinkAccess (b : Board) : Board := (b.xilOut32 iocAccessReg 1).xilOut32 iocAccessReg 0

def clientMsgWith {α : Type} (A : Arith α) (b : Board) (d : Delivered) : Option Board :=
  let blinked := blinkAccess b
  if d.msgid = 0 then some (globSettings blinked d.msg)
  else if d.toChan then chanSettingsWith A d.page (d.msgid.setWidth 32) d.msg blinked
  else if d.msgid = 101 then some (writeRamptable A 1 d.msg d.msglen blinked)
  else some blinked

/-- The same without roundings but those of a smooth ramp's length. -/
def clientMsg (b : Board) (d : Delivered) : Option Board := clientMsgWith exact b d

section Connection

/-- A message as it comes in. -/
structure Incoming where
  msgid : BitVec 16
  payload : List Byte
  page : Page

/-- The board and the receive buffer of a client. -/
structure ClientState where
  board : Board
  rxbuf : Nat → Byte

def rxbufLen : Nat := 200008

/-- The buffer with a payload at its beginning. -/
def received (rxbuf : Nat → Byte) (payload : List Byte) : Nat → Byte :=
  fun k => payload.getD k (rxbuf k)

/-- What does not fit the buffer is skipped. -/
def delivered (rxbuf : Nat → Byte) (m : Incoming) : Delivered where
  msgid := m.msgid
  msg := received rxbuf (m.payload.take rxbufLen)
  msglen := (m.payload.take rxbufLen).length
  page := m.page

/-- One turn of `handle_client`. -/
def handleMessage (s : ClientState) (m : Incoming) : Option ClientState :=
  (clientMsg s.board (delivered s.rxbuf m)).map fun board =>
    { board, rxbuf := (delivered s.rxbuf m).msg }

end Connection

end PscDigpid.Sw
