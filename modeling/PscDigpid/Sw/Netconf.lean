/- Unit: PscDigpid/Sw/Netconf
   layer: model
   source: src/sw/src/sdcard.c (sdcard_netconf, sdcard_process, sdcard_handle)
   digest: The configuration file on the card: its lines, its commands and what they set. -/

import PscDigpid.Sync.Chunks
import PscDigpid.Sw.Hwaddr
import PscDigpid.Sw.Sdcard

set_option autoImplicit false
set_option relaxedAutoImplicit false

namespace PscDigpid.Sw.Netconf

open PscDigpid.Sync
open PscDigpid.Sw.Hwaddr

/-- What is parsed from `NET.CNF` for the network. -/
structure NetConfig where
  addr : BitVec 32
  mask : BitVec 32
  gw : BitVec 32
  useStatic : Byte
  hwaddr : Fin 6 → Byte

/-- The network's configuration, the board, and the constant from codes to volts. -/
structure State where
  conf : NetConfig
  board : Board
  convDacBitsToVolts : ℚ

/-- What the parser asks others for: lwIP for an address, and the EEPROM for the board's own. -/
structure World where
  inetAton : Text → Option (BitVec 32)
  macAddress : Fin 6 → Byte

section Lines

/-- White space of the C locale. -/
def lwipIsspace (c : Char) : Bool :=
  c = ' ' || c = '\t' || c = '\n' || c = '\x0b' || c = '\x0c' || c = '\r'

/-- What `f_gets` puts into the buffer of 64, one call after the other: at most 63 characters,
up to a newline. -/
def lines (file : Text) : List Text := pieces (fun c => c == '\n') 63 file

/-- A command with its argument, cut out of a line; blank lines and comments have none. -/
def parseLine (lbuf : Text) : Option (Text × Option Text) :=
  -- a nul in the buffer ends the line
  let line := (lbuf.takeWhile (· ≠ '\x00')).dropWhile lwipIsspace
  if line = [] ∨ line.head? = some '#' then none
  else
    let cmd := line.takeWhile fun c => !lwipIsspace c
    let after := (line.dropWhile fun c => !lwipIsspace c).dropWhile lwipIsspace
    let arg := if after = [] then none else some (after.takeWhile fun c => !lwipIsspace c)
    some (cmd, arg)

end Lines

section Commands

inductive Command
  | dhcp | numchans | resolution | bandwidth | polarity | addr | mask | gw | hwaddr
  deriving DecidableEq

namespace Command

def all : List Command :=
  [.dhcp, .numchans, .resolution, .bandwidth, .polarity, .addr, .mask, .gw, .hwaddr]

def text : Command → String
  | .dhcp => "dhcp"
  | .numchans => "numchans"
  | .resolution => "resolution"
  | .bandwidth => "bandwidth"
  | .polarity => "polarity"
  | .addr => "addr"
  | .mask => "mask"
  | .gw => "gw"
  | .hwaddr => "hwaddr"

def ofText (cmd : Text) : Option Command := all.find? fun c => c.text.toList = cmd

end Command

/-- One of two words; no argument stands for the first, and any other leaves everything. -/
def choose (arg : Option Text) (first second : String) (onFirst onSecond s : State) : State :=
  match arg with
  | none => onFirst
  | some word =>
      if word = first.toList then onFirst else if word = second.toList then onSecond else s

def setUseStatic (useStatic : Byte) (s : State) : State :=
  { s with conf := { s.conf with useStatic } }

def xilOut32 (addr data : BitVec 32) (s : State) : State :=
  { s with board := s.board.xilOut32 addr data }

/-- `mshsSelect` with both constants. -/
def selectResolution (pscResolution : BitVec 32) (s : State) : State :=
  { s with
    board := mshsSelect pscResolution s.board
    convDacBitsToVolts :=
      if pscResolution = 1 then 1 / convVoltsTo20Bits else 1 / convVoltsTo18Bits }

/-- An address is stored if it is one. -/
def sdcardParseInet (world : World) (arg : Option Text) (out : BitVec 32) : BitVec 32 :=
  match arg with
  | none => out
  | some word => (world.inetAton word).getD out

/-- The address of the board itself, or one that is spelled out. -/
def setHwaddr (world : World) (arg : Option Text) (s : State) : State :=
  let put (hwaddr : Fin 6 → Byte) : State := { s with conf := { s.conf with hwaddr } }
  match arg with
  | none => put world.macAddress
  | some word =>
      if word = "eeprom".toList then put world.macAddress
      else
        match scanHwaddr word with
        | .parsed hwaddr => put hwaddr
        | _ => s

def runCommand (world : World) (arg : Option Text) (s : State) : Command → State
  | .dhcp => choose arg "yes" "no" (setUseStatic 0 s) (setUseStatic 1 s) s
  | .numchans => choose arg "2" "4" (xilOut32 numchansReg 0 s) (xilOut32 numchansReg 1 s) s
  | .resolution => choose arg "HS" "MS" (selectResolution 1 s) (selectResolution 0 s) s
  | .bandwidth => choose arg "fast" "slow" (xilOut32 bandwidthReg 0 s) (xilOut32 bandwidthReg 1 s) s
  | .polarity =>
      choose arg "bipolar" "unipolar" (xilOut32 polarityReg 0 s) (xilOut32 polarityReg 1 s) s
  | .addr =>
      -- a static address is implied
      { s with
        conf := { s.conf with addr := sdcardParseInet world arg s.conf.addr, useStatic := 1 } }
  | .mask => { s with conf := { s.conf with mask := sdcardParseInet world arg s.conf.mask } }
  | .gw => { s with conf := { s.conf with gw := sdcardParseInet world arg s.conf.gw } }
  | .hwaddr => setHwaddr world arg s

/-- One turn of the loop over the lines; an unknown command is only reported. -/
def netconfLine (world : World) (s : State) (line : Text) : State :=
  match parseLine line with
  | none => s
  | some (cmd, arg) =>
      match Command.ofText cmd with
      | none => s
      | some c => runCommand world arg s c

def sdcardNetconf (world : World) (file : Text) (s : State) : State :=
  (lines file).foldl (netconfLine world) s

end Commands

section Card

/-- One partition of a card: whether it can be mounted and entered, and what can be read of its
`NET.CNF`. -/
structure Partition where
  mounts : Bool
  enters : Bool
  netCnf : Option Text

/-- The files for the EEPROM leave all of this alone. -/
def sdcardProcess (world : World) (part : Partition) (s : State) : State :=
  match part.netCnf with
  | none => s
  | some file => sdcardNetconf world file s

/-- The partition's result is whether it failed. -/
def sdcardTrypart (world : World) (part : Partition) (s : State) : Bool × State :=
  if !part.mounts then (true, s)
  else if !part.enters then (true, s)
  else (false, sdcardProcess world part s)

/-- The partitions `0:/` and `1:/` in turn. -/
def sdcardHandle (world : World) (zero one : Partition) (s : State) : State :=
  let tried := sdcardTrypart world zero s
  if tried.1 then (sdcardTrypart world one tried.2).2 else tried.2

end Card

end PscDigpid.Sw.Netconf
