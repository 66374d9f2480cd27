/- Unit: PscDigpid/Sw/Console
   layer: model
   source: src/sw/src/console.c (uart_read_line, receive_console_cmd)
   digest: The console's calibration mode: a typed line becomes a message for a channel. -/

import PscDigpid.Sw.Control
import PscDigpid.Sw.Netconf

set_option autoImplicit false
set_option relaxedAutoImplicit false

namespace PscDigpid.Sw.Console

open PscDigpid.Sw.Hwaddr (Text)
open PscDigpid.Sw.Netconf (lwipIsspace)

section Line

def maxInputLen : Nat := 64

/-- The loop of `uart_read_line` with room for so many more characters; no result while it waits
for the next one. -/
def readLine : Nat → Text → Option Text
  | 0, _ => some []
  | _ + 1, [] => none
  | left + 1, c :: typed =>
      if c = '\r' ∨ c = '\n' then some [] else (readLine left typed).map (c :: ·)

/-- The line that is read, one place of the buffer being for the nul. -/
def uartReadLine (maxLen : Nat) (typed : Text) : Option Text := readLine (maxLen - 1) typed

theorem readLine_length {left : Nat} {typed line : Text} (read : readLine left typed = some line) :
    line.length ≤ left := by
  fun_induction readLine left typed generalizing line with
  | case1 typed =>
      rw [← Option.some.inj read]
      exact le_rfl
  | case2 left => cases read
  | case3 left c typed ends =>
      rw [← Option.some.inj read]
      exact Nat.zero_le _
  | case4 left c typed more ih =>
      obtain ⟨rest, later, rfl⟩ := Option.map_eq_some_iff.1 read
      exact Nat.succ_le_succ (ih later)

/-- The line and its nul fit in what the reader is given. -/
theorem uartReadLine_fits {typed line : Text} (read : uartReadLine maxInputLen typed = some line) :
    (line ++ ['\x00']).length ≤ maxInputLen := by
  rw [List.length_append]
  exact Nat.succ_le_succ (readLine_length read)

end Line

section Scan

/-- The characters before the nul. -/
def cString (input : Text) : Text := input.takeWhile (· ≠ '\x00')

/-- The value of decimal digits as `strtoul` gives it: the greatest one for what is too large. -/
def decimal (negative : Bool) (digits : Text) : BitVec 32 :=
  let value := digits.foldl (fun n c => 10 * n + (c.toNat - '0'.toNat)) 0
  if 2 ^ 32 ≤ value then 0xFFFFFFFF
  else if negative then -BitVec.ofNat 32 value
  else BitVec.ofNat 32 value

/-- `%u`: white space, a sign that may be missing and at least one digit; and what comes after. -/
def scanUnsigned (text : Text) : Option (BitVec 32 × Text) :=
  let start := text.dropWhile lwipIsspace
  let negative := start.head? == some '-'
  let unsigned := if negative || start.head? == some '+' then start.tail else start
  let digits := unsigned.takeWhile Char.isDigit
  if digits = [] then none
  else some (decimal negative digits, unsigned.dropWhile Char.isDigit)

/-- `%s` with a width. -/
def scanWord (width : Nat) (text : Text) : Option Text :=
  let word := ((text.dropWhile lwipIsspace).takeWhile fun c => !lwipIsspace c).take width
  if word = [] then none else some word

/-- `sscanf` with `%u %u %31s`, when all three are there. -/
def sscanf (input : Text) : Option (BitVec 32 × BitVec 32 × Text) :=
  (scanUnsigned (cString input)).bind fun chan =>
    (scanUnsigned chan.2).bind fun addr =>
      (scanWord 31 addr.2).map fun valStr => (chan.1, addr.1, valStr)

def strtoul (valStr : Text) : BitVec 32 := ((scanUnsigned valStr).map Prod.fst).getD 0

end Scan

section Command

variable (strtof : Text → BitVec 32)

/-- A value with a point is a float, and any other an integer. -/
def consoleData (valStr : Text) : BitVec 32 :=
  if '.' ∈ valStr then strtof valStr else strtoul valStr

/-- The two words of a message, each with its high byte first. -/
def msgBuf (addr data : BitVec 32) (k : Nat) : BitVec 8 :=
  (addr ++ data).extractLsb' (8 * (7 - k)) 8

theorem four_bytes (x : BitVec 64) (lo : Nat) :
    x.extractLsb' (lo + 8 + 8 + 8) 8 ++ x.extractLsb' (lo + 8 + 8) 8 ++ x.extractLsb' (lo + 8) 8 ++
      x.extractLsb' lo 8 = x.extractLsb' lo 32 := by
  rw [BitVec.extractLsb'_append_extractLsb'_eq_extractLsb' rfl,
    BitVec.extractLsb'_append_extractLsb'_eq_extractLsb' rfl,
    BitVec.extractLsb'_append_extractLsb'_eq_extractLsb' rfl]

theorem msgBuf_addr (addr data : BitVec 32) : msgWord (msgBuf addr data) 0 = addr :=
  (four_bytes (addr ++ data) 32).trans BitVec.extractLsb'_append_eq_left

theorem msgBuf_data (addr data : BitVec 32) : msgWord (msgBuf addr data) 1 = data :=
  (four_bytes (addr ++ data) 0).trans BitVec.extractLsb'_append_eq_right

/-- What is typed is handed on as a message to the channel it names, or is invalid and changes
nothing. -/
def receiveConsoleCmd (page : Page) (typed : Text) (b : Board) : Option Board :=
  match uartReadLine maxInputLen typed with
  | none => some b
  | some input =>
      match sscanf input with
      | none => some b
      | some (chan, addr, valStr) =>
          chanSettings page chan (msgBuf addr (consoleData strtof valStr)) b

end Command

end PscDigpid.Sw.Console
