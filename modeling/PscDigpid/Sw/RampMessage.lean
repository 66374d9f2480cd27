/- Unit: PscDigpid/Sw/RampMessage
   layer: result
   source: src/sw/src/listener.c (handle_client), src/sw/src/pscmsg.c, src/sw/src/control.c
   digest: A ramp table that is too long is rejected although its message is cut short. -/

import PscDigpid.Sw.PscFraming
import PscDigpid.Sw.RampTable

set_option autoImplicit false
set_option relaxedAutoImplicit false

namespace PscDigpid.Sw

open PscDigpid.Hdl (Chan)
open PscDigpid.Num
open Pscmsg

section Turn

/-- One call of `psc_recvmsg` by `handle_client`: the message the handlers get, or none when
receiving fails and the loop ends. -/
def receiveTurn (rxbuf : Nat → Byte) (page : Page) (arrivals : List Arrival) :
    Option Delivered :=
  let got := recvmsg (BitVec.ofNat 32 rxbufLen) arrivals
  if got.ret.isSome then none
  else some ⟨got.msgid.getD 0, received rxbuf got.data, got.msglen.toNat, page⟩

/-- The length that the header of a message declares. -/
def declared (arrivals : List Arrival) : Nat := (recvhead arrivals).msglen.toNat

/-- The registers of a channel's ramp table. -/
def rampRegs : List Rdl.ChanReg := [.dacRamplen, .dacRampaddr, .dacRampdata, .dacRunramp]

def IsRampReg (addr : BitVec 32) : Prop :=
  ∃ c : Chan, ∃ r ∈ rampRegs, addr = Rdl.chanAddr c r

end Turn

section Received

variable {rxbuf : Nat → Byte} {page : Page} {arrivals : List Arrival} {d : Delivered}

/-- A message that is received has the declared length, or that of the buffer if it is
less. -/
theorem recvmsg_msglen {maxlen : BitVec 32} (complete : (recvmsg maxlen arrivals).ret = none) :
    (recvmsg maxlen arrivals).msglen.toNat = min (declared arrivals) maxlen.toNat := by
  have cut : (if maxlen < (recvhead arrivals).msglen then maxlen
      else (recvhead arrivals).msglen).toNat = min (declared arrivals) maxlen.toNat := by
    rw [declared]
    split_ifs with longer
    · exact (Nat.min_eq_right (Nat.le_of_lt longer)).symm
    · exact (Nat.min_eq_left (Nat.not_lt.1 longer)).symm
  rw [recvmsg] at complete ⊢
  dsimp only at complete ⊢
  generalize (if maxlen < (recvhead arrivals).msglen then maxlen
    else (recvhead arrivals).msglen) = rlen at cut complete ⊢
  by_cases badHead : (recvhead arrivals).ret.isSome
  · rw [if_pos badHead] at complete
    rw [show (recvhead arrivals).ret = none from complete] at badHead
    exact absurd badHead Bool.false_ne_true
  · rw [if_neg badHead] at complete ⊢
    by_cases badBody : (recvall (recvhead arrivals).rest 0 rlen.toNat).ret.isSome
    · rw [if_pos badBody] at complete
      rw [show (recvall (recvhead arrivals).rest 0 rlen.toNat).ret = none from complete] at badBody
      exact absurd badBody Bool.false_ne_true
    · rw [if_neg badBody]
      split_ifs
      · exact cut
      · exact cut

theorem receiveTurn_eq_some_iff : receiveTurn rxbuf page arrivals = some d ↔
    (recvmsg (BitVec.ofNat 32 rxbufLen) arrivals).ret = none ∧
      d = ⟨(recvmsg (BitVec.ofNat 32 rxbufLen) arrivals).msgid.getD 0,
        received rxbuf (recvmsg (BitVec.ofNat 32 rxbufLen) arrivals).data,
        (recvmsg (BitVec.ofNat 32 rxbufLen) arrivals).msglen.toNat, page⟩ := by
  rw [receiveTurn]
  cases ret : (recvmsg (BitVec.ofNat 32 rxbufLen) arrivals).ret with
  | none => simp [eq_comm]
  | some e => simp

/-- The handlers are told that length. -/
theorem receiveTurn_msglen (turn : receiveTurn rxbuf page arrivals = some d) :
    d.msglen = min (declared arrivals) 200008 := by
  obtain ⟨complete, rfl⟩ := receiveTurn_eq_some_iff.1 turn
  exact recvmsg_msglen complete

/-- The cut leaves a table that is too long too long. -/
theorem short_iff (turn : receiveTurn rxbuf page arrivals = some d) :
    d.msglen / 4 ≤ 50000 ↔ declared arrivals / 4 ≤ 50000 := by
  have length := receiveTurn_msglen turn
  omega

/-- What is not too long is not cut. -/
theorem points_of_short (turn : receiveTurn rxbuf page arrivals = some d)
    (short : declared arrivals / 4 ≤ 50000) : d.msglen / 4 = declared arrivals / 4 := by
  have length := receiveTurn_msglen turn
  omega

end Received

section Handled

variable {α : Type} {A : Arith α} {b : Board} {d : Delivered}

theorem clientMsgWith_ramp (ramp : d.msgid = 101) :
    clientMsgWith A b d =
      some (writeRamptable A (chanNumber .ps1) d.msg d.msglen (blinkAccess b)) := by
  have setting : ¬ d.toChan := by
    rw [Delivered.toChan, ramp]
    decide
  rw [clientMsgWith, if_neg (by rw [ramp]; decide), if_neg setting, if_pos ramp]
  rfl

theorem blinkAccess_writes (b : Board) :
    (blinkAccess b).writes = b.writes ++ [(iocAccessReg, 1), (iocAccessReg, 0)] := by
  simp [blinkAccess, Board.xilOut32]

theorem not_isRampReg_iocAccess : ¬ IsRampReg iocAccessReg := by
  rintro ⟨c, r, _, same⟩
  exact Rdl.chanAddr_ne_global (by decide) same.symm

/-- The points' writes go to the address and the data register in turn. -/
theorem isRampReg_rampWrites {c : Chan} {msg : Nat → Byte} {n : Nat} {w : BitVec 32 × BitVec 32}
    (written : w ∈ rampWrites A c msg b n) : IsRampReg w.1 := by
  rcases List.mem_cons.1 written with rfl | point
  · exact ⟨c, .dacRamplen, by simp [rampRegs], rfl⟩
  · obtain ⟨i, -, either⟩ := List.mem_flatMap.1 point
    rw [pointWrites] at either
    rcases List.mem_cons.1 either with rfl | last
    · exact ⟨c, .dacRampaddr, by simp [rampRegs], rfl⟩
    · obtain rfl := List.mem_singleton.1 last
      exact ⟨c, .dacRampdata, by simp [rampRegs], rfl⟩

end Handled

/-- The writes of ramp registers from one board to a later one. -/
def RampWritesAre (before after : Board) (ws : List (BitVec 32 × BitVec 32)) : Prop :=
  ∃ others, after.writes = before.writes ++ others ++ ws ∧ (∀ w ∈ others, ¬ IsRampReg w.1) ∧
    ∀ w ∈ ws, IsRampReg w.1

/-- A ramp message writes the length and as many entries as it declares, or no ramp register
when it declares too many, whatever arithmetic makes the entries. -/
theorem ramp_message_writes {α : Type} (A : Arith α) {s : ClientState} {page : Page}
    {arrivals : List Arrival} {d : Delivered} (turn : receiveTurn s.rxbuf page arrivals = some d)
    (ramp : d.msgid = 101) :
    ∃ after, clientMsgWith A s.board d = some after ∧
      RampWritesAre s.board after
        (if declared arrivals / 4 ≤ 50000 then
          rampWrites A .ps1 d.msg (blinkAccess s.board) (declared arrivals / 4)
        else []) := by
  refine ⟨_, clientMsgWith_ramp ramp, [(iocAccessReg, 1), (iocAccessReg, 0)], ?_, ?_, ?_⟩
  · rw [← blinkAccess_writes]
    by_cases short : declared arrivals / 4 ≤ 50000
    · rw [if_pos short, writeRamptable_eq ((short_iff turn).2 short), Board.xilOut32s_writes,
        points_of_short turn short]
    · rw [if_neg short, List.append_nil, writeRamptable,
        if_pos (Nat.not_le.1 (mt (short_iff turn).1 short))]
  · intro w blink
    have access : w.1 = iocAccessReg := by
      rcases List.mem_cons.1 blink with rfl | last
      · rfl
      · rw [List.mem_singleton.1 last]
    rw [access]
    exact not_isRampReg_iocAccess
  · intro w written
    split_ifs at written
    · exact isRampReg_rampWrites written
    · exact absurd written List.not_mem_nil

/-- A message with three points on its way: one, two and five amperes. -/
def threePoints : List Arrival :=
  [.bytes (header 101 12 ++
    [0x3F, 0x80, 0x00, 0x00, 0x40, 0x00, 0x00, 0x00, 0x40, 0xA0, 0x00, 0x00])]

/-- A message with more points than the table has, and longer than the buffer. -/
def tooLong : Message where
  msgid := 101
  payload := List.replicate 250000 0
  fits := by rw [List.length_replicate]; decide

section Whole

variable (m : Message)

theorem clean_whole : Clean [.bytes (encode m)] :=
  clean_bytes (List.cons_ne_nil _ _) fun _ none => absurd none List.not_mem_nil

theorem pending_whole : pending [.bytes (encode m)] = encode m ++ [] := rfl

theorem declared_whole : declared [.bytes (encode m)] = m.payload.length := by
  have there := (pending_whole m).trans (List.append_assoc _ m.payload [])
  obtain ⟨-, -, msglen, -⟩ := recvhead_clean (clean_whole m) there
  rw [declared, msglen, BitVec.toNat_ofNat, Nat.mod_eq_of_lt m.fits]

/-- A message that arrives as a whole is received. -/
theorem receiveTurn_whole (rxbuf : Nat → Byte) (page : Page) :
    ∃ d, receiveTurn rxbuf page [.bytes (encode m)] = some d ∧ d.msgid = m.msgid := by
  obtain ⟨outcome, -⟩ :=
    recvmsg_clean (clean_whole m) (pending_whole m) (BitVec.ofNat 32 rxbufLen)
  obtain ⟨ret, rest⟩ := Prod.mk.inj outcome
  obtain ⟨msgid, -⟩ := Prod.mk.inj rest
  exact ⟨_, receiveTurn_eq_some_iff.2 ⟨ret, rfl⟩, congrArg (·.getD 0) msgid⟩

end Whole

/-- The three points are written; the message that is too long is cut to the buffer, and no register
of a ramp table is. -/
theorem three_points_written :
    (∃ d after, receiveTurn (fun _ => 0) (fun _ => 0) threePoints = some d ∧
      clientMsgWith ieee blankBoard d = some after ∧
      RampWritesAre blankBoard after (rampWrites ieee .ps1 d.msg (blinkAccess blankBoard) 3)) ∧
    ∃ d after, receiveTurn (fun _ => 0) (fun _ => 0) [.bytes (encode tooLong)] = some d ∧
      d.msglen = 200008 ∧ clientMsgWith ieee blankBoard d = some after ∧
      RampWritesAre blankBoard after [] := by
  constructor
  · have turn := (@receiveTurn_eq_some_iff (fun _ => 0) (fun _ => 0) threePoints _).2
      ⟨by decide +kernel, rfl⟩
    obtain ⟨after, handled, writes⟩ :=
      @ramp_message_writes _ ieee ⟨blankBoard, fun _ => 0⟩ _ _ _ turn (by decide +kernel)
    rw [show declared threePoints = 12 by decide +kernel, if_pos (by decide)] at writes
    exact ⟨_, after, turn, handled, writes⟩
  · have length : declared [.bytes (encode tooLong)] = 250000 :=
      (declared_whole tooLong).trans List.length_replicate
    obtain ⟨d, turn, ramp⟩ := receiveTurn_whole tooLong (fun _ => 0) fun _ => 0
    obtain ⟨after, handled, writes⟩ :=
      @ramp_message_writes _ ieee ⟨blankBoard, fun _ => 0⟩ _ _ _ turn ramp
    rw [length, if_neg (by decide)] at writes
    refine ⟨d, after, turn, ?_, handled, writes⟩
    rw [receiveTurn_msglen turn, length]
    decide

end PscDigpid.Sw
