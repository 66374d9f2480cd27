/- Unit: PscDigpid/Sw/PscFraming
   layer: result
   source: src/sw/src/pscmsg.c
   digest: What is sent message by message comes in message by message, however it is cut. -/

import PscDigpid.Sw.Pscmsg

set_option autoImplicit false
set_option relaxedAutoImplicit false

namespace PscDigpid.Sw.Pscmsg

/-- Messages sent one after another, as long as all goes well. -/
def sendmsgs : List SendResult → List Message → Sent
  | results, [] => ⟨none, [], results⟩
  | results, m :: messages =>
      let first := sendmsg results m.msgid m.payload
      if first.ret.isSome then first
      else
        let later := sendmsgs first.rest messages
        ⟨later.ret, first.wire ++ later.wire, later.rest⟩

/-- A number of messages received one after another with buffers of one size, and what is left
to come in. -/
def recvmsgs (maxlen : BitVec 32) : List Arrival → Nat → List RecvMsg × List Arrival
  | arrivals, 0 => ([], arrivals)
  | arrivals, n + 1 =>
      let first := recvmsg maxlen arrivals
      let later := recvmsgs maxlen first.rest n
      (first :: later.1, later.2)

section Sending

theorem sendall_wire {results : List SendResult} {buf : List Byte}
    (success : (sendall results buf).ret = none) : (sendall results buf).wire = buf := by
  induction results, buf using sendall.induct with
  | case1 results => rw [sendall]
  | case2 b buf => exact absurd success (Option.some_ne_none _)
  | case3 e results b buf => exact absurd success (Option.some_ne_none _)
  | case4 results b buf => exact absurd success (Option.some_ne_none _)
  | case5 count results b buf some_sent ih =>
      rw [sendall, if_neg some_sent] at success ⊢
      change _ ++ _ = _
      rw [ih success, List.take_append_drop]

/-- A message sent with success is on the wire as a whole. -/
theorem sendmsg_wire {results : List SendResult} {m : Message}
    (success : (sendmsg results m.msgid m.payload).ret = none) :
    (sendmsg results m.msgid m.payload).wire = encode m := by
  rw [sendmsg] at success ⊢
  cases head : (sendhead results m.msgid (BitVec.ofNat 32 m.payload.length)).ret with
  | some e =>
      rw [head] at success
      simp only [Option.isSome_some, if_true] at success
      rw [head] at success
      exact absurd success (Option.some_ne_none e)
  | none =>
      rw [head] at success
      simp only [Option.isSome_none, Bool.false_eq_true, if_false] at success ⊢
      rw [sendhead] at head success ⊢
      rw [sendall_wire head, sendall_wire success]
      rfl

/-- Bytes whose sending fails are on the wire in part. -/
theorem sendall_part {results : List SendResult} {buf : List Byte}
    (failure : (sendall results buf).ret ≠ none) :
    (sendall results buf).wire <+: buf ∧ (sendall results buf).wire ≠ buf := by
  induction results, buf using sendall.induct with
  | case1 results => exact absurd (by rw [sendall]) failure
  | case2 b buf => exact ⟨List.nil_prefix, (List.cons_ne_nil b buf).symm⟩
  | case3 e results b buf => exact ⟨List.nil_prefix, (List.cons_ne_nil b buf).symm⟩
  | case4 results b buf =>
      rw [sendall, if_pos rfl]
      exact ⟨List.nil_prefix, (List.cons_ne_nil b buf).symm⟩
  | case5 count results b buf some_sent ih =>
      rw [sendall, if_neg some_sent] at failure ⊢
      obtain ⟨front, short⟩ := ih failure
      have whole := List.take_append_drop count (b :: buf)
      refine ⟨?_, ?_⟩
      · have longer := (List.prefix_append_right_inj ((b :: buf).take count)).2 front
        rw [whole] at longer
        exact longer
      · intro same
        exact short (List.append_cancel_left (same.trans whole.symm))

/-- A message whose sending fails is on the wire in part. -/
theorem sendmsg_part {results : List SendResult} {m : Message}
    (failure : (sendmsg results m.msgid m.payload).ret ≠ none) :
    (sendmsg results m.msgid m.payload).wire <+: encode m ∧
      (sendmsg results m.msgid m.payload).wire ≠ encode m := by
  rw [sendmsg] at failure ⊢
  cases head : (sendhead results m.msgid (BitVec.ofNat 32 m.payload.length)).ret with
  | some e =>
      simp only [Option.isSome_some, if_true]
      have broken : (sendhead results m.msgid (BitVec.ofNat 32 m.payload.length)).ret ≠ none := by
        rw [head]
        exact Option.some_ne_none e
      obtain ⟨front, short⟩ := sendall_part broken
      refine ⟨front.trans (List.prefix_append _ _), ?_⟩
      intro same
      have lengths := congrArg List.length same
      rw [encode, List.length_append] at lengths
      exact short (front.eq_of_length (Nat.le_antisymm front.length_le (by
        rw [← sendhead, lengths]
        exact Nat.le_add_right _ _)))
  | none =>
      rw [head] at failure
      simp only [Option.isSome_none, Bool.false_eq_true, if_false] at failure ⊢
      obtain ⟨front, short⟩ := sendall_part failure
      rw [sendhead] at head front short ⊢
      rw [sendall_wire head]
      refine ⟨(List.prefix_append_right_inj _).2 front, ?_⟩
      intro same
      exact short (List.append_cancel_left same)

/-- Messages sent with success are on the wire one after another. -/
theorem sendmsgs_wire {results : List SendResult} {messages : List Message}
    (success : (sendmsgs results messages).ret = none) :
    (sendmsgs results messages).wire = messages.flatMap encode := by
  induction messages generalizing results with
  | nil => rfl
  | cons m messages ih =>
      rw [sendmsgs] at success ⊢
      cases first : (sendmsg results m.msgid m.payload).ret with
      | some e =>
          simp only [first, Option.isSome_some, if_true] at success
          exact absurd success (Option.some_ne_none e)
      | none =>
          simp only [first, Option.isSome_none, Bool.false_eq_true, if_false] at success ⊢
          rw [sendmsg_wire first, ih success, List.flatMap_cons]

end Sending

section Receiving

/-- The bytes still to come in. -/
def pending (arrivals : List Arrival) : List Byte :=
  arrivals.flatMap fun
    | .bytes chunk => chunk
    | .error _ => []

/-- No call of `recv` fails or finds the connection closed while there are bytes to come. -/
def Clean (arrivals : List Arrival) : Prop :=
  ∀ arrival ∈ arrivals, ∃ chunk, arrival = .bytes chunk ∧ chunk ≠ []

variable {arrivals : List Arrival}

theorem pending_bytes (chunk : List Byte) :
    pending (.bytes chunk :: arrivals) = chunk ++ pending arrivals := rfl

theorem clean_cons {arrival : Arrival} (clean : Clean (arrival :: arrivals)) :
    (∃ chunk, arrival = .bytes chunk ∧ chunk ≠ []) ∧ Clean arrivals :=
  List.forall_mem_cons.1 clean

theorem clean_bytes {chunk : List Byte} (some_bytes : chunk ≠ []) (clean : Clean arrivals) :
    Clean (.bytes chunk :: arrivals) :=
  List.forall_mem_cons.2 ⟨⟨chunk, rfl, some_bytes⟩, clean⟩

/-- With nothing left to come in every chunk has been used up. -/
theorem nothing_left (clean : Clean arrivals) (empty : pending arrivals = []) : arrivals = [] := by
  cases arrivals with
  | nil => rfl
  | cons arrival arrivals =>
      obtain ⟨⟨chunk, rfl, some_bytes⟩, -⟩ := clean_cons clean
      rw [pending_bytes] at empty
      exact absurd (List.append_eq_nil_iff.1 empty).1 some_bytes

/-- The first `n` of the bytes to come in are taken, and the rest left. -/
structure Takes (n : Nat) (arrivals rest : List Arrival) : Prop where
  clean : Clean rest
  left : pending rest = (pending arrivals).drop n

theorem recvall_clean (clean : Clean arrivals) {n : Nat} (enough : n ≤ (pending arrivals).length)
    (offset : Nat) :
    (recvall arrivals offset n).ret = none ∧
      (recvall arrivals offset n).data = (pending arrivals).take n ∧
      Takes n arrivals (recvall arrivals offset n).rest := by
  induction arrivals generalizing offset n with
  | nil =>
      obtain rfl := Nat.le_zero.1 enough
      exact ⟨rfl, rfl, clean, rfl⟩
  | cons arrival arrivals ih =>
      obtain ⟨⟨chunk, rfl, some_bytes⟩, clean_rest⟩ := clean_cons clean
      cases n with
      | zero => exact ⟨rfl, rfl, clean, rfl⟩
      | succ n =>
          rw [recvall, if_neg some_bytes, pending_bytes]
          by_cases longer : n + 1 < chunk.length
          · rw [if_pos longer]
            refine ⟨rfl, (List.take_append_of_le_length (Nat.le_of_lt longer)).symm, ?_, ?_⟩
            · refine clean_bytes ?_ clean_rest
              rw [Ne, List.drop_eq_nil_iff]
              exact Nat.not_le.2 longer
            · rw [pending_bytes, pending_bytes, List.drop_append_of_le_length (Nat.le_of_lt longer)]
          · rw [pending_bytes, List.length_append] at enough
            obtain ⟨ret, data, takes⟩ := ih (n := n + 1 - chunk.length) clean_rest (by omega)
              (offset + chunk.length)
            rw [if_neg longer, List.take_append, List.take_of_length_le (Nat.le_of_not_lt longer)]
            refine ⟨ret, congrArg (chunk ++ ·) data, takes.clean, ?_⟩
            rw [pending_bytes, List.drop_append, List.drop_eq_nil_of_le (Nat.le_of_not_lt longer)]
            exact takes.left

theorem Takes.trans {m n : Nat} {rest last : List Arrival} (first : Takes m arrivals rest)
    (second : Takes n rest last) : Takes (m + n) arrivals last := by
  refine ⟨second.clean, ?_⟩
  rw [second.left, first.left, List.drop_drop]

/-- What is skipped is taken in pieces. -/
theorem recvskip_clean (clean : Clean arrivals) {len : Nat}
    (enough : len ≤ (pending arrivals).length) :
    (recvskip arrivals len).ret = none ∧ Takes len arrivals (recvskip arrivals len).rest := by
  induction len using Nat.strongRecOn generalizing arrivals with
  | ind len ih =>
      rw [recvskip]
      by_cases more : 128 < len
      · obtain ⟨ret, -, takes⟩ := recvall_clean clean (n := 128) (by omega) 0
        have left : len - 128 ≤ (pending (recvall arrivals 0 128).rest).length := by
          rw [takes.left, List.length_drop]
          omega
        obtain ⟨ret', takes'⟩ := ih (len - 128) (by omega) takes.clean left
        have whole := takes.trans takes'
        rw [Nat.add_sub_cancel' (Nat.le_of_lt more)] at whole
        simp only [more, dite_true, ret, Option.isNone_none, if_true]
        exact ⟨ret', whole⟩
      · rw [dif_neg more]
        obtain ⟨ret, -, takes⟩ := recvall_clean clean enough 0
        exact ⟨ret, takes⟩

theorem msgid_bytes (msgid : BitVec 16) :
    msgid.extractLsb' 8 8 ++ msgid.extractLsb' 0 8 = msgid := by
  exact BitVec.extractLsb'_append_extractLsb'

theorem msglen_bytes (msglen : BitVec 32) :
    msglen.extractLsb' 24 8 ++ msglen.extractLsb' 16 8 ++ msglen.extractLsb' 8 8 ++
      msglen.extractLsb' 0 8 = msglen := by
  rw [BitVec.extractLsb'_append_extractLsb'_eq_extractLsb' (show 24 = 16 + 8 from rfl),
    BitVec.extractLsb'_append_extractLsb'_eq_extractLsb' (show 16 = 8 + 8 from rfl)]
  exact BitVec.extractLsb'_append_extractLsb'

/-- A header that is there is read as it was written. -/
theorem recvhead_clean (clean : Clean arrivals) {msgid : BitVec 16} {msglen : BitVec 32}
    {more : List Byte} (there : pending arrivals = header msgid msglen ++ more) :
    (recvhead arrivals).ret = none ∧ (recvhead arrivals).msgid = msgid ∧
      (recvhead arrivals).msglen = msglen ∧ Takes 8 arrivals (recvhead arrivals).rest := by
  have enough : 8 ≤ (pending arrivals).length := by
    rw [there, List.length_append]
    exact Nat.le_add_right 8 _
  obtain ⟨ret, data, takes⟩ := recvall_clean clean enough 0
  have whole : (recvall arrivals 0 8).data = header msgid msglen := by
    rw [data, there]
    rfl
  rw [recvhead]
  simp only [ret, Option.isSome_none, Bool.false_eq_true, if_false, whole]
  exact ⟨rfl, msgid_bytes msgid, msglen_bytes msglen, takes⟩

/-- What a message comes in as with a buffer of size `maxlen`. -/
def received (maxlen : BitVec 32) (m : Message) :
    Option Errno × Option (BitVec 16) × BitVec 32 × List Byte :=
  (none, some m.msgid, BitVec.ofNat 32 (min m.payload.length maxlen.toNat),
    m.payload.take (min m.payload.length maxlen.toNat))

def RecvMsg.outcome (r : RecvMsg) : Option Errno × Option (BitVec 16) × BitVec 32 × List Byte :=
  (r.ret, r.msgid, r.msglen, r.data)

theorem length_encode (m : Message) : (encode m).length = 8 + m.payload.length :=
  List.length_append

/-- How much of a message is wanted. -/
theorem toNat_rlen (m : Message) (maxlen : BitVec 32) :
    (if maxlen < BitVec.ofNat 32 m.payload.length then maxlen
      else BitVec.ofNat 32 m.payload.length).toNat = min m.payload.length maxlen.toNat := by
  have whole : (BitVec.ofNat 32 m.payload.length).toNat = m.payload.length := by
    rw [BitVec.toNat_ofNat, Nat.mod_eq_of_lt m.fits]
  split
  · rename_i small
    rw [BitVec.lt_def, whole] at small
    omega
  · rename_i large
    rw [BitVec.lt_def, whole] at large
    rw [whole]
    omega

/-- A message that is there comes in, cut to the buffer, and is taken as a whole. -/
theorem recvmsg_clean (clean : Clean arrivals) {m : Message} {more : List Byte}
    (there : pending arrivals = encode m ++ more) (maxlen : BitVec 32) :
    (recvmsg maxlen arrivals).outcome = received maxlen m ∧
      Takes (encode m).length arrivals (recvmsg maxlen arrivals).rest := by
  rw [encode, List.append_assoc] at there
  obtain ⟨ret, msgid, msglen, takes_head⟩ := recvhead_clean clean there
  have after_head : pending (recvhead arrivals).rest = m.payload ++ more := by
    rw [takes_head.left, there]
    rfl
  have wanted := toNat_rlen m maxlen
  have whole : (BitVec.ofNat 32 m.payload.length).toNat = m.payload.length := by
    rw [BitVec.toNat_ofNat, Nat.mod_eq_of_lt m.fits]
  rw [recvmsg, length_encode]
  simp only [ret, msgid, msglen, Option.isSome_none, Bool.false_eq_true, if_false]
  generalize (if maxlen < BitVec.ofNat 32 m.payload.length then maxlen
    else BitVec.ofNat 32 m.payload.length) = rlen at *
  obtain ⟨ret_body, data, takes_body⟩ := recvall_clean takes_head.clean (n := rlen.toNat) (by
    rw [after_head, List.length_append]
    omega) 0
  rw [after_head, List.take_append_of_le_length (by omega)] at data
  have outcome : received maxlen m = (none, some m.msgid, rlen, m.payload.take rlen.toNat) := by
    rw [received, ← wanted, BitVec.ofNat_toNat, BitVec.setWidth_eq]
  simp only [ret_body, Option.isSome_none, Bool.false_eq_true, if_false]
  by_cases cut : rlen < BitVec.ofNat 32 m.payload.length
  · rw [if_pos cut]
    rw [BitVec.lt_def, whole] at cut
    have rest_length : (BitVec.ofNat 32 m.payload.length - rlen).toNat =
        m.payload.length - rlen.toNat := by
      rw [BitVec.toNat_sub, whole]
      have fits := m.fits
      omega
    have enough : m.payload.length - rlen.toNat ≤
        (pending (recvall (recvhead arrivals).rest 0 rlen.toNat).rest).length := by
      rw [takes_body.left, after_head, List.length_drop, List.length_append]
      omega
    obtain ⟨ret_skip, takes_skip⟩ := recvskip_clean takes_body.clean enough
    rw [rest_length]
    refine ⟨?_, ?_⟩
    · rw [outcome, RecvMsg.outcome, ret_skip, data]
    · have taken := (takes_head.trans takes_body).trans takes_skip
      rw [Nat.add_assoc, Nat.add_sub_cancel' (Nat.le_of_lt cut)] at taken
      exact taken
  · rw [if_neg cut]
    rw [BitVec.lt_def, whole] at cut
    refine ⟨?_, ?_⟩
    · rw [outcome, RecvMsg.outcome, data]
    · have taken := takes_head.trans takes_body
      rw [show 8 + rlen.toNat = 8 + m.payload.length by omega] at taken
      exact taken

/-- Messages that are there come in one after another. -/
theorem recvmsgs_clean (maxlen : BitVec 32) (messages : List Message) {arrivals : List Arrival}
    (clean : Clean arrivals) (there : pending arrivals = messages.flatMap encode) :
    (recvmsgs maxlen arrivals messages.length).1.map RecvMsg.outcome =
        messages.map (received maxlen) ∧
      (recvmsgs maxlen arrivals messages.length).2 = [] := by
  induction messages generalizing arrivals with
  | nil => exact ⟨rfl, nothing_left clean there⟩
  | cons m messages ih =>
      rw [List.flatMap_cons] at there
      obtain ⟨outcome, takes⟩ := recvmsg_clean clean there maxlen
      have rest : pending (recvmsg maxlen arrivals).rest = messages.flatMap encode := by
        rw [takes.left, there, List.drop_left]
      obtain ⟨outcomes, all⟩ := ih takes.clean rest
      refine ⟨?_, all⟩
      rw [List.length_cons, recvmsgs, List.map_cons, List.map_cons, outcome, outcomes]

theorem clean_chunks {chunks : List (List Byte)} (nonempty : ∀ chunk ∈ chunks, chunk ≠ []) :
    Clean (chunks.map .bytes) := by
  intro arrival member
  obtain ⟨chunk, mem, rfl⟩ := List.mem_map.1 member
  exact ⟨chunk, rfl, nonempty chunk mem⟩

theorem pending_chunks (chunks : List (List Byte)) :
    pending (chunks.map .bytes) = chunks.flatten := by
  induction chunks with
  | nil => rfl
  | cons chunk chunks ih => rw [List.map_cons, pending_bytes, ih, List.flatten_cons]

end Receiving

/-- However the bytes of messages sent with success are cut on their way, the messages come in
one after another, each cut to the buffer, and all the bytes are taken. -/
theorem framing_round_trip (messages : List Message) (results : List SendResult)
    (success : (sendmsgs results messages).ret = none) (chunks : List (List Byte))
    (nonempty : ∀ chunk ∈ chunks, chunk ≠ [])
    (cut : chunks.flatten = (sendmsgs results messages).wire) (maxlen : BitVec 32) :
    (recvmsgs maxlen (chunks.map .bytes) messages.length).1.map RecvMsg.outcome =
        messages.map (received maxlen) ∧
      (recvmsgs maxlen (chunks.map .bytes) messages.length).2 = [] := by
  apply recvmsgs_clean maxlen messages (clean_chunks nonempty)
  rw [pending_chunks, cut, sendmsgs_wire success]

/-- Two messages sent in pieces, received in others with a buffer of two bytes. -/
theorem two_messages_received :
    (recvmsgs 2 [.bytes [0x50], .bytes [0x53, 0, 7, 0, 0, 0, 3, 1, 2], .bytes [3, 0x50, 0x53, 0],
        .bytes [9, 0, 0, 0, 0]] 2).1.map RecvMsg.outcome =
      [(none, some 7, 2, [1, 2]), (none, some 9, 0, [])] ∧
    (recvmsgs 2 [.bytes [0x50], .bytes [0x53, 0, 7, 0, 0, 0, 3, 1, 2], .bytes [3, 0x50, 0x53, 0],
        .bytes [9, 0, 0, 0, 0]] 2).2 = [] :=
  framing_round_trip [⟨7, [1, 2, 3], by decide⟩, ⟨9, [], by decide⟩]
    [.sent 3, .sent 9, .sent 1, .sent 2, .sent 8] (by decide)
    [[0x50], [0x53, 0, 7, 0, 0, 0, 3, 1, 2], [3, 0x50, 0x53, 0], [9, 0, 0, 0, 0]] (by decide)
    (by decide) 2

end PscDigpid.Sw.Pscmsg
