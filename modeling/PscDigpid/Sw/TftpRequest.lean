/- Unit: PscDigpid/Sw/TftpRequest
   layer: result
   source: src/sw/src/tftp_server.c (recv, TFTP_RRQ and TFTP_WRQ)
   digest: The requests that are accepted: two strings that end and fit their buffers. -/

import Mathlib.Tactic.SplitIfs
import PscDigpid.Sw.Tftp

set_option autoImplicit false
set_option relaxedAutoImplicit false

namespace PscDigpid.Sw.Tftp

namespace Datagram

/-- A request of RFC 1350 that the buffers have room for: after the opcode a file name and a mode,
each with its end. -/
structure Request (d : Datagram) (filename mode rest : List Byte) : Prop where
  bytes : d.bytes.drop 2 = filename ++ 0 :: (mode ++ 0 :: rest)
  named : 0 ∉ filename
  moded : 0 ∉ mode
  shortName : filename.length + 1 ≤ sizeofFilename
  shortMode : mode.length + 1 ≤ sizeofMode

section Find

variable {d : Datagram} {start : Nat}

theorem memfind_none (none : 0 ∉ d.bytes.drop start) : d.memfind start = 0xFFFF := by
  have missing : (d.bytes.drop start).findIdx? (· == 0) = Option.none :=
    List.findIdx?_eq_none_iff.2 fun b mem => beq_eq_false_iff_ne.2 fun zero => none (zero ▸ mem)
  rw [memfind, missing]

theorem memfind_some {a rest : List Byte} (found : d.bytes.drop start = a ++ 0 :: rest)
    (first : 0 ∉ a) : d.memfind start = BitVec.ofNat 16 (start + a.length) := by
  have missing : a.findIdx? (· == 0) = Option.none :=
    List.findIdx?_eq_none_iff.2 fun b mem => beq_eq_false_iff_ne.2 fun zero => first (zero ▸ mem)
  have place : (d.bytes.drop start).findIdx? (· == 0) = some a.length := by
    rw [found, List.findIdx?_append, missing, List.findIdx?_cons]
    simp
  rw [memfind, place]

end Find

section Parse

variable {d : Datagram}

/-- The bytes of a place and a number are a word's worth apart. -/
theorem toNat_sub_word {a b : Nat} (le : b ≤ a) (inside : a < 65536) :
    (BitVec.ofNat 16 a - BitVec.ofNat 16 b).toNat = a - b := by
  rw [BitVec.toNat_sub, BitVec.toNat_ofNat, BitVec.toNat_ofNat]
  omega

/-- A string with its end, copied from where it stands. -/
theorem take_end (l rest : List Byte) : (l ++ 0 :: rest).take (l.length + 1) = l ++ [0] := by
  rw [List.append_cons]
  exact List.take_left' List.length_append

/-- Without its end the file name is too long. -/
theorem parse_unnamed (none : 0 ∉ d.bytes.drop 2) :
    d.parse = .error "Filename too long/not NULL terminated" := by
  rw [parse, memfind_none none]
  rfl

variable {filename r : List Byte}

/-- The place of the file name's end. -/
theorem memfind_filename (small : d.bytes.length ≤ 65535)
    (bytes : d.bytes.drop 2 = filename ++ 0 :: r) (named : 0 ∉ filename) :
    d.memfind 2 = BitVec.ofNat 16 (filename.length + 2) ∧
      filename.length + 3 + r.length ≤ 65535 := by
  have length := congrArg List.length bytes
  rw [List.length_drop, List.length_append, List.length_cons] at length
  refine ⟨?_, by omega⟩
  rw [memfind_some bytes named, Nat.add_comm]

theorem parse_long (small : d.bytes.length ≤ 65535)
    (bytes : d.bytes.drop 2 = filename ++ 0 :: r) (named : 0 ∉ filename)
    (long : sizeofFilename < filename.length + 1) :
    d.parse = .error "Filename too long/not NULL terminated" := by
  obtain ⟨place, inside⟩ := memfind_filename small bytes named
  have count : (BitVec.ofNat 16 (filename.length + 2) - 1).toNat = filename.length + 1 :=
    toNat_sub_word (b := 1) (by omega) (by omega)
  rw [parse, place, count]
  exact if_pos long

/-- What is answered where the file name is right. -/
theorem parse_named (small : d.bytes.length ≤ 65535)
    (bytes : d.bytes.drop 2 = filename ++ 0 :: r) (named : 0 ∉ filename)
    (shortName : filename.length + 1 ≤ sizeofFilename) :
    (0 ∉ r → d.parse = .error "Mode too long/not NULL terminated") ∧
      ∀ mode rest, r = mode ++ 0 :: rest → 0 ∉ mode →
        d.parse =
          if sizeofMode < mode.length + 1 then .error "Mode too long/not NULL terminated"
          else .ok (filename ++ [0], mode ++ [0]) := by
  obtain ⟨place, inside⟩ := memfind_filename small bytes named
  have count : (BitVec.ofNat 16 (filename.length + 2) - 1).toNat = filename.length + 1 :=
    toNat_sub_word (b := 1) (by omega) (by omega)
  have next : (BitVec.ofNat 16 (filename.length + 2) + 1).toNat = filename.length + 3 := by
    rw [show BitVec.ofNat 16 (filename.length + 2) + 1 = BitVec.ofNat 16 (filename.length + 3) from
      (BitVec.ofNat_add _ 1).symm, BitVec.toNat_ofNat]
    omega
  have front : (filename ++ [0]).length = filename.length + 1 := List.length_append
  have behind : d.bytes.drop (filename.length + 3) = r := by
    rw [show filename.length + 3 = 2 + (filename.length + 1) by omega, ← List.drop_drop, bytes,
      List.append_cons]
    exact List.drop_left' front
  have copied : d.copyPartial (filename.length + 1) 2 = filename ++ [0] := by
    rw [copyPartial, bytes, take_end]
  rw [parse, place, count]
  dsimp only
  rw [if_neg (Nat.not_lt.2 shortName), next, copied]
  refine ⟨fun none => ?_, fun mode rest split moded => ?_⟩
  · have far : (0xFFFF - BitVec.ofNat 16 (filename.length + 2)).toNat =
        65535 - (filename.length + 2) := toNat_sub_word (a := 65535) (by omega) (by omega)
    rw [sizeofFilename] at shortName
    rw [memfind_none (behind ▸ none), far, sizeofMode, if_pos (by omega)]
  · have within : mode.length + 1 + rest.length = r.length := by
      rw [split, List.length_append, List.length_cons, Nat.add_right_comm]
      rfl
    have second : (BitVec.ofNat 16 (filename.length + 3 + mode.length) -
        BitVec.ofNat 16 (filename.length + 2)).toNat = mode.length + 1 := by
      rw [toNat_sub_word (by omega) (by omega)]
      omega
    rw [memfind_some (behind.trans split) moded, second, copyPartial, behind, split, take_end]

/-- A request is accepted exactly when it is a file name and a mode with their ends that fit, and
what is copied is the two of them. -/
theorem parse_eq_ok_iff (small : d.bytes.length ≤ 65535) {name kind : List Byte} :
    d.parse = .ok (name, kind) ↔ ∃ filename mode rest, d.Request filename mode rest ∧
      name = filename ++ [0] ∧ kind = mode ++ [0] := by
  constructor
  · intro accepted
    by_cases ends : 0 ∈ d.bytes.drop 2
    · obtain ⟨filename, r, bytes, named⟩ := List.eq_append_cons_of_mem ends
      obtain long | shortName := Nat.lt_or_ge sizeofFilename (filename.length + 1)
      · rw [parse_long small bytes named long] at accepted
        cases accepted
      · obtain ⟨unended, ended⟩ := parse_named small bytes named shortName
        by_cases again : 0 ∈ r
        · obtain ⟨mode, rest, split, moded⟩ := List.eq_append_cons_of_mem again
          rw [ended mode rest split moded] at accepted
          split_ifs at accepted with long
          obtain ⟨rfl, rfl⟩ := Prod.mk.inj (Except.ok.inj accepted)
          exact ⟨filename, mode, rest,
            ⟨split ▸ bytes, named, moded, shortName, Nat.le_of_not_lt long⟩, rfl, rfl⟩
        · rw [unended again] at accepted
          cases accepted
    · rw [parse_unnamed ends] at accepted
      cases accepted
  · rintro ⟨filename, mode, rest, ⟨bytes, named, moded, shortName, shortMode⟩, rfl, rfl⟩
    rw [(parse_named small bytes named shortName).2 mode rest rfl moded,
      if_neg (Nat.not_lt.2 shortMode)]

/-- A string with its end is that string to C. -/
theorem cString_ended {l : List Byte} (plain : 0 ∉ l) : cString (l ++ [0]) = l := by
  have kept : ∀ b ∈ l, (b != 0) = true := fun b mem => bne_iff_ne.2 fun zero => plain (zero ▸ mem)
  rw [cString, List.takeWhile_append_of_pos kept]
  exact List.append_nil l

/-- What is copied is a request's two strings with their ends, within their buffers. -/
theorem copied_within (small : d.bytes.length ≤ 65535) {name kind : List Byte}
    (accepted : d.parse = .ok (name, kind)) :
    name = cString name ++ [0] ∧ kind = cString kind ++ [0] ∧ name.length ≤ sizeofFilename ∧
      kind.length ≤ sizeofMode := by
  obtain ⟨filename, mode, rest, request, rfl, rfl⟩ := (parse_eq_ok_iff small).1 accepted
  rw [cString_ended request.named, cString_ended request.moded]
  refine ⟨rfl, rfl, ?_, ?_⟩
  · exact Nat.le_trans (Nat.le_of_eq List.length_append) request.shortName
  · exact Nat.le_trans (Nat.le_of_eq List.length_append) request.shortMode

/-- The strings that are handed to `open` are those of a request, which is all there is to accept;
whatever is accepted, the copies on the way are these strings with their ends and do not exceed
their buffers. -/
theorem accepted_iff (small : d.bytes.length ≤ 65535) :
    (∀ filename mode, (∃ name kind, d.parse = .ok (name, kind) ∧ cString name = filename ∧
      cString kind = mode) ↔ ∃ rest, d.Request filename mode rest) ∧
    ∀ name kind, d.parse = .ok (name, kind) → name = cString name ++ [0] ∧
      kind = cString kind ++ [0] ∧ name.length ≤ sizeofFilename ∧ kind.length ≤ sizeofMode := by
  refine ⟨fun filename mode => ⟨?_, ?_⟩, fun name kind accepted => copied_within small accepted⟩
  · rintro ⟨name, kind, parsed, rfl, rfl⟩
    obtain ⟨filename, mode, rest, request, rfl, rfl⟩ := (parse_eq_ok_iff small).1 parsed
    rw [cString_ended request.named, cString_ended request.moded]
    exact ⟨rest, request⟩
  · rintro ⟨rest, request⟩
    exact ⟨filename ++ [0], mode ++ [0],
      (parse_eq_ok_iff small).2 ⟨filename, mode, rest, request, rfl, rfl⟩,
      cString_ended request.named, cString_ended request.moded⟩

/-- A request in two buffers, with an option behind it. -/
def optionRequest : Datagram where
  sender := ⟨0x0A000001, 2000⟩
  chain := [[0, 1, 0x66], [0, 0x6F, 0x63, 0x74, 0x65, 0x74, 0, 0x78]]
  beyond := fun _ => 0

theorem option_request_accepted :
    (∃ rest, optionRequest.Request [0x66] [0x6F, 0x63, 0x74, 0x65, 0x74] rest) ∧
      ∀ name kind, optionRequest.parse = .ok (name, kind) →
        name.length ≤ sizeofFilename ∧ kind.length ≤ sizeofMode := by
  have small : optionRequest.bytes.length ≤ 65535 := by decide
  obtain ⟨requests, copies⟩ := accepted_iff small
  refine ⟨(requests _ _).1 ⟨[0x66, 0], [0x6F, 0x63, 0x74, 0x65, 0x74, 0], rfl, rfl, rfl⟩,
    fun name kind accepted => ?_⟩
  obtain ⟨-, -, within⟩ := copies name kind accepted
  exact within

/-- A file name of 21 letters is one too long. -/
example : Datagram.parse ⟨⟨0x0A000001, 2000⟩,
    [[0, 1] ++ List.replicate 21 0x66 ++ [0, 0x6F, 0x63, 0x74, 0x65, 0x74, 0]], fun _ => 0⟩ =
      .error "Filename too long/not NULL terminated" :=
  rfl

end Parse

end Datagram

end PscDigpid.Sw.Tftp
