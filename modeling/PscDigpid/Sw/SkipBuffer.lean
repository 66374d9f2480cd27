/- Unit: PscDigpid/Sw/SkipBuffer
   layer: result
   source: src/sw/src/pscmsg.c
   digest: Where skipping writes: within its buffer as long as no full piece fails. -/

import PscDigpid.Sw.Pscmsg

set_option autoImplicit false
set_option relaxedAutoImplicit false

namespace PscDigpid.Sw.Pscmsg

/-- How many bytes come in before the first call that fails or finds the connection closed. -/
def delivered : List Arrival → Nat
  | [] => 0
  | .error _ :: _ => 0
  | .bytes chunk :: arrivals => if chunk = [] then 0 else chunk.length + delivered arrivals

section Pieces

variable {arrivals : List Arrival}

/-- Each call asks for what is missing, at the place where it is missing. -/
theorem recvall_asks {offset n : Nat} {ask : Nat × Nat}
    (asked : ask ∈ (recvall arrivals offset n).asks) : ask.1 + ask.2 = offset + n := by
  induction arrivals, offset, n using recvall.induct with
  | case1 arrivals offset =>
      rw [recvall] at asked
      exact absurd asked List.not_mem_nil
  | case2 offset n =>
      rw [recvall] at asked
      rw [List.mem_singleton.1 asked]
  | case3 e arrivals offset n =>
      rw [recvall] at asked
      rw [List.mem_singleton.1 asked]
  | case4 arrivals offset n =>
      rw [recvall, if_pos rfl] at asked
      rw [List.mem_singleton.1 asked]
  | case5 chunk arrivals offset n some_bytes longer =>
      rw [recvall, if_neg some_bytes, if_pos longer] at asked
      rw [List.mem_singleton.1 asked]
  | case6 chunk arrivals offset n some_bytes within ih =>
      rw [recvall, if_neg some_bytes, if_neg within] at asked
      rcases List.mem_cons.1 asked with rfl | later
      · rfl
      · have whole := ih later
        omega

/-- The first call asks for everything, at the start. -/
theorem recvall_first_ask (offset n : Nat) :
    (offset, n + 1) ∈ (recvall arrivals offset (n + 1)).asks := by
  cases arrivals with
  | nil => exact List.mem_singleton_self _
  | cons arrival arrivals =>
      cases arrival with
      | error e => exact List.mem_singleton_self _
      | bytes chunk =>
          rw [recvall]
          split_ifs
          · exact List.mem_singleton_self _
          · exact List.mem_singleton_self _
          · exact List.mem_cons_self

/-- A receive succeeds with enough bytes to come before the first failure, and takes them. -/
theorem recvall_delivered (arrivals : List Arrival) (offset n : Nat) :
    ((recvall arrivals offset n).ret = none ↔ n ≤ delivered arrivals) ∧
      (n ≤ delivered arrivals →
        delivered (recvall arrivals offset n).rest = delivered arrivals - n) := by
  induction arrivals, offset, n using recvall.induct with
  | case1 arrivals offset =>
      rw [recvall]
      exact ⟨iff_of_true rfl (Nat.zero_le _), fun _ => rfl⟩
  | case2 offset n =>
      refine ⟨iff_of_false (Option.some_ne_none _) (Nat.not_succ_le_zero n), ?_⟩
      intro enough
      exact absurd enough (Nat.not_succ_le_zero n)
  | case3 e arrivals offset n =>
      refine ⟨iff_of_false (Option.some_ne_none _) (Nat.not_succ_le_zero n), ?_⟩
      intro enough
      exact absurd enough (Nat.not_succ_le_zero n)
  | case4 arrivals offset n =>
      rw [recvall, if_pos rfl, delivered, if_pos rfl]
      refine ⟨iff_of_false (Option.some_ne_none _) (Nat.not_succ_le_zero n), ?_⟩
      intro enough
      exact absurd enough (Nat.not_succ_le_zero n)
  | case5 chunk arrivals offset n some_bytes longer =>
      rw [recvall, if_neg some_bytes, if_pos longer, delivered, if_neg some_bytes]
      have left : chunk.drop (n + 1) ≠ [] := by
        rw [Ne, List.drop_eq_nil_iff]
        exact Nat.not_le.2 longer
      refine ⟨iff_of_true rfl (by omega), ?_⟩
      intro _
      rw [delivered, if_neg left, List.length_drop]
      omega
  | case6 chunk arrivals offset n some_bytes within ih =>
      rw [recvall, if_neg some_bytes, if_neg within, delivered, if_neg some_bytes]
      obtain ⟨success, taken⟩ := ih
      refine ⟨success.trans ⟨fun enough => by omega, fun enough => by omega⟩, ?_⟩
      intro enough
      refine (taken (by omega)).trans ?_
      omega

end Pieces

/-- Every call of `recv` stays within the 128 bytes of the buffer. -/
def Within (asks : List (Nat × Nat)) : Prop := ∀ ask ∈ asks, ask.1 + ask.2 ≤ 128

theorem within_recvall {n : Nat} (fits : n ≤ 128) (arrivals : List Arrival) :
    Within (recvall arrivals 0 n).asks := by
  intro ask asked
  rw [recvall_asks asked, Nat.zero_add]
  exact fits

/-- Skipping stays within its buffer if and only if every full piece before the last comes in
before the first failure: after a failed piece the last call asks for all that is left. -/
theorem recvskip_within (arrivals : List Arrival) (len : Nat) :
    Within (recvskip arrivals len).asks ↔ 128 * ((len - 1) / 128) ≤ delivered arrivals := by
  induction len using Nat.strongRecOn generalizing arrivals with
  | ind len ih =>
      rw [recvskip]
      by_cases more : 128 < len
      · obtain ⟨success, taken⟩ := recvall_delivered arrivals 0 128
        have pieces : (len - 1) / 128 = (len - 128 - 1) / 128 + 1 := by omega
        rw [dif_pos more]
        by_cases enough : 128 ≤ delivered arrivals
        · have later := ih (len - 128) (by omega) (recvall arrivals 0 128).rest
          rw [taken enough] at later
          simp only [success.2 enough, Option.isNone_none, if_true]
          rw [Within, List.forall_mem_append]
          refine (and_iff_right (within_recvall (Nat.le_refl 128) arrivals)).trans ?_
          exact later.trans ⟨fun _ => by omega, fun _ => by omega⟩
        · have failed : (recvall arrivals 0 128).ret.isNone = false := by
            rw [Option.isNone_eq_false_iff, Option.isSome_iff_ne_none]
            exact fun ret => enough (success.1 ret)
          simp only [failed, Bool.false_eq_true, if_false]
          refine iff_of_false ?_ (by omega)
          intro within
          obtain ⟨n, rfl⟩ := Nat.exists_eq_add_of_lt more
          have overrun := within (0, 128 + n + 1)
            (List.mem_append_right _ (recvall_first_ask 0 (128 + n)))
          omega
      · rw [dif_neg more]
        refine iff_of_true (within_recvall (Nat.le_of_not_lt more) arrivals) ?_
        rw [Nat.div_eq_of_lt (by omega), Nat.mul_zero]
        exact Nat.zero_le _

/-- A receive timeout 100 bytes into a skip of 300: the last call asks for all 300. -/
theorem recvskip_timeout_overruns :
    ¬ ∀ (arrivals : List Arrival) (len : Nat), Within (recvskip arrivals len).asks := by
  intro within
  have bound := within [.bytes (List.replicate 100 0), .error (.other 11)] 300
  rw [recvskip] at bound
  exact absurd (bound (0, 300) (by decide)) (by decide)

end PscDigpid.Sw.Pscmsg
