/- Unit: PscDigpid/Hdl/SnapshotRecords
   layer: result
   source: src/hw/hdl/adc2ddr.vhd
   digest: Each word of a record in memory is the one that its burst has put on the bus. -/

import PscDigpid.Hdl.SnapshotRing

set_option autoImplicit false
set_option relaxedAutoImplicit false

namespace PscDigpid.Hdl.Adc2ddr

open PscDigpid.Sync

section Law

variable (c : Capture) (inp : Nat → Ports)

/-- Burst `k` puts its word `n` on the bus at clock `u`. -/
structure PutAt (k n u : Nat) : Prop where
  burst : bursts c inp u = k + 1
  writes : Writes (run Capture.step c inp u).writer.state
  place : puts (run Capture.step c inp u).writer.state = n
  ready : (inp u).s2m.wready = true

/-- A word that burst `k` has put on the bus as its word `n` before clock `t`. -/
def HasPut (t k n : Nat) (w : BitVec 32) : Prop :=
  ∃ u, u < t ∧ PutAt c inp k n u ∧
    w = word (run Capture.step c inp u).writer.datacnt (inp u) (wordState n)

/-- Word `n` of burst `k` is in memory at clock `t`, if no other has been stored over it. -/
def Stored (t k n : Nat) : Prop :=
  k + 1 < bursts c inp t ∨ k + 1 = bursts c inp t ∧
    ((run Capture.step c inp t).writer.state = .idle ∨
      n + 1 < puts (run Capture.step c inp t).writer.state)

/-- What the bus and the memory have at clock `t`, with the bursts counted from `first` on. The last
word of a record is not among it, since its slave may not take it. -/
structure Recorded (first t : Nat) : Prop where
  begun : (run Capture.step c inp t).writer.state ≠ .idle → 0 < bursts c inp t
  offer : Writes (run Capture.step c inp t).writer.state →
    (run Capture.step c inp t).writer.m2s.wvalid = true →
    HasPut c inp t (bursts c inp t - 1) (puts (run Capture.step c inp t).writer.state - 1)
      (run Capture.step c inp t).writer.m2s.wdata
  mem : ∀ k n, n < 39 → Stored c inp t k n → bursts c inp t ≤ k + ringLen →
    HasPut c inp t k n ((run Capture.step c inp t).mem (wordAddr (slotAddr (first + k)) n))

end Law

section Runs

variable {c : Capture} {inp : Nat → Ports} {first t k n : Nat} {w : BitVec 32}

theorem HasPut.later {t' : Nat} (put : HasPut c inp t k n w) (le : t ≤ t') :
    HasPut c inp t' k n w := by
  obtain ⟨u, before, rest⟩ := put
  exact ⟨u, Nat.lt_of_lt_of_le before le, rest⟩

theorem Stored.begun (stored : Stored c inp t k n) : k < bursts c inp t := by
  obtain earlier | ⟨current, -⟩ := stored
  · omega
  · omega

theorem bursts_succ (c : Capture) (inp : Nat → Ports) (t : Nat) : bursts c inp (t + 1) =
    bursts c inp t + (begins (run Capture.step c inp t).writer (inp t)).toNat :=
  ticksBefore_succ _ t

theorem bursts_busy (busy : (run Capture.step c inp t).writer.state ≠ .idle) :
    bursts c inp (t + 1) = bursts c inp t := by
  rw [bursts_succ, begins_busy busy, Bool.toNat_false, Nat.add_zero]

/-- A clock that stores no word of a record and ends none keeps what is recorded of it. -/
theorem Recorded.mem_kept (recorded : Recorded c inp first t) {k n : Nat} (inside : n < 39)
    (unwritten : (run Capture.step c inp t).wrote (inp t)
      (wordAddr (slotAddr (first + k)) n) = false)
    (stored : Stored c inp t k n) (fits : bursts c inp (t + 1) ≤ k + ringLen) :
    HasPut c inp (t + 1) k n
      ((run Capture.step c inp (t + 1)).mem (wordAddr (slotAddr (first + k)) n)) := by
  have fewer : bursts c inp t ≤ bursts c inp (t + 1) := ticksBefore_mono _ (Nat.le_succ t)
  rw [run_succ, step_mem_kept unwritten]
  exact (recorded.mem k n inside stored (Nat.le_trans fewer fits)).later (Nat.le_succ t)

theorem wrote_quiet (quiet : (run Capture.step c inp t).writer.m2s.wvalid = false)
    (a : BitVec 32) : (run Capture.step c inp t).wrote (inp t) a = false := by
  rw [Capture.wrote, quiet]
  rfl

theorem recorded_idle (recorded : Recorded c inp first t) (running : (inp t).reset = false)
    (idle : (run Capture.step c inp t).writer.state = .idle)
    (quiet : (run Capture.step c inp t).writer.m2s.wvalid = false) :
    Recorded c inp first (t + 1) := by
  have clock : (run Capture.step c inp (t + 1)).writer =
      idleClock (run Capture.step c inp t).writer (inp t) := step_idle running idle
  have count := bursts_succ c inp t
  cases starts : begins (run Capture.step c inp t).writer (inp t) with
  | true =>
    rw [starts, Bool.toNat_true] at count
    have edge := (begins_state starts).2
    rw [idleClock, if_pos edge] at clock
    refine ⟨fun _ => by omega, fun writes => ?_, fun k n inside stored fits => ?_⟩
    · rw [clock] at writes
      exact absurd rfl writes.2.1
    · refine recorded.mem_kept inside (wrote_quiet quiet _) ?_ fits
      obtain earlier | ⟨current, finished | early⟩ := stored
      · obtain before | last := Nat.lt_or_eq_of_le (Nat.le_of_lt_succ (count ▸ earlier))
        · exact .inl before
        · exact .inr ⟨last, .inl idle⟩
      · rw [clock] at finished
        cases finished
      · rw [clock] at early
        exact absurd early (Nat.not_lt_zero _)
  | false =>
    rw [starts, Bool.toNat_false, Nat.add_zero] at count
    have rests : (run Capture.step c inp (t + 1)).writer.state = .idle := by
      rw [begins, idle] at starts
      have none : ((inp t).trigger && !(run Capture.step c inp t).writer.prevTrigger) = false :=
        starts
      rw [clock, idleClock, none, if_neg Bool.false_ne_true]
      exact idle
    refine ⟨fun busy => absurd rests busy, fun writes => absurd rests writes.1,
      fun k n inside stored fits => ?_⟩
    refine recorded.mem_kept inside (wrote_quiet quiet _) ?_ fits
    rw [Stored, count] at stored
    exact stored.imp_right fun both => ⟨both.1, .inl idle⟩

theorem recorded_address (recorded : Recorded c inp first t) (running : (inp t).reset = false)
    (address : (run Capture.step c inp t).writer.state = .address)
    (quiet : (run Capture.step c inp t).writer.m2s.wvalid = false) :
    Recorded c inp first (t + 1) := by
  have busy : (run Capture.step c inp t).writer.state ≠ .idle := by
    rw [address]
    decide
  have count := bursts_busy busy
  have clock : (run Capture.step c inp (t + 1)).writer =
      addressClock (run Capture.step c inp t).writer (inp t) := step_address running address
  have next : (run Capture.step c inp (t + 1)).writer.m2s.wvalid = false ∧
      ((run Capture.step c inp (t + 1)).writer.state = .address ∨
        (run Capture.step c inp (t + 1)).writer.state = .hdr) := by
    rw [clock, addressClock]
    split_ifs
    · exact ⟨quiet, .inr rfl⟩
    · exact ⟨quiet, .inl address⟩
  refine ⟨fun _ => count ▸ recorded.begun busy, fun _ valid => ?_, fun k n inside stored fits => ?_⟩
  · rw [next.1] at valid
    cases valid
  · refine recorded.mem_kept inside (wrote_quiet quiet _) ?_ fits
    obtain earlier | ⟨-, finished | early⟩ := stored
    · exact .inl (count ▸ earlier)
    · obtain stays | header := next.2
      · rw [stays] at finished
        cases finished
      · rw [header] at finished
        cases finished
    · obtain stays | header := next.2
      · rw [stays] at early
        exact absurd early (Nat.not_lt_zero _)
      · rw [header] at early
        exact absurd early (Nat.not_lt_zero _)

/-- The word of a burst under way is stored at one place of the ring only. -/
theorem same_word {k' m : Nat} (under : k' + 1 = first + bursts c inp t) (inside : n < 39)
    (word : m < 40) (begun : k < bursts c inp t) (fits : bursts c inp t ≤ k + ringLen)
    (same : wordAddr (slotAddr k') m = wordAddr (slotAddr (first + k)) n) :
    k = bursts c inp t - 1 ∧ n = m := by
  obtain ⟨slot, rfl⟩ := wordAddr_injective word (by omega) same
  unfold ringLen at *
  exact ⟨by omega, rfl⟩

theorem recorded_writing {k' : Nat} (recorded : Recorded c inp first t)
    (running : (inp t).reset = false) (under : k' + 1 = first + bursts c inp t)
    (writes : Writes (run Capture.step c inp t).writer.state)
    (offered : (run Capture.step c inp t).writer.m2s.wvalid =
      decide (0 < puts (run Capture.step c inp t).writer.state))
    (place : (run Capture.step c inp t).addr =
      wordAddr (slotAddr k') (puts (run Capture.step c inp t).writer.state - 1)) :
    Recorded c inp first (t + 1) := by
  have count := bursts_busy writes.1
  have some_begun := recorded.begun writes.1
  have before := puts_lt writes
  have clock : (run Capture.step c inp (t + 1)).writer =
      writeWord (run Capture.step c inp t).writer (inp t) := step_writes running writes
  cases ready : (inp t).s2m.wready with
  | false =>
    rw [writeWord, ready, if_neg Bool.false_ne_true] at clock
    have unwritten : ∀ a, (run Capture.step c inp t).wrote (inp t) a = false := by
      intro a
      rw [Capture.wrote, ready, Bool.and_false]
      rfl
    refine ⟨fun _ => count ▸ some_begun, ?_, fun k n inside stored fits => ?_⟩
    · rw [count, clock]
      exact fun writes valid => (recorded.offer writes valid).later (Nat.le_succ t)
    · refine recorded.mem_kept inside (unwritten _) ?_ fits
      rwa [Stored, count, clock] at stored
  | true =>
    obtain ⟨more, busy, -⟩ := puts_next writes
    rw [writeWord, if_pos ready] at clock
    have state : (run Capture.step c inp (t + 1)).writer.state =
        next (run Capture.step c inp t).writer.state := by rw [clock]
    refine ⟨fun _ => count ▸ some_begun, fun _ _ => ?_, fun k n inside stored fits => ?_⟩
    · rw [count, state, more, Nat.add_sub_cancel]
      refine ⟨t, Nat.lt_succ_self t, ⟨by omega, writes, rfl, ready⟩, ?_⟩
      rw [clock, wordState_puts writes]
    · cases wrote : (run Capture.step c inp t).wrote (inp t)
          (wordAddr (slotAddr (first + k)) n) with
      | true =>
        obtain ⟨accepts, here⟩ := Bool.and_eq_true_iff.1 wrote
        have valid := (Bool.and_eq_true_iff.1 accepts).1
        have same := place.symm.trans (of_decide_eq_true here)
        obtain ⟨current, rfl⟩ := same_word under inside (by omega)
          (count ▸ stored.begun) (count ▸ fits) same
        rw [run_succ, step_mem_wrote wrote, current]
        exact (recorded.offer writes valid).later (Nat.le_succ t)
      | false =>
        refine recorded.mem_kept inside wrote ?_ fits
        rw [Stored, count, state, more] at stored
        obtain earlier | ⟨current, finished | early⟩ := stored
        · exact .inl earlier
        · exact absurd finished busy
        · refine .inr ⟨current, .inr ?_⟩
          -- the word that is on the bus would have been stored now
          by_contra late
          have last : n = puts (run Capture.step c inp t).writer.state - 1 := by omega
          have burst : k' = first + k := by omega
          rw [Capture.wrote, offered, ready, place, burst, last,
            decide_eq_true (show 0 < _ by omega), decide_eq_true rfl] at wrote
          cases wrote

theorem recorded_response {k' : Nat} (recorded : Recorded c inp first t)
    (running : (inp t).reset = false)
    (awaits : (run Capture.step c inp t).writer.state = .awaitresp)
    (place : (run Capture.step c inp t).writer.m2s.wvalid = true →
      (run Capture.step c inp t).addr = wordAddr (slotAddr k') 39) :
    Recorded c inp first (t + 1) := by
  have busy : (run Capture.step c inp t).writer.state ≠ .idle := by
    rw [awaits]
    decide
  have count := bursts_busy busy
  have clock : (run Capture.step c inp (t + 1)).writer =
      awaitrespClock (run Capture.step c inp t).writer (inp t) := step_awaitresp running awaits
  have next : (run Capture.step c inp (t + 1)).writer.m2s.wvalid = false := by
    rw [clock, awaitrespClock]
    cases (inp t).s2m.bvalid with
    | true => rfl
    | false => rfl
  refine ⟨fun _ => count ▸ recorded.begun busy, fun _ valid => ?_, fun k n inside stored fits => ?_⟩
  · rw [next] at valid
    cases valid
  · refine recorded.mem_kept inside ?_ ?_ fits
    · cases wrote : (run Capture.step c inp t).wrote (inp t)
          (wordAddr (slotAddr (first + k)) n) with
      | false => rfl
      | true =>
        obtain ⟨accepts, here⟩ := Bool.and_eq_true_iff.1 wrote
        rw [place (Bool.and_eq_true_iff.1 accepts).1] at here
        have same := (wordAddr_injective (by decide) (by omega) (of_decide_eq_true here)).2
        omega
    · rw [Stored, count] at stored
      refine stored.imp_right fun both => ⟨both.1, .inr ?_⟩
      rw [awaits]
      exact Nat.succ_lt_succ inside

/-- What is recorded stays so along a run. -/
theorem recorded_run (fresh : Fresh first c.writer) (running : ∀ t, (inp t).reset = false)
    (t : Nat) : Recorded c inp first t := by
  induction t with
  | zero =>
    refine ⟨fun busy => absurd fresh.state busy, fun writes => absurd fresh.state writes.1,
      fun k n _ stored _ => ?_⟩
    have begun := stored.begun
    rw [bursts, ticksBefore_zero] at begun
    exact absurd begun (Nat.not_lt_zero k)
  | succ t ih =>
    have placed := placed_run fresh running t
    generalize number : first + bursts c inp t = m at placed
    cases placed with
    | idle state count base awvalid wvalid => exact recorded_idle ih (running t) state wvalid
    | address state under awaddr awvalid wvalid =>
      exact recorded_address ih (running t) state wvalid
    | writing writes under awvalid wvalid place tick =>
      exact recorded_writing ih (running t) number.symm writes wvalid place
    | response state under awvalid place => exact recorded_response ih (running t) state place

/-- A word of a record that is read before the ring has gone round is one that its burst has put on
the bus. -/
theorem record_word (fresh : Fresh first c.writer) (running : ∀ t, (inp t).reset = false)
    (inside : n < 39) (stored : Stored c inp t k n) (fits : bursts c inp t ≤ k + ringLen) :
    HasPut c inp t k n ((run Capture.step c inp t).mem (wordAddr (slotAddr (first + k)) n)) :=
  (recorded_run fresh running t).mem k n inside stored fits

/-- The tick counter while a burst puts its words. -/
theorem PutAt.datacnt {u : Nat} (put : PutAt c inp k n u) (fresh : Fresh first c.writer)
    (running : ∀ t, (inp t).reset = false) :
    (run Capture.step c inp u).writer.datacnt = c.writer.datacnt + BitVec.ofNat 32 (k + 1) := by
  have placed := placed_run fresh running u
  rw [put.burst] at placed
  generalize number : first + (k + 1) = m at placed
  have counted (k' : Nat) (same : first + (k + 1) = k' + 1)
      (under : Under (c.writer.datacnt - BitVec.ofNat 32 first) k'
        (run Capture.step c inp u).writer) :
      (run Capture.step c inp u).writer.datacnt = c.writer.datacnt + BitVec.ofNat 32 (k + 1) := by
    rw [under.count, ← same, BitVec.ofNat_add, ← BitVec.add_assoc, BitVec.sub_add_cancel]
  cases placed with
  | idle state => exact absurd state put.writes.1
  | address state => exact absurd state put.writes.2.1
  | writing writes under => exact counted _ number under
  | response state => exact absurd state put.writes.2.2

end Runs

end PscDigpid.Hdl.Adc2ddr
