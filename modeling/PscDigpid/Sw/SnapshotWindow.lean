/- Unit: PscDigpid/Sw/SnapshotWindow
   layer: result
   source: src/hw/hdl/adc2ddr.vhd (IDLE, AWAITRESP), src/sw/src/snapshots.c (ReadDMABuf)
   digest: The writer's ring has one record more than the reader's, and where that shows. -/

import PscDigpid.Hdl.SnapshotRing
import PscDigpid.Sw.Snapshots

set_option autoImplicit false
set_option relaxedAutoImplicit false

namespace PscDigpid.Sw

open PscDigpid.Sync
open PscDigpid.Hdl.Adc2ddr

/-- An address in the reader's buffer, at the start of a record. -/
def InBuffer (a : BitVec 32) : Prop :=
  0x10000000 ≤ a.toNat ∧ a.toNat < 0x11E84800 ∧ 160 ∣ a.toNat - 0x10000000

section Reading

variable (c : Capture) (inp : Nat → Ports) (p : Nat) (trig : TriggerInfo) (τ : Nat → Nat)

/-- The records for a trigger are read, the `j`th at clock `τ j`, with the pointer published by
the burst that begins at clock `p`. The slots selected before the trigger have been filled and
not been written since; those from it on have been written once. -/
structure Reads : Prop where
  pointer : trig.addr = (run Capture.step c inp (p + 1)).writer.ssBufStat.addrPtr
  fits : trig.pretrigpts.toNat + trig.posttrigpts.toNat < 200000
  filled : trig.pretrigpts.toNat < bursts c inp p
  kept : ∀ j a, (selected trig)[j]? = some a → writesBefore c inp (wordAddr a 1) (τ j) =
    writesBefore c inp (wordAddr a 1) p + if j < trig.pretrigpts.toNat then 0 else 1

/-- The tick counters read increase by one from each record to the next. -/
def Consecutive : Prop :=
  ∀ j a b, (selected trig)[j]? = some a → (selected trig)[j + 1]? = some b →
    (run Capture.step c inp (τ (j + 1))).mem (wordAddr b 1) =
      (run Capture.step c inp (τ j)).mem (wordAddr a 1) + 1

/-- The window of a trigger at the slot `s` does not go across the wrap. -/
def Uncut (s : Nat) : Prop :=
  (trig.pretrigpts.toNat ≤ s ∧ s + trig.posttrigpts.toNat ≤ 200000) ∨
    (s = 0 ∧ trig.posttrigpts.toNat = 0) ∨ (s = 200000 ∧ trig.pretrigpts.toNat = 0)

instance (s : Nat) : Decidable (Uncut trig s) := inferInstanceAs (Decidable (_ ∨ _ ∨ _))

end Reading

section Window

variable {c : Capture} {inp : Nat → Ports} {first p : Nat} {trig : TriggerInfo} {τ : Nat → Nat}

theorem slotAddr_bufAddr (k : Nat) : slotAddr k = bufAddr (k % ringLen) := rfl

theorem tickWord_bufAddr {k : Nat} (within : k < 200000) :
    tickWord k = wordAddr (bufAddr k) 1 := by
  rw [tickWord, slotAddr_bufAddr, Nat.mod_eq_of_lt (show k < ringLen from Nat.lt_succ_of_lt within)]

theorem slot_le (n : Nat) : n % ringLen ≤ 200000 :=
  Nat.le_of_lt_succ (Nat.mod_lt n (by decide))

/-- A burst's address is in the reader's buffer unless it is the one past its end. -/
theorem inBuffer_slotAddr (n : Nat) : InBuffer (slotAddr n) ↔ n % ringLen ≠ 200000 := by
  have within := slot_le n
  rw [InBuffer, toNat_slotAddr]
  constructor
  · intro inside past
    omega
  · intro before
    refine ⟨by omega, by omega, n % ringLen, ?_⟩
    omega

theorem Reads.addr (reads : Reads c inp p trig τ) (fresh : Fresh first c.writer)
    (running : ∀ t, (inp t).reset = false)
    (begun : begins (run Capture.step c inp p).writer (inp p) = true) :
    trig.addr = bufAddr ((first + bursts c inp p) % ringLen) := by
  rw [reads.pointer, (burst_addr fresh running begun).2]
  rfl

/-- The record at a place of the window. -/
theorem Reads.record (reads : Reads c inp p trig τ) (fresh : Fresh first c.writer)
    (running : ∀ t, (inp t).reset = false)
    (begun : begins (run Capture.step c inp p).writer (inp p) = true) (j : Nat) :
    (selected trig)[j]? =
      if j < trig.pretrigpts.toNat + trig.posttrigpts.toNat then
        some (bufAddr (windowPlace trig ((first + bursts c inp p) % ringLen) j))
      else none := by
  rw [selected_bufAddr (reads.addr fresh running begun) (slot_le _) reads.fits,
    List.getElem?_map]
  split
  · rename_i inside
    rw [List.getElem?_range inside]
    rfl
  · rename_i outside
    rw [List.getElem?_eq_none (by rw [List.length_range]; omega)]
    rfl

/-- The slots before the one to be written next have been written once more. -/
theorem rounds_lap {lap s r : Nat} (small : s < ringLen) (slot : r < 200000) :
    rounds (ringLen * lap + s) r = lap + if r < s then 1 else 0 := by
  rw [rounds]
  unfold ringLen at *
  split
  · omega
  · omega

/-- Which burst a place of the window has, and that it is one since `first`: before the trigger
the last that went to the slot, from it on the next. -/
theorem rounds_window {n first pre post j q : Nat} (filled : first + pre < n)
    (fits : pre + post < 200000) (inside : j < pre + post)
    (window : q + pre = n % ringLen + 200000 + j) :
    rounds first (q % 200000) < rounds n (q % 200000) + (if j < pre then 0 else 1) ∧
      ringLen * (rounds n (q % 200000) + (if j < pre then 0 else 1) - 1) + q % 200000 + 1 =
        n - pre + j + q / 200000 := by
  have before : n = ringLen * (n / ringLen) + n % ringLen := (Nat.div_add_mod n ringLen).symm
  have small : n % ringLen < ringLen := Nat.mod_lt n (by decide)
  have place : q = 200000 * (q / 200000) + q % 200000 := (Nat.div_add_mod q 200000).symm
  have slot : q % 200000 < 200000 := Nat.mod_lt q (by decide)
  generalize n / ringLen = lap, n % ringLen = s at *
  generalize q / 200000 = turn, q % 200000 = r at *
  subst before place
  rw [rounds_lap small slot]
  unfold ringLen at *
  have since : ∀ m, first + 200000 < 200001 * m + r → rounds first r < m := by
    intro m early
    rw [rounds, ringLen]
    omega
  have turns : turn = 0 ∨ turn = 1 ∨ turn = 2 := by omega
  by_cases earlier : j < pre
  · rw [if_pos earlier]
    rcases turns with rfl | rfl | rfl
    · rw [if_neg (show ¬ r < s by omega)]
      exact ⟨since _ (by omega), by omega⟩
    · rw [if_pos (show r < s by omega)]
      exact ⟨since _ (by omega), by omega⟩
    · omega
  · rw [if_neg earlier]
    rcases turns with rfl | rfl | rfl
    · omega
    · rw [if_neg (show ¬ r < s by omega)]
      exact ⟨since _ (by omega), by omega⟩
    · rw [if_pos (show r < s by omega)]
      exact ⟨since _ (by omega), by omega⟩

/-- The tick counter read at a place of the window. At the reader's wrap the writer goes to one
slot more, so that from there on the counter is one ahead. -/
theorem Reads.tick (reads : Reads c inp p trig τ) (fresh : Fresh first c.writer)
    (running : ∀ t, (inp t).reset = false)
    (begun : begins (run Capture.step c inp p).writer (inp p) = true) {j : Nat}
    (inside : j < trig.pretrigpts.toNat + trig.posttrigpts.toNat) :
    (run Capture.step c inp (τ j)).mem
        (wordAddr (bufAddr (windowPlace trig ((first + bursts c inp p) % ringLen) j)) 1) =
      c.writer.datacnt - BitVec.ofNat 32 first + BitVec.ofNat 32
        (first + bursts c inp p - trig.pretrigpts.toNat + j +
          ((first + bursts c inp p) % ringLen + 200000 - trig.pretrigpts.toNat + j) / 200000) := by
  have kept := reads.kept j _ (by rw [reads.record fresh running begun, if_pos inside])
  have filled := reads.filled
  have fits := reads.fits
  have small : windowPlace trig ((first + bursts c inp p) % ringLen) j < 200000 :=
    Nat.mod_lt _ (by decide)
  have enough : first + trig.pretrigpts.toNat < first + bursts c inp p := by omega
  have window : (first + bursts c inp p) % ringLen + 200000 - trig.pretrigpts.toNat + j +
      trig.pretrigpts.toNat = (first + bursts c inp p) % ringLen + 200000 + j := by omega
  obtain ⟨later, burst⟩ := rounds_window enough fits inside window
  rw [← tickWord_bufAddr small] at kept ⊢
  rw [tick_read fresh running (Nat.lt_succ_of_lt small) (begins_state begun).1 kept later, ← burst]
  rfl

/-- Whether the wrap comes within a window. -/
theorem uncut_iff {s : Nat} (within : s ≤ 200000)
    (fits : trig.pretrigpts.toNat + trig.posttrigpts.toNat < 200000) :
    (∀ j, j + 1 < trig.pretrigpts.toNat + trig.posttrigpts.toNat →
      (s + 200000 - trig.pretrigpts.toNat + (j + 1)) / 200000 =
        (s + 200000 - trig.pretrigpts.toNat + j) / 200000) ↔ Uncut trig s := by
  constructor
  · intro same
    by_contra cut
    rw [Uncut, not_or, not_or] at cut
    by_cases before : s < trig.pretrigpts.toNat
    · have wrap := same (trig.pretrigpts.toNat - s - 1) (by omega)
      omega
    · have wrap := same (trig.pretrigpts.toNat + 199999 - s) (by omega)
      omega
  · rintro (⟨front, back⟩ | ⟨start, none_after⟩ | ⟨last, none_before⟩) j inside
    · omega
    · omega
    · omega

/-- Of counts one or two apart those are consecutive that are one apart. -/
theorem ofNat_next_iff (d : BitVec 32) {m n : Nat} (near : n = m + 1 ∨ n = m + 2) :
    d + BitVec.ofNat 32 n = d + BitVec.ofNat 32 m + 1 ↔ n = m + 1 := by
  have one : (1 : BitVec 32) = BitVec.ofNat 32 1 := rfl
  rw [BitVec.add_assoc, BitVec.add_right_inj, one, ← BitVec.ofNat_add]
  constructor
  · intro same
    have equal := congrArg BitVec.toNat same
    rw [BitVec.toNat_ofNat, BitVec.toNat_ofNat] at equal
    omega
  · rintro rfl
    rfl

/-- The tick counters are consecutive exactly when the wrap is not in the window. -/
theorem Reads.consecutive_iff (reads : Reads c inp p trig τ) (fresh : Fresh first c.writer)
    (running : ∀ t, (inp t).reset = false)
    (begun : begins (run Capture.step c inp p).writer (inp p) = true) :
    Consecutive c inp trig τ ↔ Uncut trig ((first + bursts c inp p) % ringLen) := by
  rw [← uncut_iff (slot_le _) reads.fits]
  have fits := reads.fits
  have filled := reads.filled
  have within := slot_le (first + bursts c inp p)
  constructor
  · intro consecutive j inside
    have next := consecutive j _ _ (by rw [reads.record fresh running begun, if_pos (by omega)])
      (by rw [reads.record fresh running begun, if_pos inside])
    rw [reads.tick fresh running begun inside, reads.tick fresh running begun (by omega),
      ofNat_next_iff _ (by omega)] at next
    omega
  · intro same j a b left right
    have inside : j + 1 < trig.pretrigpts.toNat + trig.posttrigpts.toNat := by
      by_contra outside
      rw [reads.record fresh running begun, if_neg outside] at right
      exact Option.some_ne_none b right.symm
    rw [reads.record fresh running begun, if_pos (by omega)] at left
    rw [reads.record fresh running begun, if_pos inside] at right
    obtain rfl := Option.some.inj left
    obtain rfl := Option.some.inj right
    rw [reads.tick fresh running begun inside, reads.tick fresh running begun (by omega),
      same j inside, ofNat_next_iff _ (by omega)]
    omega

/-- A burst is in the reader's buffer, and the tick counters of a window read are consecutive,
exactly when the slot past the buffer's end is neither the burst's nor in between. -/
theorem ring_law_iff (fresh : Fresh first c.writer) (running : ∀ t, (inp t).reset = false)
    (begun : begins (run Capture.step c inp p).writer (inp p) = true) :
    (InBuffer (run Capture.step c inp (p + 1)).writer.m2s.awaddr ↔
        (first + bursts c inp p) % ringLen ≠ 200000) ∧
      ∀ trig τ, Reads c inp p trig τ →
        (Consecutive c inp trig τ ↔ Uncut trig ((first + bursts c inp p) % ringLen)) := by
  constructor
  · rw [(burst_addr fresh running begun).1]
    exact inBuffer_slotAddr _
  · intro trig τ reads
    exact reads.consecutive_iff fresh running begun

end Window

/-- A trigger every 64 clocks and a slave that is always ready. -/
def steady (t : Nat) : Ports where
  reset := false
  trigger := decide (0 < t ∧ t % 64 = 0)
  digpidEnb1 := false
  s2m := ⟨true, true, true⟩
  dcctAdcs := Hdl.PerChan.of fun _ => ⟨0, 0⟩
  monAdcs := Hdl.PerChan.of fun _ => ⟨⟨0, 0, 0⟩, 0, 0, 0⟩
  pidStat1 := ⟨0, 0⟩

def steadyStart : Capture := ⟨powerUp, 0, fun _ => 0⟩

/-- Where the writer goes with a slave that is always ready. -/
def readyStep (at_state : State × Bool) (trigger : Bool) : State × Bool :=
  match at_state.1 with
  | .idle => (if trigger && !at_state.2 then .address else .idle, trigger)
  | .address => (.hdr, at_state.2)
  | .awaitresp => (.idle, at_state.2)
  | state => (next state, at_state.2)

section Steady

theorem step_ready (s : Regs) (t : Nat) :
    ((Hdl.Adc2ddr.step s (steady t)).state, (Hdl.Adc2ddr.step s (steady t)).prevTrigger) =
      readyStep (s.state, s.prevTrigger) (steady t).trigger := by
  rcases state_cases s.state with idle | address | awaits | writes
  · rw [step_idle rfl idle, idleClock, readyStep, idle]
    cases edge : (steady t).trigger && !s.prevTrigger with
    | true => rfl
    | false =>
        rw [if_neg Bool.false_ne_true, if_neg Bool.false_ne_true]
  · rw [step_address rfl address, readyStep, address]
    rfl
  · rw [step_awaitresp rfl awaits, readyStep, awaits]
    rfl
  · rw [step_writes rfl writes, readyStep]
    obtain ⟨idle, address, awaits⟩ := writes
    split
    · rename_i same
      exact absurd same idle
    · rename_i same
      exact absurd same address
    · rename_i same
      exact absurd same awaits
    · rfl

theorem steady_later (m u : Nat) (within : u < 64) :
    (steady (64 * (m + 1) + u)).trigger = decide (u = 0) := by
  change decide _ = _
  apply decide_eq_decide.2
  omega

theorem steady_early (u : Nat) (within : u < 64) : (steady u).trigger = false := by
  change decide _ = _
  apply decide_eq_false
  omega

/-- Where the writer is along the run. -/
def steadyAt (t : Nat) : State × Bool :=
  ((run Capture.step steadyStart steady t).writer.state,
    (run Capture.step steadyStart steady t).writer.prevTrigger)

theorem steadyAt_run (t : Nat) :
    steadyAt t = run readyStep (.idle, false) (fun u => (steady u).trigger) t := by
  induction t with
  | zero => rfl
  | succ t ih =>
      rw [run_succ, ← ih]
      exact step_ready (run Capture.step steadyStart steady t).writer t

/-- Every 64 clocks the writer is back where it was. -/
theorem steadyAt_period (m : Nat) : steadyAt (64 * (m + 1)) = (.idle, false) := by
  induction m with
  | zero =>
      rw [steadyAt_run, run_congr readyStep _ steady_early]
      decide
  | succ m ih =>
      rw [steadyAt_run] at ih
      rw [steadyAt_run, Nat.mul_succ, run_add, ih,
        run_congr readyStep _ (steady_later m)]
      decide

theorem steady_begins (t : Nat) :
    begins (run Capture.step steadyStart steady t).writer (steady t) =
      decide (0 < t ∧ t % 64 = 0) := by
  by_cases fires : 0 < t ∧ t % 64 = 0
  · obtain ⟨m, rfl⟩ : ∃ m, t = 64 * (m + 1) := ⟨t / 64 - 1, by omega⟩
    have back := steadyAt_period m
    rw [steadyAt, Prod.mk.injEq] at back
    obtain ⟨idle, prev⟩ := back
    have trigger : (steady (64 * (m + 1))).trigger = true := decide_eq_true fires
    rw [begins, idle, prev, trigger, decide_eq_true fires]
    rfl
  · have trigger : (steady t).trigger = false := decide_eq_false fires
    rw [begins, trigger, Bool.false_and, Bool.and_false, decide_eq_false fires]

theorem steady_bursts (t : Nat) : bursts steadyStart steady t = (t - 1) / 64 :=
  ticksBefore_every steady_begins t

theorem steady_running (t : Nat) : (steady t).reset = false := rfl

theorem steady_fresh : Fresh 0 steadyStart.writer := ⟨rfl, rfl, rfl, rfl⟩

/-- How often a slot's tick counter has been written when `m` bursts are over. -/
theorem steady_writes (m : Nat) {slot : Nat} (within : slot < ringLen) :
    rounds 0 slot + writesBefore steadyStart steady (tickWord slot) (64 * (m + 1)) =
      rounds m slot := by
  have kept := (kept_run steady_fresh steady_running within (64 * (m + 1))).count
  have back := steadyAt_period m
  rw [steadyAt, Prod.mk.injEq] at back
  have waits : awaitsTick (run Capture.step steadyStart steady (64 * (m + 1))).writer = false := by
    rw [awaitsTick, back.1]
    rfl
  have done : 0 + (64 * (m + 1) - 1) / 64 - 0 = m := by omega
  rw [waits, steady_bursts, Bool.toNat_false, done] at kept
  exact kept

/-- Two records before the fourth burst. -/
def twoBefore : TriggerInfo where
  addr := bufAddr 3
  addrLast := 0
  pretrigpts := 2
  posttrigpts := 0
  active := 1
  postdlycnt := 0
  sendbuf := 1
  msgID := 60
  channum := 1

theorem twoBefore_reads : Reads steadyStart steady 256 twoBefore fun _ => 256 := by
  have begun : begins (run Capture.step steadyStart steady 256).writer (steady 256) = true :=
    (steady_begins 256).trans (by decide)
  refine ⟨?_, by decide, ?_, ?_⟩
  · rw [(burst_addr steady_fresh steady_running begun).2, steady_bursts]
    rfl
  · rw [steady_bursts]
    decide
  · intro j a record
    have inside : j < twoBefore.pretrigpts.toNat := by
      have bound := (List.getElem?_eq_some_iff.1 record).1
      rw [selected_bufAddr (s := 3) rfl (by decide) (by decide), List.length_map,
        List.length_range] at bound
      exact bound
    rw [if_pos inside, Nat.add_zero]

end Steady

/-- Early in the run bursts and windows are as they should be. -/
theorem early_window_whole :
    InBuffer (run Capture.step steadyStart steady (256 + 1)).writer.m2s.awaddr ∧
      Consecutive steadyStart steady twoBefore fun _ => 256 := by
  have begun : begins (run Capture.step steadyStart steady 256).writer (steady 256) = true :=
    (steady_begins 256).trans (by decide)
  obtain ⟨burst, window⟩ := ring_law_iff steady_fresh steady_running begun
  rw [steady_bursts] at burst window
  exact ⟨burst.2 (by decide), (window _ _ twoBefore_reads).2 (Or.inl (by decide))⟩

/-- Two records from the burst before the last slot on, in the second lap of the ring. -/
def acrossWrap : TriggerInfo where
  addr := bufAddr 199999
  addrLast := 0
  pretrigpts := 0
  posttrigpts := 2
  active := 1
  postdlycnt := 0
  sendbuf := 1
  msgID := 60
  channum := 1

theorem acrossWrap_selected : selected acrossWrap = [bufAddr 199999, bufAddr 0] := by
  rw [selected_bufAddr (s := 199999) rfl (by decide) (by decide)]
  decide

theorem acrossWrap_writes {slot : Nat} (ends : slot = 199999 ∨ slot = 0) :
    writesBefore steadyStart steady (tickWord slot) (64 * (400003 + 1)) =
      writesBefore steadyStart steady (tickWord slot) (64 * (400000 + 1)) + 1 := by
  have within : slot < ringLen := by rcases ends with rfl | rfl <;> decide
  have before := steady_writes 400000 within
  have after := steady_writes 400003 within
  have more : rounds 400003 slot = rounds 400000 slot + 1 := by
    rcases ends with rfl | rfl <;> rfl
  omega

theorem acrossWrap_reads : Reads steadyStart steady (64 * (400000 + 1)) acrossWrap
    fun _ => 64 * (400003 + 1) := by
  have begun : begins (run Capture.step steadyStart steady (64 * (400000 + 1))).writer
      (steady (64 * (400000 + 1))) = true := (steady_begins _).trans (by decide)
  refine ⟨?_, by decide, ?_, ?_⟩
  · rw [(burst_addr steady_fresh steady_running begun).2, steady_bursts]
    rfl
  · rw [steady_bursts]
    decide
  · intro j a record
    rw [if_neg (show ¬ j < acrossWrap.pretrigpts.toNat from Nat.not_lt_zero j)]
    have member : a ∈ [bufAddr 199999, bufAddr 0] := by
      rw [← acrossWrap_selected]
      exact List.mem_of_getElem? record
    rcases List.mem_pair.1 member with rfl | rfl
    · rw [← tickWord_bufAddr (by decide)]
      exact acrossWrap_writes (Or.inl rfl)
    · rw [← tickWord_bufAddr (by decide)]
      exact acrossWrap_writes (Or.inr rfl)

/-- The burst after the first 200000 goes past the end of the buffer, and a window across the
wrap, read when the ring has been filled, misses a tick. -/
theorem ring_law_broken :
    (begins (run Capture.step steadyStart steady (64 * (200000 + 1))).writer
        (steady (64 * (200000 + 1))) = true ∧
      ¬ InBuffer (run Capture.step steadyStart steady (64 * (200000 + 1) + 1)).writer.m2s.awaddr) ∧
    200000 ≤ bursts steadyStart steady (64 * (400000 + 1)) ∧
    Reads steadyStart steady (64 * (400000 + 1)) acrossWrap (fun _ => 64 * (400003 + 1)) ∧
    ¬ Consecutive steadyStart steady acrossWrap fun _ => 64 * (400003 + 1) := by
  have begun : ∀ m, begins (run Capture.step steadyStart steady (64 * (m + 1))).writer
      (steady (64 * (m + 1))) = true := fun m =>
    (steady_begins _).trans (decide_eq_true (by omega))
  refine ⟨⟨begun 200000, ?_⟩, ?_, acrossWrap_reads, ?_⟩
  · rw [(burst_addr steady_fresh steady_running (begun 200000)).1, steady_bursts,
      inBuffer_slotAddr]
    decide
  · rw [steady_bursts]
    decide
  · rw [acrossWrap_reads.consecutive_iff steady_fresh steady_running (begun 400000),
      steady_bursts]
    decide

end PscDigpid.Sw
