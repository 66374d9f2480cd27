/- Unit: PscDigpid/Hdl/EventRcvTs
   layer: model
   source: src/hw/hdl/event_rcv_ts.vhd
   digest: The time of day from a stream of bit events, and the offset that goes with it. -/

import PscDigpid.Sync.Bits
import PscDigpid.Sync.Ticks

set_option autoImplicit false
set_option relaxedAutoImplicit false

namespace PscDigpid.Hdl.EventRcvTs

open PscDigpid.Sync

/-- Input ports of `event_rcv_ts`. -/
structure Ports where
  reset : Bool
  eventStream : BitVec 8

/-- Registers of `event_rcv_ts`. -/
structure Regs where
  pos : BitVec 5
  secondsTmp : BitVec 32
  secondsReg : BitVec 32
  offsetReg : BitVec 32
  clear : Bool
  clearReg : Bool
  timeStamp : BitVec 64

/-- Every register as the device configures it; the stamp has no value of its own. -/
def powerUp : Regs where
  pos := BitVec.allOnes 5
  secondsTmp := 0
  secondsReg := 0
  offsetReg := 0
  clear := false
  clearReg := false
  timeStamp := 0

/-- The latch event `7D`. -/
def latches (i : Ports) : Bool := i.eventStream == 0x7D

/-- A bit event, `70` or `71`. -/
def sends (i : Ports) : Bool := i.eventStream == 0x70 || i.eventStream == 0x71

def step (s : Regs) (i : Ports) : Regs where
  pos := if latches i then BitVec.allOnes 5 else if sends i then s.pos - 1 else s.pos
  secondsTmp :=
    if i.reset || s.clearReg then 0
    else if i.eventStream = 0x70 then setBit s.secondsTmp s.pos.toNat false
    else if i.eventStream = 0x71 then setBit s.secondsTmp s.pos.toNat true
    else s.secondsTmp
  secondsReg := if latches i then s.secondsTmp else s.secondsReg
  offsetReg := if latches i then 0 else s.offsetReg + 1
  clear := latches i
  clearReg := s.clear
  timeStamp := if i.reset then 0 else s.secondsReg ++ s.offsetReg

section Streams

variable (s : Regs) (inp : Nat → Ports)

/-- The clocks of the bit events between the latch at clock `t` and clock `u`. -/
def bitClocks (t u : Nat) : List Nat := ticksFrom (fun v => sends (inp v)) (t + 1) u

/-- The bits that these events send. -/
def bits (t u : Nat) : List Bool := (bitClocks inp t u).map fun v => (inp v).eventStream == 0x71

/-- Two latches, one after the other, with 32 bit events between them, the first of which leaves
time to clear. -/
structure Sends (t u : Nat) : Prop where
  first : latches (inp t) = true
  next : NextTick (fun v => latches (inp v)) (t + 1) u
  count : (bitClocks inp t u).length = 32
  apart : ∀ v ∈ bitClocks inp t u, t + 3 ≤ v

/-- The seconds and the offset of every stamp are those of one latch, and the seconds are the
32 bits sent before it, the most significant first. -/
structure Decodes : Prop where
  seconds : ∀ t u k, Sends inp t u → (∀ v, u < v → v ≤ u + k → latches (inp v) = false) →
    (run step s inp (u + 2 + k)).timeStamp =
      (BitVec.ofBoolListBE (bits inp t u)).setWidth 32 ++ BitVec.ofNat 32 k
  paired : ∀ t n, LastTick (fun v => latches (inp v)) t n →
    (run step s inp (n + 1)).timeStamp =
      (run step s inp t).secondsTmp ++ BitVec.ofNat 32 (n - (t + 1))
  before : ∀ n, (∀ v, v < n → latches (inp v) = false) →
    (run step s inp (n + 1)).timeStamp = s.secondsReg ++ (s.offsetReg + BitVec.ofNat 32 n)

end Streams

/-- The pointer is at the place of the next bit, and the bits so far stand above it. -/
structure Pointing (s : Regs) (sent : List Bool) : Prop where
  pos : s.pos = 31 - BitVec.ofNat 5 sent.length
  place : ∀ j, j < 32 → s.secondsTmp.getLsbD j = sent.getD (31 - j) false

section Step

variable {s : Regs} {i : Ports} {sent : List Bool}

/-- The pointer and the shift target take no other event. -/
theorem Pointing.waits (pointing : Pointing s sent) (running : i.reset = false)
    (settled : s.clearReg = false) (other : latches i = false) (idle : sends i = false) :
    Pointing (step s i) sent := by
  obtain ⟨zero, one⟩ : i.eventStream ≠ 0x70 ∧ i.eventStream ≠ 0x71 := by
    simpa [sends, -BitVec.ofNat_eq_ofNat] using idle
  constructor
  · simp only [step, other, idle, Bool.false_eq_true, if_false]
    exact pointing.pos
  · simp only [step, running, settled, Bool.or_false, Bool.false_eq_true, if_false, if_neg zero,
      if_neg one]
    exact pointing.place

/-- A bit event assigns the bit at the pointer. -/
theorem step_bit (running : i.reset = false) (settled : s.clearReg = false)
    (bit : sends i = true) :
    (step s i).secondsTmp = setBit s.secondsTmp s.pos.toNat (i.eventStream == 0x71) := by
  simp only [step, running, settled, Bool.or_false, Bool.false_eq_true, if_false]
  by_cases zero : i.eventStream = 0x70
  · rw [if_pos zero, zero]
    rfl
  · have one : i.eventStream = 0x71 := by
      rw [sends, beq_eq_false_iff_ne.2 zero, Bool.false_or] at bit
      exact eq_of_beq bit
    rw [if_neg zero, if_pos one, one]
    rfl

theorem Pointing.takes (pointing : Pointing s sent) (running : i.reset = false)
    (settled : s.clearReg = false) (other : latches i = false) (bit : sends i = true)
    (room : sent.length < 32) :
    Pointing (step s i) (sent ++ [i.eventStream == 0x71]) := by
  obtain ⟨pos, place⟩ := pointing
  have index : s.pos.toNat = 31 - sent.length := by
    rw [pos, BitVec.toNat_sub, BitVec.toNat_ofNat]
    change (32 - sent.length % 32 + 31) % 32 = 31 - sent.length
    omega
  constructor
  · simp only [step, other, bit, Bool.false_eq_true, if_false, if_true]
    rw [pos, List.length_append, List.length_singleton, BitVec.ofNat_add]
    exact BitVec.sub_sub _ _ _
  · intro j within
    rw [step_bit running settled bit, getLsbD_setBit _ _ _ _ within, index]
    by_cases here : j = 31 - sent.length
    · rw [if_pos here, here, show 31 - (31 - sent.length) = sent.length by omega]
      simp
    · rw [if_neg here, place j within, List.getD_eq_getElem?_getD, List.getD_eq_getElem?_getD]
      obtain before | after := Nat.lt_or_gt_of_ne (show 31 - j ≠ sent.length by omega)
      · rw [List.getElem?_append_left before]
      · rw [List.getElem?_eq_none (Nat.le_of_lt after), List.getElem?_eq_none]
        rw [List.length_append, List.length_singleton]
        exact after

end Step

section Runs

variable {s : Regs} {inp : Nat → Ports} {t u n : Nat}

/-- The registers that a latch fills go together. -/
theorem latched (last : LastTick (fun v => latches (inp v)) t n) :
    (run step s inp n).secondsReg = (run step s inp t).secondsTmp ∧
      (run step s inp n).offsetReg = BitVec.ofNat 32 (n - (t + 1)) := by
  constructor
  · exact latched_last (fun m => (run step s inp m).secondsReg)
      (fun m => (run step s inp m).secondsTmp) (fun _ => rfl) last
  · obtain ⟨before, fires, between⟩ := last
    apply stretch_induction (P := fun m => (run step s inp m).offsetReg =
      BitVec.ofNat 32 (m - (t + 1))) before
    · rw [Nat.sub_self, run_succ]
      exact if_pos fires
    · intro m low high ih
      have idle : latches (inp m) = false := between m low high
      have next : (run step s inp (m + 1)).offsetReg = (run step s inp m).offsetReg + 1 := by
        rw [run_succ]
        exact if_neg (by rw [idle]; simp)
      rw [next, ih, Nat.succ_sub low]
      exact (BitVec.ofNat_add _ _).symm

theorem unlatched (never : ∀ v, v < n → latches (inp v) = false) :
    (run step s inp n).secondsReg = s.secondsReg ∧
      (run step s inp n).offsetReg = s.offsetReg + BitVec.ofNat 32 n := by
  constructor
  · exact latched_never (fun m => (run step s inp m).secondsReg)
      (fun m => (run step s inp m).secondsTmp) (fun _ => rfl) never
  · apply stretch_induction (P := fun m => (run step s inp m).offsetReg =
      s.offsetReg + BitVec.ofNat 32 m) (Nat.zero_le n)
    · exact (BitVec.add_zero _).symm
    · intro m _ high ih
      have next : (run step s inp (m + 1)).offsetReg = (run step s inp m).offsetReg + 1 := by
        rw [run_succ]
        exact if_neg (by rw [never m high]; simp)
      rw [next, ih, BitVec.add_assoc]
      exact congrArg _ (BitVec.ofNat_add _ _).symm

theorem stamp (quiet : ∀ v, (inp v).reset = false) (n : Nat) :
    (run step s inp (n + 1)).timeStamp =
      (run step s inp n).secondsReg ++ (run step s inp n).offsetReg := by
  rw [run_succ]
  exact if_neg (by rw [quiet n]; simp)

theorem mem_bitClocks {v : Nat} :
    v ∈ bitClocks inp t u ↔ t < v ∧ v < u ∧ sends (inp v) = true := mem_ticksFrom

/-- Two clocks after the latch the shift target is clear, and the pointer at the first place. -/
theorem pointing_cleared (sent : Sends inp t u) (long : t + 3 ≤ u) :
    Pointing (run step s inp (t + 3)) (bits inp t (t + 3)) := by
  obtain ⟨first, ⟨_, _, between⟩, _, apart⟩ := sent
  have none : bitClocks inp t (t + 3) = [] := by
    apply List.eq_nil_iff_forall_not_mem.2
    intro v bit
    obtain ⟨low, high, sending⟩ := mem_bitClocks.1 bit
    have late := apart v (mem_bitClocks.2 ⟨low, by omega, sending⟩)
    omega
  have idle : ∀ v, t < v → v < t + 3 → sends (inp v) = false := by
    intro v low high
    by_contra sending
    rw [Bool.not_eq_false] at sending
    have bit : v ∈ bitClocks inp t (t + 3) := mem_bitClocks.2 ⟨low, high, sending⟩
    rw [none] at bit
    cases bit
  have pos : ∀ v, t + 1 ≤ v → v < t + 3 →
      (run step s inp (v + 1)).pos = (run step s inp v).pos := by
    intro v low high
    have other : latches (inp v) = false := between v low (by omega)
    simp only [run_succ, step, other, idle v low high, Bool.false_eq_true, if_false]
  have start : (run step s inp (t + 1)).pos = 31 := by
    rw [run_succ]
    exact if_pos first
  have clears : (run step s inp (t + 2)).clearReg = true := first
  rw [bits, none]
  constructor
  · rw [pos (t + 2) (by omega) (by omega), pos (t + 1) (by omega) (by omega), start, List.map_nil]
    exact (BitVec.sub_zero 31).symm
  · intro j _
    have zero : (run step s inp (t + 3)).secondsTmp = 0 := by
      rw [run_succ]
      exact if_pos (by rw [clears, Bool.or_true])
    rw [zero, List.map_nil, List.getD_nil]
    exact BitVec.getLsbD_zero

/-- Up to the next latch the bits sent so far stand in the shift target. -/
theorem pointing_run (quiet : ∀ v, (inp v).reset = false) (sent : Sends inp t u) {m : Nat}
    (low : t + 3 ≤ m) (high : m ≤ u) (few : (bits inp t m).length ≤ 32) :
    Pointing (run step s inp m) (bits inp t m) := by
  have goes : m ≤ u → (bits inp t m).length ≤ 32 →
      Pointing (run step s inp m) (bits inp t m) := by
    apply stretch_induction low
    · intro long _
      exact pointing_cleared sent long
    · intro v late _ ih inside few
      have other : latches (inp v) = false := sent.next.2.2 v (by omega) (by omega)
      have settled : (run step s inp v).clearReg = false := by
        obtain ⟨w, rfl⟩ : ∃ w, v = w + 2 := ⟨v - 2, by omega⟩
        exact sent.next.2.2 w (by omega) (by omega)
      have more : bits inp t (v + 1) = bits inp t v ++
          if sends (inp v) then [(inp v).eventStream == 0x71] else [] := by
        rw [bits, bitClocks, ticksFrom_succ _ (by omega), List.map_append]
        cases sends (inp v) <;> rfl
      rw [more] at few ⊢
      cases bit : sends (inp v) with
      | false =>
          rw [bit, if_neg Bool.false_ne_true, List.append_nil] at few
          rw [if_neg Bool.false_ne_true, List.append_nil]
          exact (ih (by omega) few).waits (quiet v) settled other bit
      | true =>
          rw [bit, if_pos rfl, List.length_append, List.length_singleton] at few
          exact (ih (by omega) (by omega)).takes (quiet v) settled other bit (by omega)
  exact goes high few

/-- The 32 bits between two latches are the seconds that the second takes. -/
theorem seconds_sent (quiet : ∀ v, (inp v).reset = false) (sent : Sends inp t u) :
    (run step s inp u).secondsTmp = (BitVec.ofBoolListBE (bits inp t u)).setWidth 32 := by
  have width : (bits inp t u).length = 32 := (List.length_map _).trans sent.count
  obtain ⟨v, bit⟩ : ∃ v, v ∈ bitClocks inp t u := by
    apply List.exists_mem_of_length_pos
    rw [sent.count]
    simp
  have late := sent.apart v bit
  have early := (mem_bitClocks.1 bit).2.1
  have pointing := pointing_run (s := s) quiet sent (by omega) le_rfl (Nat.le_of_eq width)
  apply BitVec.eq_of_getLsbD_eq
  intro j within
  rw [pointing.place j within, BitVec.getLsbD_setWidth, BitVec.getLsbD_ofBoolListBE, width,
    decide_eq_true within, Bool.true_and, Bool.true_and]

/-- Time stamps decode the stream. -/
theorem timestamps_decode (s : Regs) (inp : Nat → Ports) (quiet : ∀ v, (inp v).reset = false) :
    Decodes s inp := by
  constructor
  · intro t u k sent clear
    have fires := sent.next.2.1
    have last : LastTick (fun v => latches (inp v)) u (u + 1 + k) :=
      ⟨by omega, fires, fun v late early => clear v late (by omega)⟩
    obtain ⟨seconds, offset⟩ := latched (s := s) last
    rw [show u + 2 + k = u + 1 + k + 1 by omega, stamp quiet, seconds, offset,
      seconds_sent quiet sent, Nat.add_sub_cancel_left]
  · intro t n last
    obtain ⟨seconds, offset⟩ := latched (s := s) last
    rw [stamp quiet, seconds, offset]
  · intro n never
    obtain ⟨seconds, offset⟩ := unlatched (s := s) never
    rw [stamp quiet, seconds, offset]

/-- Latches at clocks 0 and 35, and bits in turn between them. -/
def alternating (t : Nat) : Ports where
  reset := false
  eventStream :=
    if t = 0 ∨ t = 35 then 0x7D else if t < 3 ∨ 35 < t then 0 else if t % 2 = 1 then 0x71 else 0x70

theorem alternating_stamped :
    (run step powerUp alternating 37).timeStamp = 0xAAAAAAAA00000000 := by
  have sent : Sends alternating 0 35 := by
    refine ⟨rfl, ⟨by omega, rfl, ?_⟩, by decide, by decide⟩
    intro v low high
    have all : ∀ w < 34, latches (alternating (w + 1)) = false := by decide
    obtain ⟨w, rfl⟩ : ∃ w, v = w + 1 := ⟨v - 1, by omega⟩
    exact all w (by omega)
  have decodes := timestamps_decode powerUp alternating fun _ => rfl
  rw [decodes.seconds 0 35 0 sent fun v late early => absurd late (by omega)]
  decide

end Runs

end PscDigpid.Hdl.EventRcvTs
