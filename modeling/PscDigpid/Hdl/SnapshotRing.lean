/- Unit: PscDigpid/Hdl/SnapshotRing
   layer: result
   source: src/hw/hdl/adc2ddr.vhd (IDLE, AWAITRESP)
   digest: Where the bursts go in memory, and which tick counters are there. -/

import PscDigpid.Hdl.Adc2ddr
import PscDigpid.Sync.Ticks
import Mathlib.Logic.Function.Basic

set_option autoImplicit false
set_option relaxedAutoImplicit false

namespace PscDigpid.Hdl.Adc2ddr

open PscDigpid.Sync

/-- How many records the writer goes through before it returns to the base address. -/
def ringLen : Nat := 200001

/-- The address of the `k`th burst, counted from one at the base address. -/
def slotAddr (k : Nat) : BitVec 32 := ddrBaseAddr + BitVec.ofNat 32 (160 * (k % ringLen))

/-- Address of a word of a record. -/
def wordAddr (record : BitVec 32) (n : Nat) : BitVec 32 := record + BitVec.ofNat 32 (4 * n)

section Addresses

theorem toNat_slotAddr (k : Nat) : (slotAddr k).toNat = 0x10000000 + 160 * (k % ringLen) := by
  have small : k % ringLen < ringLen := Nat.mod_lt k (by decide)
  unfold ringLen at *
  rw [slotAddr, BitVec.toNat_add, BitVec.toNat_ofNat, ringLen]
  change (0x10000000 + _) % _ = _
  omega

theorem toNat_wordAddr (k : Nat) {n : Nat} (inside : n < 40) :
    (wordAddr (slotAddr k) n).toNat = 0x10000000 + 160 * (k % ringLen) + 4 * n := by
  have small : k % ringLen < ringLen := Nat.mod_lt k (by decide)
  rw [wordAddr, BitVec.toNat_add, toNat_slotAddr, BitVec.toNat_ofNat]
  unfold ringLen at *
  omega

/-- No two words of the ring share an address. -/
theorem wordAddr_injective {k k' n n' : Nat} (inside : n < 40) (inside' : n' < 40)
    (same : wordAddr (slotAddr k) n = wordAddr (slotAddr k') n') :
    k % ringLen = k' % ringLen ∧ n = n' := by
  have equal := congrArg BitVec.toNat same
  rw [toNat_wordAddr k inside, toNat_wordAddr k' inside'] at equal
  omega

theorem slotAddr_inj {k k' : Nat} : slotAddr k = slotAddr k' ↔ k % ringLen = k' % ringLen := by
  constructor
  · intro same
    have equal := congrArg BitVec.toNat same
    rw [toNat_slotAddr, toNat_slotAddr] at equal
    omega
  · intro same
    rw [slotAddr, slotAddr, same]

/-- The compare and wrap goes on to the next burst's address. -/
theorem slotAddr_succ (k : Nat) : (if (slotAddr k).toNat < ddrMaxAddr.toNat then
    slotAddr k + BitVec.ofNat 32 (4 * burstLen) else ddrBaseAddr) = slotAddr (k + 1) := by
  have last : ddrMaxAddr.toNat = 0x10000000 + 160 * 200000 := rfl
  have small : k % 200001 < 200001 := Nat.mod_lt k (by decide)
  apply BitVec.eq_of_toNat_eq
  rw [toNat_slotAddr, toNat_slotAddr, last]
  unfold ringLen
  by_cases further : k % 200001 < 200000
  · have next : (k + 1) % 200001 = k % 200001 + 1 := by omega
    rw [if_pos (by omega), BitVec.toNat_add, toNat_slotAddr, next]
    change (_ + 160 * (k % 200001) + 160) % 2 ^ 32 = _
    omega
  · rw [if_neg (by omega)]
    change 0x10000000 = _
    omega

end Addresses

/-- The writer and the memory behind its port: the slave takes the address of a burst and
stores each beat it accepts at the next word. -/
structure Capture where
  writer : Regs
  addr : BitVec 32
  mem : BitVec 32 → BitVec 32

namespace Capture

/-- One rising clock edge. -/
def step (c : Capture) (i : Ports) : Capture :=
  let accepts := c.writer.m2s.wvalid && i.s2m.wready
  { writer := Adc2ddr.step c.writer i
    addr :=
      if c.writer.m2s.awvalid && i.s2m.awready then c.writer.m2s.awaddr
      else if accepts then c.addr + 4
      else c.addr
    mem := if accepts then Function.update c.mem c.addr c.writer.m2s.wdata else c.mem }

end Capture

/-- A burst begins at this clock edge. -/
def begins (s : Regs) (i : Ports) : Bool :=
  decide (s.state = .idle) && (i.trigger && !s.prevTrigger)

/-- The burst under way has not had its tick counter stored. -/
def awaitsTick (s : Regs) : Bool := decide (s.state ≠ .idle) && decide (puts s.state ≤ 2)

/-- The tick counter of a record is stored at this clock edge. -/
def stores (s : Regs) (i : Ports) : Bool :=
  decide (s.state = .ps .ps1 .dcct1) && i.s2m.wready

/-- The word at an address is written at this clock edge. -/
def Capture.wrote (c : Capture) (i : Ports) (a : BitVec 32) : Bool :=
  (c.writer.m2s.wvalid && i.s2m.wready) && decide (c.addr = a)

/-- How many bursts went to a slot before the `k`th. -/
def rounds (k slot : Nat) : Nat := (k + 200000 - slot) / ringLen

/-- Burst `k` is under way, counted from one at the base address with tick counter `d`. -/
structure Under (d : BitVec 32) (k : Nat) (s : Regs) : Prop where
  count : s.datacnt = d + BitVec.ofNat 32 (k + 1)
  base : s.addrBase = slotAddr k

/-- The writer and the port when `k` bursts have begun, counted likewise: where it is in a burst
tells what it offers and where the slave would store it. -/
inductive Placed (d : BitVec 32) (c : Capture) : Nat → Prop
  | idle {k : Nat} (state : c.writer.state = .idle)
      (count : c.writer.datacnt = d + BitVec.ofNat 32 k) (base : c.writer.addrBase = slotAddr k)
      (awvalid : c.writer.m2s.awvalid = false) (wvalid : c.writer.m2s.wvalid = false) :
      Placed d c k
  | address {k : Nat} (state : c.writer.state = .address) (under : Under d k c.writer)
      (awaddr : c.writer.m2s.awaddr = slotAddr k) (awvalid : c.writer.m2s.awvalid = true)
      (wvalid : c.writer.m2s.wvalid = false) : Placed d c (k + 1)
  | writing {k : Nat} (writes : Writes c.writer.state) (under : Under d k c.writer)
      (awvalid : c.writer.m2s.awvalid = false)
      (wvalid : c.writer.m2s.wvalid = decide (0 < puts c.writer.state))
      (place : c.addr = wordAddr (slotAddr k) (puts c.writer.state - 1))
      (tick : c.writer.state = .ps .ps1 .dcct1 → c.writer.m2s.wdata = c.writer.datacnt) :
      Placed d c (k + 1)
  | response {k : Nat} (state : c.writer.state = .awaitresp) (under : Under d k c.writer)
      (awvalid : c.writer.m2s.awvalid = false)
      (place : c.writer.m2s.wvalid = true → c.addr = wordAddr (slotAddr k) 39) : Placed d c (k + 1)

section Step

variable {d : BitVec 32} {k : Nat} {c : Capture} {i : Ports}

theorem wordAddr_zero (record : BitVec 32) : wordAddr record 0 = record := by
  rw [wordAddr, Nat.mul_zero]
  exact BitVec.add_zero record

theorem wordAddr_next (record : BitVec 32) (n : Nat) :
    wordAddr record n + 4 = wordAddr record (n + 1) := by
  rw [wordAddr, wordAddr, Nat.mul_succ, BitVec.ofNat_add, BitVec.add_assoc]
  rfl

theorem begins_busy (busy : c.writer.state ≠ .idle) : begins c.writer i = false := by
  rw [begins, decide_eq_false busy, Bool.false_and]

theorem step_addr_kept (awvalid : c.writer.m2s.awvalid = false)
    (quiet : (c.writer.m2s.wvalid && i.s2m.wready) = false) : (c.step i).addr = c.addr := by
  simp [Capture.step, awvalid, quiet]

theorem step_addr_next (awvalid : c.writer.m2s.awvalid = false)
    (accepts : (c.writer.m2s.wvalid && i.s2m.wready) = true) : (c.step i).addr = c.addr + 4 := by
  simp [Capture.step, awvalid, accepts]

theorem placed_idle (running : i.reset = false) (state : c.writer.state = .idle)
    (count : c.writer.datacnt = d + BitVec.ofNat 32 k) (base : c.writer.addrBase = slotAddr k)
    (awvalid : c.writer.m2s.awvalid = false) (wvalid : c.writer.m2s.wvalid = false) :
    Placed d (c.step i) (k + (begins c.writer i).toNat) := by
  have clock : (c.step i).writer = idleClock c.writer i := step_idle running state
  cases edge : i.trigger && !c.writer.prevTrigger with
  | true =>
      have starts : begins c.writer i = true := by rw [begins, state, edge]; rfl
      rw [idleClock, if_pos edge] at clock
      rw [starts, Bool.toNat_true]
      refine .address (by rw [clock]) ⟨?_, by rw [clock]; exact base⟩ (by rw [clock]; exact base)
        (by rw [clock]) (by rw [clock]; exact wvalid)
      rw [clock, BitVec.ofNat_add, ← BitVec.add_assoc, ← count]
      rfl
  | false =>
      have waits : begins c.writer i = false := by rw [begins, edge, Bool.and_false]
      rw [idleClock, edge, if_neg Bool.false_ne_true] at clock
      rw [waits, Bool.toNat_false]
      exact .idle (by rw [clock]; exact state) (by rw [clock]; exact count)
        (by rw [clock]; exact base) (by rw [clock]; exact awvalid) (by rw [clock]; exact wvalid)

theorem placed_address (running : i.reset = false) (state : c.writer.state = .address)
    (under : Under d k c.writer) (awaddr : c.writer.m2s.awaddr = slotAddr k)
    (awvalid : c.writer.m2s.awvalid = true) (wvalid : c.writer.m2s.wvalid = false) :
    Placed d (c.step i) (k + 1) := by
  have clock : (c.step i).writer = addressClock c.writer i := step_address running state
  cases accepts : i.s2m.awready with
  | true =>
      rw [addressClock, if_pos accepts] at clock
      have header : (c.step i).writer.state = .hdr := by rw [clock]
      have taken : (c.step i).addr = slotAddr k := by
        simp [Capture.step, awvalid, accepts, awaddr]
      refine .writing (by rw [header]; exact ⟨by decide, by decide, by decide⟩)
        ⟨by rw [clock]; exact under.count, by rw [clock]; exact under.base⟩ (by rw [clock]) ?_ ?_ ?_
      · rw [clock, wvalid]
        rfl
      · rw [taken, header]
        exact (wordAddr_zero _).symm
      · rw [header]
        exact fun other => absurd other (by decide)
  | false =>
      rw [addressClock, accepts, if_neg Bool.false_ne_true] at clock
      exact .address (by rw [clock]; exact state) (by rw [clock]; exact under)
        (by rw [clock]; exact awaddr) (by rw [clock]; exact awvalid) (by rw [clock]; exact wvalid)

/-- The slave's ready stores the word on the port and brings the next. -/
theorem writing_addr (ready : i.s2m.wready = true) (awvalid : c.writer.m2s.awvalid = false)
    (wvalid : c.writer.m2s.wvalid = decide (0 < puts c.writer.state))
    (place : c.addr = wordAddr (slotAddr k) (puts c.writer.state - 1)) :
    (c.step i).addr = wordAddr (slotAddr k) (puts c.writer.state) := by
  cases offered : c.writer.m2s.wvalid with
  | true =>
      have some_put : 0 < puts c.writer.state := by
        rw [offered] at wvalid
        exact of_decide_eq_true wvalid.symm
      rw [step_addr_next awvalid (by rw [offered, ready]; rfl), place, wordAddr_next,
        Nat.sub_add_cancel some_put]
  | false =>
      have none_put : puts c.writer.state = 0 := by
        rw [offered] at wvalid
        exact Nat.eq_zero_of_not_pos (of_decide_eq_false wvalid.symm)
      rw [step_addr_kept awvalid (by rw [offered]; rfl), place, none_put]

theorem placed_writing (running : i.reset = false) (writes : Writes c.writer.state)
    (under : Under d k c.writer) (awvalid : c.writer.m2s.awvalid = false)
    (wvalid : c.writer.m2s.wvalid = decide (0 < puts c.writer.state))
    (place : c.addr = wordAddr (slotAddr k) (puts c.writer.state - 1))
    (tick : c.writer.state = .ps .ps1 .dcct1 → c.writer.m2s.wdata = c.writer.datacnt) :
    Placed d (c.step i) (k + 1) := by
  have clock : (c.step i).writer = writeWord c.writer i := step_writes running writes
  cases ready : i.s2m.wready with
  | true =>
      have taken := writing_addr ready awvalid wvalid place
      rw [writeWord, if_pos ready] at clock
      have under' : Under d k (c.step i).writer :=
        ⟨by rw [clock]; exact under.count, by rw [clock]; exact under.base⟩
      obtain ⟨more, busy, final⟩ := puts_next writes
      by_cases marked : puts c.writer.state = 39
      · refine .response (by rw [clock]; exact final.2 marked) under' (by rw [clock]; exact awvalid)
          ?_
        intro _
        rw [taken, marked]
      · refine .writing ?_ under' (by rw [clock]; exact awvalid) ?_ ?_ ?_
        · rw [clock]
          refine ⟨busy, ?_, fun answered => marked (final.1 answered)⟩
          intro address
          change next c.writer.state = .address at address
          rw [address] at more
          exact absurd more.symm (Nat.succ_ne_zero _)
        · rw [clock, more]
          exact (decide_eq_true (Nat.succ_pos _)).symm
        · rw [taken, clock, more, Nat.add_sub_cancel]
        · rw [clock]
          intro third
          change next c.writer.state = .ps .ps1 .dcct1 at third
          change word c.writer.datacnt i c.writer.state = c.writer.datacnt
          rw [third] at more
          have second : c.writer.state = .cnt := by
            rw [← wordState_puts writes, ← Nat.succ.inj more]
            rfl
          rw [second]
          rfl
  | false =>
      rw [writeWord, ready, if_neg Bool.false_ne_true] at clock
      refine .writing (by rw [clock]; exact writes) (by rw [clock]; exact under)
        (by rw [clock]; exact awvalid) (by rw [clock]; exact wvalid) ?_ (by rw [clock]; exact tick)
      rw [step_addr_kept awvalid (by rw [ready, Bool.and_false]), clock]
      exact place

theorem placed_response (running : i.reset = false) (state : c.writer.state = .awaitresp)
    (under : Under d k c.writer) (awvalid : c.writer.m2s.awvalid = false) :
    Placed d (c.step i) (k + 1) := by
  have clock : (c.step i).writer = awaitrespClock c.writer i := step_awaitresp running state
  cases answered : i.s2m.bvalid with
  | true =>
      rw [awaitrespClock, if_pos answered] at clock
      refine .idle (by rw [clock]) (by rw [clock]; exact under.count) ?_
        (by rw [clock]; exact awvalid) (by rw [clock])
      rw [clock, ← slotAddr_succ, ← under.base]
  | false =>
      rw [awaitrespClock, answered, if_neg Bool.false_ne_true] at clock
      refine .response (by rw [clock]; exact state)
        ⟨by rw [clock]; exact under.count, by rw [clock]; exact under.base⟩
        (by rw [clock]; exact awvalid) ?_
      rw [clock]
      exact fun offered => absurd offered Bool.false_ne_true

/-- One clock keeps the writer and the port in place. -/
theorem Placed.step (placed : Placed d c k) (running : i.reset = false) :
    Placed d (c.step i) (k + (begins c.writer i).toNat) := by
  cases placed with
  | idle state count base awvalid wvalid =>
      exact placed_idle running state count base awvalid wvalid
  | address state under awaddr awvalid wvalid =>
      rw [begins_busy (by rw [state]; decide), Bool.toNat_false]
      exact placed_address running state under awaddr awvalid wvalid
  | writing writes under awvalid wvalid place tick =>
      rw [begins_busy writes.1, Bool.toNat_false]
      exact placed_writing running writes under awvalid wvalid place tick
  | response state under awvalid place =>
      rw [begins_busy (by rw [state]; decide), Bool.toNat_false]
      exact placed_response running state under awvalid

theorem awaitsTick_writes {s : Regs} (writes : Writes s.state) :
    awaitsTick s = decide (puts s.state ≤ 2) := by
  rw [awaitsTick, decide_eq_true writes.1, Bool.true_and]

theorem dcct1_iff {s : State} (writes : Writes s) : s = .ps .ps1 .dcct1 ↔ puts s = 2 := by
  constructor
  · rintro rfl
    rfl
  · intro two
    rw [← wordState_puts writes, two]
    rfl

/-- A burst's tick counter is awaited from when it begins until it is stored. -/
theorem awaitsTick_step {s : Regs} (running : i.reset = false) :
    (awaitsTick (Adc2ddr.step s i)).toNat + (stores s i).toNat =
      (awaitsTick s).toNat + (begins s i).toNat := by
  rcases state_cases s.state with idle | address | awaits | writes
  · have nothing : awaitsTick s = false := by rw [awaitsTick, idle]; rfl
    have unstored : stores s i = false := by rw [stores, idle]; rfl
    rw [step_idle running idle, idleClock, nothing, unstored, begins, idle]
    cases edge : i.trigger && !s.prevTrigger with
    | true => rfl
    | false =>
        rw [if_neg Bool.false_ne_true, awaitsTick]
        rfl
  · have awaited : awaitsTick s = true := by rw [awaitsTick, address]; rfl
    have unstored : stores s i = false := by rw [stores, address]; rfl
    rw [step_address running address, addressClock, awaited, unstored, begins, address]
    cases accepts : i.s2m.awready with
    | true => rfl
    | false =>
        rw [if_neg Bool.false_ne_true, awaited]
        rfl
  · have past : awaitsTick s = false := by rw [awaitsTick, awaits]; rfl
    have unstored : stores s i = false := by rw [stores, awaits]; rfl
    rw [step_awaitresp running awaits, awaitrespClock, past, unstored, begins, awaits]
    cases answered : i.s2m.bvalid with
    | true => rfl
    | false =>
        rw [if_neg Bool.false_ne_true, awaitsTick]
        rfl
  · have none_begun : begins s i = false := by rw [begins, decide_eq_false writes.1]; rfl
    rw [step_writes running writes, writeWord, awaitsTick_writes writes, none_begun]
    cases ready : i.s2m.wready with
    | true =>
        obtain ⟨more, busy, -⟩ := puts_next writes
        rw [if_pos rfl, awaitsTick, stores, ready]
        simp only [more, decide_eq_true busy, Bool.true_and, Bool.and_true, dcct1_iff writes]
        rcases Nat.lt_trichotomy (puts s.state) 2 with early | third | late
        · simp [show puts s.state + 1 ≤ 2 by omega, show puts s.state ≠ 2 by omega,
            show puts s.state ≤ 2 by omega]
        · simp [third]
        · simp [show ¬ puts s.state + 1 ≤ 2 by omega, show puts s.state ≠ 2 by omega,
            show ¬ puts s.state ≤ 2 by omega]
    | false =>
        rw [if_neg Bool.false_ne_true, awaitsTick_writes writes, stores, ready, Bool.and_false]

/-- The word of a slot that holds the tick counter. -/
def tickWord (slot : Nat) : BitVec 32 := wordAddr (slotAddr slot) 1

theorem tickWord_eq {slot n : Nat} (within : slot < ringLen) (inside : n < 40) :
    wordAddr (slotAddr k) n = tickWord slot ↔ k % ringLen = slot ∧ n = 1 := by
  constructor
  · intro same
    obtain ⟨record, word⟩ := wordAddr_injective inside (by decide) same
    rw [Nat.mod_eq_of_lt within] at record
    exact ⟨record, word⟩
  · rintro ⟨record, rfl⟩
    rw [tickWord, slotAddr_inj.2 (record.trans (Nat.mod_eq_of_lt within).symm)]

/-- The tick counter of a slot is written when that of its burst is stored. -/
theorem Placed.wrote_tick (placed : Placed d c k) {slot : Nat} (within : slot < ringLen) :
    c.wrote i (tickWord slot) = (stores c.writer i && decide ((k - 1) % ringLen = slot)) := by
  cases placed with
  | idle state count base awvalid wvalid =>
      rw [Capture.wrote, stores, wvalid, state]
      rfl
  | address state under awaddr awvalid wvalid =>
      rw [Capture.wrote, stores, wvalid, state]
      rfl
  | @writing k writes under awvalid wvalid place tick =>
      have before := puts_lt writes
      rw [Capture.wrote, stores, wvalid, place, Nat.add_sub_cancel]
      simp only [tickWord_eq within (show puts c.writer.state - 1 < 40 by omega), dcct1_iff writes]
      rw [Bool.eq_iff_iff]
      simp only [Bool.and_eq_true, decide_eq_true_eq]
      constructor
      · rintro ⟨⟨offered, ready⟩, record, second⟩
        exact ⟨⟨by omega, ready⟩, record⟩
      · rintro ⟨⟨third, ready⟩, record⟩
        exact ⟨⟨by omega, ready⟩, record, by omega⟩
  | @response k state under awvalid place =>
      rw [Capture.wrote, stores, state]
      cases offered : c.writer.m2s.wvalid with
      | true =>
          rw [place offered, decide_eq_false fun same => ?_, Bool.and_false]
          · rfl
          · exact absurd ((tickWord_eq within (by decide)).1 same).2 (by decide)
      | false => rfl

/-- What is written there is the tick counter of the burst. -/
theorem Placed.tick_data (placed : Placed d c k) (storing : stores c.writer i = true) :
    c.writer.m2s.wdata = d + BitVec.ofNat 32 k := by
  have third : c.writer.state = .ps .ps1 .dcct1 :=
    of_decide_eq_true (Bool.and_eq_true_iff.1 storing).1
  cases placed with
  | idle state => exact State.noConfusion (third.symm.trans state)
  | address state => exact State.noConfusion (third.symm.trans state)
  | writing writes under awvalid wvalid place tick => rw [tick third, under.count]
  | response state => exact State.noConfusion (third.symm.trans state)

end Step

section Memory

theorem rounds_succ (k : Nat) {slot : Nat} (within : slot < ringLen) :
    rounds (k + 1) slot = rounds k slot + (decide (k % ringLen = slot)).toNat := by
  unfold ringLen at within
  rw [rounds, rounds, ringLen]
  by_cases hit : k % 200001 = slot
  · rw [decide_eq_true hit, Bool.toNat_true]
    omega
  · rw [decide_eq_false hit, Bool.toNat_false]
    omega

/-- The last burst that went to a slot. -/
theorem rounds_last {k slot : Nat} (within : slot < ringLen) (hit : k % ringLen = slot) :
    ringLen * rounds k slot + slot = k := by
  unfold ringLen at *
  rw [rounds, ringLen]
  omega

/-- What the memory has at a slot's tick counter after `written` writes of it, when the tick
counters of the bursts before `stored` have been stored since the burst `first`. -/
structure Kept (d : BitVec 32) (first slot stored written : Nat) (mem : BitVec 32 → BitVec 32) :
    Prop where
  count : rounds first slot + written = rounds stored slot
  value : 0 < written → mem (tickWord slot) =
    d + BitVec.ofNat 32 (ringLen * (rounds stored slot - 1) + slot + 1)

variable {d : BitVec 32} {first slot k written : Nat} {c : Capture} {i : Ports}

theorem step_mem_kept {a : BitVec 32} (unwritten : c.wrote i a = false) :
    (c.step i).mem a = c.mem a := by
  rw [Capture.wrote] at unwritten
  change (if c.writer.m2s.wvalid && i.s2m.wready then _ else _ : BitVec 32 → BitVec 32) a = _
  cases accepts : c.writer.m2s.wvalid && i.s2m.wready with
  | true =>
      rw [accepts, Bool.true_and] at unwritten
      rw [if_pos rfl]
      exact Function.update_of_ne (fun same => of_decide_eq_false unwritten same.symm) _ _
  | false => rw [if_neg Bool.false_ne_true]

theorem step_mem_wrote {a : BitVec 32} (wrote : c.wrote i a = true) :
    (c.step i).mem a = c.writer.m2s.wdata := by
  obtain ⟨accepts, here⟩ := Bool.and_eq_true_iff.1 wrote
  change (if c.writer.m2s.wvalid && i.s2m.wready then _ else _ : BitVec 32 → BitVec 32) a = _
  rw [if_pos accepts, of_decide_eq_true here]
  exact Function.update_self _ _ _

theorem Placed.base_idle (placed : Placed d c k) (idle : c.writer.state = .idle) :
    c.writer.addrBase = slotAddr k := by
  cases placed with
  | idle state count base => exact base
  | address state => exact State.noConfusion (idle.symm.trans state)
  | writing writes => exact absurd idle writes.1
  | response state => exact State.noConfusion (idle.symm.trans state)

theorem Placed.storing (placed : Placed d c k) (storing : stores c.writer i = true) :
    1 ≤ k ∧ awaitsTick c.writer = true ∧ begins c.writer i = false := by
  have third : c.writer.state = .ps .ps1 .dcct1 :=
    of_decide_eq_true (Bool.and_eq_true_iff.1 storing).1
  refine ⟨?_, by rw [awaitsTick, third]; rfl, by rw [begins, third]; rfl⟩
  cases placed with
  | idle state => exact State.noConfusion (third.symm.trans state)
  | address => exact Nat.succ_pos _
  | writing => exact Nat.succ_pos _
  | response => exact Nat.succ_pos _

/-- One clock keeps the memory's tick counters those of the last bursts. -/
theorem Kept.step (kept : Kept d first slot (k - (awaitsTick c.writer).toNat) written c.mem)
    (placed : Placed d c k) (running : i.reset = false) (within : slot < ringLen) :
    Kept d first slot
      (k + (begins c.writer i).toNat - (awaitsTick (c.step i).writer).toNat)
      (written + (c.wrote i (tickWord slot)).toNat) (c.step i).mem := by
  have conserved : (awaitsTick (c.step i).writer).toNat + (stores c.writer i).toNat =
    (awaitsTick c.writer).toNat + (begins c.writer i).toNat := awaitsTick_step running
  have wrote := placed.wrote_tick (i := i) within
  cases storing : stores c.writer i with
  | false =>
      rw [storing, Bool.false_and] at wrote
      rw [storing, Bool.toNat_false, Nat.add_zero] at conserved
      rw [wrote, Bool.toNat_false, Nat.add_zero, conserved, Nat.add_sub_add_right]
      exact ⟨kept.count, fun some_written => (step_mem_kept wrote).trans (kept.value some_written)⟩
  | true =>
      obtain ⟨positive, awaited, waits⟩ := placed.storing storing
      rw [storing, awaited, waits] at conserved
      have answered : (awaitsTick (c.step i).writer).toNat = 0 := Nat.succ.inj conserved
      rw [storing, Bool.true_and] at wrote
      rw [awaited, Bool.toNat_true] at kept
      have more := rounds_succ (k - 1) within
      rw [Nat.sub_add_cancel positive] at more
      rw [waits, answered, wrote, Bool.toNat_false, Nat.add_zero, Nat.sub_zero]
      have count := kept.count
      by_cases hit : (k - 1) % ringLen = slot
      · rw [decide_eq_true hit] at wrote more ⊢
        refine ⟨by rw [more, ← count]; rfl, fun _ => ?_⟩
        rw [step_mem_wrote wrote, placed.tick_data storing, more, Bool.toNat_true,
          Nat.add_sub_cancel, rounds_last within hit, Nat.sub_add_cancel positive]
      · rw [decide_eq_false hit, Bool.toNat_false, Nat.add_zero] at more ⊢
        rw [decide_eq_false hit] at wrote
        refine ⟨by rw [more]; exact count, fun some_written => ?_⟩
        rw [more]
        exact (step_mem_kept wrote).trans (kept.value some_written)

end Memory

/-- Between two bursts, the next to be the `k`th. -/
structure Fresh (k : Nat) (s : Regs) : Prop where
  state : s.state = .idle
  base : s.addrBase = slotAddr k
  awvalid : s.m2s.awvalid = false
  wvalid : s.m2s.wvalid = false

section Runs

variable (c : Capture) (inp : Nat → Ports)

/-- How many bursts begin before clock `t`. -/
def bursts (t : Nat) : Nat :=
  ticksBefore (fun u => begins (run Capture.step c inp u).writer (inp u)) t

/-- How often the word at an address is written before clock `t`. -/
def writesBefore (a : BitVec 32) (t : Nat) : Nat :=
  ticksBefore (fun u => (run Capture.step c inp u).wrote (inp u) a) t

end Runs

section Runs

variable {c : Capture} {inp : Nat → Ports} {first : Nat}

theorem placed_run (fresh : Fresh first c.writer) (running : ∀ t, (inp t).reset = false)
    (t : Nat) : Placed (c.writer.datacnt - BitVec.ofNat 32 first) (run Capture.step c inp t)
      (first + bursts c inp t) := by
  induction t with
  | zero =>
      exact .idle fresh.state (BitVec.sub_add_cancel _ _).symm fresh.base fresh.awvalid fresh.wvalid
  | succ t ih =>
      rw [run_succ, bursts, ticksBefore_succ, ← Nat.add_assoc]
      exact ih.step (running t)

theorem kept_run (fresh : Fresh first c.writer) (running : ∀ t, (inp t).reset = false)
    {slot : Nat} (within : slot < ringLen) (t : Nat) :
    Kept (c.writer.datacnt - BitVec.ofNat 32 first) first slot
      (first + bursts c inp t - (awaitsTick (run Capture.step c inp t).writer).toNat)
      (writesBefore c inp (tickWord slot) t) (run Capture.step c inp t).mem := by
  induction t with
  | zero =>
      have waits : awaitsTick c.writer = false := by
        rw [awaitsTick, fresh.state]
        rfl
      refine ⟨?_, fun written => absurd written (Nat.not_lt.2 (by simp [writesBefore]))⟩
      simp [writesBefore, bursts, waits]
  | succ t ih =>
      rw [run_succ, bursts, writesBefore, ticksBefore_succ, ticksBefore_succ, ← Nat.add_assoc]
      exact ih.step (placed_run fresh running t) (running t) within

/-- A slot's tick counter, read `written` writes of it after clock `p` between two bursts. -/
theorem tick_read (fresh : Fresh first c.writer) (running : ∀ t, (inp t).reset = false)
    {slot : Nat} (within : slot < ringLen) {p t written : Nat}
    (idle : (run Capture.step c inp p).writer.state = .idle)
    (count : writesBefore c inp (tickWord slot) t = writesBefore c inp (tickWord slot) p + written)
    (some_written : rounds first slot < rounds (first + bursts c inp p) slot + written) :
    (run Capture.step c inp t).mem (tickWord slot) =
      c.writer.datacnt - BitVec.ofNat 32 first + BitVec.ofNat 32
        (ringLen * (rounds (first + bursts c inp p) slot + written - 1) + slot + 1) := by
  have before := (kept_run fresh running within p).count
  have waits : awaitsTick (run Capture.step c inp p).writer = false := by
    rw [awaitsTick, idle]
    rfl
  rw [waits, Bool.toNat_false, Nat.sub_zero] at before
  have later := kept_run fresh running within t
  have total := later.count
  rw [later.value (by omega), ← total, count, ← before, ← Nat.add_assoc]

theorem begins_state {s : Regs} {i : Ports} (begun : begins s i = true) :
    s.state = .idle ∧ (i.trigger && !s.prevTrigger) = true := by
  obtain ⟨idle, edge⟩ := Bool.and_eq_true_iff.1 begun
  exact ⟨of_decide_eq_true idle, edge⟩

/-- The address a burst is given and the pointer published with it. -/
theorem burst_addr (fresh : Fresh first c.writer) (running : ∀ t, (inp t).reset = false)
    {p : Nat} (begun : begins (run Capture.step c inp p).writer (inp p) = true) :
    (run Capture.step c inp (p + 1)).writer.m2s.awaddr = slotAddr (first + bursts c inp p) ∧
      (run Capture.step c inp (p + 1)).writer.ssBufStat.addrPtr =
        slotAddr (first + bursts c inp p) := by
  obtain ⟨idle, edge⟩ := begins_state begun
  have base := (placed_run fresh running p).base_idle idle
  have clock : (run Capture.step c inp (p + 1)).writer =
      idleClock (run Capture.step c inp p).writer (inp p) := step_idle (running p) idle
  rw [clock, idleClock, if_pos edge]
  exact ⟨base, base⟩

/-- A new address is published when a burst begins. -/
theorem ssBufStat_step {s : Regs} {i : Ports} (live : i.reset = false) :
    (step s i).ssBufStat = if begins s i then ⟨s.addrBase, s.datacnt⟩ else s.ssBufStat := by
  have busy (other : s.state ≠ .idle) : begins s i = false := by
    rw [begins, decide_eq_false other, Bool.false_and]
  rcases state_cases s.state with idle | address | awaits | writes
  · rw [step_idle live idle, idleClock, begins, idle]
    cases edge : i.trigger && !s.prevTrigger with
    | true => rfl
    | false => rfl
  · rw [step_address live address, addressClock, busy (by rw [address]; decide),
      if_neg Bool.false_ne_true]
    split_ifs
    · rfl
    · rfl
  · rw [step_awaitresp live awaits, awaitrespClock, busy (by rw [awaits]; decide),
      if_neg Bool.false_ne_true]
    cases i.s2m.bvalid with
    | true => rfl
    | false => rfl
  · rw [step_writes live writes, writeWord, busy writes.1, if_neg Bool.false_ne_true]
    cases i.s2m.wready with
    | true => rfl
    | false => rfl

/-- The address published is that of the last burst, if there is one. -/
theorem addrPtr_run (fresh : Fresh first c.writer) (running : ∀ t, (inp t).reset = false)
    (t : Nat) : (run Capture.step c inp t).writer.ssBufStat.addrPtr =
      if bursts c inp t = 0 then c.writer.ssBufStat.addrPtr
      else slotAddr (first + bursts c inp t - 1) := by
  induction t with
  | zero => rfl
  | succ t ih =>
      have count : bursts c inp (t + 1) = bursts c inp t +
          (begins (run Capture.step c inp t).writer (inp t)).toNat := ticksBefore_succ _ t
      have next : (run Capture.step c inp (t + 1)).writer.ssBufStat =
          if begins (run Capture.step c inp t).writer (inp t) then
            ⟨(run Capture.step c inp t).writer.addrBase, (run Capture.step c inp t).writer.datacnt⟩
          else (run Capture.step c inp t).writer.ssBufStat := ssBufStat_step (running t)
      rw [next]
      cases begun : begins (run Capture.step c inp t).writer (inp t) with
      | true =>
          rw [begun, Bool.toNat_true] at count
          rw [if_pos rfl, count, if_neg (Nat.succ_ne_zero _), ← Nat.add_assoc, Nat.add_sub_cancel]
          exact (placed_run fresh running t).base_idle (begins_state begun).1
      | false =>
          rw [begun, Bool.toNat_false, Nat.add_zero] at count
          rw [if_neg Bool.false_ne_true, count]
          exact ih

end Runs

end PscDigpid.Hdl.Adc2ddr
