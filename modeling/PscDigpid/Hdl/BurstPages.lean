/- Unit: PscDigpid/Hdl/BurstPages
   layer: result
   source: src/hw/hdl/adc2ddr.vhd (IDLE, AWAITRESP)
   digest: Which bursts of the ring go across the boundary of a page. -/

import PscDigpid.Sw.SnapshotWindow

set_option autoImplicit false
set_option relaxedAutoImplicit false

namespace PscDigpid.Hdl.Adc2ddr

open PscDigpid.Sync
open PscDigpid.Sw (steady steadyStart steady_begins steady_bursts steady_fresh steady_running)

/-- What no burst may go across. -/
def pageBytes : Nat := 4096

/-- Bytes of the burst on the address channel: its beats, each of a power of two. -/
def burstBytes (m : PlSnapshotAxi4M2s) : Nat := (m.awlen.toNat + 1) * 2 ^ m.awsize.toNat

/-- The first and the last byte of a burst are in one page. -/
def OnePage (m : PlSnapshotAxi4M2s) : Prop :=
  m.awaddr.toNat / pageBytes = (m.awaddr.toNat + burstBytes m - 1) / pageBytes

/-- A burst is acknowledged at this clock edge. -/
def completes (s : Regs) (i : Ports) : Bool :=
  !i.reset && (decide (s.state = .awaitresp) && i.s2m.bvalid)

/-- How many bursts are acknowledged before clock `t`, since the device was configured. -/
def completed (inp : Nat → Ports) (t : Nat) : Nat :=
  ticksBefore (fun u => completes (run step powerUp inp u) (inp u)) t

section Base

variable {s : Regs} {i : Ports} {k : Nat}

/-- Only the end of a burst moves the base, and it moves it to the next slot. -/
theorem addrBase_step (base : s.addrBase = slotAddr k) :
    (step s i).addrBase = slotAddr (k + (completes s i).toNat) := by
  cases live : i.reset with
  | true =>
      rw [step, if_pos live, completes, live]
      exact base
  | false =>
      rcases state_cases s.state with idle | address | awaits | writes
      · have quiet : completes s i = false := by
          rw [completes, idle, decide_eq_false (by decide), Bool.false_and, Bool.and_false]
        rw [step_idle live idle, idleClock, quiet]
        split
        · exact base
        · exact base
      · have quiet : completes s i = false := by
          rw [completes, address, decide_eq_false (by decide), Bool.false_and, Bool.and_false]
        rw [step_address live address, addressClock, quiet]
        split
        · exact base
        · exact base
      · have answer : completes s i = i.s2m.bvalid := by
          rw [completes, live, awaits]
          rfl
        rw [step_awaitresp live awaits, awaitrespClock, answer]
        cases i.s2m.bvalid with
        | true =>
            rw [if_pos rfl, Bool.toNat_true, ← slotAddr_succ, ← base]
        | false => exact base
      · have quiet : completes s i = false := by
          rw [completes, decide_eq_false writes.2.2, Bool.false_and, Bool.and_false]
        rw [step_writes live writes, writeWord, quiet]
        split
        · exact base
        · exact base

theorem addrBase_run (inp : Nat → Ports) (t : Nat) :
    (run step powerUp inp t).addrBase = slotAddr (completed inp t) := by
  induction t with
  | zero => rfl
  | succ t ih =>
      rw [run_succ, completed, ticksBefore_succ]
      exact addrBase_step ih

/-- A burst is one of a record, from the base. -/
theorem begun_burst (live : i.reset = false) (begun : begins s i = true) :
    (step s i).m2s.awaddr = s.addrBase ∧ burstBytes (step s i).m2s = 160 := by
  obtain ⟨idle, edge⟩ := begins_state begun
  rw [step_idle live idle, idleClock, if_pos edge]
  exact ⟨rfl, rfl⟩

/-- Pages are 128 parts of 32 bytes, of which a record takes five. -/
theorem onePage_slot {m : PlSnapshotAxi4M2s} (addr : m.awaddr = slotAddr k)
    (bytes : burstBytes m = 160) : OnePage m ↔ 5 * (k % ringLen) % 128 ≤ 123 := by
  have page := Nat.div_add_mod (5 * (k % ringLen)) 128
  have part : 5 * (k % ringLen) % 128 < 128 := Nat.mod_lt _ (by decide)
  generalize 5 * (k % ringLen) / 128 = pages, 5 * (k % ringLen) % 128 = parts at page part ⊢
  have place : 0x10000000 + 160 * (k % ringLen) = 4096 * (65536 + pages) + 32 * parts := by omega
  rw [OnePage, addr, bytes, toNat_slotAddr, pageBytes, place]
  clear page place
  omega

end Base

/-- A burst is in one page exactly when the records before it leave five parts of the page. -/
theorem burst_one_page_iff (inp : Nat → Ports) (t : Nat) (live : (inp t).reset = false)
    (begun : begins (run step powerUp inp t) (inp t) = true) :
    OnePage (run step powerUp inp (t + 1)).m2s ↔
      5 * (completed inp t % ringLen) % 128 ≤ 123 := by
  obtain ⟨addr, bytes⟩ := begun_burst live begun
  rw [addrBase_run] at addr
  exact onePage_slot addr bytes

/-- The first burst is in one page. -/
theorem first_burst_one_page :
    OnePage (run step powerUp (fun _ => { steady 0 with trigger := true }) (0 + 1)).m2s :=
  (burst_one_page_iff (fun _ => { steady 0 with trigger := true }) 0 rfl rfl).2 (by decide)

section Steady

/-- The writer's part of the run with a trigger every 64 clocks. -/
theorem steady_writer (t : Nat) :
    (run Capture.step steadyStart steady t).writer = run step powerUp steady t :=
  run_project Capture.writer (fun _ i => i) (fun _ => rfl) t

theorem steady_bytes {t : Nat} (begun : begins (run step powerUp steady t) (steady t) = true) :
    burstBytes (run step powerUp steady (t + 1)).m2s = 160 :=
  (begun_burst rfl begun).2

theorem steady_begun {t : Nat} (fires : 0 < t ∧ t % 64 = 0) :
    begins (run step powerUp steady t) (steady t) = true := by
  rw [← steady_writer, steady_begins]
  exact decide_eq_true fires

/-- The burst after 25 records begins 96 bytes before the end of a page. -/
theorem crossing_burst : begins (run step powerUp steady 1664) (steady 1664) = true ∧
    ¬ OnePage (run step powerUp steady (1664 + 1)).m2s := by
  have begun : begins (run step powerUp steady 1664) (steady 1664) = true :=
    steady_begun (by decide)
  refine ⟨begun, ?_⟩
  have capture := begun
  rw [← steady_writer] at capture
  have addr := (burst_addr steady_fresh steady_running capture).1
  rw [steady_writer, steady_bursts] at addr
  rw [onePage_slot addr (steady_bytes begun)]
  decide

end Steady

end PscDigpid.Hdl.Adc2ddr
