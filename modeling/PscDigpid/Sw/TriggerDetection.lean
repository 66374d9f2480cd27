/- Unit: PscDigpid/Sw/TriggerDetection
   layer: result
   source: src/hw/hdl/ps_io.vhd (address latch), src/sw/src/snapshots.c (CheckforTriggers)
   digest: Which triggers the polling of latched addresses sees. -/

import PscDigpid.Hdl.TriggerLatch
import PscDigpid.Sw.TriggerWaveforms

set_option autoImplicit false
set_option relaxedAutoImplicit false

namespace PscDigpid.Sw

open PscDigpid.Sync
open PscDigpid.Hdl (Chan)
open PscDigpid.Hdl.Adc2ddr (Fresh ringLen slotAddr)
open PscDigpid.Hdl.TriggerLatch

section Entries

def chanOf : Fin 4 → Chan
  | 0 => .ps1
  | 1 => .ps2
  | 2 => .ps3
  | 3 => .ps4

/-- The trigger input of an entry. -/
def lineOf : TrigEntry → TrigLine
  | (.usr, i) => .usr (chanOf i)
  | (.flt, i) => .flt (chanOf i)
  | (.err, i) => .err (chanOf i)
  | (.inj, i) => .inj (chanOf i)
  | (.evr, _) => .evr

/-- The software reads each entry's pointer where the fabric has it. -/
theorem trigBufptr_line (e : TrigEntry) : trigBufptr e = bufptrAddr (lineOf e) := by
  obtain ⟨kind, i⟩ := e
  cases kind with
  | evr => rfl
  | _ =>
      revert i
      decide

end Entries

section Last

variable (pointers : Nat → TrigEntry → BitVec 32) (e : TrigEntry)

def activatedAt (k : Nat) : Bool := decide (Activated pointers e k)

variable {pointers e} {k : Nat}

theorem addrLast_tick (k : Nat) : (atPass pointers (k + 1) e).addrLast =
    if activatedAt pointers e k then pointers k e else (atPass pointers k e).addrLast := by
  rw [addrLast_succ, activatedAt]
  simp only [decide_eq_true_eq]

theorem addrLast_last {a : Nat} (last : LastTick (activatedAt pointers e) a k) :
    (atPass pointers k e).addrLast = pointers a e :=
  latched_last (fun k => (atPass pointers k e).addrLast) (fun k => pointers k e) addrLast_tick last

theorem addrLast_never (never : ∀ a, a < k → activatedAt pointers e a = false) :
    (atPass pointers k e).addrLast = 0 :=
  latched_never (fun k => (atPass pointers k e).addrLast) (fun k => pointers k e) addrLast_tick
    never

end Last

section Polling

variable (s : Top) (inp : Nat → TopPorts) (read : Nat → TrigEntry → Nat)

/-- What the passes read, each entry's pointer at the clock of its own read. -/
def pointersRead (k : Nat) (e : TrigEntry) : BitVec 32 :=
  readBufptr (run Top.step s inp (read k e)).latch (trigBufptr e)

/-- The fabric when it comes out of configuration or its first reset. -/
structure Booted (first : Nat) : Prop where
  fresh : Fresh first s.ring.writer
  unpublished : s.ssAddrPtr = 0
  untriggered : s.latch.bufptr = fun _ => 0

/-- A trigger at clock `t` that the read of pass `k` does not tell from the last one seen: no
record has begun, and the entry was never active; or since the edge it was last made active for,
the ring has gone round any number of times, with no record at all as the first case. -/
inductive Stale (e : TrigEntry) (k t : Nat) : Prop
  | first (never : ∀ a, a < k → activatedAt (pointersRead s inp read) e a = false)
      (empty : recordsBegun s inp t = 0)
  | again {a u : Nat} (last : LastTick (activatedAt (pointersRead s inp read) e) a k)
      (seen : LastTick (risesAt s inp (lineOf e)) u (read a e))
      (lap : recordsBegun s inp t % ringLen = recordsBegun s inp u % ringLen)

end Polling

section Polling

variable {s : Top} {inp : Nat → TopPorts} {read : Nat → TrigEntry → Nat} {first : Nat}
  {e : TrigEntry} {k t : Nat}

theorem ssAddrPtr_run (booted : Booted s first) (running : ∀ t, (inp t).adc2ddr.reset = false)
    (t : Nat) : (run Top.step s inp t).ssAddrPtr =
      if recordsBegun s inp t = 0 then 0 else slotAddr (first + recordsBegun s inp t - 1) := by
  rw [Top.ssAddrPtr, run_ring, Hdl.Adc2ddr.addrPtr_run booted.fresh running, ← booted.unpublished]
  rfl

theorem slotAddr_ne_zero (n : Nat) : slotAddr n ≠ 0 := by
  intro same
  have zero := congrArg BitVec.toNat same
  rw [Hdl.Adc2ddr.toNat_slotAddr] at zero
  change _ = 0 at zero
  omega

theorem ssAddrPtr_eq_zero (booted : Booted s first) (running : ∀ t, (inp t).adc2ddr.reset = false)
    (t : Nat) : (run Top.step s inp t).ssAddrPtr = 0 ↔ recordsBegun s inp t = 0 := by
  rw [ssAddrPtr_run booted running]
  split_ifs with empty
  · exact iff_of_true rfl empty
  · exact iff_of_false (slotAddr_ne_zero _) empty

/-- Two addresses published are the same exactly when whole rounds of the ring are between. -/
theorem ssAddrPtr_inj (booted : Booted s first) (running : ∀ t, (inp t).adc2ddr.reset = false)
    {t u : Nat} (some_t : recordsBegun s inp t ≠ 0) (some_u : recordsBegun s inp u ≠ 0) :
    (run Top.step s inp t).ssAddrPtr = (run Top.step s inp u).ssAddrPtr ↔
      recordsBegun s inp t % ringLen = recordsBegun s inp u % ringLen := by
  rw [ssAddrPtr_run booted running, ssAddrPtr_run booted running, if_neg some_t, if_neg some_u,
    Hdl.Adc2ddr.slotAddr_inj]
  unfold ringLen
  omega

theorem recordsBegun_mono (s : Top) (inp : Nat → TopPorts) {t u : Nat} (le : t ≤ u) :
    recordsBegun s inp t ≤ recordsBegun s inp u :=
  ticksBefore_mono _ le

/-- A read returns the address published at the last edge before it. -/
theorem pointersRead_last (running : ∀ t, (inp t).adc2ddr.reset = false)
    (last : LastTick (risesAt s inp (lineOf e)) t (read k e)) :
    pointersRead s inp read k e = (run Top.step s inp t).ssAddrPtr := by
  rw [pointersRead, trigBufptr_line, readBufptr_line, bufptr_last running last]

theorem pointersRead_never (booted : Booted s first)
    (running : ∀ t, (inp t).adc2ddr.reset = false)
    (never : ∀ v, v < read k e → risesAt s inp (lineOf e) v = false) :
    pointersRead s inp read k e = 0 := by
  rw [pointersRead, trigBufptr_line, readBufptr_line, bufptr_never running never,
    booted.untriggered]

/-- Before a read of 0 only 0 was read. -/
theorem pointersRead_zero (booted : Booted s first) (running : ∀ t, (inp t).adc2ddr.reset = false)
    {a b : Nat} (before : read a e ≤ read b e) (zero : pointersRead s inp read b e = 0) :
    pointersRead s inp read a e = 0 := by
  rcases exists_lastTick (risesAt s inp (lineOf e)) (read a e) with ⟨u, last⟩ | never
  · rw [pointersRead_last running last, ssAddrPtr_eq_zero booted running]
    rcases exists_lastTick (risesAt s inp (lineOf e)) (read b e) with
      ⟨v, later⟩ | never
    · rw [pointersRead_last running later, ssAddrPtr_eq_zero booted running] at zero
      have order : u ≤ v := by
        by_contra after
        have none_after := later.2.2 u (by omega) (Nat.lt_of_lt_of_le last.1 before)
        rw [last.2.1] at none_after
        exact Bool.noConfusion none_after
      exact Nat.le_zero.1 (zero ▸ recordsBegun_mono s inp order)
    · have none_at := never u (Nat.lt_of_lt_of_le last.1 before)
      rw [last.2.1] at none_at
      exact Bool.noConfusion none_at
  · exact pointersRead_never booted running never

/-- What makes an entry active is not the pointer 0. -/
theorem pointersRead_activated (booted : Booted s first)
    (running : ∀ t, (inp t).adc2ddr.reset = false)
    (ordered : ∀ a b, a ≤ b → read a e ≤ read b e) {a : Nat}
    (activated : Activated (pointersRead s inp read) e a) : pointersRead s inp read a e ≠ 0 := by
  intro zero
  apply (activated_iff activated.1).1 activated
  rcases exists_lastTick (activatedAt (pointersRead s inp read) e) a with
    ⟨b, last⟩ | never
  · rw [addrLast_last last, zero,
      pointersRead_zero booted running (ordered b a (Nat.le_of_lt last.1)) zero]
  · rw [addrLast_never never, zero]

/-- The pointer read is the last one seen exactly when the trigger is stale. -/
theorem pointersRead_stale (booted : Booted s first)
    (running : ∀ t, (inp t).adc2ddr.reset = false)
    (ordered : ∀ a b, a ≤ b → read a e ≤ read b e)
    (edge : LastTick (risesAt s inp (lineOf e)) t (read k e)) :
    pointersRead s inp read k e = (atPass (pointersRead s inp read) k e).addrLast ↔
      Stale s inp read e k t := by
  rw [pointersRead_last running edge]
  constructor
  · intro same
    rcases exists_lastTick (activatedAt (pointersRead s inp read) e) k with
      ⟨a, last⟩ | never
    · rw [addrLast_last last] at same
      have some_pointer := pointersRead_activated booted running ordered
        (of_decide_eq_true last.2.1)
      rcases exists_lastTick (risesAt s inp (lineOf e)) (read a e) with
        ⟨u, seen⟩ | never
      · rw [pointersRead_last running seen] at same some_pointer
        have some_u := mt (ssAddrPtr_eq_zero booted running u).2 some_pointer
        rw [← same] at some_pointer
        have some_t := mt (ssAddrPtr_eq_zero booted running t).2 some_pointer
        exact .again last seen ((ssAddrPtr_inj booted running some_t some_u).1 same)
      · exact absurd (pointersRead_never booted running never) some_pointer
    · rw [addrLast_never never, ssAddrPtr_eq_zero booted running] at same
      exact .first never same
  · intro stale
    cases stale with
    | first never empty => rw [addrLast_never never, ssAddrPtr_eq_zero booted running, empty]
    | @again a u last seen lap =>
        have some_pointer := pointersRead_activated booted running ordered
          (of_decide_eq_true last.2.1)
        rw [addrLast_last last, pointersRead_last running seen]
        rw [pointersRead_last running seen] at some_pointer
        have some_u := mt (ssAddrPtr_eq_zero booted running u).2 some_pointer
        have order : u ≤ t := by
          by_contra after
          have within := Nat.lt_of_lt_of_le seen.1 (ordered a k (Nat.le_of_lt last.1))
          have none_after := edge.2.2 u (by omega) within
          rw [seen.2.1] at none_after
          exact Bool.noConfusion none_after
        have more := recordsBegun_mono s inp order
        exact (ssAddrPtr_inj booted running (by omega) some_u).2 lap

end Polling

/-- An entry that is idle when its trigger comes is made active by the next pass, and its waveform
is sent, exactly when the last edge before the read is not stale. -/
theorem trigger_seen_iff {s : Top} {inp : Nat → TopPorts} {read : Nat → TrigEntry → Nat}
    {first : Nat} {e : TrigEntry} {k v : Nat} (booted : Booted s first)
    (running : ∀ t, (inp t).adc2ddr.reset = false)
    (ordered : ∀ a b, a ≤ b → read a e ≤ read b e)
    (idle : (atPass (pointersRead s inp read) k e).active = 0)
    (edge : risesAt s inp (lineOf e) v = true) (polled : v < read k e) :
    ∃ t, v ≤ t ∧ LastTick (risesAt s inp (lineOf e)) t (read k e) ∧
      ((Activated (pointersRead s inp read) e k ∧
        SentAt (pointersRead s inp read) e (k + waits e)) ↔ ¬ Stale s inp read e k t) := by
  rcases exists_lastTick (risesAt s inp (lineOf e)) (read k e) with ⟨t, last⟩ | never
  · refine ⟨t, ?_, last, ?_⟩
    · by_contra before
      have none_after := last.2.2 v (by omega) polled
      rw [edge] at none_after
      exact Bool.noConfusion none_after
    · rw [← pointersRead_stale booted running ordered last, ← Ne, ← activated_iff idle]
      refine and_iff_left_of_imp fun activated => ?_
      exact sentAt_iff.2 (asks_iff.2 ⟨k, activated, rfl⟩)
  · rw [never v polled] at edge
    exact Bool.noConfusion edge

section Soft

/-- Software triggers channel 1 at clock 2, with or without a record begun before. -/
def softTrigger (ticks : Bool) (t : Nat) : TopPorts where
  adc2ddr :=
    { reset := false
      trigger := ticks
      digpidEnb1 := false
      s2m := ⟨false, false, false⟩
      dcctAdcs := Hdl.PerChan.of fun _ => ⟨0, 0⟩
      monAdcs := Hdl.PerChan.of fun _ => ⟨⟨0, 0, 0⟩, 0, 0, 0⟩
      pidStat1 := ⟨0, 0⟩ }
  softtrig := if t = 2 then 1 else 0
  testtrig := 0
  dacCntrl := Hdl.PerChan.of fun _ => ⟨0, false, 0, 0, 0, 0, 0, 0, 0, false, false, 0⟩
  faultStat := Hdl.PerChan.of fun _ => ⟨0, 0, false, false⟩
  injTrig := false
  tsS := 0
  tsNs := 0

def softStart : Top := ⟨⟨Hdl.Adc2ddr.powerUp, 0, fun _ => 0⟩, powerUp⟩

/-- A pass every 100 clocks. -/
def everyHundred (k : Nat) (_ : TrigEntry) : Nat := 4 + 100 * k

theorem softStart_booted : Booted softStart 0 := ⟨⟨rfl, rfl, rfl, rfl⟩, rfl, rfl⟩

theorem softTrigger_running (ticks : Bool) (t : Nat) :
    (softTrigger ticks t).adc2ddr.reset = false := rfl

theorem everyHundred_ordered (a b : Nat) (le : a ≤ b) (e : TrigEntry) :
    everyHundred a e ≤ everyHundred b e :=
  Nat.add_le_add_left (Nat.mul_le_mul_left 100 le) 4

theorem soft_trigger_seen :
    Activated (pointersRead softStart (softTrigger true) everyHundred) (.usr, 0) 0 ∧
      SentAt (pointersRead softStart (softTrigger true) everyHundred) (.usr, 0) (0 + 50) := by
  obtain ⟨t, after, -, law⟩ := trigger_seen_iff (e := (.usr, 0)) (k := 0) (v := 2) softStart_booted
    (softTrigger_running true) (fun a b le => everyHundred_ordered a b le _) rfl (by decide)
    (by decide)
  apply law.2
  intro stale
  cases stale with
  | first never empty =>
      have begun : 1 ≤ recordsBegun softStart (softTrigger true) 2 := by decide
      have more := recordsBegun_mono softStart (softTrigger true) after
      omega
  | again last => exact absurd last.1 (Nat.not_lt_zero _)

/-- A trigger before the first record is lost. -/
theorem early_trigger_lost :
    ¬ ∀ (s : Top) (first : Nat) (inp : Nat → TopPorts) (read : Nat → TrigEntry → Nat)
      (e : TrigEntry) (k v : Nat), Booted s first → (∀ t, (inp t).adc2ddr.reset = false) →
        (∀ a b, a ≤ b → read a e ≤ read b e) →
        (atPass (pointersRead s inp read) k e).active = 0 →
        risesAt s inp (lineOf e) v = true → v < read k e →
          Activated (pointersRead s inp read) e k ∧
            SentAt (pointersRead s inp read) e (k + waits e) := by
  intro seen
  have activated := (seen softStart 0 (softTrigger false) everyHundred (.usr, 0) 0 2
    softStart_booted (softTrigger_running false) (fun a b le => everyHundred_ordered a b le _) rfl
    (by decide) (by decide)).1
  have unread : pointersRead softStart (softTrigger false) everyHundred 0 (.usr, 0) = 0 := by
    decide
  exact (activated_iff rfl).1 activated unread

end Soft

end PscDigpid.Sw
