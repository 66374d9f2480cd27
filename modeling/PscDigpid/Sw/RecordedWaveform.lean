/- Unit: PscDigpid/Sw/RecordedWaveform
   layer: result
   source: src/hw/hdl/top.vhd, src/hw/hdl/adc2ddr.vhd, src/hw/hdl/ps_io.vhd (address latch),
     src/sw/src/snapshots.c (CheckforTriggers to snapshot_push)
   digest: A waveform message holds the conversions around its trigger. -/

import PscDigpid.Hdl.Recording
import PscDigpid.Sw.SnapshotMessage
import PscDigpid.Sw.TriggerDetection

set_option autoImplicit false
set_option relaxedAutoImplicit false

namespace PscDigpid.Sw

open PscDigpid.Hdl
open PscDigpid.Hdl.Adc2ddr (ringLen wordAddr slotAddr)
open PscDigpid.Hdl.Recording (tick started line ringLine Prompt currents voltages)
open PscDigpid.Hdl.TriggerLatch (Top risesAt)
open PscDigpid.Sync

/-- The tick whose record is the `j`th of a window, when `n` is the last tick before the trigger. -/
def windowTick (n pre j : Nat) : Nat := windowBurst 0 (n - 1) pre j + 1

/-- An entry as it is sent with a pointer. -/
def entryWith (e : TrigEntry) (pointer : BitVec 32) : TriggerInfo :=
  { initTriggerInfo e with addr := pointer }

/-- How many records an entry's window has. -/
def windowLen (e : TrigEntry) : Nat :=
  (initTriggerInfo e).pretrigpts.toNat + (initTriggerInfo e).posttrigpts.toNat

/-- The tick of the `j`th record of an entry's window. -/
def entryTick (e : TrigEntry) (n j : Nat) : Nat :=
  windowTick n (initTriggerInfo e).pretrigpts.toNat j

section Law

variable (mem : BitVec 32 → BitVec 32) (inp : Nat → Recording.Ports)

/-- The memory as the processor sees it while it makes an entry's message: each word is read when
the record's burst is over, and before the ring has gone round. -/
def ReadInTime (e : TrigEntry) (n : Nat) (view : BitVec 32 → BitVec 32) : Prop :=
  ∀ j w, j < windowLen e → w < 34 →
    ∃ t, tick (entryTick e n j) + 400 ≤ t ∧ t ≤ tick (entryTick e n j + ringLen) ∧
      recordWord view (slotAddr (entryTick e n j - 1)) w =
        (run Top.step (started mem inp) (line mem inp) t).ring.mem
          (wordAddr (slotAddr (entryTick e n j - 1)) w)

/-- The channel's loop is off in the registers and while the window's records are written. -/
structure LoopOff (b : Board) (e : TrigEntry) (n : Nat) : Prop where
  register : b.xilIn32 (chanReg (chanNumber (chanOf e.2)) dpidEnbReg) ≠ 1
  fabric : ∀ j t, j < windowLen e → tick (entryTick e n j) < t →
    t < tick (entryTick e n j) + 400 → (ringLine mem inp t).digpidEnb1 = false

end Law

section Window

variable {mem : BitVec 32 → BitVec 32} {inp : Nat → Recording.Ports} {resolution : Bool}

theorem channum_init (e : TrigEntry) : (initTriggerInfo e).channum = chanNumber (chanOf e.2) := by
  obtain ⟨kind, i⟩ := e
  change BitVec.ofNat 32 i + 1 = chanNumber (chanOf i)
  revert i
  decide

theorem windowLen_lt (e : TrigEntry) : windowLen e < 200000 := by
  rw [windowLen, initTriggerInfo]
  dsimp only
  split_ifs
  · decide
  · decide

theorem entryTick_late {e : TrigEntry} {n : Nat}
    (late : (initTriggerInfo e).pretrigpts.toNat + 7 ≤ n) (j : Nat) :
    6 ≤ entryTick e n j := by
  rw [entryTick, windowTick, windowBurst]
  omega

/-- A trigger at clock `v` finds one record begun for each tick before it. -/
theorem recordsBegun_tick (clocked : Recording.Clocked inp resolution)
    (prompt : Prompt mem inp) (v : Nat) :
    TriggerLatch.recordsBegun (started mem inp) (line mem inp) v = (v - 1) / 10001 :=
  clocked.bursts_of_tick prompt v

theorem booted (clocked : Recording.Clocked inp resolution) : Booted (started mem inp) 0 := by
  obtain ⟨fresh, -, -⟩ := clocked.fresh mem
  have reset : (Recording.adc2ddr (Recording.powerUp mem) (inp 0)).reset = true := clocked.reset
  refine ⟨fresh, ?_, ?_⟩
  · change (Adc2ddr.step Adc2ddr.powerUp
      (Recording.adc2ddr (Recording.powerUp mem) (inp 0))).ssBufStat.addrPtr = 0
    rw [Adc2ddr.step, if_pos reset]
    rfl
  · change (TriggerLatch.step TriggerLatch.powerUp (Top.psIo (Recording.powerUp mem).top
      (Recording.topPorts (Recording.powerUp mem) (inp 0)))).bufptr = fun _ => 0
    rw [TriggerLatch.step, if_pos (show (Top.psIo (Recording.powerUp mem).top
      (Recording.topPorts (Recording.powerUp mem) (inp 0))).plReset = true from reset)]

/-- The burst of a record of the window has found the conversions of its tick. -/
theorem found_conversions (clocked : Recording.Clocked inp resolution)
    (prompt : Prompt mem inp) {e : TrigEntry}
    {n j k : Nat} {b : Board} {ends : Nat → Nat}
    (off : chanOf e.2 = .ps1 → LoopOff mem inp b e n) (inside : j < windowLen e)
    (burst : entryTick e n j = k + 1) (late : 5 ≤ k)
    (finds : Recording.Finds mem inp resolution ends) :
    Found (started mem inp).ring (ringLine mem inp) k (chanOf e.2)
      (currents inp resolution (k + 1) (chanOf e.2))
      (voltages inp (k + 1) (ends k) (chanOf e.2)) where
  off _ u _ put first := by
    obtain ⟨low, high⟩ := clocked.put_within prompt put
    rw [← burst] at low high
    exact (off first).fabric j u inside low high
  dcct m u _ put := (finds k m u _ late put).1
  mon m u _ put := (finds k m u _ late put).2

/-- What is read in time is in memory when it is read. -/
theorem ReadInTime.sees (clocked : Recording.Clocked inp resolution)
    (prompt : Prompt mem inp) {e : TrigEntry} {n : Nat}
    (filled : (initTriggerInfo e).pretrigpts.toNat < n - 1) {view : BitVec 32 → BitVec 32}
    (intime : ReadInTime mem inp e n view) :
    Sees (started mem inp).ring (ringLine mem inp) 0 (n - 1)
      (entryWith e (slotAddr (0 + (n - 1)))) view := by
  intro j w inside word
  obtain ⟨t, after, before, same⟩ := intime j w inside word
  have slot : slotAddr (0 + windowBurst 0 (n - 1) (initTriggerInfo e).pretrigpts.toNat j) =
      bufAddr (windowPlace (entryWith e (slotAddr (0 + (n - 1)))) ((0 + (n - 1)) % ringLen) j) :=
    slotAddr_windowBurst (windowLen_lt e) filled inside
  refine ⟨t, clocked.stored prompt after, ?_, ?_⟩
  · have count := clocked.bursts_of_tick prompt t
    simp only [entryTick, windowTick, tick] at before
    rw [count]
    change _ ≤ windowBurst 0 (n - 1) (initTriggerInfo e).pretrigpts.toNat j + ringLen
    omega
  · rw [TriggerLatch.run_ring] at same
    rw [← slot, Nat.zero_add]
    exact same

/-- The message of an entry whose pointer is that of tick `n`. -/
theorem message_of_conversions (clocked : Recording.Clocked inp resolution)
    (prompt : Prompt mem inp) {e : TrigEntry} {n : Nat} {b : Board}
    {view : BitVec 32 → BitVec 32} {ends : Nat → Nat}
    (late : (initTriggerInfo e).pretrigpts.toNat + 7 ≤ n)
    (off : chanOf e.2 = .ps1 → LoopOff mem inp b e n) (intime : ReadInTime mem inp e n view)
    (finds : Recording.Finds mem inp resolution ends) :
    readDMABuf view b (entryWith e (slotAddr (0 + (n - 1)))) =
      (List.range (windowLen e)).flatMap fun j =>
        readingCells (b.scalefactors (chanNumber (chanOf e.2) - 1)) (chanOf e.2)
          (BitVec.ofNat 32 (entryTick e n j))
          (currents inp resolution (entryTick e n j) (chanOf e.2))
          (voltages inp (entryTick e n j) (ends (entryTick e n j - 1)) (chanOf e.2)) := by
  obtain ⟨fresh, zero, -⟩ := clocked.fresh mem
  have filled : (initTriggerInfo e).pretrigpts.toNat < n - 1 := by omega
  have found (j : Nat) (inside : j < windowLen e) :=
    found_conversions clocked prompt off inside rfl
      (Nat.le_of_succ_le_succ (entryTick_late late j)) finds
  have channel : (entryWith e (slotAddr (0 + (n - 1)))).channum = chanNumber (chanOf e.2) :=
    channum_init e
  rw [readDMABuf_readings fresh (clocked.ring_live mem) b rfl channel
    (fun first => (off first).register) (windowLen_lt e) filled
    (intime.sees clocked prompt filled) found, zero]
  refine List.flatMap_congr fun j _ => ?_
  exact congrArg (fun count => readingCells _ _ count _ _) (BitVec.zero_add _)

/-- What is sent for a trigger seen at a pass holds, record by record, the tick counters and the
conversions of the ticks of its window: the currents of the last tick before whose number is a
multiple of five, and the voltages of the tick before. -/
theorem waveform_of_conversions (clocked : Recording.Clocked inp resolution)
    (prompt : Prompt mem inp)
    {read : Nat → TrigEntry → Nat} {e : TrigEntry} {a v : Nat} {trig : TriggerInfo} {b : Board}
    {view : BitVec 32 → BitVec 32}
    (activated : Activated (pointersRead (started mem inp) (line mem inp) read) e a)
    (edge : LastTick (risesAt (started mem inp) (line mem inp) (lineOf e)) v (read a e))
    (sent : ⟨e, trig⟩ ∈
      callsAt (pointersRead (started mem inp) (line mem inp) read) (a + waits e))
    (late : (initTriggerInfo e).pretrigpts.toNat + 7 ≤ (v - 1) / 10001)
    (off : chanOf e.2 = .ps1 → LoopOff mem inp b e ((v - 1) / 10001))
    (intime : ReadInTime mem inp e ((v - 1) / 10001) view) :
    ∃ ends : Nat → Nat,
      (∀ n, 0 < n → Acquisition.pulseClock n < ends n ∧
        ends n ≤ Acquisition.pulseClock n + 1693) ∧
      waveform view b trig = ((initTriggerInfo e).msgID,
        (List.range (windowLen e)).flatMap fun j =>
          let n := entryTick e ((v - 1) / 10001) j
          readingCells (b.scalefactors (chanNumber (chanOf e.2) - 1)) (chanOf e.2)
            (BitVec.ofNat 32 n) (currents inp resolution n (chanOf e.2))
            (voltages inp n (ends (n - 1)) (chanOf e.2))) := by
  obtain ⟨ends, bounds, finds⟩ := clocked.found prompt
  refine ⟨ends, bounds, ?_⟩
  obtain ⟨addr, settings⟩ := sent_from activated sent
  have pointer : pointersRead (started mem inp) (line mem inp) read a e =
      slotAddr (0 + ((v - 1) / 10001 - 1)) := by
    rw [pointersRead_last (clocked.live mem) edge,
      ssAddrPtr_run (booted clocked) (clocked.live mem),
      recordsBegun_tick clocked prompt v, if_neg (show (v - 1) / 10001 ≠ 0 by omega)]
    congr 1
    omega
  rw [pointer] at addr
  have message : waveform view b trig =
      waveform view b (entryWith e (slotAddr (0 + ((v - 1) / 10001 - 1)))) :=
    waveform_congr view b settings addr
  rw [message, waveform, message_of_conversions clocked prompt late off intime finds]
  rfl

end Window

section Injection

/-- Unit gains, silent converters and a slave that is always ready; software raises the injection
trigger of the first channel for one clock. -/
def injection (t : Nat) : Recording.Ports where
  acquisition := Acquisition.unitGain 0 t
  digpidEnb1 := false
  s2m := ⟨true, true, true⟩
  pidStat1 := ⟨0, 0⟩
  softtrig := 0
  testtrig := if t = 70501 then 0x100 else 0
  dacCntrl := PerChan.of fun _ => ⟨0, false, 0, 0, 0, 0, 0, 0, 0, false, false, 0⟩
  faultStat := PerChan.of fun _ => ⟨0, 0, false, false⟩
  injTrig := false
  tsS := 0
  tsNs := 0

def zeroed (_ : BitVec 32) : BitVec 32 := 0

/-- The first pass reads the pointers a hundred clocks after the trigger. -/
def everyThousandth (k : Nat) (_ : TrigEntry) : Nat := 70600 + 1000 * k

def injEntry : TrigEntry := (.inj, ⟨0, by decide⟩)

theorem injection_clocked : Recording.Clocked injection false := ⟨rfl, fun _ => rfl, fun _ => rfl⟩

theorem injection_prompt : Prompt zeroed injection :=
  injection_clocked.prompt_of_ready fun _ => rfl

theorem injection_trig (t : Nat) (s : Top) :
    TriggerLatch.trig (s.psIo (line zeroed injection t)) (.inj .ps1) = decide (t = 70500) := by
  have bit : TriggerLatch.trig (s.psIo (line zeroed injection t)) (.inj .ps1) =
      ((if t + 1 = 70501 then 0x100 else 0 : BitVec 16).getLsbD 8 || (false && decide _)) := rfl
  rw [bit, Bool.false_and, Bool.or_false]
  by_cases here : t = 70500
  · rw [if_pos (by omega), decide_eq_true here]
    rfl
  · rw [if_neg (by omega), decide_eq_false here]
    rfl

theorem injection_rises (t : Nat) :
    risesAt (started zeroed injection) (line zeroed injection) (lineOf injEntry) (t + 1) =
      decide (t + 1 = 70500) := by
  have last : (run Top.step (started zeroed injection) (line zeroed injection) (t + 1)).latch.prev
      (.inj .ps1) = decide (t = 70500) := by
    rw [← injection_trig t (run Top.step (started zeroed injection) (line zeroed injection) t)]
    rfl
  change (!false && (TriggerLatch.trig ((run Top.step (started zeroed injection)
      (line zeroed injection) (t + 1)).psIo (line zeroed injection (t + 1))) (.inj .ps1) &&
    !(run Top.step (started zeroed injection) (line zeroed injection) (t + 1)).latch.prev
      (.inj .ps1))) = _
  rw [injection_trig, last]
  by_cases here : t + 1 = 70500
  · have other : t ≠ 70500 := by omega
    simp [here, other]
  · simp [here]

theorem injection_edge : LastTick
    (risesAt (started zeroed injection) (line zeroed injection) (lineOf injEntry)) 70500
    (everyThousandth 0 injEntry) := by
  refine ⟨by decide, (injection_rises 70499).trans (by decide), fun v after _ => ?_⟩
  obtain ⟨v, rfl⟩ := Nat.exists_eq_succ_of_ne_zero (n := v) (by omega)
  rw [injection_rises]
  exact decide_eq_false (by omega)

theorem injection_activated :
    Activated (pointersRead (started zeroed injection) (line zeroed injection) everyThousandth)
      injEntry 0 := by
  rw [activated_iff rfl, pointersRead_last (injection_clocked.live zeroed) injection_edge,
    ssAddrPtr_run (booted injection_clocked) (injection_clocked.live zeroed),
    recordsBegun_tick injection_clocked injection_prompt]
  decide

/-- The memory when all the records of the window are in it. -/
def viewAfter : BitVec 32 → BitVec 32 :=
  (run Top.step (started zeroed injection) (line zeroed injection) (tick 8010)).ring.mem

/-- The message of the injection trigger begins with the seventh tick. -/
theorem injection_waveform : ∃ trig, ⟨injEntry, trig⟩ ∈
      callsAt (pointersRead (started zeroed injection) (line zeroed injection) everyThousandth) 8 ∧
    (waveform viewAfter blankBoard trig).2[1]? = some (.count 7) := by
  have asks := sentAt_iff.2 (asks_iff.2 ⟨0, injection_activated, rfl⟩)
  obtain ⟨trig, sent⟩ := asks
  refine ⟨trig, sent, ?_⟩
  have seen (j : Nat) (inside : j < windowLen injEntry) :
      7 ≤ entryTick injEntry 7 j ∧ entryTick injEntry 7 j ≤ 8009 := by
    have few : windowLen injEntry = 8000 := by decide
    have none : (initTriggerInfo injEntry).pretrigpts.toNat = 0 := rfl
    rw [entryTick, windowTick, windowBurst, none]
    rw [few] at inside
    unfold ringLen
    omega
  have intime : ReadInTime zeroed injection injEntry 7 viewAfter := by
    intro j w inside _
    obtain ⟨low, high⟩ := seen j inside
    refine ⟨tick 8010, ?_, ?_, rfl⟩
    · change 10001 * entryTick injEntry 7 j + 400 ≤ 10001 * 8010
      omega
    · change 10001 * 8010 ≤ 10001 * (entryTick injEntry 7 j + ringLen)
      unfold ringLen
      omega
  have off : LoopOff zeroed injection blankBoard injEntry 7 :=
    ⟨by decide, fun _ _ _ _ _ => rfl⟩
  obtain ⟨ends, -, message⟩ := waveform_of_conversions injection_clocked injection_prompt
    injection_activated injection_edge sent (by decide) (fun _ => off) intime
  have some_records : 0 < windowLen injEntry := by decide
  have last : (70500 - 1) / 10001 = 7 := by decide
  have first : entryTick injEntry 7 0 = 7 := by decide
  have second := getElem?_flatMap_range (fun j => readingCells_length
    (blankBoard.scalefactors (chanNumber (chanOf injEntry.2) - 1)) (chanOf injEntry.2)
    (BitVec.ofNat 32 (entryTick injEntry 7 j))
    (currents injection false (entryTick injEntry 7 j) (chanOf injEntry.2))
    (voltages injection (entryTick injEntry 7 j) (ends (entryTick injEntry 7 j - 1))
      (chanOf injEntry.2)))
    (windowLen injEntry) some_records (show 1 < 10 by decide)
  rw [first] at second
  rw [message, last]
  dsimp only
  exact second

end Injection

end PscDigpid.Sw
