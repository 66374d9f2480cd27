/- Unit: PscDigpid/Hdl/DcctReadings
   layer: result
   source: src/hw/hdl/dcct_adc_module.vhd, src/hw/hdl/adc_ltc2376.vhd,
     src/hw/hdl/dcct_gainoffset.vhd
   digest: The four DCCT converters stay in step, and each conversion gives one set of readings. -/

import PscDigpid.Hdl.AdcWords
import PscDigpid.Hdl.CalibrationOrder
import PscDigpid.Hdl.DcctAdcModule
import PscDigpid.Sync.Staged

set_option autoImplicit false
set_option relaxedAutoImplicit false

namespace PscDigpid.Hdl

open PscDigpid.Sync

namespace AdcLtc2376

/-- The words are ready in `IDLE` only. -/
def Quiet (s : Regs) : Prop := s.state ≠ .idle → s.dataRdy = false

section Step

variable {s : Regs} {i : Ports}

theorem step_dataRdy : (step s i).dataRdy = (reader s i s).dataRdy := by
  unfold step clkDivide
  split_ifs <;> rfl

theorem quiet_reset (reset : i.reset = true) : Quiet (step s i) := by
  intro busy
  exact absurd (reset_step s reset).2.2.1 busy

theorem Quiet.next (quiet : Quiet s) : Quiet (step s i) := by
  cases reset : i.reset with
  | true => exact quiet_reset reset
  | false =>
    intro busy
    rw [step_dataRdy]
    rw [step_fields.1] at busy
    simp only [reader, reset, Bool.false_eq_true, if_false] at busy ⊢
    split_ifs at busy ⊢
    · cases state : s.state with
      | idle => simp only [readerCase, state]
      | done => simp [readerCase, state] at busy
      | setCnv | waitForNotBusy =>
        have none := quiet (by simp [state])
        simp only [readerCase, state]
        split_ifs
        all_goals exact none
      | sclkHi | sclkLo =>
        have none := quiet (by simp [state])
        simp only [readerCase, state]
        exact none
    · exact quiet busy

/-- A conversion ends at this clock edge. -/
def Ending (s : Regs) (i : Ports) : Prop := s.state = .done ∧ s.clkEnb = true ∧ i.reset = false

theorem Ending.dataRdy (ending : Ending s i) : (step s i).dataRdy = true := by
  obtain ⟨state, enabled, running⟩ := ending
  rw [step_dataRdy, reader, running, if_neg Bool.false_ne_true, if_pos enabled]
  simp only [readerCase, state]

theorem Ending.back (ending : Ending s i) : (step s i).state = .idle := by
  obtain ⟨state, enabled, running⟩ := ending
  rw [step_fields.1, reader, running, if_neg Bool.false_ne_true, if_pos enabled]
  simp only [readerCase, state]

/-- The words become ready at the end of a conversion only. -/
theorem ending_of_dataRdy (ready : (step s i).dataRdy = true) :
    s.dataRdy = true ∨ Ending s i := by
  cases reset : i.reset with
  | true => simp [step_dataRdy, reader, reset] at ready
  | false =>
    rw [step_dataRdy, reader, reset, if_neg Bool.false_ne_true] at ready
    split_ifs at ready with enabled
    · cases state : s.state with
      | done => exact .inr ⟨state, enabled, reset⟩
      | idle => simp [readerCase, state] at ready
      | setCnv | waitForNotBusy =>
        left
        simp only [readerCase, state] at ready
        split_ifs at ready
        all_goals exact ready
      | sclkHi | sclkLo =>
        simp only [readerCase, state] at ready
        exact .inl ready
    · exact .inl ready

/-- The reader leaves `IDLE` for the pulse only. -/
theorem idle_next (idle : s.state = .idle) :
    (step s i).state = .idle ∨ (step s i).state = .setCnv := by
  rw [step_fields.1]
  cases reset : i.reset with
  | true => exact .inl (by simp [reader, reset])
  | false =>
    simp only [reader, reset, Bool.false_eq_true, if_false]
    split_ifs
    · cases start : i.start with
      | true => exact .inr (by simp [readerCase, idle, start])
      | false => exact .inl (by simp [readerCase, idle, start])
    · exact .inl idle

/-- In `IDLE` the words stay. -/
theorem idle_words (running : i.reset = false) (idle : s.state = .idle) :
    (step s i).dcct1 = s.dcct1 ∧ (step s i).dcct2 = s.dcct2 := by
  rw [step, reader, running, if_neg Bool.false_ne_true, clkDivide, running,
    if_neg Bool.false_ne_true]
  simp only [readerCase, idle]
  split_ifs
  all_goals exact ⟨rfl, rfl⟩

end Step

/-- How far a correction may be from its next request, in each state of the first reader. -/
def room (s : Regs) : Nat :=
  match s.state with
  | .idle => 10
  | .setCnv => 10 - s.cnvCount.toNat
  | _ => 0

/-- The conversion pulse alone is longer than a correction. -/
theorem room_step {s : Regs} {i : Ports} (sound : Sound s) (quiet : Quiet s) :
    10 ≤ room (step s i) ∨
      i.reset = false ∧ s.dataRdy = false ∧ room s ≤ room (step s i) + 1 := by
  have next : room (step s i) = room (reader s i s) := by
    obtain ⟨state, cnv, -⟩ := step_fields (s := s) (i := i)
    rw [room, room, state, cnv]
  rw [next]
  cases reset : i.reset with
  | true =>
    left
    simp [room, reader, reset]
  | false =>
    simp only [reader, reset, Bool.false_eq_true, if_false, true_and]
    cases state : s.state with
    | idle =>
      left
      split_ifs
      · cases start : i.start with
        | false => simp [room, readerCase, state, start]
        | true =>
          have zero := sound.rests (by simp [state]) (by simp [state])
          simp [room, readerCase, state, start, zero]
      · simp only [room, state, Nat.le_refl]
    | setCnv =>
      right
      refine ⟨quiet (by simp [state]), ?_⟩
      split_ifs
      · by_cases last : s.cnvCount = cnvPulse
        · have full : s.cnvCount.toNat = 10 := congrArg BitVec.toNat last
          simp only [room, readerCase, state, if_pos last]
          omega
        · have bound := s.cnvCount.isLt
          by_cases small : s.cnvCount.toNat < 511
          · simp only [room, readerCase, state, if_neg last, count_up small]
            omega
          · simp only [room, readerCase, state, if_neg last]
            omega
      · exact Nat.le_succ _
    | waitForNotBusy | sclkHi | sclkLo | done =>
      right
      refine ⟨quiet (by simp [state]), ?_⟩
      simp only [room, state]
      exact Nat.zero_le _

end AdcLtc2376

namespace DcctAdcModule

open DcctGainoffset (fixedMul)

section Staged

/-- The correction as a worker in two stages. -/
def worker (g : DcctGainoffset.Regs) : Staged.Worker 4 DcctAdcsOnech DcctAdcsOnech where
  stage :=
    match g.state with
    | .idle => .waits
    | .applyOffsets => .first
    | .applyGains => .second
    | .multDly => .pause
  seen := g.convDoneLast
  count := g.multdlycnt
  middle := ⟨g.dcct0Oc, g.dcct1Oc⟩
  result := g.dcctOut
  done := g.done

def workerInput (i : DcctGainoffset.Ports) : Staged.Input DcctGainoffset.Ports :=
  ⟨i.reset, i.convDone, i⟩

def differences (i : DcctGainoffset.Ports) : DcctAdcsOnech where
  dcct0 := i.dcct0Raw - i.dcctParams.dcct0Offset
  dcct1 := i.dcct1Raw - i.dcctParams.dcct1Offset

def products (d : DcctAdcsOnech) (i : DcctGainoffset.Ports) : DcctAdcsOnech where
  dcct0 := fixedMul d.dcct0 i.dcctParams.dcct0Gain 4
  dcct1 := fixedMul d.dcct1 i.dcctParams.dcct1Gain 4

theorem products_out (i i' : DcctGainoffset.Ports) (k : DcctReading) :
    k.out (products (differences i) i') =
      fixedMul (k.raw i - k.offset i.dcctParams) (k.gain i'.dcctParams) 4 := by
  cases k <;> rfl

theorem worker_step (g : DcctGainoffset.Regs) (i : DcctGainoffset.Ports) :
    worker (DcctGainoffset.step g i) =
      Staged.step differences products 6#4 (worker g) (workerInput i) := by
  cases reset : i.reset with
  | true => simp only [DcctGainoffset.step, Staged.step, workerInput, worker, reset, if_true]
  | false =>
    cases state : g.state with
    | idle =>
      cases rise : i.convDone && !g.convDoneLast with
      | false | true =>
        simp [DcctGainoffset.step, Staged.step, workerInput, worker, reset, state, rise]
    | applyOffsets | applyGains =>
      simp only [DcctGainoffset.step, Staged.step, workerInput, worker, reset, state,
        Bool.false_eq_true, if_false]
      rfl
    | multDly =>
      by_cases full : g.multdlycnt = 6#4
      · simp [DcctGainoffset.step, Staged.step, workerInput, worker, reset, state, full]
      · simp [DcctGainoffset.step, Staged.step, workerInput, worker, reset, state, full]

end Staged

/-- A reader without the bits that it has read. -/
def control (r : AdcLtc2376.Regs) : AdcLtc2376.Regs :=
  { r with shiftReg := 0, dcct1 := 0, dcct2 := 0 }

theorem control_readerCase (r : AdcLtc2376.Regs) (i : AdcLtc2376.Ports) :
    control (AdcLtc2376.readerCase r i r) =
      control (AdcLtc2376.readerCase (control r) { i with sdi := false } (control r)) := by
  cases state : r.state with
  | sclkHi =>
    simp only [AdcLtc2376.readerCase, control, state]
  | sclkLo | done => simp only [AdcLtc2376.readerCase, control, state]
  | idle =>
    simp only [AdcLtc2376.readerCase, control, state]
    rfl
  | setCnv | waitForNotBusy =>
    simp only [AdcLtc2376.readerCase, control, state]
    split_ifs
    all_goals rfl

/-- The data line of a reader goes into its data only. -/
theorem control_step (r : AdcLtc2376.Regs) (i : AdcLtc2376.Ports) :
    control (AdcLtc2376.step r i) =
      control (AdcLtc2376.step (control r) { i with sdi := false }) := by
  have divide : ∀ next : AdcLtc2376.Regs, control (AdcLtc2376.clkDivide r i next) =
      AdcLtc2376.clkDivide r i (control next) := by
    intro next
    unfold AdcLtc2376.clkDivide
    split_ifs <;> rfl
  have turn : control (AdcLtc2376.reader r i r) =
      control (AdcLtc2376.reader (control r) { i with sdi := false } (control r)) := by
    unfold AdcLtc2376.reader
    by_cases reset : i.reset = true
    · rw [if_pos reset, if_pos reset]
      rfl
    · by_cases enabled : r.clkEnb = true
      · rw [if_neg reset, if_neg reset, if_pos enabled, if_pos (show (control r).clkEnb = true from
          enabled)]
        exact control_readerCase r i
      · rw [if_neg reset, if_neg reset, if_neg enabled,
          if_neg (show ¬(control r).clkEnb = true from enabled)]
        rfl
  rw [AdcLtc2376.step, divide, turn, ← divide]
  rfl

section Runs

variable (inp : Nat → Ports)

/-- What a channel's reader sees at clock `t`. -/
def line (c : Chan) (t : Nat) : AdcLtc2376.Ports := dcctAdc (inp t) c

/-- What a channel's correction sees at clock `t`. -/
def correctionInput (c : Chan) (t : Nat) : Staged.Input DcctGainoffset.Ports :=
  workerInput (gainoffAdc (run step powerUp inp t) (inp t) c)

theorem reader_run (c : Chan) (t : Nat) :
    (run step powerUp inp t).adc.get c =
      run AdcLtc2376.step AdcLtc2376.powerUp (line inp c) t := by
  have start : powerUp.adc.get c = AdcLtc2376.powerUp := PerChan.get_of _ c
  rw [← start]
  exact run_project (fun s : Regs => s.adc.get c) (fun _ i => dcctAdc i c)
    (fun t => PerChan.get_of _ c) t

theorem worker_run (c : Chan) (t : Nat) :
    worker ((run step powerUp inp t).gainoff.get c) =
      run (Staged.step differences products 6#4) (worker DcctGainoffset.powerUp)
        (correctionInput inp c) t := by
  have start : powerUp.gainoff.get c = DcctGainoffset.powerUp := PerChan.get_of _ c
  rw [← start]
  refine run_project (fun s : Regs => worker (s.gainoff.get c))
    (fun s i => workerInput (gainoffAdc s i c)) (fun t => ?_) t
  rw [← worker_step]
  exact congrArg worker (PerChan.get_of _ c)

/-- The readers differ in their data only. -/
theorem control_run (c : Chan) (t : Nat) :
    control ((run step powerUp inp t).adc.get c) = control (run step powerUp inp t).adc.ps1 := by
  change _ = control ((run step powerUp inp t).adc.get .ps1)
  rw [reader_run, reader_run]
  induction t with
  | zero => rfl
  | succ t ih =>
    rw [run_succ, run_succ, control_step, control_step (run _ _ (line inp .ps1) t), ih]
    rfl

end Runs

section Law

variable (inp : Nat → Ports)

/-- A conversion leaves `IDLE` at clock `a`. -/
def Leaves (a : Nat) : Prop := AdcLtc2376.Leaves AdcLtc2376.powerUp (line inp .ps1) a

/-- The resolution stays, and no reset comes, while the conversion is under way. -/
def Undisturbed (a : Nat) : Prop := AdcLtc2376.Undisturbed AdcLtc2376.powerUp (line inp .ps1) a

/-- A conversion ends at clock `b`. -/
def Ends (b : Nat) : Prop := AdcLtc2376.Ending (run step powerUp inp b).adc.ps1 (line inp .ps1 b)

/-- The bits that a channel's reader has read from clock `a` on, before clock `b`. -/
def received (c : Chan) (a b : Nat) : List Bool :=
  AdcLtc2376.received AdcLtc2376.powerUp (line inp c) a b

/-- The word of these bits that is a channel's first or second current. -/
def sample (a b : Nat) (c : Chan) (k : DcctReading) : BitVec 20 :=
  let width := AdcLtc2376.wordBits (inp a).dcctParams.numbitsSel
  match k with
  | .dcct0 => (BitVec.ofBoolListBE ((received inp c a b).drop width)).signExtend 20
  | .dcct1 => (BitVec.ofBoolListBE ((received inp c a b).take width)).signExtend 20

/-- The reading that the conversion ended at clock `b` gives, by the calibration of the two
correction clocks after it. -/
def corrected (a b : Nat) (c : Chan) (k : DcctReading) : BitVec 20 :=
  fixedMul (sample inp a b c k - k.offset ((inp (b + 2)).dcctParams.ps.get c))
    (k.gain ((inp (b + 3)).dcctParams.ps.get c)) 4

/-- The conversion that left `IDLE` at clock `a` and ended at clock `b` is corrected. Until the next
one is, every channel's readings are the corrected words of this one, and one pulse of `done` tells
so. -/
structure Measures (a b : Nat) : Prop where
  reading : ∀ c k t, b + 4 ≤ t → (∀ u, b < u → u + 4 ≤ t → ¬Ends inp u) →
    k.out ((dcctOut (run step powerUp inp t)).get c) = corrected inp a b c k
  done : ∀ t, b + 1 < t → t ≤ b + 11 →
    ((run step powerUp inp t).gainoff.ps1.done = true ↔ t = b + 11)

end Law

section Result

variable {inp : Nat → Ports} {a b : Nat}

theorem state_same (inp : Nat → Ports) (c : Chan) (t : Nat) :
    (run AdcLtc2376.step AdcLtc2376.powerUp (line inp c) t).state =
      (run AdcLtc2376.step AdcLtc2376.powerUp (line inp .ps1) t).state := by
  have same := congrArg AdcLtc2376.Regs.state (control_run inp c t)
  rw [← reader_run, ← reader_run]
  exact same

/-- All four channels' conversions are published at the same clock. -/
theorem publishes_all {r : Nat} (reset : (inp r).reset = true) (later : r < a)
    (leaves : Leaves inp a) (undisturbed : Undisturbed inp a) (c : Chan) :
    AdcLtc2376.Publishes AdcLtc2376.powerUp (line inp c) a
      (AdcLtc2376.lastClock a (inp a).dcctParams.numbitsSel) := by
  have under : ∀ t, AdcLtc2376.UnderWay AdcLtc2376.powerUp (line inp c) a t →
      AdcLtc2376.UnderWay AdcLtc2376.powerUp (line inp .ps1) a t := by
    intro t way u low high
    rw [← state_same inp c]
    exact way u low high
  obtain ⟨idle, left⟩ := leaves
  refine AdcLtc2376.publishes (AdcLtc2376.sound_run reset later) ⟨?_, ?_⟩ fun t le way => ?_
  · rw [state_same]
    exact idle
  · rw [state_same]
    exact left
  · exact undisturbed t le (under t way)

theorem quiet_run (inp : Nat → Ports) (t : Nat) :
    AdcLtc2376.Quiet (run step powerUp inp t).adc.ps1 := by
  change AdcLtc2376.Quiet ((run step powerUp inp t).adc.get .ps1)
  rw [reader_run]
  induction t with
  | zero => exact fun busy => absurd rfl busy
  | succ t ih => exact ih.next

theorem sound_run {r t : Nat} (reset : (inp r).reset = true) (later : r < t) :
    AdcLtc2376.Sound (run step powerUp inp t).adc.ps1 := by
  change AdcLtc2376.Sound ((run step powerUp inp t).adc.get .ps1)
  rw [reader_run]
  exact AdcLtc2376.sound_run reset later

theorem idle_reset {r : Nat} (reset : (inp r).reset = true) :
    (run step powerUp inp (r + 1)).adc.ps1.state = .idle := by
  change ((run step powerUp inp (r + 1)).adc.get .ps1).state = .idle
  rw [reader_run]
  exact (AdcLtc2376.reset_step _ (i := line inp .ps1 r) reset).2.2.1

/-- After a reset every correction is ready for a request when a conversion ends. -/
theorem lag_run {r : Nat} (reset : (inp r).reset = true) (c : Chan) {t : Nat} (later : r < t) :
    Staged.lag 6#4 (worker ((run step powerUp inp t).gainoff.get c)) ≤
      AdcLtc2376.room (run step powerUp inp t).adc.ps1 := by
  rw [worker_run]
  refine Staged.lag_paced (fun t => AdcLtc2376.room (run step powerUp inp t).adc.ps1)
    (fun paused => Staged.Stage.noConfusion paused) ?_ (fun t after => ?_) later
  · refine Nat.le_trans Staged.lag_le ?_
    simp [AdcLtc2376.room, idle_reset reset]
  · exact AdcLtc2376.room_step (sound_run reset after) (quiet_run inp t)

/-- While no other conversion ends, a correction has seen the request of the last one. -/
theorem seen_since {c : Chan} (seen : (run (Staged.step differences products 6#4)
      (worker DcctGainoffset.powerUp) (correctionInput inp c) (b + 2)).seen = true)
    {v : Nat} (le : b + 2 ≤ v) (alone : ∀ u, b < u → u < v → ¬Ends inp u)
    (ready : (run step powerUp inp v).adc.ps1.dataRdy = true) :
    (run (Staged.step differences products 6#4) (worker DcctGainoffset.powerUp)
      (correctionInput inp c) v).seen = true := by
  induction v, le using Nat.le_induction with
  | base => exact seen
  | succ v low ih =>
    obtain before | ending := AdcLtc2376.ending_of_dataRdy (i := line inp .ps1 v) ready
    · have since := ih (fun u after early => alone u after (Nat.lt_succ_of_lt early)) before
      exact Staged.seen_next since before
    · exact absurd ending (alone v (by omega) (Nat.lt_succ_self v))

/-- The words that a correction finds two clocks after the end of a conversion. -/
theorem words_found (publishes : ∀ c, AdcLtc2376.Publishes AdcLtc2376.powerUp (line inp c) a b)
    (running : (inp (b + 1)).reset = false) (c : Chan) (k : DcctReading) :
    k.raw (gainoffAdc (run step powerUp inp (b + 2)) (inp (b + 2)) c) = sample inp a b c k := by
  have idle : ((run step powerUp inp (b + 1)).adc.get c).state = .idle := by
    rw [reader_run]
    exact (publishes c).ends.2.2
  have same := AdcLtc2376.idle_words (i := line inp c (b + 1)) running idle
  have next : (run step powerUp inp (b + 2)).adc.get c =
      AdcLtc2376.step ((run step powerUp inp (b + 1)).adc.get c) (line inp c (b + 1)) :=
    PerChan.get_of _ c
  rw [← next, reader_run inp c (b + 1)] at same
  cases k with
  | dcct0 => exact same.1.trans (publishes c).dcct1
  | dcct1 => exact same.2.trans (publishes c).dcct2

/-- Every correction takes the words of a conversion that ends. -/
theorem served_end {r : Nat} (reset : (inp r).reset = true) (later : r < b) (ends : Ends inp b)
    (calm : ∀ t, b < t → t ≤ b + 10 → (inp t).reset = false) (c : Chan) :
    Staged.Served differences products 6#4 (worker DcctGainoffset.powerUp)
      (correctionInput inp c) (b + 1) := by
  obtain ⟨state, -, running⟩ := id ends
  have request : (run step powerUp inp (b + 1)).adc.ps1.dataRdy = true := ends.dataRdy
  refine Staged.served ?_ request fun u low high => calm u low (Nat.le_of_lt_succ high)
  have ready := lag_run reset c later
  rw [AdcLtc2376.room, state, worker_run] at ready
  exact Staged.ready_next (fun paused => Staged.Stage.noConfusion paused)
    (Nat.le_zero.1 ready) running (quiet_run inp b (by rw [state]; simp))

theorem measures {r : Nat} (reset : (inp r).reset = true) (later : r < b)
    (publishes : ∀ c, AdcLtc2376.Publishes AdcLtc2376.powerUp (line inp c) a b)
    (ends : Ends inp b) (calm : ∀ t, b < t → t ≤ b + 10 → (inp t).reset = false) :
    Measures inp a b := by
  have served := served_end reset later ends calm
  constructor
  · intro c k t since alone
    have result := (served c).result t since fun v low high rises => by
      have seen := seen_since (served c).seen (Nat.le_of_lt (Nat.lt_of_succ_lt low))
        (fun u after early => alone u after (by omega)) rises.1
      rw [rises.2] at seen
      cases seen
    rw [← worker_run] at result
    have output : k.out ((dcctOut (run step powerUp inp t)).get c) =
        k.out (worker ((run step powerUp inp t).gainoff.get c)).result :=
      congrArg k.out (PerChan.get_of _ c)
    rw [output, result, corrected,
      ← words_found publishes (calm _ (Nat.lt_succ_self b) (by omega)) c k]
    exact products_out _ _ k
  · intro t after upto
    have done := (served .ps1).done t after upto
    rw [← worker_run] at done
    exact done

/-- A conversion that no reset and no change of the resolution disturbs gives one set of readings
of its own, at the clock that its resolution fixes. -/
theorem Leaves.measured {r : Nat} (leaves : Leaves inp a) (reset : (inp r).reset = true)
    (later : r < a) (undisturbed : Undisturbed inp a) :
    ∃ b, b = a + 320 + 20 * AdcLtc2376.wordBits (inp a).dcctParams.numbitsSel ∧ Ends inp b ∧
      (∀ c, (received inp c a b).length =
        2 * AdcLtc2376.wordBits (inp a).dcctParams.numbitsSel) ∧
      ((∀ t, b < t → t ≤ b + 10 → (inp t).reset = false) → Measures inp a b) := by
  have publishes := publishes_all reset later leaves undisturbed
  obtain ⟨under, done, back⟩ := (publishes .ps1).ends
  have after : a ≤ AdcLtc2376.lastClock a (inp a).dcctParams.numbitsSel := Nat.le_add_right _ _
  have running := (undisturbed _ after under).1
  have ends : Ends inp (AdcLtc2376.lastClock a (inp a).dcctParams.numbitsSel) := by
    change AdcLtc2376.Ending ((run step powerUp inp _).adc.get .ps1) _
    rw [reader_run]
    refine ⟨done, ?_, running⟩
    cases enabled : (run AdcLtc2376.step AdcLtc2376.powerUp (line inp .ps1)
        (AdcLtc2376.lastClock a (inp a).dcctParams.numbitsSel)).clkEnb with
    | true => rfl
    | false =>
      have stays := (AdcLtc2376.disabled_step 0 running enabled).1
      rw [← run_succ AdcLtc2376.step, back, done] at stays
      cases stays
  refine ⟨_, ?_, ends, fun c => (publishes c).count,
    measures reset (Nat.lt_of_lt_of_le later after) publishes ends⟩
  rw [AdcLtc2376.lastClock, AdcLtc2376.sampleClock]
  omega

/-- A conversion under way goes back to its start. -/
theorem left {t : Nat} (busy : (run step powerUp inp t).adc.ps1.state ≠ .idle) :
    ∃ a, a < t ∧ Leaves inp a ∧
      AdcLtc2376.UnderWay AdcLtc2376.powerUp (line inp .ps1) a t := by
  have same : ∀ t, (run step powerUp inp t).adc.ps1.state =
      (run AdcLtc2376.step AdcLtc2376.powerUp (line inp .ps1) t).state := by
    intro t
    rw [← reader_run]
    rfl
  induction t with
  | zero => exact absurd rfl busy
  | succ t ih =>
    by_cases idle : (run step powerUp inp t).adc.ps1.state = .idle
    · rw [same] at busy idle
      refine ⟨t, Nat.lt_succ_self t, ⟨idle, busy⟩, fun u low high => ?_⟩
      rw [Nat.le_antisymm high low]
      exact busy
    · obtain ⟨a, before, leaves, under⟩ := ih idle
      refine ⟨a, Nat.lt_succ_of_lt before, leaves, fun u low high => ?_⟩
      obtain early | last := Nat.lt_or_eq_of_le high
      · exact under u low (Nat.le_of_lt_succ early)
      · rw [last, ← same]
        exact busy

end Result

section Steady

variable {inp : Nat → Ports} {r : Nat} {resolution : Bool} {a b t : Nat}

/-- A last reset at clock `r`, and a resolution that stays after it. -/
structure Steady (inp : Nat → Ports) (r : Nat) (resolution : Bool) : Prop where
  reset : (inp r).reset = true
  running : ∀ t, r < t → (inp t).reset = false
  width : ∀ t, r < t → (inp t).dcctParams.numbitsSel = resolution

theorem Steady.undisturbed (steady : Steady inp r resolution) (later : r < a) :
    Undisturbed inp a :=
  fun t le _ => ⟨steady.running t (by omega),
    (steady.width t (by omega)).trans (steady.width a later).symm⟩

/-- A conversion that ends after the reset began after it, by as much as its resolution fixes. -/
theorem Steady.begun (steady : Steady inp r resolution) (since : r < b) (ends : Ends inp b) :
    ∃ a, r < a ∧ Leaves inp a ∧ b = a + 320 + 20 * AdcLtc2376.wordBits resolution := by
  obtain ⟨a, before, leaves, under⟩ := left (t := b) (by rw [ends.1]; simp)
  have later : r < a := by
    by_contra earlier
    refine under (r + 1) (by omega) since ?_
    rw [← reader_run]
    exact idle_reset steady.reset
  obtain ⟨b', place, ends', -, -⟩ := leaves.measured steady.reset later (steady.undisturbed later)
  rw [steady.width a later] at place
  refine ⟨a, later, leaves, ?_⟩
  have back : ∀ {v}, Ends inp v →
      (run AdcLtc2376.step AdcLtc2376.powerUp (line inp .ps1) (v + 1)).state = .idle := by
    intro v ending
    rw [← reader_run]
    exact ending.back
  have under' := (publishes_all steady.reset later leaves (steady.undisturbed later) .ps1).ends.1
  have same : AdcLtc2376.lastClock a (inp a).dcctParams.numbitsSel = b' := by
    rw [place, steady.width a later, AdcLtc2376.lastClock, AdcLtc2376.sampleClock]
    omega
  rw [same] at under'
  obtain early | here | late := Nat.lt_trichotomy b b'
  · exact absurd (back ends) (under' (b + 1) (Nat.lt_succ_of_lt before) early)
  · exact here.trans place
  · exact absurd (back ends') (under (b' + 1) (by omega) late)

end Steady

end DcctAdcModule

end PscDigpid.Hdl
