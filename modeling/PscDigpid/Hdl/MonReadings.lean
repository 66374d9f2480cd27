/- Unit: PscDigpid/Hdl/MonReadings
   layer: result
   source: src/hw/hdl/adc_8ch_module.vhd, src/hw/hdl/adc_ads8568_intf.vhd,
     src/hw/hdl/mon_gainoffset.vhd
   digest: The three monitor converters stay in step, and each start gives one set of readings. -/

import PscDigpid.Hdl.Adc8chModule
import PscDigpid.Hdl.AdcAds8568Reads

set_option autoImplicit false
set_option relaxedAutoImplicit false

namespace PscDigpid.Hdl

open PscDigpid.Sync

namespace AdcAds8568Intf

variable {dataBits : Nat} {spiClkDiv : Nat} {s : Regs dataBits} {inp : Nat → Ports} {a b : Nat}

/-- The clocks from an accepted start to the end of its conversion are bounded by what is left at
its first clock. -/
theorem ends_within (generics : Generics dataBits spiClkDiv)
    (sound : ∀ t, a ≤ t → Sound spiClkDiv (run (step spiClkDiv) s inp t)) (after : a < b)
    (under : UnderWay spiClkDiv s inp a b)
    (undisturbed : ∀ t, a < t → UnderWay spiClkDiv s inp a t → (inp t).reset = false) :
    b ≤ a + 1 + remaining spiClkDiv (run (step spiClkDiv) s inp (a + 1)) := by
  have left : b - (a + 1) + remaining spiClkDiv (run (step spiClkDiv) s inp b) ≤
      remaining spiClkDiv (run (step spiClkDiv) s inp (a + 1)) := by
    refine stretch_induction (P := fun t => t - (a + 1) +
      remaining spiClkDiv (run (step spiClkDiv) s inp t) ≤ _) after ?_ ?_
    · rw [Nat.sub_self, Nat.zero_add]
    · intro t low high before
      have part : UnderWay spiClkDiv s inp a t := fun u from_a upto => under u from_a (by omega)
      have running := undisturbed t low part
      have busy := under.unfinished (Nat.le_of_lt low) high running
      have closer := (busy_step (i := inp t) generics running (part t low (Nat.le_refl t)) busy
        (sound t (Nat.le_of_lt low)).counting).closer
      rw [← run_succ (step spiClkDiv) s inp t] at closer
      omega
  omega

/-- A clock brings the end of a conversion no closer than one clock. -/
theorem remaining_step {s : Regs dataBits} {i : Ports} (generics : Generics dataBits spiClkDiv)
    (running : i.reset = false) (counting : Counting spiClkDiv s) :
    remaining spiClkDiv s ≤ remaining spiClkDiv (step spiClkDiv s i) + 1 := by
  obtain ⟨two, wide, one, slow⟩ := generics
  cases state : s.presentState with
  | idle | done =>
    simp only [remaining, state]
    exact Nat.zero_le _
  | setCnv =>
    simp only [Counting, state] at counting
    by_cases last : s.cnvCount = cnvPulse
    · have full : s.cnvCount.toNat = 12 := congrArg BitVec.toNat last
      simp only [remaining, step, running, state, if_pos last, Bool.false_eq_true, if_false]
      change _ ≤ 401 - 0 + 7 + _ + 1
      omega
    · have up := count_up (x := s.cnvCount) (by omega)
      simp only [remaining, step, running, state, if_neg last, Bool.false_eq_true, if_false, up]
      omega
  | waitForNotBusy =>
    simp only [Counting, state] at counting
    by_cases last : s.cnvCount = cnvWidth
    · have full : s.cnvCount.toNat = 400 := congrArg BitVec.toNat last
      simp only [remaining, step, running, state, if_pos last, Bool.false_eq_true, if_false]
      change _ ≤ 7 - 0 + _ + 1
      omega
    · have up := count_up (x := s.cnvCount) (by omega)
      simp only [remaining, step, running, state, if_neg last, Bool.false_eq_true, if_false, up]
      omega
  | waitForMsbValid =>
    simp only [Counting, state] at counting
    by_cases last : s.cnvCount = waitMsb
    · have full : s.cnvCount.toNat = 6 := congrArg BitVec.toNat last
      simp only [remaining, step, running, state, if_pos last, Bool.false_eq_true, if_false,
        counting.2.1]
      change _ ≤ spiClkDiv - 0 + _ + 1
      omega
    · have up := count_up (x := s.cnvCount) (by omega)
      simp only [remaining, step, running, state, if_neg last, Bool.false_eq_true, if_false, up]
      omega
  | clockMsb =>
    simp only [Counting, state] at counting
    by_cases last : Divided spiClkDiv s
    · have full : s.clkCount.toNat + 1 = spiClkDiv := last
      simp only [remaining, step, running, state, if_pos last, Bool.false_eq_true, if_false,
        counting.2.2]
      change _ ≤ clocksFrom dataBits spiClkDiv 0 - 0 + 1
      omega
    · have up := count_up (x := s.clkCount) (by omega)
      simp only [remaining, step, running, state, if_neg last, Bool.false_eq_true, if_false, up]
      omega
  | sclkHi =>
    simp only [Counting, state] at counting
    by_cases last : Divided spiClkDiv s
    · have up := count_up (x := s.bitCount) (by omega)
      have full : s.clkCount.toNat + 1 = spiClkDiv := last
      simp only [remaining, step, running, state, if_pos last, Bool.false_eq_true, if_false, up]
      split_ifs with whole
      · rw [clocksFrom_last whole.symm]
        omega
      · have rest := @clocksFrom_succ dataBits spiClkDiv s.bitCount.toNat (by omega)
        change _ ≤ spiClkDiv - 0 + _ + 1
        omega
    · have up := count_up (x := s.clkCount) (by omega)
      simp only [remaining, step, running, state, if_neg last, Bool.false_eq_true, if_false, up]
      omega
  | sclkLo =>
    simp only [Counting, state] at counting
    by_cases whole : s.bitCount.toNat + 1 = dataBits
    · simp only [remaining, state, if_pos whole]
      exact Nat.le_add_left 1 _
    · by_cases last : Divided spiClkDiv s
      · have full : s.clkCount.toNat + 1 = spiClkDiv := last
        simp only [remaining, step, running, state, if_neg whole, if_pos last, Bool.false_eq_true,
          if_false]
        change _ ≤ clocksFrom dataBits spiClkDiv _ - 0 + 1
        omega
      · have up := count_up (x := s.clkCount) (by omega)
        simp only [remaining, step, running, state, if_neg whole, if_neg last, Bool.false_eq_true,
          if_false, up]
        omega

/-- How long a conversion takes at least: its pulse may go on from the last count of the one
before. -/
theorem Accepted.undone (accepted : Accepted spiClkDiv s inp a)
    (generics : Generics dataBits spiClkDiv)
    (sound : ∀ t, a ≤ t → Sound spiClkDiv (run (step spiClkDiv) s inp t))
    (calm : ∀ t, a < t → (inp t).reset = false) {t : Nat} (after : a < t)
    (early : t ≤ a + 415 + clocksFrom dataBits spiClkDiv 0) :
    (run (step spiClkDiv) s inp t).presentState ≠ .done := by
  have takes : a + 416 + clocksFrom dataBits spiClkDiv 0 ≤
      t + remaining spiClkDiv (run (step spiClkDiv) s inp t) := by
    refine stretch_induction (P := fun t => a + 416 + clocksFrom dataBits spiClkDiv 0 ≤
      t + remaining spiClkDiv (run (step spiClkDiv) s inp t)) after ?_ ?_
    · have counting := (sound a (Nat.le_refl a)).counting
      obtain ⟨idle, running, start⟩ := accepted
      simp only [Counting, idle] at counting
      have few : (run (step spiClkDiv) s inp a).cnvCount.toNat ≤ 6 := by
        obtain zero | six := counting.1
        · rw [zero]
          exact Nat.zero_le 6
        · rw [six]
          exact Nat.le_refl 6
      rw [run_succ, step_idle running idle, start, remaining]
      simp only [if_true]
      omega
    · intro v low _ before
      have next := @remaining_step _ spiClkDiv _ (inp v) generics (calm v low)
        (sound v (Nat.le_of_lt low)).counting
      rw [← run_succ (step spiClkDiv) s inp v] at next
      omega
  intro done
  rw [remaining, done] at takes
  simp only at takes
  omega

/-- A conversion goes back to `IDLE` once. -/
theorem UnderWay.last_unique (under : UnderWay spiClkDiv s inp a b) (after : a < b)
    (back : (run (step spiClkDiv) s inp (b + 1)).presentState = .idle) {b' : Nat}
    (under' : UnderWay spiClkDiv s inp a b') (after' : a < b')
    (back' : (run (step spiClkDiv) s inp (b' + 1)).presentState = .idle) : b = b' := by
  obtain early | same | late := Nat.lt_trichotomy b b'
  · exact absurd back (under' (b + 1) (Nat.lt_succ_of_lt after) early)
  · exact same
  · exact absurd back' (under (b' + 1) (Nat.lt_succ_of_lt after') late)

/-- The first clock of a conversion. -/
theorem Accepted.remaining_le (accepted : Accepted spiClkDiv s inp a) :
    remaining spiClkDiv (run (step spiClkDiv) s inp (a + 1)) ≤
      421 + (spiClkDiv + clocksFrom dataBits spiClkDiv 0) := by
  obtain ⟨idle, running, start⟩ := accepted
  rw [run_succ, step_idle running idle, start, remaining]
  simp only [if_true]
  omega

end AdcAds8568Intf

namespace Adc8chModule

open MonGainoffset (fixedMul)

/-- A reader without the bits that it has read. -/
def control (r : AdcAds8568Intf.Regs 128) : AdcAds8568Intf.Regs 128 :=
  { r with shiftReg := 0, dataOut := 0 }

/-- Readers and corrections that differ in their data only. -/
structure InStep (s : Regs) : Prop where
  readers : ∀ j, control (s.adc j) = control s.adc1
  corrections : ∀ c, (s.gainoff.get c).state = s.gainoff.ps1.state ∧
    (s.gainoff.get c).convDoneLast = s.gainoff.ps1.convDoneLast ∧
    (s.gainoff.get c).multdlycnt = s.gainoff.ps1.multdlycnt ∧
    (s.gainoff.get c).done = s.gainoff.ps1.done

section Step

/-- The data line of a reader goes into its data only. -/
theorem control_step (r : AdcAds8568Intf.Regs 128) (i : AdcAds8568Intf.Ports) :
    control (AdcAds8568Intf.step spiClkDiv r i) =
      control (AdcAds8568Intf.step spiClkDiv (control r) { i with sdi := false }) := by
  cases reset : i.reset with
  | true => simp only [AdcAds8568Intf.step, control, reset, if_true]
  | false =>
    cases state : r.presentState with
    | idle | done =>
      simp only [AdcAds8568Intf.step, control, reset, state, Bool.false_eq_true, if_false]
    | setCnv | waitForNotBusy | waitForMsbValid =>
      simp only [AdcAds8568Intf.step, control, reset, state, Bool.false_eq_true, if_false]
      split_ifs
      all_goals rfl
    | clockMsb | sclkHi | sclkLo =>
      simp only [AdcAds8568Intf.step, control, reset, state, Bool.false_eq_true, if_false,
        AdcAds8568Intf.Divided]
      split_ifs
      all_goals rfl

/-- What a correction reads of its channel goes into its data only. -/
theorem correction_step {g g' : MonGainoffset.Regs} {i i' : MonGainoffset.Ports}
    (reset : i.reset = i'.reset) (convDone : i.convDone = i'.convDone)
    (same : g.state = g'.state ∧ g.convDoneLast = g'.convDoneLast ∧
      g.multdlycnt = g'.multdlycnt ∧ g.done = g'.done) :
    (MonGainoffset.step g i).state = (MonGainoffset.step g' i').state ∧
      (MonGainoffset.step g i).convDoneLast = (MonGainoffset.step g' i').convDoneLast ∧
      (MonGainoffset.step g i).multdlycnt = (MonGainoffset.step g' i').multdlycnt ∧
      (MonGainoffset.step g i).done = (MonGainoffset.step g' i').done := by
  obtain ⟨state, seen, count, done⟩ := same
  simp only [MonGainoffset.step, reset, convDone, state, seen, count, done]
  split
  · exact ⟨rfl, rfl, rfl, rfl⟩
  · split
    · exact ⟨rfl, rfl, rfl, rfl⟩
    · exact ⟨rfl, rfl, rfl, rfl⟩
    · exact ⟨rfl, rfl, rfl, rfl⟩
    · split
      all_goals exact ⟨rfl, rfl, rfl, rfl⟩

theorem InStep.next {s : Regs} (inStep : InStep s) (i : Ports) : InStep (step s i) := by
  obtain ⟨readers, corrections⟩ := inStep
  constructor
  · have each : ∀ j, (step s i).adc j =
        AdcAds8568Intf.step spiClkDiv (s.adc j) (readerPorts i j) := by
      intro j
      cases j <;> rfl
    intro j
    change _ = control ((step s i).adc .adc1)
    rw [each, each, control_step, control_step (s.adc .adc1), readers j]
    rfl
  · intro c
    have each : (step s i).gainoff.get c =
        MonGainoffset.step (s.gainoff.get c) (gainoffPorts s i c) := PerChan.get_of _ c
    rw [each]
    exact correction_step rfl rfl (corrections c)

end Step

theorem inStep_run (inp : Nat → Ports) (t : Nat) : InStep (run step powerUp inp t) := by
  induction t with
  | zero =>
    refine ⟨fun j => ?_, fun c => ?_⟩
    · cases j <;> rfl
    · cases c <;> exact ⟨rfl, rfl, rfl, rfl⟩
  | succ t ih => exact ih.next (inp t)

/-- Whatever the inputs and resets: the pins that the first reader alone drives are what the other
two would drive, their words are ready with its word, and the four drivers of `done` agree. -/
theorem readers_in_step (inp : Nat → Ports) (t : Nat) :
    (∀ j, ((run step powerUp inp t).adc j).cnv = adc8cConv123 (run step powerUp inp t) ∧
      ((run step powerUp inp t).adc j).nFs = adc8cFs123 (run step powerUp inp t) ∧
      ((run step powerUp inp t).adc j).sclk = adc8cSck123 (run step powerUp inp t) ∧
      ((run step powerUp inp t).adc j).dataRdy = (run step powerUp inp t).adc1.dataRdy) ∧
      ∀ c c', done (run step powerUp inp t) c = done (run step powerUp inp t) c' := by
  obtain ⟨readers, corrections⟩ := inStep_run inp t
  constructor
  · intro j
    have cnv := congrArg AdcAds8568Intf.Regs.cnv (readers j)
    have nFs := congrArg AdcAds8568Intf.Regs.nFs (readers j)
    have sclk := congrArg AdcAds8568Intf.Regs.sclk (readers j)
    have dataRdy := congrArg AdcAds8568Intf.Regs.dataRdy (readers j)
    exact ⟨cnv, nFs, sclk, dataRdy⟩
  · intro c c'
    obtain ⟨-, -, -, here⟩ := corrections c
    obtain ⟨-, -, -, there⟩ := corrections c'
    exact here.trans there.symm

section Runs

variable (inp : Nat → Ports)

/-- What a converter's reader sees at clock `t`. -/
def line (j : Adc) (t : Nat) : AdcAds8568Intf.Ports := readerPorts (inp t) j

/-- What a channel's correction sees at clock `t`. -/
def correctionInput (c : Chan) (t : Nat) : Staged.Input MonGainoffset.Ports :=
  workerInput (gainoffPorts (run step powerUp inp t) (inp t) c)

theorem reader_run (j : Adc) (t : Nat) :
    (run step powerUp inp t).adc j =
      run (AdcAds8568Intf.step spiClkDiv) (AdcAds8568Intf.powerUp 128) (line inp j) t := by
  have start : powerUp.adc j = AdcAds8568Intf.powerUp 128 := by cases j <;> rfl
  rw [← start]
  refine run_project (fun s : Regs => s.adc j) (fun _ i => readerPorts i j) (fun t => ?_) t
  cases j <;> rfl

theorem worker_run (c : Chan) (t : Nat) :
    worker ((run step powerUp inp t).gainoff.get c) =
      run (Staged.step differences products 6#4) (worker MonGainoffset.powerUp)
        (correctionInput inp c) t := by
  have start : powerUp.gainoff.get c = MonGainoffset.powerUp := PerChan.get_of _ c
  rw [← start]
  refine run_project (fun s : Regs => worker (s.gainoff.get c))
    (fun s i => workerInput (gainoffPorts s i c)) (fun t => ?_) t
  rw [← worker_step]
  exact congrArg worker (PerChan.get_of _ c)

/-- How far a correction may be from its next request, in each state of the first reader. -/
def room (r : AdcAds8568Intf.Regs 128) : Nat :=
  match r.presentState with
  | .idle | .setCnv => 10
  | .waitForNotBusy => 10 - r.cnvCount.toNat
  | _ => 0

end Runs

/-- The pulse makes room for a whole correction, and the wait after it is longer than that. -/
theorem room_step {r : AdcAds8568Intf.Regs 128} {i : AdcAds8568Intf.Ports}
    (sound : AdcAds8568Intf.Sound spiClkDiv r) :
    10 ≤ room (AdcAds8568Intf.step spiClkDiv r i) ∨
      i.reset = false ∧ r.dataRdy = false ∧
        room r ≤ room (AdcAds8568Intf.step spiClkDiv r i) + 1 := by
  cases reset : i.reset with
  | true =>
    left
    rw [AdcAds8568Intf.step, if_pos reset]
    exact Nat.le_refl 10
  | false =>
    cases state : r.presentState with
    | idle =>
      left
      rw [AdcAds8568Intf.step_idle reset state]
      cases i.start with
      | true | false => exact Nat.le_refl 10
    | done =>
      left
      rw [AdcAds8568Intf.step_done reset state]
      exact Nat.le_refl 10
    | setCnv =>
      left
      simp only [AdcAds8568Intf.step, reset, state, Bool.false_eq_true, if_false]
      split_ifs
      · exact Nat.le_refl 10
      · simp only [room, Nat.le_refl]
    | waitForNotBusy =>
      right
      refine ⟨rfl, sound.ready (by simp [state]), ?_⟩
      simp only [AdcAds8568Intf.step, reset, state, Bool.false_eq_true, if_false]
      split_ifs with last
      · have full : r.cnvCount.toNat = 400 := congrArg BitVec.toNat last
        simp only [room, state]
        omega
      · have counting := sound.counting
        simp only [AdcAds8568Intf.Counting, state] at counting
        have up := AdcAds8568Intf.count_up (x := r.cnvCount) (by omega)
        simp only [room, state, up]
        omega
    | waitForMsbValid | clockMsb | sclkHi | sclkLo =>
      right
      refine ⟨rfl, sound.ready (by simp [state]), ?_⟩
      simp only [room, state]
      exact Nat.zero_le _

theorem generics : AdcAds8568Intf.Generics 128 spiClkDiv :=
  ⟨by decide, by decide, by decide, by decide⟩

section Course

variable {inp : Nat → Ports}

theorem reader_sound (inp : Nat → Ports) (j : Adc) (t : Nat) :
    AdcAds8568Intf.Sound spiClkDiv
      (run (AdcAds8568Intf.step spiClkDiv) (AdcAds8568Intf.powerUp 128) (line inp j) t) := by
  induction t with
  | zero => exact AdcAds8568Intf.sound_powerUp
  | succ t ih => exact ih.next generics

/-- Every correction is ready for a request when a conversion ends. -/
theorem lag_run (inp : Nat → Ports) (c : Chan) (t : Nat) :
    Staged.lag 6#4 (worker ((run step powerUp inp t).gainoff.get c)) ≤
      room (run step powerUp inp t).adc1 := by
  rw [worker_run]
  refine Staged.lag_paced (fun t => room (run step powerUp inp t).adc1) (a := 0)
    (fun paused => Staged.Stage.noConfusion paused) (Nat.zero_le _) (fun t _ => ?_) (Nat.zero_le t)
  have sound := reader_sound inp .adc1 t
  rw [← reader_run] at sound
  exact room_step (i := line inp .adc1 t) sound

/-- The readers are in the same state at every clock. -/
theorem presentState_same (inp : Nat → Ports) (j : Adc) (t : Nat) :
    (run (AdcAds8568Intf.step spiClkDiv) (AdcAds8568Intf.powerUp 128) (line inp j) t).presentState =
      (run step powerUp inp t).adc1.presentState := by
  have same := congrArg AdcAds8568Intf.Regs.presentState ((inStep_run inp t).readers j)
  rw [← reader_run]
  exact same

end Course

section Law

variable (inp : Nat → Ports)

/-- The readers accept a start at clock `a`. -/
def Starts (a : Nat) : Prop :=
  AdcAds8568Intf.Accepted spiClkDiv (AdcAds8568Intf.powerUp 128) (line inp .adc1) a

/-- The conversion started at clock `a` is not back in `IDLE` yet at clock `t`. -/
def UnderWay (a t : Nat) : Prop :=
  AdcAds8568Intf.UnderWay spiClkDiv (AdcAds8568Intf.powerUp 128) (line inp .adc1) a t

/-- A conversion ends at clock `b`. -/
def Ends (b : Nat) : Prop :=
  (run step powerUp inp b).adc1.presentState = .done ∧ (inp b).reset = false

/-- The bits that a converter's reader has sampled from clock `a` on, before clock `b`. -/
def received (j : Adc) (a b : Nat) : List Bool :=
  AdcAds8568Intf.received spiClkDiv (AdcAds8568Intf.powerUp 128) (line inp j) a b

/-- The sixteen of these bits that are one input's. -/
def sample (a b : Nat) (p : Adc × Fin 8) : BitVec 16 :=
  (BitVec.ofBoolListBE (((received inp p.1 a b).drop (16 * p.2)).take 16)).setWidth 16

/-- The reading that the conversion ended at clock `b` gives, by the mapping of the clock after it
and the calibration of the two after that; a reading without input is a sample of zero. -/
def corrected (a b : Nat) (c : Chan) (k : MonReading) : BitVec 16 :=
  fixedMul ((input (inp (b + 1)).monParams.numchanSel c k).elim 0 (sample inp a b) -
    ((inp (b + 2)).monParams.ps.get c).offset.get k)
    (((inp (b + 3)).monParams.ps.get c).gain.get k) 4

/-- The conversion started at clock `a` and ended at clock `b` is corrected. Until the next one is,
every channel's readings are the corrected samples of this one, all of them at once, and one pulse
of `done` tells so. -/
structure Measures (a b : Nat) : Prop where
  reading : ∀ c k t, b + 4 ≤ t → (∀ u, b < u → u + 4 ≤ t → ¬Ends inp u) →
    ((monAdcs (run step powerUp inp t)).get c).get k = corrected inp a b c k
  done : ∀ c t, b + 1 < t → t ≤ b + 11 → (done (run step powerUp inp t) c = true ↔ t = b + 11)

end Law

section Result

variable {inp : Nat → Ports} {a b : Nat}

theorem Ends.back (ends : Ends inp b) :
    (run (AdcAds8568Intf.step spiClkDiv) (AdcAds8568Intf.powerUp 128) (line inp .adc1)
      (b + 1)).presentState = .idle := by
  rw [presentState_same]
  change (AdcAds8568Intf.step spiClkDiv _ (line inp .adc1 b)).presentState = _
  rw [AdcAds8568Intf.step_done ends.2 ends.1]

/-- Every reader's conversion ends at the same clock. -/
theorem converts_all (starts : Starts inp a)
    (calm : ∀ t, a < t → UnderWay inp a t → (inp t).reset = false) :
    ∃ b, a < b ∧ ∀ j, AdcAds8568Intf.Converts spiClkDiv (AdcAds8568Intf.powerUp 128)
      (line inp j) a b := by
  have under : ∀ j t, AdcAds8568Intf.UnderWay spiClkDiv (AdcAds8568Intf.powerUp 128)
      (line inp j) a t ↔ UnderWay inp a t := by
    intro j t
    refine forall₃_congr fun u _ _ => ?_
    rw [presentState_same, presentState_same]
  have each : ∀ j, ∃ b, a < b ∧ AdcAds8568Intf.Converts spiClkDiv (AdcAds8568Intf.powerUp 128)
      (line inp j) a b := by
    intro j
    obtain ⟨idle, running, start⟩ := starts
    rw [presentState_same] at idle
    refine AdcAds8568Intf.Accepted.converts generics (fun t _ => reader_sound inp j t)
      ⟨by rw [presentState_same]; exact idle, running, start⟩ fun t after underWay => ?_
    exact calm t after ((under j t).1 underWay)
  obtain ⟨b, after, first⟩ := each .adc1
  refine ⟨b, after, fun j => ?_⟩
  obtain ⟨b', after', other⟩ := each j
  have back := other.ends.2.2
  rw [presentState_same, ← presentState_same inp .adc1] at back
  have under' := (under j b').1 other.ends.1
  rw [first.ends.1.last_unique after first.ends.2.2 under' after' back]
  exact other

/-- The samples that the mapping takes as the conversion has ended. -/
theorem mapped (converts : ∀ j, AdcAds8568Intf.Converts spiClkDiv (AdcAds8568Intf.powerUp 128)
      (line inp j) a b) (c : Chan) (k : MonReading) :
    ((run step powerUp inp (b + 2)).monAdcsIn.get c).get k =
      (input (inp (b + 1)).monParams.numchanSel c k).elim 0 (sample inp a b) := by
  have data : ∀ j, ((run step powerUp inp (b + 1)).adc j).dataOut =
      (BitVec.ofBoolListBE (received inp j a b)).setWidth 128 := by
    intro j
    rw [reader_run]
    exact (converts j).data
  have words : ∀ p : Adc × Fin 8, word ((run step powerUp inp (b + 1)).adc p.1).dataOut p.2 =
      sample inp a b p := by
    intro p
    have few := p.2.isLt
    have count : (received inp p.1 a b).length = 128 := (converts p.1).count
    have place : 112 - 16 * p.2.val = 128 - 16 * p.2.val - 16 := by omega
    rw [data, word, sample, place]
    exact slice_ofBoolListBE count (by omega)
  change ((mapping _ ((run step powerUp inp (b + 1)).adc .adc1).dataOut
    ((run step powerUp inp (b + 1)).adc .adc2).dataOut
    ((run step powerUp inp (b + 1)).adc .adc3).dataOut).get c).get k = _
  rw [mapping_get _ fun j => ((run step powerUp inp (b + 1)).adc j).dataOut]
  cases input (inp (b + 1)).monParams.numchanSel c k with
  | none => rfl
  | some p => exact words p

theorem dataRdy_iff (t : Nat) :
    (run step powerUp inp (t + 1)).adc1.dataRdy = true ↔ Ends inp t := by
  change ((run step powerUp inp (t + 1)).adc .adc1).dataRdy = true ↔ _
  rw [reader_run, run_succ, (reader_sound inp .adc1 t).dataRdy_iff, presentState_same]
  exact And.comm

theorem measures (converts : ∀ j, AdcAds8568Intf.Converts spiClkDiv
      (AdcAds8568Intf.powerUp 128) (line inp j) a b) (running : (inp b).reset = false)
    (calm : ∀ t, b < t → t ≤ b + 10 → (inp t).reset = false) : Measures inp a b := by
  have ended : Ends inp b := by
    refine ⟨?_, running⟩
    rw [← presentState_same inp .adc1]
    exact (converts .adc1).ends.2.1
  have request := (dataRdy_iff b).2 ended
  have served : ∀ c, Staged.Served differences products 6#4 (worker MonGainoffset.powerUp)
      (correctionInput inp c) (b + 1) := by
    intro c
    refine Staged.served ?_ request fun u low high => calm u low (Nat.le_of_lt_succ high)
    have sound : AdcAds8568Intf.Sound spiClkDiv (run step powerUp inp b).adc1 := by
      have found := reader_sound inp .adc1 b
      rwa [← reader_run] at found
    have ready := lag_run inp c b
    rw [room, ended.1, worker_run] at ready
    exact Staged.ready_next (fun paused => Staged.Stage.noConfusion paused)
      (Nat.le_zero.1 ready) running (sound.ready (by rw [ended.1]; simp))
  constructor
  · intro c k t later alone
    have result := (served c).result t later fun v low high rises => by
      obtain ⟨u, rfl⟩ := Nat.exists_eq_succ_of_ne_zero (Nat.ne_of_gt (Nat.zero_lt_of_lt low))
      exact alone u (by omega) (by omega) ((dataRdy_iff u).1 rises.1)
    rw [← worker_run] at result
    have output : ((monAdcs (run step powerUp inp t)).get c).get k =
        (worker ((run step powerUp inp t).gainoff.get c)).result.get k :=
      congrArg (PerMon.get · k) (PerChan.get_of _ c)
    rw [output, result]
    change (products (differences _) _).get k = _
    rw [products_get, corrected, ← mapped converts c k]
    rfl
  · intro c t after upto
    have done := (served c).done t after upto
    rw [← worker_run] at done
    exact done

/-- A start that no reset disturbs gives one set of readings of its own conversion. -/
theorem Starts.measured (starts : Starts inp a)
    (calm : ∀ t, a < t → UnderWay inp a t → (inp t).reset = false) :
    ∃ b, a < b ∧ b ≤ a + 1693 ∧ Ends inp b ∧ UnderWay inp a b ∧
      (∀ j, (received inp j a b).length = 128) ∧
      ((∀ t, b < t → t ≤ b + 10 → (inp t).reset = false) → Measures inp a b) := by
  obtain ⟨b, after, converts⟩ := converts_all starts calm
  have under : UnderWay inp a b := (converts .adc1).ends.1
  have running := calm b after under
  have bound := AdcAds8568Intf.ends_within generics (fun t _ => reader_sound inp .adc1 t) after
    under calm
  have first := starts.remaining_le
  have total : spiClkDiv + AdcAds8568Intf.clocksFrom 128 spiClkDiv 0 = 1271 := rfl
  refine ⟨b, after, by omega, ⟨?_, running⟩, under, fun j => (converts j).count,
    measures converts running⟩
  rw [← presentState_same inp .adc1]
  exact (converts .adc1).ends.2.1

/-- The conversion of a start does not end within 1600 clocks. -/
theorem Starts.early (starts : Starts inp a) (calm : ∀ t, a < t → (inp t).reset = false) {u : Nat}
    (after : a < u) (upto : u ≤ a + 1600) : ¬Ends inp u := by
  intro ended
  have long : 1600 ≤ 415 + AdcAds8568Intf.clocksFrom 128 spiClkDiv 0 := by decide
  have undone := AdcAds8568Intf.Accepted.undone starts generics
    (fun t _ => reader_sound inp .adc1 t) calm after (by omega)
  rw [presentState_same] at undone
  exact undone ended.1

/-- A conversion under way goes back to a start. -/
theorem started {t : Nat} (busy : (run step powerUp inp t).adc1.presentState ≠ .idle) :
    ∃ a, a < t ∧ Starts inp a ∧ UnderWay inp a t := by
  induction t with
  | zero => exact absurd rfl busy
  | succ t ih =>
    by_cases idle : (run step powerUp inp t).adc1.presentState = .idle
    · have next : (run step powerUp inp (t + 1)).adc1 =
          AdcAds8568Intf.step spiClkDiv (run step powerUp inp t).adc1 (line inp .adc1 t) := rfl
      have accepted : (line inp .adc1 t).reset = false ∧ (line inp .adc1 t).start = true := by
        rw [next] at busy
        cases reset : (line inp .adc1 t).reset with
        | true => simp [AdcAds8568Intf.step, reset] at busy
        | false =>
          rw [AdcAds8568Intf.step_idle reset idle] at busy
          cases start : (line inp .adc1 t).start with
          | true => exact ⟨rfl, rfl⟩
          | false => simp [start] at busy
      refine ⟨t, Nat.lt_succ_self t, ⟨?_, accepted⟩, AdcAds8568Intf.underWay_self.extend ?_⟩
      · rw [presentState_same]
        exact idle
      · rw [presentState_same]
        exact busy
    · obtain ⟨a, before, starts, under⟩ := ih idle
      refine ⟨a, Nat.lt_succ_of_lt before, starts, AdcAds8568Intf.UnderWay.extend under ?_⟩
      rw [presentState_same]
      exact busy

/-- Until the first conversion has been corrected, the readings are the zeros of the power-up. -/
theorem unread {t : Nat} (none : ∀ u, u + 4 ≤ t → ¬Ends inp u) (c : Chan) (k : MonReading) :
    ((monAdcs (run step powerUp inp t)).get c).get k = 0 := by
  have kept : (worker ((run step powerUp inp t).gainoff.get c)).result =
      (worker MonGainoffset.powerUp).result := by
    rw [worker_run]
    refine Staged.result_kept (a := 0) (fun stage => Staged.Stage.noConfusion stage)
      (fun stage => Staged.Stage.noConfusion stage) (Nat.zero_le t) fun u _ before rises => ?_
    cases u with
    | zero => exact Bool.noConfusion rises.1
    | succ u => exact none u (by omega) ((dataRdy_iff u).1 rises.1)
  have output : ((monAdcs (run step powerUp inp t)).get c).get k =
      (worker ((run step powerUp inp t).gainoff.get c)).result.get k :=
    congrArg (PerMon.get · k) (PerChan.get_of _ c)
  rw [output, kept]
  cases k <;> rfl

instance (inp : Nat → Ports) (b : Nat) : Decidable (Ends inp b) :=
  inferInstanceAs (Decidable (_ ∧ _))

/-- In a run without reset but perhaps at its first clock, all readings at a clock are of one
conversion, the last that has been corrected, or zero while none has been, and every start leads
to such a conversion. -/
theorem readings_of_one_conversion (inp : Nat → Ports)
    (running : ∀ t, 0 < t → (inp t).reset = false) :
    (∀ a, Starts inp a → ∃ b, a < b ∧ b ≤ a + 1693 ∧ Ends inp b ∧ UnderWay inp a b) ∧
      ∀ t, ((∀ u, u + 4 ≤ t → ¬Ends inp u) ∧
          ∀ c k, ((monAdcs (run step powerUp inp t)).get c).get k = 0) ∨
        ∃ a b, Starts inp a ∧ UnderWay inp a b ∧ Ends inp b ∧ b + 4 ≤ t ∧
          (∀ u, b < u → u + 4 ≤ t → ¬Ends inp u) ∧ (∀ j, (received inp j a b).length = 128) ∧
          ∀ c k, ((monAdcs (run step powerUp inp t)).get c).get k = corrected inp a b c k := by
  have calm : ∀ a t, a < t → (inp t).reset = false :=
    fun a t after => running t (Nat.zero_lt_of_lt after)
  constructor
  · intro a starts
    obtain ⟨b, after, bound, ends, under, -, -⟩ := starts.measured fun t later _ => calm a t later
    exact ⟨b, after, bound, ends, under⟩
  · intro t
    obtain ⟨b, early, ends, alone⟩ | never := exists_lastTick (fun u => decide (Ends inp u)) (t - 3)
    · have ended : Ends inp b := of_decide_eq_true ends
      have alone' : ∀ u, b < u → u + 4 ≤ t → ¬Ends inp u :=
        fun u after before => of_decide_eq_false (alone u after (by omega))
      obtain ⟨a, before, starts, under⟩ := started (t := b) (by rw [ended.1]; simp)
      obtain ⟨b', after', -, ends', under', counts, measures⟩ :=
        starts.measured fun t later _ => calm a t later
      have same : b' = b := under'.last_unique after' ends'.back under before ended.back
      subst same
      refine .inr ⟨a, b', starts, under, ended, by omega, alone', counts, fun c k => ?_⟩
      exact (measures fun t later _ => calm b' t later).reading c k t (by omega) alone'
    · have none : ∀ u, u + 4 ≤ t → ¬Ends inp u :=
        fun u before => of_decide_eq_false (never u (by omega))
      exact .inl ⟨none, unread none⟩

/-- Unit gains and no offsets with four channels fitted, and a start at every clock. -/
def unitGain : Ports where
  reset := false
  start := true
  monParams :=
    { numchanSel := true
      ps := PerChan.of fun _ =>
        ⟨⟨0, 0, 0, 0, 0, 0⟩,
          ⟨1048576#24, 1048576#24, 1048576#24, 1048576#24, 1048576#24, 1048576#24⟩⟩ }
  sdo := 0b101#3

/-- The first start is accepted as the device powers up, and 2000 clocks later the readings are
those of a conversion. -/
theorem readings_unit_gain :
    (∃ b, 0 < b ∧ b ≤ 1693 ∧ Ends (fun _ => unitGain) b) ∧
      ∃ a b, Ends (fun _ => unitGain) b ∧ ∀ c k,
        ((monAdcs (run step powerUp (fun _ => unitGain) 2000)).get c).get k =
          corrected (fun _ => unitGain) a b c k := by
  obtain ⟨converts, shown⟩ := readings_of_one_conversion (fun _ => unitGain) fun _ _ => rfl
  obtain ⟨b, after, bound, ends, -⟩ := converts 0 ⟨rfl, rfl, rfl⟩
  rw [Nat.zero_add] at bound
  refine ⟨⟨b, after, bound, ends⟩, ?_⟩
  obtain ⟨none, -⟩ | ⟨a, b', -, -, ended, -, -, -, readings⟩ := shown 2000
  · exact absurd ends (none b (by omega))
  · exact ⟨a, b', ended, readings⟩

end Result

end Adc8chModule

end PscDigpid.Hdl
