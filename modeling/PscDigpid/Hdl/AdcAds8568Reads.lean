/- Unit: PscDigpid/Hdl/AdcAds8568Reads
   layer: result
   source: src/hw/hdl/adc_ads8568_intf.vhd (IDLE to DONE)
   digest: Every accepted start ends in one word of the sampled bits. -/

import PscDigpid.Hdl.AdcAds8568Intf

set_option autoImplicit false
set_option relaxedAutoImplicit false

namespace PscDigpid.Hdl.AdcAds8568Intf

open PscDigpid.Sync

variable {dataBits : Nat}

section Conversion

variable (spiClkDiv : Nat) (s : Regs dataBits) (inp : Nat → Ports)

/-- A start is accepted at this clock edge. -/
def Accepted (t : Nat) : Prop :=
  (run (step spiClkDiv) s inp t).presentState = .idle ∧ (inp t).reset = false ∧
    (inp t).start = true

/-- A bit is sampled at this clock edge. -/
def samples (t : Nat) : Bool :=
  !(inp t).reset && shifts spiClkDiv (run (step spiClkDiv) s inp t)

/-- The bits sampled from clock `a` on, before clock `b`. -/
def received (a b : Nat) : List Bool :=
  (ticksFrom (samples spiClkDiv s inp) a b).map fun t => (inp t).sdi

/-- The conversion started at clock `a` is not back in `IDLE` yet at clock `t`. -/
def UnderWay (a t : Nat) : Prop :=
  ∀ u, a < u → u ≤ t → (run (step spiClkDiv) s inp u).presentState ≠ .idle

/-- The inputs with other starts after clock `a`, up to clock `b`. -/
def restarted (starts : Nat → Bool) (a b t : Nat) : Ports :=
  if a < t ∧ t ≤ b then { inp t with start := starts t } else inp t

/-- After clock `b` the first start is accepted: `IDLE` waits for it. -/
def Listens (b : Nat) : Prop :=
  ∀ t, b < t → (∀ u, b < u → u < t → (inp u).start = false) →
    (run (step spiClkDiv) s inp t).presentState = .idle ∧
      ((run (step spiClkDiv) s inp (t + 1)).presentState = .setCnv ↔ Accepted spiClkDiv s inp t)

/-- The conversion started at clock `a` ends at clock `b`: a pulse of `cnv`, one word of the
sampled bits with the first on top, one pulse of `data_rdy`, and then the next start. -/
structure Converts (a b : Nat) : Prop where
  ends : UnderWay spiClkDiv s inp a b ∧ (run (step spiClkDiv) s inp b).presentState = .done ∧
    (run (step spiClkDiv) s inp (b + 1)).presentState = .idle
  pulse : ∃ n, 2 ≤ n ∧ a + 2 + n ≤ b ∧ ∀ t, a < t → t ≤ b + 1 →
    ((run (step spiClkDiv) s inp t).cnv = true ↔ a + 2 ≤ t ∧ t < a + 2 + n)
  count : (received spiClkDiv s inp a b).length = dataBits
  data : (run (step spiClkDiv) s inp (b + 1)).dataOut =
    (BitVec.ofBoolListBE (received spiClkDiv s inp a b)).setWidth dataBits
  ready : ∀ t, a < t →
    (∀ u, b < u → u < t → (run (step spiClkDiv) s inp u).presentState ≠ .done) →
    ((run (step spiClkDiv) s inp t).dataRdy = true ↔ t = b + 1)
  accepts : Listens spiClkDiv s inp b
  deaf : ∀ starts t, run (step spiClkDiv) s (restarted inp starts a b) t =
    run (step spiClkDiv) s inp t

/-- A reset at clock `b` ends the conversion started at clock `a`, which publishes nothing. -/
structure Aborts (a b : Nat) : Prop where
  ends : UnderWay spiClkDiv s inp a b ∧ (inp b).reset = true
  cleared : (run (step spiClkDiv) s inp (b + 1)).cnv = false ∧
    (run (step spiClkDiv) s inp (b + 1)).dataOut = 0
  silent : ∀ t, a < t → t ≤ b + 1 → (run (step spiClkDiv) s inp t).dataRdy = false
  accepts : Listens spiClkDiv s inp b

end Conversion

/-- What every clock finds. -/
structure Sound (spiClkDiv : Nat) (s : Regs dataBits) : Prop where
  counting : Counting spiClkDiv s
  pulse : s.presentState ≠ .setCnv → s.cnv = false
  ready : s.presentState ≠ .idle → s.dataRdy = false

section Step

variable {spiClkDiv : Nat} {s : Regs dataBits} {i : Ports}

theorem sound_reset (reset : i.reset = true) : Sound spiClkDiv (step spiClkDiv s i) := by
  rw [step, if_pos reset]
  exact ⟨⟨.inl rfl, rfl, rfl⟩, fun _ => rfl, fun busy => absurd rfl busy⟩

theorem sound_powerUp : Sound spiClkDiv (powerUp dataBits) :=
  ⟨⟨.inl rfl, rfl, rfl⟩, fun _ => rfl, fun _ => rfl⟩

/-- A clock in `IDLE` without a reset. -/
theorem step_idle (running : i.reset = false) (idle : s.presentState = .idle) :
    step spiClkDiv s i = { s with
      presentState := if i.start then .setCnv else .idle
      nFs := true
      sclk := true
      dataRdy := false } := by
  simp only [step, running, idle, Bool.false_eq_true, if_false]

theorem step_done (running : i.reset = false) (done : s.presentState = .done) :
    step spiClkDiv s i =
      { s with dataOut := s.shiftReg, dataRdy := true, presentState := .idle } := by
  simp only [step, running, done, Bool.false_eq_true, if_false]

/-- Starts are read in `IDLE` only. -/
theorem step_start (busy : s.presentState ≠ .idle) (x : Bool) :
    step spiClkDiv s { i with start := x } = step spiClkDiv s i := by
  cases state : s.presentState with
  | idle => exact absurd state busy
  | _ => simp only [step, state]

theorem step_shiftReg (running : i.reset = false) :
    (step spiClkDiv s i).shiftReg =
      if shifts spiClkDiv s then s.shiftReg.shiftConcat i.sdi else s.shiftReg := by
  cases state : s.presentState with
  | idle | done => simp only [step, shifts, running, state, Bool.false_eq_true, if_false]
  | _ =>
    simp only [step, shifts, running, state, Bool.false_eq_true, if_false, beq_iff_eq,
      decide_eq_true_eq]
    split_ifs
    all_goals rfl

/-- The pulse of `cnv` ends as its state does. -/
theorem step_cnv (running : i.reset = false)
    (low : s.presentState ≠ .setCnv → s.cnv = false)
    (left : (step spiClkDiv s i).presentState ≠ .setCnv) : (step spiClkDiv s i).cnv = false := by
  cases state : s.presentState with
  | setCnv =>
    simp only [step, running, state, Bool.false_eq_true, if_false] at left ⊢
    split_ifs at left ⊢ with last
    · rfl
    · exact absurd rfl left
  | idle | done =>
    simp only [step, running, state, Bool.false_eq_true, if_false]
    exact low (by simp [state])
  | _ =>
    simp only [step, running, state, Bool.false_eq_true, if_false]
    split_ifs
    all_goals exact low (by simp [state])

/-- A clock of the pulse that is not its last. -/
theorem step_counted (running : i.reset = false) (state : s.presentState = .setCnv)
    (more : s.cnvCount ≠ cnvPulse) :
    step spiClkDiv s i = { s with cnv := true, cnvCount := s.cnvCount + 1 } := by
  simp only [step, running, state, Bool.false_eq_true, if_false, if_neg more]

/-- No other state goes to the pulse than `IDLE`. -/
theorem step_over (running : i.reset = false) (busy : s.presentState ≠ .idle)
    (last : s.presentState = .setCnv → s.cnvCount = cnvPulse) :
    (step spiClkDiv s i).presentState ≠ .setCnv := by
  cases state : s.presentState with
  | idle => exact absurd state busy
  | done => simp [step_done running state]
  | setCnv =>
    simp only [step, running, state, Bool.false_eq_true, if_false, if_pos (last state)]
    simp
  | _ =>
    simp only [step, running, state, Bool.false_eq_true, if_false]
    split_ifs
    all_goals simp

theorem step_dataRdy (running : i.reset = false) (busy : s.presentState ≠ .idle)
    (unfinished : s.presentState ≠ .done) : (step spiClkDiv s i).dataRdy = s.dataRdy := by
  cases state : s.presentState with
  | idle => exact absurd state busy
  | done => exact absurd state unfinished
  | _ =>
    simp only [step, running, state, Bool.false_eq_true, if_false]
    split_ifs
    all_goals rfl

theorem Sound.next (generics : Generics dataBits spiClkDiv) (sound : Sound spiClkDiv s) :
    Sound spiClkDiv (step spiClkDiv s i) := by
  obtain ⟨counting, pulse, ready⟩ := sound
  cases reset : i.reset with
  | true => exact sound_reset reset
  | false =>
    refine ⟨?_, step_cnv reset pulse, ?_⟩
    · cases state : s.presentState with
      | idle =>
        simp only [Counting, state] at counting
        obtain ⟨left, clk, bit⟩ := counting
        rw [step_idle reset state]
        cases i.start with
        | false => exact ⟨left, clk, bit⟩
        | true =>
          refine ⟨?_, clk, bit⟩
          obtain zero | six := left
          · exact zero ▸ Nat.zero_le 12
          · exact six ▸ Nat.le_of_ble_eq_true rfl
      | done =>
        simp only [Counting, state] at counting
        rw [step_done reset state]
        exact ⟨.inr counting.1, counting.2⟩
      | _ => exact (busy_step generics reset (by simp [state]) (by simp [state]) counting).counting
    · intro busy
      cases state : s.presentState with
      | idle =>
        rw [step_idle reset state]
      | done =>
        rw [step_done reset state] at busy
        exact absurd rfl busy
      | _ =>
        rw [step_dataRdy reset (by simp [state]) (by simp [state])]
        exact ready (by simp [state])

/-- `data_rdy` is up for the clock after `DONE`. -/
theorem Sound.dataRdy_iff (sound : Sound spiClkDiv s) :
    (step spiClkDiv s i).dataRdy = true ↔ i.reset = false ∧ s.presentState = .done := by
  cases reset : i.reset with
  | true => simp [step, reset]
  | false =>
    cases state : s.presentState with
    | idle => simp [step_idle reset state]
    | done => simp [step_done reset state]
    | _ =>
      rw [step_dataRdy reset (by simp [state]) (by simp [state]), sound.ready (by simp [state])]
      simp

end Step

section Course

variable {spiClkDiv : Nat} {s : Regs dataBits} {inp : Nat → Ports} {a b t : Nat}

theorem sound_run (generics : Generics dataBits spiClkDiv)
    (begins : s = powerUp dataBits ∨ (inp 0).reset = true) (later : 0 < t) :
    Sound spiClkDiv (run (step spiClkDiv) s inp t) := by
  induction t with
  | zero => exact absurd later (Nat.lt_irrefl 0)
  | succ t ih =>
    obtain rfl | earlier := Nat.eq_zero_or_pos t
    · obtain rfl | reset := begins
      · exact sound_powerUp.next generics
      · exact sound_reset reset
    · exact (ih earlier).next generics

theorem underWay_self : UnderWay spiClkDiv s inp a a :=
  fun _ after upto => absurd after (Nat.not_lt.2 upto)

theorem UnderWay.extend (under : UnderWay spiClkDiv s inp a t)
    (busy : (run (step spiClkDiv) s inp (t + 1)).presentState ≠ .idle) :
    UnderWay spiClkDiv s inp a (t + 1) := by
  intro u low high
  obtain early | last := Nat.lt_or_eq_of_le high
  · exact under u low (Nat.le_of_lt_succ early)
  · rw [last]
    exact busy

theorem received_succ (le : a ≤ t) :
    received spiClkDiv s inp a (t + 1) = received spiClkDiv s inp a t ++
      if samples spiClkDiv s inp t then [(inp t).sdi] else [] := by
  rw [received, ticksFrom_succ _ le, List.map_append]
  split_ifs
  all_goals rfl

/-- Other starts while a conversion is under way change nothing. -/
theorem run_restarted (under : UnderWay spiClkDiv s inp a b) (starts : Nat → Bool) (t : Nat) :
    run (step spiClkDiv) s (restarted inp starts a b) t = run (step spiClkDiv) s inp t := by
  induction t with
  | zero => rfl
  | succ t ih =>
    rw [run_succ, run_succ, ih, restarted]
    split_ifs with inside
    · exact step_start (under t inside.1 inside.2) _
    · rfl

/-- Without a start `IDLE` stays, also through resets. -/
theorem idle_stays (idle : (run (step spiClkDiv) s inp a).presentState = .idle) (le : a ≤ t)
    (quiet : ∀ u, a ≤ u → u < t → (inp u).start = false) :
    (run (step spiClkDiv) s inp t).presentState = .idle := by
  refine stretch_induction (P := fun t => (run (step spiClkDiv) s inp t).presentState = .idle) le
    idle ?_
  intro u low high before
  rw [run_succ]
  cases reset : (inp u).reset with
  | true => rw [step, if_pos reset]
  | false =>
    rw [step_idle reset before, quiet u low high]
    rfl

/-- Clock `t` of a conversion that found the pulse's count at `first`: the bits so far are in the
shift register, and the pulse is either being counted or over. -/
structure Reaches (spiClkDiv : Nat) (s : Regs dataBits) (inp : Nat → Ports) (a first t : Nat) :
    Prop where
  after : a < t
  under : UnderWay spiClkDiv s inp a t
  read : (received spiClkDiv s inp a t).length = taken (run (step spiClkDiv) s inp t)
  shifted : (run (step spiClkDiv) s inp t).shiftReg =
    (received spiClkDiv s inp a t).foldl BitVec.shiftConcat (run (step spiClkDiv) s inp a).shiftReg
  pulse : if (run (step spiClkDiv) s inp t).presentState = .setCnv then
      (run (step spiClkDiv) s inp t).cnvCount.toNat + (a + 1) = first + t ∧
        ((run (step spiClkDiv) s inp t).cnv = true ↔ a + 2 ≤ t)
    else a + 14 ≤ t + first

/-- The first clock after `IDLE`. -/
theorem Accepted.reaches (accepted : Accepted spiClkDiv s inp a)
    (low : (run (step spiClkDiv) s inp a).cnv = false) :
    Reaches spiClkDiv s inp a (run (step spiClkDiv) s inp a).cnvCount.toNat (a + 1) := by
  obtain ⟨idle, running, start⟩ := accepted
  have next := @step_idle dataBits spiClkDiv _ _ running idle
  rw [start, if_pos rfl, ← run_succ (step spiClkDiv) s inp a] at next
  have unread : received spiClkDiv s inp a (a + 1) = [] := by
    rw [received_succ (Nat.le_refl a), received, ticksFrom_self, samples, shifts, idle,
      Bool.and_false]
    rfl
  refine ⟨Nat.lt_succ_self a, underWay_self.extend (by rw [next]; simp), ?_, ?_, ?_⟩
  · rw [unread, next]
    rfl
  · rw [unread, next]
    rfl
  · rw [next, if_pos rfl]
    refine ⟨rfl, ?_⟩
    rw [low]
    simp

/-- The pulse of `cnv`, clock after clock. -/
theorem Reaches.cnv_iff {first : Nat} (reaches : Reaches spiClkDiv s inp a first t)
    (sound : Sound spiClkDiv (run (step spiClkDiv) s inp t)) :
    (run (step spiClkDiv) s inp t).cnv = true ↔ a + 2 ≤ t ∧ t + first < a + 14 := by
  have pulse := reaches.pulse
  split_ifs at pulse with state
  · have counting := sound.counting
    simp only [Counting, state] at counting
    obtain ⟨few, _, _⟩ := counting
    obtain ⟨count, up⟩ := pulse
    rw [up]
    omega
  · rw [sound.pulse state]
    simp only [Bool.false_eq_true, false_iff]
    omega

/-- A clock of the pulse is counted, and the pulse does not come back. -/
theorem Reaches.pulse_next {first : Nat} (reaches : Reaches spiClkDiv s inp a first t)
    (sound : Sound spiClkDiv (run (step spiClkDiv) s inp t)) (running : (inp t).reset = false) :
    if (run (step spiClkDiv) s inp (t + 1)).presentState = .setCnv then
      (run (step spiClkDiv) s inp (t + 1)).cnvCount.toNat + (a + 1) = first + (t + 1) ∧
        ((run (step spiClkDiv) s inp (t + 1)).cnv = true ↔ a + 2 ≤ t + 1)
    else a + 14 ≤ t + 1 + first := by
  have pulse := reaches.pulse
  have after := reaches.after
  rw [run_succ]
  by_cases counted : (run (step spiClkDiv) s inp t).presentState = .setCnv ∧
      (run (step spiClkDiv) s inp t).cnvCount ≠ cnvPulse
  · obtain ⟨state, more⟩ := counted
    have counting := sound.counting
    simp only [Counting, state] at counting
    have up := count_up (Nat.lt_of_le_of_lt counting.1 (by decide))
    rw [if_pos state] at pulse
    rw [step_counted running state more, if_pos state, up]
    refine ⟨?_, iff_of_true rfl ?_⟩
    · omega
    · omega
  · have last : (run (step spiClkDiv) s inp t).presentState = .setCnv →
        (run (step spiClkDiv) s inp t).cnvCount = cnvPulse :=
      fun state => by_contra fun more => counted ⟨state, more⟩
    rw [if_neg (step_over running (reaches.under t after (Nat.le_refl t)) last)]
    split_ifs at pulse with state
    · have full := congrArg BitVec.toNat (last state)
      have twelve : cnvPulse.toNat = 12 := rfl
      omega
    · omega

theorem Reaches.next {first : Nat} (generics : Generics dataBits spiClkDiv)
    (reaches : Reaches spiClkDiv s inp a first t)
    (sound : Sound spiClkDiv (run (step spiClkDiv) s inp t)) (running : (inp t).reset = false)
    (unfinished : (run (step spiClkDiv) s inp t).presentState ≠ .done) :
    Reaches spiClkDiv s inp a first (t + 1) ∧
      remaining spiClkDiv (run (step spiClkDiv) s inp (t + 1)) <
        remaining spiClkDiv (run (step spiClkDiv) s inp t) := by
  have next := reaches.pulse_next sound running
  obtain ⟨after, under, read, shifted, _⟩ := reaches
  have advances := busy_step (i := inp t) generics running (under t after (Nat.le_refl t))
    unfinished sound.counting
  have sampled : samples spiClkDiv s inp t = shifts spiClkDiv (run (step spiClkDiv) s inp t) := by
    rw [samples, running, Bool.not_false, Bool.true_and]
  refine ⟨⟨Nat.lt_succ_of_lt after, under.extend advances.busy, ?_, ?_, next⟩, advances.closer⟩
  · rw [run_succ, advances.takes, received_succ (Nat.le_of_lt after), List.length_append, read,
      sampled]
    cases shifts spiClkDiv (run (step spiClkDiv) s inp t)
    all_goals rfl
  · rw [run_succ, step_shiftReg running, received_succ (Nat.le_of_lt after), List.foldl_append,
      ← shifted, sampled]
    cases shifts spiClkDiv (run (step spiClkDiv) s inp t)
    all_goals rfl

/-- A conversion under way has not been done. -/
theorem UnderWay.unfinished (under : UnderWay spiClkDiv s inp a b) {u : Nat} (le : a ≤ u)
    (early : u < b) (running : (inp u).reset = false) :
    (run (step spiClkDiv) s inp u).presentState ≠ .done := by
  intro done
  have back : (run (step spiClkDiv) s inp (u + 1)).presentState = .idle := by
    rw [run_succ, step_done running done]
  exact under (u + 1) (Nat.lt_succ_of_le le) early back

theorem listens (idle : (run (step spiClkDiv) s inp (b + 1)).presentState = .idle) :
    Listens spiClkDiv s inp b := by
  intro t later quiet
  have stays := idle_stays idle later quiet
  refine ⟨stays, ?_⟩
  rw [run_succ]
  cases reset : (inp t).reset with
  | true => simp [step, reset, Accepted]
  | false =>
    rw [step_idle reset stays, Accepted]
    simp [stays, reset]

/-- `data_rdy` comes up as the conversion ends, and not again before the next one does. -/
theorem ready_iff (sound : ∀ t, a ≤ t → Sound spiClkDiv (run (step spiClkDiv) s inp t))
    (under : UnderWay spiClkDiv s inp a b)
    (done : (run (step spiClkDiv) s inp b).presentState = .done) (running : (inp b).reset = false)
    (after : a < t)
    (alone : ∀ u, b < u → u < t → (run (step spiClkDiv) s inp u).presentState ≠ .done) :
    (run (step spiClkDiv) s inp t).dataRdy = true ↔ t = b + 1 := by
  obtain ⟨u, rfl⟩ := Nat.exists_eq_succ_of_ne_zero (Nat.ne_of_gt (Nat.zero_lt_of_lt after))
  rw [run_succ, (sound u (Nat.le_of_lt_succ after)).dataRdy_iff]
  constructor
  · rintro ⟨unreset, ended⟩
    obtain early | rfl | late := Nat.lt_trichotomy u b
    · exact absurd ended (under.unfinished (Nat.le_of_lt_succ after) early unreset)
    · rfl
    · exact absurd ended (alone u late (Nat.lt_succ_self u))
  · intro same
    rw [Nat.succ_inj.1 same]
    exact ⟨running, done⟩

/-- The pulse of a conversion that reaches its end: twelve clocks of `cnv`, less what the count
was left at. -/
theorem Accepted.pulse (accepted : Accepted spiClkDiv s inp a)
    (sound : ∀ t, a ≤ t → Sound spiClkDiv (run (step spiClkDiv) s inp t))
    (reaches : ∀ t, a + 1 ≤ t → t ≤ b →
      Reaches spiClkDiv s inp a (run (step spiClkDiv) s inp a).cnvCount.toNat t)
    (after : a + 1 ≤ b) (done : (run (step spiClkDiv) s inp b).presentState = .done)
    (back : (run (step spiClkDiv) s inp (b + 1)).presentState ≠ .setCnv) :
    ∃ n, 2 ≤ n ∧ a + 2 + n ≤ b ∧ ∀ t, a < t → t ≤ b + 1 →
      ((run (step spiClkDiv) s inp t).cnv = true ↔ a + 2 ≤ t ∧ t < a + 2 + n) := by
  have left : (run (step spiClkDiv) s inp a).cnvCount.toNat ≤ 6 := by
    have counting := (sound a (Nat.le_refl a)).counting
    simp only [Counting, accepted.1] at counting
    obtain zero | six := counting.1
    · exact zero ▸ Nat.zero_le 6
    · exact six ▸ Nat.le_refl 6
  have past := (reaches b after (Nat.le_refl b)).pulse
  rw [done, if_neg (by simp)] at past
  refine ⟨12 - (run (step spiClkDiv) s inp a).cnvCount.toNat, by omega, by omega, ?_⟩
  intro t low high
  obtain inside | rfl := Nat.lt_or_eq_of_le high
  · rw [(reaches t low (Nat.le_of_lt_succ inside)).cnv_iff (sound t (Nat.le_of_lt low))]
    omega
  · rw [(sound (b + 1) (Nat.le_of_lt low)).pulse back]
    simp only [Bool.false_eq_true, false_iff]
    omega

/-- A conversion that no reset meets comes to its end. -/
theorem Accepted.converts (generics : Generics dataBits spiClkDiv)
    (sound : ∀ t, a ≤ t → Sound spiClkDiv (run (step spiClkDiv) s inp t))
    (accepted : Accepted spiClkDiv s inp a)
    (undisturbed : ∀ t, a < t → UnderWay spiClkDiv s inp a t → (inp t).reset = false) :
    ∃ b, a < b ∧ Converts spiClkDiv s inp a b := by
  have idle := accepted.1
  have found := sound a (Nat.le_refl a)
  have first := accepted.reaches (found.pulse (by simp [idle]))
  obtain ⟨b, after, done, reaches⟩ := @loop_ends _
    (fun t => (run (step spiClkDiv) s inp t).presentState = .done)
    (fun t => remaining spiClkDiv (run (step spiClkDiv) s inp t)) _ first
    (fun t le before unfinished => before.next generics (sound t (Nat.le_of_succ_le le))
      (undisturbed t le before.under) unfinished)
  have last := reaches b after (Nat.le_refl b)
  have running := undisturbed b after last.under
  have back := @step_done dataBits spiClkDiv _ _ running done
  rw [← run_succ (step spiClkDiv) s inp b] at back
  have count : (received spiClkDiv s inp a b).length = dataBits := by
    rw [last.read, taken, done]
  refine ⟨b, after, ⟨last.under, done, by rw [back]⟩, ?_, count, ?_,
    fun t later quiet => ready_iff sound last.under done running later quiet,
    listens (by rw [back]), run_restarted last.under⟩
  · exact accepted.pulse sound reaches after done (by rw [back]; simp)
  · rw [back, ← foldl_shiftConcat _ _ count]
    exact last.shifted

theorem UnderWay.aborts (sound : ∀ t, a ≤ t → Sound spiClkDiv (run (step spiClkDiv) s inp t))
    (under : UnderWay spiClkDiv s inp a b) (reset : (inp b).reset = true) :
    Aborts spiClkDiv s inp a b := by
  have idle : (run (step spiClkDiv) s inp (b + 1)).presentState = .idle := by
    rw [run_succ, step, if_pos reset]
  refine ⟨⟨under, reset⟩, ?_, ?_, listens idle⟩
  · rw [run_succ, step, if_pos reset]
    exact ⟨rfl, rfl⟩
  · intro t after upto
    obtain ⟨u, rfl⟩ := Nat.exists_eq_succ_of_ne_zero (Nat.ne_of_gt (Nat.zero_lt_of_lt after))
    rw [run_succ, Bool.eq_false_iff, Ne, (sound u (Nat.le_of_lt_succ after)).dataRdy_iff]
    rintro ⟨running, done⟩
    obtain early | rfl := Nat.lt_or_eq_of_le (Nat.succ_le_succ_iff.1 upto)
    · exact under.unfinished (Nat.le_of_lt_succ after) early running done
    · rw [reset] at running
      cases running

end Course

/-- Every start that is accepted in a run from the power-up or from a reset on leads to a whole
conversion, or to the next reset if that comes first. -/
theorem starts_convert {spiClkDiv : Nat} (generics : Generics dataBits spiClkDiv)
    (s : Regs dataBits) (inp : Nat → Ports)
    (begins : s = powerUp dataBits ∨ (inp 0).reset = true) (a : Nat)
    (accepted : Accepted spiClkDiv s inp a) :
    (∃ b, a < b ∧ Converts spiClkDiv s inp a b) ∨ ∃ b, a < b ∧ Aborts spiClkDiv s inp a b := by
  have sound : ∀ t, a ≤ t → Sound spiClkDiv (run (step spiClkDiv) s inp t) := by
    intro t le
    obtain rfl | later := Nat.eq_zero_or_pos t
    · obtain rfl | reset := begins
      · exact sound_powerUp
      · rw [← Nat.le_zero.1 le, accepted.2.1] at reset
        cases reset
    · exact sound_run generics begins later
  by_cases undisturbed : ∀ t, a < t → UnderWay spiClkDiv s inp a t → (inp t).reset = false
  · exact .inl (accepted.converts generics sound undisturbed)
  · simp only [not_forall, Bool.not_eq_false] at undisturbed
    obtain ⟨b, after, under, reset⟩ := undisturbed
    exact .inr ⟨b, after, under.aborts sound reset⟩

/-- The monitor converters' generics, started at the power-up with a data line that stays up. -/
theorem monitor_converts :
    ∃ b, 0 < b ∧ Converts 5 (powerUp 128) (fun _ => ⟨false, true, true⟩) 0 b := by
  have generics : Generics 128 5 := ⟨by decide, by decide, by decide, by decide⟩
  obtain converts | ⟨b, _, aborts⟩ := starts_convert generics (powerUp 128)
    (fun _ => ⟨false, true, true⟩) (.inl rfl) 0 ⟨rfl, rfl, rfl⟩
  · exact converts
  · cases aborts.ends.2

end PscDigpid.Hdl.AdcAds8568Intf
