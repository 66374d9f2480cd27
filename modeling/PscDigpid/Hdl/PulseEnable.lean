/- Unit: PscDigpid/Hdl/PulseEnable
   layer: model
   source: src/hw/hdl/pulse_enable.vhd
   digest: The pulsed on command and how its phase follows the request. -/

import PscDigpid.Sync.Run

set_option autoImplicit false
set_option relaxedAutoImplicit false

namespace PscDigpid.Hdl.PulseEnable

open PscDigpid.Sync

/-- Input ports of `pulse_enable`. -/
structure Ports where
  reset : Bool
  en : Bool
  enableIn : Bool
  periodIn : BitVec 32

/-- Registers of `pulse_enable`. -/
structure Regs where
  pulseCounter : BitVec 32
  pulseEnable : Bool
  chEnable : Bool
  enableInReg : Bool
  deriving DecidableEq

/-- Registers as configured, which is also how reset leaves them. -/
def powerUp : Regs := ⟨0, false, false, false⟩

def period (i : Ports) : Nat := i.periodIn.toNat

section Processes

variable (s : Regs) (i : Ports) (next : Regs)

def captureInput : Regs :=
  if i.reset then { next with pulseEnable := false, enableInReg := false }
  else { next with pulseEnable := i.enableIn, enableInReg := i.enableIn }

/-- The output is written only while the request is seen; a withdrawn request
clears the counter and leaves the output as it is. -/
def pulseGeneration : Regs :=
  if i.reset then { next with pulseCounter := 0, chEnable := false }
  else if i.en then
    if s.pulseEnable then
      if s.pulseCounter = BitVec.ofNat 32 (period i) then { next with pulseCounter := 0 }
      else if s.pulseCounter ≥ BitVec.ofNat 32 (period i / 2) then
        { next with chEnable := true, pulseCounter := s.pulseCounter + 1 }
      else { next with chEnable := false, pulseCounter := s.pulseCounter + 1 }
    else { next with pulseCounter := 0 }
  else { next with pulseCounter := 0 }

end Processes

/-- One rising clock edge. -/
def step (s : Regs) (i : Ports) : Regs := pulseGeneration s i (captureInput i s)

def enOut (s : Regs) (i : Ports) : Bool := if i.en then s.chEnable else s.enableInReg

/-- The last stretch of clocks at which the request was on since reset: whether
it is still going on, and its length so far. -/
structure Stretch where
  on : Bool
  length : Nat
  deriving DecidableEq

def stretchStep (g : Stretch) (i : Ports) : Stretch :=
  if i.reset then ⟨false, 0⟩
  else if i.enableIn then ⟨true, if g.on then g.length + 1 else 1⟩
  else ⟨false, g.length⟩

/-- Whether the output is high after `n` counted clocks: the last of them fell
in the second half of a period. -/
def highAfter (period n : Nat) : Bool :=
  match n with
  | 0 => false
  | n + 1 => decide (period / 2 ≤ n % (period + 1))

/-- The registers after a stretch. The counter runs one clock behind the
request, and the first clock of a stretch shows the output of the one before. -/
structure Follows (period : Nat) (s : Regs) (g : Stretch) : Prop where
  seen : s.pulseEnable = g.on
  started : g.on = true → 0 < g.length
  counter : g.on = true → s.pulseCounter.toNat = (g.length - 1) % (period + 1)
  high : g.on = true → 1 < g.length → s.chEnable = highAfter period (g.length - 1)
  left : g.on = false → s.chEnable = highAfter period g.length

theorem follows_powerUp (period : Nat) : Follows period powerUp ⟨false, 0⟩ where
  seen := rfl
  started := by simp
  counter := by simp
  high := by simp
  left := fun _ => rfl

section Pulsed

variable {s : Regs} {i : Ports} {g : Stretch}

theorem step_pulseEnable : (step s i).pulseEnable = (!i.reset && i.enableIn) := by
  cases reset : i.reset <;>
    simp [step, pulseGeneration, captureInput, reset, apply_ite Regs.pulseEnable]

private theorem step_reset (reset : i.reset = true) :
    step s i = ⟨0, false, false, false⟩ := by
  simp [step, pulseGeneration, captureInput, reset]

/-- A clock at which the request is not seen. -/
theorem step_unseen (running : i.reset = false) (unseen : s.pulseEnable = false) :
    (step s i).pulseCounter = 0 ∧ (step s i).chEnable = s.chEnable := by
  cases pulsed : i.en <;>
    simp [step, pulseGeneration, captureInput, running, unseen, pulsed]

/-- A counted clock. -/
private theorem step_counted (running : i.reset = false) (pulsed : i.en = true)
    (seen : s.pulseEnable = true) :
    (step s i).pulseCounter =
        (if s.pulseCounter = BitVec.ofNat 32 (period i) then 0 else s.pulseCounter + 1) ∧
      (step s i).chEnable =
        (if s.pulseCounter = BitVec.ofNat 32 (period i) then s.chEnable
          else decide (BitVec.ofNat 32 (period i / 2) ≤ s.pulseCounter)) := by
  by_cases full : s.pulseCounter = BitVec.ofNat 32 (period i)
  · simp [step, pulseGeneration, captureInput, running, pulsed, seen, full]
  · by_cases half : BitVec.ofNat 32 (period i / 2) ≤ s.pulseCounter <;>
      simp [step, pulseGeneration, captureInput, running, pulsed, seen, full, half]

/-- The wrap keeps the output, which the clock before has raised. -/
private theorem high_at_wrap {p n : Nat} (positive : 0 < p) (last : n % (p + 1) = p) :
    0 < n ∧ highAfter p n = true ∧ highAfter p (n + 1) = true := by
  cases n with
  | zero =>
      rw [Nat.zero_mod] at last
      omega
  | succ m =>
      have small : m % (p + 1) < p + 1 := Nat.mod_lt _ (Nat.succ_pos _)
      have wrap : (m + 1) % (p + 1) = (m % (p + 1) + 1) % (p + 1) :=
        (Nat.mod_add_mod m (p + 1) 1).symm
      have before : m % (p + 1) + 1 = p := by
        rw [wrap] at last
        rcases Nat.lt_or_eq_of_le (Nat.le_of_lt_succ small) with below | at_end
        · rw [Nat.mod_eq_of_lt (by omega)] at last
          exact last
        · rw [at_end, Nat.mod_self] at last
          omega
      refine ⟨Nat.succ_pos m, ?_, ?_⟩
      · simp only [highAfter, decide_eq_true_eq]
        omega
      · simp only [highAfter, decide_eq_true_eq]
        omega

/-- On counted clocks the counter runs modulo the period, and the output is
high exactly in its second half. -/
private theorem counted_step (running : i.reset = false) (pulsed : i.en = true)
    (positive : 0 < period i) (seen : s.pulseEnable = true) {n : Nat}
    (counter : s.pulseCounter.toNat = n % (period i + 1))
    (before : 0 < n → s.chEnable = highAfter (period i) n) :
    (step s i).pulseCounter.toNat = (n + 1) % (period i + 1) ∧
      (step s i).chEnable = highAfter (period i) (n + 1) := by
  have bound : period i < 2 ^ 32 := i.periodIn.isLt
  have small : n % (period i + 1) < period i + 1 := Nat.mod_lt _ (Nat.succ_pos _)
  have wrap : (n + 1) % (period i + 1) = (n % (period i + 1) + 1) % (period i + 1) :=
    (Nat.mod_add_mod n (period i + 1) 1).symm
  have value (k : Nat) (low : k < 2 ^ 32) : (BitVec.ofNat 32 k).toNat = k := by
    rw [BitVec.toNat_ofNat, Nat.mod_eq_of_lt low]
  have full : (BitVec.ofNat 32 (period i)).toNat = period i := value _ bound
  obtain ⟨count, high⟩ := step_counted running pulsed seen
  by_cases last : s.pulseCounter = BitVec.ofNat 32 (period i)
  · have at_end : n % (period i + 1) = period i := by rw [← counter, last, full]
    obtain ⟨later, earlier, now⟩ := high_at_wrap positive at_end
    rw [if_pos last] at count high
    rw [count, high, wrap, at_end, Nat.mod_self, before later, earlier, now]
    exact ⟨rfl, rfl⟩
  · have below : n % (period i + 1) < period i := by
      have apart : n % (period i + 1) ≠ period i := by
        intro same
        exact last (BitVec.eq_of_toNat_eq (by rw [counter, full, same]))
      omega
    rw [if_neg last] at count high
    rw [count, high, BitVec.toNat_add, counter, wrap]
    constructor
    · rw [Nat.mod_eq_of_lt (show n % (period i + 1) + 1 < period i + 1 by omega),
        Nat.mod_eq_of_lt]
      · rfl
      · change n % (period i + 1) + 1 < 2 ^ 32
        omega
    · rw [highAfter, decide_eq_decide, BitVec.le_def, counter, value _ (by omega)]

private theorem seen_step (running : i.reset = false) :
    (step s i).pulseEnable = (stretchStep g i).on := by
  rw [step_pulseEnable]
  cases on : i.enableIn <;> simp [stretchStep, running, on]

/-- After a clock at which the request was not seen, a stretch is still over or has
just begun. -/
private theorem follows_unseen {p : Nat} (follows : Follows p s g) (running : i.reset = false)
    (ended : g.on = false) : Follows p (step s i) (stretchStep g i) := by
  have seen := seen_step (s := s) (g := g) running
  obtain ⟨count, kept⟩ := step_unseen running (follows.seen.trans ended)
  cases on : i.enableIn with
  | false =>
      have off : stretchStep g i = ⟨false, g.length⟩ := by simp [stretchStep, running, on]
      rw [off] at seen ⊢
      refine ⟨seen, by simp, by simp, by simp, ?_⟩
      intro _
      rw [kept]
      exact follows.left ended
  | true =>
      have first : stretchStep g i = ⟨true, 1⟩ := by simp [stretchStep, running, on, ended]
      rw [first] at seen ⊢
      refine ⟨seen, by simp, ?_, by simp, by simp⟩
      intro _
      rw [count]
      rfl

/-- After a counted clock, the stretch is one clock longer or has just ended. -/
private theorem follows_counted (follows : Follows (period i) s g) (running : i.reset = false)
    (pulsed : i.en = true) (positive : 0 < period i) (going : g.on = true) :
    Follows (period i) (step s i) (stretchStep g i) := by
  have seen := seen_step (s := s) (g := g) running
  have started := follows.started going
  obtain ⟨n, length⟩ : ∃ n, g.length = n + 1 := ⟨g.length - 1, by omega⟩
  have counter := follows.counter going
  have before (later : 0 < n) : s.chEnable = highAfter (period i) n := by
    have high := follows.high going (by omega)
    rw [length] at high
    exact high
  rw [length, Nat.add_sub_cancel] at counter
  obtain ⟨count, high⟩ :=
    counted_step running pulsed positive (follows.seen.trans going) counter before
  cases on : i.enableIn with
  | false =>
      have off : stretchStep g i = ⟨false, n + 1⟩ := by
        simp [stretchStep, running, on, length]
      rw [off] at seen ⊢
      exact ⟨seen, by simp, by simp, by simp, fun _ => high⟩
  | true =>
      have further : stretchStep g i = ⟨true, n + 2⟩ := by
        simp [stretchStep, running, on, going, length]
      rw [further] at seen ⊢
      exact ⟨seen, by simp, fun _ => count, fun _ _ => high, by simp⟩

/-- The registers follow the request's last stretch. -/
theorem follows_step {p : Nat} (follows : Follows p s g) (pulsed : i.en = true)
    (same : period i = p) (positive : 0 < p) : Follows p (step s i) (stretchStep g i) := by
  subst same
  cases reset : i.reset with
  | true =>
      rw [step_reset reset]
      simp only [stretchStep, reset, if_true]
      exact follows_powerUp _
  | false =>
      cases going : g.on with
      | false => exact follows_unseen follows reset going
      | true => exact follows_counted follows reset pulsed positive going

/-- Along a run in pulsed mode the registers follow the request. -/
theorem follows_run {p : Nat} (inp : Nat → Ports) (positive : 0 < p)
    (pulsed : ∀ t, (inp t).en = true) (same : ∀ t, period (inp t) = p) (t : Nat) :
    Follows p (run step powerUp inp t) (run stretchStep ⟨false, 0⟩ inp t) :=
  run_related (R := Follows p) (follows_powerUp p)
    (fun t follows => follows_step follows (pulsed t) (same t) positive) t

end Pulsed

end PscDigpid.Hdl.PulseEnable
