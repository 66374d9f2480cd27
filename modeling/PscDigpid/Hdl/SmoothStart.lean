/- Unit: PscDigpid/Hdl/SmoothStart
   layer: result
   source: src/hw/hdl/dac_chan.vhd (smoothmode, gainoff_dac), src/hw/hdl/smooth_ramp.vhd
   digest: A smooth ramp departs from the output exactly when gain and offset return it. -/

import PscDigpid.Hdl.DacChan
import PscDigpid.Hdl.DacSaturation

set_option autoImplicit false
set_option relaxedAutoImplicit false

namespace PscDigpid.Hdl.DacGainoffset

open PscDigpid.Sync

/-- Gain and offset take the operands' setpoint to `x`: the check means `x` by the slice, or
a number beyond the limit at which `x` is. -/
def Operands.Returns (o : Operands) (x : Int) : Prop :=
  (1048576 ∣ o.exact - o.wraps * o.gain.toInt - x ∧ o.base ≤ x ∧ x < o.base + 1048576) ∨
    (x = o.hi ∧ o.hi ≤ o.meant) ∨ (x = o.lo ∧ o.meant ≤ o.lo)

instance (o : Operands) (x : Int) : Decidable (o.Returns x) := by
  unfold Operands.Returns
  infer_instance

theorem converted_eq_iff (o : Operands) {x : BitVec 20} (low : o.lo ≤ x.toInt)
    (high : x.toInt ≤ o.hi) : o.converted = x ↔ o.Returns x.toInt := by
  have order := o.lo_lt_hi
  rw [← BitVec.toInt_inj, toInt_converted, ← clamp_of_mem low high, clamp_eq_clamp_iff order,
    clamp_of_mem low high, Operands.Returns, Operands.meant, reread_eq_iff (by decide)]
  apply or_congr_right
  omega

/-- The setpoint register between conversions of the same operands: converted, but for the
clock at which it is checked. -/
structure Settled (o : Operands) (s : Regs) : Prop where
  carries : Carries o s
  setpt : s.dacSetpt = if s.state = .checkforsat then o.sliced else o.converted

/-- A first conversion of the operands under way, or what it has left. -/
structure Settling (o : Operands) (s : Regs) : Prop where
  carries : Carries o s
  setpt : s.state = .idle ∨ s.state = .multDly → s.dacSetpt = o.converted

section Step

variable {o : Operands} {s : Regs} {i : Ports}

theorem settling_start (idle : s.state = .idle) (running : i.reset = false)
    (tick : i.tenkhzTrig = true) : Settling o (step s i) := by
  constructor
  · constructor <;> simp [step, idle, running, tick]
  · simp [step, idle, running, tick]

theorem Settling.step (settling : Settling o s) (running : i.reset = false)
    (holds : i.operands = o) : Settling o (step s i) := by
  refine ⟨carries_step holds settling.carries, ?_⟩
  have kept (unscaled : s.state ≠ .scale) (unchecked : s.state ≠ .checkforsat) :=
    @step_keeps s i unscaled unchecked
  cases state : s.state with
  | idle =>
      intro _
      rw [kept (by simp [state]) (by simp [state])]
      exact settling.setpt (.inl state)
  | multDly =>
      intro _
      rw [kept (by simp [state]) (by simp [state])]
      exact settling.setpt (.inr state)
  | checkforsat =>
      intro _
      have after : (DacGainoffset.step s i).state = .multDly := by
        simp [DacGainoffset.step, running, state]
      exact (carries_step holds settling.carries).converted after
  | _ => simp [DacGainoffset.step, running, state]

theorem Settled.step (settled : Settled o s) (running : i.reset = false)
    (holds : i.operands = o) : Settled o (step s i) := by
  have carries := carries_step holds settled.carries
  refine ⟨carries, ?_⟩
  by_cases check : (DacGainoffset.step s i).state = .checkforsat
  · rw [if_pos check]
    exact carries.sliced check
  · rw [if_neg check]
    by_cases checked : s.state = .checkforsat
    · have after : (DacGainoffset.step s i).state = .multDly := by
        simp [DacGainoffset.step, running, checked]
      exact carries.converted after
    · have unscaled : s.state ≠ .scale := by
        intro scale
        exact check (by simp [DacGainoffset.step, running, scale])
      rw [step_keeps unscaled checked, settled.setpt, if_neg checked]

end Step

end PscDigpid.Hdl.DacGainoffset

namespace PscDigpid.Hdl.DacChan

open PscDigpid.Sync
open DacGainoffset (Operands Settled Settling)

section Steady

variable (s : Regs) (inp : Nat → Ports)

/-- Between the first of two ticks that gain and offset take in, at clocks `u` and `v`, and
clock `t` the channel is in the smooth mode without the loop and without a ramp, and nothing
but the setpoint register changes. -/
structure Steady (u v t : Nat) : Prop where
  order : u < v ∧ v < t
  running : ∀ w, u ≤ w → w ≤ t → (inp w).reset = false
  mode : ∀ w, u ≤ w → w ≤ t → (inp w).dacCntrl.mode = 0
  loop : ∀ w, u ≤ w → w ≤ t → (inp w).digpidEnb = false
  numbits : ∀ w, u ≤ w → w ≤ t → (inp w).dacNumbitsSel = (inp t).dacNumbitsSel
  offset : ∀ w, u ≤ w → w ≤ t → (inp w).dacCntrl.offset = (inp t).dacCntrl.offset
  gain : ∀ w, u ≤ w → w ≤ t → (inp w).dacCntrl.gain = (inp t).dacCntrl.gain
  flat : ∀ w, u ≤ w → w ≤ t → (run step s inp w).smoothmode.state = .idle
  first : (inp u).tenkhzTrig = true ∧ (run step s inp u).gainoffDac.state = .idle
  second : (inp v).tenkhzTrig = true ∧ (run step s inp v).gainoffDac.state = .idle

/-- A setpoint as gain and offset at clock `t` take it. -/
def operandsAt (t : Nat) (raw : BitVec 20) : Operands :=
  ⟨(inp t).dacNumbitsSel, raw, (inp t).dacCntrl.offset, (inp t).dacCntrl.gain⟩

/-- What the ramp generator samples at clock `t`: the DAC's setpoint, or at the clock of the
check the product that is not limited yet. -/
def sampled (v t : Nat) : BitVec 20 :=
  if (run step s inp t).gainoffDac.state = .checkforsat then
    (operandsAt inp t (run step s inp t).smoothmode.rampout).sliced
  else dacSetpt (run step s inp v) (inp v)

end Steady

section Steady

variable {s : Regs} {inp : Nat → Ports} {u v t w : Nat}

/-- Without a ramp the generator's output stays. -/
theorem Steady.rampout (steady : Steady s inp u v t) (low : u ≤ w) (high : w ≤ t) :
    (run step s inp w).smoothmode.rampout = (run step s inp t).smoothmode.rampout := by
  refine stretch_induction
    (P := fun t => (run step s inp w).smoothmode.rampout = (run step s inp t).smoothmode.rampout)
    high rfl ?_
  intro x from_w before same
  have running : (smoothPorts (run step s inp x) (inp x)).reset = false :=
    steady.running x (by omega) (by omega)
  have kept : (run step s inp (x + 1)).smoothmode.rampout =
      (run step s inp x).smoothmode.rampout := by
    change (SmoothRamp.step _ _).rampout = _
    rw [SmoothRamp.step_idle running (steady.flat x (by omega) (by omega)),
      SmoothRamp.idleClock]
    split <;> rfl
  rw [kept, same]

/-- From the first tick on that output is the raw setpoint. -/
theorem Steady.raw (steady : Steady s inp u v t) (after : u < w) (high : w ≤ t) :
    (run step s inp w).dacSetptRaw = (run step s inp t).smoothmode.rampout := by
  have loads {x : Nat} (low : u ≤ x) (before : x < t) (tick : (inp x).tenkhzTrig = true) :
      (run step s inp (x + 1)).dacSetptRaw = (run step s inp t).smoothmode.rampout := by
    rw [run_succ, step, steady.running x low (by omega), if_neg Bool.false_ne_true, if_pos tick,
      steady.mode x low (by omega)]
    exact steady.rampout low (by omega)
  refine stretch_induction (P := fun w => (run step s inp w).dacSetptRaw =
    (run step s inp t).smoothmode.rampout) (Nat.succ_le_of_lt after) ?_ ?_
  · exact loads (Nat.le_refl u) (by omega) steady.first.1
  · intro x from_u before same
    cases tick : (inp x).tenkhzTrig with
    | true => exact loads (by omega) (by omega) tick
    | false =>
        rw [run_succ, step, steady.running x (by omega) (by omega), if_neg Bool.false_ne_true,
          tick, if_neg Bool.false_ne_true]
        exact same

/-- So gain and offset work on the same operands from then on. -/
theorem Steady.operands (steady : Steady s inp u v t) (after : u < w) (high : w ≤ t) :
    (gainoffPorts (run step s inp w) (inp w)).operands =
      operandsAt inp t (run step s inp t).smoothmode.rampout := by
  rw [DacGainoffset.Ports.operands, operandsAt, gainoffPorts]
  dsimp only
  rw [steady.raw after high, steady.numbits w (by omega) high, steady.offset w (by omega) high,
    steady.gain w (by omega) high]

/-- At the second tick their conversion is in the setpoint register. -/
theorem Steady.converted (steady : Steady s inp u v t) :
    (run step s inp v).gainoffDac.dacSetpt =
      (operandsAt inp t (run step s inp t).smoothmode.rampout).converted := by
  obtain ⟨before, late⟩ := steady.order
  have settling : Settling (operandsAt inp t (run step s inp t).smoothmode.rampout)
      (run step s inp v).gainoffDac := by
    refine stretch_induction
      (P := fun w => Settling (operandsAt inp t (run step s inp t).smoothmode.rampout)
        (run step s inp w).gainoffDac) (Nat.succ_le_of_lt before) ?_ ?_
    · exact DacGainoffset.settling_start steady.first.2
        (steady.running u (Nat.le_refl u) (by omega)) steady.first.1
    · intro x from_u early settles
      exact Settling.step settles (steady.running x (by omega) (by omega))
        (steady.operands (by omega) (by omega))
  exact settling.setpt (.inl steady.second.2)

/-- At the end the setpoint register shows that, or the slice that is about to be checked. -/
theorem Steady.register (steady : Steady s inp u v t) :
    (run step s inp t).gainoffDac.dacSetpt = sampled s inp v t := by
  obtain ⟨before, late⟩ := steady.order
  have loop := steady.loop v (by omega) (by omega)
  have settled : Settled (operandsAt inp t (run step s inp t).smoothmode.rampout)
      (run step s inp t).gainoffDac := by
    refine stretch_induction
      (P := fun w => Settled (operandsAt inp t (run step s inp t).smoothmode.rampout)
        (run step s inp w).gainoffDac) (Nat.le_of_lt late) ?_ ?_
    · refine ⟨DacGainoffset.carries_idle steady.second.2, ?_⟩
      rw [steady.second.2, if_neg (by decide)]
      exact steady.converted
    · intro x from_v early settles
      exact Settled.step settles (steady.running x (by omega) (by omega))
        (steady.operands (by omega) (by omega))
  rw [settled.setpt, sampled, dacSetpt, loop, if_neg Bool.false_ne_true, steady.converted]

/-- A ramp departs from what the generator samples. -/
theorem Steady.departs (steady : Steady s inp u v t)
    (ramps : (run step s inp (t + 1)).smoothmode.state = .runRamp) :
    (run step s inp (t + 1)).smoothmode.oldSetpt = sampled s inp v t := by
  obtain ⟨before, late⟩ := steady.order
  have running : (smoothPorts (run step s inp t) (inp t)).reset = false :=
    steady.running t (by omega) (Nat.le_refl t)
  have idle := steady.flat t (by omega) (Nat.le_refl t)
  rw [← steady.register]
  change (SmoothRamp.step _ _).oldSetpt = _
  rw [SmoothRamp.idle_leaves running idle ramps]
  rfl

/-- The start value of a ramp gives the output from before exactly when gain and offset
return what has been sampled to it. -/
theorem smooth_start_iff_returns (steady : Steady s inp u v t)
    (ramps : (run step s inp (t + 1)).smoothmode.state = .runRamp) :
    (operandsAt inp t (run step s inp (t + 1)).smoothmode.oldSetpt).converted =
        dacSetpt (run step s inp v) (inp v) ↔
      (operandsAt inp t (sampled s inp v t)).Returns
        (dacSetpt (run step s inp v) (inp v)).toInt := by
  obtain ⟨before, late⟩ := steady.order
  have output : dacSetpt (run step s inp v) (inp v) =
      (operandsAt inp t (run step s inp t).smoothmode.rampout).converted := by
    rw [dacSetpt, steady.loop v (by omega) (by omega), if_neg Bool.false_ne_true,
      steady.converted]
  have order := (operandsAt inp t (run step s inp t).smoothmode.rampout).lo_lt_hi
  have range := clamp_bounds (Int.le_of_lt order)
    (operandsAt inp t (run step s inp t).smoothmode.rampout).meant
  rw [← DacGainoffset.toInt_converted, ← output] at range
  rw [steady.departs ramps]
  exact DacGainoffset.converted_eq_iff _ range.1 range.2

end Steady

/-- Ticks at every twelfth clock and a setpoint that changes after the second. -/
def newTarget (offset : BitVec 20) (t : Nat) : Ports where
  reset := false
  tenkhzTrig := t % 12 == 0
  dacNumbitsSel := true
  dacCntrl := ⟨if t < 13 then 0 else 5000, false, 0, 0x100000, offset, 42165730, 0, 0, 0, false,
    false, 0⟩
  digpidEnb := false
  controlOut := 0
  dacRddata := 0
  cordicDout := 0
  fofbDacSetpt := 0

/-- A channel that has been ramped to a code. -/
def rampedTo (code : BitVec 20) : Regs :=
  { powerUp with smoothmode := { SmoothRamp.powerUp with rampout := code } }

private theorem newTarget_steady {code offset : BitVec 20}
    (flat : ∀ w, w ≤ 13 → (run step (rampedTo code) (newTarget offset) w).smoothmode.state = .idle)
    (idle : (run step (rampedTo code) (newTarget offset) 12).gainoffDac.state = .idle) :
    Steady (rampedTo code) (newTarget offset) 0 12 13 where
  order := by decide
  running := fun _ _ _ => rfl
  mode := fun _ _ _ => rfl
  loop := fun _ _ _ => rfl
  numbits := fun _ _ _ => rfl
  offset := fun _ _ _ => rfl
  gain := fun _ _ _ => rfl
  flat := fun w _ high => flat w high
  first := ⟨rfl, rfl⟩
  second := ⟨rfl, idle⟩

theorem unit_gain_departs :
    (operandsAt (newTarget 0) 13
        (run step (rampedTo 700) (newTarget 0) 14).smoothmode.oldSetpt).converted =
      dacSetpt (run step (rampedTo 700) (newTarget 0) 12) (newTarget 0 12) :=
  (smooth_start_iff_returns
    (newTarget_steady (by decide +kernel) (by decide +kernel)) (by decide +kernel)).2
    (by decide +kernel)

/-- With an offset of minus 1000 a ramp from the output 1000 starts at 2000. -/
theorem offset_steps : ¬ ∀ s inp u v t, Steady s inp u v t →
    (run step s inp (t + 1)).smoothmode.state = .runRamp →
    (operandsAt inp t (run step s inp (t + 1)).smoothmode.oldSetpt).converted =
      dacSetpt (run step s inp v) (inp v) := by
  intro smooth
  have same := smooth (rampedTo 0) (newTarget (-1000)) 0 12 13
    (newTarget_steady (by decide +kernel) (by decide +kernel)) (by decide +kernel)
  exact absurd same (by decide +kernel)

end PscDigpid.Hdl.DacChan
