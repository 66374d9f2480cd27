/- Unit: PscDigpid/Hdl/SmoothRamp
   layer: model
   source: src/hw/hdl/smooth_ramp.vhd
   digest: The raised-cosine ramp generator, its pipeline read as the outputs still to come. -/

import PscDigpid.Sync.Signed
import PscDigpid.Sync.Run

set_option autoImplicit false
set_option relaxedAutoImplicit false

namespace PscDigpid.Hdl.SmoothRamp

open PscDigpid.Sync

inductive State
  | idle | runRamp
  deriving DecidableEq

/-- Input ports of `smooth_ramp`, and what the CORDIC core puts on its output. -/
structure Ports where
  reset : Bool
  tenkhzTrig : Bool
  curSetpt : BitVec 20
  newSetpt : BitVec 20
  phaseInc : BitVec 32
  cordicDout : BitVec 48

/-- Registers of `smooth_ramp`. -/
structure Regs where
  state : State
  phase : BitVec 32
  phaseOut : BitVec 24
  raisedCos : BitVec 24
  cnt : BitVec 20
  rampoutWdiff : BitVec 48
  rampoutFp : BitVec 24
  rampout : BitVec 20
  lastPoint : Bool
  diffSetpt : BitVec 24
  newSetptPrev : BitVec 20
  oldSetpt : BitVec 20
  smoothActive : Bool

def negPi : BitVec 32 := BitVec.ofInt 32 (-421657300)

/-- The phase input of the CORDIC core has the top 24 bits of the phase. -/
def phaseTop (phase : BitVec 32) : BitVec 24 := phase.extractLsb' 8 24

def cos (i : Ports) : BitVec 24 := i.cordicDout.extractLsb' 0 24

/-- The cosine with one added and halved; it has 20 fraction bits. -/
def raise (cos : BitVec 24) : BitVec 24 := (cos + 1048576#24) >>> 1

def diff (old new : BitVec 20) : BitVec 24 := new.signExtend 24 - old.signExtend 24

def scaled (old new : BitVec 20) (raised : BitVec 24) : BitVec 48 :=
  (diff old new).signExtend 48 * raised.signExtend 48

def placed (old : BitVec 20) (wdiff : BitVec 48) : BitVec 24 :=
  old.signExtend 24 + wdiff.extractLsb' 20 24

def narrow (fp : BitVec 24) : BitVec 20 := fp.extractLsb' 0 20

section Processes

variable (s : Regs) (i : Ports)

/-- One tick of a ramp under way: the product pipeline and the phase. -/
def rampTick : Regs :=
  { s with
    raisedCos := raise (cos i)
    diffSetpt := diff s.oldSetpt i.newSetpt
    rampoutWdiff := scaled s.oldSetpt i.newSetpt s.raisedCos
    rampoutFp := placed s.oldSetpt s.rampoutWdiff
    rampout := narrow s.rampoutFp
    state := if s.lastPoint then .idle else .runRamp
    phase := if 0 < s.phase.toInt then 0 else s.phase + i.phaseInc
    lastPoint := decide (0 < s.phase.toInt) || s.lastPoint
    cnt := if 0 < s.phase.toInt then s.cnt else s.cnt + 1
    phaseOut := if 0 < s.phase.toInt then s.phaseOut else phaseTop s.phase }

/-- One clock without a ramp: a changed setpoint starts one. The product
pipeline is not touched. -/
def idleClock : Regs :=
  if s.newSetptPrev ≠ i.newSetpt then
    { s with
      newSetptPrev := i.newSetpt
      oldSetpt := i.curSetpt
      state := .runRamp
      phase := negPi
      phaseOut := phaseTop negPi
      cnt := 0
      lastPoint := false
      smoothActive := true }
  else { s with newSetptPrev := i.newSetpt, lastPoint := false, smoothActive := false }

end Processes

/-- Every register as the device configures it. -/
def powerUp : Regs where
  state := .idle
  phase := 0
  phaseOut := 0
  raisedCos := 0
  cnt := 0
  rampoutWdiff := 0
  rampoutFp := 0
  rampout := 0
  lastPoint := false
  diffSetpt := 0
  newSetptPrev := 0
  oldSetpt := 0
  smoothActive := false

/-- One rising clock edge. The reset keeps `old_setpt` and `diff_setpt`. -/
def step (s : Regs) (i : Ports) : Regs :=
  if i.reset then
    { s with
      state := .idle
      phase := negPi
      phaseOut := phaseTop negPi
      rampoutWdiff := 0
      rampout := 0
      raisedCos := 0
      rampoutFp := 0
      cnt := 0
      lastPoint := false
      smoothActive := false
      newSetptPrev := 0 }
  else
    match s.state with
    | .idle => idleClock s i
    | .runRamp => if i.tenkhzTrig then rampTick s i else s

/-- What a ramp from `old` to `new` outputs for a cosine. -/
def output (old new : BitVec 20) (cos : BitVec 24) : BitVec 20 :=
  narrow (placed old (scaled old new (raise cos)))

/-- What a ramp from `old` to `new` outputs now and at its next ticks, while the
cosine core shows `shown` at the next tick and answers the phase with `taken`. -/
def pending (old new : BitVec 20) (shown taken : BitVec 24) (s : Regs) : Nat → BitVec 20
  | 0 => s.rampout
  | 1 => narrow s.rampoutFp
  | 2 => narrow (placed old s.rampoutWdiff)
  | 3 => narrow (placed old (scaled old new s.raisedCos))
  | 4 => output old new shown
  | _ => output old new taken

section Step

variable {s : Regs} {i : Ports}

theorem step_idle (running : i.reset = false) (idle : s.state = .idle) :
    step s i = idleClock s i := by
  simp [step, running, idle]

theorem step_tick (running : i.reset = false) (ramp : s.state = .runRamp)
    (tick : i.tenkhzTrig = true) : step s i = rampTick s i := by
  simp [step, running, ramp, tick]

theorem step_wait (running : i.reset = false) (ramp : s.state = .runRamp)
    (wait : i.tenkhzTrig = false) : step s i = s := by
  simp [step, running, ramp, wait]

/-- A ramp leaves IDLE exactly on a changed setpoint, with everything but the
product pipeline set for its start. -/
theorem idle_leaves (running : i.reset = false) (idle : s.state = .idle)
    (leaves : (step s i).state = .runRamp) :
    step s i = { s with
      newSetptPrev := i.newSetpt
      oldSetpt := i.curSetpt
      state := .runRamp
      phase := negPi
      phaseOut := phaseTop negPi
      cnt := 0
      lastPoint := false
      smoothActive := true } := by
  rw [step_idle running idle] at leaves ⊢
  unfold idleClock at leaves ⊢
  by_cases changed : s.newSetptPrev ≠ i.newSetpt
  · rw [if_pos changed]
  · rw [if_neg changed] at leaves
    exact absurd (idle.symm.trans leaves) (by decide)

/-- A tick brings every pending output one place closer. -/
theorem pending_tick {new : BitVec 20} (target : i.newSetpt = new) (taken next : BitVec 24)
    {k : Nat} (early : k < 5) :
    pending s.oldSetpt new taken next (rampTick s i) k =
      pending s.oldSetpt new (cos i) taken s (k + 1) := by
  subst target
  match k, early with
  | 0, _ | 1, _ | 2, _ | 3, _ | 4, _ => rfl

end Step

section Arithmetic

variable {old new : BitVec 20} {c : BitVec 24}

theorem toInt_bounds {w : Nat} (x : BitVec w) : -2 ^ w ≤ 2 * x.toInt ∧ 2 * x.toInt < 2 ^ w :=
  ⟨BitVec.le_two_mul_toInt, BitVec.two_mul_toInt_lt⟩

theorem toInt_diff (old new : BitVec 20) : (diff old new).toInt = new.toInt - old.toInt := by
  have first := toInt_bounds old
  have second := toInt_bounds new
  apply toInt_exact
  · rw [diff, BitVec.toInt_sub, BitVec.toInt_signExtend_of_le (by omega),
      BitVec.toInt_signExtend_of_le (by omega)]
  · omega
  · omega

theorem toInt_phaseTop (phase : BitVec 32) : (phaseTop phase).toInt = phase.toInt / 256 := by
  have bounds := toInt_bounds phase
  apply toInt_exact (toInt_slice phase (by omega))
  · omega
  · omega

/-- The raised cosine of a cosine between minus one and one is between zero and one. -/
theorem toInt_raise (low : -1048576 ≤ c.toInt) (high : c.toInt ≤ 1048576) :
    (raise c).toInt = (c.toInt + 1048576) / 2 := by
  have sum : (c + 1048576#24).toInt = c.toInt + 1048576 := by
    apply toInt_exact (BitVec.toInt_add c 1048576#24)
    · change -2 ^ 24 ≤ 2 * (c.toInt + 1048576)
      omega
    · change 2 * (c.toInt + 1048576) < 2 ^ 24
      omega
  have plain : ((c + 1048576#24).toNat : Int) = c.toInt + 1048576 := by
    rw [← sum, BitVec.toInt_eq_toNat_of_msb]
    rw [BitVec.msb_eq_toInt, sum]
    simp
    omega
  rw [raise, BitVec.toInt_ushiftRight_of_lt (by decide), Nat.shiftRight_eq_div_pow]
  push_cast
  rw [plain]

theorem toInt_scaled (old new : BitVec 20) (raised : BitVec 24) :
    (scaled old new raised).toInt = (new.toInt - old.toInt) * raised.toInt := by
  have first := toInt_bounds old
  have second := toInt_bounds new
  have third := toInt_bounds raised
  have size : ((new.toInt - old.toInt) * raised.toInt).natAbs ≤ 2 ^ 20 * 2 ^ 23 := by
    rw [Int.natAbs_mul]
    exact Nat.mul_le_mul (by omega) (by omega)
  apply toInt_exact
  · rw [scaled, BitVec.toInt_mul, BitVec.toInt_signExtend_of_le (by omega),
      BitVec.toInt_signExtend_of_le (by omega), toInt_diff]
  · omega
  · omega

/-- The output is as far on the way from `old` to `new` as the raised cosine says. -/
theorem toInt_output (low : -1048576 ≤ c.toInt) (high : c.toInt ≤ 1048576) :
    (output old new c).toInt =
      along old.toInt new.toInt 1048576 ((c.toInt + 1048576) / 2) := by
  have first := toInt_bounds old
  have second := toInt_bounds new
  have start : 0 ≤ (c.toInt + 1048576) / 2 := by omega
  have finish : (c.toInt + 1048576) / 2 ≤ 1048576 := by omega
  obtain ⟨after, before⟩ := along_between old.toInt new.toInt start finish (by omega)
  have part : ((scaled old new (raise c)).extractLsb' 20 24).toInt =
      (new.toInt - old.toInt) * ((c.toInt + 1048576) / 2) / 1048576 := by
    unfold along Toward at after before
    apply toInt_exact
    · rw [toInt_slice _ (by omega), toInt_scaled, toInt_raise low high]
      rfl
    · omega
    · omega
  have sum : (placed old (scaled old new (raise c))).toInt =
      along old.toInt new.toInt 1048576 ((c.toInt + 1048576) / 2) := by
    unfold Toward at after before
    apply toInt_exact
    · rw [placed, BitVec.toInt_add, BitVec.toInt_signExtend_of_le (by omega), part]
      rfl
    · omega
    · omega
  unfold Toward at after before
  apply toInt_exact
  · rw [output, narrow, toInt_slice _ (by omega), sum]
    simp
  · omega
  · omega

theorem output_low (value : c.toInt = -1048576) : output old new c = old := by
  apply BitVec.eq_of_toInt_eq
  rw [toInt_output (by omega) (by omega), value]
  exact along_zero old.toInt new.toInt 1048576

end Arithmetic

end PscDigpid.Hdl.SmoothRamp
