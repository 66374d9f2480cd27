/- Unit: PscDigpid/Hdl/SmoothRampEnd
   layer: result
   source: src/hw/hdl/smooth_ramp.vhd (smooth_ramp process, RUN_RAMP)
   digest: A ramp ends three ticks of its pipeline before the cosine of its last phase. -/

import PscDigpid.Hdl.SmoothRampLaw

set_option autoImplicit false
set_option relaxedAutoImplicit false

namespace PscDigpid.Hdl.SmoothRamp

open PscDigpid.Sync

/-- The phase after the first `n` of a ramp's increments. -/
def phaseAfter (incs : Nat → BitVec 32) : Nat → Int
  | 0 => negPi.toInt
  | n + 1 => phaseAfter incs n + (incs n).toInt

/-- The phase is past zero after `n` increments, and not before. -/
def Crosses (incs : Nat → BitVec 32) (n : Nat) : Prop :=
  0 < phaseAfter incs n ∧ ∀ m, m < n → phaseAfter incs m ≤ 0

/-- The ramp that leaves IDLE at clock `a` takes the increments in turn, one at each tick. -/
def Takes (s : Regs) (inp : Nat → Ports) (a : Nat) (incs : Nat → BitVec 32) : Prop :=
  ∀ t, InRamp s inp a t → (run step s inp t).state = .runRamp → (inp t).tenkhzTrig = true →
    (inp t).phaseInc = incs (ticksBefore (ticks inp) t - ticksBefore (ticks inp) (a + 1))

/-- The phase on the core's input after `n` ticks of a ramp. -/
def phaseShown (incs : Nat → BitVec 32) : Nat → BitVec 24
  | 0 => phaseTop negPi
  | n + 1 => phaseTop (BitVec.ofInt 32 (phaseAfter incs n))

/-- The raised cosine of a ramp's last output when its phase crosses zero with the
`n`th increment: the one left in the pipeline, the cosine the core showed at the
start, or the cosine of a phase four increments back. -/
def lastRaised (cosine : BitVec 24 → BitVec 24) (incs : Nat → BitVec 32) (left shown : BitVec 24) :
    Nat → BitVec 24
  | 0 | 1 => left
  | 2 => raise shown
  | n + 3 => raise (cosine (phaseShown incs n))

/-- The raised cosine takes the output from `old` the whole way to `new`. -/
def Reaches (old new : BitVec 20) (raised : BitVec 24) : Prop :=
  (1048576 : Int) ∣ (new.toInt - old.toInt) * raised.toInt / 1048576 - (new.toInt - old.toInt)

/-- What a ramp from `old` to `new` outputs after `n` ticks, `left` being its state at its
start: first what the pipeline holds, then the cosines of its phases. -/
def due (cosine : BitVec 24 → BitVec 24) (incs : Nat → BitVec 32) (old new : BitVec 20)
    (shown : BitVec 24) (left : Regs) : Nat → BitVec 20
  | n + 5 => output old new (cosine (phaseShown incs n))
  | k => pending old new shown shown left k

section Arithmetic

variable {cosine : BitVec 24 → BitVec 24} {incs : Nat → BitVec 32} {old new : BitVec 20}
  {shown : BitVec 24} {left : Regs}

theorem toInt_narrow_placed (old new : BitVec 20) (raised : BitVec 24) :
    (narrow (placed old (scaled old new raised))).toInt =
      (old.toInt + (new.toInt - old.toInt) * raised.toInt / 1048576).bmod (2 ^ 20) := by
  have wide : (2 ^ 20 : Nat) ∣ 2 ^ 24 := by decide
  rw [narrow, toInt_slice _ (by omega), placed, BitVec.toInt_add,
    BitVec.toInt_signExtend_of_le (by omega), toInt_slice _ (by omega), toInt_scaled,
    Int.add_bmod_bmod, Int.pow_zero, Int.ediv_one, Int.bmod_bmod_of_dvd wide]
  rfl

theorem narrow_placed_iff (old new : BitVec 20) (raised : BitVec 24) :
    narrow (placed old (scaled old new raised)) = new ↔ Reaches old new raised := by
  have rest : old.toInt + (new.toInt - old.toInt) * raised.toInt / 1048576 - new.toInt =
      (new.toInt - old.toInt) * raised.toInt / 1048576 - (new.toInt - old.toInt) := by
    ring
  rw [← BitVec.toInt_inj, toInt_narrow_placed, ← BitVec.toInt_bmod_cancel new,
    Int.bmod_eq_bmod_iff_bmod_sub_eq_zero, ← Int.dvd_iff_bmod_eq_zero, BitVec.toInt_bmod_cancel,
    rest]
  rfl

/-- A raised cosine between zero and one goes the whole way only when nothing is left of the
difference after rounding down. -/
theorem reaches_iff {raised : BitVec 24} (low : 0 ≤ raised.toInt) (high : raised.toInt ≤ 1048576) :
    Reaches old new raised ↔
      old = new ∨ (old.toInt < new.toInt ∧ raised.toInt = 1048576) ∨
        (new.toInt < old.toInt ∧ (old.toInt - new.toInt) * (1048576 - raised.toInt) < 1048576) := by
  have bounds := toInt_bounds old
  have bounds' := toInt_bounds new
  have between := along_between old.toInt new.toInt low high (by omega)
  have whole : Reaches old new raised ↔
      (new.toInt - old.toInt) * raised.toInt / 1048576 = new.toInt - old.toInt := by
    constructor
    · intro divides
      refine Int.sub_eq_zero.1 (Int.eq_zero_of_abs_lt_dvd divides ?_)
      unfold Toward along at between
      rw [abs_lt]
      omega
    · intro same
      rw [Reaches, same, Int.sub_self]
      exact Int.dvd_zero _
  have floor : (new.toInt - old.toInt) * raised.toInt / 1048576 = new.toInt - old.toInt ↔
      0 ≤ (old.toInt - new.toInt) * (1048576 - raised.toInt) ∧
        (old.toInt - new.toInt) * (1048576 - raised.toInt) < 1048576 := by
    have product : (old.toInt - new.toInt) * (1048576 - raised.toInt) =
        (new.toInt - old.toInt) * raised.toInt - (new.toInt - old.toInt) * 1048576 := by
      ring
    rw [product]
    generalize (new.toInt - old.toInt) * raised.toInt = part
    omega
  rw [whole, floor, ← BitVec.toInt_inj]
  rcases Int.lt_trichotomy old.toInt new.toInt with up | level | down
  · constructor
    · rintro ⟨nonneg, -⟩
      have none_left : 1048576 - raised.toInt ≤ 0 := by
        by_contra some_left
        have negative := Int.mul_neg_of_neg_of_pos (Int.sub_neg_of_lt up) (Int.not_le.1 some_left)
        omega
      exact .inr (.inl ⟨up, by omega⟩)
    · rintro (same | ⟨-, full⟩ | ⟨down, -⟩)
      · omega
      · rw [full]
        omega
      · omega
  · rw [level]
    simp
  · have nonneg : 0 ≤ (old.toInt - new.toInt) * (1048576 - raised.toInt) :=
      Int.mul_nonneg (by omega) (by omega)
    constructor
    · rintro ⟨-, less⟩
      exact .inr (.inr ⟨down, less⟩)
    · rintro (same | ⟨up, -⟩ | ⟨-, less⟩)
      · omega
      · omega
      · exact ⟨nonneg, less⟩

/-- The first pending outputs are those of the pipeline's registers. -/
theorem pending_same {s s' : Regs} {taken taken' : BitVec 24} (rampout : s.rampout = s'.rampout)
    (rampoutFp : s.rampoutFp = s'.rampoutFp) (rampoutWdiff : s.rampoutWdiff = s'.rampoutWdiff)
    (raisedCos : s.raisedCos = s'.raisedCos) {k : Nat} (early : k < 5) :
    pending old new shown taken s k = pending old new shown taken' s' k := by
  match k, early with
  | 0, _ => exact rampout
  | 1, _ => exact congrArg narrow rampoutFp
  | 2, _ => exact congrArg (fun wdiff => narrow (placed old wdiff)) rampoutWdiff
  | 3, _ => exact congrArg (fun raised => narrow (placed old (scaled old new raised))) raisedCos
  | 4, _ => rw [pending, pending]

theorem due_left {k : Nat} (early : k < 5) :
    due cosine incs old new shown left k = pending old new shown shown left k := by
  match k, early with
  | 0, _ | 1, _ | 2, _ | 3, _ | 4, _ => rfl

/-- The last output of a ramp, when the phase crosses zero with the `n`th increment. -/
theorem due_last {n : Nat} (positive : 0 < n) :
    due cosine incs old new shown left (n + 2) =
      narrow (placed old (scaled old new (lastRaised cosine incs left.raisedCos shown n))) := by
  match n with
  | 1 | 2 => rfl
  | n + 3 => rfl

theorem Crosses.positive {n : Nat} (crosses : Crosses incs n) : 0 < n := by
  rcases Nat.eq_zero_or_pos n with rfl | positive
  · have start : phaseAfter incs 0 = -421657300 := rfl
    have past := crosses.1
    omega
  · exact positive

theorem phaseAfter_low (forward : ∀ n, 0 < (incs n).toInt) (n : Nat) :
    negPi.toInt + n ≤ phaseAfter incs n := by
  induction n with
  | zero => exact Int.le_of_eq (Int.add_zero _)
  | succ n ih =>
      have more := forward n
      rw [phaseAfter]
      omega

/-- Increments that go forward take the phase past zero. -/
theorem crosses_exists (forward : ∀ n, 0 < (incs n).toInt) : ∃ n, Crosses incs n := by
  have past : ∃ n, 0 < phaseAfter incs n := by
    refine ⟨421657301, ?_⟩
    have reached := phaseAfter_low forward 421657301
    have start : negPi.toInt = -421657300 := by decide
    omega
  classical
  exact ⟨Nat.find past, Nat.find_spec past, fun m early => Int.not_lt.1 (Nat.find_min past early)⟩

/-- Until the crossing the phase on the core's input is between its start and zero. -/
theorem phaseShown_between (forward : ∀ n, 0 < (incs n).toInt) {last n : Nat}
    (crosses : Crosses incs last) (early : n < last) :
    (phaseTop negPi).toInt ≤ (phaseShown incs n).toInt ∧ (phaseShown incs n).toInt ≤ 0 := by
  cases n with
  | zero => exact ⟨Int.le_refl _, show (phaseTop negPi).toInt ≤ 0 by decide⟩
  | succ n =>
      have start := phaseAfter_low forward n
      have before := crosses.2 n (by omega)
      have lowest : negPi.toInt = -421657300 := by decide
      have value : (BitVec.ofInt 32 (phaseAfter incs n)).toInt = phaseAfter incs n :=
        toInt_exact (BitVec.toInt_ofInt _) (by omega) (by omega)
      rw [phaseShown, toInt_phaseTop, toInt_phaseTop, value]
      omega

end Arithmetic

/-- A ramp from `old` to `new` after `n` ticks, its phase crossing zero with increment `last`. -/
structure Passing (cosine : BitVec 24 → BitVec 24) (incs : Nat → BitVec 32) (last : Nat)
    (old new : BitVec 20) (shown : BitVec 24) (left : Regs) (n : Nat) (now : BitVec 24)
    (s : Regs) : Prop where
  start : s.oldSetpt = old
  phase : n ≤ last → s.phase.toInt = phaseAfter incs n
  phaseOut : n ≤ last → s.phaseOut = phaseShown incs n
  lastPoint : n ≤ last + 1 → s.lastPoint = decide (n = last + 1)
  bound : n ≤ last + 2
  active : s.state = .runRamp ↔ n ≤ last + 1
  coming : ∀ k, k < 5 → k + n ≤ last + 5 →
    pending old new now (cosine s.phaseOut) s k = due cosine incs old new shown left (k + n)

section Passing

variable {cosine : BitVec 24 → BitVec 24} {incs : Nat → BitVec 32} {last n : Nat}
  {old new : BitVec 20} {shown now : BitVec 24} {left s : Regs} {i : Ports}

/-- The phase moves on by one increment until it has crossed zero. -/
theorem Passing.phase_tick (passing : Passing cosine incs last old new shown left n now s)
    (crosses : Crosses incs last) (early : n < last) (takes : i.phaseInc = incs n)
    (forward : 0 < (incs n).toInt) :
    (rampTick s i).phase.toInt = phaseAfter incs (n + 1) ∧
    (rampTick s i).phaseOut = phaseShown incs (n + 1) ∧
    (rampTick s i).lastPoint = false := by
  have here := passing.phase (Nat.le_of_lt early)
  have back : ¬ 0 < s.phase.toInt := by
    have before := crosses.2 n early
    omega
  have unmarked : s.lastPoint = false := by
    rw [passing.lastPoint (by omega), decide_eq_false_iff_not]
    omega
  have bounds := toInt_bounds s.phase
  have bounds' := toInt_bounds i.phaseInc
  have sum : (s.phase + i.phaseInc).toInt = s.phase.toInt + i.phaseInc.toInt := by
    rw [← takes] at forward
    exact toInt_exact (BitVec.toInt_add _ _) (by omega) (by omega)
  refine ⟨?_, ?_, ?_⟩
  · simp only [rampTick, if_neg back]
    rw [sum, here, takes, phaseAfter]
  · simp only [rampTick, if_neg back]
    rw [phaseShown, ← here, BitVec.ofInt_toInt]
  · simp [rampTick, back, unmarked]

/-- The tick after the crossing marks the last point. -/
theorem Passing.crossing_tick (passing : Passing cosine incs last old new shown left last now s)
    (crosses : Crosses incs last) : (rampTick s i).lastPoint = true := by
  have here := passing.phase (Nat.le_refl last)
  have past : 0 < s.phase.toInt := by
    rw [here]
    exact crosses.1
  simp [rampTick, past]

/-- A ramp that has just left IDLE. -/
theorem passing_start (left : Regs) (old new prev : BitVec 20) :
    Passing cosine incs last old new shown left 0 shown { left with
      newSetptPrev := prev
      oldSetpt := old
      state := .runRamp
      phase := negPi
      phaseOut := phaseTop negPi
      cnt := 0
      lastPoint := false
      smoothActive := true } := by
  refine ⟨rfl, ?_, ?_, ?_, Nat.zero_le _, ?_, ?_⟩
  · intro _
    rw [phaseAfter]
  · intro _
    rw [phaseShown]
  · intro _
    exact (decide_eq_false (Nat.succ_ne_zero last).symm).symm
  · simp
  · intro k first _
    rw [Nat.add_zero, due_left first]
    exact pending_same rfl rfl rfl rfl first

/-- One tick takes a ramp under way one place further. -/
theorem Passing.tick (passing : Passing cosine incs last old new shown left n now s)
    (crosses : Crosses incs last) (ramp : s.state = .runRamp) (target : i.newSetpt = new)
    (answer : cos i = now) (takes : i.phaseInc = incs n) (forward : 0 < (incs n).toInt) :
    Passing cosine incs last old new shown left (n + 1) (cosine s.phaseOut) (rampTick s i) := by
  have low : n ≤ last + 1 := passing.active.1 ramp
  have mark : s.lastPoint = decide (n = last + 1) := passing.lastPoint low
  refine ⟨passing.start, ?_, ?_, ?_, by omega, ?_, ?_⟩
  · intro early
    exact (passing.phase_tick crosses early takes forward).1
  · intro early
    exact (passing.phase_tick crosses early takes forward).2.1
  · intro early
    rcases Nat.lt_or_eq_of_le (Nat.le_of_succ_le_succ early) with before | rfl
    · rw [(passing.phase_tick crosses before takes forward).2.2]
      exact (decide_eq_false (by omega)).symm
    · rw [passing.crossing_tick crosses, decide_eq_true rfl]
  · by_cases final : n = last + 1
    · simp [rampTick, mark, final]
    · simp only [rampTick, mark, final, decide_false, Bool.false_eq_true, if_false, true_iff]
      omega
  · intro k first inside
    have shift := pending_tick target (cosine s.phaseOut) (cosine (rampTick s i).phaseOut) first
      (s := s)
    rw [passing.start, answer] at shift
    rw [shift, show k + (n + 1) = k + 1 + n by omega]
    rcases Nat.lt_or_eq_of_le first with more | whole
    · exact passing.coming (k + 1) more (by omega)
    · obtain rfl : k = 4 := by omega
      rw [show 4 + 1 + n = n + 5 by omega, due, ← passing.phaseOut (by omega)]
      rfl

end Passing

section Runs

variable {cosine : BitVec 24 → BitVec 24} {s : Regs} {inp : Nat → Ports} {a t : Nat}
  {shown : BitVec 24} {incs : Nat → BitVec 32} {last : Nat}

/-- A ramp under way is where its count of ticks puts it. -/
theorem passing_run (running : ∀ t, (inp t).reset = false) (answers : Answers cosine s inp)
    (leaves : Leaves s inp a) (steady : Steady s inp a) (answer : Shows inp (a + 1) shown)
    (takes : Takes s inp a incs) (forward : ∀ n, 0 < (incs n).toInt) (crosses : Crosses incs last)
    (inRamp : InRamp s inp a t) :
    ∃ now n, Shows inp t now ∧
      ticksBefore (ticks inp) t = ticksBefore (ticks inp) (a + 1) + n ∧
      Passing cosine incs last (inp a).curSetpt (inp a).newSetpt shown (run step s inp a) n now
        (run step s inp t) := by
  refine ramp_induction (P := fun t => ∃ now n, Shows inp t now ∧
    ticksBefore (ticks inp) t = ticksBefore (ticks inp) (a + 1) + n ∧
    Passing cosine incs last (inp a).curSetpt (inp a).newSetpt shown (run step s inp a) n now
      (run step s inp t)) running ?_ ?_ ?_ inRamp
  · have start := idle_leaves (running a) leaves.1 leaves.2
    refine ⟨shown, 0, answer, rfl, ?_⟩
    rw [run_succ, start]
    exact passing_start _ _ _ _
  · rintro u - ⟨now, n, showsNow, count, passing⟩ waits kept
    exact ⟨now, n, showsNow.wait waits, by rw [ticksBefore_idle waits, count], kept ▸ passing⟩
  · rintro u here ⟨now, n, showsNow, count, passing⟩ fires state ticked
    have taken : (inp u).phaseInc = incs n := by
      rw [takes u here state fires, count, Nat.add_sub_cancel_left]
    refine ⟨_, n + 1, answers u fires, ?_, ?_⟩
    · rw [ticksBefore_tick fires, count, Nat.add_assoc]
    · rw [ticked]
      exact passing.tick crosses state (steady u here state).1 (showsNow.here fires) taken
        (forward n)

/-- A ramp returns to IDLE two ticks after the crossing, with the output due then. -/
theorem return_due (running : ∀ t, (inp t).reset = false) (answers : Answers cosine s inp)
    (leaves : Leaves s inp a) (steady : Steady s inp a) (answer : Shows inp (a + 1) shown)
    (takes : Takes s inp a incs) (forward : ∀ n, 0 < (incs n).toInt) (crosses : Crosses incs last)
    (inRamp : InRamp s inp a t) (idle : (run step s inp t).state = .idle) :
    (run step s inp t).rampout =
      due cosine incs (inp a).curSetpt (inp a).newSetpt shown (run step s inp a) (last + 2) := by
  obtain ⟨now, n, -, -, passing⟩ :=
    passing_run running answers leaves steady answer takes forward crosses inRamp
  have over_last : ¬ n ≤ last + 1 := by
    rw [← passing.active, idle]
    decide
  have bound := passing.bound
  obtain rfl : n = last + 2 := by omega
  have out := passing.coming 0 (by omega) (by omega)
  rw [Nat.zero_add] at out
  exact out

/-- When a ramp returns to IDLE its output is at the target exactly when the raised cosine
of the phase four increments before the crossing takes it there; going up that is only a
whole one. -/
theorem return_at_target_iff (ideal : IdealCosine cosine) (running : ∀ t, (inp t).reset = false)
    (answers : Answers cosine s inp) (steady : ∀ a, Leaves s inp a → Steady s inp a) :
    ∀ a b shown incs, Leaves s inp a → InRamp s inp a b → (run step s inp b).state = .idle →
      Shows inp (a + 1) shown → Takes s inp a incs → (∀ n, 0 < (incs n).toInt) →
      ∃ last, Crosses incs last ∧
        let old := (inp a).curSetpt
        let new := (inp a).newSetpt
        let raised := lastRaised cosine incs (run step s inp a).raisedCos shown last
        ((run step s inp b).rampout = new ↔ Reaches old new raised) ∧
        (3 ≤ last → (Reaches old new raised ↔
          old = new ∨ (old.toInt < new.toInt ∧ raised.toInt = 1048576) ∨
          (new.toInt < old.toInt ∧
            (old.toInt - new.toInt) * (1048576 - raised.toInt) < 1048576))) := by
  intro a b shown incs leaves returns idle answer takes forward
  obtain ⟨last, crosses⟩ := crosses_exists forward
  refine ⟨last, crosses, ?_, ?_⟩
  · rw [return_due running answers leaves (steady a leaves) answer takes forward crosses returns
      idle, due_last crosses.positive]
    exact narrow_placed_iff _ _ _
  · intro three
    obtain ⟨n, rfl⟩ := Nat.exists_eq_add_of_le' three
    obtain ⟨low, high⟩ := phaseShown_between forward crosses (n := n) (by omega)
    obtain ⟨first, final⟩ := ideal.bounds low high
    have value : (raise (cosine (phaseShown incs n))).toInt =
        ((cosine (phaseShown incs n)).toInt + 1048576) / 2 := toInt_raise first final
    apply reaches_iff
    · change 0 ≤ (raise (cosine (phaseShown incs n))).toInt
      omega
    · change (raise (cosine (phaseShown incs n))).toInt ≤ 1048576
      omega

end Runs

private theorem first_in_ramp : InRamp afterReset.ramp afterResetInp 0 6 := by
  refine ⟨by omega, ?_⟩
  intro u low high
  have all : ∀ u, u < 6 → 0 < u →
      (run (Loop.step straight) afterReset twoSetpoints u).ramp.state = .runRamp := by
    decide +kernel
  rw [looped]
  exact all u high low

private theorem first_returns : (run step afterReset.ramp afterResetInp 6).state = .idle := by
  rw [looped]
  decide +kernel

/-- A tick at every clock, and a way down of two steps in ten increments. -/
def shortDescent (_ : Nat) : Ports where
  reset := false
  tenkhzTrig := true
  curSetpt := 1002
  newSetpt := 1000
  phaseInc := 42165731
  cordicDout := 0

/-- What the ramp generator sees in the loop on that way down. -/
def descentInp : Nat → Ports := Loop.driven straight afterReset shortDescent

private theorem descended (t : Nat) : run step afterReset.ramp descentInp t =
    (run (Loop.step straight) afterReset shortDescent t).ramp :=
  (Loop.ramp_run t).symm

private theorem descent_leaves : Leaves afterReset.ramp descentInp 0 := by
  rw [Leaves, descended, descended]
  decide +kernel

private theorem descent_in_ramp : InRamp afterReset.ramp descentInp 0 13 := by
  refine ⟨by omega, ?_⟩
  intro u low high
  have all : ∀ u, u < 13 → 0 < u →
      (run (Loop.step straight) afterReset shortDescent u).ramp.state = .runRamp := by
    decide +kernel
  rw [descended]
  exact all u high low

private theorem descent_returns : (run step afterReset.ramp descentInp 13).state = .idle := by
  rw [descended]
  decide +kernel

private theorem descent_crosses {last : Nat} (crosses : Crosses (fun _ => 42165731#32) last) :
    last = 10 := by
  have before : ∀ m, m < 10 → phaseAfter (fun _ => 42165731#32) m ≤ 0 := by decide
  rcases Nat.lt_trichotomy last 10 with early | ten | late
  · exact absurd crosses.1 (Int.not_lt.2 (before last early))
  · exact ten
  · exact absurd (crosses.2 10 late) (by decide)

/-- The first ramp after the reset, with its three increments, and the way down, which ends at its
target. -/
theorem short_ramps_end :
    (∃ last, Crosses (fun _ => 210828650#32) last ∧
      let raised := lastRaised straight (fun _ => 210828650#32) 0 (straight (phaseTop negPi)) last
      ((run step afterReset.ramp afterResetInp 6).rampout = 1000 ↔ Reaches 0 1000 raised) ∧
      (3 ≤ last → (Reaches 0 1000 raised ↔
        (0 : BitVec 20) = 1000 ∨ ((0 : BitVec 20).toInt < (1000 : BitVec 20).toInt ∧
          raised.toInt = 1048576) ∨
        ((1000 : BitVec 20).toInt < (0 : BitVec 20).toInt ∧
          ((0 : BitVec 20).toInt - (1000 : BitVec 20).toInt) * (1048576 - raised.toInt) <
            1048576)))) ∧
      (run step afterReset.ramp descentInp 13).rampout = 1000 := by
  constructor
  · refine return_at_target_iff straight_ideal (fun _ => rfl) Loop.answers setpoints_steady 0 6
      (straight (phaseTop negPi)) (fun _ => 210828650#32) first_leaves first_in_ramp first_returns
      ?_ ?_ ?_
    · rintro u ⟨le, -, between⟩
      rcases Nat.eq_or_lt_of_le le with rfl | later
      · decide +kernel
      · exact absurd (between 1 (Nat.le_refl 1) later) (by decide)
    · intro t _ _ _
      rfl
    · intro _
      decide
  · have steady : ∀ a, Leaves afterReset.ramp descentInp a → Steady afterReset.ramp descentInp a :=
      fun a leaves t inRamp state => ⟨rfl, show 0 < (42165731#32).toInt by decide⟩
    have shown : Shows descentInp 1 (straight (phaseTop negPi)) := by
      rintro u ⟨le, -, between⟩
      rcases Nat.eq_or_lt_of_le le with rfl | later
      · decide +kernel
      · exact absurd (between 1 (Nat.le_refl 1) later) (by decide)
    obtain ⟨last, crosses, arrives, reaches⟩ := return_at_target_iff straight_ideal (fun _ => rfl)
      Loop.answers steady 0 13 _ (fun _ => 42165731#32) descent_leaves descent_in_ramp
      descent_returns shown (fun t _ _ _ => rfl) (fun _ => by decide)
    obtain rfl := descent_crosses crosses
    have little : (1002 - 1000) * (1048576 - (lastRaised straight (fun _ => 42165731#32) 0
        (straight (phaseTop negPi)) 10).toInt) < 1048576 := by
      decide +kernel
    exact arrives.2 ((reaches (by decide)).2 (.inr (.inr ⟨by decide, little⟩)))

/-- A ramp of two increments to zero has returned at its start value. -/
theorem first_ramp_falls_short :
    IdealCosine straight ∧ Answers straight afterReset.ramp afterResetInp ∧
    (∀ a, Leaves afterReset.ramp afterResetInp a → Steady afterReset.ramp afterResetInp a) ∧
    ¬ ∀ a b, Leaves afterReset.ramp afterResetInp a → InRamp afterReset.ramp afterResetInp a b →
      (run step afterReset.ramp afterResetInp b).state = .idle →
      (run step afterReset.ramp afterResetInp b).rampout = (afterResetInp a).newSetpt := by
  refine ⟨straight_ideal, Loop.answers, setpoints_steady, ?_⟩
  intro arrives
  have out := arrives 0 6 first_leaves first_in_ramp first_returns
  rw [looped] at out
  exact absurd out (by decide +kernel)

end PscDigpid.Hdl.SmoothRamp
