/- Unit: PscDigpid/Hdl/DacOutput
   layer: result
   source: src/hw/hdl/dac_chan.vhd, src/hw/hdl/dac_gainoffset.vhd, src/hw/hdl/dac_ad5781.vhd
   digest: Every tick sends the converter one setpoint, that of the source at the tick. -/

import PscDigpid.Hdl.DacChan
import PscDigpid.Hdl.DacSaturation
import PscDigpid.Hdl.DacTransfer

set_option autoImplicit false
set_option relaxedAutoImplicit false

namespace PscDigpid.Hdl

open PscDigpid.Sync

namespace DacGainoffset

/-- A tick that a conversion may start at. -/
def trigger (inp : Nat → Ports) (t : Nat) : Bool := (inp t).tenkhzTrig && !(inp t).reset

/-- The operands of the conversion that starts at clock `u`, each from the clock it is taken at. -/
def operandsAt (inp : Nat → Ports) (u : Nat) : Operands :=
  ⟨(inp (u + 4)).numbitsSel, (inp (u + 1)).dacSetptRaw, (inp (u + 1)).dacCntrl.offset,
    (inp (u + 2)).dacCntrl.gain⟩

/-- Where a conversion of `o` is `a` clocks after its tick. -/
def Turn (o : Operands) (s : Regs) : Nat → Prop
  | 0 => s.state = .idle
  | 1 => s.state = .applyOffsets ∧ s.done = false
  | 2 => s.state = .applyGains ∧ s.done = false ∧ s.dacSetptOc = o.oc
  | 3 => s.state = .scale ∧ s.done = false ∧ s.multdlycnt = 0 ∧ s.dacSetptOc = o.oc ∧
      s.dacSetptFs = o.oc.signExtend 44 * o.gain.signExtend 44
  | 4 => s.state = .checkforsat ∧ s.done = false ∧ s.multdlycnt = 0 ∧ s.dacSetptOc = o.oc ∧
      s.dacSetpt = o.sliced
  | k + 5 => s.state = .multDly ∧ s.done = false ∧ s.multdlycnt = BitVec.ofNat 4 k ∧
      s.dacSetpt = o.converted

section Step

variable {o : Operands} {s : Regs} {i : Ports}

theorem turn_one (idle : s.state = .idle) (live : i.reset = false) (tick : i.tenkhzTrig = true) :
    Turn o (step s i) 1 := by
  simp [Turn, step, live, idle, tick]

theorem turn_two (turn : Turn o s 1) (live : i.reset = false)
    (difference : i.dacSetptRaw - i.dacCntrl.offset = o.oc) : Turn o (step s i) 2 := by
  obtain ⟨state, done⟩ := turn
  simp [Turn, step, live, state, done, difference]

theorem turn_three (turn : Turn o s 2) (live : i.reset = false) (gain : i.dacCntrl.gain = o.gain) :
    Turn o (step s i) 3 := by
  obtain ⟨state, done, oc⟩ := turn
  simp [Turn, step, live, state, done, oc, gain]

theorem turn_four (turn : Turn o s 3) (live : i.reset = false) : Turn o (step s i) 4 := by
  obtain ⟨state, done, count, oc, fs⟩ := turn
  simp [Turn, step, live, state, done, count, oc, fs, Operands.sliced]

theorem turn_five (turn : Turn o s 4) (live : i.reset = false) (sel : i.numbitsSel = o.sel) :
    Turn o (step s i) 5 := by
  obtain ⟨state, done, count, oc, setpt⟩ := turn
  simp [Turn, step, live, state, done, count, oc, setpt, sel, Operands.converted]

theorem turn_next {k : Nat} (turn : Turn o s (k + 5)) (live : i.reset = false) (few : k < 6) :
    Turn o (step s i) (k + 6) := by
  obtain ⟨state, done, count, setpt⟩ := turn
  have going : s.multdlycnt ≠ 6#4 := by
    intro full
    have same := congrArg BitVec.toNat (count.symm.trans full)
    rw [BitVec.toNat_ofNat, Nat.mod_eq_of_lt (by omega)] at same
    exact absurd same (Nat.ne_of_lt few)
  have counted : s.multdlycnt + 1#4 = BitVec.ofNat 4 (k + 1) := by
    rw [count, BitVec.ofNat_add]
  simp [Turn, step, live, state, done, going, setpt, counted]

theorem turn_last (turn : Turn o s 11) (live : i.reset = false) :
    (step s i).state = .idle ∧ (step s i).done = true ∧ (step s i).dacSetpt = o.converted := by
  obtain ⟨state, done, count, setpt⟩ := turn
  simp [step, live, state, count, setpt]

end Step

section Runs

variable {s : Regs} {inp : Nat → Ports} {gap t u : Nat}

/-- After a tick in IDLE the conversion is where its age says. -/
theorem turn_run (idle : (run step s inp u).state = .idle) (fires : trigger inp u = true)
    (live : ∀ v, u ≤ v → (inp v).reset = false) {a : Nat} (from_one : 1 ≤ a) (upto : a ≤ 11) :
    Turn (operandsAt inp u) (run step s inp (u + a)) a := by
  have now (a : Nat) : (inp (u + a)).reset = false := live _ (Nat.le_add_right u a)
  induction a, from_one using Nat.le_induction with
  | base => exact turn_one idle (now 0) (Bool.and_eq_true_iff.1 fires).1
  | succ a from_one ih =>
    have turn := ih (Nat.le_of_succ_le upto)
    rw [← Nat.add_assoc, run_succ]
    obtain rfl | rfl | rfl | rfl | later : a = 1 ∨ a = 2 ∨ a = 3 ∨ a = 4 ∨ 5 ≤ a := by omega
    · exact turn_two turn (now 1) rfl
    · exact turn_three turn (now 2) rfl
    · exact turn_four turn (now 3)
    · exact turn_five turn (now 4) rfl
    · obtain ⟨k, rfl⟩ := Nat.exists_eq_add_of_le' later
      exact turn_next turn (now (k + 5)) (by omega)

theorem turn_done (idle : (run step s inp u).state = .idle) (fires : trigger inp u = true)
    (live : ∀ v, u ≤ v → (inp v).reset = false) :
    (run step s inp (u + 12)).state = .idle ∧ (run step s inp (u + 12)).done = true ∧
      (run step s inp (u + 12)).dacSetpt = (operandsAt inp u).converted :=
  turn_last (turn_run idle fires live (Nat.le_add_left 1 10) (Nat.le_refl 11))
    (live _ (Nat.le_add_right u 11))

theorem Turn.busy {o : Operands} {a : Nat} (turn : Turn o s a) (from_one : 1 ≤ a) :
    s.state ≠ .idle ∧ s.done = false := by
  obtain rfl | rfl | rfl | rfl | later : a = 1 ∨ a = 2 ∨ a = 3 ∨ a = 4 ∨ 5 ≤ a := by omega
  · exact ⟨by simp [turn.1], turn.2⟩
  · exact ⟨by simp [turn.1], turn.2.1⟩
  · exact ⟨by simp [turn.1], turn.2.1⟩
  · exact ⟨by simp [turn.1], turn.2.1⟩
  · obtain ⟨k, rfl⟩ := Nat.exists_eq_add_of_le' later
    exact ⟨by simp [turn.1], turn.2.1⟩

/-- Two ticks are at least `gap` clocks apart. -/
def Spaced (gap : Nat) (inp : Nat → Ports) : Prop :=
  ∀ t u, trigger inp t = true → trigger inp u = true → t < u → t + gap ≤ u

/-- Between two conversions: `done` is up for the clock after a conversion, and the setpoint is
that of the last tick. -/
structure Resting (s : Regs) (inp : Nat → Ports) (t : Nat) : Prop where
  idle : (run step s inp t).state = .idle
  past : ∀ u, trigger inp u = true → u < t → u + 12 ≤ t
  done : (run step s inp t).done = true ↔ ∃ u, trigger inp u = true ∧ t = u + 12
  setpt : ∀ u, trigger inp u = true → u < t → (∀ v, u < v → v < t → trigger inp v = false) →
    (run step s inp t).dacSetpt = (operandsAt inp u).converted

theorem Resting.next (resting : Resting s inp t) (none : trigger inp t = false) :
    Resting s inp (t + 1) := by
  obtain ⟨idle, past, done, setpt⟩ := resting
  have before : ∀ u, trigger inp u = true → u < t + 1 → u < t := by
    intro u fires upto
    apply Nat.lt_of_le_of_ne (Nat.le_of_lt_succ upto)
    rintro rfl
    exact absurd (fires.symm.trans none) (by simp)
  obtain ⟨state, lowered, same⟩ : (run step s inp (t + 1)).state = .idle ∧
      (run step s inp (t + 1)).done = false ∧
      (run step s inp (t + 1)).dacSetpt = (run step s inp t).dacSetpt := by
    rw [run_succ]
    cases reset : (inp t).reset with
    | true => simp [step, reset, idle]
    | false =>
      have quiet : (inp t).tenkhzTrig = false := by simpa [trigger, reset] using none
      simp [step, reset, idle, quiet]
  refine ⟨state, fun u fires upto => ?_, ?_, fun u fires upto last => ?_⟩
  · exact Nat.le_succ_of_le (past u fires (before u fires upto))
  · rw [lowered]
    refine iff_of_false Bool.false_ne_true ?_
    rintro ⟨u, fires, same⟩
    have long := past u fires (before u fires (by omega))
    omega
  · rw [same]
    exact setpt u fires (before u fires upto) fun v low high => last v low (Nat.lt_succ_of_lt high)

/-- A conversion ends in a rest that shows its result. -/
theorem Resting.converts (resting : Resting s inp u) (fires : trigger inp u = true)
    (live : ∀ v, u ≤ v → (inp v).reset = false) (spaced : Spaced gap inp) (wide : 12 ≤ gap) :
    Resting s inp (u + 12) := by
  obtain ⟨idle, done, setpt⟩ := turn_done resting.idle fires live
  refine ⟨idle, fun v later upto => ?_, ?_, fun v later upto last => ?_⟩
  · obtain early | rfl | late := Nat.lt_trichotomy v u
    · exact Nat.le_trans (resting.past v later early) (Nat.le_add_right u 12)
    · exact Nat.le_refl _
    · have apart := spaced u v fires later late
      omega
  · exact iff_of_true done ⟨u, fires, rfl⟩
  · obtain early | rfl | late := Nat.lt_trichotomy v u
    · exact absurd (fires.symm.trans (last u early (by omega))) (by simp)
    · exact setpt
    · have apart := spaced u v fires later late
      omega

/-- At every clock the unit rests or is in the conversion of a tick. -/
theorem resting_or_turn (start : s.state = .idle ∧ s.done = false)
    (live : ∀ v, 0 < v → (inp v).reset = false) (spaced : Spaced gap inp) (wide : 12 ≤ gap)
    (t : Nat) : Resting s inp t ∨ ∃ u a, Resting s inp u ∧ trigger inp u = true ∧ t = u + a ∧
      1 ≤ a ∧ a ≤ 11 ∧ Turn (operandsAt inp u) (run step s inp t) a := by
  have after : ∀ u, trigger inp u = true → ∀ v, u ≤ v → (inp v).reset = false := by
    intro u fires v le
    obtain rfl | later := Nat.eq_or_lt_of_le le
    · simpa using (Bool.and_eq_true_iff.1 fires).2
    · exact live v (Nat.zero_lt_of_lt later)
  induction t with
  | zero =>
    refine .inl ⟨start.1, fun u _ early => absurd early (Nat.not_lt_zero u), ?_,
      fun u _ early => absurd early (Nat.not_lt_zero u)⟩
    rw [run_zero, start.2]
    refine iff_of_false Bool.false_ne_true ?_
    rintro ⟨u, -, same⟩
    omega
  | succ t ih =>
    rcases ih with resting | ⟨u, a, resting, fires, rfl, from_one, upto, -⟩
    · cases fires : trigger inp t with
      | true =>
        exact .inr ⟨t, 1, resting, fires, rfl, Nat.le_refl 1, by omega,
          turn_run resting.idle fires (after t fires) (Nat.le_refl 1) (by omega)⟩
      | false => exact .inl (resting.next fires)
    · obtain more | rfl := Nat.lt_or_eq_of_le upto
      · exact .inr ⟨u, a + 1, resting, fires, rfl, by omega, more,
          turn_run resting.idle fires (after u fires) (by omega) more⟩
      · exact .inl (resting.converts fires (after u fires) spaced wide)

theorem done_iff (start : s.state = .idle ∧ s.done = false)
    (live : ∀ v, 0 < v → (inp v).reset = false) (spaced : Spaced gap inp) (wide : 12 ≤ gap) :
    (run step s inp t).done = true ↔ ∃ u, trigger inp u = true ∧ t = u + 12 := by
  rcases resting_or_turn start live spaced wide t with
    resting | ⟨u, a, -, fires, rfl, from_one, upto, turn⟩
  · exact resting.done
  · rw [(turn.busy from_one).2]
    refine iff_of_false Bool.false_ne_true ?_
    rintro ⟨v, other, same⟩
    have apart := spaced v u other fires (by omega)
    omega

/-- From the end of its conversion to the next tick the setpoint is that of a tick. -/
theorem setpt_of_tick (start : s.state = .idle ∧ s.done = false)
    (live : ∀ v, 0 < v → (inp v).reset = false) (spaced : Spaced gap inp) (wide : 12 ≤ gap)
    (fires : trigger inp u = true) (done : u + 12 ≤ t)
    (last : ∀ v, u < v → v < t → trigger inp v = false) :
    (run step s inp t).dacSetpt = (operandsAt inp u).converted := by
  rcases resting_or_turn start live spaced wide t with
    resting | ⟨v, a, -, other, rfl, from_one, upto, -⟩
  · exact resting.setpt u fires (by omega) last
  · have later : ¬u < v := fun low => by
      rw [last v low (by omega)] at other
      exact Bool.false_ne_true other
    obtain early | rfl := Nat.lt_or_eq_of_le (Nat.not_lt.1 later)
    · have apart := spaced v u other fires early
      omega
    · omega

end Runs

end DacGainoffset

namespace DacChan

section Wiring

variable (s : Regs) (inp : Nat → Ports)

/-- What the gain and offset unit sees. -/
def gainoffLine (t : Nat) : DacGainoffset.Ports := gainoffPorts (run step s inp t) (inp t)

/-- What the converter's controller sees. -/
def spiLine (t : Nat) : DacAd5781.Ports := spiPorts (run step s inp t) (inp t)

/-- The bus to the converter up to clock `t`. -/
def bus (t : Nat) : DacAd5781.Line := DacAd5781.heard spiClkDiv s.spiDac (spiLine s inp) t

theorem spi_run (t : Nat) : (run step s inp t).spiDac =
    run (DacAd5781.step spiClkDiv) s.spiDac (spiLine s inp) t :=
  run_project (fun s : Regs => s.spiDac) spiPorts (fun _ => rfl) t

/-- The operands of the conversion that the tick at clock `u` starts: what the source shows at
the tick, and the corrections at the clocks after it. -/
def operandsOf (u : Nat) : DacGainoffset.Operands :=
  ⟨(inp (u + 4)).dacNumbitsSel, source (run step s inp u) (inp u) (inp u).dacCntrl.mode,
    (inp (u + 1)).dacCntrl.offset, (inp (u + 2)).dacCntrl.gain⟩

/-- The clock at which the setpoint of the tick at clock `u` is taken for the bus. -/
def takenAt (first : Bool) (u : Nat) : Nat := DacAd5781.dataClock spiClkDiv first (u + 12)

/-- The word for the converter when the gain and offset unit shows `setpt`. -/
def wordOf (i : Ports) (setpt : BitVec 20) : BitVec 20 :=
  let shown := if i.digpidEnb then i.controlOut else setpt
  if i.dacNumbitsSel then shown else shown.extractLsb' 0 18 ++ 0#2

/-- The two words for the tick at clock `u`. -/
def wordsOf (first : Bool) (u : Nat) : List (BitVec 24) :=
  [if first then 0x400004#24
    else DacAd5781.writeCtrl ((inp (u + 12)).dacCntrl.cntrl.extractLsb' 0 5),
   DacAd5781.writeDac (wordOf (inp (takenAt first u)) (operandsOf s inp u).converted)]

/-- The words for ticks in turn. -/
def tickWords (first : Bool) : List Nat → List (BitVec 24)
  | [] => []
  | u :: us => wordsOf s inp first u ++ tickWords false us

end Wiring

/-- A tick that is not lost in a reset. -/
def fires (inp : Nat → Ports) (t : Nat) : Bool := (inp t).tenkhzTrig && !(inp t).reset

/-- No reset but perhaps at the first clock, and the ticks are far enough apart for the bus. -/
structure Clocked (inp : Nat → Ports) : Prop where
  live : ∀ t, 0 < t → (inp t).reset = false
  bus_live : ∀ t, 0 < t → (inp t).dacCntrl.reset = false
  spaced : ∀ t u, fires inp t = true → fires inp u = true → t < u → t + 545 ≤ u

section Runs

variable {inp : Nat → Ports} {t u c : Nat}

theorem Clocked.quiet (clocked : Clocked inp) (fired : fires inp t = true) (later : t < u)
    (soon : u < t + 545) : fires inp u = false := by
  cases again : fires inp u with
  | false => rfl
  | true =>
    have apart := clocked.spaced t u fired again later
    omega

theorem operands_eq (fired : fires inp u = true) :
    DacGainoffset.operandsAt (gainoffLine powerUp inp) u = operandsOf powerUp inp u := by
  obtain ⟨tick, live⟩ := Bool.and_eq_true_iff.1 fired
  have loads : (run step powerUp inp (u + 1)).dacSetptRaw =
      source (run step powerUp inp u) (inp u) (inp u).dacCntrl.mode := by
    rw [run_succ, step, if_neg (by simpa using live), if_pos tick]
  rw [operandsOf, ← loads]
  rfl

/-- From the end of its conversion to the next tick, the setpoint is that of the last tick. -/
theorem setpt_shown (clocked : Clocked inp) (fired : fires inp u = true) (done : u + 12 ≤ t)
    (soon : t ≤ u + 545) :
    (run step powerUp inp t).gainoffDac.dacSetpt = (operandsOf powerUp inp u).converted := by
  rw [gainoff_run, ← operands_eq fired]
  refine DacGainoffset.setpt_of_tick ⟨rfl, rfl⟩ clocked.live clocked.spaced (by decide) fired done
    fun v low high => clocked.quiet fired low (by omega)

theorem done_iff (clocked : Clocked inp) (t : Nat) :
    (spiLine powerUp inp t).start = true ↔ ∃ u, fires inp u = true ∧ t = u + 12 := by
  have start : (spiLine powerUp inp t).start =
      (run DacGainoffset.step DacGainoffset.powerUp (gainoffLine powerUp inp) t).done :=
    congrArg DacGainoffset.Regs.done (gainoff_run t)
  rw [start]
  exact DacGainoffset.done_iff ⟨rfl, rfl⟩ clocked.live clocked.spaced (by decide)

theorem bus_course (clocked : Clocked inp) (later : 0 < t) :
    DacAd5781.OnCourse spiClkDiv DacAd5781.powerUp (spiLine powerUp inp) t :=
  DacAd5781.course (.inl rfl) clocked.bus_live (by decide) later

theorem overClock_le (d : Nat) (s : DacAd5781.Regs) (line : Nat → DacAd5781.Ports) (c : Nat) :
    DacAd5781.overClock d s line c ≤ c + 98 * d + 55 := by
  rw [DacAd5781.overClock, DacAd5781.idleClock, DacAd5781.loadClock]
  split <;> omega

/-- Every tick starts a transfer twelve clocks later, and nothing else does. -/
theorem starts_iff (clocked : Clocked inp) (c : Nat) :
    DacAd5781.Starts (run (DacAd5781.step spiClkDiv) DacAd5781.powerUp (spiLine powerUp inp) c)
      (spiLine powerUp inp c) ↔ ∃ u, fires inp u = true ∧ c = u + 12 := by
  constructor
  · intro starts
    exact (done_iff clocked c).1 starts.2.2
  · rintro ⟨u, fired, rfl⟩
    have start := (done_iff clocked (u + 12)).2 ⟨u, fired, rfl⟩
    refine ⟨clocked.bus_live _ (by omega), ?_, start⟩
    rcases bus_course (t := u + 12) clocked (by omega) with settled | ⟨c, begins, before, under⟩
    · exact settled.ready.idle.state
    · obtain ⟨v, earlier, rfl⟩ := (done_iff clocked c).1 begins.starts.2.2
      have apart := clocked.spaced v u earlier fired (by omega)
      have bound := overClock_le spiClkDiv DacAd5781.powerUp (spiLine powerUp inp) (v + 12)
      rw [spiClkDiv] at bound under
      omega

theorem accepted_eq (clocked : Clocked inp) (t : Nat) :
    DacAd5781.accepted spiClkDiv DacAd5781.powerUp (spiLine powerUp inp) (t + 12) =
      (ticksFrom (fires inp) 0 t).map (· + 12) := by
  induction t with
  | zero =>
    rw [ticksFrom_self, List.map_nil, DacAd5781.accepted, List.filter_eq_nil_iff]
    intro c early starts
    obtain ⟨u, -, rfl⟩ := (starts_iff clocked c).1 (of_decide_eq_true starts)
    rw [List.mem_range] at early
    omega
  | succ t ih =>
    rw [ticksFrom_succ _ (Nat.zero_le t), List.map_append, ← ih]
    have at_tick := starts_iff clocked (t + 12)
    cases fired : fires inp t with
    | true => exact DacAd5781.accepted_start (at_tick.2 ⟨t, fired, rfl⟩)
    | false =>
      rw [if_neg Bool.false_ne_true, List.map_nil, List.append_nil]
      refine DacAd5781.accepted_other fun starts => ?_
      obtain ⟨u, other, same⟩ := at_tick.1 starts
      obtain rfl : t = u := by omega
      rw [fired] at other
      exact Bool.false_ne_true other

theorem transferOf_eq (clocked : Clocked inp) (first : Bool) (fired : fires inp u = true) :
    DacAd5781.transferOf spiClkDiv (spiLine powerUp inp) first (u + 12) =
      wordsOf powerUp inp first u := by
  have late : u + 12 ≤ takenAt first u ∧ takenAt first u ≤ u + 545 := by
    rw [takenAt, DacAd5781.dataClock, DacAd5781.loadClock, spiClkDiv]
    split <;> omega
  have data : (spiLine powerUp inp (takenAt first u)).dacData =
      wordOf (inp (takenAt first u)) (operandsOf powerUp inp u).converted := by
    rw [← setpt_shown clocked fired late.1 late.2]
    rfl
  rw [DacAd5781.transferOf, wordsOf, ← data]
  rfl

theorem transfersOf_eq (clocked : Clocked inp) (first : Bool) {us : List Nat}
    (all : ∀ u ∈ us, fires inp u = true) :
    DacAd5781.transfersOf spiClkDiv (spiLine powerUp inp) first (us.map (· + 12)) =
      tickWords powerUp inp first us := by
  induction us generalizing first with
  | nil => rfl
  | cons u us ih =>
    obtain ⟨here, rest⟩ := List.forall_mem_cons.1 all
    rw [List.map_cons, DacAd5781.transfersOf, tickWords, transferOf_eq clocked first here,
      ih false rest]

theorem words_eq (clocked : Clocked inp) (t : Nat) :
    DacAd5781.words spiClkDiv DacAd5781.powerUp (spiLine powerUp inp) (t + 12) =
      tickWords powerUp inp true (ticksFrom (fires inp) 0 t) := by
  rw [DacAd5781.words, accepted_eq clocked]
  refine transfersOf_eq clocked true fun u among => ?_
  exact (mem_ticksFrom.1 among).2.2

/-- When the last transfer is over, everything has been heard. -/
theorem heard_settled (clocked : Clocked inp)
    (ended : ∀ u, u < t → fires inp u = true → u + 545 ≤ t) :
    (bus powerUp inp (t + 12)).frames =
      (tickWords powerUp inp true (ticksFrom (fires inp) 0 t)).map DacAd5781.frameBits := by
  rw [← words_eq clocked]
  rcases bus_course (t := t + 12) clocked (by omega) with settled | ⟨c, begins, before, under⟩
  · exact settled.frames
  · obtain ⟨u, fired, rfl⟩ := (done_iff clocked c).1 begins.starts.2.2
    have last := ended u (by omega) fired
    have bound := overClock_le spiClkDiv DacAd5781.powerUp (spiLine powerUp inp) (u + 12)
    rw [spiClkDiv] at bound under
    omega

theorem tickWords_snoc (s : Regs) (first : Bool) (us : List Nat) (u : Nat) :
    tickWords s inp first (us ++ [u]) =
      tickWords s inp first us ++ wordsOf s inp (first && us.isEmpty) u := by
  induction us generalizing first with
  | nil => simp [tickWords]
  | cons v us ih => simp [tickWords, ih]

/-- No tick has come before clock `u`. -/
def firstTick (inp : Nat → Ports) (u : Nat) : Bool := (ticksFrom (fires inp) 0 u).isEmpty

theorem ticks_over (clocked : Clocked inp) (fired : fires inp u = true) {b : Nat} (after : u < b)
    (soon : b ≤ u + 545) : ticksFrom (fires inp) 0 b = ticksFrom (fires inp) 0 u ++ [u] := by
  refine stretch_induction
    (P := fun b => ticksFrom (fires inp) 0 b = ticksFrom (fires inp) 0 u ++ [u])
    (Nat.succ_le_of_lt after) ?_ fun v low high same => ?_
  · rw [ticksFrom_succ _ (Nat.zero_le u), fired, if_pos rfl]
  · rw [ticksFrom_succ _ (Nat.zero_le v), same,
      clocked.quiet fired low (Nat.lt_of_lt_of_le high soon), if_neg Bool.false_ne_true,
      List.append_nil]

/-- The transfer of a tick adds the two frames of the tick to what was on the bus. -/
theorem frames_of_tick (clocked : Clocked inp) (fired : fires inp u = true) :
    (bus powerUp inp (u + 557)).frames = (bus powerUp inp (u + 12)).frames ++
      (wordsOf powerUp inp (firstTick inp u) u).map DacAd5781.frameBits := by
  have before := heard_settled (t := u) clocked fun v early earlier =>
    clocked.spaced v u earlier fired early
  have after := heard_settled (t := u + 545) clocked fun v early other => by
    obtain low | rfl | high := Nat.lt_trichotomy v u
    · exact Nat.add_le_add_right (Nat.le_of_lt low) 545
    · exact Nat.le_refl _
    · rw [clocked.quiet fired high early] at other
      exact absurd other Bool.false_ne_true
  rw [before, after, ticks_over clocked fired (by omega) (Nat.le_refl _), tickWords_snoc,
    List.map_append, Bool.true_and, firstTick]

/-- The converter hears two frames for each tick and nothing else: one for its control register,
and one with the setpoint that the mode's source shows at the tick, corrected. -/
theorem frames_of_ticks (inp : Nat → Ports) (clocked : Clocked inp) (t : Nat) :
    (bus powerUp inp (t + 12)).frames <+:
        (tickWords powerUp inp true (ticksFrom (fires inp) 0 t)).map DacAd5781.frameBits ∧
      ((∀ u, u < t → fires inp u = true → u + 545 ≤ t) →
        (bus powerUp inp (t + 12)).frames =
          (tickWords powerUp inp true (ticksFrom (fires inp) 0 t)).map DacAd5781.frameBits) := by
  refine ⟨?_, heard_settled clocked⟩
  rw [← words_eq clocked]
  exact (bus_course clocked (Nat.succ_pos _)).heard_initial (by decide)

/-- A setpoint of five by jumps, with a tick at every thousandth clock after the reset. -/
def jumpToFive (t : Nat) : Ports where
  reset := t == 0
  tenkhzTrig := t % 1000 == 1
  dacNumbitsSel := true
  dacCntrl := ⟨5, false, 0, 0x100000, 0, 0, 0, 0, 0, false, false, 3⟩
  digpidEnb := false
  controlOut := 0
  dacRddata := 0
  cordicDout := 0
  fofbDacSetpt := 0

theorem jumpToFive_clocked : Clocked jumpToFive where
  live t later := by simp [jumpToFive, Nat.ne_of_gt later]
  bus_live _ _ := rfl
  spaced t u fired again after := by
    simp only [fires, jumpToFive, Bool.and_eq_true, beq_iff_eq] at fired again
    omega

theorem five_on_bus : (bus powerUp jumpToFive 1012).frames =
    [DacAd5781.frameBits 0x400004#24, DacAd5781.frameBits (DacAd5781.writeDac 5)] := by
  refine ((frames_of_ticks jumpToFive jumpToFive_clocked 1000).2 fun u early fired => ?_).trans ?_
  · simp only [fires, jumpToFive, Bool.and_eq_true, beq_iff_eq] at fired
    omega
  · decide +kernel

end Runs

end DacChan

end PscDigpid.Hdl
