/- Unit: PscDigpid/Hdl/DacTransfer
   layer: result
   source: src/hw/hdl/dac_ad5781.vhd (IDLE to WAIT_SYNC_LOW)
   digest: Every start sends a frame for the control register and then one for the setpoint. -/

import PscDigpid.Hdl.DacFrames

set_option autoImplicit false
set_option relaxedAutoImplicit false

namespace PscDigpid.Hdl.DacAd5781

open PscDigpid.Sync

/-- The frame that writes the converter's control register with the given control bits. -/
def writeCtrl (b : BitVec 5) : BitVec 24 :=
  0#1 ++ 2#3 ++ 0#10 ++ 0#4 ++ BitVec.ofBool (b.getLsbD 1) ++ BitVec.ofBool (b.getLsbD 4) ++
    BitVec.ofBool (b.getLsbD 2) ++ BitVec.ofBool (b.getLsbD 0) ++ BitVec.ofBool (b.getLsbD 3) ++
    0#1

/-- The clock at which the first word of a transfer is in the shift register. -/
def loadClock (first : Bool) (c : Nat) : Nat := c + if first then 1 else 2

/-- The clock at which the controller takes the setpoint of a transfer. -/
def dataClock (d : Nat) (first : Bool) (c : Nat) : Nat := loadClock first c + 49 * d + 20

/-- The clock at which the controller is idle again. -/
def idleClock (d : Nat) (first : Bool) (c : Nat) : Nat := loadClock first c + 98 * d + 53

/-- The word for the control register; the first one after a reset is fixed. -/
def ctrlOf (inp : Nat → Ports) (first : Bool) (c : Nat) : BitVec 24 :=
  if first then 0x400004#24 else writeCtrl (inp c).dacCtrlBits

/-- The two words of the transfer that starts at clock `c`. -/
def transferOf (d : Nat) (inp : Nat → Ports) (first : Bool) (c : Nat) : List (BitVec 24) :=
  [ctrlOf inp first c, writeDac (inp (dataClock d first c)).dacData]

/-- The words of the transfers that start at the given clocks. -/
def transfersOf (d : Nat) (inp : Nat → Ports) (first : Bool) : List Nat → List (BitVec 24)
  | [] => []
  | c :: cs => transferOf d inp first c ++ transfersOf d inp false cs

theorem transfersOf_snoc (d : Nat) (inp : Nat → Ports) (first : Bool) (cs : List Nat) (c : Nat) :
    transfersOf d inp first (cs ++ [c]) =
      transfersOf d inp first cs ++ transferOf d inp (first && cs.isEmpty) c := by
  induction cs generalizing first with
  | nil => simp [transfersOf]
  | cons b cs ih => simp [transfersOf, ih]

/-- Between the frames in a state, for `k` clocks. -/
structure Pausing (state : State) (flags : Nat × Bool) (k : Nat) (s : Regs) : Prop where
  state : s.presentState = state
  clk : s.clkCount = k
  bit : s.bitCount = 0
  flags : (s.initCount, s.setpointSent) = flags

/-- The frame counter and the setpoint flag between two transfers. -/
def restFlags (first : Bool) : Nat × Bool := if first then (0, false) else (2, true)

section Step

variable {d : Nat} {s : Regs} {i : Ports} {flags : Nat × Bool} {n k : Nat} {sent : Bool}

theorem Pausing.resting {state : State} (pausing : Pausing state flags k s)
    (few : k < restCount state) : Resting s := by
  obtain ⟨rfl, rfl, bit, _⟩ := pausing
  exact ⟨few, bit⟩

theorem Shifted.pausing (shifted : Shifted flags s) : Pausing .dacDone flags 0 s :=
  ⟨shifted.state, shifted.clk, shifted.bit, shifted.flags⟩

theorem Pausing.stays {state : State} (pausing : Pausing state flags k s)
    (live : i.reset = false) (more : k + 1 < restCount state) :
    Pausing state flags (k + 1) (step d s i) := by
  obtain ⟨at_state, clk, bit, flags⟩ := pausing
  cases state with
  | dacDone | waitSyncLow =>
    have going : s.clkCount ≠ syncWidth - 1 := by
      rw [clk]
      exact Nat.ne_of_lt (Nat.lt_sub_of_add_lt more)
    simp only [step, shift, live, at_state, going, if_false, Bool.false_eq_true]
    exact ⟨rfl, by rw [clk], bit, flags⟩
  | idle | sendCtrlReg | sendSetpoint => exact absurd more (Nat.not_lt.2 (Nat.le_add_left 1 k))
  | nSyncZero | firstBit | sclkLo | sclkHi => exact absurd more (Nat.not_lt_zero _)

theorem Pausing.quiet (pausing : Pausing .idle flags 0 s) (live : i.reset = false)
    (none : i.start = false) : Pausing .idle flags 0 (step d s i) := by
  obtain ⟨state, clk, bit, flags⟩ := pausing
  simp only [step, shift, live, none, state, if_false, Bool.false_eq_true]
  exact ⟨rfl, clk, bit, flags⟩

/-- The first transfer after a reset loads its word at once. -/
theorem Pausing.first (pausing : Pausing .idle (0, false) 0 s) (live : i.reset = false)
    (start : i.start = true) : Loading 0x400004#24 (0, false) 0 (step d s i) := by
  obtain ⟨state, clk, bit, flags⟩ := pausing
  have none : s.initCount = 0 := congrArg Prod.fst flags
  have unsent : s.setpointSent = false := congrArg Prod.snd flags
  simp only [step, shift, live, start, state, none, if_true, if_false, Bool.false_eq_true]
  exact ⟨rfl, clk, bit, fun early => absurd early (Nat.lt_irrefl 0), rfl, Prod.ext rfl unsent⟩

/-- The later ones take the control bits first. -/
theorem Pausing.later (pausing : Pausing .idle (2, sent) 0 s) (live : i.reset = false)
    (start : i.start = true) : Pausing .sendCtrlReg (2, sent) 0 (step d s i) ∧
      ctrlFrame (step d s i) = writeCtrl i.dacCtrlBits := by
  obtain ⟨state, clk, bit, flags⟩ := pausing
  have two : s.initCount = 2 := congrArg Prod.fst flags
  have some : s.initCount ≠ 0 := by rw [two]; exact Nat.succ_ne_zero 1
  have more : s.initCount ≠ 1 := by rw [two]; exact Nat.succ_succ_ne_one 0
  simp only [step, shift, sample, live, start, state, some, more, if_true, if_false,
    Bool.false_eq_true]
  exact ⟨⟨rfl, clk, bit, flags⟩, rfl⟩

theorem Pausing.control (pausing : Pausing .sendCtrlReg (n, sent) 0 s) (live : i.reset = false) :
    Loading (ctrlFrame s) (n, false) 0 (step d s i) := by
  obtain ⟨state, clk, bit, flags⟩ := pausing
  have count : s.initCount = n := congrArg Prod.fst flags
  simp only [step, shift, live, state, if_false, Bool.false_eq_true]
  exact ⟨rfl, clk, bit, fun early => absurd early (Nat.lt_irrefl 0), rfl, Prod.ext count rfl⟩

/-- Without a setpoint sent, the pause after a frame leads to the setpoint frame. -/
theorem Pausing.forms (pausing : Pausing .dacDone (n, false) (syncWidth - 1) s)
    (live : i.reset = false) : Pausing .sendSetpoint (n, false) 0 (step d s i) := by
  obtain ⟨state, clk, bit, flags⟩ := pausing
  have unsent : s.setpointSent = false := congrArg Prod.snd flags
  have count : s.initCount = n := congrArg Prod.fst flags
  simp only [step, shift, live, state, clk, unsent, if_true, if_false, Bool.false_eq_true]
  exact ⟨rfl, rfl, bit, Prod.ext count rfl⟩

theorem Pausing.setpoint (pausing : Pausing .sendSetpoint (n, sent) 0 s)
    (live : i.reset = false) : Loading (writeDac s.dataInReg) (n, true) 0 (step d s i) := by
  obtain ⟨state, clk, bit, flags⟩ := pausing
  have count : s.initCount = n := congrArg Prod.fst flags
  simp only [step, shift, live, state, if_false, Bool.false_eq_true]
  exact ⟨rfl, clk, bit, fun early => absurd early (Nat.lt_irrefl 0), rfl, Prod.ext count rfl⟩

/-- With one sent, `done` pulses in a pause of its own. -/
theorem Pausing.lowers (pausing : Pausing .dacDone (n, true) (syncWidth - 1) s)
    (live : i.reset = false) : Pausing .waitSyncLow (n, true) 0 (step d s i) := by
  obtain ⟨state, clk, bit, flags⟩ := pausing
  have setpoint : s.setpointSent = true := congrArg Prod.snd flags
  have count : s.initCount = n := congrArg Prod.fst flags
  simp only [step, shift, live, state, clk, setpoint, if_true, if_false, Bool.false_eq_true]
  exact ⟨rfl, rfl, bit, Prod.ext count rfl⟩

theorem Pausing.rests (pausing : Pausing .waitSyncLow flags (syncWidth - 1) s)
    (live : i.reset = false) : Pausing .idle flags 0 (step d s i) := by
  obtain ⟨state, clk, bit, flags⟩ := pausing
  simp only [step, shift, live, state, clk, if_true, if_false, Bool.false_eq_true]
  exact ⟨rfl, rfl, bit, flags⟩

end Step

section Bus

variable {d : Nat} {s : Regs} {inp : Nat → Ports} {t : Nat} {flags : Nat × Bool}

/-- Nothing is heard between the frames. -/
theorem heard_resting {u v : Nat} (le : u ≤ v) (silent : (heard d s inp u).bits = [])
    (live : ∀ t, u ≤ t → (inp t).reset = false)
    (rest : ∀ t, u ≤ t → t < v → Resting (run (step d) s inp t)) :
    heard d s inp v = ⟨[], (heard d s inp u).frames⟩ := by
  refine stretch_induction (P := fun t => heard d s inp t = ⟨[], (heard d s inp u).frames⟩)
    le (by rw [← silent]) ?_
  intro t low before same
  have level : (run (step d) s inp (t + 1)).sclk = (run (step d) s inp t).sclk :=
    ((rest t low before).next (live t low)).2
  have steady : falls d s inp t = false := by rw [falls_eq rfl level, Bool.and_not_self]
  cases sync : (run (step d) s inp (t + 1)).nSync with
  | true =>
    rw [heard_raised sync, same]
    rfl
  | false =>
    rw [heard_low sync, same, steady]
    rfl

theorem heard_mono {u v : Nat} (le : u ≤ v) :
    (heard d s inp u).frames <+: (heard d s inp v).frames := by
  refine stretch_induction (P := fun t => (heard d s inp u).frames <+: (heard d s inp t).frames)
    le (List.prefix_refl _) ?_
  intro t _ _ grown
  refine grown.trans ?_
  cases sync : (run (step d) s inp (t + 1)).nSync with
  | true =>
    rw [heard_raised sync]
    dsimp only
    split_ifs
    · exact List.prefix_append _ _
    · exact List.prefix_refl _
  | false =>
    rw [heard_low sync]

theorem pause_run {state : State} {b k : Nat}
    (pausing : Pausing state flags 0 (run (step d) s inp b))
    (live : ∀ u, b ≤ u → (inp u).reset = false) (few : k < restCount state) :
    Pausing state flags k (run (step d) s inp (b + k)) := by
  induction k with
  | zero => exact pausing
  | succ k ih => exact (ih (Nat.lt_of_succ_lt few)).stays (live _ (Nat.le_add_right b k)) few

/-- The clocks of a pause: nothing is heard, and the controller is not idle. -/
theorem pause_heard {state : State} {a b : Nat}
    (pausing : Pausing state flags 0 (run (step d) s inp b))
    (live : ∀ u, b ≤ u → (inp u).reset = false) (low : b ≤ a) (high : a ≤ b + restCount state)
    (silent : (heard d s inp a).bits = []) :
    heard d s inp (b + restCount state) = ⟨[], (heard d s inp a).frames⟩ := by
  refine heard_resting high silent (fun t le => live t (Nat.le_trans low le)) fun t le lt => ?_
  obtain ⟨k, rfl⟩ := Nat.exists_eq_add_of_le (Nat.le_trans low le)
  have few : k < restCount state := Nat.lt_of_add_lt_add_left lt
  exact (pause_run pausing live few).resting few

theorem pause_busy {state : State} {b : Nat} (busy : state ≠ .idle)
    (pausing : Pausing state flags 0 (run (step d) s inp b))
    (live : ∀ u, b ≤ u → (inp u).reset = false) (low : b ≤ t) (high : t < b + restCount state) :
    (run (step d) s inp t).presentState ≠ .idle := by
  obtain ⟨k, rfl⟩ := Nat.exists_eq_add_of_le low
  rw [(pause_run pausing live (Nat.lt_of_add_lt_add_left high)).state]
  exact busy

theorem frame_busy {w : BitVec 24} {c : Nat} (loading : Loading w flags 0 (run (step d) s inp c))
    (live : ∀ u, c ≤ u → (inp u).reset = false) (pos : 0 < d) (low : c ≤ t)
    (high : t < frameEnd d (c + syncWidth)) : (run (step d) s inp t).presentState ≠ .idle := by
  obtain waits | sends := Nat.lt_or_ge (c + syncWidth) t
  · have ready := loading_run loading live (Nat.le_refl syncWidth)
    obtain ⟨q, r, le, lt, rfl⟩ := half_of pos waits high
    rw [(sending_run ready (fun u le => live u (by omega)) pos le lt).shifting.state, halfState]
    split_ifs <;> simp
  · obtain ⟨j, rfl⟩ := Nat.exists_eq_add_of_le low
    rw [(loading_run loading live (Nat.le_of_add_le_add_left sends)).state]
    simp

end Bus

section Transfer

variable {d : Nat} {s : Regs} {inp : Nat → Ports} {t c : Nat} {first : Bool}

/-- The controller waits for a start, with nothing of a frame on the bus. -/
structure Ready (d : Nat) (s : Regs) (inp : Nat → Ports) (first : Bool) (c : Nat) : Prop where
  idle : Pausing .idle (restFlags first) 0 (run (step d) s inp c)
  silent : (heard d s inp c).bits = []

theorem Ready.quiet (ready : Ready d s inp first t) (live : ∀ u, t ≤ u → (inp u).reset = false)
    (none : (inp t).start = false) : Ready d s inp first (t + 1) ∧
      (heard d s inp (t + 1)).frames = (heard d s inp t).frames := by
  have next : Pausing .idle (restFlags first) 0 (run (step d) s inp (t + 1)) :=
    ready.idle.quiet (live t (Nat.le_refl t)) none
  have line : heard d s inp (t + 1) = ⟨[], (heard d s inp t).frames⟩ :=
    pause_heard ready.idle live (Nat.le_refl t) (Nat.le_succ t) ready.silent
  exact ⟨⟨next, by rw [line]⟩, by rw [line]⟩

/-- A start loads the word for the control register. -/
theorem Ready.loads (ready : Ready d s inp first c) (live : ∀ u, c ≤ u → (inp u).reset = false)
    (start : (inp c).start = true) :
    (∃ n, countInit (countInit n) = 2 ∧
      Loading (ctrlOf inp first c) (n, false) 0 (run (step d) s inp (loadClock first c))) ∧
      heard d s inp (loadClock first c) = ⟨[], (heard d s inp c).frames⟩ ∧
      ∀ t, c < t → t < loadClock first c → (run (step d) s inp t).presentState ≠ .idle := by
  have now := live c (Nat.le_refl c)
  have line : heard d s inp (c + 1) = ⟨[], (heard d s inp c).frames⟩ :=
    pause_heard ready.idle live (Nat.le_refl c) (Nat.le_succ c) ready.silent
  cases first with
  | true =>
    refine ⟨⟨0, rfl, ready.idle.first now start⟩, line, fun t after before => ?_⟩
    exact absurd before (Nat.not_lt.2 after)
  | false =>
    obtain ⟨control, word⟩ : Pausing .sendCtrlReg (2, true) 0 (run (step d) s inp (c + 1)) ∧
        ctrlFrame (run (step d) s inp (c + 1)) = writeCtrl (inp c).dacCtrlBits :=
      ready.idle.later now start
    have after : ∀ u, c + 1 ≤ u → (inp u).reset = false := fun u le => live u (Nat.le_of_succ_le le)
    have loading : Loading (ctrlFrame (run (step d) s inp (c + 1))) (2, false) 0
        (run (step d) s inp (c + 2)) := control.control (live (c + 1) (Nat.le_succ c))
    rw [word] at loading
    have next : heard d s inp (c + 2) = ⟨[], (heard d s inp (c + 1)).frames⟩ :=
      pause_heard control after (Nat.le_refl _) (Nat.le_succ _) (by rw [line])
    refine ⟨⟨2, rfl, loading⟩, next.trans (by rw [line]), fun t low high => ?_⟩
    exact pause_busy (by decide) control after low high

/-- A word for the control register is sent, and then the setpoint is loaded. -/
theorem control_sent {w : BitVec 24} {n l : Nat}
    (loading : Loading w (n, false) 0 (run (step d) s inp l))
    (silent : (heard d s inp l).bits = []) (live : ∀ u, l ≤ u → (inp u).reset = false)
    (pos : 0 < d) :
    Loading (writeDac (inp (l + 49 * d + 20)).dacData) (countInit n, true) 0
        (run (step d) s inp (l + 49 * d + 22)) ∧
      heard d s inp (l + 49 * d + 22) = ⟨[], (heard d s inp l).frames ++ [frameBits w]⟩ ∧
      ∀ t, l ≤ t → t < l + 49 * d + 22 → (run (step d) s inp t).presentState ≠ .idle := by
  obtain ⟨shifted, control⟩ := frame_heard loading live pos silent
  have frame := fun t low high => frame_busy (t := t) loading live pos low high
  have place : frameEnd d (l + syncWidth) = l + 49 * d + 11 := by
    rw [frameEnd, syncWidth]
    omega
  rw [place] at shifted control frame
  have live1 : ∀ u, l + 49 * d + 11 ≤ u → (inp u).reset = false := fun u le => live u (by omega)
  have live2 : ∀ u, l + 49 * d + 21 ≤ u → (inp u).reset = false := fun u le => live u (by omega)
  have waits := shifted.pausing
  have paused : heard d s inp (l + 49 * d + 21) = ⟨[], (heard d s inp (l + 49 * d + 12)).frames⟩ :=
    pause_heard waits live1 (Nat.le_succ _) (Nat.add_le_add_left (Nat.le_add_left 1 9) _)
      (by rw [control])
  have forms : Pausing .sendSetpoint (countInit n, false) 0
      (run (step d) s inp (l + 49 * d + 21)) :=
    (pause_run waits live1 (show 9 < 10 by decide)).forms (live1 _ (by omega))
  have formed : heard d s inp (l + 49 * d + 22) = ⟨[], (heard d s inp (l + 49 * d + 21)).frames⟩ :=
    pause_heard forms live2 (Nat.le_refl _) (Nat.le_succ _) (by rw [paused])
  have taken : (run (step d) s inp (l + 49 * d + 21)).dataInReg =
      (inp (l + 49 * d + 20)).dacData := by
    rw [run_succ]
    simp [step, sample, live (l + 49 * d + 20) (by omega)]
  refine ⟨?_, by rw [formed, paused, control], fun t low high => ?_⟩
  · rw [← taken]
    exact forms.setpoint (live2 _ (Nat.le_refl _))
  · obtain sending | over_frame := Nat.lt_or_ge t (l + 49 * d + 11)
    · exact frame t low sending
    · obtain pause | last := Nat.lt_or_ge t (l + 49 * d + 21)
      · exact pause_busy (by simp) waits live1 over_frame pause
      · exact pause_busy (by simp) forms live2 last high

/-- A setpoint that is loaded is sent, and then the controller is idle. -/
theorem setpoint_sent {w : BitVec 24} {n l : Nat}
    (loading : Loading w (n, true) 0 (run (step d) s inp l)) (finished : countInit n = 2)
    (silent : (heard d s inp l).bits = []) (live : ∀ u, l ≤ u → (inp u).reset = false)
    (pos : 0 < d) :
    Ready d s inp false (l + 49 * d + 31) ∧
      (heard d s inp (l + 49 * d + 31)).frames = (heard d s inp l).frames ++ [frameBits w] ∧
      ∀ t, l ≤ t → t < l + 49 * d + 31 → (run (step d) s inp t).presentState ≠ .idle := by
  obtain ⟨shifted, setpoint⟩ := frame_heard loading live pos silent
  have frame := fun t low high => frame_busy (t := t) loading live pos low high
  have place : frameEnd d (l + syncWidth) = l + 49 * d + 11 := by
    rw [frameEnd, syncWidth]
    omega
  rw [place] at shifted setpoint frame
  have live1 : ∀ u, l + 49 * d + 11 ≤ u → (inp u).reset = false := fun u le => live u (by omega)
  have live2 : ∀ u, l + 49 * d + 21 ≤ u → (inp u).reset = false := fun u le => live u (by omega)
  have waits := shifted.pausing
  rw [finished] at waits
  have paused : heard d s inp (l + 49 * d + 21) = ⟨[], (heard d s inp (l + 49 * d + 12)).frames⟩ :=
    pause_heard waits live1 (Nat.le_succ _) (Nat.add_le_add_left (Nat.le_add_left 1 9) _)
      (by rw [setpoint])
  have lowers : Pausing .waitSyncLow (2, true) 0 (run (step d) s inp (l + 49 * d + 21)) :=
    (pause_run waits live1 (show 9 < 10 by decide)).lowers (live1 _ (by omega))
  have lowered : heard d s inp (l + 49 * d + 31) =
      ⟨[], (heard d s inp (l + 49 * d + 21)).frames⟩ :=
    pause_heard lowers live2 (Nat.le_refl _) (Nat.le_add_right _ 10) (by rw [paused])
  have rests : Pausing .idle (2, true) 0 (run (step d) s inp (l + 49 * d + 31)) :=
    (pause_run lowers live2 (show 9 < 10 by decide)).rests (live2 _ (by omega))
  refine ⟨⟨rests, by rw [lowered]⟩, by rw [lowered, paused, setpoint], fun t low high => ?_⟩
  obtain sending | over_frame := Nat.lt_or_ge t (l + 49 * d + 11)
  · exact frame t low sending
  · obtain pause | last := Nat.lt_or_ge t (l + 49 * d + 21)
    · exact pause_busy (by simp) waits live1 over_frame pause
    · exact pause_busy (by simp) lowers live2 last high

/-- A start sends both words of its transfer, and until then the controller is not idle. -/
theorem Ready.transfer (ready : Ready d s inp first c)
    (live : ∀ u, c ≤ u → (inp u).reset = false) (start : (inp c).start = true) (pos : 0 < d) :
    Ready d s inp false (idleClock d first c) ∧
      (heard d s inp (idleClock d first c)).frames =
        (heard d s inp c).frames ++ (transferOf d inp first c).map frameBits ∧
      ∀ t, c < t → t < idleClock d first c → (run (step d) s inp t).presentState ≠ .idle := by
  obtain ⟨⟨n, finished, loading⟩, line, before⟩ := ready.loads live start
  have low : c ≤ loadClock first c := Nat.le_add_right c _
  obtain ⟨setpoint, control, between⟩ :=
    control_sent loading (by rw [line]) (fun u le => live u (Nat.le_trans low le)) pos
  obtain ⟨rests, frames, busy⟩ :=
    setpoint_sent setpoint finished (by rw [control]) (fun u le => live u (by omega)) pos
  have place : loadClock first c + 49 * d + 22 + 49 * d + 31 = idleClock d first c := by
    rw [idleClock]
    omega
  rw [place] at rests frames busy
  refine ⟨rests, ?_, fun t after early => ?_⟩
  · rw [frames, control, line, transferOf, dataClock, List.append_assoc]
    rfl
  · obtain loads | sending := Nat.lt_or_ge t (loadClock first c)
    · exact before t after loads
    · obtain first | second := Nat.lt_or_ge t (loadClock first c + 49 * d + 22)
      · exact between t sending first
      · exact busy t second early

end Transfer

section Runs

variable {d : Nat} {s : Regs} {inp : Nat → Ports} {t : Nat}

/-- The words that the starts accepted before clock `t` call for. -/
def words (d : Nat) (s : Regs) (inp : Nat → Ports) (t : Nat) : List (BitVec 24) :=
  transfersOf d inp true (accepted d s inp t)

theorem accepted_start (starts : Starts (run (step d) s inp t) (inp t)) :
    accepted d s inp (t + 1) = accepted d s inp t ++ [t] := by
  simp [accepted, List.range_succ, List.filter_append, starts]

theorem accepted_other (other : ¬Starts (run (step d) s inp t) (inp t)) :
    accepted d s inp (t + 1) = accepted d s inp t := by
  simp [accepted, List.range_succ, List.filter_append, other]

/-- At clock `c` the controller is ready and has sent what the starts before called for. -/
structure Settled (d : Nat) (s : Regs) (inp : Nat → Ports) (c : Nat) : Prop where
  ready : Ready d s inp (accepted d s inp c).isEmpty c
  frames : (heard d s inp c).frames = (words d s inp c).map frameBits

/-- The clock at which the transfer that starts at clock `c` is over. -/
def overClock (d : Nat) (s : Regs) (inp : Nat → Ports) (c : Nat) : Nat :=
  idleClock d (accepted d s inp c).isEmpty c

theorem overClock_later (c : Nat) : c < overClock d s inp c := by
  rw [overClock, idleClock, loadClock]
  omega

/-- The start at clock `c` is accepted by a settled controller. -/
structure Begins (d : Nat) (s : Regs) (inp : Nat → Ports) (c : Nat) : Prop where
  settled : Settled d s inp c
  starts : Starts (run (step d) s inp c) (inp c)
  live : ∀ u, c ≤ u → (inp u).reset = false

/-- No other start is accepted until the transfer is over. -/
theorem Begins.accepts {c : Nat} (begins : Begins d s inp c) (pos : 0 < d) (after : c < t)
    (upto : t ≤ overClock d s inp c) :
    accepted d s inp t = accepted d s inp c ++ [c] := by
  obtain ⟨-, -, busy⟩ := begins.settled.ready.transfer begins.live begins.starts.2.2 pos
  refine stretch_induction (P := fun t => accepted d s inp t = accepted d s inp c ++ [c])
    (Nat.succ_le_of_lt after) (accepted_start begins.starts) fun u low high same => ?_
  rw [accepted_other, same]
  exact fun starts => busy u low (Nat.lt_of_lt_of_le high upto) starts.2.1

/-- When it is over, the controller is settled again. -/
theorem Begins.settles {c : Nat} (begins : Begins d s inp c) (pos : 0 < d) :
    Settled d s inp (overClock d s inp c) := by
  have list := begins.accepts pos (overClock_later c) (Nat.le_refl _)
  obtain ⟨ready, frames, -⟩ :=
    begins.settled.ready.transfer begins.live begins.starts.2.2 pos
  constructor
  · rw [list, show (accepted d s inp c ++ [c]).isEmpty = false by simp]
    exact ready
  · rw [words, list, transfersOf_snoc, List.map_append, Bool.true_and]
    exact frames.trans (congrArg (· ++ _) begins.settled.frames)

theorem settled_powerUp (inp : Nat → Ports) : Settled d powerUp inp 0 :=
  ⟨⟨⟨rfl, rfl, rfl, rfl⟩, rfl⟩, rfl⟩

theorem settled_reset (reset : (inp 0).reset = true) (live : ∀ u, 0 < u → (inp u).reset = false) :
    Settled d s inp 1 := by
  obtain ⟨waits, silent⟩ := unstarted_run (d := d) (s := s) reset live
    (fun u low high => absurd high (Nat.not_lt.2 low)) Nat.one_pos
  have none : accepted d s inp 1 = [] := by
    rw [accepted_other fun starts => absurd (starts.1.symm.trans reset) Bool.false_ne_true]
    rfl
  refine ⟨⟨?_, by rw [silent]⟩, ?_⟩
  · rw [none]
    exact ⟨waits.state, waits.clk, waits.bit, waits.flags⟩
  · rw [silent, words, none]
    rfl

/-- The controller is settled or in the transfer of an accepted start. -/
def OnCourse (d : Nat) (s : Regs) (inp : Nat → Ports) (t : Nat) : Prop :=
  Settled d s inp t ∨ ∃ c, Begins d s inp c ∧ c < t ∧ t < overClock d s inp c

theorem OnCourse.next (course : OnCourse d s inp t) (live : ∀ u, t ≤ u → (inp u).reset = false)
    (pos : 0 < d) : OnCourse d s inp (t + 1) := by
  rcases course with settled | ⟨c, begins, before, under⟩
  · cases start : (inp t).start with
    | true =>
      have begins : Begins d s inp t :=
        ⟨settled, ⟨live t (Nat.le_refl t), settled.ready.idle.state, start⟩, live⟩
      refine .inr ⟨t, begins, Nat.lt_succ_self t, ?_⟩
      rw [overClock, idleClock, loadClock]
      omega
    | false =>
      have same : accepted d s inp (t + 1) = accepted d s inp t :=
        accepted_other fun starts => absurd (starts.2.2.symm.trans start) (by simp)
      obtain ⟨ready, frames⟩ := settled.ready.quiet live start
      refine .inl ⟨?_, ?_⟩
      · rw [same]
        exact ready
      · rw [frames, words, same]
        exact settled.frames
  · obtain inner | last := Nat.lt_or_eq_of_le (Nat.succ_le_of_lt under)
    · exact .inr ⟨c, begins, Nat.lt_succ_of_lt before, inner⟩
    · left
      rw [show t + 1 = overClock d s inp c from last]
      exact begins.settles pos

/-- From power-up or a reset on the controller stays on its course. -/
theorem course (begins : s = powerUp ∨ (inp 0).reset = true)
    (live : ∀ u, 0 < u → (inp u).reset = false) (pos : 0 < d) (later : 0 < t) :
    OnCourse d s inp t := by
  induction t, Nat.succ_le_of_lt later using Nat.le_induction with
  | base =>
    cases reset : (inp 0).reset with
    | true => exact .inl (settled_reset reset live)
    | false =>
      obtain rfl : s = powerUp := begins.resolve_right (by simp [reset])
      refine OnCourse.next (.inl (settled_powerUp inp)) (fun u _ => ?_) pos
      obtain rfl | after := Nat.eq_zero_or_pos u
      · exact reset
      · exact live u after
  | succ t from_one ih =>
    exact (ih from_one).next (fun u le => live u (Nat.lt_of_lt_of_le from_one le)) pos

/-- A start is accepted by a settled controller only. -/
theorem begins_of_starts (begins : s = powerUp ∨ (inp 0).reset = true)
    (live : ∀ u, 0 < u → (inp u).reset = false) (pos : 0 < d) {c : Nat}
    (starts : Starts (run (step d) s inp c) (inp c)) : Begins d s inp c := by
  have after : ∀ u, c ≤ u → (inp u).reset = false := by
    intro u le
    obtain rfl | later := Nat.eq_or_lt_of_le le
    · exact starts.1
    · exact live u (Nat.zero_lt_of_lt later)
  obtain rfl | later := Nat.eq_zero_or_pos c
  · obtain rfl : s = powerUp := begins.resolve_right (by simp [starts.1])
    exact ⟨settled_powerUp inp, starts, after⟩
  · rcases course begins live pos later with settled | ⟨b, begins, before, under⟩
    · exact ⟨settled, starts, after⟩
    · obtain ⟨-, -, busy⟩ := begins.settled.ready.transfer begins.live begins.starts.2.2 pos
      exact absurd starts.2.1 (busy c before under)

/-- What has been heard belongs to the accepted starts. -/
theorem OnCourse.heard_initial (course : OnCourse d s inp t) (pos : 0 < d) :
    (heard d s inp t).frames <+: (words d s inp t).map frameBits := by
  obtain settled | ⟨c, begins, before, under⟩ := course
  · rw [settled.frames]
  · rw [words, begins.accepts pos before (Nat.le_of_lt under),
      ← begins.accepts pos (overClock_later c) (Nat.le_refl _), ← words,
      ← (begins.settles pos).frames]
    exact heard_mono (Nat.le_of_lt under)

/-- An idle controller has sent all of it. -/
theorem OnCourse.heard_idle (course : OnCourse d s inp t) (pos : 0 < d)
    (idle : (run (step d) s inp t).presentState = .idle) :
    (heard d s inp t).frames = (words d s inp t).map frameBits := by
  obtain settled | ⟨c, begins, before, under⟩ := course
  · exact settled.frames
  · obtain ⟨-, -, busy⟩ := begins.settled.ready.transfer begins.live begins.starts.2.2 pos
    exact absurd idle (busy t before under)

/-- From power-up or a reset on, whatever the starts and the data are: each start that finds the
controller idle sends two frames, one for the control register and one with the setpoint taken in
between, in this order and nothing else, and the controller is idle again when they are sent. -/
theorem frames_of_starts (d : Nat) (s : Regs) (inp : Nat → Ports) (pos : 0 < d)
    (begins : s = powerUp ∨ (inp 0).reset = true)
    (live : ∀ u, 0 < u → (inp u).reset = false) :
    (∀ t, (heard d s inp t).frames <+: (words d s inp t).map frameBits) ∧
      (∀ t, 0 < t → (run (step d) s inp t).presentState = .idle →
        (heard d s inp t).frames = (words d s inp t).map frameBits) ∧
      ∀ c, Starts (run (step d) s inp c) (inp c) →
        (run (step d) s inp (overClock d s inp c)).presentState = .idle ∧
          ∀ t, c < t → t < overClock d s inp c →
            (run (step d) s inp t).presentState ≠ .idle := by
  refine ⟨fun t => ?_, fun t later idle => ?_, fun c starts => ?_⟩
  · obtain rfl | later := Nat.eq_zero_or_pos t
    · exact List.nil_prefix
    · exact (course begins live pos later).heard_initial pos
  · exact (course begins live pos later).heard_idle pos idle
  · obtain ⟨settled, -, after⟩ := begins_of_starts begins live pos starts
    obtain ⟨ready, -, busy⟩ := settled.ready.transfer after starts.2.2 pos
    exact ⟨ready.idle.state, busy⟩

/-- With `start` high from the reset on, every frame belongs to one of the starts. -/
theorem started_frames : (heard 2 powerUp started 400).frames <+:
    (words 2 powerUp started 400).map frameBits :=
  (frames_of_starts 2 powerUp started Nat.two_pos (.inl rfl)
    fun u later => by simp [started, Nat.ne_of_gt later]).1 400

end Runs

end PscDigpid.Hdl.DacAd5781
