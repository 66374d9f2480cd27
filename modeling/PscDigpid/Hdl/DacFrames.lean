/- Unit: PscDigpid/Hdl/DacFrames
   layer: result
   source: src/hw/hdl/dac_ad5781.vhd (IDLE, SEND_CTRL_REG, SEND_SETPOINT, DAC_DONE)
   digest: The frames that a converter on the bus receives, and the order the starts call for. -/

import Mathlib.Data.Nat.Find
import PscDigpid.Hdl.DacSerial

set_option autoImplicit false
set_option relaxedAutoImplicit false

namespace PscDigpid.Hdl.DacAd5781

open PscDigpid.Sync

/-- What a converter has of the bus: the bits since `n_sync` went low, and the frames that
ended with as many bits as a word has. -/
structure Line where
  bits : List Bool
  frames : List (List Bool)

section Bus

variable (d : Nat) (s : Regs) (inp : Nat → Ports)

/-- The bus up to clock `t`. -/
def heard : Nat → Line
  | 0 => ⟨[], []⟩
  | t + 1 =>
    let line := heard t
    if (run (step d) s inp (t + 1)).nSync then
      ⟨[], if line.bits.length = bits then line.frames ++ [line.bits] else line.frames⟩
    else
      ⟨if falls d s inp t then line.bits ++ [sdo (run (step d) s inp t)] else line.bits,
        line.frames⟩

end Bus

/-- A frame that writes the converter's control register. -/
def WritesCtrl (w : BitVec 24) : Prop := w.extractLsb' 20 4 = 2#4

/-- A frame that writes `data` to the converter's DAC register. -/
def writeDac (data : BitVec 20) : BitVec 24 := 0#1 ++ 1#3 ++ data

/-- The frames for starts after the initialisation: the control register, then the setpoint. -/
inductive Updates (inp : Nat → Ports) (t : Nat) : List Nat → List (BitVec 24) → Prop
  | none : Updates inp t [] []
  | start {u : Nat} {us : List Nat} {ctrl : BitVec 24} {ws : List (BitVec 24)} (v : Nat)
      (writes : WritesCtrl ctrl) (low : u ≤ v) (high : v < t) (rest : Updates inp t us ws) :
      Updates inp t (u :: us) (ctrl :: writeDac (inp v).dacData :: ws)

/-- The frames that the starts before clock `t` call for, in order: the reset bit set, the
reset bit cleared, and then the updates. -/
def CalledFor (inp : Nat → Ports) (t : Nat) : List Nat → List (BitVec 24) → Prop
  | [], ws => ws = []
  | [_], ws => ws = [0x400004#24]
  | _ :: _ :: us, ws => ∃ rest, ws = 0x400004#24 :: 0x400000#24 :: rest ∧ Updates inp t us rest

instance (s : Regs) (i : Ports) : Decidable (Starts s i) :=
  inferInstanceAs (Decidable (_ ∧ _ ∧ _))

/-- The clocks before `t` at which a start is accepted. -/
def accepted (d : Nat) (s : Regs) (inp : Nat → Ports) (t : Nat) : List Nat :=
  (List.range t).filter fun u => Starts (run (step d) s inp u) (inp u)

/-- The frames on the bus are those that the accepted starts call for, in order; all of them
have been sent when the controller is idle; and no setpoint goes out before the reset bit
has been cleared. -/
structure FramesInOrder (d : Nat) (s : Regs) (inp : Nat → Ports) : Prop where
  order : ∀ t, ∃ ws, CalledFor inp t (accepted d s inp t) ws ∧
    (heard d s inp t).frames <+: ws.map frameBits
  complete : ∀ t, 0 < t → (run (step d) s inp t).presentState = .idle →
    ∃ ws, CalledFor inp t (accepted d s inp t) ws ∧
      (heard d s inp t).frames = ws.map frameBits
  cleared : ∀ t before data,
    before ++ [frameBits (writeDac data)] <+: (heard d s inp t).frames →
      frameBits 0x400000#24 ∈ before

section Line

variable {d : Nat} {s : Regs} {inp : Nat → Ports} {t : Nat}

theorem heard_raised (raised : (run (step d) s inp (t + 1)).nSync = true) :
    heard d s inp (t + 1) = ⟨[], if (heard d s inp t).bits.length = bits
      then (heard d s inp t).frames ++ [(heard d s inp t).bits]
      else (heard d s inp t).frames⟩ := by
  rw [heard, if_pos raised]

theorem heard_low (low : (run (step d) s inp (t + 1)).nSync = false) :
    heard d s inp (t + 1) = ⟨(heard d s inp t).bits ++
      if falls d s inp t then [sdo (run (step d) s inp t)] else [], (heard d s inp t).frames⟩ := by
  rw [heard, low, if_neg Bool.false_ne_true]
  cases falls d s inp t <;> simp

/-- Nothing is heard while `n_sync` stays high. -/
theorem heard_quiet {u v : Nat} (le : u ≤ v) (silent : (heard d s inp u).bits = [])
    (high : ∀ t, u < t → t ≤ v → (run (step d) s inp t).nSync = true) :
    heard d s inp v = ⟨[], (heard d s inp u).frames⟩ := by
  refine stretch_induction (P := fun t => heard d s inp t = ⟨[], (heard d s inp u).frames⟩)
    le (by rw [← silent]) ?_
  intro t low before same
  rw [heard_raised (high _ (Nat.lt_succ_of_le low) before), same]
  rfl

/-- A word that was sent is heard when `n_sync` rises. -/
theorem heard_frame {w : BitVec 24} {a b : Nat} (sends : SendsWord d s inp w a b)
    (silent : (heard d s inp a).bits = []) (low : (run (step d) s inp b).nSync = false)
    (raised : (run (step d) s inp (b + 1)).nSync = true) :
    heard d s inp (b + 1) = ⟨[], (heard d s inp a).frames ++ [frameBits w]⟩ := by
  have during : heard d s inp b = ⟨clocked d s inp a b, (heard d s inp a).frames⟩ := by
    refine stretch_induction
      (P := fun t => heard d s inp t = ⟨clocked d s inp a t, (heard d s inp a).frames⟩)
      (Nat.le_of_lt sends.ends.1) ?_ ?_
    · rw [clocked, ticksFrom_self]
      exact congrArg (Line.mk · _) silent
    · intro t after before same
      have level : (run (step d) s inp (t + 1)).nSync = false := by
        obtain inner | last := Nat.lt_or_eq_of_le (Nat.succ_le_of_lt before)
        · exact (sends.inside _ (Nat.lt_succ_of_le after) inner).2
        · rw [← low, ← last]
      rw [heard_low level, same, clocked_succ after]
  have whole : (frameBits w).length = bits := by simp [frameBits]
  rw [heard_raised raised, during, sends.bits, if_pos whole]

end Line

/-- Waiting for the first start. -/
structure Unstarted (s : Regs) : Prop where
  state : s.presentState = .idle
  clk : s.clkCount = 0
  bit : s.bitCount = 0
  sync : s.nSync = true
  flags : (s.initCount, s.setpointSent) = (0, false)

/-- In `DAC_DONE` for `k` clocks, with no setpoint sent. -/
structure Holding (k : Nat) (s : Regs) : Prop where
  state : s.presentState = .dacDone
  clk : s.clkCount = k
  bit : s.bitCount = 0
  sync : 0 < k → s.nSync = true
  sent : s.setpointSent = false

/-- About to form a setpoint frame. -/
structure Forming (s : Regs) : Prop where
  state : s.presentState = .sendSetpoint
  clk : s.clkCount = 0
  bit : s.bitCount = 0
  sync : s.nSync = true

section Step

variable {d : Nat} {s : Regs} {i : Ports}

theorem unstarted_reset (reset : i.reset = true) : Unstarted (step d s i) := by
  simp only [step, shift, reset, if_true]
  exact ⟨rfl, rfl, rfl, rfl, rfl⟩

theorem Unstarted.waits (unstarted : Unstarted s) (live : i.reset = false)
    (quiet : i.start = false) : Unstarted (step d s i) := by
  obtain ⟨state, clk, bit, sync, flags⟩ := unstarted
  simp only [step, shift, live, quiet, state, if_false, Bool.false_eq_true]
  exact ⟨rfl, clk, bit, sync, flags⟩

/-- The first start loads the word with the reset bit set. -/
theorem Unstarted.starts (unstarted : Unstarted s) (live : i.reset = false)
    (start : i.start = true) :
    Loading 0x400004#24 (0, false) 0 (step d s i) ∧ (step d s i).nSync = true := by
  obtain ⟨state, clk, bit, sync, flags⟩ := unstarted
  have first : s.initCount = 0 := congrArg Prod.fst flags
  simp only [step, shift, live, start, state, first, if_true, if_false, Bool.false_eq_true]
  rw [← flags, first]
  exact ⟨⟨rfl, clk, bit, fun _ => rfl, rfl, rfl⟩, trivial⟩

theorem Holding.next {k : Nat} (holding : Holding k s) (live : i.reset = false)
    (more : k < syncWidth - 1) : Holding (k + 1) (step d s i) := by
  obtain ⟨state, clk, bit, _, sent⟩ := holding
  have going : s.clkCount ≠ syncWidth - 1 := by omega
  simp only [step, shift, live, state, going, if_false, Bool.false_eq_true]
  exact ⟨rfl, by rw [clk], bit, fun _ => rfl, sent⟩

/-- Without a setpoint sent, `DAC_DONE` goes on to a setpoint frame. -/
theorem Holding.ends (holding : Holding (syncWidth - 1) s) (live : i.reset = false) :
    Forming (step d s i) := by
  obtain ⟨state, clk, bit, _, sent⟩ := holding
  simp only [step, shift, live, state, clk, sent, if_true, if_false, Bool.false_eq_true]
  exact ⟨rfl, rfl, bit, rfl⟩

theorem Forming.loads (forming : Forming s) (live : i.reset = false) :
    Loading (writeDac s.dataInReg) (s.initCount, true) 0 (step d s i) ∧
      (step d s i).nSync = true := by
  obtain ⟨state, clk, bit, sync⟩ := forming
  simp only [step, shift, live, state, if_false, Bool.false_eq_true]
  exact ⟨⟨rfl, clk, bit, fun _ => sync, rfl, rfl⟩, sync⟩

theorem Shifted.holding {flags : Nat × Bool} (shifted : Shifted flags s)
    (unsent : flags.2 = false) : Holding 0 s := by
  obtain ⟨state, clk, bit, _, _, rfl⟩ := shifted
  exact ⟨state, clk, bit, fun early => absurd early (Nat.lt_irrefl 0), unsent⟩

/-- `n_sync` rises on the first clock of `DAC_DONE`. -/
theorem Shifted.raises {flags : Nat × Bool} (shifted : Shifted flags s)
    (live : i.reset = false) : (step d s i).nSync = true := by
  obtain ⟨state, clk, _, _, _, _⟩ := shifted
  have going : s.clkCount ≠ syncWidth - 1 := by
    rw [clk]
    decide
  simp only [step, shift, live, state, going, if_false, Bool.false_eq_true]

end Step

section Order

variable {d : Nat} {s : Regs} {inp : Nat → Ports} {t : Nat}

/-- Until the first start the controller waits and the bus is silent. -/
theorem unstarted_run (reset : (inp 0).reset = true)
    (live : ∀ u, 0 < u → (inp u).reset = false)
    (quiet : ∀ u, 0 < u → u < t → (inp u).start = false) (later : 0 < t) :
    Unstarted (run (step d) s inp t) ∧ heard d s inp t = ⟨[], []⟩ := by
  induction t with
  | zero => exact absurd later (Nat.lt_irrefl 0)
  | succ t ih =>
    obtain rfl | earlier := Nat.eq_zero_or_pos t
    · have first : Unstarted (run (step d) s inp 1) := unstarted_reset reset
      refine ⟨first, ?_⟩
      rw [heard_raised first.sync]
      rfl
    · obtain ⟨waits, silent⟩ := ih (fun u low high => quiet u low (Nat.lt_succ_of_lt high)) earlier
      have next : Unstarted (run (step d) s inp (t + 1)) :=
        waits.waits (live t earlier) (quiet t earlier (Nat.lt_succ_self t))
      refine ⟨next, ?_⟩
      rw [heard_raised next.sync, silent]
      rfl

/-- A loaded word is the next frame heard. -/
theorem frame_heard {w : BitVec 24} {flags : Nat × Bool} {c : Nat}
    (loading : Loading w flags 0 (run (step d) s inp c))
    (live : ∀ u, c ≤ u → (inp u).reset = false) (pos : 0 < d)
    (silent : (heard d s inp c).bits = []) :
    Shifted (countInit flags.1, flags.2) (run (step d) s inp (frameEnd d (c + syncWidth))) ∧
      heard d s inp (frameEnd d (c + syncWidth) + 1) =
        ⟨[], (heard d s inp c).frames ++ [frameBits w]⟩ := by
  have ready := loading_run loading live (Nat.le_refl syncWidth)
  have after : ∀ u, c + syncWidth ≤ u → (inp u).reset = false :=
    fun u le => live u (Nat.le_trans (Nat.le_add_right c _) le)
  have done := frame_done ready after pos
  have waited : heard d s inp (c + syncWidth) = ⟨[], (heard d s inp c).frames⟩ := by
    refine heard_quiet (Nat.le_add_right c _) silent ?_
    intro t low high
    obtain ⟨j, rfl⟩ := Nat.exists_eq_add_of_le (Nat.le_of_lt low)
    exact (loading_run loading live (by omega)).sync (by omega)
  have raised : (run (step d) s inp (frameEnd d (c + syncWidth) + 1)).nSync = true :=
    done.raises (after _ (by rw [frameEnd]; omega))
  refine ⟨done, ?_⟩
  rw [heard_frame (sends_loaded ready after pos) (by rw [waited]) done.sync raised, waited]

/-- After a frame without a setpoint, a setpoint frame is loaded. -/
theorem setpoint_loaded {flags : Nat × Bool} {b : Nat}
    (shifted : Shifted flags (run (step d) s inp b)) (unsent : flags.2 = false)
    (live : ∀ u, b ≤ u → (inp u).reset = false)
    (silent : (heard d s inp (b + 1)).bits = []) :
    ∃ data n, Loading (writeDac data) (n, true) 0 (run (step d) s inp (b + syncWidth + 1)) ∧
      heard d s inp (b + syncWidth + 1) = ⟨[], (heard d s inp (b + 1)).frames⟩ := by
  have holding : ∀ k, k < syncWidth → Holding k (run (step d) s inp (b + k)) := by
    intro k few
    induction k with
    | zero => exact shifted.holding unsent
    | succ k ih =>
      exact (ih (Nat.lt_of_succ_lt few)).next (live _ (Nat.le_add_right b k)) (by omega)
  have forming : Forming (run (step d) s inp (b + syncWidth)) :=
    (holding (syncWidth - 1) (by decide)).ends (live _ (Nat.le_add_right b _))
  have loads := forming.loads (d := d) (live _ (Nat.le_add_right b syncWidth))
  refine ⟨_, _, loads.1, heard_quiet (by omega) silent ?_⟩
  intro t low high
  obtain ⟨k, rfl⟩ := Nat.exists_eq_add_of_le (show b ≤ t by omega)
  obtain inner | outer := Nat.lt_or_ge k syncWidth
  · exact (holding k inner).sync (by omega)
  · obtain rfl | last := Nat.eq_or_lt_of_le outer
    · exact forming.sync
    · rw [show b + k = b + syncWidth + 1 by omega]
      exact loads.2

/-- The first start sends the word with the reset bit set, and a setpoint right after it. -/
theorem setpoint_second (reset : (inp 0).reset = true)
    (live : ∀ u, 0 < u → (inp u).reset = false) (pos : 0 < d) {c : Nat} (fresh : 0 < c)
    (start : (inp c).start = true) :
    ∃ t data, (heard d s inp t).frames =
      [frameBits 0x400004#24, frameBits (writeDac data)] := by
  obtain ⟨c, ⟨fresh, start⟩, least⟩ : ∃ c, (0 < c ∧ (inp c).start = true) ∧
      ∀ u, 0 < u → u < c → (inp u).start = false := by
    have some_start : ∃ c, 0 < c ∧ (inp c).start = true := ⟨c, fresh, start⟩
    refine ⟨Nat.find some_start, Nat.find_spec some_start, fun u low high => ?_⟩
    cases early : (inp u).start with
    | false => rfl
    | true => exact absurd ⟨low, early⟩ (Nat.find_min some_start high)
  obtain ⟨waits, silent⟩ := unstarted_run reset live least fresh
  obtain ⟨loading, raised⟩ : Loading 0x400004#24 (0, false) 0 (run (step d) s inp (c + 1)) ∧
      (run (step d) s inp (c + 1)).nSync = true := waits.starts (live c fresh) start
  have empty : heard d s inp (c + 1) = ⟨[], []⟩ := by
    rw [heard_raised raised, silent]
    rfl
  obtain ⟨shifted, first⟩ := frame_heard loading (fun u le => live u (by omega)) pos (by rw [empty])
  obtain ⟨data, n, setpoint, between⟩ := setpoint_loaded shifted rfl
    (fun u le => live u (Nat.lt_of_lt_of_le (by rw [frameEnd]; omega) le)) (by rw [first])
  obtain ⟨_, second⟩ := frame_heard setpoint
    (fun u le => live u (Nat.lt_of_lt_of_le (Nat.succ_pos _) le)) pos (by rw [between])
  refine ⟨_, data, (congrArg Line.frames second).trans ?_⟩
  rw [between, first, empty]
  rfl

theorem frameBits_second (w : BitVec 24) : (frameBits w)[1]? = some (w.getLsbD 22) := rfl

/-- A setpoint frame is not the one that clears the reset bit. -/
theorem frameBits_writeDac_ne (data : BitVec 20) :
    frameBits (writeDac data) ≠ frameBits 0x400000#24 := by
  intro same
  have second := congrArg (fun sent => sent[1]?) same
  simp only [frameBits_second, Option.some.injEq] at second
  have clear : (writeDac data).getLsbD 22 = false := by
    rw [writeDac, BitVec.getLsbD_append, if_neg (by decide)]
    rfl
  rw [clear] at second
  exact absurd second (by decide)

/-- Whatever the starts are, the second frame called for clears the reset bit. -/
theorem calledFor_second {us : List Nat} {ws : List (BitVec 24)} {x y : List Bool}
    (called : CalledFor inp t us ws) (sent : [x, y] <+: ws.map frameBits) :
    y = frameBits 0x400000#24 := by
  have long := sent.length_le
  match us, called with
  | [], empty =>
    rw [empty] at long
    exact absurd long (Nat.not_succ_le_zero 1)
  | [_], one =>
    rw [one] at long
    exact absurd long (Nat.not_succ_le_self 1)
  | _ :: _ :: _, ⟨rest, two, _⟩ =>
    rw [two, List.map_cons, List.map_cons, List.cons_prefix_cons, List.cons_prefix_cons] at sent
    exact sent.2.1

theorem not_framesInOrder (reset : (inp 0).reset = true)
    (live : ∀ u, 0 < u → (inp u).reset = false) (pos : 0 < d) {c : Nat} (fresh : 0 < c)
    (start : (inp c).start = true) : ¬FramesInOrder d s inp := by
  intro inOrder
  obtain ⟨t, data, frames⟩ := setpoint_second (s := s) reset live pos fresh start
  obtain ⟨ws, called, sent⟩ := inOrder.order t
  rw [frames] at sent
  exact frameBits_writeDac_ne data (calledFor_second called sent)

theorem accepted_quiet (reset : (inp 0).reset = true)
    (quiet : ∀ u, 0 < u → (inp u).start = false) : accepted d s inp t = [] := by
  rw [accepted, List.filter_eq_nil_iff]
  intro u _ starts
  obtain ⟨live, _, start⟩ := of_decide_eq_true starts
  obtain rfl | later := Nat.eq_zero_or_pos u
  · rw [reset] at live
    exact Bool.noConfusion live
  · rw [quiet u later] at start
    exact Bool.noConfusion start

/-- After the reset the frames are those the starts call for exactly when no start comes. -/
theorem frames_in_order_iff (reset : (inp 0).reset = true)
    (live : ∀ u, 0 < u → (inp u).reset = false) (pos : 0 < d) :
    FramesInOrder d s inp ↔ ∀ t, 0 < t → (inp t).start = false := by
  constructor
  · intro inOrder t later
    cases start : (inp t).start with
    | false => rfl
    | true => exact absurd inOrder (not_framesInOrder reset live pos later start)
  · intro quiet
    have silent : ∀ t, (heard d s inp t).frames = [] := by
      intro t
      obtain rfl | later := Nat.eq_zero_or_pos t
      · rfl
      · rw [(unstarted_run reset live (fun u low _ => quiet u low) later).2]
    have none : ∀ t, CalledFor inp t (accepted d s inp t) [] := by
      intro t
      rw [accepted_quiet reset quiet]
      rfl
    refine ⟨fun t => ⟨[], none t, ?_⟩, fun t _ _ => ⟨[], none t, silent t⟩, ?_⟩
    · rw [silent t]
      exact List.nil_prefix
    · intro t before data sent
      rw [silent t, List.prefix_nil] at sent
      exact absurd sent (by simp)

/-- A reset clock, and no start after it. -/
def unstarted (t : Nat) : Ports := ⟨t == 0, false, 0, 0⟩

theorem unstarted_in_order : FramesInOrder 2 powerUp unstarted :=
  (@frames_in_order_iff 2 powerUp unstarted rfl
    (fun u later => by simp [unstarted, Nat.ne_of_gt later]) Nat.two_pos).2 fun _ _ => rfl

/-- With `start` high from the reset on, the reset bit is not cleared. -/
theorem started_out_of_order : ¬FramesInOrder 2 powerUp started :=
  not_framesInOrder rfl (fun u later => by simp [started, Nat.ne_of_gt later]) Nat.two_pos
    Nat.one_pos rfl

end Order

end PscDigpid.Hdl.DacAd5781
