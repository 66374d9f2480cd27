/- Unit: PscDigpid/Hdl/OnFault
   layer: result
   source: src/hw/hdl/fault_block.vhd, src/hw/hdl/pulse_enable.vhd
   digest: Which limits let a supply that does not switch on be detected. -/

import PscDigpid.Hdl.Interlock

set_option autoImplicit false
set_option relaxedAutoImplicit false

namespace PscDigpid.Hdl.Interlock

open PscDigpid.Sync
open FaultBlock (FaultBit)

/-- With the request on from clock `a`, the pulsed command is in the second half
of a period at clock `u`. -/
def highHalf (a u : Nat) : Bool := PulseEnable.highAfter 1000000 (u - a - 1)

/-- The 10 kHz ticks of a channel's fault block. -/
def tickAt (c : Chan) (s : Regs) (inp : Nat → Ports) (t : Nat) : Bool :=
  (block (run step s inp t) c).tenKhzPulse

/-- A run in which channel `c` is never reset or cleared and its ON fault limit
is `limit`. -/
structure Undisturbed (c : Chan) (limit : BitVec 16) (inp : Nat → Ports) : Prop where
  running : ∀ t, (inp t).reset = false
  unclear : ∀ t, ((inp t).faultParams.get c).clear = false
  limited : ∀ t, ((inp t).faultParams.get c).onCntlim = limit

/-- The AC-on report of a channel's supply. -/
def acOn (c : Chan) (inp : Nat → Ports) (t : Nat) : Bool :=
  ((DigioLogic.digStat (inp t).rsts).get c).acon

/-- The command is in a high half while the supply reports that it is off. -/
def unanswered (c : Chan) (inp : Nat → Ports) (a u : Nat) : Bool :=
  highHalf a u && !acOn c inp u

/-- From clock `a` up to clock `b` channel `c` is requested on, and no latch but
that of the ON fault gates its command. -/
structure SwitchedOn (c : Chan) (inp : Nat → Ports) (a b : Nat) : Prop where
  start : ∀ u, u + 1 = a → ((inp u).digCntrl.get c).on1 = false
  request : ∀ u, a ≤ u → u < b → ((inp u).digCntrl.get c).on1 = true
  ungated : ∀ u k, a ≤ u → u ≤ b → k ≠ 10 →
    (block (run step powerUp inp u) c).faultRegLatMask.getLsbD k = false

/-- The latch of the ON fault. -/
def onLatched (c : Chan) (inp : Nat → Ports) (t : Nat) : Bool :=
  (block (run step powerUp inp t) c).faultRegLat.getLsbD 10

section Runs

variable {c : Chan} {limit : BitVec 16} {inp : Nat → Ports} {a b : Nat}

private theorem ports_running (calm : Undisturbed c limit inp) (t : Nat) :
    (blockPorts c powerUp inp t).reset = false := by
  rw [blockPorts_reset]
  exact calm.running t

private theorem never_cleared (calm : Undisturbed c limit inp) (t : Nat) :
    (block (run step powerUp inp t) c).re = false ∧
      (block (run step powerUp inp t) c).clearPulse = false := by
  induction t with
  | zero => cases c <;> exact ⟨rfl, rfl⟩
  | succ t ih =>
      rw [block_run, run_succ, FaultBlock.step_re, FaultBlock.step_clearPulse, ← block_run, ih.1,
        ih.2, blockPorts_faultParams, calm.unclear]
      simp

/-- What the ON fault's check sees: the on command and the supply's report. -/
private def onSamples (c : Chan) (limit : BitVec 16) (inp : Nat → Ports) (t : Nat) : Sample where
  tick := tickAt c powerUp inp t
  trip := onCommand (run step powerUp inp t) (inp t) c && !acOn c inp t
  limit := limit.toNat

/-- The ON fault's check along the run. -/
private theorem on_check (calm : Undisturbed c limit inp) (t : Nat) :
    FaultBlock.check .on (block (run step powerUp inp t) c) =
      run (persistStep 32) ⟨0, false⟩ (onSamples c limit inp) t := by
  have start : block powerUp c = FaultBlock.powerUp := PerChan.get_of _ c
  have seen : FaultBlock.samples .on FaultBlock.powerUp (blockPorts c powerUp inp) =
      onSamples c limit inp := by
    funext u
    rw [FaultBlock.samples, ← start, ← block_run, FaultBlock.sample, FaultBlock.trip,
      blockPorts_acOnOut, blockPorts_acOnIn, (never_cleared calm u).2, FaultBlock.cntlim,
      blockPorts_faultParams, calm.limited]
    simp [onSamples, tickAt, acOn]
  rw [block_run, start, ← seen]
  exact FaultBlock.checks_eq_run .on FaultBlock.powerUp _ (ports_running calm) t

/-- The pulse generator follows the last stretch of the request. -/
private theorem follows_request (c : Chan) (inp : Nat → Ports) (t : Nat) :
    PulseEnable.Follows 1000000 ((run step powerUp inp t).digio.get c)
      (DigioLogic.onStretch c (fun u => digIo (run step powerUp inp u) (inp u)) t) := by
  rw [digio_run]
  exact DigioLogic.follows_onStretch c _ t

/-- From its second clock on, a request drives the command by its own phase. -/
private theorem pulsed_high (calm : Undisturbed c limit inp) (on : SwitchedOn c inp a b) {u : Nat}
    (low : a + 2 ≤ u) (high : u ≤ b) :
    ((run step powerUp inp u).digio.get c).chEnable = highHalf a u := by
  have follows := follows_request c inp u
  have stretch := DigioLogic.onStretch_held c
    (fun u => digIo (run step powerUp inp u) (inp u)) calm.running on.start
    (fun v from_a before => on.request v from_a (by omega)) (show a < u by omega)
  rw [stretch] at follows
  exact follows.high rfl (show 1 < u - a by omega)

/-- The first switch-on starts from a silent command. -/
private theorem first_high (calm : Undisturbed c limit inp) (on : SwitchedOn c inp a b)
    (first : ∀ u, u < a → ((inp u).digCntrl.get c).on1 = false) {u : Nat} (high : u ≤ b) :
    ((run step powerUp inp u).digio.get c).chEnable = highHalf a u := by
  have silent {v : Nat} (before : v ≤ a) :
      ((run step powerUp inp v).digio.get c).pulseEnable = false ∧
        ((run step powerUp inp v).digio.get c).chEnable = false := by
    have follows := follows_request c inp v
    rw [DigioLogic.onStretch_never c (fun u => digIo (run step powerUp inp u) (inp u))
      (fun u earlier => first u (by omega))] at follows
    exact ⟨follows.seen, follows.left rfl⟩
  rcases Nat.lt_or_ge u (a + 2) with early | late
  · have phase : highHalf a u = false := by
      rw [highHalf, show u - a - 1 = 0 by omega]
      rfl
    rw [phase]
    rcases Nat.lt_or_eq_of_le (Nat.le_of_lt_succ early) with before | rfl
    · exact (silent (by omega)).2
    · have kept := (PulseEnable.step_unseen
        (i := DigioLogic.chanOn (digIo (run step powerUp inp a) (inp a)) c)
        (calm.running a) (silent (Nat.le_refl a)).1).2
      rw [run_succ, step, DigioLogic.step, PerChan.get_of, kept]
      exact (silent (Nat.le_refl a)).2
  · exact pulsed_high calm on late high

private theorem onLatched_stays (calm : Undisturbed c limit inp) {x y : Nat} (le : x ≤ y)
    (set : onLatched c inp x = true) : onLatched c inp y = true := by
  rw [onLatched, block_run] at set ⊢
  refine FaultBlock.latch_stays (fun v _ _ => ports_running calm v) (by decide) le ?_ set
  intro v _ _
  rw [← block_run]
  exact (never_cleared calm v).2

/-- While the ON fault is not latched nothing gates the command. -/
private theorem command_ungated (calm : Undisturbed c limit inp) (on : SwitchedOn c inp a b)
    (unlatched : onLatched c inp b = false) {u : Nat} (low : a ≤ u) (high : u ≤ b) :
    onCommand (run step powerUp inp u) (inp u) c =
      ((run step powerUp inp u).digio.get c).chEnable := by
  have empty : (block (run step powerUp inp u) c).faultRegLatMask = 0 := by
    by_contra nonzero
    obtain ⟨k, -, set⟩ := (bits_ne_zero_iff _).1 nonzero
    by_cases other : k = 10
    · subst other
      cases u with
      | zero => cases c <;> simp [block, powerUp, FaultModule.powerUp, FaultBlock.powerUp,
          PerChan.of, PerChan.get] at set
      | succ u =>
          rw [block_run, run_succ, FaultBlock.step_faultRegLatMask, ← block_run, BitVec.getLsbD_and,
            BitVec.getLsbD_and, Bool.and_eq_true, Bool.and_eq_true] at set
          have latched := onLatched_stays calm (show u ≤ b by omega) set.1.2
          rw [latched] at unlatched
          contradiction
    · rw [on.ungated u k low high other] at set
      contradiction
  rw [onCommand_eq, empty]
  simp

/-- A latched ON fault has seen its check live, and so the command on at one
more tick than its limit. -/
private theorem window_of_latched (calm : Undisturbed c limit inp)
    (latched : onLatched c inp b = true) :
    ∃ v, v + 2 ≤ b ∧ tickAt c powerUp inp v = true ∧
      HeldLast (tickAt c powerUp inp)
        (fun u => ((run step powerUp inp u).digio.get c).chEnable && !acOn c inp u)
        (limit.toNat + 1) (v + 1) := by
  have silent : onLatched c inp 0 = false := by
    have start : block powerUp c = FaultBlock.powerUp := PerChan.get_of _ c
    rw [onLatched, run_zero, start]
    rfl
  rw [onLatched, block_run] at latched silent
  obtain ⟨w, -, before, raised⟩ := FaultBlock.latch_from_live
    (fun v _ _ => ports_running calm v) (by decide) (Nat.zero_le b) silent latched
  have live : (run (persistStep 32) ⟨0, false⟩ (onSamples c limit inp) w).live = true := by
    rw [← on_check calm, block_run]
    exact raised
  obtain ⟨v, -, earlier, tick, held⟩ := persist_live_held rfl (Nat.zero_le w) live
  refine ⟨v, by omega, tick, held.imp (Nat.le_refl 0) ?_⟩
  intro u _ _ _ trips
  simp only [tripOf, onSamples, onCommand_eq, Bool.and_eq_true] at trips ⊢
  exact ⟨trips.1.1, trips.2⟩

/-- The command on at one more tick than the limit latches the ON fault. -/
private theorem latched_of_window (calm : Undisturbed c limit inp) (on : SwitchedOn c inp a b)
    {v : Nat} (before : v + 2 ≤ b) (tick : tickAt c powerUp inp v = true)
    (held : HeldLast (tickAt c powerUp inp) (unanswered c inp a) (limit.toNat + 1) (v + 1)) :
    onLatched c inp b = true := by
  by_contra missed
  have unlatched : onLatched c inp b = false := by simpa using missed
  have trips : HeldLast (tickOf (onSamples c limit inp)) (tripOf (onSamples c limit inp))
      (limit.toNat + 1) (v + 1) := by
    apply held.imp (Nat.le_refl 0)
    intro u _ high _ silent
    obtain ⟨phase, off⟩ := (Bool.and_eq_true _ _).mp silent
    have late : a + 2 ≤ u := by
      by_contra early
      rw [highHalf, show u - a - 1 = 0 by omega] at phase
      exact absurd phase (by decide)
    change (onCommand (run step powerUp inp u) (inp u) c && !acOn c inp u) = true
    rw [command_ungated calm on unlatched (by omega) (by omega),
      pulsed_high calm on late (by omega), phase, off]
    rfl
  have fits (t : Nat) : (onSamples c limit inp t).limit < 2 ^ 32 :=
    Nat.lt_trans limit.isLt (by decide)
  have within : WithinLimit (run (persistStep 32) ⟨0, false⟩ (onSamples c limit inp))
      (onSamples c limit inp) := within_limit_of_steady (fun _ => rfl) (Nat.zero_le _)
  have live := persist_live_of_held fits within tick trips
  rw [← on_check calm] at live
  have latched : onLatched c inp (v + 2) = true := by
    have raised : (block (run step powerUp inp (v + 1)) c).faultReg.getLsbD 10 = true := live
    rw [onLatched, block_run, run_succ, FaultBlock.step_faultRegLat _ _ (ports_running calm _)
      (by decide), ← block_run, (never_cleared calm _).2, raised]
    rfl
  rw [onLatched_stays calm before latched] at unlatched
  contradiction

/-- At a first switch-on the command is on in the high halves only. -/
private theorem window_of_first (calm : Undisturbed c limit inp) (on : SwitchedOn c inp a b)
    (first : ∀ u, u < a → ((inp u).digCntrl.get c).on1 = false)
    (latched : onLatched c inp b = true) :
    ∃ v, v + 2 ≤ b ∧ tickAt c powerUp inp v = true ∧
      HeldLast (tickAt c powerUp inp) (unanswered c inp a) (limit.toNat + 1) (v + 1) := by
  obtain ⟨v, before, tick, held⟩ := window_of_latched calm latched
  refine ⟨v, before, tick, held.imp (Nat.le_refl 0) ?_⟩
  intro u _ early _ silent
  rw [unanswered, ← first_high calm on first (show u ≤ b by omega)]
  exact silent

/-- ON fault detection, where it works. Once a channel is switched on, its ON
fault is latched when one more tick in a row than its limit finds the command in
a high half and the supply off; at a first switch-on it is latched in no other
case, since every tick in a low half starts the count again. -/
theorem on_fault_detection (calm : Undisturbed c limit inp) (on : SwitchedOn c inp a b) :
    ((∃ v, v + 2 ≤ b ∧ tickAt c powerUp inp v = true ∧
      HeldLast (tickAt c powerUp inp) (unanswered c inp a) (limit.toNat + 1) (v + 1)) →
      onLatched c inp b = true) ∧
    ((∀ u, u < a → ((inp u).digCntrl.get c).on1 = false) → onLatched c inp b = true →
      ∃ v, v + 2 ≤ b ∧ tickAt c powerUp inp v = true ∧
        HeldLast (tickAt c powerUp inp) (unanswered c inp a) (limit.toNat + 1) (v + 1)) := by
  refine ⟨?_, window_of_first calm on⟩
  rintro ⟨v, before, tick, held⟩
  exact latched_of_window calm on before tick held

end Runs

/-- A trigger every 10001 clocks, as the clock source gives it. Every channel is
requested on from the start and reports off; only the ON fault is enabled. -/
def stuckOff (limit : BitVec 16) (t : Nat) : Ports where
  reset := false
  tenkhzTrig := decide (t % 10001 = 0)
  faultParams := PerChan.of fun _ =>
    { FaultBlock.quiet.faultParams with enable := 0x0400, onCntlim := limit }
  dcctAdcs := PerChan.of fun _ => ⟨0, 0⟩
  monAdcs := PerChan.of fun _ => ⟨0, 0, 0⟩
  dacStat := PerChan.of fun _ => ⟨0⟩
  rsts := 0xF0000#20
  digCntrl := PerChan.of fun _ => ⟨true, false, false, false, false⟩

section StuckOff

variable (c : Chan) (limit : BitVec 16)

private theorem undisturbed_stuckOff : Undisturbed c limit (stuckOff limit) where
  running := fun _ => rfl
  unclear := fun _ => by cases c <;> rfl
  limited := fun _ => by cases c <;> rfl

private theorem switchedOn_stuckOff (b : Nat) : SwitchedOn c (stuckOff limit) 0 b where
  start := fun u first => absurd first (Nat.succ_ne_zero u)
  request := fun _ _ _ => by cases c <;> rfl
  ungated := by
    intro u k _ _ other
    cases u with
    | zero => cases c <;> simp [block, powerUp, FaultModule.powerUp, FaultBlock.powerUp,
        PerChan.of, PerChan.get]
    | succ u =>
        have disabled : (0x0400#16).getLsbD k = false := by
          have single : ∀ j, j < 16 → j ≠ 10 → (0x0400#16).getLsbD j = false := by decide
          by_cases inside : k < 16
          · exact single k inside other
          · exact BitVec.getLsbD_of_ge _ _ (by omega)
        have enable : ((stuckOff limit u).faultParams.get c).enable = 0x0400#16 := by
          cases c <;> rfl
        rw [block_run, run_succ, FaultBlock.step_faultRegLatMask, blockPorts_faultParams, enable,
          BitVec.getLsbD_and, disabled, Bool.and_false]

private theorem acOn_stuckOff (t : Nat) : acOn c (stuckOff limit) t = false := by
  change ((DigioLogic.digStat 0xF0000#20).get c).acon = false
  cases c <;> decide

private theorem tickAt_stuckOff (t : Nat) :
    tickAt c powerUp (stuckOff limit) t = decide ((t + 9998) % 10001 = 0) := by
  have running := ports_running (undisturbed_stuckOff c limit)
  rw [tickAt, block_run]
  rcases Nat.lt_or_ge t 3 with early | late
  · have first : t = 0 ∨ t = 1 ∨ t = 2 := by omega
    rcases first with rfl | rfl | rfl <;> cases c <;> rfl
  · obtain ⟨u, rfl⟩ : ∃ u, t = u + 3 := ⟨t - 3, by omega⟩
    rw [FaultBlock.tenKhzPulse_run running, blockPorts_tenkhzTrig, stuckOff, decide_eq_decide]
    omega

private theorem ticks_stuckOff (t : Nat) :
    ticksBefore (tickAt c powerUp (stuckOff limit)) t = (t + 9997) / 10001 := by
  induction t with
  | zero => rfl
  | succ t ih =>
      have tick := tickAt_stuckOff c limit t
      by_cases fires : (t + 9998) % 10001 = 0
      · rw [ticksBefore_tick (tick.trans (decide_eq_true fires)), ih]
        omega
      · rw [ticksBefore_idle (tick.trans (decide_eq_false fires)), ih]
        omega

/-- Fifty-one ticks in a row take longer than the high half of a period. -/
private theorem window_too_long {v : Nat}
    (held : HeldLast (tickAt c powerUp (stuckOff limit)) (unanswered c (stuckOff limit) 0) 51
      (v + 1)) : False := by
  obtain ⟨b, -, le, count, all⟩ := held
  rw [ticks_stuckOff, ticks_stuckOff] at count
  -- the `j`-th tick of the stretch, and its phase
  have phase (j : Nat) (inside : j < 51) :
      500000 ≤ (10001 * ((b + 9997) / 10001 + j) + 1) % 1000001 := by
    have high := all (10001 * ((b + 9997) / 10001 + j) + 3) (by omega) (by omega)
      ((tickAt_stuckOff c limit _).trans (decide_eq_true (by omega)))
    have half := ((Bool.and_eq_true _ _).mp high).1
    rw [highHalf, show 10001 * ((b + 9997) / 10001 + j) + 3 - 0 - 1 =
      10001 * ((b + 9997) / 10001 + j) + 1 + 1 by omega] at half
    exact of_decide_eq_true half
  have later (j : Nat) (inside : j < 51) : (10001 * ((b + 9997) / 10001 + j) + 1) % 1000001 =
      (10001 * ((b + 9997) / 10001) + 1) % 1000001 + 10001 * j := by
    induction j with
    | zero => rfl
    | succ j ih =>
        have now := ih (by omega)
        have next := phase (j + 1) inside
        omega
  have last := later 50 (by decide)
  have first : 500000 ≤ (10001 * ((b + 9997) / 10001) + 1) % 1000001 := phase 0 (by decide)
  have bound := Nat.mod_lt (10001 * ((b + 9997) / 10001 + 50) + 1) (show 0 < 1000001 by decide)
  omega

/-- Under the limit zero the first tick of a high half latches the ON fault. -/
theorem on_fault_detected_at_once : onLatched .ps1 (stuckOff 0) 600000 = true := by
  have tick : tickAt .ps1 powerUp (stuckOff 0) 500053 = true :=
    (tickAt_stuckOff .ps1 0 500053).trans (decide_eq_true (by omega))
  have half : highHalf 0 500053 = true := decide_eq_true (show 500000 ≤ 500051 % 1000001 by omega)
  have high : unanswered .ps1 (stuckOff 0) 0 500053 = true := by
    rw [unanswered, half, acOn_stuckOff]
    rfl
  exact (on_fault_detection (undisturbed_stuckOff .ps1 0) (switchedOn_stuckOff .ps1 0 600000)).1
    ⟨500053, by omega, tick, (heldSince_zero (Nat.zero_le 500053)).extend tick high⟩

/-- Under the limit 50 a supply that never switches on is never detected. -/
theorem on_fault_undetected :
    ¬ ∀ (c : Chan) (limit : BitVec 16) (inp : Nat → Ports) (a b : Nat),
      Undisturbed c limit inp → SwitchedOn c inp a b →
      (∀ u, a + 1000002 ≤ u → u < b → acOn c inp u = false) →
      ticksBefore (tickAt c powerUp inp) (a + 1000002) + (limit.toNat + 2) ≤
        ticksBefore (tickAt c powerUp inp) b →
      ∃ t, onLatched c inp t = true := by
  intro detected
  obtain ⟨t, latched⟩ := detected .ps1 50 (stuckOff 50) 0 3000000 (undisturbed_stuckOff .ps1 50)
    (switchedOn_stuckOff .ps1 50 3000000) (fun u _ _ => acOn_stuckOff .ps1 50 u)
    (by rw [ticks_stuckOff, ticks_stuckOff]; decide)
  obtain ⟨v, -, -, held⟩ := window_of_first (undisturbed_stuckOff .ps1 50)
    (switchedOn_stuckOff .ps1 50 t) (fun u early => absurd early (Nat.not_lt_zero u)) latched
  exact window_too_long .ps1 50 held

end StuckOff

end PscDigpid.Hdl.Interlock
