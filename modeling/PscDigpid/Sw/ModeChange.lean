/- Unit: PscDigpid/Sw/ModeChange
   layer: result
   source: src/sw/src/control.c (Set_dacOpmode), src/hw/hdl/dac_chan.vhd (mode multiplexer)
   digest: A mode change on the running fabric: the pairs handled, and when they switch at zero. -/

import PscDigpid.Sw.SmoothIncrement

set_option autoImplicit false
set_option relaxedAutoImplicit false

namespace PscDigpid.Sw

open PscDigpid.Hdl
open PscDigpid.Num
open PscDigpid.Sync

inductive OpMode
  | smooth | ramp | fofb | jump
  deriving DecidableEq

def OpMode.code : OpMode → BitVec 32
  | .smooth => Sw.smooth
  | .ramp => Sw.ramp
  | .fofb => Sw.fofb
  | .jump => Sw.jump

theorem OpMode.code_injective {m m' : OpMode} (same : m.code = m'.code) : m = m' := by
  cases m <;> cases m' <;> first | rfl | exact absurd same (by decide)

/-- A change between one of the ramp modes and the jump mode. -/
def Switches (old new : OpMode) : Prop :=
  ((old = .smooth ∨ old = .ramp) ∧ new = .jump) ∨ (old = .jump ∧ (new = .smooth ∨ new = .ramp))

instance (old new : OpMode) : Decidable (Switches old new) := by
  unfold Switches
  infer_instance

/-- A call of `Set_dacOpmode` on a running fabric: what there is at clock 0, what else comes
to the fabric, the clock at which the current setpoint is read and those at which the
call's writes land. -/
structure ModeCall where
  chan : Chan
  board : Board
  fabric : DacChan.Regs
  inp : Nat → DacChan.Ports
  swacc : Nat → BitVec 32 → Bool
  injTrig : Nat → Bool
  readAt : Nat
  landsAt : Nat → Nat
  read_first : readAt < landsAt 0
  in_order : ∀ k, landsAt k < landsAt (k + 1)

namespace ModeCall

section Model

variable (call : ModeCall)

/-- What comes to the channel when its registers are those of a board at each clock. -/
def ports (boards : Nat → Board) (t : Nat) : DacChan.Ports :=
  { call.inp t with
    dacCntrl := (PsIo.dacCntrl (boards t).regs (call.swacc t) (call.injTrig t)).get call.chan }

def fabricAt (boards : Nat → Board) (t : Nat) : DacChan.Regs :=
  run DacChan.step call.fabric (call.ports boards) t

/-- The board as the call finds it: the current setpoint is what the fabric shows when it
is read. -/
def shown : Board :=
  let boards := fun _ => call.board
  { call.board with
    status := Function.update call.board.status (Rdl.chanAddr call.chan .dacCurrsetpt)
      (PsIo.dacCurrsetpt (DacChan.dacSetpt (call.fabricAt boards call.readAt)
        (call.ports boards call.readAt))) }

def result (new : OpMode) : Option Board :=
  setDacOpmode (chanNumber call.chan) call.shown new.code

/-- The writes of the call, in order. -/
def writes (after : Board) : List (BitVec 32 × BitVec 32) :=
  after.writes.drop call.shown.writes.length

/-- The board before clock `t`, when some of the writes have landed. -/
def landed (ws : List (BitVec 32 × BitVec 32)) (t : Nat) : Board :=
  ws.zipIdx.foldl
    (fun b w => if call.landsAt w.2 < t then b.xilOut32 w.1.1 w.1.2 else b) call.board

/-- The new mode is in its register when the call returns, and a switch between a ramp mode
and the jump mode is written while the channel is driven with zero. -/
def Changes (old new : OpMode) : Prop :=
  ∃ after, call.result new = some after ∧
    after.xilIn32 (Rdl.chanAddr call.chan .dacOpmode) = new.code ∧
    (Switches old new → ∀ k value,
      (call.writes after)[k]? = some (Rdl.chanAddr call.chan .dacOpmode, value) →
      (call.fabricAt (call.landed (call.writes after)) (call.landsAt k)).dacSetptRaw = 0)

/-- The board with the zero setpoint from the clock at which it lands. -/
def zeroing (t : Nat) : Board :=
  if call.landsAt 1 < t then call.board.xilOut32 (Rdl.chanAddr call.chan .dacSetpt) 0
  else call.board

/-- The source of the old mode is at zero at clock `u`; in the jump mode that is the setpoint
register, once the zero has landed or if it was zero before. -/
def OldSourceZero (old : OpMode) (u : Nat) : Prop :=
  match old with
  | .smooth => (call.fabricAt call.zeroing u).smoothmode.rampout = 0
  | .ramp => (call.fabricAt call.zeroing u).rampmode.rampDacSetpt = 0
  | .fofb => (call.inp u).fofbDacSetpt = 0
  | .jump => call.landsAt 1 < u ∨
      (call.board.regs (Rdl.chanAddr call.chan .dacSetpt)).setWidth 20 = (0 : BitVec 20)

/-- The last load before the mode's write took a zero or was a reset, or there was none and
the channel was at zero when the call began. -/
def ZeroDriven (old : OpMode) : Prop :=
  (∃ u, u < call.landsAt 3 ∧ DacChan.Loads (call.inp u) ∧
    (∀ v, u < v → v < call.landsAt 3 → ¬ DacChan.Loads (call.inp v)) ∧
    ((call.inp u).reset = true ∨ call.OldSourceZero old u)) ∨
  ((∀ u, u < call.landsAt 3 → ¬ DacChan.Loads (call.inp u)) ∧ call.fabric.dacSetptRaw = 0)

end Model

section Writes

variable {c : Chan} {b : Board} {old new : OpMode}

theorem chanReg_dacOpmode (c : Chan) :
    chanReg (chanNumber c) dacOpmodeReg = Rdl.chanAddr c .dacOpmode :=
  chanReg_offset c rfl

theorem xilIn32_opmode (c : Chan) (b : Board) :
    b.xilIn32 (Rdl.chanAddr c .dacOpmode) = b.regs (Rdl.chanAddr c .dacOpmode) := by
  rw [Board.xilIn32, Rdl.storedWidth_chanAddr c rfl]
  rfl

/-- Only a switch does anything. -/
theorem setDacOpmode_eq (mode : b.regs (Rdl.chanAddr c .dacOpmode) = old.code) :
    setDacOpmode (chanNumber c) b new.code =
      if Switches old new then switchMode (chanNumber c) b new.code else some b := by
  rw [setDacOpmode, chanReg_dacOpmode, xilIn32_opmode, mode]
  cases old <;> cases new <;>
    simp [Switches, OpMode.code, Sw.smooth, Sw.ramp, Sw.fofb, Sw.jump]

/-- The writes of a switch. -/
def switchWrites (c : Chan) (inc code : BitVec 32) : List (BitVec 32 × BitVec 32) :=
  [(chanReg (chanNumber c) smoothPhaseincReg, inc), (Rdl.chanAddr c .dacSetpt, 0),
    (Rdl.chanAddr c .dacSetpt, 0), (Rdl.chanAddr c .dacOpmode, code)]

theorem switchMode_none (code : BitVec 32)
    (short : numSamples (chanNumber c) b nearestSingle 0 = 0) :
    switchMode (chanNumber c) b code = none := by
  rw [switchMode, calcWriteSmooth, calcWriteSmoothWith, if_pos short]
  rfl

/-- A switch with at least one sample makes its four writes. -/
theorem switchMode_some (code : BitVec 32)
    (samples : numSamples (chanNumber c) b nearestSingle 0 ≠ 0) :
    ∃ after inc, switchMode (chanNumber c) b code = some after ∧
      after.writes = b.writes ++ switchWrites c inc code ∧
      after.regs (Rdl.chanAddr c .dacOpmode) = (code.setWidth 2).setWidth 32 := by
  rw [switchMode, calcWriteSmooth, calcWriteSmoothWith, if_neg samples]
  refine ⟨_, toU32 (nearestSingle
    (cordicInitPhase / numSamples (chanNumber c) b nearestSingle 0).toNat), rfl, ?_, ?_⟩
  · simp only [Board.xilOut32, chanReg_dacSetpt, chanReg_dacOpmode, List.append_assoc]
    rfl
  · have stored : Rdl.storedWidth (Rdl.chanAddr c .dacOpmode) = some 2 :=
      Rdl.storedWidth_chanAddr c rfl
    rw [chanReg_dacOpmode, Board.xilOut32_stored _ stored, Function.update_self]

theorem writes_eq (call : ModeCall) {after : Board} {inc code : BitVec 32}
    (written : after.writes = call.shown.writes ++ switchWrites c inc code) :
    call.writes after = switchWrites c inc code := by
  rw [writes, written, List.drop_left]

/-- Only the last write of a switch goes to the mode. -/
theorem switchWrites_opmode {inc code value : BitVec 32} {k : Nat}
    (entry : (switchWrites c inc code)[k]? = some (Rdl.chanAddr c .dacOpmode, value)) : k = 3 := by
  have apart : Rdl.chanAddr c .dacSetpt ≠ Rdl.chanAddr c .dacOpmode :=
    Rdl.chanAddr_ne (by decide)
  have apart' : chanReg (chanNumber c) smoothPhaseincReg ≠ Rdl.chanAddr c .dacOpmode := by
    cases c <;> decide
  match k with
  | 0 => exact absurd (Prod.mk.inj (Option.some.inj entry)).1 apart'
  | 1 | 2 => exact absurd (Prod.mk.inj (Option.some.inj entry)).1 apart
  | 3 => rfl
  | k + 4 => exact absurd entry (by simp [switchWrites])

end Writes

section Landing

variable {call : ModeCall} {inc code : BitVec 32} {t : Nat}

/-- Until the mode lands, only the zero setpoint has changed a register. -/
theorem landed_regs (early : t ≤ call.landsAt 3) :
    (call.landed (switchWrites call.chan inc code) t).regs = (call.zeroing t).regs := by
  have stored : Rdl.storedWidth (Rdl.chanAddr call.chan .dacSetpt) = some 20 :=
    Rdl.storedWidth_chanAddr call.chan rfl
  have later : call.landsAt 1 < call.landsAt 2 := call.in_order 1
  have unmoded : ¬ call.landsAt 3 < t := by omega
  have dropped : (if call.landsAt 0 < t then call.board.xilOut32
      (chanReg (chanNumber call.chan) smoothPhaseincReg) inc else call.board).regs =
      call.board.regs := by
    split
    · exact Board.xilOut32_unstored _ (phaseinc_unstored call.chan)
    · rfl
  simp only [landed, switchWrites, List.zipIdx_cons, List.zipIdx_nil, List.foldl_cons,
    List.foldl_nil, zeroing, Nat.zero_add, Nat.reduceAdd, if_neg unmoded]
  by_cases second : call.landsAt 1 < t
  · by_cases third : call.landsAt 2 < t
    · rw [if_pos third, if_pos second, if_pos second, Board.xilOut32_stored _ stored,
        Board.xilOut32_stored _ stored, Board.xilOut32_stored _ stored, dropped,
        Function.update_idem]
    · rw [if_neg third, if_pos second, if_pos second, Board.xilOut32_stored _ stored,
        Board.xilOut32_stored _ stored, dropped]
  · have third : ¬ call.landsAt 2 < t := by omega
    rw [if_neg third, if_neg second, if_neg second, dropped]

/-- Until then the fabric goes as if the zero setpoint were all that was written. -/
theorem fabric_landed (early : t ≤ call.landsAt 3) :
    call.fabricAt (call.landed (switchWrites call.chan inc code)) t =
      call.fabricAt call.zeroing t := by
  apply run_congr
  intro u before
  rw [ports, ports, landed_regs (by omega)]

theorem zeroing_mode (u : Nat) : (call.zeroing u).regs (Rdl.chanAddr call.chan .dacOpmode) =
    call.board.regs (Rdl.chanAddr call.chan .dacOpmode) := by
  have stored : Rdl.storedWidth (Rdl.chanAddr call.chan .dacSetpt) = some 20 :=
    Rdl.storedWidth_chanAddr call.chan rfl
  rw [zeroing]
  split
  · rw [Board.xilOut32_stored _ stored, Function.update_of_ne (Rdl.chanAddr_ne (by decide))]
  · rfl

theorem zeroing_setpoint_iff (u : Nat) :
    ((call.zeroing u).regs (Rdl.chanAddr call.chan .dacSetpt)).setWidth 20 = (0 : BitVec 20) ↔
      call.landsAt 1 < u ∨
        (call.board.regs (Rdl.chanAddr call.chan .dacSetpt)).setWidth 20 = (0 : BitVec 20) := by
  have stored : Rdl.storedWidth (Rdl.chanAddr call.chan .dacSetpt) = some 20 :=
    Rdl.storedWidth_chanAddr call.chan rfl
  rw [zeroing]
  by_cases landed : call.landsAt 1 < u
  · rw [if_pos landed, Board.xilOut32_stored _ stored, Function.update_self]
    simp [landed]
  · rw [if_neg landed]
    simp [landed]

/-- What the channel loads until the mode lands is the source of the old mode. -/
theorem source_zeroing_iff {old : OpMode} (u : Nat)
    (mode : call.board.regs (Rdl.chanAddr call.chan .dacOpmode) = old.code) :
    DacChan.source (call.fabricAt call.zeroing u) (call.ports call.zeroing u)
      (call.ports call.zeroing u).dacCntrl.mode = 0 ↔ call.OldSourceZero old u := by
  have selects : (call.ports call.zeroing u).dacCntrl.mode = old.code.setWidth 2 := by
    rw [ports, PsIo.dacCntrl_mode, zeroing_mode, mode]
  rw [selects]
  cases old with
  | smooth => exact Iff.rfl
  | ramp => exact Iff.rfl
  | fofb => exact Iff.rfl
  | jump =>
      change (call.ports call.zeroing u).dacCntrl.setpoint = 0 ↔ _
      rw [ports, PsIo.dacCntrl_setpoint]
      exact zeroing_setpoint_iff u

/-- The channel is driven with zero when the mode lands exactly when its last load, or the
start, has put a zero there. -/
theorem raw_zero_iff {old : OpMode}
    (mode : call.board.regs (Rdl.chanAddr call.chan .dacOpmode) = old.code) :
    (call.fabricAt call.zeroing (call.landsAt 3)).dacSetptRaw = 0 ↔ call.ZeroDriven old := by
  have loads (u : Nat) : DacChan.Loads (call.ports call.zeroing u) ↔ DacChan.Loads (call.inp u) :=
    Iff.rfl
  have loaded := DacChan.raw_loaded call.fabric (call.ports call.zeroing) (call.landsAt 3)
  simp only [loads] at loaded
  rw [fabricAt]
  rcases loaded with ⟨u, before, loadsU, between, value⟩ | ⟨never, value⟩
  · rw [value]
    constructor
    · intro zero
      refine .inl ⟨u, before, loadsU, between, ?_⟩
      cases reset : (call.inp u).reset with
      | true => exact .inl rfl
      | false =>
          have running : (call.ports call.zeroing u).reset = false := reset
          rw [running, if_neg Bool.false_ne_true] at zero
          exact .inr ((source_zeroing_iff u mode).1 zero)
    · rintro (⟨v, before', loadsV, between', zero⟩ | ⟨never, -⟩)
      · obtain rfl : u = v := by
          rcases Nat.lt_trichotomy u v with less | same | more
          · exact absurd loadsV (between v less before')
          · exact same
          · exact absurd loadsU (between' u more before)
        split
        · rfl
        · rename_i running
          exact (source_zeroing_iff u mode).2 (zero.resolve_left running)
      · exact absurd loadsU (never u before)
  · rw [value]
    constructor
    · intro zero
      exact .inr ⟨never, zero⟩
    · rintro (⟨u, before, loadsU, -⟩ | ⟨-, zero⟩)
      · exact absurd loadsU (never u before)
      · exact zero

end Landing

section Calls

variable {call : ModeCall} {old new : OpMode}

theorem result_eq (mode : call.board.regs (Rdl.chanAddr call.chan .dacOpmode) = old.code) :
    call.result new = if Switches old new then
      switchMode (chanNumber call.chan) call.shown new.code else some call.shown :=
  setDacOpmode_eq mode

/-- A mode change that takes effect is a switch whose ramp has a sample, and the channel is
driven with zero. -/
theorem Changes.switch (changes : call.Changes old new) (differ : new ≠ old)
    (mode : call.board.regs (Rdl.chanAddr call.chan .dacOpmode) = old.code) :
    Switches old new ∧ numSamples (chanNumber call.chan) call.shown nearestSingle 0 ≠ 0 ∧
      call.ZeroDriven old := by
  obtain ⟨after, returned, reached, zero⟩ := changes
  have switches : Switches old new := by
    by_contra stays
    rw [result_eq mode, if_neg stays] at returned
    obtain rfl := Option.some.inj returned
    rw [xilIn32_opmode] at reached
    exact differ (OpMode.code_injective (reached.symm.trans mode))
  rw [result_eq mode, if_pos switches] at returned
  have samples : numSamples (chanNumber call.chan) call.shown nearestSingle 0 ≠ 0 := by
    intro short
    rw [switchMode_none _ short] at returned
    exact absurd returned (Option.some_ne_none after).symm
  refine ⟨switches, samples, ?_⟩
  obtain ⟨_, inc, written, writes, -⟩ := switchMode_some new.code samples
  obtain rfl := Option.some.inj (written.symm.trans returned)
  have last := zero switches 3 new.code
  rw [call.writes_eq writes, fabric_landed (Nat.le_refl _), raw_zero_iff mode] at last
  exact last rfl

/-- A switch driven with zero takes effect. -/
theorem changes_of_switch (mode : call.board.regs (Rdl.chanAddr call.chan .dacOpmode) = old.code)
    (switches : Switches old new)
    (samples : numSamples (chanNumber call.chan) call.shown nearestSingle 0 ≠ 0)
    (zero : call.ZeroDriven old) : call.Changes old new := by
  obtain ⟨after, inc, written, writes, stored⟩ := switchMode_some new.code samples
  refine ⟨after, by rw [result_eq mode, if_pos switches, written], ?_, ?_⟩
  · rw [xilIn32_opmode, stored]
    cases new <;> rfl
  · intro _ k value entry
    rw [call.writes_eq writes] at entry ⊢
    obtain rfl := switchWrites_opmode entry
    rw [fabric_landed (Nat.le_refl _), raw_zero_iff mode]
    exact zero

end Calls

/-- A mode change takes effect at zero output exactly between a ramp mode and the jump mode,
when the ramp to zero has a sample to take and the channel has already come to zero. -/
theorem mode_change_iff (call : ModeCall) (old new : OpMode) (differ : new ≠ old)
    (mode : call.board.regs (Rdl.chanAddr call.chan .dacOpmode) = old.code) :
    call.Changes old new ↔ Switches old new ∧
      numSamples (chanNumber call.chan) call.shown nearestSingle 0 ≠ 0 ∧ call.ZeroDriven old :=
  ⟨fun changes => changes.switch differ mode,
    fun ⟨switches, samples, zero⟩ => changes_of_switch mode switches samples zero⟩

/-- A channel at a jump setpoint of 1000, with a tick at every clock or none, and a write of
the call landing at every clock from the second on. -/
def fromJump (tick : Bool) : ModeCall where
  chan := .ps1
  board :=
    { blankBoard with
      regs := Function.update (Function.update (fun _ => 0) (Rdl.chanAddr .ps1 .dacOpmode) 3)
        (Rdl.chanAddr .ps1 .dacSetpt) 1000 }
  fabric :=
    { DacChan.powerUp with
      dacSetptRaw := 1000
      gainoffDac := { DacGainoffset.powerUp with dacSetpt := 1000 } }
  inp _ :=
    { reset := false
      tenkhzTrig := tick
      dacNumbitsSel := true
      dacCntrl := (PsIo.dacCntrl (fun _ => 0) (fun _ => false) false).get .ps1
      digpidEnb := false
      controlOut := 0
      dacRddata := 0
      cordicDout := 0
      fofbDacSetpt := 0 }
  swacc _ _ := false
  injTrig _ := false
  readAt := 0
  landsAt k := k + 1
  read_first := Nat.zero_lt_one
  in_order k := Nat.lt_succ_self (k + 1)

theorem slow_switch_changes : (fromJump true).Changes .jump .smooth := by
  refine (mode_change_iff (fromJump true) .jump .smooth (by decide) rfl).2 ⟨by decide, ?_, ?_⟩
  · decide +kernel
  · refine .inl ⟨3, by decide, .inr rfl, ?_, .inr (.inl (by decide))⟩
    intro v after before
    exact absurd (show v < 4 from before) (by omega)

/-- Without a tick before the mode's write the channel switches at the old setpoint, and a
change to FOFB does nothing. -/
theorem mode_changes_fail : ¬ (fromJump false).Changes .jump .smooth ∧
    ¬ (fromJump false).Changes .jump .fofb := by
  constructor
  · intro changes
    obtain ⟨-, -, driven⟩ := changes.switch (by decide) rfl
    rcases driven with ⟨u, -, loads, -⟩ | ⟨-, zero⟩
    · rcases loads with reset | tick
      · exact absurd reset Bool.false_ne_true
      · exact absurd tick Bool.false_ne_true
    · exact absurd zero (by decide)
  · intro changes
    exact absurd (changes.switch (by decide) rfl).1 (by decide)

end ModeCall

end PscDigpid.Sw
