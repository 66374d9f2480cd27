/- Unit: PscDigpid/Sw/ConsoleReach
   layer: result
   source: src/sw/src/console.c (receive_console_cmd), src/sw/src/control.c (chan_settings)
   digest: Which lines of the console leave the board alone when they name no channel. -/

import PscDigpid.Sw.Console
import PscDigpid.Sw.QspiRoundTrip

set_option autoImplicit false
set_option relaxedAutoImplicit false

namespace PscDigpid.Sw.Console

open PscDigpid.Sw.Hwaddr (Text)

/-- The channels there are. -/
def OnBoard (chan : BitVec 32) : Prop := 1 ≤ chan.toNat ∧ chan.toNat ≤ 4

/-- The channel number a typed line gives, valid or not after it. -/
def givenChannel (typed : Text) : Option (BitVec 32) :=
  (uartReadLine maxInputLen typed).bind fun input =>
    (scanUnsigned (cString input)).map Prod.fst

/-- A typed line is a command. -/
def Commands (typed : Text) (chan addr : BitVec 32) (valStr : Text) : Prop :=
  (uartReadLine maxInputLen typed).bind sscanf = some (chan, addr, valStr)

/-- The mode shown calls for a ramp to zero before the new one. -/
def Switches (mode newOpmode : BitVec 32) : Prop :=
  ((mode = smooth ∨ mode = ramp) ∧ newOpmode = jump) ∨
    (mode = jump ∧ (newOpmode = smooth ∨ newOpmode = ramp))

/-- A message does nothing at all on a board, whatever channel it is for. -/
def Quiet (chan data : BitVec 32) (b : Board) : ChanMsg → Prop
  | .dacOpmode => ¬ Switches (b.xilIn32 (chanReg chan dacOpmodeReg)) data
  | .dacSetpt =>
      b.xilIn32 (chanReg chan dacOpmodeReg) ≠ smooth ∧ b.xilIn32 (chanReg chan dacOpmodeReg) ≠ jump
  | .sfAmpsPerSec => (b.scalefactors (chan - 1)).ampspersec = data
  | .sfDacDccts => (b.scalefactors (chan - 1)).dacDccts = data
  | .sfVout => (b.scalefactors (chan - 1)).vout = data
  | .sfIgnd => (b.scalefactors (chan - 1)).ignd = data
  | .sfSpare => (b.scalefactors (chan - 1)).spare = data
  | .sfRegulator => (b.scalefactors (chan - 1)).regulator = data
  | .sfError => (b.scalefactors (chan - 1)).error = data
  | .writeQspi | .readQspi => data ≠ 1
  | .dumpAdcs => True
  | _ => False

section Messages

variable {chan data : BitVec 32} {b after : Board}

/-- A board with more writes behind it is another. -/
theorem ne_of_writes {addr word : BitVec 32} {more : List (BitVec 32 × BitVec 32)}
    (written : after.writes = b.writes ++ (addr, word) :: more) : after ≠ b := by
  rintro rfl
  exact List.cons_ne_nil _ _ (List.append_right_eq_self.1 written.symm)

theorem xilOut32_ne (addr word : BitVec 32) : b.xilOut32 addr word ≠ b := ne_of_writes rfl

/-- A smooth ramp is two writes, when it is any. -/
theorem calcWriteSmooth_writes_of_some {newSetpt : BitVec 32}
    (smoothed : calcWriteSmooth chan b newSetpt = some after) :
    ∃ inc, after.writes = b.writes ++
      [(chanReg chan smoothPhaseincReg, inc), (chanReg chan dacSetptReg, newSetpt)] := by
  rw [calcWriteSmooth, calcWriteSmoothWith] at smoothed
  dsimp only at smoothed
  split_ifs at smoothed
  rw [← Option.some.inj smoothed]
  exact ⟨_, List.append_assoc b.writes [_] [_]⟩

theorem calcWriteSmooth_ne (newSetpt : BitVec 32) : calcWriteSmooth chan b newSetpt ≠ some b := by
  intro smoothed
  obtain ⟨inc, written⟩ := calcWriteSmooth_writes_of_some smoothed
  exact ne_of_writes written rfl

theorem switchMode_ne (newOpmode : BitVec 32) : switchMode chan b newOpmode ≠ some b := by
  intro switched
  obtain ⟨ramped, smoothed, same⟩ := Option.bind_eq_some_iff.1 switched
  obtain ⟨inc, written⟩ := calcWriteSmooth_writes_of_some smoothed
  have longer := congrArg (fun b => b.writes.length) (Option.some.inj same)
  simp [Board.xilOut32, written] at longer

/-- A mode is set without effect unless it is switched to. -/
theorem setDacOpmode_quiet_iff :
    setDacOpmode chan b data = some b ↔
      ¬ Switches (b.xilIn32 (chanReg chan dacOpmodeReg)) data := by
  rw [setDacOpmode_bind, Switches]
  by_cases up : (b.xilIn32 (chanReg chan dacOpmodeReg) = smooth ∨
      b.xilIn32 (chanReg chan dacOpmodeReg) = ramp) ∧ data = jump
  · have stays : ¬ b.xilIn32 (chanReg chan dacOpmodeReg) = jump := by
      intro mode
      rw [mode] at up
      exact absurd up.1 (by decide)
    simp only [if_pos up, stays, false_and, if_false, Option.bind_fun_some]
    exact iff_of_false (switchMode_ne jump) fun quiet => quiet (.inl up)
  · rw [if_neg up, Option.bind_some]
    split_ifs with down
    · exact iff_of_false (switchMode_ne data) fun quiet => quiet (.inr down)
    · exact iff_of_true rfl (not_or.2 ⟨up, down⟩)

theorem setDac_quiet_iff (amps : ℚ) :
    setDac chan b amps = some b ↔
      b.xilIn32 (chanReg chan dacOpmodeReg) ≠ smooth ∧
        b.xilIn32 (chanReg chan dacOpmodeReg) ≠ jump := by
  rw [setDac_eq]
  split_ifs with smoothMode jumpMode
  · exact iff_of_false (calcWriteSmooth_ne _) fun other => other.1 smoothMode
  · exact iff_of_false (fun same => xilOut32_ne _ _ (Option.some.inj same))
      fun other => other.2 jumpMode
  · exact iff_of_true rfl ⟨smoothMode, jumpMode⟩

/-- A scale factor is set without effect where it is there already. -/
theorem updateScalefactors_quiet_iff {f : ScaleFactorType → ScaleFactorType}
    {field : ScaleFactorType → BitVec 32} (sets : ∀ sf, f sf = sf ↔ field sf = data) :
    some (updateScalefactors chan b f) = some b ↔ field (b.scalefactors (chan - 1)) = data := by
  rw [← sets, Option.some.injEq]
  constructor
  · intro same
    have factors := congrArg (fun b => b.scalefactors (chan - 1)) same
    rwa [updateScalefactors, Board.setScalefactors_self] at factors
  · intro same
    rw [updateScalefactors, Board.setScalefactors, same, Function.update_eq_self]

/-- A page that is dispersed is written to the registers. -/
theorem qspiDisperseData_writes (page : Page) :
    (qspiDisperseData chan b page).writes = b.writes ++
      qspiRegs.zipIdx.map fun entry => (chan * chBaseAddr + entry.1, page (entry.2 + 1)) := by
  rw [disperse_eq]
  exact b.xilOut32s_writes _

theorem qspiDisperseData_ne {before : Board} (same : before.writes = b.writes) (page : Page) :
    qspiDisperseData chan before page ≠ b := by
  rintro rfl
  rw [qspiDisperseData_writes, List.self_eq_append_right, List.map_eq_nil_iff,
    List.zipIdx_eq_nil_iff] at same
  exact List.cons_ne_nil _ _ same

theorem qspiFlashEraseSect_writes (sector : BitVec 32) :
    (qspiFlashEraseSect b sector).writes = b.writes :=
  rfl

theorem qspiFlashWrite_writes (address : BitVec 32) (page : Page) :
    (qspiFlashWrite b address page).writes = b.writes :=
  rfl

theorem writeQspi_ne (page : Page) : writeQspi chan b page ≠ b :=
  qspiDisperseData_ne ((qspiFlashWrite_writes _ _).trans (qspiFlashEraseSect_writes _)) _

theorem readQspi_ne (page : Page) : readQspi chan b page ≠ b := qspiDisperseData_ne rfl _

/-- The flash is read or written for a one only. -/
theorem if_one_quiet_iff (ne : after ≠ b) :
    some (if data = 1 then after else b) = some b ↔ data ≠ 1 := by
  rw [Option.some.injEq]
  split_ifs with one
  · exact iff_of_false ne fun other => other one
  · exact iff_of_true rfl one

/-- Every other message writes a register, whatever the channel and the data. -/
theorem chanMessage_quiet_iff (page : Page) (m : ChanMsg) :
    chanMessage chan data b page m = some b ↔ Quiet chan data b m := by
  cases m with
  | dacOpmode => exact setDacOpmode_quiet_iff
  | dacSetpt => exact setDac_quiet_iff (Num.single data)
  | sfAmpsPerSec => exact updateScalefactors_quiet_iff fun sf => by cases sf; simp [eq_comm]
  | sfDacDccts => exact updateScalefactors_quiet_iff fun sf => by cases sf; simp [eq_comm]
  | sfVout => exact updateScalefactors_quiet_iff fun sf => by cases sf; simp [eq_comm]
  | sfIgnd => exact updateScalefactors_quiet_iff fun sf => by cases sf; simp [eq_comm]
  | sfSpare => exact updateScalefactors_quiet_iff fun sf => by cases sf; simp [eq_comm]
  | sfRegulator => exact updateScalefactors_quiet_iff fun sf => by cases sf; simp [eq_comm]
  | sfError => exact updateScalefactors_quiet_iff fun sf => by cases sf; simp [eq_comm]
  | writeQspi => exact if_one_quiet_iff (writeQspi_ne page)
  | readQspi => exact if_one_quiet_iff (readQspi_ne page)
  | dumpAdcs => exact iff_of_true rfl trivial
  | _ => exact iff_of_false (fun same => xilOut32_ne _ _ (Option.some.inj same)) id

/-- The message of a command does nothing exactly when the command is unknown or quiet. -/
theorem chanSettings_quiet_iff (page : Page) (addr : BitVec 32) :
    chanSettings page chan (msgBuf addr data) b = some b ↔
      ∀ m, ChanMsg.ofAddr addr = some m → Quiet chan data b m := by
  rw [chanSettings, chanSettingsWith, msgBuf_addr, msgBuf_data]
  cases ChanMsg.ofAddr addr with
  | none =>
      refine iff_of_true rfl ?_
      intro m known
      cases known
  | some known =>
      refine (chanMessage_quiet_iff page known).trans ?_
      simp only [Option.some.injEq, forall_eq']

end Messages

section Lines

variable {typed : Text} {chan addr : BitVec 32} {valStr : Text}

/-- The channel of a command is the number the line begins with. -/
theorem Commands.givenChannel_eq (command : Commands typed chan addr valStr) :
    givenChannel typed = some chan := by
  obtain ⟨input, read, scanned⟩ := Option.bind_eq_some_iff.1 command
  obtain ⟨first, number, later⟩ := Option.bind_eq_some_iff.1 scanned
  obtain ⟨second, -, later⟩ := Option.bind_eq_some_iff.1 later
  obtain ⟨word, -, items⟩ := Option.map_eq_some_iff.1 later
  rw [givenChannel, read, Option.bind_some, number, Option.map_some]
  exact congrArg some (Prod.ext_iff.1 items).1

theorem receiveConsoleCmd_eq (strtof : Text → BitVec 32) (page : Page) (typed : Text)
    (b : Board) :
    receiveConsoleCmd strtof page typed b =
      match (uartReadLine maxInputLen typed).bind sscanf with
      | none => some b
      | some (chan, addr, valStr) =>
          chanSettings page chan (msgBuf addr (consoleData strtof valStr)) b := by
  rw [receiveConsoleCmd]
  cases uartReadLine maxInputLen typed <;> rfl

/-- A line changes the board only by the message of its command. -/
theorem receiveConsoleCmd_quiet_iff (strtof : Text → BitVec 32) (page : Page) (typed : Text)
    (b : Board) :
    receiveConsoleCmd strtof page typed b = some b ↔
      ∀ chan addr valStr, Commands typed chan addr valStr →
        chanSettings page chan (msgBuf addr (consoleData strtof valStr)) b = some b := by
  simp only [receiveConsoleCmd_eq, Commands]
  cases (uartReadLine maxInputLen typed).bind sscanf with
  | none => exact iff_of_true rfl nofun
  | some items =>
      obtain ⟨chan, addr, valStr⟩ := items
      constructor
      · rintro handled _ _ _ ⟨⟩
        exact handled
      · exact fun handled => handled chan addr valStr rfl

end Lines

/-- A line that names none of the channels leaves the board as it was, every write on the bus
counted, exactly when its command is quiet on it. -/
theorem unreached_iff (strtof : Text → BitVec 32) (page : Page) (typed : Text) (b : Board) :
    (∀ chan, givenChannel typed = some chan → ¬ OnBoard chan →
      receiveConsoleCmd strtof page typed b = some b) ↔
    ∀ chan addr valStr m, Commands typed chan addr valStr → ¬ OnBoard chan →
      ChanMsg.ofAddr addr = some m → Quiet chan (consoleData strtof valStr) b m := by
  simp only [receiveConsoleCmd_quiet_iff, chanSettings_quiet_iff]
  constructor
  · intro alone chan addr valStr m command off known
    exact alone chan command.givenChannel_eq off chan addr valStr command m known
  · intro quiet chan given off chan' addr valStr command m known
    have same : chan' = chan := Option.some.inj (command.givenChannel_eq.symm.trans given)
    exact quiet chan' addr valStr m command (same ▸ off) known

/-- The setpoint gain of channel 0 is the event code of the post mortem trigger. -/
theorem eventCode_reached :
    givenChannel "0 116 1065353216\r".toList = some 0 ∧ ¬ OnBoard 0 ∧
    (receiveConsoleCmd (fun _ => 0) (fun _ => 0) "0 116 1065353216\r".toList blankBoard).map
      (fun b => b.regs (Rdl.globAddr .evrPmEventno)) = some 0xFF ∧
    blankBoard.regs (Rdl.globAddr .evrPmEventno) = 0 ∧
    ¬ ∀ chan, givenChannel "0 116 1065353216\r".toList = some chan → ¬ OnBoard chan →
      receiveConsoleCmd (fun _ => 0) (fun _ => 0) "0 116 1065353216\r".toList blankBoard =
        some blankBoard := by
  have command : (uartReadLine maxInputLen "0 116 1065353216\r".toList).bind sscanf =
      some (0, 116, "1065353216".toList) := by decide +kernel
  have data : consoleData (fun _ => 0) "1065353216".toList = 0x3F800000 := by decide +kernel
  have received : receiveConsoleCmd (fun _ => 0) (fun _ => 0) "0 116 1065353216\r".toList
      blankBoard = chanSettings (fun _ => 0) 0 (msgBuf 116 0x3F800000) blankBoard := by
    rw [receiveConsoleCmd_eq, command]
    exact congrArg (fun data => chanSettings (fun _ => 0) 0 (msgBuf 116 data) blankBoard) data
  have code : (chanSettings (fun _ => 0) 0 (msgBuf 116 0x3F800000) blankBoard).map
      (fun b => b.regs (Rdl.globAddr .evrPmEventno)) = some 0xFF := by decide +kernel
  have off : ¬ OnBoard 0 := fun within => absurd within.1 (by decide)
  rw [received]
  refine ⟨Commands.givenChannel_eq command, off, code, rfl, ?_⟩
  intro alone
  rw [alone 0 (Commands.givenChannel_eq command) off] at code
  exact absurd code (by decide)

end PscDigpid.Sw.Console
