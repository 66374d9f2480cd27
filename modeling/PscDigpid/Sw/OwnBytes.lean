/- Unit: PscDigpid/Sw/OwnBytes
   layer: result
   source: src/sw/src/main.c, src/sw/src/control.c, src/sw/src/listener.c
   digest: Which messages act through their own bytes only, whatever came before. -/

import PscDigpid.Sw.QspiRoundTrip

set_option autoImplicit false
set_option relaxedAutoImplicit false

namespace PscDigpid.Sw

open PscDigpid.Hdl (Chan)
open PscDigpid.Num
open PscDigpid.Sync
open Pscmsg (Byte)

/-- A board without the history of its writes. -/
def Board.settings (b : Board) : Board := { b with writes := [] }

/-- A message leaves equal registers, scale factors and flash from equal ones, whatever the two
clients sent before and whatever is on the stack. -/
def OwnBytes (msgid : BitVec 16) (payload : List Byte) : Prop :=
  ∀ (start start' s s' : ClientState) (earlier earlier' : List Incoming) (page page' : Page),
    exec handleMessage start earlier = some s → exec handleMessage start' earlier' = some s' →
    s.board.settings = s'.board.settings →
    (handleMessage s ⟨msgid, payload, page⟩).map (·.board.settings) =
      (handleMessage s' ⟨msgid, payload, page'⟩).map (·.board.settings)

/-- The messages whose handlers read two words, whatever the length. -/
def ReadsTwoWords (msgid : BitVec 16) : Prop :=
  msgid = 0 ∨ msgid = 1 ∨ msgid = 2 ∨ msgid = 3 ∨ msgid = 4

/-- A whole message that has a channel's settings saved: the record is filled up to a page with
what is on the stack. -/
def SavesSettings (msgid : BitVec 16) (payload : List Byte) : Prop :=
  (msgid = 1 ∨ msgid = 2 ∨ msgid = 3 ∨ msgid = 4) ∧ 8 ≤ payload.length ∧
    msgWord (payload.getD · 0) 0 = ChanMsg.writeQspi.addr ∧ msgWord (payload.getD · 0) 1 = 1

section History

variable {chan data : BitVec 32} {b b' : Board}

theorem settings_eq_iff : b.settings = b'.settings ↔ ∃ ws, b' = { b with writes := ws } := by
  constructor
  · intro same
    obtain ⟨regs, status, -, scalefactors, conv, flash⟩ := Board.mk.inj same
    refine ⟨b'.writes, ?_⟩
    rw [Board.mk.injEq]
    exact ⟨regs.symm, status.symm, rfl, scalefactors.symm, conv.symm, flash.symm⟩
  · rintro ⟨ws, rfl⟩
    rfl

/-- What comes next sees the history no more than what comes first. -/
theorem map_settings_bind {x y : Option Board} {f g : Board → Option Board}
    (first : x.map Board.settings = y.map Board.settings)
    (next : ∀ b b', b.settings = b'.settings →
      (f b).map Board.settings = (g b').map Board.settings) :
    (x.bind f).map Board.settings = (y.bind g).map Board.settings := by
  cases x with
  | none =>
      cases y with
      | none => rfl
      | some b' => cases first
  | some b =>
      cases y with
      | none => cases first
      | some b' => exact next b b' (Option.some.inj first)

theorem xilOut32_settings (same : b.settings = b'.settings) (addr data : BitVec 32) :
    (b.xilOut32 addr data).settings = (b'.xilOut32 addr data).settings := by
  obtain ⟨ws, rfl⟩ := settings_eq_iff.1 same
  rfl

theorem setScalefactors_settings (same : b.settings = b'.settings) (sf : ScaleFactorType) :
    (b.setScalefactors chan sf).settings = (b'.setScalefactors chan sf).settings := by
  obtain ⟨ws, rfl⟩ := settings_eq_iff.1 same
  rfl

theorem calcWriteSmooth_settings (same : b.settings = b'.settings) (setpt : BitVec 32) :
    (calcWriteSmooth chan b setpt).map Board.settings =
      (calcWriteSmooth chan b' setpt).map Board.settings := by
  obtain ⟨ws, rfl⟩ := settings_eq_iff.1 same
  rw [calcWriteSmooth, calcWriteSmooth, calcWriteSmoothWith, calcWriteSmoothWith]
  change Option.map _ (if numSamples chan b nearestSingle setpt = 0 then _ else _) =
    Option.map _ (if numSamples chan b nearestSingle setpt = 0 then _ else _)
  split <;> rfl

theorem switchMode_settings (same : b.settings = b'.settings) (mode : BitVec 32) :
    (switchMode chan b mode).map Board.settings =
      (switchMode chan b' mode).map Board.settings := by
  apply map_settings_bind (calcWriteSmooth_settings same 0)
  intro ramped ramped' alike
  exact congrArg some (xilOut32_settings (xilOut32_settings alike _ _) _ _)

theorem setDacOpmode_settings (same : b.settings = b'.settings) (mode : BitVec 32) :
    (setDacOpmode chan b mode).map Board.settings =
      (setDacOpmode chan b' mode).map Board.settings := by
  have read : b'.xilIn32 (chanReg chan dacOpmodeReg) = b.xilIn32 (chanReg chan dacOpmodeReg) := by
    obtain ⟨ws, rfl⟩ := settings_eq_iff.1 same
    rfl
  rw [setDacOpmode_bind, setDacOpmode_bind, read]
  apply map_settings_bind
  · split
    · exact switchMode_settings same jump
    · exact congrArg some same
  · intro first first' alike
    split
    · exact switchMode_settings alike mode
    · exact congrArg some alike

theorem setDac_settings (same : b.settings = b'.settings) (amps : ℚ) :
    (setDac chan b amps).map Board.settings = (setDac chan b' amps).map Board.settings := by
  have smoothed : ∀ setpt, (calcWriteSmooth chan b setpt).map Board.settings =
      (calcWriteSmooth chan b' setpt).map Board.settings := fun setpt =>
    calcWriteSmooth_settings same setpt
  obtain ⟨ws, rfl⟩ := settings_eq_iff.1 same
  rw [setDac_eq, setDac_eq]
  change Option.map _ (if b.xilIn32 (chanReg chan dacOpmodeReg) = smooth then _ else _) =
    Option.map _ (if b.xilIn32 (chanReg chan dacOpmodeReg) = smooth then _ else
      if b.xilIn32 (chanReg chan dacOpmodeReg) = jump then _ else _)
  split
  · exact smoothed _
  · split <;> rfl

theorem foldl_settings {α : Type} {l : List α} {f g : Board → α → Board}
    (same : b.settings = b'.settings)
    (step : ∀ a ∈ l, ∀ b b', b.settings = b'.settings → (f b a).settings = (g b' a).settings) :
    (l.foldl f b).settings = (l.foldl g b').settings :=
  List.foldl_rel (r := fun b b' : Board => b.settings = b'.settings) same step

/-- The header of a page is not dispersed. -/
theorem qspiDisperseData_settings (same : b.settings = b'.settings) {page page' : Page}
    (alike : ∀ k, page (k + 1) = page' (k + 1)) :
    (qspiDisperseData chan b page).settings = (qspiDisperseData chan b' page').settings := by
  have registers : (qspiRegs.zipIdx.foldl
        (fun b entry => b.xilOut32 (chan * chBaseAddr + entry.1) (page (entry.2 + 1))) b).settings =
      (qspiRegs.zipIdx.foldl
        (fun b entry => b.xilOut32 (chan * chBaseAddr + entry.1) (page' (entry.2 + 1)))
        b').settings := by
    apply foldl_settings same
    intro entry _ b b' before
    rw [alike]
    exact xilOut32_settings before _ _
  rw [qspiDisperseData, qspiDisperseData, alike 37, alike 38, alike 39, alike 40, alike 41,
    alike 42, alike 43]
  exact setScalefactors_settings registers _

theorem readQspi_settings (same : b.settings = b'.settings) (page page' : Page) :
    (readQspi chan b page).settings = (readQspi chan b' page').settings := by
  apply qspiDisperseData_settings same
  intro k
  obtain ⟨ws, rfl⟩ := settings_eq_iff.1 same
  rw [qspiFlashRead, qspiFlashRead, if_neg (Nat.succ_ne_zero k), if_neg (Nat.succ_ne_zero k)]

/-- What a channel's message does to a board does not depend on the history, nor on the stack
unless the settings are saved. -/
theorem chanMessage_settings (same : b.settings = b'.settings) (page page' : Page) {m : ChanMsg}
    (calm : ¬ (m = .writeQspi ∧ data = 1)) :
    (chanMessage chan data b page m).map Board.settings =
      (chanMessage chan data b' page' m).map Board.settings := by
  cases m
  case dacOpmode => exact setDacOpmode_settings same data
  case dacSetpt => exact setDac_settings same (single data)
  case readQspi =>
    rw [chanMessage, chanMessage, chanMessageWith, chanMessageWith]
    split
    · exact congrArg some (readQspi_settings same page page')
    · exact congrArg some same
  case writeQspi =>
    rw [chanMessage, chanMessage, chanMessageWith, chanMessageWith,
      if_neg fun one => calm ⟨rfl, one⟩, if_neg fun one => calm ⟨rfl, one⟩]
    exact congrArg some same
  all_goals
    obtain ⟨ws, rfl⟩ := settings_eq_iff.1 same
    rfl

theorem globSettings_settings (same : b.settings = b'.settings) {msg msg' : Nat → Byte}
    (address : msgWord msg 0 = msgWord msg' 0) (word : msgWord msg 1 = msgWord msg' 1) :
    (globSettings b msg).settings = (globSettings b' msg').settings := by
  obtain ⟨ws, rfl⟩ := settings_eq_iff.1 same
  rw [globSettings, globSettings, address, word]
  split
  next m _ =>
    cases m
    case evrReset =>
      rw [globMessage, globMessage]
      split <;> rfl
    all_goals rfl
  · rfl

theorem writeRamptable_settings (same : b.settings = b'.settings) {msg msg' : Nat → Byte}
    {msglen : Nat} (words : ∀ k, k < msglen / 4 → msgWord msg k = msgWord msg' k) :
    (writeRamptable exact chan msg msglen b).settings =
      (writeRamptable exact chan msg' msglen b').settings := by
  obtain ⟨ws, rfl⟩ := settings_eq_iff.1 same
  rw [writeRamptable, writeRamptable]
  split
  · rfl
  · dsimp only
    apply foldl_settings (xilOut32_settings same _ _)
    intro i mem b b' before
    obtain ⟨ws', rfl⟩ := settings_eq_iff.1 before
    rw [writeRampPoint, writeRampPoint, words i (List.mem_range.1 mem)]
    rfl

/-- What a delivered message does to a board depends on the words its handler reads. -/
theorem clientMsg_settings (same : b.settings = b'.settings) {d d' : Delivered}
    (id : d.msgid = d'.msgid) (len : d.msglen = d'.msglen)
    (two : ReadsTwoWords d.msgid →
      msgWord d.msg 0 = msgWord d'.msg 0 ∧ msgWord d.msg 1 = msgWord d'.msg 1)
    (ramp : d.msgid = 101 → ∀ k, k < d.msglen / 4 → msgWord d.msg k = msgWord d'.msg k)
    (calm : ¬ (d.toChan ∧ msgWord d.msg 0 = ChanMsg.writeQspi.addr ∧ msgWord d.msg 1 = 1)) :
    (clientMsg b d).map Board.settings = (clientMsg b' d').map Board.settings := by
  have blinked : (blinkAccess b).settings = (blinkAccess b').settings :=
    xilOut32_settings (xilOut32_settings same _ _) _ _
  have toChan : d.toChan ↔ d'.toChan := by
    rw [Delivered.toChan, Delivered.toChan, id]
  rw [clientMsg, clientMsg, clientMsgWith, clientMsgWith, ← id, ← len]
  by_cases zero : d.msgid = 0
  · obtain ⟨address, word⟩ := two (.inl zero)
    rw [if_pos zero, if_pos zero]
    exact congrArg some (globSettings_settings blinked address word)
  · rw [if_neg zero, if_neg zero]
    by_cases chan : d.toChan
    · obtain ⟨address, word⟩ := two (.inr chan)
      rw [if_pos chan, if_pos (toChan.1 chan), chanSettingsWith, chanSettingsWith, ← address,
        ← word]
      split
      next m found =>
        apply chanMessage_settings blinked
        rintro ⟨rfl, one⟩
        exact calm ⟨chan, (addr_of_ofAddr found).symm, one⟩
      · exact congrArg some blinked
    · rw [if_neg chan, if_neg fun chan' => chan (toChan.2 chan')]
      by_cases table : d.msgid = 101
      · rw [if_pos table, if_pos table]
        exact congrArg some (writeRamptable_settings blinked (ramp table))
      · rw [if_neg table, if_neg table]
        exact congrArg some blinked

end History

section Buffer

variable (m : Incoming) (rxbuf : Nat → Byte)

theorem msglen_delivered : (delivered rxbuf m).msglen = (m.payload.take rxbufLen).length :=
  rfl

/-- The bytes of a message are in the buffer, whatever was there. -/
theorem msg_delivered {k : Nat} (low : k < (delivered rxbuf m).msglen) :
    (delivered rxbuf m).msg k = m.payload.getD k 0 := by
  rw [msglen_delivered, List.length_take, Nat.lt_min] at low
  change (m.payload.take rxbufLen).getD k (rxbuf k) = _
  rw [List.getD_eq_getElem?_getD, List.getD_eq_getElem?_getD, List.getElem?_take_of_lt low.1,
    List.getElem?_eq_getElem low.2, Option.getD_some, Option.getD_some]

theorem msgWord_delivered {j : Nat} (low : 4 * j + 4 ≤ (delivered rxbuf m).msglen) :
    msgWord (delivered rxbuf m).msg j = msgWord (m.payload.getD · 0) j := by
  rw [msgWord, msg_delivered m rxbuf (by omega), msg_delivered m rxbuf (by omega),
    msg_delivered m rxbuf (by omega), msg_delivered m rxbuf (by omega), msgWord]

theorem eight_delivered (enough : 8 ≤ m.payload.length) : 8 ≤ (delivered rxbuf m).msglen := by
  rw [msglen_delivered, List.length_take, rxbufLen]
  omega

theorem handleMessage_settings (s : ClientState) :
    (handleMessage s m).map (·.board.settings) =
      (clientMsg s.board (delivered s.rxbuf m)).map Board.settings := by
  rw [handleMessage, Option.map_map]
  rfl

end Buffer

/-- A message long enough for its handler, and no save of the settings, acts through its own
bytes. -/
theorem ownBytes_of_enough {msgid : BitVec 16} {payload : List Byte}
    (enough : ReadsTwoWords msgid → 8 ≤ payload.length) (calm : ¬ SavesSettings msgid payload) :
    OwnBytes msgid payload := by
  intro start start' s s' earlier earlier' page page' _ _ same
  rw [handleMessage_settings, handleMessage_settings]
  have words : ∀ j, 4 * j + 4 ≤ (delivered s.rxbuf ⟨msgid, payload, page⟩).msglen →
      msgWord (delivered s.rxbuf ⟨msgid, payload, page⟩).msg j = msgWord (payload.getD · 0) j ∧
      msgWord (delivered s'.rxbuf ⟨msgid, payload, page'⟩).msg j = msgWord (payload.getD · 0) j :=
    fun j low => ⟨msgWord_delivered _ _ low, msgWord_delivered _ _ low⟩
  apply clientMsg_settings same
  · rfl
  · rw [msglen_delivered, msglen_delivered]
  · intro reads
    have long := eight_delivered ⟨msgid, payload, page⟩ s.rxbuf (enough reads)
    have first := words 0 (by omega)
    have second := words 1 (by omega)
    exact ⟨first.1.trans first.2.symm, second.1.trans second.2.symm⟩
  · intro _ k low
    have word := words k (by omega)
    exact word.1.trans word.2.symm
  · rintro ⟨chan, address, one⟩
    have long := eight_delivered ⟨msgid, payload, page⟩ s.rxbuf (enough (.inr chan))
    refine calm ⟨chan, enough (.inr chan), ?_, ?_⟩
    · exact (words 0 (by omega)).1.symm.trans address
    · exact (words 1 (by omega)).1.symm.trans one

section Filler

/-- What a save writes behind the record is what was on the stack. -/
theorem writeQspi_filler (c : Chan) (b : Board) (page : Page) :
    (writeQspi (chanNumber c) b page).flash
      (flashAddr (chanNumber c * flashSectorSize) + BitVec.ofNat 24 176) = page 45 := by
  have behind : qspiGatherData (chanNumber c) (qspiFlashEraseSect b (chanNumber c)) page (44 + 1) =
      page 45 := by
    have length : (settingsWords c (qspiFlashEraseSect b (chanNumber c))).length = 44 := rfl
    change (settingsWords c (qspiFlashEraseSect b (chanNumber c))).getD 44 (page 45) = page 45
    rw [List.getD_eq_getElem?_getD, List.getElem?_eq_none length.le, Option.getD_none]
  have word := writeQspi_word c b page (show 44 < 63 by decide)
  rwa [behind] at word

/-- A save does not act through its own bytes only. -/
theorem savesSettings_acts {msgid : BitVec 16} {payload : List Byte}
    (saves : SavesSettings msgid payload) : ¬ OwnBytes msgid payload := by
  obtain ⟨chan, enough, address, one⟩ := saves
  have long := fun page => eight_delivered ⟨msgid, payload, page⟩ (fun _ => 0) enough
  obtain ⟨c, number⟩ :=
    chan_of_toChan (d := delivered (fun _ => 0) ⟨msgid, payload, fun _ => 0⟩) chan
  have asks : ∀ page, (delivered (fun _ => 0) ⟨msgid, payload, page⟩).Asks c .writeQspi := by
    intro page
    have low := long page
    refine ⟨number, ?_, ?_⟩
    · exact (msgWord_delivered _ _ (by omega)).trans address
    · exact (msgWord_delivered _ _ (by omega)).trans one
  have saved : ∀ page,
      (handleMessage ⟨blankBoard, fun _ => 0⟩ ⟨msgid, payload, page⟩).map (·.board.settings) =
        some (writeQspi (chanNumber c) (blinkAccess blankBoard) page).settings := by
    intro page
    rw [handleMessage_settings, clientMsg_asks (asks page), chanMessage,
      chanMessageWith, if_pos rfl]
    rfl
  intro own
  have equal := own ⟨blankBoard, fun _ => 0⟩ ⟨blankBoard, fun _ => 0⟩ _ _ [] [] (fun _ => 0)
    (fun _ => 1) rfl rfl rfl
  rw [saved, saved] at equal
  have fillers := congrArg (fun b : Board =>
    b.flash (flashAddr (chanNumber c * flashSectorSize) + BitVec.ofNat 24 176))
    (Option.some.inj equal)
  have zero := writeQspi_filler c (blinkAccess blankBoard) fun _ => 0
  have one := writeQspi_filler c (blinkAccess blankBoard) fun _ => 1
  exact absurd (zero.symm.trans (fillers.trans one)) (by decide)

end Filler

section Short

/-- A message that turns something on or off: an LED, or the first digital output of a channel. -/
def switchBytes (msgid : BitVec 16) (value : Byte) : List Byte :=
  if msgid = 0 then [0, 0, 0, 8, 0, 0, 0, value] else [0, 0, 1, 12, 0, 0, 0, value]

/-- Its register. -/
def switchReg (msgid : BitVec 16) : BitVec 32 :=
  if msgid = 0 then ledsReg else chanReg (msgid.setWidth 32) digoutOn1Reg

/-- The client before: its last message was of no known kind and had these bytes. -/
def afterUnknown (msgid : BitVec 16) (value : Byte) : ClientState where
  board := blinkAccess blankBoard
  rxbuf := received (fun _ => 0) (switchBytes msgid value)

theorem length_switchBytes (msgid : BitVec 16) (value : Byte) :
    (switchBytes msgid value).length = 8 := by
  rw [switchBytes]
  split <;> rfl

theorem take_rxbufLen {payload : List Byte} (fits : payload.length ≤ 8) :
    payload.take rxbufLen = payload :=
  List.take_of_length_le (fits.trans (by decide))

theorem afterUnknown_reached (msgid : BitVec 16) (value : Byte) :
    exec handleMessage ⟨blankBoard, fun _ => 0⟩ [⟨999, switchBytes msgid value, fun _ => 0⟩] =
      some (afterUnknown msgid value) := by
  have whole := take_rxbufLen (length_switchBytes msgid value).le
  have buffer : (delivered (fun _ => 0) ⟨999, switchBytes msgid value, fun _ => 0⟩).msg =
      (afterUnknown msgid value).rxbuf := congrArg (received fun _ => 0) whole
  have board : clientMsg blankBoard
      (delivered (fun _ => 0) ⟨999, switchBytes msgid value, fun _ => 0⟩) =
      some (blinkAccess blankBoard) := rfl
  have turn : handleMessage ⟨blankBoard, fun _ => 0⟩ ⟨999, switchBytes msgid value, fun _ => 0⟩ =
      some (afterUnknown msgid value) := by
    rw [handleMessage, board, buffer]
    rfl
  exact exec_cons.2 ⟨_, turn, rfl⟩

/-- A part of the message leaves the buffer as it is. -/
theorem received_part (msgid : BitVec 16) (value : Byte) {n : Nat} (short : n < 8) :
    received (afterUnknown msgid value).rxbuf (((switchBytes msgid 0).take n).take rxbufLen) =
      (afterUnknown msgid value).rxbuf := by
  have begins : (switchBytes msgid 0).take 7 = (switchBytes msgid value).take 7 := by
    rw [switchBytes, switchBytes]
    split <;> rfl
  have part : ((switchBytes msgid 0).take n).take rxbufLen = (switchBytes msgid value).take n := by
    rw [take_rxbufLen (by rw [List.length_take]; omega),
      ← Nat.min_eq_left (Nat.le_of_lt_succ short), ← List.take_take, begins, List.take_take]
  funext k
  rw [part, received, List.getD_eq_getElem?_getD]
  by_cases low : k < n
  · have there : k < (switchBytes msgid value).length := by
      rw [length_switchBytes]
      omega
    rw [List.getElem?_take_of_lt low, List.getElem?_eq_getElem there, Option.getD_some]
    change _ = (switchBytes msgid value).getD k 0
    rw [List.getD_eq_getElem?_getD, List.getElem?_eq_getElem there, Option.getD_some]
  · rw [List.getElem?_take_eq_none (Nat.le_of_not_lt low), Option.getD_none]

theorem led_address (value : Byte) :
    msgWord (afterUnknown 0 value).rxbuf 0 = GlobMsg.addr .fpLed := by
  simp [msgWord, afterUnknown, received, switchBytes, GlobMsg.addr]

theorem digout_address {msgid : BitVec 16} (other : msgid ≠ 0) (value : Byte) :
    msgWord (afterUnknown msgid value).rxbuf 0 = ChanMsg.addr .digoutOn1 := by
  have bytes : switchBytes msgid value = [0, 0, 1, 12, 0, 0, 0, value] := if_neg other
  simp [msgWord, afterUnknown, received, bytes, ChanMsg.addr]

/-- The handler does what the buffer says. -/
theorem clientMsg_switch {msgid : BitVec 16} (reads : ReadsTwoWords msgid) (value : Byte)
    (len : Nat) :
    clientMsg (blinkAccess blankBoard) ⟨msgid, (afterUnknown msgid value).rxbuf, len,
        fun _ => 0⟩ =
      some ((blinkAccess (blinkAccess blankBoard)).xilOut32 (switchReg msgid)
        (msgWord (afterUnknown msgid value).rxbuf 1)) := by
  rcases reads with rfl | chan
  · change some (globSettings _ (afterUnknown 0 value).rxbuf) = _
    rw [globSettings, led_address]
    rfl
  · have other : msgid ≠ 0 := by
      rintro rfl
      exact absurd chan (by decide)
    obtain ⟨c, number⟩ := chan_of_toChan
      (d := ⟨msgid, (afterUnknown msgid value).rxbuf, len, fun _ => 0⟩) chan
    rw [clientMsg_chan number, chanSettings, chanSettingsWith, digout_address other,
      ChanMsg.ofAddr_addr, switchReg, if_neg other, ← number]
    rfl

/-- Its register tells on from off. -/
theorem switch_told {msgid : BitVec 16} (reads : ReadsTwoWords msgid) :
    (Rdl.storedWidth (switchReg msgid)).isSome ∧
      Board.kept (switchReg msgid) (msgWord (afterUnknown msgid 0).rxbuf 1) ≠
        Board.kept (switchReg msgid) (msgWord (afterUnknown msgid 1).rxbuf 1) := by
  rcases reads with rfl | rfl | rfl | rfl | rfl <;> decide

theorem short_acts {msgid : BitVec 16} (reads : ReadsTwoWords msgid) {n : Nat} (short : n < 8) :
    ¬ OwnBytes msgid ((switchBytes msgid 0).take n) := by
  intro own
  have equal := own _ _ _ _ _ _ (fun _ => 0) (fun _ => 0) (afterUnknown_reached msgid 0)
    (afterUnknown_reached msgid 1) rfl
  have deliveredAs : ∀ value, delivered (afterUnknown msgid value).rxbuf
      ⟨msgid, (switchBytes msgid 0).take n, fun _ => 0⟩ =
      ⟨msgid, (afterUnknown msgid value).rxbuf,
        (((switchBytes msgid 0).take n).take rxbufLen).length, fun _ => 0⟩ := by
    intro value
    rw [delivered, received_part msgid value short]
  rw [handleMessage_settings, handleMessage_settings, deliveredAs, deliveredAs] at equal
  change (clientMsg (blinkAccess blankBoard) _).map _ =
    (clientMsg (blinkAccess blankBoard) _).map _ at equal
  rw [clientMsg_switch reads, clientMsg_switch reads, Option.map_some, Option.map_some] at equal
  obtain ⟨stored, told⟩ := switch_told reads
  have regs : ((blinkAccess (blinkAccess blankBoard)).xilOut32 (switchReg msgid)
      (msgWord (afterUnknown msgid 0).rxbuf 1)).regs (switchReg msgid) =
      ((blinkAccess (blinkAccess blankBoard)).xilOut32 (switchReg msgid)
        (msgWord (afterUnknown msgid 1).rxbuf 1)).regs (switchReg msgid) :=
    congrFun (congrArg Board.regs (Option.some.inj equal)) (switchReg msgid)
  rw [Board.xilOut32_regs _ stored, Board.xilOut32_regs _ stored, Function.update_self,
    Function.update_self] at regs
  exact told regs

end Short

/-- A message acts through its own bytes only, when it is not a save of the settings, exactly if
its handler does not read two words or it has them: among shorter ones of each length there is
one that acts on what is left of an earlier message. A save never does. -/
theorem ownBytes_iff (msgid : BitVec 16) :
    (∀ payload, (ReadsTwoWords msgid → 8 ≤ payload.length) →
      (OwnBytes msgid payload ↔ ¬ SavesSettings msgid payload)) ∧
    ∀ n, (∀ payload, payload.length = n → ¬ SavesSettings msgid payload →
      OwnBytes msgid payload) ↔ (ReadsTwoWords msgid → 8 ≤ n) := by
  refine ⟨?_, ?_⟩
  · intro payload enough
    constructor
    · intro own saves
      exact savesSettings_acts saves own
    · exact ownBytes_of_enough enough
  · intro n
    constructor
    · intro each reads
      by_contra short
      have less : n < 8 := Nat.lt_of_not_le short
      have length : ((switchBytes msgid 0).take n).length = n := by
        rw [List.length_take, length_switchBytes]
        omega
      apply short_acts reads less
      apply each _ length
      rintro ⟨-, enough, -⟩
      omega
    · rintro enough payload rfl calm
      exact ownBytes_of_enough enough calm

/-- An empty message to channel 1 repeats the setting an earlier message of no known kind left in
the buffer. -/
theorem empty_message_acts : ¬ OwnBytes 1 [] := by
  have reads : ReadsTwoWords 1 := .inr (.inl rfl)
  have acts := short_acts reads (show 0 < 8 by decide)
  rw [List.take_zero] at acts
  exact acts

end PscDigpid.Sw
