/- Unit: PscDigpid/Sw/NetconfResolution
   layer: result
   source: src/sw/src/sdcard.c (sdcard_handle, mshsSelect)
   digest: The conversion constants against the resolution register once the card has been read. -/

import PscDigpid.Sw.NetconfLines

set_option autoImplicit false
set_option relaxedAutoImplicit false

namespace PscDigpid.Sw.Netconf

open PscDigpid.Sync
open PscDigpid.Sw.Hwaddr

/-- The constant that belongs to a value of the resolution register. -/
def convFor (pscResolution : BitVec 32) : ℚ :=
  if pscResolution = 1 then convVoltsTo20Bits else convVoltsTo18Bits

/-- The constants are those of the resolution in the register. -/
structure Agree (s : State) : Prop where
  toBits : s.board.convVoltsToDacBits = convFor (s.board.xilIn32 resolutionReg)
  toVolts : s.convDacBitsToVolts = 1 / convFor (s.board.xilIn32 resolutionReg)

/-- The constants as the program is loaded, and any values in the registers. -/
structure PowerOn (s : State) : Prop where
  toBits : s.board.convVoltsToDacBits = 0
  toVolts : s.convDacBitsToVolts = 0

/-- A line that selects a resolution. -/
def Selects (line : Text) : Prop :=
  ∃ arg, commandOf line = some (.resolution, arg) ∧
    ∀ word, arg = some word → ∃ w ∈ ["HS", "MS"], word = w.toList

/-- The file that is read: that of the first partition that can be mounted and entered. -/
def readFile (zero one : Partition) : Option Text :=
  if zero.mounts && zero.enters then zero.netCnf
  else if one.mounts && one.enters then one.netCnf
  else none

/-- Nothing of the resolution has changed. -/
structure Kept (s s' : State) : Prop where
  toBits : s'.board.convVoltsToDacBits = s.board.convVoltsToDacBits
  toVolts : s'.convDacBitsToVolts = s.convDacBitsToVolts
  register : s'.board.xilIn32 resolutionReg = s.board.xilIn32 resolutionReg

section Resolution

variable {world : World} {line : Text} {file : Text} {zero one : Partition} {s s' : State}

theorem convFor_ne_zero (r : BitVec 32) : convFor r ≠ 0 := by
  rw [convFor]
  split
  · exact Resolution.hs.conv_pos.ne'
  · exact Resolution.ms.conv_pos.ne'

theorem Kept.refl (s : State) : Kept s s := ⟨rfl, rfl, rfl⟩

theorem Agree.kept (agree : Agree s) (kept : Kept s s') : Agree s' := by
  obtain ⟨toBits, toVolts, register⟩ := kept
  exact ⟨by rw [toBits, register, agree.toBits], by rw [toVolts, register, agree.toVolts]⟩

theorem PowerOn.kept (powerOn : PowerOn s) (kept : Kept s s') : PowerOn s' :=
  ⟨kept.toBits.trans powerOn.toBits, kept.toVolts.trans powerOn.toVolts⟩

theorem PowerOn.disagree (powerOn : PowerOn s) : ¬ Agree s := by
  intro agree
  exact convFor_ne_zero _ (agree.toBits.symm.trans powerOn.toBits)

/-- A write elsewhere leaves the resolution. -/
theorem kept_xilOut32 {addr : BitVec 32} (apart : resolutionReg ≠ addr) (data : BitVec 32)
    (s : State) : Kept s (xilOut32 addr data s) := by
  refine ⟨rfl, rfl, ?_⟩
  rw [Board.xilIn32, Board.xilIn32]
  dsimp only [xilOut32, Board.xilOut32]
  cases Rdl.storedWidth addr with
  | none => rfl
  | some w =>
      dsimp only
      rw [Function.update_of_ne apart]

theorem selectResolution_agree (r : Resolution) (s : State) :
    Agree (selectResolution r.code s) := by
  have selected := mshsSelect_selected r s.board
  have shown : (selectResolution r.code s).board.xilIn32 resolutionReg = r.code := selected.register
  have conv : convFor r.code = r.conv := by cases r <;> rfl
  refine ⟨?_, ?_⟩
  · rw [shown, conv]
    exact selected.conv
  · rw [shown, conv]
    cases r <;> rfl

theorem netconfLine_agree (selects : Selects line) : Agree (netconfLine world s line) := by
  obtain ⟨arg, command, accepted⟩ := selects
  rw [netconfLine_eq, command]
  dsimp only [runCommand]
  obtain high | medium := choose_accepted accepted
  · rw [high]
    exact selectResolution_agree .hs s
  · rw [medium]
    exact selectResolution_agree .ms s

/-- A line that selects no resolution leaves it. -/
theorem netconfLine_kept (other : ¬ Selects line) : Kept s (netconfLine world s line) := by
  have chosen : ∀ {arg first second onFirst onSecond}, Kept s onFirst → Kept s onSecond →
      Kept s (choose arg first second onFirst onSecond s) := by
    intro arg first second onFirst onSecond one two
    obtain same | same | same := choose_cases arg first second onFirst onSecond s
    · rwa [same]
    · rwa [same]
    · rw [same]
      exact Kept.refl s
  rw [netconfLine_eq]
  cases command : commandOf line with
  | none => exact Kept.refl s
  | some found =>
      obtain ⟨c, arg⟩ := found
      dsimp only
      cases c with
      | resolution =>
          have rejected : runCommand world arg s .resolution = s :=
            choose_rejected fun accepted => other ⟨arg, command, accepted⟩
          rw [rejected]
          exact Kept.refl s
      | dhcp => exact chosen ⟨rfl, rfl, rfl⟩ ⟨rfl, rfl, rfl⟩
      | numchans => exact chosen (kept_xilOut32 (by decide) 0 s) (kept_xilOut32 (by decide) 1 s)
      | bandwidth => exact chosen (kept_xilOut32 (by decide) 0 s) (kept_xilOut32 (by decide) 1 s)
      | polarity => exact chosen (kept_xilOut32 (by decide) 0 s) (kept_xilOut32 (by decide) 1 s)
      | addr => exact ⟨rfl, rfl, rfl⟩
      | mask => exact ⟨rfl, rfl, rfl⟩
      | gw => exact ⟨rfl, rfl, rfl⟩
      | hwaddr =>
          rw [runCommand]
          cases arg with
          | none => exact ⟨rfl, rfl, rfl⟩
          | some word =>
              rw [setHwaddr]
              split
              · exact ⟨rfl, rfl, rfl⟩
              · cases scanHwaddr word <;> exact ⟨rfl, rfl, rfl⟩

/-- Lines keep the constants as they were, right or not yet set, until one selects them. -/
theorem lines_agree_iff {ls : List Text} (powerOn : PowerOn s) :
    Agree (ls.foldl (netconfLine world) s) ↔ ∃ line ∈ ls, Selects line := by
  have right : ∀ {ls : List Text} {s : State}, Agree s →
      Agree (ls.foldl (netconfLine world) s) := by
    intro ls
    induction ls with
    | nil => exact fun agree => agree
    | cons line ls ih =>
        intro s agree
        by_cases selects : Selects line
        · exact ih (netconfLine_agree selects)
        · exact ih (agree.kept (netconfLine_kept selects))
  induction ls generalizing s with
  | nil => exact iff_of_false powerOn.disagree (by simp)
  | cons line ls ih =>
      rw [List.foldl_cons, List.exists_mem_cons_iff]
      by_cases selects : Selects line
      · exact iff_of_true (right (netconfLine_agree selects)) (.inl selects)
      · have later := ih (powerOn.kept (@netconfLine_kept world line s selects))
        exact later.trans (or_iff_right selects).symm

theorem sdcardHandle_eq (world : World) (zero one : Partition) (s : State) :
    sdcardHandle world zero one s =
      match readFile zero one with
      | none => s
      | some file => sdcardNetconf world file s := by
  rw [sdcardHandle, readFile, sdcardTrypart, sdcardTrypart]
  cases zero.mounts <;> cases zero.enters <;> cases one.mounts <;> cases one.enters <;> rfl

/-- From power-on the constants agree with the register exactly when a line of the file that is
read selects a resolution. -/
theorem constants_agree_iff (world : World) (zero one : Partition) (s : State)
    (powerOn : PowerOn s) :
    Agree (sdcardHandle world zero one s) ↔
      ∃ file, readFile zero one = some file ∧ ∃ line ∈ lines file, Selects line := by
  rw [sdcardHandle_eq]
  cases readFile zero one with
  | none => exact iff_of_false powerOn.disagree (by simp)
  | some file =>
      dsimp only
      rw [sdcardNetconf, lines_agree_iff powerOn]
      simp

/-- A slot without a card. -/
def noCard : Partition := ⟨false, false, none⟩

/-- The program as it is loaded. -/
def loaded : State :=
  ⟨⟨0, 0, 0, 0, fun _ => 0⟩, { blankBoard with convVoltsToDacBits := 0 }, 0⟩

theorem noCard_disagrees : ¬ Agree (sdcardHandle someWorld noCard noCard loaded) := by
  intro agree
  exact convFor_ne_zero _ agree.toBits.symm

theorem mediumResolution_agrees :
    Agree (sdcardHandle someWorld noCard ⟨true, true, some "resolution MS\n".toList⟩ loaded) := by
  apply (constants_agree_iff _ _ _ loaded ⟨rfl, rfl⟩).2
  have single : lines "resolution MS\n".toList = ["resolution MS\n".toList] := by decide
  have command : commandOf "resolution MS\n".toList = some (.resolution, some "MS".toList) := by
    decide
  refine ⟨_, rfl, "resolution MS\n".toList, ?_, _, command, ?_⟩
  · rw [single]
    exact List.mem_singleton_self _
  · intro word same
    exact ⟨"MS", by simp, (Option.some.inj same).symm⟩

end Resolution

end PscDigpid.Sw.Netconf
