/- Unit: PscDigpid/Sw/Averages
   layer: result
   source: src/sw/src/sadata.c (ReadAccumSA), src/hw/hdl/adc_accumulator_top.vhd
   digest: The average the server reads against the samples the fabric added. -/

import Mathlib.Tactic.NormNum
import PscDigpid.Hdl.AdcAccumulator
import PscDigpid.Hdl.PsIo
import PscDigpid.Sw.Sadata

set_option autoImplicit false
set_option relaxedAutoImplicit false

namespace PscDigpid.Sw

open PscDigpid.Hdl
open PscDigpid.Hdl.Average (published size total)
open PscDigpid.Sync

/-- The server's register of a reading. -/
def readingReg : Reading → BitVec 32
  | .dcct1 => dcct1Reg
  | .dcct2 => dcct2Reg
  | .dacSp => dacmonReg
  | .voltMon => voltReg
  | .gndMon => gndReg
  | .spareMon => spareReg
  | .psRegOutput => regReg
  | .psError => errReg

/-- The same in the register map. -/
def readingMap : Reading → Rdl.ChanReg
  | .dcct1 => .dcct0
  | .dcct2 => .dcct1
  | .dacSp => .dacmon
  | .voltMon => .volt
  | .gndMon => .gnd
  | .spareMon => .spare
  | .psRegOutput => .reg
  | .psError => .err

/-- The accumulators run from a reset on, with the modes that the registers have at each clock;
`board` is what else the server finds. -/
structure AverageRead where
  fabric : AdcAccumulatorTop.Regs
  inp : Nat → AdcAccumulatorTop.Ports
  regs : Nat → BitVec 32 → BitVec 32
  board : Board
  reset_first : (inp 0).reset = true

namespace AverageRead

section Model

variable (a : AverageRead)

def ports (t : Nat) : AdcAccumulatorTop.Ports :=
  { a.inp t with aveMode := PsIo.aveMode (a.regs t) }

def fabricAt (t : Nat) : AdcAccumulatorTop.Regs := run AdcAccumulatorTop.step a.fabric a.ports t

variable (c : Chan) (k : Reading)

/-- The averager of a reading before clock `t`. -/
def averagerAt (t : Nat) : Average.Regs := AdcAccumulatorTop.averager (a.fabricAt t) c k

/-- What comes to it at clock `t`. -/
def samplesIn (t : Nat) : Average.Ports := AdcAccumulatorTop.averagerPorts c k (a.ports t)

/-- The samples behind what it publishes. -/
def window (t : Nat) : List (BitVec 20) :=
  published (AdcAccumulatorTop.averager a.fabric c k) (a.samplesIn c k) t

/-- What the server finds in the channel's registers at clock `t`. -/
def boardAt (t : Nat) : Board :=
  let s := (a.fabricAt t).get c
  { a.board with
    regs := a.regs t
    status := fun addr =>
      match Rdl.ChanReg.all.find? fun r => Rdl.chanAddr c r = addr with
      | some r =>
          PsIo.adcsOnech (AdcAccumulatorTop.dcctAdcsAve s) (AdcAccumulatorTop.monAdcsAve s)
            (fun r => a.board.status (Rdl.chanAddr c r)) r
      | none => a.board.status addr }

/-- What it computes from the reading's register by the channel's own mode. -/
def value (round : ℚ → ℚ) (t : Nat) : Option ℚ :=
  readAve (chanNumber c) (a.boardAt c t) round (readingReg k)

/-- The mode registers have not changed since. -/
def Held (modes : Chan → BitVec 32) (since t : Nat) : Prop :=
  ∀ u, since ≤ u → u ≤ t → ∀ c, a.regs u (Rdl.chanAddr c .avemode) = modes c

/-- Since then a whole window has been accumulated. -/
def WholeWindow (since t : Nat) : Prop :=
  ∃ u f, since < u ∧ u ≤ f ∧ f < t ∧ (a.averagerAt c k u).presentState = .idle ∧
    (a.inp f).reset = false ∧ (a.averagerAt c k f).presentState = .finished

end Model

variable {a : AverageRead} {c : Chan} {k : Reading} {modes : Chan → BitVec 32} {since t : Nat}

theorem averagerAt_run (t : Nat) : a.averagerAt c k t =
    run Average.step (AdcAccumulatorTop.averager a.fabric c k) (a.samplesIn c k) t :=
  AdcAccumulatorTop.averager_run a.fabric a.ports c k t

theorem samplesIn_reset (t : Nat) : (a.samplesIn c k t).reset = (a.inp t).reset :=
  (AdcAccumulatorTop.averagerPorts_fields c k (a.ports t)).1

/-- An averager has the mode of the clock before. -/
theorem mode_succ (u : Nat) : (a.averagerAt c k (u + 1)).mode =
    (a.regs u (Rdl.chanAddr (AdcAccumulatorTop.modeChan c) .avemode)).setWidth 2 := by
  have sel := (AdcAccumulatorTop.averagerPorts_fields c k (a.ports u)).2
  rw [averagerAt_run, run_succ]
  exact sel.trans (PerChan.get_of _ _)

/-- The published sum, and how many samples are in it. -/
theorem window_held (held : a.Held modes since t) (whole : a.WholeWindow c k since t) :
    (a.averagerAt c k t).avgOut.toInt = total (a.window c k t) ∧
      (a.window c k t).length =
        size ((modes (AdcAccumulatorTop.modeChan c)).setWidth 2) := by
  obtain ⟨u, f, after, begun, ended, idle, quiet, finished⟩ := whole
  obtain ⟨u, rfl⟩ : ∃ v, u = v + 1 := ⟨u - 1, by omega⟩
  have mode : ∀ j, u + 1 ≤ j → j < t → (a.averagerAt c k j).mode =
      (modes (AdcAccumulatorTop.modeChan c)).setWidth 2 := by
    intro j low high
    obtain ⟨j, rfl⟩ : ∃ v, j = v + 1 := ⟨j - 1, by omega⟩
    rw [mode_succ, held j (by omega) (by omega)]
  simp only [averagerAt_run] at idle finished mode ⊢
  have started : (a.samplesIn c k 0).reset = true := (samplesIn_reset 0).trans a.reset_first
  have window := Average.window_run (s := AdcAccumulatorTop.averager a.fabric c k) started u
  exact Average.published_held window idle mode begun ended ((samplesIn_reset f).trans quiet)
    finished

/-- The server reads the average where the fabric shows it. -/
theorem xilIn32_reading (t : Nat) :
    (a.boardAt c t).xilIn32 (chanReg (chanNumber c) (readingReg k)) =
      (a.averagerAt c k t).avgOut := by
  have shown : ∀ r : Rdl.ChanReg, r.info.source = .fabric →
      (a.boardAt c t).xilIn32 (Rdl.chanAddr c r) =
        PsIo.adcsOnech (AdcAccumulatorTop.dcctAdcsAve ((a.fabricAt t).get c))
          (AdcAccumulatorTop.monAdcsAve ((a.fabricAt t).get c))
          (fun r => a.board.status (Rdl.chanAddr c r)) r := by
    intro r source
    rw [Board.xilIn32, Rdl.storedWidth_chanAddr_fabric c source]
    simp only [boardAt, Rdl.find_chanAddr]
    rfl
  have own : chanReg (chanNumber c) (readingReg k) = Rdl.chanAddr c (readingMap k) := by
    apply chanReg_offset
    cases k <;> rfl
  rw [own, shown _ (by cases k <;> rfl)]
  cases k <;> rfl

theorem xilIn32_avemode (held : a.Held modes since t) (le : since ≤ t) :
    (a.boardAt c t).xilIn32 (chanReg (chanNumber c) avemodeReg) = modes c := by
  have own : chanReg (chanNumber c) avemodeReg = Rdl.chanAddr c .avemode := chanReg_offset c rfl
  rw [own, Board.xilIn32, Rdl.storedWidth_chanAddr c rfl]
  exact held t le le_rfl c

end AverageRead

section Division

variable {mode mode' : BitVec 32}

theorem known_cases (known : mode < 3) : mode = 0 ∨ mode = 1 ∨ mode = 2 := by
  have below : mode.toNat < 3 := known
  obtain zero | one | two : mode.toNat = 0 ∨ mode.toNat = 1 ∨ mode.toNat = 2 := by omega
  · exact .inl (BitVec.eq_of_toNat_eq zero)
  · exact .inr (.inl (BitVec.eq_of_toNat_eq one))
  · exact .inr (.inr (BitVec.eq_of_toNat_eq two))

/-- In a mode of the averages the divisor is the number of samples that it adds. -/
theorem readAccumSA_size (round : ℚ → ℚ) (b : Board) (reg : BitVec 32) (known : mode < 3) :
    readAccumSA round b reg mode =
      some (round ((b.xilIn32 reg).toInt / size (mode.setWidth 2))) := by
  obtain rfl | rfl | rfl := known_cases known
  · have one : size (BitVec.setWidth 2 (0 : BitVec 32)) = 1 := rfl
    rw [one, Nat.cast_one, div_one]
    rfl
  · rfl
  · rfl

theorem size_pos (mode : BitVec 2) : (0 : ℚ) < size mode := by
  rw [Nat.cast_pos, size]
  split_ifs <;> decide

/-- The modes of the averages differ in their sizes. -/
theorem size_injective (known : mode < 3) (known' : mode' < 3)
    (same : size (mode.setWidth 2) = size (mode'.setWidth 2)) : mode = mode' := by
  obtain rfl | rfl | rfl := known_cases known <;>
    obtain rfl | rfl | rfl := known_cases known' <;>
    first | rfl | exact absurd same (by decide)

/-- A sum has the same quotients by two sizes only if it is zero. -/
theorem div_size_inj {sum : Int} (known : mode < 3) (known' : mode' < 3)
    (same : (sum : ℚ) / size (mode.setWidth 2) = sum / size (mode'.setWidth 2)) :
    mode' = mode ∨ sum = 0 := by
  by_cases zero : sum = 0
  · exact .inr zero
  · left
    have product := (div_eq_div_iff (size_pos _).ne' (size_pos _).ne').1 same
    have sizes := mul_left_cancel₀ (Int.cast_ne_zero.2 zero) product
    exact size_injective known' known (Nat.cast_injective sizes)

end Division

namespace AverageRead

/-- The quotient that the server makes goes by the channel's own mode. -/
theorem value_held {a : AverageRead} {c : Chan} {k : Reading} {modes : Chan → BitVec 32}
    {since t : Nat} (known : modes c < 3) (held : a.Held modes since t)
    (whole : a.WholeWindow c k since t) (round : ℚ → ℚ) :
    a.value c k round t =
      some (round (total (a.window c k t) / size ((modes c).setWidth 2))) := by
  have le : since ≤ t := by
    obtain ⟨u, f, after, begun, ended, -⟩ := whole
    omega
  rw [value, readAve, readChan, xilIn32_avemode held le, readAccumSA_size round _ _ known,
    xilIn32_reading, (window_held held whole).1]

end AverageRead

/-- Whatever the modes of the four channels, if they have been held for a whole window: what the
server makes of a reading is the average of the samples in the window exactly when the channel
is not the fourth, or has the first channel's mode, or the samples add up to zero. -/
theorem averages_iff (a : AverageRead) (modes : Chan → BitVec 32) (known : ∀ c, modes c < 3)
    (c : Chan) (k : Reading) (since t : Nat) (held : a.Held modes since t)
    (whole : a.WholeWindow c k since t) :
    (∀ round, a.value c k round t =
        some (round (total (a.window c k t) / (a.window c k t).length))) ↔
      c ≠ .ps4 ∨ modes .ps4 = modes .ps1 ∨ total (a.window c k t) = 0 := by
  simp only [AverageRead.value_held (known c) held whole,
    (AverageRead.window_held held whole).2]
  constructor
  · intro average
    have quotients := Option.some.inj (average id)
    cases c with
    | ps4 => exact .inr (div_size_inj (known .ps4) (known .ps1) quotients |>.imp_left Eq.symm)
    | _ => exact .inl nofun
  · rintro (other | same | zero) round
    · have own : AdcAccumulatorTop.modeChan c = c := by
        cases c <;> first | rfl | exact absurd rfl other
      rw [own]
    · have own : modes (AdcAccumulatorTop.modeChan c) = modes c := by
        cases c <;> first | rfl | exact same.symm
      rw [own]
    · rw [zero, Int.cast_zero, zero_div, zero_div]

/-- A single reading of 167 counts, with the first channel not averaged and the fourth averaged
over 167 samples. -/
def fourthRead : AverageRead where
  fabric :=
    let averager : Average.Regs := ⟨.idle, fun _ => 0, 0, 0, 0, 0, 0, 0, false⟩
    let onech : AdcAccumulator.Regs :=
      ⟨averager, averager, averager, averager, averager, averager, averager, averager⟩
    ⟨onech, onech, onech, onech⟩
  inp t :=
    let dccts : DcctAdcsOnech := ⟨0, 0⟩
    let mons : MonAdcsSnapOnech := ⟨⟨167, 0, 0⟩, 0, 0, 0⟩
    { reset := t = 0, start := t = 1, aveMode := ⟨0, 0, 0, 0⟩,
      dcctAdcs := ⟨dccts, dccts, dccts, dccts⟩, monAdcs := ⟨mons, mons, mons, mons⟩ }
  regs _ addr := if addr = Rdl.chanAddr .ps4 .avemode then 1 else 0
  board := blankBoard
  reset_first := rfl

/-- The modes of its registers. -/
def fourthModes (c : Chan) : BitVec 32 := if c = .ps4 then 1 else 0

theorem fourthModes_known (c : Chan) : fourthModes c < 3 := by
  cases c <;> decide

theorem fourthRead_held : fourthRead.Held fourthModes 0 3 := by
  intro u _ _ c
  cases c <;> rfl

theorem fourthRead_whole (c : Chan) : fourthRead.WholeWindow c .voltMon 0 3 := by
  refine ⟨1, 2, by decide, by decide, by decide, ?_, rfl, ?_⟩
  · cases c <;> rfl
  · cases c <;> rfl

theorem fourthRead_window (c : Chan) : fourthRead.window c .voltMon 3 = [167] := by
  cases c <;> rfl

/-- The first channel's reading in this run is its average. -/
theorem first_average : fourthRead.value .ps1 .voltMon id 3 =
    some ((total (fourthRead.window .ps1 .voltMon 3) : ℚ) /
      (fourthRead.window .ps1 .voltMon 3).length) :=
  (averages_iff fourthRead fourthModes fourthModes_known .ps1 .voltMon 0 3 fourthRead_held
    (fourthRead_whole .ps1)).2 (.inl nofun) id

/-- The fourth channel's one sample is divided by 167. -/
theorem fourth_divided : (∀ c, fourthModes c < 3) ∧ fourthRead.Held fourthModes 0 3 ∧
    fourthRead.WholeWindow .ps4 .voltMon 0 3 ∧
    fourthRead.window .ps4 .voltMon 3 = [167] ∧
    fourthRead.value .ps4 .voltMon id 3 = some 1 ∧
    (total (fourthRead.window .ps4 .voltMon 3) : ℚ) /
      (fourthRead.window .ps4 .voltMon 3).length = 167 := by
  refine ⟨fourthModes_known, fourthRead_held, fourthRead_whole .ps4, fourthRead_window .ps4,
    ?_, ?_⟩
  · rw [AverageRead.value_held (fourthModes_known .ps4) fourthRead_held (fourthRead_whole .ps4),
      fourthRead_window]
    have divisor : size ((fourthModes .ps4).setWidth 2) = 167 := rfl
    have sum : total [(167 : BitVec 20)] = 167 := rfl
    rw [divisor, sum]
    norm_num
  · rw [fourthRead_window]
    have sum : total [(167 : BitVec 20)] = 167 := rfl
    rw [sum, List.length_singleton]
    norm_num

end PscDigpid.Sw
