/- Unit: PscDigpid/Hdl/Adc8chModule
   layer: model
   source: src/hw/hdl/adc_8ch_module.vhd, src/hw/hdl/psc_pkg.vhd (t_mon_adcs_params)
   digest: The three monitor converters' readers, the mapping of their inputs, and the four
     channels' corrections. -/

import PscDigpid.Hdl.AdcAds8568Intf
import PscDigpid.Hdl.MonGainoffset
import PscDigpid.Sync.Staged

set_option autoImplicit false
set_option relaxedAutoImplicit false

namespace PscDigpid.Hdl

open PscDigpid.Sync

/-- Calibration of the monitor samples, and whether four channels are fitted or two. -/
structure MonAdcsParams where
  numchanSel : Bool
  ps : PerChan MonAdcsParamsOnech

namespace Adc8chModule

/-- The three converters of eight inputs. -/
inductive Adc
  | adc1 | adc2 | adc3
  deriving DecidableEq

/-- Input ports of `adc_8ch_module`. -/
structure Ports where
  reset : Bool
  start : Bool
  monParams : MonAdcsParams
  sdo : BitVec 3

structure Regs where
  adc1 : AdcAds8568Intf.Regs 128
  adc2 : AdcAds8568Intf.Regs 128
  adc3 : AdcAds8568Intf.Regs 128
  monAdcsIn : PerChan (PerMon (BitVec 16))
  gainoff : PerChan MonGainoffset.Regs

def powerUp : Regs where
  adc1 := AdcAds8568Intf.powerUp 128
  adc2 := AdcAds8568Intf.powerUp 128
  adc3 := AdcAds8568Intf.powerUp 128
  monAdcsIn := PerChan.of fun _ => ⟨0, 0, 0, 0, 0, 0⟩
  gainoff := PerChan.of fun _ => MonGainoffset.powerUp

def Regs.adc (s : Regs) : Adc → AdcAds8568Intf.Regs 128
  | .adc1 => s.adc1
  | .adc2 => s.adc2
  | .adc3 => s.adc3

/-- The data line of each converter. -/
def sdoBit : Adc → Nat
  | .adc1 => 0
  | .adc2 => 1
  | .adc3 => 2

def spiClkDiv : Nat := 5

def readerPorts (i : Ports) (j : Adc) : AdcAds8568Intf.Ports where
  reset := i.reset
  start := i.start
  sdi := i.sdo.getLsbD (sdoBit j)

/-- Physical to logical channels with four channels fitted. -/
def fourChannels (adc1 adc2 adc3 : BitVec 128) : PerChan (PerMon (BitVec 16)) where
  ps1 :=
    { dacmon := adc1.extractLsb 127 112
      voltage := adc1.extractLsb 63 48
      ignd := adc1.extractLsb 31 16
      spare := adc1.extractLsb 47 32
      psReg := adc3.extractLsb 127 112
      psError := adc3.extractLsb 95 80 }
  ps2 :=
    { dacmon := adc1.extractLsb 95 80
      voltage := adc1.extractLsb 15 0
      ignd := adc2.extractLsb 127 112
      spare := adc2.extractLsb 95 80
      psReg := adc3.extractLsb 111 96
      psError := adc3.extractLsb 79 64 }
  ps3 :=
    { dacmon := adc1.extractLsb 111 96
      voltage := adc2.extractLsb 111 96
      ignd := adc2.extractLsb 79 64
      spare := adc2.extractLsb 63 48
      psReg := adc3.extractLsb 63 48
      psError := adc3.extractLsb 31 16 }
  ps4 :=
    { dacmon := adc1.extractLsb 79 64
      voltage := adc2.extractLsb 31 16
      ignd := adc2.extractLsb 47 32
      spare := adc2.extractLsb 15 0
      psReg := adc3.extractLsb 47 32
      psError := adc3.extractLsb 15 0 }

/-- Physical to logical channels with two channels fitted; the third converter is not used. -/
def twoChannels (adc1 adc2 : BitVec 128) : PerChan (PerMon (BitVec 16)) where
  ps1 :=
    { dacmon := adc1.extractLsb 127 112
      voltage := adc1.extractLsb 111 96
      ignd := adc1.extractLsb 79 64
      spare := adc1.extractLsb 63 48
      psReg := adc2.extractLsb 111 96
      psError := adc2.extractLsb 79 64 }
  ps2 :=
    { dacmon := adc1.extractLsb 95 80
      voltage := adc1.extractLsb 47 32
      ignd := adc2.extractLsb 127 112
      spare := adc2.extractLsb 95 80
      psReg := adc2.extractLsb 63 48
      psError := adc2.extractLsb 47 32 }
  ps3 := ⟨0, 0, 0, 0, 0, 0⟩
  ps4 := ⟨0, 0, 0, 0, 0, 0⟩

def mapping (numchanSel : Bool) (adc1 adc2 adc3 : BitVec 128) : PerChan (PerMon (BitVec 16)) :=
  if numchanSel then fourChannels adc1 adc2 adc3 else twoChannels adc1 adc2

/-- Every channel's correction waits for the first converter. -/
def gainoffPorts (s : Regs) (i : Ports) (c : Chan) : MonGainoffset.Ports where
  reset := i.reset
  convDone := s.adc1.dataRdy
  monAdcRaw := s.monAdcsIn.get c
  monParams := i.monParams.ps.get c

/-- One rising clock edge; the mapping has no reset. -/
def step (s : Regs) (i : Ports) : Regs where
  adc1 := AdcAds8568Intf.step spiClkDiv s.adc1 (readerPorts i .adc1)
  adc2 := AdcAds8568Intf.step spiClkDiv s.adc2 (readerPorts i .adc2)
  adc3 := AdcAds8568Intf.step spiClkDiv s.adc3 (readerPorts i .adc3)
  monAdcsIn := mapping i.monParams.numchanSel s.adc1.dataOut s.adc2.dataOut s.adc3.dataOut
  gainoff := PerChan.of fun c => MonGainoffset.step (s.gainoff.get c) (gainoffPorts s i c)

/-- The pins are the first reader's alone. -/
def adc8cConv123 (s : Regs) : Bool := s.adc1.cnv

def adc8cFs123 (s : Regs) : Bool := s.adc1.nFs

def adc8cSck123 (s : Regs) : Bool := s.adc1.sclk

def monAdcs (s : Regs) : PerChan (PerMon (BitVec 16)) :=
  PerChan.of fun c => (s.gainoff.get c).monOut

/-- What each of the four corrections drives the one signal `done` with. -/
def done (s : Regs) (c : Chan) : Bool := (s.gainoff.get c).done

/-- The converter's input that a reading comes from. -/
def input (numchanSel : Bool) : Chan → MonReading → Option (Adc × Fin 8)
  | .ps1, .dacmon => some (.adc1, 0)
  | .ps1, .voltage => some (.adc1, if numchanSel then 4 else 1)
  | .ps1, .ignd => some (.adc1, if numchanSel then 6 else 3)
  | .ps1, .spare => some (.adc1, if numchanSel then 5 else 4)
  | .ps1, .psReg => some (if numchanSel then (.adc3, 0) else (.adc2, 1))
  | .ps1, .psError => some (if numchanSel then (.adc3, 2) else (.adc2, 3))
  | .ps2, .dacmon => some (.adc1, 2)
  | .ps2, .voltage => some (.adc1, if numchanSel then 7 else 5)
  | .ps2, .ignd => some (.adc2, 0)
  | .ps2, .spare => some (.adc2, 2)
  | .ps2, .psReg => some (if numchanSel then (.adc3, 1) else (.adc2, 4))
  | .ps2, .psError => some (if numchanSel then (.adc3, 3) else (.adc2, 5))
  | .ps3, .dacmon => if numchanSel then some (.adc1, 1) else none
  | .ps3, .voltage => if numchanSel then some (.adc2, 1) else none
  | .ps3, .ignd => if numchanSel then some (.adc2, 3) else none
  | .ps3, .spare => if numchanSel then some (.adc2, 4) else none
  | .ps3, .psReg => if numchanSel then some (.adc3, 4) else none
  | .ps3, .psError => if numchanSel then some (.adc3, 6) else none
  | .ps4, .dacmon => if numchanSel then some (.adc1, 3) else none
  | .ps4, .voltage => if numchanSel then some (.adc2, 6) else none
  | .ps4, .ignd => if numchanSel then some (.adc2, 5) else none
  | .ps4, .spare => if numchanSel then some (.adc2, 7) else none
  | .ps4, .psReg => if numchanSel then some (.adc3, 5) else none
  | .ps4, .psError => if numchanSel then some (.adc3, 7) else none

/-- The word of the converters' input `n`, the first of eight in what a converter sends. -/
def word (x : BitVec 128) (n : Fin 8) : BitVec 16 := x.extractLsb' (112 - 16 * n) 16

theorem mapping_get (numchanSel : Bool) (data : Adc → BitVec 128) (c : Chan) (k : MonReading) :
    ((mapping numchanSel (data .adc1) (data .adc2) (data .adc3)).get c).get k =
      (input numchanSel c k).elim 0 fun p => word (data p.1) p.2 := by
  cases numchanSel with
  | false =>
    cases c with
    | ps1 | ps2 | ps3 | ps4 => cases k <;> rfl
  | true =>
    cases c with
    | ps1 | ps2 | ps3 | ps4 => cases k <;> rfl

/-- The reading that a converter's input is read as. -/
def reading (numchanSel : Bool) : Adc → Fin 8 → Chan × MonReading
  | .adc1, 0 => (.ps1, .dacmon)
  | .adc1, 1 => if numchanSel then (.ps3, .dacmon) else (.ps1, .voltage)
  | .adc1, 2 => (.ps2, .dacmon)
  | .adc1, 3 => if numchanSel then (.ps4, .dacmon) else (.ps1, .ignd)
  | .adc1, 4 => if numchanSel then (.ps1, .voltage) else (.ps1, .spare)
  | .adc1, 5 => if numchanSel then (.ps1, .spare) else (.ps2, .voltage)
  | .adc1, 6 => (.ps1, .ignd)
  | .adc1, 7 => (.ps2, .voltage)
  | .adc2, 0 => (.ps2, .ignd)
  | .adc2, 1 => if numchanSel then (.ps3, .voltage) else (.ps1, .psReg)
  | .adc2, 2 => (.ps2, .spare)
  | .adc2, 3 => if numchanSel then (.ps3, .ignd) else (.ps1, .psError)
  | .adc2, 4 => if numchanSel then (.ps3, .spare) else (.ps2, .psReg)
  | .adc2, 5 => if numchanSel then (.ps4, .ignd) else (.ps2, .psError)
  | .adc2, 6 => (.ps4, .voltage)
  | .adc2, 7 => (.ps4, .spare)
  | .adc3, 0 => (.ps1, .psReg)
  | .adc3, 1 => (.ps2, .psReg)
  | .adc3, 2 => (.ps1, .psError)
  | .adc3, 3 => (.ps2, .psError)
  | .adc3, 4 => (.ps3, .psReg)
  | .adc3, 5 => (.ps4, .psReg)
  | .adc3, 6 => (.ps3, .psError)
  | .adc3, 7 => (.ps4, .psError)

theorem reading_input {numchanSel : Bool} {c : Chan} {k : MonReading} {p : Adc × Fin 8}
    (comes : input numchanSel c k = some p) : reading numchanSel p.1 p.2 = (c, k) := by
  revert comes
  cases numchanSel with
  | false =>
    cases c with
    | ps1 | ps2 | ps3 | ps4 => cases k <;> simp +contextual [input, eq_comm, reading]
  | true =>
    cases c with
    | ps1 | ps2 | ps3 | ps4 => cases k <;> simp +contextual [input, eq_comm, reading]

/-- No input is read as two readings. -/
theorem input_injective {numchanSel : Bool} {c c' : Chan} {k k' : MonReading} {p : Adc × Fin 8}
    (here : input numchanSel c k = some p) (there : input numchanSel c' k' = some p) :
    c = c' ∧ k = k' :=
  Prod.mk.inj ((reading_input here).symm.trans (reading_input there))

section Staged

open MonGainoffset (fixedMul)

/-- The correction as a worker in two stages. -/
def worker (g : MonGainoffset.Regs) :
    Staged.Worker 4 (PerMon (BitVec 16)) (PerMon (BitVec 16)) where
  stage :=
    match g.state with
    | .idle => .waits
    | .applyOffsets => .first
    | .applyGains => .second
    | .multDly => .pause
  seen := g.convDoneLast
  count := g.multdlycnt
  middle := g.monOutOc
  result := g.monOut
  done := g.done

def workerInput (i : MonGainoffset.Ports) : Staged.Input MonGainoffset.Ports :=
  ⟨i.reset, i.convDone, i⟩

def differences (i : MonGainoffset.Ports) : PerMon (BitVec 16) where
  dacmon := i.monAdcRaw.dacmon - i.monParams.offset.dacmon
  voltage := i.monAdcRaw.voltage - i.monParams.offset.voltage
  ignd := i.monAdcRaw.ignd - i.monParams.offset.ignd
  spare := i.monAdcRaw.spare - i.monParams.offset.spare
  psReg := i.monAdcRaw.psReg - i.monParams.offset.psReg
  psError := i.monAdcRaw.psError - i.monParams.offset.psError

def products (d : PerMon (BitVec 16)) (i : MonGainoffset.Ports) : PerMon (BitVec 16) where
  dacmon := fixedMul d.dacmon i.monParams.gain.dacmon 4
  voltage := fixedMul d.voltage i.monParams.gain.voltage 4
  ignd := fixedMul d.ignd i.monParams.gain.ignd 4
  spare := fixedMul d.spare i.monParams.gain.spare 4
  psReg := fixedMul d.psReg i.monParams.gain.psReg 4
  psError := fixedMul d.psError i.monParams.gain.psError 4

theorem products_get (i i' : MonGainoffset.Ports) (k : MonReading) :
    (products (differences i) i').get k =
      fixedMul (i.monAdcRaw.get k - i.monParams.offset.get k) (i'.monParams.gain.get k) 4 := by
  cases k <;> rfl

theorem worker_step (g : MonGainoffset.Regs) (i : MonGainoffset.Ports) :
    worker (MonGainoffset.step g i) =
      Staged.step differences products 6#4 (worker g) (workerInput i) := by
  cases reset : i.reset with
  | true => simp only [MonGainoffset.step, Staged.step, workerInput, worker, reset, if_true]
  | false =>
    cases state : g.state with
    | idle =>
      cases rise : i.convDone && !g.convDoneLast with
      | false | true =>
        simp [MonGainoffset.step, Staged.step, workerInput, worker, reset, state, rise]
    | applyOffsets | applyGains =>
      simp only [MonGainoffset.step, Staged.step, workerInput, worker, reset, state,
        Bool.false_eq_true, if_false]
      rfl
    | multDly =>
      by_cases full : g.multdlycnt = 6#4
      · simp [MonGainoffset.step, Staged.step, workerInput, worker, reset, state, full]
      · simp [MonGainoffset.step, Staged.step, workerInput, worker, reset, state, full]

end Staged

end Adc8chModule

end PscDigpid.Hdl
