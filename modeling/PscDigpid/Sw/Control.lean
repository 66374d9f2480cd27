/- Unit: PscDigpid/Sw/Control
   layer: model
   source: src/sw/src/control.c, src/sw/src/control.h
   digest: The handler of a channel's setting messages. -/

import PscDigpid.Num.Ieee
import PscDigpid.Sw.Board

set_option autoImplicit false
set_option relaxedAutoImplicit false

namespace PscDigpid.Sw

open PscDigpid.Hdl (Chan)
open PscDigpid.Num

/-- The messages `chan_settings` handles. -/
inductive ChanMsg
  | dacOpmode | dacSetpt | dacRunramp | dacRamplen | dacSetptGain | dacSetptOffset
  | dcct1Offset | dcct1Gain | dcct2Offset | dcct2Gain | dacmonOffset | dacmonGain
  | voltOffset | voltGain | gndOffset | gndGain | spareOffset | spareGain | regOffset
  | regGain | errOffset | errGain | ovc1Thresh | ovc2Thresh | ovvThresh | err1Thresh
  | err2Thresh | igndThresh | ovc1Cntlim | ovc2Cntlim | ovvCntlim | err1Cntlim | err2Cntlim
  | igndCntlim | dcctCntlim | flt1Cntlim | flt2Cntlim | flt3Cntlim | onCntlim | heartCntlim
  | faultClear | faultMask | digoutOn1 | digoutOn2 | digoutReset | digoutSpare | digoutPark
  | sfAmpsPerSec | sfDacDccts | sfVout | sfIgnd | sfSpare | sfRegulator | sfError | aveMode
  | writeQspi | readQspi | dumpAdcs | kp | ki | kd | dpidEnb | dpidIreset | dpidPark
  | dpidIlimit
  deriving DecidableEq

namespace ChanMsg

/-- The address of each message in `control.h`. -/
def addr : ChanMsg → BitVec 32
  | .dacOpmode => 100
  | .dacSetpt => 104
  | .dacRunramp => 108
  | .dacRamplen => 112
  | .dacSetptGain => 116
  | .dacSetptOffset => 120
  | .dcct1Offset => 124
  | .dcct1Gain => 128
  | .dcct2Offset => 132
  | .dcct2Gain => 136
  | .dacmonOffset => 140
  | .dacmonGain => 144
  | .voltOffset => 148
  | .voltGain => 152
  | .gndOffset => 156
  | .gndGain => 160
  | .spareOffset => 164
  | .spareGain => 168
  | .regOffset => 172
  | .regGain => 176
  | .errOffset => 180
  | .errGain => 184
  | .ovc1Thresh => 188
  | .ovc2Thresh => 192
  | .ovvThresh => 196
  | .err1Thresh => 200
  | .err2Thresh => 204
  | .igndThresh => 208
  | .ovc1Cntlim => 212
  | .ovc2Cntlim => 216
  | .ovvCntlim => 220
  | .err1Cntlim => 224
  | .err2Cntlim => 228
  | .igndCntlim => 232
  | .dcctCntlim => 236
  | .flt1Cntlim => 240
  | .flt2Cntlim => 244
  | .flt3Cntlim => 248
  | .onCntlim => 252
  | .heartCntlim => 256
  | .faultClear => 260
  | .faultMask => 264
  | .digoutOn1 => 268
  | .digoutOn2 => 272
  | .digoutReset => 276
  | .digoutSpare => 280
  | .digoutPark => 284
  | .sfAmpsPerSec => 300
  | .sfDacDccts => 304
  | .sfVout => 308
  | .sfIgnd => 312
  | .sfSpare => 316
  | .sfRegulator => 320
  | .sfError => 324
  | .aveMode => 350
  | .writeQspi => 400
  | .readQspi => 404
  | .dumpAdcs => 500
  | .kp => 600
  | .ki => 604
  | .kd => 608
  | .dpidEnb => 612
  | .dpidIreset => 616
  | .dpidPark => 620
  | .dpidIlimit => 624

def all : List ChanMsg :=
  [.dacOpmode, .dacSetpt, .dacRunramp, .dacRamplen, .dacSetptGain, .dacSetptOffset,
   .dcct1Offset, .dcct1Gain, .dcct2Offset, .dcct2Gain, .dacmonOffset, .dacmonGain,
   .voltOffset, .voltGain, .gndOffset, .gndGain, .spareOffset, .spareGain, .regOffset,
   .regGain, .errOffset, .errGain, .ovc1Thresh, .ovc2Thresh, .ovvThresh, .err1Thresh,
   .err2Thresh, .igndThresh, .ovc1Cntlim, .ovc2Cntlim, .ovvCntlim, .err1Cntlim, .err2Cntlim,
   .igndCntlim, .dcctCntlim, .flt1Cntlim, .flt2Cntlim, .flt3Cntlim, .onCntlim, .heartCntlim,
   .faultClear, .faultMask, .digoutOn1, .digoutOn2, .digoutReset, .digoutSpare, .digoutPark,
   .sfAmpsPerSec, .sfDacDccts, .sfVout, .sfIgnd, .sfSpare, .sfRegulator, .sfError, .aveMode,
   .writeQspi, .readQspi, .dumpAdcs, .kp, .ki, .kd, .dpidEnb, .dpidIreset, .dpidPark,
   .dpidIlimit]

/-- The message at an address, if there is one. -/
def ofAddr (addr : BitVec 32) : Option ChanMsg := all.find? fun m => m.addr = addr

theorem ofAddr_addr (m : ChanMsg) : ofAddr m.addr = some m := by
  cases m <;> rfl

end ChanMsg

def gain20BitFract : ℚ := 1048575

def convVoltsTo16Bits : ℚ := 3276.8

def conv16BitsToVolts : ℚ := 1 / convVoltsTo16Bits

/-- Set together with its inverse. -/
def convDacBitsToVolts (b : Board) : ℚ := 1 / b.convVoltsToDacBits

def sampleRate : ℚ := 10000

def smooth : BitVec 32 := 0
def ramp : BitVec 32 := 1
def fofb : BitVec 32 := 2
def jump : BitVec 32 := 3

section Settings

variable (chan data : BitVec 32) (b : Board)

/-- The number by which a message names a channel. -/
def chanNumber : Chan → BitVec 32
  | .ps1 => 1
  | .ps2 => 2
  | .ps3 => 3
  | .ps4 => 4

/-- Address of a channel's register. -/
def chanReg (reg : BitVec 32) : BitVec 32 := reg + chan * chBaseAddr

/-- A register of the server's table is where the map has the one with its offset. -/
theorem chanReg_offset (c : Chan) {reg : BitVec 32} {r : Rdl.ChanReg}
    (offset : reg = BitVec.ofNat 32 r.info.offset) :
    chanReg (chanNumber c) reg = Rdl.chanAddr c r := by
  have base : chanNumber c * chBaseAddr = BitVec.ofNat 32 (Rdl.base c) := by
    cases c <;> rfl
  rw [chanReg, Rdl.chanAddr, base, offset, BitVec.add_comm, BitVec.ofNat_add]

theorem blankBoard_factors (chan : BitVec 32) :
    ∀ word ∈ qspiScalefactors (blankBoard.scalefactors chan), 0 < single word := by
  intro word member
  have unit : word = 0x3F800000 := by
    simpa [blankBoard, qspiScalefactors] using member
  rw [unit, single_one]
  exact one_pos

/-- A channel's scale factor. -/
def scalefactor (field : ScaleFactorType → BitVec 32) : ℚ :=
  single (field (b.scalefactors (chan - 1)))

/-- The word of a message goes to a register as it is. -/
def writeWord (reg : BitVec 32) : Board := b.xilOut32 (chanReg chan reg) data

section Arithmetic

variable {α : Type} (A : Arith α)

def writeGain (reg : BitVec 32) : Board :=
  b.xilOut32 (chanReg chan reg)
    (A.toU32 (A.mul .double (A.ofBits data) (A.constant .double gain20BitFract)))

/-- The conversion to codes of the DAC is a float, that to 16 bits a double. -/
def scaledValWith (w : Width) (conv : ℚ) (field : ScaleFactorType → BitVec 32) : BitVec 32 :=
  A.toS32 (A.div w (A.mul w (A.ofBits data) (A.constant w conv))
    (A.ofBits (field (b.scalefactors (chan - 1)))))

def writeScaled (reg : BitVec 32) (w : Width) (conv : ℚ) (field : ScaleFactorType → BitVec 32) :
    Board :=
  b.xilOut32 (chanReg chan reg) (scaledValWith chan data b A w conv field)

/-- The 16-bit thresholds are kept from above within their signed range. -/
def writeThresh16 (reg : BitVec 32) (field : ScaleFactorType → BitVec 32) : Board :=
  let scaled := scaledValWith chan data b A .double convVoltsTo16Bits field
  b.xilOut32 (chanReg chan reg) (if 32767 ≤ scaled.toInt then 32767 else scaled)

def writeCntlim (reg : BitVec 32) : Board :=
  b.xilOut32 (chanReg chan reg)
    (A.toS32 (A.mul .double (A.ofBits data) (A.constant .double sampleRate)))

end Arithmetic

/-- The same without roundings. -/
def scaledVal (conv : ℚ) (field : ScaleFactorType → BitVec 32) : BitVec 32 :=
  toS32 (quotient (single data * conv) (scalefactor chan b field))

def updateScalefactors (f : ScaleFactorType → ScaleFactorType) : Board :=
  b.setScalefactors chan (f (b.scalefactors (chan - 1)))

section Smooth

variable (round : ℚ → ℚ) (newSetpt : BitVec 32)

/-- How many samples a smooth ramp to a setpoint takes, the float arithmetic rounded as given;
the product with the rate is a double and exact. -/
def numSamples : BitVec 32 :=
  let curSetpt := b.xilIn32 (chanReg chan dacCurrsetptReg)
  let perSecond := round (quotient (scalefactor chan b (·.ampspersec))
    (scalefactor chan b (·.dacDccts)))
  let rampRate := round (perSecond * b.convVoltsToDacBits)
  let rampDuration := round (quotient (round (newSetpt - curSetpt).toInt.natAbs) rampRate)
  toU32 (rampDuration * sampleRate)

def cordicInitPhase : BitVec 32 := 421657300

/-- A phase increment and then the new setpoint; without a result where the count of
samples, by which it divides, is zero. -/
def calcWriteSmoothWith : Option Board :=
  let samples := numSamples chan b round newSetpt
  if samples = 0 then none
  else
    let phaseInc := toU32 (round (cordicInitPhase / samples).toNat)
    some ((b.xilOut32 (chanReg chan smoothPhaseincReg) phaseInc).xilOut32
      (chanReg chan dacSetptReg) newSetpt)

/-- The same in single precision, as the server computes it. -/
def calcWriteSmooth : Option Board := calcWriteSmoothWith chan b nearestSingle newSetpt

end Smooth

/-- The smooth ramp to zero, the zero setpoint and the new mode. -/
def switchMode (newOpmode : BitVec 32) : Option Board := do
  let ramped ← calcWriteSmooth chan b 0
  return (ramped.xilOut32 (chanReg chan dacSetptReg) 0).xilOut32
    (chanReg chan dacOpmodeReg) newOpmode

def setDacOpmode (newOpmode : BitVec 32) : Option Board := do
  let dacMode := b.xilIn32 (chanReg chan dacOpmodeReg)
  let first ←
    if (dacMode = smooth ∨ dacMode = ramp) ∧ newOpmode = jump then switchMode chan b jump
    else some b
  if dacMode = jump ∧ (newOpmode = smooth ∨ newOpmode = ramp) then switchMode chan first newOpmode
  else return first

/-- At most one switch from a ramp mode and then at most one to a ramp mode. -/
theorem setDacOpmode_bind (newOpmode : BitVec 32) :
    setDacOpmode chan b newOpmode =
      (if (b.xilIn32 (chanReg chan dacOpmodeReg) = smooth ∨
            b.xilIn32 (chanReg chan dacOpmodeReg) = ramp) ∧ newOpmode = jump then
          switchMode chan b jump
        else some b).bind fun first =>
        if b.xilIn32 (chanReg chan dacOpmodeReg) = jump ∧ (newOpmode = smooth ∨ newOpmode = ramp)
        then switchMode chan first newOpmode
        else some first := by
  rw [setDacOpmode]
  split <;> rfl

section Arithmetic

variable {α : Type} (A : Arith α)

/-- The current a setpoint is limited to. -/
def saturatedWith (newSetptAmps : α) : α :=
  let dacDccts := A.ofBits (b.scalefactors (chan - 1)).dacDccts
  let high := A.mul .double (A.constant .double 9.9999) dacDccts
  let low := A.mul .float (A.constant .float (-10)) dacDccts
  if A.lt high newSetptAmps then A.narrow high
  else if A.lt newSetptAmps low then low
  else newSetptAmps

def setDacWith (newSetptAmps : α) : Option Board :=
  let dacMode := b.xilIn32 (chanReg chan dacOpmodeReg)
  let newSetpt := A.toS32 (A.div .float
    (A.mul .float (saturatedWith chan b A newSetptAmps) (A.constant .float b.convVoltsToDacBits))
    (A.ofBits (b.scalefactors (chan - 1)).dacDccts))
  if dacMode = smooth then calcWriteSmooth chan b newSetpt
  else if dacMode = jump then some (b.xilOut32 (chanReg chan dacSetptReg) newSetpt)
  else some b

end Arithmetic

/-- The same two without roundings but those of a smooth ramp's length. -/
def saturated (newSetptAmps : ℚ) : ℚ := saturatedWith chan b exact newSetptAmps

def setDac (newSetptAmps : ℚ) : Option Board := setDacWith chan b exact newSetptAmps

theorem saturated_eq (newSetptAmps : ℚ) : saturated chan b newSetptAmps =
    if 9.9999 * scalefactor chan b (·.dacDccts) < newSetptAmps then
      9.9999 * scalefactor chan b (·.dacDccts)
    else if newSetptAmps < -10 * scalefactor chan b (·.dacDccts) then
      -10 * scalefactor chan b (·.dacDccts)
    else newSetptAmps :=
  rfl

theorem setDac_eq (newSetptAmps : ℚ) : setDac chan b newSetptAmps =
    if b.xilIn32 (chanReg chan dacOpmodeReg) = smooth then
      calcWriteSmooth chan b (toS32 (quotient (saturated chan b newSetptAmps *
        b.convVoltsToDacBits) (scalefactor chan b (·.dacDccts))))
    else if b.xilIn32 (chanReg chan dacOpmodeReg) = jump then
      some (b.xilOut32 (chanReg chan dacSetptReg) (toS32 (quotient (saturated chan b newSetptAmps *
        b.convVoltsToDacBits) (scalefactor chan b (·.dacDccts)))))
    else some b :=
  rfl

def writeQspi (page : Page) : Board :=
  let erased := qspiFlashEraseSect b chan
  let gathered := qspiGatherData chan erased page
  let written := qspiFlashWrite erased (chan * flashSectorSize) gathered
  qspiDisperseData chan written (qspiFlashRead written (chan * flashSectorSize) gathered)

def readQspi (page : Page) : Board :=
  qspiDisperseData chan b (qspiFlashRead b (chan * flashSectorSize) page)

/-- What each message does; `page` is what the page buffer on the stack holds before. -/
def chanMessageWith {α : Type} (A : Arith α) (page : Page) : ChanMsg → Option Board
  | .dacOpmode => setDacOpmode chan b data
  | .dacSetpt => setDacWith chan b A (A.ofBits data)
  | .dacRamplen => some (writeWord chan data b dacRamplenReg)
  | .dacRunramp => some (writeWord chan data b dacRunrampReg)
  | .dacSetptGain => some (writeGain chan data b A dacSetptGainReg)
  | .dacSetptOffset =>
      some (writeScaled chan data b A dacSetptOffsetReg .float b.convVoltsToDacBits (·.dacDccts))
  | .dcct1Gain => some (writeGain chan data b A dcct1GainReg)
  | .dcct1Offset =>
      some (writeScaled chan data b A dcct1OffsetReg .float b.convVoltsToDacBits (·.dacDccts))
  | .dcct2Gain => some (writeGain chan data b A dcct2GainReg)
  | .dcct2Offset =>
      some (writeScaled chan data b A dcct2OffsetReg .float b.convVoltsToDacBits (·.dacDccts))
  | .dacmonGain => some (writeGain chan data b A dacmonGainReg)
  | .dacmonOffset =>
      some (writeScaled chan data b A dacmonOffsetReg .double convVoltsTo16Bits (·.dacDccts))
  | .voltGain => some (writeGain chan data b A voltGainReg)
  | .voltOffset => some (writeScaled chan data b A voltOffsetReg .double convVoltsTo16Bits (·.vout))
  | .gndGain => some (writeGain chan data b A gndGainReg)
  | .gndOffset => some (writeScaled chan data b A gndOffsetReg .double convVoltsTo16Bits (·.ignd))
  | .spareGain => some (writeGain chan data b A spareGainReg)
  | .spareOffset =>
      some (writeScaled chan data b A spareOffsetReg .double convVoltsTo16Bits (·.spare))
  | .regGain => some (writeGain chan data b A regGainReg)
  | .regOffset =>
      some (writeScaled chan data b A regOffsetReg .double convVoltsTo16Bits (·.regulator))
  | .errGain => some (writeGain chan data b A errGainReg)
  | .errOffset => some (writeScaled chan data b A errOffsetReg .double convVoltsTo16Bits (·.error))
  | .ovc1Thresh =>
      some (writeScaled chan data b A ovc1ThreshReg .float b.convVoltsToDacBits (·.dacDccts))
  | .ovc2Thresh =>
      some (writeScaled chan data b A ovc2ThreshReg .float b.convVoltsToDacBits (·.dacDccts))
  | .ovvThresh => some (writeThresh16 chan data b A ovvThreshReg (·.vout))
  | .err1Thresh => some (writeThresh16 chan data b A err1ThreshReg (·.error))
  | .err2Thresh => some (writeThresh16 chan data b A err2ThreshReg (·.error))
  -- the ground current threshold goes by the scale factor of the error
  | .igndThresh => some (writeThresh16 chan data b A igndThreshReg (·.error))
  | .ovc1Cntlim => some (writeCntlim chan data b A ovc1CntlimReg)
  | .ovc2Cntlim => some (writeCntlim chan data b A ovc2CntlimReg)
  | .ovvCntlim => some (writeCntlim chan data b A ovvCntlimReg)
  | .err1Cntlim => some (writeCntlim chan data b A err1CntlimReg)
  | .err2Cntlim => some (writeCntlim chan data b A err2CntlimReg)
  | .igndCntlim => some (writeCntlim chan data b A igndCntlimReg)
  | .dcctCntlim => some (writeCntlim chan data b A dcctCntlimReg)
  | .flt1Cntlim => some (writeCntlim chan data b A flt1CntlimReg)
  | .flt2Cntlim => some (writeCntlim chan data b A flt2CntlimReg)
  | .flt3Cntlim => some (writeCntlim chan data b A flt3CntlimReg)
  | .onCntlim => some (writeCntlim chan data b A onCntlimReg)
  | .heartCntlim => some (writeCntlim chan data b A heartbeatCntlimReg)
  | .faultClear => some (writeWord chan data b faultClearReg)
  | .faultMask => some (writeWord chan data b faultMaskReg)
  | .digoutOn1 => some (writeWord chan data b digoutOn1Reg)
  | .digoutOn2 => some (writeWord chan data b digoutOn2Reg)
  | .digoutReset => some (writeWord chan data b digoutResetReg)
  | .digoutSpare => some (writeWord chan data b digoutSpareReg)
  | .digoutPark => some (writeWord chan data b digoutParkReg)
  | .sfAmpsPerSec => some (updateScalefactors chan b fun sf => { sf with ampspersec := data })
  | .sfDacDccts => some (updateScalefactors chan b fun sf => { sf with dacDccts := data })
  | .sfVout => some (updateScalefactors chan b fun sf => { sf with vout := data })
  | .sfIgnd => some (updateScalefactors chan b fun sf => { sf with ignd := data })
  | .sfSpare => some (updateScalefactors chan b fun sf => { sf with spare := data })
  | .sfRegulator => some (updateScalefactors chan b fun sf => { sf with regulator := data })
  | .sfError => some (updateScalefactors chan b fun sf => { sf with error := data })
  | .aveMode => some (writeWord chan data b avemodeReg)
  | .writeQspi => some (if data = 1 then writeQspi chan b page else b)
  | .readQspi => some (if data = 1 then readQspi chan b page else b)
  | .dumpAdcs => some b
  | .kp => some (writeWord chan data b dpidKpReg)
  | .ki => some (writeWord chan data b dpidKiReg)
  | .kd => some (writeWord chan data b dpidKdReg)
  | .dpidEnb => some (writeWord chan data b dpidEnbReg)
  | .dpidPark => some (writeWord chan data b dpidParkReg)
  | .dpidIreset => some (writeWord chan data b dpidIresetReg)
  | .dpidIlimit => some (writeWord chan data b dpidIlimitReg)

/-- The same without roundings but those of a smooth ramp's length. -/
def chanMessage (page : Page) (m : ChanMsg) : Option Board :=
  chanMessageWith chan data b exact page m

end Settings

/-- The `k`th word of a message, which the network sends with its high byte first. -/
def msgWord (msg : Nat → BitVec 8) (k : Nat) : BitVec 32 :=
  msg (4 * k) ++ msg (4 * k + 1) ++ msg (4 * k + 2) ++ msg (4 * k + 3)

/-- The message is an address and a data word; one without a known address does nothing. -/
def chanSettingsWith {α : Type} (A : Arith α) (page : Page) (chan : BitVec 32)
    (msg : Nat → BitVec 8) (b : Board) : Option Board :=
  match ChanMsg.ofAddr (msgWord msg 0) with
  | some m => chanMessageWith chan (msgWord msg 1) b A page m
  | none => some b

/-- The same without roundings but those of a smooth ramp's length. -/
def chanSettings (page : Page) (chan : BitVec 32) (msg : Nat → BitVec 8) (b : Board) :
    Option Board :=
  chanSettingsWith exact page chan msg b

end PscDigpid.Sw
