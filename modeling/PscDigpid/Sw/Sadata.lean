/- Unit: PscDigpid/Sw/Sadata
   layer: model
   source: src/sw/src/sadata.c, src/sw/src/sadata.h
   digest: The message sent to the clients ten times a second. -/

import PscDigpid.Sw.Control

set_option autoImplicit false
set_option relaxedAutoImplicit false

namespace PscDigpid.Sw

open PscDigpid.Hdl (PerChan)
open PscDigpid.Num

/-- One channel's part of the message. The numbers are exact; a reading is none where it is not
a number. Words that are single-precision numbers already are kept as they are. -/
structure SAdataChan where
  dcct1 : Option ℚ
  dcct1Offset : ℚ
  dcct1Gain : ℚ
  dcct2 : Option ℚ
  dcct2Offset : ℚ
  dcct2Gain : ℚ
  dacmon : Option ℚ
  dacmonOffset : ℚ
  dacmonGain : ℚ
  volt : Option ℚ
  voltOffset : ℚ
  voltGain : ℚ
  gnd : Option ℚ
  gndOffset : ℚ
  gndGain : ℚ
  spare : Option ℚ
  spareOffset : ℚ
  spareGain : ℚ
  reg : Option ℚ
  regOffset : ℚ
  regGain : ℚ
  error : Option ℚ
  errorOffset : ℚ
  errorGain : ℚ
  dacSetpt : ℚ
  dacSetptOffset : ℚ
  dacSetptGain : ℚ
  dacRampactive : BitVec 32
  ovc1Thresh : ℚ
  ovc2Thresh : ℚ
  ovvThresh : ℚ
  err1Thresh : ℚ
  err2Thresh : ℚ
  igndThresh : ℚ
  ovc1Cntlim : ℚ
  ovc2Cntlim : ℚ
  ovvCntlim : ℚ
  err1Cntlim : ℚ
  err2Cntlim : ℚ
  igndCntlim : ℚ
  dcctCntlim : ℚ
  flt1Cntlim : ℚ
  flt2Cntlim : ℚ
  flt3Cntlim : ℚ
  onCntlim : ℚ
  heartbeatCntlim : ℚ
  faultClear : BitVec 32
  faultMask : BitVec 32
  digoutOn1 : BitVec 32
  digoutOn2 : BitVec 32
  digoutReset : BitVec 32
  digoutSpare : BitVec 32
  digoutPark : BitVec 32
  digin : BitVec 32
  faultsLive : BitVec 32
  faultsLatched : BitVec 32
  sf : ScaleFactorType
  dacSetptRaw : BitVec 32
  dpidKp : BitVec 32
  dpidKi : BitVec 32
  dpidKd : BitVec 32
  dpidSetptin : BitVec 32
  dpidFdbk : BitVec 32
  dpidError : BitVec 32
  dpidPterm : BitVec 32
  dpidIterm : BitVec 32
  dpidDterm : BitVec 32
  dpidSumterm : BitVec 32
  dpidSetptout : BitVec 32

/-- The message; what is never filled in is left out. -/
structure SAdataMsg where
  numchans : BitVec 32
  evrTsNs : BitVec 32
  evrTsS : BitVec 32
  resolution : BitVec 32
  gitShasum : BitVec 32
  bandwidth : BitVec 32
  polarity : BitVec 32
  ps : PerChan SAdataChan

/-- A reading by the mode of the averages, the conversions to single precision as given. -/
def readAccumSA (round : ℚ → ℚ) (b : Board) (regAddr aveMode : BitVec 32) : Option ℚ :=
  let raw : ℚ := (b.xilIn32 regAddr).toInt
  if aveMode = 0 then some (round raw)
  else if aveMode = 1 then some (round (raw / 167))
  else if aveMode = 2 then some (round (raw / 500))
  else none

section Channel

variable (chan : BitVec 32) (b : Board)

/-- A channel's register as it is read. -/
def readChan (reg : BitVec 32) : BitVec 32 := b.xilIn32 (chanReg chan reg)

def readSigned (reg : BitVec 32) : ℚ := (readChan chan b reg).toInt

def readUnsigned (reg : BitVec 32) : ℚ := (readChan chan b reg).toNat

/-- A channel's reading goes by its own mode. -/
def readAve (round : ℚ → ℚ) (reg : BitVec 32) : Option ℚ :=
  readAccumSA round b (chanReg chan reg) (readChan chan b avemodeReg)

def sadataChan : SAdataChan :=
  let sf := scalefactor chan b
  let volts := convDacBitsToVolts b
  let volts16 := conv16BitsToVolts
  let signed := readSigned chan b
  let unsigned := readUnsigned chan b
  let word := readChan chan b
  let ave := readAve chan b id
  { dcct1 := (ave dcct1Reg).map (· * volts * sf (·.dacDccts))
    dcct1Offset := signed dcct1OffsetReg * volts * sf (·.dacDccts)
    dcct1Gain := signed dcct1GainReg / gain20BitFract
    dcct2 := (ave dcct2Reg).map (· * volts * sf (·.dacDccts))
    dcct2Offset := signed dcct2OffsetReg * volts * sf (·.dacDccts)
    dcct2Gain := signed dcct2GainReg / gain20BitFract
    dacmon := (ave dacmonReg).map (· * volts16 * sf (·.dacDccts))
    dacmonOffset := signed dacmonOffsetReg * volts16 * sf (·.dacDccts)
    dacmonGain := signed dacmonGainReg / gain20BitFract
    volt := (ave voltReg).map (· * volts16 * sf (·.vout))
    voltOffset := signed voltOffsetReg * volts16 * sf (·.vout)
    voltGain := signed voltGainReg / gain20BitFract
    gnd := (ave gndReg).map (· * volts16 * sf (·.ignd))
    gndOffset := signed gndOffsetReg * volts16 * sf (·.ignd)
    gndGain := signed gndGainReg / gain20BitFract
    spare := (ave spareReg).map (· * volts16 * sf (·.spare))
    spareOffset := signed spareOffsetReg * volts16 * sf (·.spare)
    spareGain := signed spareGainReg / gain20BitFract
    reg := (ave regReg).map (· * volts16 * sf (·.regulator))
    regOffset := signed regOffsetReg * volts16 * sf (·.regulator)
    regGain := signed regGainReg / gain20BitFract
    error := (ave errReg).map (· * volts16 * sf (·.error))
    errorOffset := signed errOffsetReg * volts16 * sf (·.error)
    errorGain := signed errGainReg / gain20BitFract
    dacSetpt := signed dacCurrsetptReg * volts * sf (·.dacDccts)
    dacSetptRaw := word dacCurrsetptReg
    -- the offset of the setpoint is not scaled back
    dacSetptOffset := signed dacSetptOffsetReg * volts
    dacSetptGain := signed dacSetptGainReg / gain20BitFract
    dacRampactive := word dacRampactiveReg
    ovc1Thresh := signed ovc1ThreshReg * volts * sf (·.dacDccts)
    ovc2Thresh := signed ovc2ThreshReg * volts * sf (·.dacDccts)
    ovvThresh := unsigned ovvThreshReg * volts16 * sf (·.vout)
    err1Thresh := unsigned err1ThreshReg * volts16 * sf (·.error)
    err2Thresh := unsigned err2ThreshReg * volts16 * sf (·.error)
    igndThresh := unsigned igndThreshReg * volts16 * sf (·.ignd)
    ovc1Cntlim := unsigned ovc1CntlimReg / sampleRate
    ovc2Cntlim := unsigned ovc2CntlimReg / sampleRate
    ovvCntlim := unsigned ovvCntlimReg / sampleRate
    err1Cntlim := unsigned err1CntlimReg / sampleRate
    err2Cntlim := unsigned err2CntlimReg / sampleRate
    igndCntlim := unsigned igndCntlimReg / sampleRate
    dcctCntlim := unsigned dcctCntlimReg / sampleRate
    flt1Cntlim := unsigned flt1CntlimReg / sampleRate
    flt2Cntlim := unsigned flt2CntlimReg / sampleRate
    flt3Cntlim := unsigned flt3CntlimReg / sampleRate
    onCntlim := unsigned onCntlimReg / sampleRate
    heartbeatCntlim := unsigned heartbeatCntlimReg / sampleRate
    faultClear := word faultClearReg
    faultMask := word faultMaskReg
    digoutOn1 := word digoutOn1Reg
    -- the next three are not read from their own registers
    digoutOn2 := word digoutOn1Reg
    digoutReset := word digoutOn1Reg
    digoutSpare := word digoutResetReg
    digoutPark := word digoutParkReg
    digin := word diginReg
    faultsLive := word faultsLiveReg
    faultsLatched := word faultsLatReg
    sf := b.scalefactors (chan - 1)
    dpidKp := word dpidKpReg
    dpidKi := word dpidKiReg
    dpidKd := word dpidKdReg
    dpidSetptin := word dpidSetptinReg
    dpidFdbk := word dpidFdbkReg
    dpidError := word dpidErrorReg
    dpidPterm := word dpidPtermReg
    dpidIterm := word dpidItermReg
    dpidDterm := word dpidDtermReg
    dpidSumterm := word dpidSumtermReg
    dpidSetptout := word dpidSetptoutReg }

end Channel

/-- One pass of `sadata_push`: a front panel LED blinks, then the message is read. -/
def sadataPass (b : Board) : Board × SAdataMsg :=
  let blinked := (b.xilOut32 tenhzDatasendReg 1).xilOut32 tenhzDatasendReg 0
  (blinked,
    { numchans := blinked.xilIn32 numchansReg
      evrTsNs := blinked.xilIn32 evrTsNsReg
      evrTsS := blinked.xilIn32 evrTsSReg
      resolution := blinked.xilIn32 resolutionReg
      gitShasum := blinked.xilIn32 prjShasum
      bandwidth := blinked.xilIn32 bandwidthReg
      polarity := blinked.xilIn32 polarityReg
      ps := PerChan.of fun c => sadataChan (chanNumber c) blinked })

end PscDigpid.Sw
