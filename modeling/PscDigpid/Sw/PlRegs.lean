/- Unit: PscDigpid/Sw/PlRegs
   layer: model
   source: src/sw/src/pl_regs.h
   digest: The registers' offsets as the server has them. -/

import Mathlib.Data.Nat.Init

set_option autoImplicit false
set_option relaxedAutoImplicit false

namespace PscDigpid.Sw

def chBaseAddr : BitVec 32 := 0x200

def ledsReg : BitVec 32 := 0x4
def resolutionReg : BitVec 32 := 0x8
def numchansReg : BitVec 32 := 0xC
def bandwidthReg : BitVec 32 := 0x10
def polarityReg : BitVec 32 := 0x14
def evrInjEventnumReg : BitVec 32 := 0x20
def evrPmEventnumReg : BitVec 32 := 0x24
def evr1hzEventnumReg : BitVec 32 := 0x28
def evr10hzEventnumReg : BitVec 32 := 0x2C
def evr10khzEventnumReg : BitVec 32 := 0x30
def evrTsSReg : BitVec 32 := 0x40
def evrTsNsReg : BitVec 32 := 0x44
def evrResetReg : BitVec 32 := 0x48
def iocAccessReg : BitVec 32 := 0x50
def tenhzDatasendReg : BitVec 32 := 0x54
def softtrigReg : BitVec 32 := 0xA08
def testtrigReg : BitVec 32 := 0xA0C
def prjShasum : BitVec 32 := 0xC10

def dcct1Reg : BitVec 32 := 0x000
def dcct2Reg : BitVec 32 := 0x004
def dacmonReg : BitVec 32 := 0x008
def voltReg : BitVec 32 := 0x00C
def gndReg : BitVec 32 := 0x010
def spareReg : BitVec 32 := 0x014
def regReg : BitVec 32 := 0x018
def errReg : BitVec 32 := 0x01C

def dacSetptOffsetReg : BitVec 32 := 0x020
def dacSetptGainReg : BitVec 32 := 0x024
def dacSetptReg : BitVec 32 := 0x028
def dacOpmodeReg : BitVec 32 := 0x02C
def dacRamplenReg : BitVec 32 := 0x038
def dacRampaddrReg : BitVec 32 := 0x03C
def dacRampdataReg : BitVec 32 := 0x040
def dacRunrampReg : BitVec 32 := 0x044
def dacRampactiveReg : BitVec 32 := 0x048
def dacCurrsetptReg : BitVec 32 := 0x04C
def dcct1OffsetReg : BitVec 32 := 0x050
def dcct1GainReg : BitVec 32 := 0x054
def dcct2OffsetReg : BitVec 32 := 0x058
def dcct2GainReg : BitVec 32 := 0x05C
def dacmonOffsetReg : BitVec 32 := 0x060
def dacmonGainReg : BitVec 32 := 0x064
def voltOffsetReg : BitVec 32 := 0x068
def voltGainReg : BitVec 32 := 0x06C
def gndOffsetReg : BitVec 32 := 0x070
def gndGainReg : BitVec 32 := 0x074
def spareOffsetReg : BitVec 32 := 0x078
def spareGainReg : BitVec 32 := 0x07C
def regOffsetReg : BitVec 32 := 0x080
def regGainReg : BitVec 32 := 0x084
def errOffsetReg : BitVec 32 := 0x088
def errGainReg : BitVec 32 := 0x08C
def ovc1ThreshReg : BitVec 32 := 0x090
def ovc2ThreshReg : BitVec 32 := 0x094
def ovvThreshReg : BitVec 32 := 0x098
def err1ThreshReg : BitVec 32 := 0x09C
def err2ThreshReg : BitVec 32 := 0x0A0
def igndThreshReg : BitVec 32 := 0x0A4
def ovc1CntlimReg : BitVec 32 := 0x0A8
def ovc2CntlimReg : BitVec 32 := 0x0AC
def ovvCntlimReg : BitVec 32 := 0x0B0
def err1CntlimReg : BitVec 32 := 0x0B4
def err2CntlimReg : BitVec 32 := 0x0B8
def igndCntlimReg : BitVec 32 := 0x0BC
def dcctCntlimReg : BitVec 32 := 0x0C0
def flt1CntlimReg : BitVec 32 := 0x0C4
def flt2CntlimReg : BitVec 32 := 0x0C8
def flt3CntlimReg : BitVec 32 := 0x0CC
def onCntlimReg : BitVec 32 := 0x0D0
def faultClearReg : BitVec 32 := 0x0D4
def faultMaskReg : BitVec 32 := 0x0D8
def heartbeatCntlimReg : BitVec 32 := 0x0DC
def digoutOn1Reg : BitVec 32 := 0x0E0
def digoutOn2Reg : BitVec 32 := 0x0E4
def digoutResetReg : BitVec 32 := 0x0E8
def digoutSpareReg : BitVec 32 := 0x0EC
def digoutParkReg : BitVec 32 := 0x0F0
def diginReg : BitVec 32 := 0x0F4
def faultsLiveReg : BitVec 32 := 0x0F8
def faultsLatReg : BitVec 32 := 0x0FC
def avemodeReg : BitVec 32 := 0x100
def smoothPhaseincReg : BitVec 32 := 0x10C
def dpidKpReg : BitVec 32 := 0x140
def dpidKiReg : BitVec 32 := 0x144
def dpidKdReg : BitVec 32 := 0x148
def dpidParkReg : BitVec 32 := 0x14C
def dpidEnbReg : BitVec 32 := 0x150
def dpidIlimitReg : BitVec 32 := 0x154
def dpidIresetReg : BitVec 32 := 0x158
def dpidSetptinReg : BitVec 32 := 0x170
def dpidFdbkReg : BitVec 32 := 0x174
def dpidErrorReg : BitVec 32 := 0x178
def dpidPtermReg : BitVec 32 := 0x17C
def dpidItermReg : BitVec 32 := 0x180
def dpidDtermReg : BitVec 32 := 0x184
def dpidSumtermReg : BitVec 32 := 0x188
def dpidSetptoutReg : BitVec 32 := 0x18C

end PscDigpid.Sw
