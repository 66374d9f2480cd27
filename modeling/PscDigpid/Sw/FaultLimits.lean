/- Unit: PscDigpid/Sw/FaultLimits
   layer: result
   source: src/sw/src/control.c, src/hw/hdl/ps_io.vhd, src/hw/hdl/fault_module.vhd
   digest: The way of a count limit from its message to the fault block. -/

import PscDigpid.Hdl.FaultModule
import PscDigpid.Hdl.PsIo
import PscDigpid.Sw.Control

set_option autoImplicit false
set_option relaxedAutoImplicit false

namespace PscDigpid.Sw

open PscDigpid.Hdl
open PscDigpid.Num
open FaultBlock (FaultBit cntlim)

section Names

/-- The message that sets the count limit of a fault bit. -/
def cntlimMsg : FaultBit → ChanMsg
  | .ovc1 => .ovc1Cntlim
  | .ovc2 => .ovc2Cntlim
  | .ovv => .ovvCntlim
  | .err1 => .err1Cntlim
  | .err2 => .err2Cntlim
  | .ignd => .igndCntlim
  | .dcct => .dcctCntlim
  | .flt1 => .flt1Cntlim
  | .flt2 => .flt2Cntlim
  | .flt3 => .flt3Cntlim
  | .on => .onCntlim

/-- The register of that limit in the server's table. -/
def cntlimReg : FaultBit → BitVec 32
  | .ovc1 => ovc1CntlimReg
  | .ovc2 => ovc2CntlimReg
  | .ovv => ovvCntlimReg
  | .err1 => err1CntlimReg
  | .err2 => err2CntlimReg
  | .ignd => igndCntlimReg
  | .dcct => dcctCntlimReg
  | .flt1 => flt1CntlimReg
  | .flt2 => flt2CntlimReg
  | .flt3 => flt3CntlimReg
  | .on => onCntlimReg

/-- The register of that limit in the register map. -/
def limitReg : FaultBit → Rdl.ChanReg
  | .ovc1 => .ovc1Cntlim
  | .ovc2 => .ovc2Cntlim
  | .ovv => .ovvCntlim
  | .err1 => .err1Cntlim
  | .err2 => .err2Cntlim
  | .ignd => .igndCntlim
  | .dcct => .dcctCntlim
  | .flt1 => .flt1Cntlim
  | .flt2 => .flt2Cntlim
  | .flt3 => .flt3Cntlim
  | .on => .onCntlim

end Names

section Links

variable (c : Chan) (f : FaultBit)

theorem limitReg_info : (limitReg f).info.width = 16 ∧ (limitReg f).info.source = .software := by
  cases f <;> exact ⟨rfl, rfl⟩

theorem limitReg_injective {f f' : FaultBit} (same : limitReg f = limitReg f') : f = f' := by
  cases f <;> cases f' <;> first | rfl | cases same

theorem chanMessage_cntlim (chan data : BitVec 32) (b : Board) (page : Page) :
    chanMessage chan data b page (cntlimMsg f) =
      some (writeCntlim chan data b exact (cntlimReg f)) := by
  cases f <;> rfl

/-- The server's table and the register map agree on every limit of every channel. -/
theorem chanReg_cntlim : chanReg (chanNumber c) (cntlimReg f) = Rdl.chanAddr c (limitReg f) := by
  apply chanReg_offset
  cases f <;> rfl

/-- In the fabric every limit but the DCCT fault's comes from its register. -/
theorem cntlim_faultParams (regs : BitVec 32 → BitVec 32) (undriven : PerChan (BitVec 16)) :
    cntlim ((PsIo.faultParams regs undriven).get c) f =
      if f = .dcct then undriven.get c
      else (regs (Rdl.chanAddr c (limitReg f))).setWidth 16 := by
  rw [PsIo.faultParams, PerChan.get_of]
  cases f <;> rfl

end Links

section Limits

variable (i : FaultModule.Ports) (undriven : PerChan (BitVec 16)) (b : Board)

/-- The limit a channel's fault block compares with for a fault bit, whatever else
comes to the fault module. -/
def limit (c : Chan) (f : FaultBit) : BitVec 16 :=
  cntlim (FaultModule.chFaults
    { i with faultParams := PsIo.faultParams b.regs undriven } c).faultParams f

theorem limit_eq (c : Chan) (f : FaultBit) : limit i undriven b c f =
    if f = .dcct then undriven.get c
    else (b.regs (Rdl.chanAddr c (limitReg f))).setWidth 16 := by
  rw [← cntlim_faultParams]
  cases c <;> rfl

/-- The message sets exactly the limit of one fault bit of one channel, whatever the
fields hold that nothing drives. -/
def SetsLimit (c : Chan) (f : FaultBit) (value : Nat) (before after : Board) : Prop :=
  ∀ undriven, (limit i undriven after c f).toNat = value ∧
    ∀ c' f', (c', f') ≠ (c, f) → limit i undriven after c' f' = limit i undriven before c' f'

variable {b}

theorem limit_xilOut32 (c : Chan) {f : FaultBit} (driven : f ≠ .dcct) (data : BitVec 32)
    (c' : Chan) (f' : FaultBit) :
    limit i undriven (b.xilOut32 (Rdl.chanAddr c (limitReg f)) data) c' f' =
      if (c', f') = (c, f) then data.setWidth 16 else limit i undriven b c' f' := by
  have stored : Rdl.storedWidth (Rdl.chanAddr c (limitReg f)) = some 16 := by
    rw [Rdl.storedWidth_chanAddr c (limitReg_info f).2, (limitReg_info f).1]
  rw [limit_eq, limit_eq, Board.xilOut32_stored b stored]
  by_cases same : (c', f') = (c, f)
  · obtain ⟨rfl, rfl⟩ := Prod.mk.inj same
    rw [if_pos rfl, if_neg driven, Function.update_self]
    rw [BitVec.setWidth_setWidth_of_le _ (by decide), BitVec.setWidth_eq]
  · rw [if_neg same, Function.update_of_ne]
    intro equal
    obtain ⟨rfl, limits⟩ := Rdl.chanAddr_injective equal
    exact same (by rw [limitReg_injective limits])

/-- No message sets the limit of the DCCT fault: the fabric has it from nowhere. -/
theorem dcct_limit_not_set (c : Chan) (value : Nat) (before after : Board) :
    ¬ SetsLimit i c .dcct value before after := by
  intro sets
  have zero := (sets (PerChan.of fun _ => 0)).1
  have one := (sets (PerChan.of fun _ => 1)).1
  rw [limit_eq, if_pos rfl, PerChan.get_of] at zero one
  rw [← zero] at one
  exact absurd one (by decide)

end Limits

/-- A count limit message sets its own limit and no other, unless it is the one for
the DCCT fault, whose register the fabric does not read. -/
theorem cntlim_message_sets_limit_iff (i : FaultModule.Ports) (c : Chan) (f : FaultBit)
    (page : Page) (msg : Nat → BitVec 8) (before : Board) (value : Nat)
    (address : msgWord msg 0 = (cntlimMsg f).addr)
    (scaled : trunc (single (msgWord msg 1) * 10000) = value) (fits : value ≤ 65535) :
    (∃ after, chanSettings page (chanNumber c) msg before = some after ∧
      SetsLimit i c f value before after) ↔ f ≠ .dcct := by
  constructor
  · rintro ⟨after, -, sets⟩ rfl
    exact dcct_limit_not_set i c value before after sets
  · intro driven
    have number : (toS32 (single (msgWord msg 1) * sampleRate)).toNat = value :=
      toNat_toS32 scaled (by omega)
    refine ⟨before.xilOut32 (Rdl.chanAddr c (limitReg f))
      (toS32 (single (msgWord msg 1) * sampleRate)), ?_, fun undriven => ⟨?_, ?_⟩⟩
    · rw [chanSettings, chanSettingsWith, address, ChanMsg.ofAddr_addr]
      change chanMessage _ _ _ _ (cntlimMsg f) = _
      rw [chanMessage_cntlim, writeCntlim, chanReg_cntlim]
      rfl
    · rw [limit_xilOut32 i undriven c driven, if_pos rfl, BitVec.toNat_setWidth, number]
      exact Nat.mod_eq_of_lt (by omega)
    · intro c' f' apart
      rw [limit_xilOut32 i undriven c driven, if_neg apart]

/-- Nothing but a clock at the fault module. -/
def quietInputs : FaultModule.Ports where
  reset := false
  tenkhzTrig := false
  faultParams := PsIo.faultParams (fun _ => 0) (PerChan.of fun _ => 0)
  dcctAdcs := PerChan.of fun _ => ⟨0, 0⟩
  monAdcs := PerChan.of fun _ => ⟨0, 0, 0⟩
  dacStat := PerChan.of fun _ => ⟨0⟩
  rcom := 0
  rsts := 0

/-- A message with the value 0.25 for an address. -/
def quarter (addr : BitVec 8) (k : Nat) : BitVec 8 :=
  [0, 0, 0, addr, 0x3E, 0x80, 0, 0].getD k 0

private theorem quarter_scaled (addr : BitVec 8) :
    trunc (single (msgWord (quarter addr) 1) * 10000) = (2500 : Nat) := by
  have word : msgWord (quarter addr) 1 = 0x3E800000 := by simp [msgWord, quarter]
  rw [word]
  decide +kernel

theorem ovc1_quarter_sets_2500 :
    ∃ after, chanSettings (fun _ => 0) 2 (quarter 212) blankBoard = some after ∧
      SetsLimit quietInputs .ps2 .ovc1 2500 blankBoard after :=
  (cntlim_message_sets_limit_iff quietInputs .ps2 .ovc1 (fun _ => 0) (quarter 212) blankBoard
    2500 rfl (quarter_scaled 212) (by decide)).2 (by decide)

/-- The message for the DCCT fault is handled and sets no limit. -/
theorem dcct_quarter_sets_nothing :
    msgWord (quarter 236) 0 = ChanMsg.addr .dcctCntlim ∧
    trunc (single (msgWord (quarter 236) 1) * 10000) = (2500 : Nat) ∧
    ¬ ∃ after, chanSettings (fun _ => 0) 1 (quarter 236) blankBoard = some after ∧
      SetsLimit quietInputs .ps1 .dcct 2500 blankBoard after :=
  ⟨rfl, quarter_scaled 236,
    fun ⟨after, _, sets⟩ => dcct_limit_not_set quietInputs .ps1 2500 blankBoard after sets⟩

end PscDigpid.Sw
