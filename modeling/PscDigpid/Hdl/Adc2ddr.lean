/- Unit: PscDigpid/Hdl/Adc2ddr
   layer: model
   source: src/hw/hdl/adc2ddr.vhd
   digest: The writer of one snapshot record in each burst, around a ring in memory. -/

import PscDigpid.Hdl.PscPkg

set_option autoImplicit false
set_option relaxedAutoImplicit false

namespace PscDigpid.Hdl.Adc2ddr

/-- The words of one channel in a record. -/
inductive ChanWord
  | dcct1 | dcct2 | mon1 | mon2 | mon3 | mon4 | mon5 | mon6
  deriving DecidableEq

inductive State
  | idle | address | hdr | cnt | ps (c : Chan) (w : ChanWord) | wrd35 | wrd36 | wrd37 | wrd38
  | wrd39 | wrdlast | awaitresp
  deriving DecidableEq

def burstLen : Nat := 40

def ddrBaseAddr : BitVec 32 := 0x10000000

def ddrMaxAddr : BitVec 32 := 0x11E84800

/-- Input ports of `axi4_write_adc`; of the loop's controls and values it reads the first
channel's. -/
structure Ports where
  reset : Bool
  trigger : Bool
  digpidEnb1 : Bool
  s2m : PlSnapshotAxi4S2m
  dcctAdcs : DcctAdcs
  monAdcs : PerChan MonAdcsSnapOnech
  pidStat1 : PidStatOnech

/-- Registers of `axi4_write_adc`. -/
structure Regs where
  state : State
  wordnum : Nat
  addrBase : BitVec 32
  datacnt : BitVec 32
  prevTrigger : Bool
  m2s : PlSnapshotAxi4M2s
  ssBufStat : SnapshotStat

/-- Every register as the device configures it. -/
def powerUp : Regs where
  state := .idle
  wordnum := 0
  addrBase := ddrBaseAddr
  datacnt := 0
  prevTrigger := false
  m2s := ⟨0, 0, 0, 0, 0, 0, 0, 0, false, 0, false, 0, false, false⟩
  ssBufStat := ⟨0, 0⟩

/-- The state after a word's. -/
def next : State → State
  | .hdr => .cnt
  | .cnt => .ps .ps1 .dcct1
  | .ps c .dcct1 => .ps c .dcct2
  | .ps c .dcct2 => .ps c .mon1
  | .ps c .mon1 => .ps c .mon2
  | .ps c .mon2 => .ps c .mon3
  | .ps c .mon3 => .ps c .mon4
  | .ps c .mon4 => .ps c .mon5
  | .ps c .mon5 => .ps c .mon6
  | .ps .ps1 .mon6 => .ps .ps2 .dcct1
  | .ps .ps2 .mon6 => .ps .ps3 .dcct1
  | .ps .ps3 .mon6 => .ps .ps4 .dcct1
  | .ps .ps4 .mon6 => .wrd35
  | .wrd35 => .wrd36
  | .wrd36 => .wrd37
  | .wrd37 => .wrd38
  | .wrd38 => .wrd39
  | .wrd39 => .wrdlast
  | .wrdlast => .awaitresp
  | s => s

section Words

variable (datacnt : BitVec 32) (i : Ports)

/-- A channel's word; with its loop on, the first channel has two of the loop's values in
place of its last monitor values. -/
def chanWord (c : Chan) (w : ChanWord) : BitVec 32 :=
  let loop := decide (c = .ps1) && i.digpidEnb1
  match w with
  | .dcct1 => (i.dcctAdcs.get c).dcct0.signExtend 32
  | .dcct2 => (i.dcctAdcs.get c).dcct1.signExtend 32
  | .mon1 => (i.monAdcs.get c).dacmon.signExtend 32
  | .mon2 => (i.monAdcs.get c).voltage.signExtend 32
  | .mon3 => (i.monAdcs.get c).ignd.signExtend 32
  | .mon4 => (i.monAdcs.get c).spare.signExtend 32
  | .mon5 =>
      if loop then i.pidStat1.setptout.signExtend 32 else (i.monAdcs.get c).psReg.signExtend 32
  | .mon6 => if loop then i.pidStat1.errorF else (i.monAdcs.get c).psError.signExtend 32

/-- The word each state writes. -/
def word : State → BitVec 32
  | .hdr => 0x80000000
  | .cnt => datacnt
  | .ps c w => chanWord i c w
  | .wrd35 => 35
  | .wrd36 => 36
  | .wrd37 => 37
  | .wrd38 => 38
  | .wrd39 => 39
  | .wrdlast => 40
  | _ => 0

end Words

section Processes

variable (s : Regs) (i : Ports)

/-- A new record begins on a rising edge of the trigger. -/
def idleClock : Regs :=
  if i.trigger && !s.prevTrigger then
    { s with
      prevTrigger := i.trigger
      ssBufStat := ⟨s.addrBase, s.datacnt⟩
      datacnt := s.datacnt + 1
      wordnum := 0
      m2s := { s.m2s with
        awaddr := s.addrBase
        awvalid := true
        awburst := 1
        awcache := 3
        awlen := BitVec.ofNat 8 (burstLen - 1)
        awlock := 0
        awprot := 0
        awqos := 0
        awsize := 2 }
      state := .address }
  else { s with prevTrigger := i.trigger }

def addressClock : Regs :=
  if i.s2m.awready then
    { s with
      m2s := { s.m2s with awvalid := false, wdata := 0, wstrb := 0xF }
      state := .hdr
      wordnum := 0 }
  else s

/-- The slave's ready puts the state's word on the bus and goes on to the next; the last
word is marked. -/
def writeWord : Regs :=
  if i.s2m.wready then
    { s with
      m2s := { s.m2s with
        wvalid := true
        wlast := if s.state = .wrdlast then true else s.m2s.wlast
        wdata := word s.datacnt i s.state }
      state := next s.state }
  else s

def awaitrespClock : Regs :=
  if i.s2m.bvalid then
    { s with
      m2s := { s.m2s with wlast := false, wvalid := false, bready := false }
      addrBase :=
        if s.addrBase.toNat < ddrMaxAddr.toNat then s.addrBase + BitVec.ofNat 32 (4 * burstLen)
        else ddrBaseAddr
      state := .idle }
  else { s with m2s := { s.m2s with wlast := false, wvalid := false, bready := true } }

/-- One rising clock edge. The reset keeps the address of the ring. -/
def step : Regs :=
  if i.reset then
    { s with
      wordnum := 0
      m2s := { s.m2s with awvalid := false, wvalid := false, bready := false, wdata := 0 }
      state := .idle
      datacnt := 0 }
  else
    match s.state with
    | .idle => idleClock s i
    | .address => addressClock s i
    | .awaitresp => awaitrespClock s i
    | _ => writeWord s i

end Processes

/-- The states that write the words of a record, in order. -/
def order : List State :=
  [.hdr, .cnt,
   .ps .ps1 .dcct1, .ps .ps1 .dcct2, .ps .ps1 .mon1, .ps .ps1 .mon2, .ps .ps1 .mon3, .ps .ps1 .mon4,
   .ps .ps1 .mon5, .ps .ps1 .mon6,
   .ps .ps2 .dcct1, .ps .ps2 .dcct2, .ps .ps2 .mon1, .ps .ps2 .mon2, .ps .ps2 .mon3, .ps .ps2 .mon4,
   .ps .ps2 .mon5, .ps .ps2 .mon6,
   .ps .ps3 .dcct1, .ps .ps3 .dcct2, .ps .ps3 .mon1, .ps .ps3 .mon2, .ps .ps3 .mon3, .ps .ps3 .mon4,
   .ps .ps3 .mon5, .ps .ps3 .mon6,
   .ps .ps4 .dcct1, .ps .ps4 .dcct2, .ps .ps4 .mon1, .ps .ps4 .mon2, .ps .ps4 .mon3, .ps .ps4 .mon4,
   .ps .ps4 .mon5, .ps .ps4 .mon6,
   .wrd35, .wrd36, .wrd37, .wrd38, .wrd39, .wrdlast]

def wordState (n : Nat) : State := order.getD n .awaitresp

/-- How many words of a record have been put on the bus when the machine is in a state. -/
def puts : State → Nat
  | .idle | .address => 0
  | s => order.idxOf s

/-- The states that write a word. -/
def Writes (s : State) : Prop := s ≠ .idle ∧ s ≠ .address ∧ s ≠ .awaitresp

section States

variable {s : State}

theorem mem_order (writes : Writes s) : s ∈ order := by
  obtain ⟨idle, address, awaitresp⟩ := writes
  cases s with
  | ps c w => cases c <;> cases w <;> decide
  | idle => exact absurd rfl idle
  | address => exact absurd rfl address
  | awaitresp => exact absurd rfl awaitresp
  | _ => decide

theorem wordState_puts (writes : Writes s) : wordState (puts s) = s := by
  have all : ∀ s ∈ order, wordState (puts s) = s := by decide
  exact all s (mem_order writes)

theorem puts_lt (writes : Writes s) : puts s < 40 := by
  have all : ∀ s ∈ order, puts s < 40 := by decide
  exact all s (mem_order writes)

/-- Each word's state is followed by the next word's, and the last by the response. -/
theorem puts_next (writes : Writes s) :
    puts (next s) = puts s + 1 ∧ next s ≠ .idle ∧ (next s = .awaitresp ↔ puts s = 39) := by
  have all : ∀ s ∈ order,
      puts (next s) = puts s + 1 ∧ next s ≠ .idle ∧ (next s = .awaitresp ↔ puts s = 39) := by
    decide
  exact all s (mem_order writes)

theorem wrdlast_iff (writes : Writes s) : s = .wrdlast ↔ puts s = 39 := by
  have all : ∀ s ∈ order, s = .wrdlast ↔ puts s = 39 := by decide
  exact all s (mem_order writes)

end States

section Step

variable {s : Regs} {i : Ports}

theorem step_idle (running : i.reset = false) (idle : s.state = .idle) :
    step s i = idleClock s i := by
  simp [step, running, idle]

theorem step_address (running : i.reset = false) (address : s.state = .address) :
    step s i = addressClock s i := by
  simp [step, running, address]

theorem step_awaitresp (running : i.reset = false) (awaits : s.state = .awaitresp) :
    step s i = awaitrespClock s i := by
  simp [step, running, awaits]

theorem step_writes (running : i.reset = false) (writes : Writes s.state) :
    step s i = writeWord s i := by
  obtain ⟨idle, address, awaitresp⟩ := writes
  rw [step, running, if_neg Bool.false_ne_true]
  split
  · rename_i same
    exact absurd same idle
  · rename_i same
    exact absurd same address
  · rename_i same
    exact absurd same awaitresp
  · rfl

/-- The states by what they do. -/
theorem state_cases (s : State) : s = .idle ∨ s = .address ∨ s = .awaitresp ∨ Writes s := by
  by_cases idle : s = .idle
  · exact .inl idle
  · by_cases address : s = .address
    · exact .inr (.inl address)
    · by_cases awaits : s = .awaitresp
      · exact .inr (.inr (.inl awaits))
      · exact .inr (.inr (.inr ⟨idle, address, awaits⟩))

end Step

end PscDigpid.Hdl.Adc2ddr
