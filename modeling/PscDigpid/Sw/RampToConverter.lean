/- Unit: PscDigpid/Sw/RampToConverter
   layer: result
   source: src/sw/src/listener.c, src/sw/src/control.c (write_ramptable), src/hw/hdl/ps_io.vhd,
     src/hw/hdl/dac_chan.vhd
   digest: The points of a ramp message reach the converter in order, one for each tick. -/

import PscDigpid.Hdl.RampOutput
import PscDigpid.Sw.RampMessage
import PscDigpid.Sw.RampTableClamp

set_option autoImplicit false
set_option relaxedAutoImplicit false

namespace PscDigpid.Sw

open PscDigpid.Hdl
open PscDigpid.Num
open PscDigpid.Sync
open Pscmsg

section Codes

variable (c : Chan) (msg : Nat → Byte) (b : Board)

/-- The code of the `i`th point of a message, as the server computes it in single precision. -/
def computedCode (i : Nat) : Int :=
  (scaledValWith (chanNumber c) (msgWord msg i) b ieee .float b.convVoltsToDacBits
    (·.dacDccts)).toInt

/-- None of these codes is beyond those of the DAC. -/
def ComputedWithin (r : Resolution) (msglen : Nat) : Prop :=
  ∀ i, i < msglen / 4 → r.lo ≤ computedCode c msg b i ∧ computedCode c msg b i ≤ r.hi

end Codes

section Written

variable {α : Type} {A : Arith α} {c : Chan} {msg : Nat → Byte} {b : Board} {r : Resolution}

theorem isRampReg_stored {addr : BitVec 32} (ramp : IsRampReg addr) :
    (Rdl.storedWidth addr).isSome := by
  obtain ⟨c, r, among, rfl⟩ := ramp
  have software : r.info.source = .software := by
    simp only [rampRegs, List.mem_cons, List.not_mem_nil, or_false] at among
    rcases among with rfl | rfl | rfl | rfl
    all_goals rfl
  rw [Rdl.storedWidth_chanAddr c software]
  rfl

/-- The writes of a table leave its length in the register. -/
theorem ramplen_written (n : Nat) :
    ((b.xilOut32s (rampWrites A c msg b n)).regs (Rdl.chanAddr c .dacRamplen)).setWidth 16 =
      BitVec.ofNat 16 n := by
  have stored : ∀ w ∈ rampWrites A c msg b n, (Rdl.storedWidth w.1).isSome :=
    fun w written => isRampReg_stored (isRampReg_rampWrites written)
  have width := Rdl.storedWidth_chanAddr c (r := .dacRamplen) rfl
  rw [b.xilOut32s_regs stored, rampWrites, List.map_cons, writeAll_cons, writeAll_of_notMem,
    Function.update_self]
  · rw [Board.kept, width]
    apply BitVec.eq_of_toNat_eq
    simp [Rdl.ChanReg.info]
  · intro again
    simp only [List.mem_map, List.mem_flatMap, pointWrites, List.mem_cons, List.not_mem_nil,
      or_false, Prod.exists] at again
    obtain ⟨addr, value, ⟨x, y, ⟨i, -, either⟩, moved⟩, same⟩ := again
    obtain ⟨rfl, -⟩ := Prod.mk.inj moved
    have apart : Rdl.chanAddr c .dacRampaddr ≠ Rdl.chanAddr c .dacRamplen ∧
        Rdl.chanAddr c .dacRampdata ≠ Rdl.chanAddr c .dacRamplen :=
      ⟨Rdl.chanAddr_ne (by decide), Rdl.chanAddr_ne (by decide)⟩
    rcases either with point | point
    · exact apart.1 ((congrArg Prod.fst point).symm.trans same)
    · exact apart.2 ((congrArg Prod.fst point).symm.trans same)

/-- The blinking LED leaves the selected resolution. -/
theorem Selected.blinked (selected : Selected r b) : Selected r (blinkAccess b) := by
  refine ⟨?_, selected.conv⟩
  rw [← selected.register]
  have stored : (Rdl.storedWidth resolutionReg).isSome := by decide
  have width : Rdl.storedWidth iocAccessReg = some 1 := by decide
  rw [Board.xilIn32_stored _ stored, Board.xilIn32_stored _ stored, blinkAccess,
    Board.xilOut32_stored _ width, Board.xilOut32_stored _ width,
    Function.update_of_ne (by decide), Function.update_of_ne (by decide)]

end Written

/-- A channel that plays the ramp table that the message has left: its registers follow those of
`regs`, in which software has not written another length since, and the accesses `swacc`. -/
structure Plays (after : Board) (table : BitVec 16 → BitVec 20)
    (regs : Nat → BitVec 32 → BitVec 32) (swacc : Nat → BitVec 32 → Bool) (injTrig : Nat → Bool)
    (inp : Nat → DacChan.Ports) (a : Nat) : Prop where
  clocked : DacChan.Clocked inp
  wired : ∀ t, (inp t).dacCntrl = (PsIo.dacCntrl (regs t) (swacc t) (injTrig t)).get .ps1
  mode : ∀ t, a ≤ t → (regs t (Rdl.chanAddr .ps1 .dacOpmode)).setWidth 2 = 1#2
  length : ∀ t, a ≤ t → regs t (Rdl.chanAddr .ps1 .dacRamplen) =
    after.regs (Rdl.chanAddr .ps1 .dacRamplen)
  data : ∀ t, a ≤ t → (run DacChan.step DacChan.powerUp inp t).rampmode.state = .updateDac →
    (inp t).dacRddata = table (run DacChan.step DacChan.powerUp inp t).rampmode.dacRdaddr
  later : 0 < a
  idle : (run DacChan.step DacChan.powerUp inp a).rampmode.state = .idle
  starts : swacc a (Rdl.chanAddr .ps1 .dacRunramp) = true ∨ injTrig a = true

section Played

variable {rxbuf : Nat → Byte} {page : Page} {arrivals : List Arrival} {d : Delivered}
  {b after : Board} {r : Resolution} {table : BitVec 16 → BitVec 20}
  {regs : Nat → BitVec 32 → BitVec 32} {swacc : Nat → BitVec 32 → Bool} {injTrig : Nat → Bool}
  {inp : Nat → DacChan.Ports} {a u : Nat}

/-- The fabric's playback has the length of the message. -/
theorem Plays.replay {n : Nat} (plays : Plays after table regs swacc injTrig inp a)
    (length : (after.regs (Rdl.chanAddr .ps1 .dacRamplen)).setWidth 16 = BitVec.ofNat 16 n) :
    DacChan.Replay table (BitVec.ofNat 16 n) inp a where
  clocked := plays.clocked
  later := plays.later
  idle := plays.idle
  starts := by
    rw [plays.wired]
    change (swacc a _ || injTrig a) = true
    rw [Bool.or_eq_true]
    exact plays.starts
  mode t le := by
    rw [plays.wired, PsIo.dacCntrl_mode]
    exact plays.mode t le
  length t le := by
    rw [plays.wired, ← length, ← plays.length t le]
    rfl
  data := plays.data

/-- After a message the register holds the number of its points. -/
theorem ramplen_handled (turn : receiveTurn rxbuf page arrivals = some d) (ramp : d.msgid = 101)
    (short : declared arrivals / 4 ≤ 50000) (handled : clientMsgWith ieee b d = some after) :
    (after.regs (Rdl.chanAddr .ps1 .dacRamplen)).setWidth 16 =
      BitVec.ofNat 16 (declared arrivals / 4) := by
  obtain rfl := Option.some.inj ((clientMsgWith_ramp ramp).symm.trans handled)
  rw [writeRamptable_eq ((short_iff turn).2 short), points_of_short turn short]
  exact ramplen_written _

/-- The table holds the code of each point that is within the DAC. -/
theorem table_point (turn : receiveTurn rxbuf page arrivals = some d)
    (short : declared arrivals / 4 ≤ 50000) (selected : Selected r b)
    (within : ComputedWithin .ps1 d.msg b r d.msglen) {i : Nat}
    (early : i < declared arrivals / 4) :
    (tableOf ieee .ps1 d.msg (blinkAccess b) d.msglen table (BitVec.ofNat 16 i)).toInt =
      computedCode .ps1 d.msg b i := by
  rw [← points_of_short turn short] at early
  obtain ⟨low, high⟩ := within i early
  have entry := (rampPoint_eq_clamp_iff r (scaledValWith (chanNumber .ps1) (msgWord d.msg i) b ieee
    .float b.convVoltsToDacBits (·.dacDccts))).2 ⟨low, high⟩
  rw [tableOf_entry ieee ((short_iff turn).2 short) early, rampEntry, selected.blinked.register]
  exact entry.trans (clamp_of_mem low high)

/-- Once a ramp message has been handled and its playback started, the first tick after the start
and those after it convert what the message says: the tick before which `k` ticks have passed
converts the point number `k - 1`, the ticks after all points the last one while the playback is
not started again, and each conversion is the next setpoint on the converter's bus. -/
theorem ramp_reaches_converter (turn : receiveTurn rxbuf page arrivals = some d)
    (ramp : d.msgid = 101) (short : declared arrivals / 4 ≤ 50000) (selected : Selected r b)
    (within : ComputedWithin .ps1 d.msg b r d.msglen)
    (handled : clientMsgWith ieee b d = some after)
    (plays : Plays after (tableOf ieee .ps1 d.msg (blinkAccess b) d.msglen table) regs swacc injTrig
      inp a) (fired : DacChan.fires inp u = true) (later : a < u) :
    (∀ i, i < declared arrivals / 4 →
      (DacChan.passed inp a u = i + 1 ∨ i + 1 = declared arrivals / 4 ∧
        i + 1 < DacChan.passed inp a u ∧ ∀ t, a < t → (inp t).dacCntrl.ramprun = false) →
      (DacChan.operandsOf DacChan.powerUp inp u).raw.toInt = computedCode .ps1 d.msg b i) ∧
      (DacChan.bus DacChan.powerUp inp (u + 557)).frames =
        (DacChan.bus DacChan.powerUp inp (u + 12)).frames ++
          (DacChan.wordsOf DacChan.powerUp inp (DacChan.firstTick inp u) u).map
            DacAd5781.frameBits := by
  have replay := plays.replay (ramplen_handled turn ramp short handled)
  have length : (BitVec.ofNat 16 (declared arrivals / 4)).toNat = declared arrivals / 4 := by
    rw [BitVec.toNat_ofNat]
    omega
  have other : BitVec.ofNat 16 (declared arrivals / 4) ≠ 65535 := by
    intro same
    have greatest := congrArg BitVec.toNat same
    rw [length] at greatest
    exact absurd greatest (Nat.ne_of_lt (Nat.lt_of_le_of_lt short (by decide)))
  refine ⟨fun i early which => ?_, DacChan.frames_of_tick plays.clocked fired⟩
  have shown : (DacChan.operandsOf DacChan.powerUp inp u).raw =
      tableOf ieee .ps1 d.msg (blinkAccess b) d.msglen table (BitVec.ofNat 16 i) := by
    rcases which with next | ⟨last, late, none⟩
    · rw [replay.shows other fired later (by rw [length, next]; exact early), next]
      rfl
    · rw [replay.holds other fired later (by rw [length, ← last]; exact late) none, length, ← last]
      rfl
  rw [shown]
  exact table_point turn short selected within early

/-- The message of three points as the handlers get it. -/
def pointsGot : Delivered :=
  let got := recvmsg (BitVec.ofNat 32 rxbufLen) threePoints
  ⟨got.msgid.getD 0, received (fun _ => 0) got.data, got.msglen.toNat, fun _ => 0⟩

def tenAmpsBoard : Board := mshsSelect 1 blankBoard

/-- The board after the message. -/
def afterPoints : Board :=
  writeRamptable ieee (chanNumber .ps1) pointsGot.msg pointsGot.msglen (blinkAccess tenAmpsBoard)

/-- The table after the message, which has been empty before. -/
def pointsTable : BitVec 16 → BitVec 20 :=
  tableOf ieee .ps1 pointsGot.msg (blinkAccess tenAmpsBoard) pointsGot.msglen fun _ => 0

/-- The registers after the message, with the first channel in ramp mode. -/
def rampMode : BitVec 32 → BitVec 32 :=
  Function.update afterPoints.regs (Rdl.chanAddr .ps1 .dacOpmode) 1

/-- A start at the first clock. -/
def startAtOne (t : Nat) (addr : BitVec 32) : Bool :=
  t == 1 && addr == Rdl.chanAddr .ps1 .dacRunramp

/-- A tick at every thousandth clock after the reset. -/
def everyThousand (data : BitVec 20) (t : Nat) : DacChan.Ports where
  reset := t == 0
  tenkhzTrig := t % 1000 == 5
  dacNumbitsSel := true
  dacCntrl := (PsIo.dacCntrl rampMode (startAtOne t) false).get .ps1
  digpidEnb := false
  controlOut := 0
  dacRddata := data
  cordicDout := 0
  fofbDacSetpt := 0

/-- The channel with a block RAM that answers at once. -/
def answered : Nat → DacChan.Regs
  | 0 => DacChan.powerUp
  | t + 1 => DacChan.step (answered t)
      (everyThousand (pointsTable (answered t).rampmode.dacRdaddr) t)

def pointsInp (t : Nat) : DacChan.Ports :=
  everyThousand (pointsTable (answered t).rampmode.dacRdaddr) t

theorem run_pointsInp (t : Nat) : run DacChan.step DacChan.powerUp pointsInp t = answered t := by
  induction t with
  | zero => rfl
  | succ t ih =>
      rw [run_succ, ih]
      rfl

theorem pointsInp_clocked : DacChan.Clocked pointsInp where
  live t later := by simp [pointsInp, everyThousand, Nat.ne_of_gt later]
  bus_live t _ := by
    change (rampMode (Rdl.chanAddr .ps1 .dacReset)).getLsbD 0 = false
    decide +kernel
  spaced t u fired again after := by
    simp only [DacChan.fires, pointsInp, everyThousand, Bool.and_eq_true, beq_iff_eq] at fired again
    omega

theorem pointsInp_plays : Plays afterPoints pointsTable (fun _ => rampMode) startAtOne
    (fun _ => false) pointsInp 1 where
  clocked := pointsInp_clocked
  wired _ := rfl
  mode _ _ := by
    rw [rampMode, Function.update_self]
    decide
  length _ _ := Function.update_of_ne (Rdl.chanAddr_ne (by decide)) _ _
  data t _ _ := by
    rw [run_pointsInp]
    rfl
  later := Nat.one_pos
  idle := rfl
  starts := .inl (by simp [startAtOne])

/-- The ticks after the start convert the codes of one, two and five amperes in turn. -/
theorem three_points_reach_converter :
    (DacChan.operandsOf DacChan.powerUp pointsInp 1005).raw.toInt = 52428 ∧
      (DacChan.operandsOf DacChan.powerUp pointsInp 2005).raw.toInt = 104857 ∧
      (DacChan.operandsOf DacChan.powerUp pointsInp 3005).raw.toInt = 262144 := by
  have turn : receiveTurn (fun _ => 0) (fun _ => 0) threePoints = some pointsGot :=
    receiveTurn_eq_some_iff.2 ⟨by decide +kernel, rfl⟩
  have three : declared threePoints / 4 = 3 := by decide +kernel
  have ramp : pointsGot.msgid = 101 := by decide +kernel
  have within : ComputedWithin .ps1 pointsGot.msg tenAmpsBoard .hs pointsGot.msglen := by
    unfold ComputedWithin
    decide +kernel
  have played : ∀ u, DacChan.fires pointsInp u = true → 1 < u → _ := fun u fired later =>
    ramp_reaches_converter turn ramp (by rw [three]; decide) (mshsSelect_selected .hs blankBoard)
      within (clientMsgWith_ramp ramp) pointsInp_plays fired later
  have codes : computedCode .ps1 pointsGot.msg tenAmpsBoard 0 = 52428 ∧
      computedCode .ps1 pointsGot.msg tenAmpsBoard 1 = 104857 ∧
      computedCode .ps1 pointsGot.msg tenAmpsBoard 2 = 262144 := by
    decide +kernel
  rw [← codes.1, ← codes.2.1, ← codes.2.2]
  exact ⟨(played 1005 (by decide +kernel) (by decide)).1 0 (by rw [three]; decide)
      (.inl (by decide +kernel)),
    (played 2005 (by decide +kernel) (by decide)).1 1 (by rw [three]; decide)
      (.inl (by decide +kernel)),
    (played 3005 (by decide +kernel) (by decide)).1 2 (by rw [three]; decide)
      (.inl (by decide +kernel))⟩

/-- With a full scale of one ampere the roundings take that ampere a code farther than it is. -/
example :
    let board := updateScalefactors 1 tenAmpsBoard fun sf => { sf with dacDccts := 0x3DCCCCCD }
    computedCode .ps1 (onePoint 0x3F800000) board 0 = 524288 ∧
      pointCode .ps1 (onePoint 0x3F800000) board 0 = 524287 := by
  decide +kernel

end Played

end PscDigpid.Sw
