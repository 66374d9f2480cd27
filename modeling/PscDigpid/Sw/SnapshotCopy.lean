/- Unit: PscDigpid/Sw/SnapshotCopy
   layer: result
   source: src/sw/src/snapshots.c (ReadDMABuf, CopyDataChan), src/sw/src/snapshot.h
   digest: The numbers of a waveform message, written through the message pointer. -/

import PscDigpid.Sw.Snapshots

set_option autoImplicit false
set_option relaxedAutoImplicit false

namespace PscDigpid.Sw

open PscDigpid.Hdl (Chan)

/-- Length of a waveform message in bytes. -/
def msgWfmLen : Nat := 4000000

/-- A message while it is made: the place of the pointer, in numbers from the start of the
message, and the numbers written so far with their places. -/
structure MsgFloats where
  ptr : Nat
  writes : List (Nat × Cell)

namespace MsgFloats

/-- A number is written and the pointer goes on by one. -/
def put (m : MsgFloats) (cell : Cell) : MsgFloats := ⟨m.ptr + 1, m.writes ++ [(m.ptr, cell)]⟩

/-- Numbers written in turn are at consecutive places. -/
theorem foldl_put (cells : List Cell) (m : MsgFloats) : cells.foldl put m =
    ⟨m.ptr + cells.length, m.writes ++ (cells.zipIdx m.ptr).map Prod.swap⟩ := by
  induction cells generalizing m with
  | nil =>
      rw [List.zipIdx_nil, List.map_nil, List.append_nil]
      rfl
  | cons cell cells ih =>
      rw [List.foldl_cons, ih, put, List.zipIdx_cons, List.map_cons, List.length_cons,
        List.append_assoc, List.singleton_append, Nat.add_right_comm, Nat.add_assoc]
      rfl

end MsgFloats

section Copy

variable (mem : BitVec 32 → BitVec 32) (b : Board)

/-- The loop of `CopyDataChan`, from the message as it is before. -/
def copyDataChanTo (bufData numwords chan : BitVec 32) (m : MsgFloats) : MsgFloats :=
  let digpid := b.xilIn32 (chanReg chan dpidEnbReg)
  (records bufData numwords).foldl
    (fun m record => (recordCells mem digpid (b.scalefactors (chan - 1)) chan record).foldl
      MsgFloats.put m) m

/-- `ReadDMABuf`, with the pointer at the start of the message. -/
def readDMABufTo (trig : TriggerInfo) : MsgFloats :=
  (segments trig).foldl (fun m part => copyDataChanTo mem b part.1 part.2 trig.channum m) ⟨0, []⟩

end Copy

section Numbers

variable {mem : BitVec 32 → BitVec 32} {b : Board} {trig : TriggerInfo}

theorem copyDataChanTo_eq (bufData numwords chan : BitVec 32) (m : MsgFloats) :
    copyDataChanTo mem b bufData numwords chan m =
      (copyDataChan mem b bufData numwords chan).foldl MsgFloats.put m := by
  rw [copyDataChan, List.foldl_flatMap]
  rfl

theorem readDMABufTo_eq (mem : BitVec 32 → BitVec 32) (b : Board) (trig : TriggerInfo) :
    readDMABufTo mem b trig =
      ⟨(readDMABuf mem b trig).length, (readDMABuf mem b trig).zipIdx.map Prod.swap⟩ := by
  have loops : readDMABufTo mem b trig = (readDMABuf mem b trig).foldl MsgFloats.put ⟨0, []⟩ := by
    rw [readDMABufTo, readDMABuf, List.foldl_flatMap]
    simp only [copyDataChanTo_eq]
  rw [loops, MsgFloats.foldl_put, Nat.zero_add, List.nil_append]

/-- A record gives ten numbers on every channel. -/
theorem recordCells_length (digpid : BitVec 32) (sf : ScaleFactorType) (c : Chan)
    (record : BitVec 32) : (recordCells mem digpid sf (chanNumber c) record).length = 10 := by
  unfold recordCells
  cases c with
  | ps1 =>
      rw [if_pos (show chanNumber .ps1 = 1 from rfl), List.length_append]
      split
      · rfl
      · rfl
  | ps2 | ps3 | ps4 => simp [chanNumber, scaledCells]

end Numbers

/-- The slot of the `j`th record for a trigger at slot `t`. -/
def windowSlot (trig : TriggerInfo) (t j : Nat) : Nat :=
  (((t : Int) - trig.pretrigpts.toNat + j) % 200000).toNat

/-- A message has the records around the slot `t`, each once and in order, ten numbers for each
at consecutive places that are all within it. -/
structure CopiesWindow (mem : BitVec 32 → BitVec 32) (b : Board) (trig : TriggerInfo)
    (t points : Nat) : Prop where
  records : selected trig = (List.range points).map fun j => bufAddr (windowSlot trig t j)
  once : (selected trig).Nodup
  places : (readDMABufTo mem b trig).writes.map Prod.fst = List.range (10 * points)
  pointer : (readDMABufTo mem b trig).ptr = 10 * points
  numbers : ∀ j i, j < points → i < 10 → ∃ cell,
    (readDMABufTo mem b trig).writes[10 * j + i]? = some (10 * j + i, cell) ∧
      (recordCells mem (b.xilIn32 (chanReg trig.channum dpidEnbReg))
        (b.scalefactors (trig.channum - 1)) trig.channum
        (bufAddr (windowSlot trig t j)))[i]? = some cell
  within : ∀ w ∈ (readDMABufTo mem b trig).writes, 4 * w.1 + 4 ≤ msgWfmLen

section Window

variable {trig : TriggerInfo} {t : Nat}

theorem windowPlace_eq (fits : trig.pretrigpts.toNat ≤ 200000) (j : Nat) :
    windowPlace trig t j = windowSlot trig t j := by
  rw [windowPlace, windowSlot]
  omega

/-- A window shorter than the ring has each slot once. -/
theorem windowSlot_nodup {n : Nat} (short : n ≤ 200000) :
    ((List.range n).map fun j => bufAddr (windowSlot trig t j)).Nodup := by
  rw [List.nodup_map_iff_inj_on List.nodup_range]
  intro j low k high same
  rw [List.mem_range] at low high
  have equal := congrArg BitVec.toNat same
  have slot (i : Nat) : windowSlot trig t i ≤ 200000 := by
    rw [windowSlot]
    omega
  rw [toNat_bufAddr (slot j), toNat_bufAddr (slot k), windowSlot, windowSlot] at equal
  omega

end Window

section Parts

variable {α : Type} {f : Nat → List α} {m : Nat}

theorem length_flatMap_range (length : ∀ j, (f j).length = m) (n : Nat) :
    ((List.range n).flatMap f).length = m * n := by
  rw [List.length_flatMap, List.map_congr_left fun k _ => length k, List.map_const',
    List.sum_replicate_nat, List.length_range, Nat.mul_comm]

/-- Parts of equal length are found by quotient and remainder. -/
theorem getElem?_flatMap_range (length : ∀ j, (f j).length = m) (n : Nat) {j i : Nat}
    (record : j < n) (inside : i < m) :
    ((List.range n).flatMap f)[m * j + i]? = (f j)[i]? := by
  induction n with
  | zero => exact absurd record (Nat.not_lt_zero j)
  | succ n ih =>
      have before := length_flatMap_range length n
      rw [List.range_succ, List.flatMap_append, List.flatMap_singleton]
      obtain earlier | rfl := Nat.lt_or_eq_of_le (Nat.le_of_lt_succ record)
      · have room : m * j + i < m * n :=
          calc m * j + i < m * (j + 1) := by rw [Nat.mul_succ]; omega
            _ ≤ m * n := Nat.mul_le_mul_left m earlier
        rw [List.getElem?_append_left (by rw [before]; exact room), ih earlier]
      · rw [List.getElem?_append_right (by rw [before]; exact Nat.le_add_right _ _), before,
          Nat.add_sub_cancel_left]

end Parts

section Message

variable {trig : TriggerInfo} {t : Nat} {c : Chan} {j i : Nat}

/-- The records selected for a trigger at a slot of the ring. -/
theorem selected_windowSlot (slot : t < 200000) (addr : trig.addr = bufAddr t)
    (fits : trig.pretrigpts.toNat + trig.posttrigpts.toNat ≤ 100000) :
    selected trig = (List.range (trig.pretrigpts.toNat + trig.posttrigpts.toNat)).map
      fun j => bufAddr (windowSlot trig t j) := by
  rw [selected_bufAddr addr (Nat.le_of_lt slot) (by omega)]
  apply List.map_congr_left
  intro j _
  rw [windowPlace_eq (by omega)]

theorem length_readDMABuf (mem : BitVec 32 → BitVec 32) (b : Board) (slot : t < 200000)
    (addr : trig.addr = bufAddr t) (chan : trig.channum = chanNumber c)
    (fits : trig.pretrigpts.toNat + trig.posttrigpts.toNat ≤ 100000) :
    (readDMABuf mem b trig).length =
      10 * (trig.pretrigpts.toNat + trig.posttrigpts.toNat) := by
  rw [readDMABuf_eq, selected_windowSlot slot addr fits, List.flatMap_map, chan]
  exact length_flatMap_range (fun _ => recordCells_length _ _ c _) _

/-- The numbers of the message, by their record and their place in it. -/
theorem getElem?_readDMABuf (mem : BitVec 32 → BitVec 32) (b : Board) (slot : t < 200000)
    (addr : trig.addr = bufAddr t) (chan : trig.channum = chanNumber c)
    (fits : trig.pretrigpts.toNat + trig.posttrigpts.toNat ≤ 100000)
    (record : j < trig.pretrigpts.toNat + trig.posttrigpts.toNat) (inside : i < 10) :
    (readDMABuf mem b trig)[10 * j + i]? =
      (recordCells mem (b.xilIn32 (chanReg trig.channum dpidEnbReg))
        (b.scalefactors (trig.channum - 1)) trig.channum (bufAddr (windowSlot trig t j)))[i]? := by
  rw [readDMABuf_eq, selected_windowSlot slot addr fits, List.flatMap_map, chan]
  exact getElem?_flatMap_range (fun _ => recordCells_length _ _ c _) _ record inside

end Message

/-- The message of a trigger at a slot of the ring has the records around it. -/
theorem window_copied (mem : BitVec 32 → BitVec 32) (b : Board) (trig : TriggerInfo) (t : Nat)
    (c : Chan) (slot : t < 200000) (addr : trig.addr = bufAddr t)
    (chan : trig.channum = chanNumber c)
    (fits : trig.pretrigpts.toNat + trig.posttrigpts.toNat ≤ 100000) :
    CopiesWindow mem b trig t (trig.pretrigpts.toNat + trig.posttrigpts.toNat) := by
  have records := selected_windowSlot slot addr fits
  have count := length_readDMABuf mem b slot addr chan fits
  have message := readDMABufTo_eq mem b trig
  have places : (readDMABufTo mem b trig).writes.map Prod.fst =
      List.range (10 * (trig.pretrigpts.toNat + trig.posttrigpts.toNat)) := by
    rw [message, List.map_map, ← count, List.range_eq_range']
    exact List.zipIdx_map_snd 0 _
  refine ⟨records, ?_, places, ?_, ?_, ?_⟩
  · rw [records]
    exact windowSlot_nodup (by omega)
  · rw [message]
    exact count
  · intro j i record inside
    have some : 10 * j + i < (readDMABuf mem b trig).length := by
      rw [count]
      omega
    have cell := getElem?_readDMABuf mem b slot addr chan fits record inside
    rw [List.getElem?_eq_getElem some] at cell
    refine ⟨_, ?_, cell.symm⟩
    rw [message, List.getElem?_map, List.getElem?_zipIdx, List.getElem?_eq_getElem some,
      Nat.zero_add]
    rfl
  · intro w mem
    have place := List.mem_map_of_mem (f := Prod.fst) mem
    rw [places, List.mem_range] at place
    unfold msgWfmLen
    omega

/-- The window after power up for a trigger at the last slot, on the third channel. -/
theorem window_copied_wrapped :
    CopiesWindow (fun _ => 0) blankBoard ⟨bufAddr 199999, 0, 50000, 50000, 0, 0, 0, 0, 3⟩
      199999 100000 :=
  window_copied _ _ ⟨bufAddr 199999, 0, 50000, 50000, 0, 0, 0, 0, 3⟩ 199999 .ps3 (by decide) rfl rfl
    (by decide)

end PscDigpid.Sw
