/- Unit: PscDigpid/Sw/Snapshots
   layer: model
   source: src/sw/src/snapshots.c (ReadDMABuf, CopyDataChan), src/sw/src/snapshot.h
   digest: The records a trigger's message is made from, around the wrap of the buffer. -/

import PscDigpid.Sw.Control

set_option autoImplicit false
set_option relaxedAutoImplicit false

namespace PscDigpid.Sw

structure TriggerInfo where
  addr : BitVec 32
  addrLast : BitVec 32
  pretrigpts : BitVec 32
  posttrigpts : BitVec 32
  active : BitVec 32
  postdlycnt : BitVec 32
  sendbuf : BitVec 32
  msgID : BitVec 32
  channum : BitVec 32

def bufStart : BitVec 32 := 0x10000000
def bufLen : BitVec 32 := 0x01E84800
def bufStepBytes : BitVec 32 := 0xA0
def bufStepWords : BitVec 32 := 40
def wordsPerSample : BitVec 32 := 40

/-- What a single-precision number of the message is made from: a word taken as an unsigned
number; a signed one scaled from the DAC's bits, or from 16 bits, by a factor; the word of
channel 1's error, scaled but unsigned; a signed one as it is; the number whose bits it has. -/
inductive Cell
  | count (word : BitVec 32)
  | dacBits (word factor : BitVec 32)
  | bits16 (word factor : BitVec 32)
  | unsigned16 (word factor : BitVec 32)
  | signed (word : BitVec 32)
  | raw (word : BitVec 32)
  deriving DecidableEq

section Copy

variable (mem : BitVec 32 → BitVec 32)

/-- The words `base` to `base + 5` of a record, scaled. -/
def scaledCells (sf : ScaleFactorType) (record : BitVec 32) (base : Nat) : List Cell :=
  let word := fun n => mem (record + BitVec.ofNat 32 (4 * (base + n)))
  [.dacBits (word 0) sf.dacDccts, .dacBits (word 1) sf.dacDccts, .bits16 (word 2) sf.dacDccts,
   .bits16 (word 3) sf.vout, .bits16 (word 4) sf.ignd, .bits16 (word 5) sf.spare]

/-- The numbers one record gives for a channel; with its loop on, the last two of channel 1
are the loop's. -/
def recordCells (digpid : BitVec 32) (sf : ScaleFactorType) (chan record : BitVec 32) :
    List Cell :=
  let word := fun n => mem (record + BitVec.ofNat 32 (4 * n))
  let front := [.count (word 0), .count (word 1)]
  if chan = 1 then
    front ++ scaledCells mem sf record 2 ++
      if digpid = 1 then [.signed (word 8), .raw (word 9)]
      else [.bits16 (word 8) sf.regulator, .unsigned16 (word 9) sf.error]
  else if chan = 2 then
    front ++ scaledCells mem sf record 10 ++
      [.bits16 (word 16) sf.regulator, .bits16 (word 17) sf.error]
  else if chan = 3 then
    front ++ scaledCells mem sf record 18 ++
      [.bits16 (word 24) sf.regulator, .bits16 (word 25) sf.error]
  else if chan = 4 then
    front ++ scaledCells mem sf record 26 ++
      [.bits16 (word 32) sf.regulator, .bits16 (word 33) sf.error]
  else []

/-- The records at which the loop over `numwords` words in steps of 40 stops; what it is asked
for leaves its index from wrapping. -/
def records (bufData numwords : BitVec 32) : List (BitVec 32) :=
  (List.range ((numwords.toNat + 39) / 40)).map fun n => bufData + BitVec.ofNat 32 (160 * n)

def copyDataChan (b : Board) (bufData numwords chan : BitVec 32) : List Cell :=
  let digpid := b.xilIn32 (chanReg chan dpidEnbReg)
  (records bufData numwords).flatMap (recordCells mem digpid (b.scalefactors (chan - 1)) chan)

/-- The parts of the buffer that are copied, in order: start and number of words. -/
def segments (trig : TriggerInfo) : List (BitVec 32 × BitVec 32) :=
  let startaddr := trig.addr - trig.pretrigpts * bufStepBytes
  let stopaddr := trig.addr + trig.posttrigpts * bufStepBytes
  if startaddr < 0x10000000 then
    let presecnumwords := (trig.addr - bufStart) >>> 2
    let prefirstnumwords := trig.pretrigpts * wordsPerSample - presecnumwords
    [(bufStart + bufLen - prefirstnumwords * 4, prefirstnumwords),
     (bufStart, presecnumwords),
     (trig.addr, trig.posttrigpts * bufStepWords)]
  else if stopaddr > bufStart + bufLen then
    let postfirstnumwords := (bufStart + bufLen - trig.addr) >>> 2
    let postsecnumwords := trig.posttrigpts * wordsPerSample - postfirstnumwords
    [(startaddr, trig.pretrigpts * bufStepWords),
     (trig.addr, postfirstnumwords),
     (bufStart, postsecnumwords)]
  else [(startaddr, (trig.pretrigpts + trig.posttrigpts) * bufStepWords)]

def readDMABuf (b : Board) (trig : TriggerInfo) : List Cell :=
  (segments trig).flatMap fun part => copyDataChan mem b part.1 part.2 trig.channum

end Copy

/-- The records a message is made from, in order. -/
def selected (trig : TriggerInfo) : List (BitVec 32) :=
  (segments trig).flatMap fun part => records part.1 part.2

theorem readDMABuf_eq (mem : BitVec 32 → BitVec 32) (b : Board) (trig : TriggerInfo) :
    readDMABuf mem b trig = (selected trig).flatMap
      (recordCells mem (b.xilIn32 (chanReg trig.channum dpidEnbReg))
        (b.scalefactors (trig.channum - 1)) trig.channum) := by
  rw [readDMABuf, selected, List.flatMap_assoc]
  rfl

/-- The address of a place in the buffer. -/
def bufAddr (k : Nat) : BitVec 32 := bufStart + BitVec.ofNat 32 (160 * k)

section Window

theorem bufStart_eq : bufStart = bufAddr 0 := rfl

theorem toNat_bufAddr {k : Nat} (within : k ≤ 200000) :
    (bufAddr k).toNat = 0x10000000 + 160 * k := by
  rw [bufAddr, BitVec.toNat_add, BitVec.toNat_ofNat]
  change (0x10000000 + _) % _ = _
  omega

theorem records_words {bufData numwords : BitVec 32} {n : Nat} (words : numwords.toNat = 40 * n) :
    records bufData numwords =
      (List.range n).map fun j => bufData + BitVec.ofNat 32 (160 * j) := by
  rw [records, words, show (40 * n + 39) / 40 = n by omega]

theorem records_bufAddr {bufData numwords : BitVec 32} {k n : Nat} (start : bufData = bufAddr k)
    (words : numwords.toNat = 40 * n) :
    records bufData numwords = (List.range n).map fun j => bufAddr (k + j) := by
  rw [records_words words, start]
  congr 1
  funext j
  rw [bufAddr, bufAddr, BitVec.add_assoc, ← BitVec.ofNat_add, Nat.mul_add]

theorem map_range_add {α : Type} (f : Nat → α) (m n : Nat) :
    (List.range (m + n)).map f = (List.range m).map f ++ (List.range n).map fun j => f (m + j) := by
  rw [List.range_add, List.map_append, List.map_map]
  rfl

/-- Where in the buffer the `j`th record selected is, for a trigger at the place `s`. -/
def windowPlace (trig : TriggerInfo) (s j : Nat) : Nat :=
  (s + 200000 - trig.pretrigpts.toNat + j) % 200000

variable {trig : TriggerInfo} {s : Nat}

theorem toNat_startaddr (addr : trig.addr = bufAddr s) (within : s ≤ 200000)
    (fits : trig.pretrigpts.toNat + trig.posttrigpts.toNat < 200000) :
    (trig.addr - trig.pretrigpts * bufStepBytes).toNat =
      0x10000000 + 160 * s - 160 * trig.pretrigpts.toNat := by
  rw [BitVec.toNat_sub, BitVec.toNat_mul, addr, toNat_bufAddr within]
  change (_ - _ * 160 % _ + _) % _ = _
  omega

theorem toNat_stopaddr (addr : trig.addr = bufAddr s) (within : s ≤ 200000)
    (fits : trig.pretrigpts.toNat + trig.posttrigpts.toNat < 200000) :
    (trig.addr + trig.posttrigpts * bufStepBytes).toNat =
      0x10000000 + 160 * s + 160 * trig.posttrigpts.toNat := by
  rw [BitVec.toNat_add, BitVec.toNat_mul, addr, toNat_bufAddr within]
  change (_ + _ * 160 % _) % _ = _
  omega

/-- How many words a number of records has. -/
theorem toNat_words {points : BitVec 32} (small : points.toNat < 200000) :
    (points * bufStepWords).toNat = 40 * points.toNat := by
  rw [BitVec.toNat_mul]
  change _ * 40 % _ = _
  omega

/-- The records before the trigger begin before the buffer does. -/
theorem selected_before (addr : trig.addr = bufAddr s) (within : s ≤ 200000)
    (fits : trig.pretrigpts.toNat + trig.posttrigpts.toNat < 200000)
    (before : s < trig.pretrigpts.toNat) :
    selected trig = ((List.range (trig.pretrigpts.toNat - s)).map
        fun j => bufAddr (200000 - (trig.pretrigpts.toNat - s) + j)) ++
      (((List.range s).map fun j => bufAddr (0 + j)) ++
        (List.range trig.posttrigpts.toNat).map fun j => bufAddr (s + j)) := by
  have early : trig.addr - trig.pretrigpts * bufStepBytes < 0x10000000 := by
    rw [BitVec.lt_def, toNat_startaddr addr within fits]
    change _ < 0x10000000
    omega
  have second : ((trig.addr - bufStart) >>> 2).toNat = 40 * s := by
    rw [BitVec.toNat_ushiftRight, BitVec.toNat_sub, addr, toNat_bufAddr within,
      Nat.shiftRight_eq_div_pow]
    change (2 ^ 32 - 0x10000000 + _) % _ / _ = _
    omega
  have first : (trig.pretrigpts * wordsPerSample - (trig.addr - bufStart) >>> 2).toNat =
      40 * (trig.pretrigpts.toNat - s) := by
    rw [BitVec.toNat_sub, second, BitVec.toNat_mul]
    change (_ - _ + _ * 40 % _) % _ = _
    omega
  have start : bufStart + bufLen - (trig.pretrigpts * wordsPerSample -
      (trig.addr - bufStart) >>> 2) * 4 = bufAddr (200000 - (trig.pretrigpts.toNat - s)) := by
    apply BitVec.eq_of_toNat_eq
    rw [BitVec.toNat_sub, BitVec.toNat_mul, first, toNat_bufAddr (Nat.sub_le _ _)]
    change (_ - _ * 4 % _ + 0x11E84800) % _ = _
    omega
  rw [selected, segments, if_pos early, List.flatMap_cons, List.flatMap_cons, List.flatMap_cons,
    List.flatMap_nil, List.append_nil, records_bufAddr start first,
    records_bufAddr bufStart_eq second, records_bufAddr addr (toNat_words (by omega))]

/-- The records after the trigger end after the buffer does. -/
theorem selected_after (addr : trig.addr = bufAddr s) (within : s ≤ 200000)
    (fits : trig.pretrigpts.toNat + trig.posttrigpts.toNat < 200000)
    (inside : trig.pretrigpts.toNat ≤ s) (after : 200000 < s + trig.posttrigpts.toNat) :
    selected trig = ((List.range trig.pretrigpts.toNat).map
        fun j => bufAddr (s - trig.pretrigpts.toNat + j)) ++
      (((List.range (200000 - s)).map fun j => bufAddr (s + j)) ++
        (List.range (s + trig.posttrigpts.toNat - 200000)).map fun j => bufAddr (0 + j)) := by
  have late : ¬ trig.addr - trig.pretrigpts * bufStepBytes < 0x10000000 := by
    rw [BitVec.lt_def, toNat_startaddr addr within fits]
    change ¬ _ < 0x10000000
    omega
  have beyond : trig.addr + trig.posttrigpts * bufStepBytes > bufStart + bufLen := by
    rw [gt_iff_lt, BitVec.lt_def, toNat_stopaddr addr within fits]
    change 0x11E84800 < _
    omega
  have start : trig.addr - trig.pretrigpts * bufStepBytes =
      bufAddr (s - trig.pretrigpts.toNat) := by
    apply BitVec.eq_of_toNat_eq
    rw [toNat_startaddr addr within fits, toNat_bufAddr (by omega)]
    omega
  have first : ((bufStart + bufLen - trig.addr) >>> 2).toNat = 40 * (200000 - s) := by
    rw [BitVec.toNat_ushiftRight, BitVec.toNat_sub, addr, toNat_bufAddr within,
      Nat.shiftRight_eq_div_pow]
    change (_ - _ + 0x11E84800) % _ / _ = _
    omega
  have second : (trig.posttrigpts * wordsPerSample - (bufStart + bufLen - trig.addr) >>> 2).toNat =
      40 * (s + trig.posttrigpts.toNat - 200000) := by
    rw [BitVec.toNat_sub, first, BitVec.toNat_mul]
    change (_ - _ + _ * 40 % _) % _ = _
    omega
  rw [selected, segments, if_neg late, if_pos beyond, List.flatMap_cons, List.flatMap_cons,
    List.flatMap_cons, List.flatMap_nil, List.append_nil,
    records_bufAddr start (toNat_words (by omega)), records_bufAddr addr first,
    records_bufAddr bufStart_eq second]

/-- All the records are on one side of the wrap. -/
theorem selected_within (addr : trig.addr = bufAddr s)
    (fits : trig.pretrigpts.toNat + trig.posttrigpts.toNat < 200000)
    (inside : trig.pretrigpts.toNat ≤ s) (ends : s + trig.posttrigpts.toNat ≤ 200000) :
    selected trig = (List.range (trig.pretrigpts.toNat + trig.posttrigpts.toNat)).map
      fun j => bufAddr (s - trig.pretrigpts.toNat + j) := by
  have within : s ≤ 200000 := by omega
  have late : ¬ trig.addr - trig.pretrigpts * bufStepBytes < 0x10000000 := by
    rw [BitVec.lt_def, toNat_startaddr addr within fits]
    change ¬ _ < 0x10000000
    omega
  have short : ¬ trig.addr + trig.posttrigpts * bufStepBytes > bufStart + bufLen := by
    rw [gt_iff_lt, BitVec.lt_def, toNat_stopaddr addr within fits]
    change ¬ 0x11E84800 < _
    omega
  have start : trig.addr - trig.pretrigpts * bufStepBytes =
      bufAddr (s - trig.pretrigpts.toNat) := by
    apply BitVec.eq_of_toNat_eq
    rw [toNat_startaddr addr within fits, toNat_bufAddr (by omega)]
    omega
  have sum : (trig.pretrigpts + trig.posttrigpts).toNat =
      trig.pretrigpts.toNat + trig.posttrigpts.toNat := by
    rw [BitVec.toNat_add]
    omega
  have small : (trig.pretrigpts + trig.posttrigpts).toNat < 200000 := by omega
  have words := toNat_words small
  rw [sum] at words
  rw [selected, segments, if_neg late, if_neg short, List.flatMap_cons, List.flatMap_nil,
    List.append_nil, records_bufAddr start words]

theorem part_places {f : Nat → Nat} {m n : Nat} (at_place : ∀ j, j < n → f j = m + j) :
    ((List.range n).map fun j => bufAddr (m + j)) = (List.range n).map fun j => bufAddr (f j) := by
  apply List.map_congr_left
  intro j inside
  rw [at_place j (List.mem_range.1 inside)]

/-- Three parts copied one after another are one window of places. -/
theorem three_parts {f : Nat → Nat} {a b c m₁ m₂ m₃ : Nat}
    (first : ∀ j, j < a → f j = m₁ + j) (second : ∀ j, j < b → f (a + j) = m₂ + j)
    (third : ∀ j, j < c → f (a + (b + j)) = m₃ + j) :
    ((List.range a).map fun j => bufAddr (m₁ + j)) ++
        (((List.range b).map fun j => bufAddr (m₂ + j)) ++
          (List.range c).map fun j => bufAddr (m₃ + j)) =
      (List.range (a + (b + c))).map fun j => bufAddr (f j) := by
  rw [map_range_add, map_range_add, part_places first, part_places second, part_places third]

/-- The window selected goes on from the end of the buffer at its start. -/
theorem selected_bufAddr (addr : trig.addr = bufAddr s) (within : s ≤ 200000)
    (fits : trig.pretrigpts.toNat + trig.posttrigpts.toNat < 200000) :
    selected trig = (List.range (trig.pretrigpts.toNat + trig.posttrigpts.toNat)).map
      fun j => bufAddr (windowPlace trig s j) := by
  unfold windowPlace
  by_cases before : s < trig.pretrigpts.toNat
  · rw [selected_before addr within fits before,
      show trig.pretrigpts.toNat + trig.posttrigpts.toNat =
        (trig.pretrigpts.toNat - s) + (s + trig.posttrigpts.toNat) by omega]
    apply three_parts <;> intro j inside <;> omega
  · have inside := Nat.le_of_not_lt before
    by_cases after : 200000 < s + trig.posttrigpts.toNat
    · rw [selected_after addr within fits inside after,
        show trig.posttrigpts.toNat = (200000 - s) + (s + trig.posttrigpts.toNat - 200000) by omega,
        show s + (200000 - s + (s + trig.posttrigpts.toNat - 200000)) - 200000 =
          s + trig.posttrigpts.toNat - 200000 by omega]
      apply three_parts <;> intro j inside <;> omega
    · rw [selected_within addr fits inside (Nat.le_of_not_lt after)]
      apply part_places
      intro j inside
      omega

end Window

end PscDigpid.Sw
