/- Unit: PscDigpid/Sw/SnapshotCache
   layer: result
   source: src/sw/src/snapshots.c (ReadDMABuf)
   digest: The half of the ring that is read past the cache, and old data from the other. -/

import PscDigpid.Sw.SnapshotCopy
import PscDigpid.Sw.SnapshotDecode

set_option autoImplicit false
set_option relaxedAutoImplicit false

namespace PscDigpid.Sw

open PscDigpid.Hdl (Chan)

/-- What `ReadDMABuf` has invalidated before it copies: the start of the range and its bytes. -/
def invalidateAdr : BitVec 32 := 0x10000000
def invalidateLen : BitVec 32 := 16000000

/-- All four bytes of a word are in the range. -/
def Invalidated (a : BitVec 32) : Prop :=
  invalidateAdr.toNat ≤ a.toNat ∧ a.toNat + 4 ≤ invalidateAdr.toNat + invalidateLen.toNat

instance (a : BitVec 32) : Decidable (Invalidated a) := inferInstanceAs (Decidable (_ ∧ _))

/-- A word that the cache holds is read from there, any other from the memory. -/
def readThrough (cache : BitVec 32 → Option (BitVec 32)) (mem : BitVec 32 → BitVec 32)
    (a : BitVec 32) : BitVec 32 := (cache a).getD (mem a)

/-- The words of a record that are copied for a channel. -/
def copiedOffsets (c : Chan) : List Nat := [0, 1] ++ (List.range 8).map (baseOffset c + ·)

/-- The addresses of all the words that are copied. -/
def copiedWords (trig : TriggerInfo) (c : Chan) : List (BitVec 32) :=
  (selected trig).flatMap fun record =>
    (copiedOffsets c).map fun n => record + BitVec.ofNat 32 (4 * n)

/-- Every word copied is in the range invalidated. -/
def CopiesInvalidated (trig : TriggerInfo) (c : Chan) : Prop :=
  ∀ a ∈ copiedWords trig c, Invalidated a

/-- Whatever the cache holds outside of the range, the message is made from the memory. -/
def ReadsMemory (b : Board) (trig : TriggerInfo) : Prop :=
  ∀ cache mem, (∀ a, Invalidated a → cache a = none) →
    readDMABuf (readThrough cache mem) b trig = readDMABuf mem b trig

section Words

variable {mem mem' : BitVec 32 → BitVec 32} {b : Board} {trig : TriggerInfo} {c : Chan}

/-- The numbers of a record are made from the words copied and no others. -/
theorem recordCells_congr (digpid : BitVec 32) (sf : ScaleFactorType) {record : BitVec 32}
    (same : ∀ n ∈ copiedOffsets c, recordWord mem record n = recordWord mem' record n) :
    recordCells mem digpid sf (chanNumber c) record =
      recordCells mem' digpid sf (chanNumber c) record := by
  have header : recordWord mem record 0 = recordWord mem' record 0 :=
    same 0 (by simp [copiedOffsets])
  have counter : recordWord mem record 1 = recordWord mem' record 1 :=
    same 1 (by simp [copiedOffsets])
  have word (i : Nat) (small : i < 8) : recordWord mem record (baseOffset c + i) =
      recordWord mem' record (baseOffset c + i) :=
    same _ (by simp [copiedOffsets, small])
  have scaled : scaledCells mem sf record (baseOffset c) =
      scaledCells mem' sf record (baseOffset c) := by
    unfold recordWord at word
    simp only [scaledCells, word 0, word 1, word 2, word 3, word 4, word 5, Nat.reduceLT]
  by_cases loop : c = .ps1 ∧ digpid = 1
  · obtain ⟨rfl, rfl⟩ := loop
    rw [recordCells_on, recordCells_on, header, counter, scaled, word 6 (by decide),
      word 7 (by decide)]
  · have off : c = .ps1 → digpid ≠ 1 := fun first on => loop ⟨first, on⟩
    rw [recordCells_off off, recordCells_off off, header, counter, scaled, word 6 (by decide),
      word 7 (by decide)]

theorem ReadsMemory.of_invalidated (chan : trig.channum = chanNumber c)
    (invalidated : CopiesInvalidated trig c) : ReadsMemory b trig := by
  intro cache mem empty
  rw [readDMABuf_eq, readDMABuf_eq, chan]
  apply List.flatMap_congr
  intro record copied
  apply recordCells_congr
  intro n word
  rw [recordWord, readThrough, empty _ (invalidated _ ?_)]
  · rfl
  · exact List.mem_flatMap.2 ⟨record, copied, List.mem_map_of_mem word⟩

/-- The header of a record is the first of its numbers. -/
theorem recordCells_header (digpid : BitVec 32) (sf : ScaleFactorType) (record : BitVec 32) :
    (recordCells mem digpid sf (chanNumber c) record)[0]? = some (.count (mem record)) := by
  rw [show mem record = recordWord mem record 0 by rw [recordWord]; simp]
  cases c with
  | ps1 | ps2 | ps3 | ps4 => rfl

end Words

section Slots

variable {b : Board} {trig : TriggerInfo} {c : Chan} {t j n : Nat}

/-- The words of a slot are in the range exactly when the slot is in the ring's first half. -/
theorem invalidated_iff {k : Nat} (slot : k < 200000) (word : n < 40) :
    Invalidated (bufAddr k + BitVec.ofNat 32 (4 * n)) ↔ k < 100000 := by
  have addr : (bufAddr k + BitVec.ofNat 32 (4 * n)).toNat = 0x10000000 + 160 * k + 4 * n := by
    rw [BitVec.toNat_add, toNat_bufAddr (Nat.le_of_lt slot), BitVec.toNat_ofNat,
      Nat.mod_eq_of_lt (show 4 * n < 2 ^ 32 by omega), Nat.mod_eq_of_lt (by omega)]
  rw [Invalidated, addr]
  change 0x10000000 ≤ _ ∧ _ ≤ 0x10000000 + 16000000 ↔ _
  omega

theorem copiedOffsets_lt {c : Chan} (word : n ∈ copiedOffsets c) : n < 40 := by
  have base : baseOffset c ≤ 26 := by
    cases c with
    | ps1 | ps2 | ps3 | ps4 => decide
  simp only [copiedOffsets, List.mem_append, List.mem_cons, List.mem_map, List.mem_range,
    List.not_mem_nil, or_false] at word
  omega

theorem windowSlot_lt (trig : TriggerInfo) (t j : Nat) : windowSlot trig t j < 200000 := by
  rw [windowSlot]
  omega

/-- A window is in the ring's first half if it ends there and begins after the ring's start. -/
theorem window_low_iff (slot : t < 200000)
    (fits : trig.pretrigpts.toNat + trig.posttrigpts.toNat ≤ 100000) :
    (∀ j < trig.pretrigpts.toNat + trig.posttrigpts.toNat, windowSlot trig t j < 100000) ↔
      trig.pretrigpts.toNat + trig.posttrigpts.toNat = 0 ∨
        (trig.pretrigpts.toNat ≤ t ∧ t + trig.posttrigpts.toNat ≤ 100000) := by
  unfold windowSlot
  generalize trig.pretrigpts.toNat = pre, trig.posttrigpts.toNat = post at *
  constructor
  · intro low
    obtain empty | some_record := Nat.eq_zero_or_pos (pre + post)
    · exact .inl empty
    have after_start : pre ≤ t := by
      have first := low 0 some_record
      omega
    refine .inr ⟨after_start, ?_⟩
    obtain none_after | some_after := Nat.eq_zero_or_pos post
    · have last := low (pre - 1) (by omega)
      omega
    · have trigger : t < 100000 := by
        have slot_t := low pre (Nat.lt_add_of_pos_right some_after)
        omega
      have last := low (pre + post - 1) (by omega)
      omega
  · intro inside j record
    omega

theorem CopiesInvalidated.of_low (slot : t < 200000) (addr : trig.addr = bufAddr t)
    (fits : trig.pretrigpts.toNat + trig.posttrigpts.toNat ≤ 100000)
    (low : ∀ j < trig.pretrigpts.toNat + trig.posttrigpts.toNat, windowSlot trig t j < 100000) :
    CopiesInvalidated trig c := by
  intro a copied
  rw [copiedWords, selected_windowSlot slot addr fits, List.flatMap_map, List.mem_flatMap]
    at copied
  obtain ⟨j, record, word⟩ := copied
  obtain ⟨n, offset, rfl⟩ := List.mem_map.1 word
  exact (invalidated_iff (windowSlot_lt trig t j) (copiedOffsets_lt offset)).2
    (low j (List.mem_range.1 record))

/-- A header that is not invalidated is read as the cache has it. -/
theorem ReadsMemory.slot_low (reads : ReadsMemory b trig) (slot : t < 200000)
    (addr : trig.addr = bufAddr t) (chan : trig.channum = chanNumber c)
    (fits : trig.pretrigpts.toNat + trig.posttrigpts.toNat ≤ 100000)
    (record : j < trig.pretrigpts.toNat + trig.posttrigpts.toNat) :
    windowSlot trig t j < 100000 := by
  have same := reads (fun a => if Invalidated a then none else some 1) (fun _ => 0)
    (fun a low => if_pos low)
  have header := congrArg (·[10 * j + 0]?) same
  simp only [getElem?_readDMABuf _ b slot addr chan fits record (show 0 < 10 by decide), chan,
    recordCells_header] at header
  by_contra high
  have stale : ¬ Invalidated (bufAddr (windowSlot trig t j)) := by
    intro low
    rw [← BitVec.add_zero (bufAddr _)] at low
    exact high ((invalidated_iff (windowSlot_lt trig t j) (show 0 < 40 by decide)).1 low)
  rw [readThrough, if_neg stale] at header
  simp at header

end Slots

/-- A trigger's message is read past the cache exactly when its window is in the first half of
the ring. -/
theorem read_past_cache_iff (b : Board) (trig : TriggerInfo) (t : Nat) (c : Chan)
    (slot : t < 200000) (addr : trig.addr = bufAddr t) (chan : trig.channum = chanNumber c)
    (fits : trig.pretrigpts.toNat + trig.posttrigpts.toNat ≤ 100000) :
    (CopiesInvalidated trig c ∧ ReadsMemory b trig) ↔
      trig.pretrigpts.toNat + trig.posttrigpts.toNat = 0 ∨
        (trig.pretrigpts.toNat ≤ t ∧ t + trig.posttrigpts.toNat ≤ 100000) := by
  rw [← window_low_iff slot fits]
  constructor
  · intro ⟨_, reads⟩ j record
    exact reads.slot_low slot addr chan fits record
  · intro low
    have invalidated : CopiesInvalidated trig c := CopiesInvalidated.of_low slot addr fits low
    exact ⟨invalidated, ReadsMemory.of_invalidated chan invalidated⟩

/-- The window after power up for a trigger in the middle of the ring's first half. -/
theorem read_past_cache_low :
    CopiesInvalidated ⟨bufAddr 50000, 0, 50000, 50000, 0, 0, 0, 0, 1⟩ .ps1 ∧
      ReadsMemory blankBoard ⟨bufAddr 50000, 0, 50000, 50000, 0, 0, 0, 0, 1⟩ :=
  (read_past_cache_iff blankBoard ⟨bufAddr 50000, 0, 50000, 50000, 0, 0, 0, 0, 1⟩ 50000 .ps1
    (by decide) rfl rfl (by decide)).2 (.inr (by decide))

/-- The same window in the other half. -/
theorem stale_in_high_half :
    ¬ CopiesInvalidated ⟨bufAddr 150000, 0, 50000, 50000, 0, 0, 0, 0, 1⟩ .ps1 ∧
      ¬ ReadsMemory blankBoard ⟨bufAddr 150000, 0, 50000, 50000, 0, 0, 0, 0, 1⟩ := by
  have fails : ¬ ReadsMemory blankBoard ⟨bufAddr 150000, 0, 50000, 50000, 0, 0, 0, 0, 1⟩ := by
    intro reads
    exact absurd (reads.slot_low (c := .ps1) (j := 0) (t := 150000) (by decide) rfl rfl (by decide)
      (by decide)) (by decide)
  exact ⟨fun invalidated => fails (ReadsMemory.of_invalidated rfl invalidated), fails⟩

end PscDigpid.Sw
