/- Unit: PscDigpid/Sw/TftpHandler
   layer: model
   source: src/sw/src/tftp_handler.c
   digest: The callbacks that keep the transferred files on the SD card. -/

import Mathlib.Logic.Basic
import Mathlib.Tactic.SplitIfs
import PscDigpid.Sw.Tftp

set_option autoImplicit false
set_option relaxedAutoImplicit false

namespace PscDigpid.Sw.Tftp

/-- Bytes written over a file from a place in it on. -/
def overwrite (contents : List Byte) (place : Nat) (bytes : List Byte) : List Byte :=
  contents.take place ++ bytes ++ contents.drop (place + bytes.length)

/-- The part of FatFs that the handler uses, over its own state, for the one file it keeps. -/
structure FatFs (σ : Type) where
  fOpen : σ → List Byte → BitVec 8 → Bool × σ
  fClose : σ → Bool × σ
  /-- The bytes of a successful read. -/
  fRead : σ → Nat → Option (List Byte) × σ
  /-- The number of bytes of a successful write. -/
  fWrite : σ → List Byte → Option Nat × σ
  /-- The contents of the file opened last. -/
  contents : σ → List Byte
  /-- Its read and write pointer. -/
  fptr : σ → Nat

/-- What FatFs documents of these functions. -/
structure FatFs.Documented {σ : Type} (fat : FatFs σ) : Prop where
  opens : ∀ s name mode s', fat.fOpen s name mode = (true, s') → fat.fptr s' = 0
  reads : ∀ s n bytes s', fat.fRead s n = (some bytes, s') →
    bytes = ((fat.contents s).drop (fat.fptr s)).take n ∧ fat.contents s' = fat.contents s ∧
      fat.fptr s' = fat.fptr s + bytes.length
  writes : ∀ s bytes n s', fat.fWrite s bytes = (some n, s') →
    fat.contents s' = overwrite (fat.contents s) (fat.fptr s) (bytes.take n) ∧
      fat.fptr s' = fat.fptr s + n

def faRead : BitVec 8 := 0x01

def faWrite : BitVec 8 := 0x02

def faOpenExisting : BitVec 8 := 0x00

def faOpenAlways : BitVec 8 := 0x10

/-- The only transfer mode: `octet`. -/
def octet : List Byte := [0x6F, 0x63, 0x74, 0x65, 0x74]

section Handler

variable {σ : Type} (fat : FatFs σ) (s : σ)

def tftpSdcardOpen (fname mode : List Byte) (write : Bool) : Bool × σ :=
  if mode ≠ octet then (false, s)
  else fat.fOpen s fname (if write then faOpenAlways ||| faWrite else faOpenExisting ||| faRead)

def tftpSdcardClose : σ := (fat.fClose s).2

def tftpSdcardRead (bytes : Nat) : Option (List Byte) × σ := fat.fRead s bytes

/-- The buffers of a chain one after the other, until nothing is left or a write fails. -/
def tftpSdcardWrite (s : σ) : List (List Byte) → Bool × σ
  | [] => (true, s)
  | p :: next =>
      if (p :: next).flatten.length = 0 then (true, s)
      else if p.length = 0 then tftpSdcardWrite s next
      else
        match fat.fWrite s p with
        | (none, s) => (false, s)
        | (some n, s) => if n ≠ p.length then (false, s) else tftpSdcardWrite s next

/-- The callbacks that `tftp_prepare` hands to the server. -/
def ctxt : Context σ where
  openFile := tftpSdcardOpen fat
  closeFile := tftpSdcardClose fat
  readFile := tftpSdcardRead fat
  writeFile := tftpSdcardWrite fat

end Handler

section Overwrite

variable {contents a b : List Byte} {place : Nat}

theorem overwrite_nil (contents : List Byte) (place : Nat) :
    overwrite contents place [] = contents := by
  rw [overwrite, List.append_nil, List.length_nil, Nat.add_zero, List.take_append_drop]

theorem length_overwrite (within : place ≤ contents.length) :
    place + a.length ≤ (overwrite contents place a).length := by
  rw [overwrite, List.length_append, List.length_append, List.length_take, Nat.min_eq_left within]
  exact Nat.le_add_right _ _

/-- Two writes in a row are one write of both. -/
theorem overwrite_overwrite (within : place ≤ contents.length) :
    overwrite (overwrite contents place a) (place + a.length) b =
      overwrite contents place (a ++ b) := by
  have start : (contents.take place).length = place := List.length_take_of_le within
  have front : (contents.take place ++ a).length = place + a.length := by
    rw [List.length_append, start]
  rw [overwrite, overwrite, List.take_left' front, List.drop_append,
    List.drop_eq_nil_of_le (by omega), List.nil_append, List.drop_drop, front, overwrite,
    List.length_append, ← List.append_assoc]
  congr 2
  omega

end Overwrite

section Write

variable {σ : Type} {fat : FatFs σ}

/-- A write that succeeds has written the whole chain at the pointer. -/
theorem tftpSdcardWrite_ok (documented : fat.Documented) {s s' : σ} {chain : List (List Byte)}
    (within : fat.fptr s ≤ (fat.contents s).length)
    (ok : tftpSdcardWrite fat s chain = (true, s')) :
    fat.contents s' = overwrite (fat.contents s) (fat.fptr s) chain.flatten ∧
      fat.fptr s' = fat.fptr s + chain.flatten.length := by
  induction chain generalizing s with
  | nil =>
    obtain ⟨-, rfl⟩ := Prod.mk.inj ok
    exact ⟨(overwrite_nil _ _).symm, rfl⟩
  | cons p next ih =>
    rw [tftpSdcardWrite] at ok
    split_ifs at ok with none empty
    · obtain ⟨-, rfl⟩ := Prod.mk.inj ok
      rw [List.length_eq_zero_iff.1 none]
      exact ⟨(overwrite_nil _ _).symm, rfl⟩
    · rw [List.flatten_cons, List.length_eq_zero_iff.1 empty]
      exact ih within ok
    · obtain ⟨⟨count, after⟩, result⟩ : ∃ r, fat.fWrite s p = r := ⟨_, rfl⟩
      rw [result] at ok
      cases count with
      | none => exact absurd (congrArg Prod.fst ok) Bool.false_ne_true
      | some n =>
        dsimp only at ok
        split_ifs at ok with less
        · exact absurd (congrArg Prod.fst ok) Bool.false_ne_true
        · obtain rfl : n = p.length := not_not.1 less
          obtain ⟨written, moved⟩ := documented.writes s p _ after result
          rw [List.take_length] at written
          have room : fat.fptr after ≤ (fat.contents after).length := by
            rw [written, moved]
            exact length_overwrite within
          obtain ⟨rest, last⟩ := ih room ok
          refine ⟨?_, ?_⟩
          · rw [rest, written, moved, overwrite_overwrite within, List.flatten_cons]
          · rw [last, moved, List.flatten_cons, List.length_append, Nat.add_assoc]

theorem tftpSdcardOpen_ok (documented : fat.Documented) {s s' : σ} {fname mode : List Byte}
    {write : Bool} (ok : tftpSdcardOpen fat s fname mode write = (true, s')) : fat.fptr s' = 0 := by
  rw [tftpSdcardOpen] at ok
  by_cases other : mode ≠ octet
  · rw [if_pos other] at ok
    exact absurd (congrArg Prod.fst ok) Bool.false_ne_true
  · rw [if_neg other] at ok
    exact documented.opens _ _ _ _ ok

end Write

/-- A card with one file and no failures. -/
def memoryFat : FatFs (List Byte × Nat) where
  fOpen s _ _ := (true, (s.1, 0))
  fClose s := (true, s)
  fRead s n := (some ((s.1.drop s.2).take n), (s.1, s.2 + ((s.1.drop s.2).take n).length))
  fWrite s bytes := (some bytes.length, (overwrite s.1 s.2 bytes, s.2 + bytes.length))
  contents := Prod.fst
  fptr := Prod.snd

theorem memoryFat_documented : memoryFat.Documented where
  opens s name mode s' opened := by
    rw [← (Prod.mk.inj opened).2]
    rfl
  reads s n bytes s' read := by
    obtain ⟨got, after⟩ := Prod.mk.inj read
    rw [← after, ← Option.some.inj got]
    exact ⟨rfl, rfl, rfl⟩
  writes s bytes n s' written := by
    obtain ⟨count, after⟩ := Prod.mk.inj written
    rw [← after, ← Option.some.inj count, List.take_length]
    exact ⟨rfl, rfl⟩

end PscDigpid.Sw.Tftp
