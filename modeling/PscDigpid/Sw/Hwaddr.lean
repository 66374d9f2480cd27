/- Unit: PscDigpid/Sw/Hwaddr
   layer: model
   source: src/sw/src/sdcard.c (parse_hex, the hwaddr argument)
   digest: A hardware address in text: what the scan accepts, and that it stays in the text. -/

import Mathlib.Data.List.OfFn
import Mathlib.Tactic.SplitIfs
import Mathlib.Logic.Function.Basic

set_option autoImplicit false
set_option relaxedAutoImplicit false

namespace PscDigpid.Sw.Hwaddr

/-- Characters, one for each byte. -/
abbrev Text := List Char

abbrev Byte := BitVec 8

/-- The value of a digit, by the three ranges of `parse_hex`. -/
def hexValue (c : Char) : Option Nat :=
  if '0' ≤ c ∧ c ≤ '9' then some (c.toNat - '0'.toNat)
  else if 'A' ≤ c ∧ c ≤ 'F' then some (c.toNat - 'A'.toNat + 10)
  else if 'a' ≤ c ∧ c ≤ 'f' then some (c.toNat - 'a'.toNat + 10)
  else none

/-- A digit is put into the low bits of a byte. -/
def parseHex (c : Char) (out : Byte) : Option Byte :=
  (hexValue c).map fun v => out ||| BitVec.ofNat 8 v

/-- How a scan ends; a read beyond the end of the text is a fault. -/
inductive Scan
  | fault
  | unchanged
  | parsed (hwaddr : Fin 6 → Byte)

/-- The character at an index of a text, with the nul that ends it. -/
def charAt (arg : Text) (k : Nat) : Option Char := (arg ++ ['\x00'])[k]?

def byteAt (hwaddr : Fin 6 → Byte) (n : Nat) : Byte := if h : n < 6 then hwaddr ⟨n, h⟩ else 0

def setByte (hwaddr : Fin 6 → Byte) (n : Nat) (b : Byte) : Fin 6 → Byte :=
  fun j => if j.val = n then b else hwaddr j

/-- The loop over the groups, `left` of them still to come from group `n` on. -/
def scan (arg : Text) : Nat → Nat → (Fin 6 → Byte) → Scan
  | 0, _, _ => .unchanged
  | left + 1, n, hwaddr =>
      match charAt arg (n * 3) with
      | none => .fault
      | some first =>
          match parseHex first (byteAt hwaddr n) with
          | none => .unchanged
          | some high =>
              match charAt arg (n * 3 + 1) with
              | none => .fault
              | some second =>
                  match parseHex second (high <<< 4) with
                  | none => .unchanged
                  | some byte =>
                      match charAt arg (n * 3 + 2) with
                      | none => .fault
                      | some third =>
                          if n < 5 ∧ third = ':' then scan arg left (n + 1) (setByte hwaddr n byte)
                          else if n = 5 ∧ third = '\x00' then .parsed (setByte hwaddr n byte)
                          else .unchanged

/-- The scan of an argument, into six bytes that are zero. -/
def scanHwaddr (arg : Text) : Scan := scan arg 6 0 fun _ => 0

/-- A hex digit, upper or lower case, with its value. -/
def HexDigit (c : Char) (v : Nat) : Prop :=
  "0123456789ABCDEF".toList[v]? = some c ∨ "0123456789abcdef".toList[v]? = some c

instance (c : Char) (v : Nat) : Decidable (HexDigit c v) := inferInstanceAs (Decidable (_ ∨ _))

/-- Two digits are a byte, the more significant first. -/
def IsByte (c d : Char) (b : Byte) : Prop :=
  ∃ high low, HexDigit c high ∧ HexDigit d low ∧ b = BitVec.ofNat 8 (16 * high + low)

/-- Groups of two digits with a colon between them, and the bytes they spell. -/
inductive Spells : Text → List Byte → Prop
  | last {c d : Char} {b : Byte} : IsByte c d b → Spells [c, d] [b]
  | more {c d : Char} {b : Byte} {rest : Text} {bytes : List Byte} :
      IsByte c d b → Spells rest bytes → Spells (c :: d :: ':' :: rest) (b :: bytes)

section Digits

variable {c d : Char} {v : Nat} {b : Byte}

theorem HexDigit.lt (digit : HexDigit c v) : v < 16 := by
  rcases digit with upper | lower
  · exact (List.getElem?_eq_some_iff.1 upper).1
  · exact (List.getElem?_eq_some_iff.1 lower).1

/-- A character of a range is its start plus an offset. -/
theorem eq_ofNat {lo hi : Char} (between : lo ≤ c ∧ c ≤ hi) :
    c.toNat - lo.toNat < hi.toNat - lo.toNat + 1 ∧
      Char.ofNat (lo.toNat + (c.toNat - lo.toNat)) = c := by
  have low : lo.toNat ≤ c.toNat := between.1
  have high : c.toNat ≤ hi.toNat := between.2
  refine ⟨by omega, ?_⟩
  rw [Nat.add_sub_cancel' low, Char.ofNat_toNat]

/-- The digits that are accepted, with their values. -/
theorem hexValue_iff : hexValue c = some v ↔ HexDigit c v := by
  constructor
  · intro value
    rw [hexValue] at value
    split_ifs at value with decimal upper lower
    · have digits : ∀ k < 10, HexDigit (Char.ofNat (48 + k)) k := by decide
      obtain ⟨small, same⟩ := eq_ofNat decimal
      rw [← same, ← Option.some.inj value]
      exact digits _ small
    · have digits : ∀ k < 6, HexDigit (Char.ofNat (65 + k)) (k + 10) := by decide
      obtain ⟨small, same⟩ := eq_ofNat upper
      rw [← same, ← Option.some.inj value]
      exact digits _ small
    · have digits : ∀ k < 6, HexDigit (Char.ofNat (97 + k)) (k + 10) := by decide
      obtain ⟨small, same⟩ := eq_ofNat lower
      rw [← same, ← Option.some.inj value]
      exact digits _ small
  · intro digit
    have small := digit.lt
    have upper : ∀ k < 16, hexValue ("0123456789ABCDEF".toList.getD k ' ') = some k := by decide
    have lower : ∀ k < 16, hexValue ("0123456789abcdef".toList.getD k ' ') = some k := by decide
    rcases digit with here | here
    · have value := upper v small
      rwa [List.getD_eq_getElem?_getD, here] at value
    · have value := lower v small
      rwa [List.getD_eq_getElem?_getD, here] at value

/-- Two digits in turn, as the scan reads them. -/
def parseByte (c d : Char) : Option Byte := (parseHex c 0).bind fun high => parseHex d (high <<< 4)

theorem parseByte_iff : parseByte c d = some b ↔ IsByte c d b := by
  have value : ∀ high < 16, ∀ low < 16, (0 ||| BitVec.ofNat 8 high) <<< 4 ||| BitVec.ofNat 8 low =
      BitVec.ofNat 8 (16 * high + low) := by decide
  simp only [parseByte, parseHex, Option.bind_eq_some_iff, Option.map_eq_some_iff, hexValue_iff,
    IsByte]
  constructor
  · rintro ⟨_, ⟨high, first, rfl⟩, low, second, rfl⟩
    exact ⟨high, low, first, second, value high first.lt low second.lt⟩
  · rintro ⟨high, low, first, second, rfl⟩
    exact ⟨_, ⟨high, first, rfl⟩, low, second, value high first.lt low second.lt⟩

theorem parseHex_nul (out : Byte) : parseHex '\x00' out = none := rfl

end Digits

section Grammar

variable {c d e : Char} {b : Byte} {rest text : Text} {bytes : List Byte}

theorem not_spells_nil : ¬ Spells text [] := nofun

theorem nil_not_spells : ¬ Spells [] bytes := nofun

theorem digit_not_spells : ¬ Spells [c] bytes := nofun

theorem spells_last_iff : Spells [c, d] (b :: bytes) ↔ IsByte c d b ∧ bytes = [] := by
  constructor
  · intro spells
    cases spells with
    | last byte => exact ⟨byte, rfl⟩
  · rintro ⟨byte, rfl⟩
    exact .last byte

theorem spells_more_iff :
    Spells (c :: d :: e :: rest) (b :: bytes) ↔ IsByte c d b ∧ e = ':' ∧ Spells rest bytes := by
  constructor
  · intro spells
    cases spells with
    | more byte later => exact ⟨byte, rfl, later⟩
  · rintro ⟨byte, rfl, later⟩
    exact .more byte later

end Grammar

section Scan

variable {arg pre text rest : Text} {c d e : Char} {left n : Nat} {hwaddr mac : Fin 6 → Byte}

/-- What stands after a group that has been read. -/
theorem charAt_append (read : pre.length = n * 3) (text : Text) (k : Nat) :
    charAt (pre ++ text) (n * 3 + k) = (text ++ ['\x00'])[k]? := by
  rw [charAt, List.append_assoc, ← read, List.getElem?_append_right (Nat.le_add_right _ _),
    Nat.add_sub_cancel_left]

/-- The nul ends a text before its first digit. -/
theorem scan_nil (read : pre.length = n * 3) :
    scan (pre ++ []) (left + 1) n hwaddr = .unchanged := by
  have first := charAt_append read [] 0
  rw [Nat.add_zero] at first
  simp only [scan, first, List.nil_append, List.getElem?_cons_zero, parseHex_nul]

/-- The nul ends a text before its second digit. -/
theorem scan_digit (read : pre.length = n * 3) (c : Char) :
    scan (pre ++ [c]) (left + 1) n hwaddr = .unchanged := by
  have first := charAt_append read [c] 0
  have second := charAt_append read [c] 1
  rw [Nat.add_zero] at first
  simp only [scan, first, second, List.cons_append, List.nil_append, List.getElem?_cons_zero,
    List.getElem?_cons_succ, parseHex_nul]
  cases parseHex c (byteAt hwaddr n) <;> rfl

/-- A group that ends the text. -/
theorem scan_last (read : pre.length = n * 3) (zero : byteAt hwaddr n = 0) (c d : Char) :
    scan (pre ++ [c, d]) (left + 1) n hwaddr =
      match parseByte c d with
      | none => .unchanged
      | some byte => if n = 5 then .parsed (setByte hwaddr n byte) else .unchanged := by
  have first := charAt_append read [c, d] 0
  have second := charAt_append read [c, d] 1
  have third := charAt_append read [c, d] 2
  rw [Nat.add_zero] at first
  have colon : ('\x00' : Char) ≠ ':' := by decide
  simp only [scan, first, second, third, zero, List.cons_append, List.nil_append,
    List.getElem?_cons_zero, List.getElem?_cons_succ, parseByte, colon, and_false, and_true,
    if_false]
  cases high : parseHex c 0 with
  | none => rfl
  | some high => dsimp only [Option.bind_some]

/-- A group with a character after it. -/
theorem scan_group (read : pre.length = n * 3) (zero : byteAt hwaddr n = 0) (c d e : Char)
    (rest : Text) :
    scan (pre ++ c :: d :: e :: rest) (left + 1) n hwaddr =
      match parseByte c d with
      | none => .unchanged
      | some byte =>
          if n < 5 ∧ e = ':' then
            scan (pre ++ c :: d :: e :: rest) left (n + 1) (setByte hwaddr n byte)
          else if n = 5 ∧ e = '\x00' then .parsed (setByte hwaddr n byte)
          else .unchanged := by
  have first := charAt_append read (c :: d :: e :: rest) 0
  have second := charAt_append read (c :: d :: e :: rest) 1
  have third := charAt_append read (c :: d :: e :: rest) 2
  rw [Nat.add_zero] at first
  simp only [scan, first, second, third, zero, List.cons_append, List.getElem?_cons_zero,
    List.getElem?_cons_succ, parseByte]
  cases high : parseHex c 0 with
  | none => rfl
  | some high => dsimp only [Option.bind_some]

theorem byteAt_zero (zero : ∀ j : Fin 6, n ≤ j.val → hwaddr j = 0) : byteAt hwaddr n = 0 := by
  rw [byteAt]
  split
  · exact zero _ le_rfl
  · rfl

theorem setByte_later (zero : ∀ j : Fin 6, n ≤ j.val → hwaddr j = 0) (b : Byte) (j : Fin 6)
    (later : n + 1 ≤ j.val) : setByte hwaddr n b j = 0 :=
  (if_neg (by omega)).trans (zero j (by omega))

/-- The bytes up to a new one are those before it and the new one. -/
theorem setByte_iff (hwaddr mac : Fin 6 → Byte) (within : n < 6) (b : Byte) :
    (∀ j : Fin 6, j.val < n + 1 → mac j = setByte hwaddr n b j) ↔
      (∀ j : Fin 6, j.val < n → mac j = hwaddr j) ∧ mac ⟨n, within⟩ = b := by
  constructor
  · intro upTo
    refine ⟨?_, (upTo ⟨n, within⟩ (Nat.lt_succ_self n)).trans (if_pos rfl)⟩
    intro j before
    exact (upTo j (Nat.lt_succ_of_lt before)).trans (if_neg (Nat.ne_of_lt before))
  · rintro ⟨before, here⟩ j upTo
    obtain earlier | last := Nat.lt_or_eq_of_le (Nat.le_of_lt_succ upTo)
    · exact (before j earlier).trans (if_neg (Nat.ne_of_lt earlier)).symm
    · have same : j = ⟨n, within⟩ := Fin.ext last
      rw [same, here]
      exact (if_pos rfl).symm

/-- The scan reads no further than the nul. -/
theorem scan_ne_fault (read : pre.length = n * 3) (zero : ∀ j : Fin 6, n ≤ j.val → hwaddr j = 0) :
    scan (pre ++ text) left n hwaddr ≠ .fault := by
  induction left generalizing pre text n hwaddr with
  | zero => exact nofun
  | succ left ih =>
      cases text with
      | nil =>
          rw [scan_nil read]
          exact nofun
      | cons c text =>
          cases text with
          | nil =>
              rw [scan_digit read]
              exact nofun
          | cons d text =>
              cases text with
              | nil =>
                  rw [scan_last read (byteAt_zero zero)]
                  cases parseByte c d with
                  | none => exact nofun
                  | some byte =>
                      dsimp only
                      split <;> exact nofun
              | cons e rest =>
                  rw [scan_group read (byteAt_zero zero)]
                  cases parseByte c d with
                  | none => exact nofun
                  | some byte =>
                      dsimp only
                      split_ifs
                      · rw [show pre ++ c :: d :: e :: rest = pre ++ [c, d, e] ++ rest by simp]
                        apply ih
                        · rw [List.length_append, read, Nat.succ_mul]
                          rfl
                        · exact setByte_later zero byte
                      · exact nofun
                      · exact nofun

/-- The group that ends the text is the sixth. -/
theorem last_parsed (within : n < 6) {parsed : Option Byte} :
    (match parsed with
      | none => Scan.unchanged
      | some byte => if n = 5 then .parsed (setByte hwaddr n byte) else .unchanged) =
        .parsed mac ↔
      (∀ j : Fin 6, j.val < n → mac j = hwaddr j) ∧ parsed = some (mac ⟨n, within⟩) ∧
        (List.ofFn mac).drop (n + 1) = [] := by
  rw [List.drop_eq_nil_iff, List.length_ofFn]
  cases parsed with
  | none =>
      refine iff_of_false nofun ?_
      rintro ⟨-, none, -⟩
      cases none
  | some byte =>
      have bytes := setByte_iff hwaddr mac within byte
      dsimp only
      split_ifs with last
      · rw [Scan.parsed.injEq, Option.some.injEq]
        constructor
        · intro same
          obtain ⟨before, here⟩ := bytes.1 fun j _ => congrFun same.symm j
          exact ⟨before, here.symm, by omega⟩
        · rintro ⟨before, here, -⟩
          funext j
          exact (bytes.2 ⟨before, here.symm⟩ j (by omega)).symm
      · refine iff_of_false nofun ?_
        rintro ⟨-, -, all⟩
        omega

/-- A group with more after it leaves the rest to the next. -/
theorem more_parsed (within : n < 6) (byte : Byte) (rest : Text) :
    ((∀ j : Fin 6, j.val < n + 1 → mac j = setByte hwaddr n byte j) ∧
        Spells rest ((List.ofFn mac).drop (n + 1))) ↔
      (∀ j : Fin 6, j.val < n → mac j = hwaddr j) ∧ some byte = some (mac ⟨n, within⟩) ∧
        Spells rest ((List.ofFn mac).drop (n + 1)) := by
  rw [setByte_iff hwaddr mac within, Option.some.injEq, and_assoc, eq_comm (a := byte)]

/-- From a group on, the bytes before it stay and those from it on are spelled by the text. -/
theorem scan_parsed (groups : n + left = 6) (read : pre.length = n * 3)
    (zero : ∀ j : Fin 6, n ≤ j.val → hwaddr j = 0) (nul : '\x00' ∉ text) :
    scan (pre ++ text) left n hwaddr = .parsed mac ↔
      (∀ j : Fin 6, j.val < n → mac j = hwaddr j) ∧ Spells text ((List.ofFn mac).drop n) := by
  induction left generalizing pre text n hwaddr with
  | zero =>
      have all : (List.ofFn mac).drop n = [] := List.drop_eq_nil_of_le (by simp; omega)
      rw [all]
      exact iff_of_false nofun fun both => not_spells_nil both.2
  | succ left ih =>
      have within : n < 6 := by omega
      have split : (List.ofFn mac).drop n = mac ⟨n, within⟩ :: (List.ofFn mac).drop (n + 1) := by
        rw [List.drop_eq_getElem_cons (by simpa using within), List.getElem_ofFn]
      rw [split]
      cases text with
      | nil =>
          rw [scan_nil read]
          exact iff_of_false nofun fun both => nil_not_spells both.2
      | cons c text =>
          cases text with
          | nil =>
              rw [scan_digit read]
              exact iff_of_false nofun fun both => digit_not_spells both.2
          | cons d text =>
              cases text with
              | nil =>
                  rw [scan_last read (byteAt_zero zero), spells_last_iff, ← parseByte_iff]
                  exact last_parsed within
              | cons e rest =>
                  rw [scan_group read (byteAt_zero zero), spells_more_iff, ← parseByte_iff]
                  cases parseByte c d with
                  | none =>
                      refine iff_of_false nofun ?_
                      rintro ⟨-, none, -⟩
                      cases none
                  | some byte =>
                      dsimp only
                      by_cases more : n < 5 ∧ e = ':'
                      · have next := @ih (pre ++ [c, d, e]) rest (n + 1) (setByte hwaddr n byte)
                          (by omega) (by rw [List.length_append, read, Nat.succ_mul]; rfl)
                          (setByte_later zero byte) fun later => nul (by simp [later])
                        rw [List.append_assoc] at next
                        rw [if_pos more]
                        refine next.trans ((more_parsed within byte rest).trans ?_)
                        rw [iff_true_intro more.2, true_and]
                      · rw [if_neg more, if_neg]
                        · refine iff_of_false nofun ?_
                          rintro ⟨-, -, colon, later⟩
                          have room : n + 1 < 6 := by
                            by_contra full
                            rw [List.drop_eq_nil_of_le (by simp; omega)] at later
                            exact not_spells_nil later
                          exact more ⟨by omega, colon⟩
                        · rintro ⟨-, rfl⟩
                          exact nul (by simp)

/-- The argument is scanned to the end and without fault, and a hardware address comes of it exactly
when it spells one. -/
theorem scanHwaddr_iff (nul : '\x00' ∉ arg) (mac : Fin 6 → Byte) :
    scanHwaddr arg = .parsed mac ↔ Spells arg (List.ofFn mac) := by
  have parsed := @scan_parsed [] arg 6 0 (fun _ => 0) mac rfl rfl (fun _ _ => rfl) nul
  rw [List.nil_append, List.drop_zero] at parsed
  rw [scanHwaddr, parsed]
  exact and_iff_right fun j before => absurd before (Nat.not_lt_zero _)

theorem scanHwaddr_ne_fault : scanHwaddr arg ≠ .fault :=
  @scan_ne_fault [] arg 6 0 (fun _ => 0) rfl fun _ _ => rfl

end Scan

end PscDigpid.Sw.Hwaddr
