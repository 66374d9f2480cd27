/- Unit: PscDigpid/Sync/Chunks
   layer: library
   source: none(general)
   digest: A stream read in pieces of limited size that end at a mark, and where they fall again. -/

import Mathlib.Data.List.Basic

set_option autoImplicit false
set_option relaxedAutoImplicit false

namespace PscDigpid.Sync

universe u

section Chunks

variable {α : Type u} (stop : α → Bool)

/-- At most `size` elements, up to the first mark, and the rest. -/
def piece : Nat → List α → List α × List α
  | 0, rest => ([], rest)
  | _ + 1, [] => ([], [])
  | size + 1, a :: rest =>
      if stop a then ([a], rest)
      else
        let later := piece size rest
        (a :: later.1, later.2)

/-- The pieces of a stream, one read after the other; the fuel bounds their number. -/
def readPieces (size : Nat) : Nat → List α → List (List α)
  | 0, _ => []
  | _ + 1, [] => []
  | fuel + 1, a :: rest =>
      let read := piece stop size (a :: rest)
      read.1 :: readPieces size fuel read.2

/-- The pieces of a whole stream. -/
def pieces (size : Nat) (l : List α) : List (List α) := readPieces stop size l.length l

/-- The stream is empty or ends with a mark. -/
def Whole (l : List α) : Prop := ∀ a, l.getLast? = some a → stop a = true

end Chunks

section Laws

variable {α : Type u} {stop : α → Bool} {size fuel : Nat} {l m : List α}

theorem piece_append (stop : α → Bool) (size : Nat) (l : List α) :
    (piece stop size l).1 ++ (piece stop size l).2 = l := by
  induction size generalizing l with
  | zero => rfl
  | succ size ih =>
      cases l with
      | nil => rfl
      | cons a rest =>
          rw [piece]
          split
          · rfl
          · rw [List.cons_append, ih]

/-- A piece of a stream that has elements is not empty. -/
theorem length_rest (stop : α → Bool) (a : α) (size : Nat) (l : List α) :
    (piece stop (size + 1) (a :: l)).2.length ≤ l.length := by
  rw [piece]
  split
  · exact Nat.le_refl _
  · have parts := congrArg List.length (piece_append stop size l)
    rw [List.length_append] at parts
    exact Nat.le_of_add_left_le (Nat.le_of_eq parts)

/-- More fuel than elements changes nothing. -/
theorem readPieces_fuel {more : Nat} (enough : l.length ≤ fuel) (too : l.length ≤ more) :
    readPieces stop (size + 1) fuel l = readPieces stop (size + 1) more l := by
  induction fuel generalizing l more with
  | zero =>
      rw [List.length_eq_zero_iff.1 (Nat.le_zero.1 enough)]
      cases more <;> rfl
  | succ fuel ih =>
      cases l with
      | nil => cases more <;> rfl
      | cons a rest =>
          have shorter := length_rest stop a size rest
          cases more with
          | zero => exact absurd too (Nat.not_succ_le_zero _)
          | succ more =>
              rw [readPieces, readPieces]
              rw [ih (Nat.le_trans shorter (Nat.le_of_succ_le_succ enough))
                (Nat.le_trans shorter (Nat.le_of_succ_le_succ too))]

@[simp] theorem pieces_nil : pieces stop size [] = [] := rfl

theorem pieces_cons (a : α) (l : List α) : pieces stop (size + 1) (a :: l) =
    (piece stop (size + 1) (a :: l)).1 ::
      pieces stop (size + 1) (piece stop (size + 1) (a :: l)).2 :=
  congrArg _ (readPieces_fuel (length_rest stop a size l) (Nat.le_refl _))

theorem Whole.rest {a : α} (whole : Whole stop (a :: l)) : Whole stop l := by
  cases l with
  | nil => exact nofun
  | cons b l => exact fun c last => whole c last

/-- What follows a whole stream is not read with it. -/
theorem piece_whole {a : α} (size : Nat) (m : List α) (whole : Whole stop (a :: l)) :
    piece stop size (a :: l ++ m) =
        ((piece stop size (a :: l)).1, (piece stop size (a :: l)).2 ++ m) ∧
      Whole stop (piece stop size (a :: l)).2 := by
  induction size generalizing a l with
  | zero => exact ⟨rfl, whole⟩
  | succ size ih =>
      rw [List.cons_append, piece, piece]
      cases mark : stop a with
      | true => exact ⟨rfl, whole.rest⟩
      | false =>
          cases l with
          | nil =>
              have ends := whole a rfl
              rw [mark] at ends
              cases ends
          | cons b l =>
              obtain ⟨same, rest⟩ := ih whole.rest
              rw [if_neg Bool.false_ne_true, if_neg Bool.false_ne_true, same]
              exact ⟨rfl, rest⟩

/-- The pieces of a whole stream stay when more follows. -/
theorem pieces_append (whole : Whole stop l) (m : List α) :
    pieces stop (size + 1) (l ++ m) = pieces stop (size + 1) l ++ pieces stop (size + 1) m := by
  induction length : l.length using Nat.strongRecOn generalizing l with
  | _ n ih =>
      cases l with
      | nil => rfl
      | cons a l =>
          obtain ⟨same, rest⟩ := piece_whole (size + 1) m whole
          have shorter := length_rest stop a size l
          rw [pieces_cons, List.cons_append, pieces_cons, ← List.cons_append, same,
            List.cons_append]
          rw [ih _ (by rw [← length]; exact Nat.lt_succ_of_le shorter) rest rfl]

/-- What fits and has no mark before its end is one piece. -/
theorem pieces_single {a : α} (fits : l.length ≤ size)
    (inside : ∀ b ∈ (a :: l).dropLast, stop b = false) :
    pieces stop (size + 1) (a :: l) = [a :: l] := by
  have all : piece stop (size + 1) (a :: l) = (a :: l, []) := by
    induction l generalizing a size with
    | nil =>
        rw [piece]
        split
        · rfl
        · cases size <;> rfl
    | cons b l ih =>
        cases size with
        | zero => exact absurd fits (Nat.not_succ_le_zero _)
        | succ size =>
            rw [List.dropLast_cons_cons, List.forall_mem_cons] at inside
            rw [piece, inside.1, if_neg Bool.false_ne_true,
              ih (Nat.le_of_succ_le_succ fits) inside.2]
  rw [pieces_cons, all, pieces_nil]

end Laws

end PscDigpid.Sync
