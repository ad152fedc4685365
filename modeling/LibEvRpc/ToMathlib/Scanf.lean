import Mathlib.Data.List.TakeWhile
import Mathlib.Tactic.Common

/-! # Formatted scanning

The part of `sscanf` with blanks, characters and scan sets: a blank of the format skips any number of
blanks, a character must be there, and a scan set stores the longest run of the bytes it accepts, which
must not be empty. Scanning ends without an error at the first directive that does not match. A
conversion has no result when its field and a terminator do not fit into its buffer.
-/

namespace Scanf

/-- `isspace` in the C locale. -/
def isSpace (char : UInt8) : Bool := char = 32 ∨ 9 ≤ char ∧ char ≤ 13

/-- A directive of a format. A scan set comes with the size of the buffer for its field. -/
inductive Directive where
  | space
  | literal (char : UInt8)
  | scanset (accepts : UInt8 → Bool) (size : ℕ)

/-- The fields that are stored. -/
def scan : List Directive → List UInt8 → Option (List (List UInt8))
  | [], _ => some []
  | .space :: format, input => scan format (input.dropWhile isSpace)
  | .literal _ :: _, [] => some []
  | .literal char :: format, next :: input => if next = char then scan format input else some []
  | .scanset accepts size :: format, input =>
      let field := input.takeWhile accepts
      if field = [] then some []
      else if field.length < size then (scan format (input.dropWhile accepts)).map (field :: ·)
      else none

variable {format : List Directive}

@[simp] theorem scan_nil (input : List UInt8) : scan [] input = some [] := rfl

@[simp] theorem scan_space (input : List UInt8) :
    scan (.space :: format) input = scan format (input.dropWhile isSpace) := rfl

@[simp] theorem scan_literal_nil (char : UInt8) : scan (.literal char :: format) [] = some [] := rfl

theorem scan_literal_self (char : UInt8) (input : List UInt8) :
    scan (.literal char :: format) (char :: input) = scan format input := if_pos rfl

theorem scan_literal_ne {char next : UInt8} (different : next ≠ char) (input : List UInt8) :
    scan (.literal char :: format) (next :: input) = some [] := if_neg different

@[simp] theorem scan_scanset_nil (accepts : UInt8 → Bool) (size : ℕ) :
    scan (.scanset accepts size :: format) [] = some [] := rfl

/-- A byte that is not accepted makes a scan set fail. -/
theorem scan_scanset_refused {accepts : UInt8 → Bool} {next : UInt8} (refused : accepts next = false)
    (size : ℕ) (input : List UInt8) : scan (.scanset accepts size :: format) (next :: input) = some [] := by
  rw [scan, List.takeWhile_cons_of_neg (by simp [refused])]
  rfl

/-- A field ends in front of the first byte that is not accepted. -/
theorem scan_scanset {accepts : UInt8 → Bool} {size : ℕ} {field input : List UInt8}
    (accepted : ∀ char ∈ field, accepts char) (nonempty : field ≠ [])
    (ends : ∀ next ∈ input.head?, accepts next = false) :
    scan (.scanset accepts size :: format) (field ++ input) =
      if field.length < size then (scan format input).map (field :: ·) else none := by
  have front : input.takeWhile accepts = [] := by
    cases input with
    | nil => rfl
    | cons next input => exact List.takeWhile_cons_of_neg (by simp [ends next rfl])
  have back : input.dropWhile accepts = input := by
    cases input with
    | nil => rfl
    | cons next input => exact List.dropWhile_cons_of_neg (by simp [ends next rfl])
  rw [scan, List.takeWhile_append_of_pos accepted, List.dropWhile_append_of_pos accepted, front, back,
    List.append_nil, if_neg nonempty]

/-- A scan set that accepts the next byte stores the run that begins there. -/
theorem scan_scanset_cons {accepts : UInt8 → Bool} {next : UInt8} (accepted : accepts next) (size : ℕ)
    (input : List UInt8) :
    scan (.scanset accepts size :: format) (next :: input) =
      if ((next :: input).takeWhile accepts).length < size then
        (scan format ((next :: input).dropWhile accepts)).map ((next :: input).takeWhile accepts :: ·)
      else none := by
  have nonempty : (next :: input).takeWhile accepts ≠ [] := by
    rw [List.takeWhile_cons_of_pos accepted]
    exact List.cons_ne_nil _ _
  rw [scan]
  exact if_neg nonempty

end Scanf
