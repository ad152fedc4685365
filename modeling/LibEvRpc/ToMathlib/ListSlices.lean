import Mathlib.Data.List.Basic
import Mathlib.Tactic.Common

/-! # Slices of a list

The slices of one width from the front of a list, with what is left after them, tile the list. In
general ranges tile an interval when each one starts where the one before it ends.
-/

namespace List

variable {α : Type*}

theorem flatMap_slices_append_drop (width count : ℕ) (items : List α)
    (covered : count * width ≤ items.length) :
    (range count).flatMap (fun i => (items.drop (i * width)).take width) ++
      items.drop (count * width) = items := by
  induction count with
  | zero => simp
  | succ count ih =>
    have earlier : count * width ≤ items.length :=
      Nat.le_trans (Nat.mul_le_mul_right width (Nat.le_succ count)) covered
    have split : (items.drop (count * width)).take width ++ items.drop ((count + 1) * width) =
        items.drop (count * width) := by
      rw [Nat.succ_mul, ← drop_drop, take_append_drop]
    rw [range_succ, flatMap_append, flatMap_singleton, append_assoc, split]
    exact ih earlier

end List

/-- Ranges, given by their start and their length, follow one another from one position to another. -/
inductive Tiles : ℕ → ℕ → List (ℕ × ℕ) → Prop
  | nil (position : ℕ) : Tiles position position []
  | cons {start count stop : ℕ} {rest : List (ℕ × ℕ)} (later : Tiles (start + count) stop rest) :
      Tiles start stop ((start, count) :: rest)

namespace Tiles

variable {start middle stop : ℕ} {ranges more : List (ℕ × ℕ)}

theorem append (front : Tiles start middle ranges) (back : Tiles middle stop more) :
    Tiles start stop (ranges ++ more) := by
  induction front with
  | nil => exact back
  | cons later ih => exact .cons (ih back)

/-- Ranges of one length follow one another. -/
theorem equal (count width : ℕ) :
    Tiles 0 (count * width) ((List.range count).map fun i => (i * width, width)) := by
  induction count with
  | zero =>
    rw [Nat.zero_mul]
    exact .nil 0
  | succ count ih =>
    rw [List.range_succ, List.map_append, Nat.succ_mul]
    exact ih.append (.cons (.nil _))

end Tiles
