import Mathlib.Data.List.TakeWhile
import Mathlib.Tactic.Common

/-! # NUL-terminated strings inside byte buffers

A C string is the part of a buffer before its first zero byte. `ofBuffer` reads it, and
`strlen?` measures it inside a bounded buffer: a buffer without a zero byte has no length there,
since the scan would leave it. Nothing here depends on where the buffer comes from.
-/

namespace CString

/-- The bytes before the first NUL, or the whole buffer when it has none. -/
def ofBuffer (buffer : List UInt8) : List UInt8 := buffer.takeWhile (· != 0)

/-- Length of the string in a bounded buffer, undefined when no NUL ends it there. -/
def strlen? (buffer : List UInt8) : Option ℕ :=
  if 0 ∈ buffer then some (ofBuffer buffer).length else none

@[simp] theorem ofBuffer_nil : ofBuffer [] = [] := rfl

theorem zero_notMem_ofBuffer (buffer : List UInt8) : 0 ∉ ofBuffer buffer := by
  intro member
  simpa using List.mem_takeWhile_imp member

theorem ofBuffer_eq_self_iff {buffer : List UInt8} : ofBuffer buffer = buffer ↔ 0 ∉ buffer := by
  rw [ofBuffer, List.takeWhile_eq_self_iff]
  constructor
  · intro nonzero member
    simpa using nonzero 0 member
  · intro absent byte member
    simpa using fun equal : byte = 0 => absent (equal ▸ member)

theorem ofBuffer_length_le (buffer : List UInt8) : (ofBuffer buffer).length ≤ buffer.length :=
  (List.takeWhile_prefix _).length_le

/-- Only the bytes up to a NUL matter. -/
theorem ofBuffer_append_zero (content rest : List UInt8) :
    ofBuffer (content ++ 0 :: rest) = ofBuffer content := by
  induction content with
  | nil => simp [ofBuffer]
  | cons byte content ih =>
    simp only [ofBuffer, List.cons_append, List.takeWhile_cons] at ih ⊢
    rw [ih]

/-- Bytes without a NUL in front belong to the string. -/
theorem ofBuffer_append {content : List UInt8} (clean : 0 ∉ content) (rest : List UInt8) :
    ofBuffer (content ++ rest) = content ++ ofBuffer rest := by
  apply List.takeWhile_append_of_pos
  intro byte member
  exact bne_iff_ne.mpr (ne_of_mem_of_not_mem member clean)

theorem ofBuffer_length_lt {buffer : List UInt8} (member : 0 ∈ buffer) :
    (ofBuffer buffer).length < buffer.length := by
  apply lt_of_le_of_ne (ofBuffer_length_le buffer)
  intro same
  have whole := (List.takeWhile_prefix _).eq_of_length same
  exact ofBuffer_eq_self_iff.mp whole member

@[simp] theorem take_ofBuffer_length (buffer : List UInt8) :
    buffer.take (ofBuffer buffer).length = ofBuffer buffer :=
  (List.prefix_iff_eq_take.mp (List.takeWhile_prefix _)).symm

/-- Zero fill after the content terminates it inside the buffer. -/
theorem strlen?_append_zero (content rest : List UInt8) :
    strlen? (content ++ 0 :: rest) = some (ofBuffer content).length := by
  rw [strlen?, if_pos (by simp), ofBuffer_append_zero]

end CString
