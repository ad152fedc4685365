import Mathlib.Algebra.Group.Nat.Defs
import Mathlib.Data.List.Basic
import Mathlib.Tactic.Common

/-! # Integers on a byte stream

A `CodedStream` writes unsigned 64-bit integers as bytes, reads them back in front of any other
bytes, and knows how long a field is whose meaning it does not know. Small numbers take one byte and
all others at most ten, and only zero is written with a zero byte. `CodedStream.base128` is the
coding with seven bits in each byte, the lowest first, in which every byte but the last one has its
high bit set.
-/

/-- A coding of 64-bit integers, with the skipping of unknown fields. -/
structure CodedStream where
  write : UInt64 → List UInt8
  size : UInt64 → ℕ
  read : List UInt8 → Option (UInt64 × List UInt8)
  skip : UInt32 → List UInt8 → Option (List UInt8)
  length_write : ∀ value, (write value).length = size value
  size_le : ∀ value, size value ≤ 10
  read_write : ∀ value rest, read (write value ++ rest) = some (value, rest)
  read_nil : read [] = none
  write_of_lt : ∀ value, value < 128 → write value = [value.toUInt8]
  zero_notMem_write : ∀ value, value ≠ 0 → 0 ∉ write value
  length_read : ∀ {input value rest}, read input = some (value, rest) → rest.length < input.length
  length_skip : ∀ {tag input rest}, skip tag input = some rest → rest.length ≤ input.length

namespace CodedStream

theorem write_zero (stream : CodedStream) : stream.write 0 = [0] := stream.write_of_lt 0 (by decide)

theorem write_ne_nil (stream : CodedStream) (value : UInt64) : stream.write value ≠ [] := by
  intro empty
  have written := stream.read_write value []
  rw [empty, List.append_nil, stream.read_nil] at written
  contradiction

theorem zero_mem_write_iff (stream : CodedStream) (value : UInt64) :
    0 ∈ stream.write value ↔ value = 0 := by
  constructor
  · intro member
    by_contra nonzero
    exact stream.zero_notMem_write value nonzero member
  · rintro rfl
    rw [stream.write_zero]
    exact List.mem_singleton_self 0

/-! ## Seven bits in each byte -/

namespace Base128

/-- At most the given number of bytes. -/
def write : ℕ → ℕ → List UInt8
  | 0, _ => []
  | count + 1, value =>
      if value < 128 then [UInt8.ofNat value]
      else UInt8.ofNat (value % 128 + 128) :: write count (value / 128)

/-- Of at most the given number of bytes. -/
def read : ℕ → List UInt8 → Option (ℕ × List UInt8)
  | 0, _ => none
  | _ + 1, [] => none
  | count + 1, byte :: rest =>
      if byte.toNat < 128 then some (byte.toNat, rest)
      else (read count rest).map fun (value, rest) => (byte.toNat - 128 + 128 * value, rest)

theorem read_write {count value : ℕ} (bound : value < 128 ^ (count + 1)) (rest : List UInt8) :
    read (count + 1) (write (count + 1) value ++ rest) = some (value, rest) := by
  induction count generalizing value with
  | zero =>
    have byte : (UInt8.ofNat value).toNat = value := by
      rw [UInt8.toNat_ofNat']
      omega
    rw [write, if_pos (by omega), List.singleton_append, read, if_pos (by omega), byte]
  | succ count ih =>
    rw [write]
    split
    · next small =>
      have byte : (UInt8.ofNat value).toNat = value := by
        rw [UInt8.toNat_ofNat']
        omega
      rw [List.singleton_append, read, if_pos (by omega), byte]
    · next large =>
      have byte : (UInt8.ofNat (value % 128 + 128)).toNat = value % 128 + 128 := by
        rw [UInt8.toNat_ofNat']
        omega
      have rest_bound : value / 128 < 128 ^ (count + 1) := by
        rw [Nat.div_lt_iff_lt_mul (by decide), ← Nat.pow_succ]
        exact bound
      rw [List.cons_append, read, if_neg (by omega), ih rest_bound, Option.map_some, byte]
      dsimp only
      rw [Nat.add_sub_cancel, Nat.mod_add_div]

theorem length_write_le (count value : ℕ) : (write count value).length ≤ count := by
  induction count generalizing value with
  | zero => exact Nat.le_refl 0
  | succ count ih =>
    rw [write]
    split
    · exact Nat.succ_le_succ (Nat.zero_le count)
    · exact Nat.succ_le_succ (ih _)

/-- Only zero has a zero byte, that of its highest digits. -/
theorem zero_notMem_write {count value : ℕ} (bound : value < 128 ^ count) (nonzero : value ≠ 0) :
    0 ∉ write count value := by
  induction count generalizing value with
  | zero => exact List.not_mem_nil
  | succ count ih =>
    rw [write]
    split
    · next small =>
      rw [List.mem_singleton]
      intro zero
      have byte := congrArg UInt8.toNat zero
      rw [UInt8.toNat_ofNat', UInt8.toNat_zero] at byte
      omega
    · next large =>
      rw [List.mem_cons, not_or]
      constructor
      · intro zero
        have byte := congrArg UInt8.toNat zero
        rw [UInt8.toNat_ofNat', UInt8.toNat_zero] at byte
        omega
      · apply ih
        · rw [Nat.div_lt_iff_lt_mul (by decide), ← Nat.pow_succ]
          exact bound
        · omega

theorem length_read {count value : ℕ} {input rest : List UInt8}
    (success : read count input = some (value, rest)) : rest.length < input.length := by
  induction count generalizing value input with
  | zero => contradiction
  | succ count ih =>
    cases input with
    | nil => contradiction
    | cons byte input =>
      rw [read] at success
      split at success
      · cases success
        exact Nat.lt_succ_self _
      · obtain ⟨⟨_, left⟩, earlier, same⟩ := Option.map_eq_some_iff.mp success
        cases same
        exact Nat.lt_succ_of_lt (ih earlier)

/-! ### Fields of any kind -/

/-- Skip a number of bytes that must be there. -/
def dropExactly (count : ℕ) (input : List UInt8) : Option (List UInt8) :=
  if count ≤ input.length then some (input.drop count) else none

theorem length_dropExactly {count : ℕ} {input rest : List UInt8}
    (success : dropExactly count input = some rest) : rest.length ≤ input.length := by
  obtain ⟨_, same⟩ := Option.ite_none_right_eq_some.mp success
  cases same
  rw [List.length_drop]
  exact Nat.sub_le _ _

mutual

/-- The field behind a tag, by the kind in the low three bits of the tag: an integer, eight bytes,
a length with that many bytes, a group, or four bytes. -/
def skip : ℕ → ℕ → List UInt8 → Option (List UInt8)
  | 0, _, _ => none
  | fuel + 1, tag, input =>
      match tag % 8 with
      | 0 => (read 10 input).map Prod.snd
      | 1 => dropExactly 8 input
      | 2 => (read 10 input).bind fun (length, rest) => dropExactly length rest
      | 3 => skipGroup fuel (tag / 8) input
      | 5 => dropExactly 4 input
      | _ => none

/-- The fields of a group and the tag of its end. -/
def skipGroup : ℕ → ℕ → List UInt8 → Option (List UInt8)
  | 0, _, _ => none
  | fuel + 1, number, input =>
      (read 10 input).bind fun (tag, rest) =>
        if tag = number * 8 + 4 then some rest
        else if tag = 0 then none
        else (skip fuel tag rest).bind fun rest => skipGroup fuel number rest

end

mutual

theorem length_skip {fuel tag : ℕ} {input rest : List UInt8}
    (success : skip fuel tag input = some rest) : rest.length ≤ input.length := by
  cases fuel with
  | zero => rw [skip] at success; contradiction
  | succ fuel =>
    rw [skip] at success
    split at success
    · obtain ⟨⟨_, left⟩, earlier, same⟩ := Option.map_eq_some_iff.mp success
      cases same
      exact Nat.le_of_lt (length_read earlier)
    · exact length_dropExactly success
    · obtain ⟨⟨length, left⟩, earlier, later⟩ := Option.bind_eq_some_iff.mp success
      exact Nat.le_trans (length_dropExactly later) (Nat.le_of_lt (length_read earlier))
    · exact length_skipGroup success
    · exact length_dropExactly success
    · contradiction

theorem length_skipGroup {fuel number : ℕ} {input rest : List UInt8}
    (success : skipGroup fuel number input = some rest) : rest.length ≤ input.length := by
  cases fuel with
  | zero => rw [skipGroup] at success; contradiction
  | succ fuel =>
    rw [skipGroup] at success
    obtain ⟨⟨tag, left⟩, earlier, later⟩ := Option.bind_eq_some_iff.mp success
    dsimp only at later
    split at later
    · cases later
      exact Nat.le_of_lt (length_read earlier)
    · split at later
      · contradiction
      · obtain ⟨middle, skipped, group⟩ := Option.bind_eq_some_iff.mp later
        exact Nat.le_trans (length_skipGroup group)
          (Nat.le_trans (length_skip skipped) (Nat.le_of_lt (length_read earlier)))

end

end Base128

theorem toNat_lt_pow (value : UInt64) : value.toNat < 128 ^ 10 :=
  Nat.lt_trans value.toNat_lt (by decide)

/-- Numbers in one to ten bytes. Of a number that is read, the lowest 64 bits count. -/
def base128 : CodedStream where
  write value := Base128.write 10 value.toNat
  size value := (Base128.write 10 value.toNat).length
  read input := (Base128.read 10 input).map fun (value, rest) => (UInt64.ofNat value, rest)
  skip tag input := Base128.skip (2 * input.length + 2) tag.toNat input
  length_write _ := rfl
  size_le value := Base128.length_write_le 10 value.toNat
  read_write value rest := by
    rw [Base128.read_write (toNat_lt_pow value), Option.map_some]
    exact congrArg (fun number => some (number, rest)) UInt64.ofNat_toNat
  read_nil := rfl
  write_of_lt value small := by
    have bound : value.toNat < 128 := UInt64.lt_iff_toNat_lt.mp small
    rw [Base128.write, if_pos bound]
    rfl
  zero_notMem_write value nonzero :=
    Base128.zero_notMem_write (toNat_lt_pow value) fun zero => nonzero (UInt64.toNat_inj.mp zero)
  length_read := by
    intro input value rest success
    obtain ⟨⟨_, left⟩, earlier, same⟩ := Option.map_eq_some_iff.mp success
    cases same
    exact Base128.length_read earlier
  length_skip success := Base128.length_skip success

end CodedStream
