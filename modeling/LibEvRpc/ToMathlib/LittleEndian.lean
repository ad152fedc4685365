import Mathlib.Data.Nat.Bitwise
import Mathlib.Tactic.Common

/-! # Little-endian 32-bit words

The memory image of a signed 32-bit word on a little-endian machine, and the word read back
from the first four bytes of a buffer. A buffer shorter than a word reads as zero.
-/

namespace LittleEndian

/-- The four bytes of a word, least significant first. -/
def encode (value : Int32) : List UInt8 :=
  let word := value.toUInt32.toNat
  [UInt8.ofNat word, UInt8.ofNat (word / 2 ^ 8), UInt8.ofNat (word / 2 ^ 16),
    UInt8.ofNat (word / 2 ^ 24)]

/-- The word in the first four bytes of a buffer. -/
def decode : List UInt8 → Int32
  | b₀ :: b₁ :: b₂ :: b₃ :: _ =>
      (UInt32.ofNat (b₀.toNat + b₁.toNat * 2 ^ 8 + b₂.toNat * 2 ^ 16 + b₃.toNat * 2 ^ 24)).toInt32
  | _ => 0

@[simp] theorem encode_length (value : Int32) : (encode value).length = 4 := rfl

private theorem assemble (word : ℕ) (bound : word < 2 ^ 32) :
    word % 2 ^ 8 + word / 2 ^ 8 % 2 ^ 8 * 2 ^ 8 + word / 2 ^ 16 % 2 ^ 8 * 2 ^ 16 +
      word / 2 ^ 24 % 2 ^ 8 * 2 ^ 24 = word := by
  omega

/-- A stored word is read back whatever follows it in the buffer. -/
theorem decode_encode_append (value : Int32) (rest : List UInt8) :
    decode (encode value ++ rest) = value := by
  have bound : value.toUInt32.toNat < 2 ^ 32 := value.toUInt32.toNat_lt
  simp only [encode, List.cons_append, List.nil_append, decode, UInt8.toNat_ofNat']
  rw [assemble _ bound, UInt32.ofNat_toNat]
  rfl

theorem decode_encode (value : Int32) : decode (encode value) = value := by
  have stored := decode_encode_append value []
  rwa [List.append_nil] at stored

/-- A word that is read back is stored as the bytes it was read from. -/
theorem encode_decode {buffer : List UInt8} (long : 4 ≤ buffer.length) :
    encode (decode buffer) = buffer.take 4 := by
  obtain ⟨b₀, b₁, b₂, b₃, rest, rfl⟩ : ∃ b₀ b₁ b₂ b₃ rest, buffer = b₀ :: b₁ :: b₂ :: b₃ :: rest := by
    match buffer, long with
    | b₀ :: b₁ :: b₂ :: b₃ :: rest, _ => exact ⟨b₀, b₁, b₂, b₃, rest, rfl⟩
  have low := b₀.toNat_lt
  have second := b₁.toNat_lt
  have third := b₂.toNat_lt
  have high := b₃.toNat_lt
  have word : (decode (b₀ :: b₁ :: b₂ :: b₃ :: rest)).toUInt32.toNat =
      b₀.toNat + b₁.toNat * 2 ^ 8 + b₂.toNat * 2 ^ 16 + b₃.toNat * 2 ^ 24 := by
    change (UInt32.ofNat _).toNat = _
    rw [UInt32.toNat_ofNat']
    omega
  have byte (value : ℕ) (stored : UInt8) (same : value % 2 ^ 8 = stored.toNat) :
      UInt8.ofNat value = stored := by
    rw [← UInt8.toNat_inj, UInt8.toNat_ofNat', same]
  simp only [encode, word, List.take_succ_cons, List.take_zero, List.cons.injEq, and_true]
  refine ⟨byte _ _ ?_, byte _ _ ?_, byte _ _ ?_, byte _ _ ?_⟩
  · omega
  · omega
  · omega
  · omega

/-- Four bytes are known from the word they are read as. -/
theorem eq_of_decode_eq {first second : List UInt8} (whole : first.length = 4)
    (alsoWhole : second.length = 4) (same : decode first = decode second) : first = second := by
  have stored := encode_decode whole.ge
  rw [same, encode_decode alsoWhole.ge, List.take_of_length_le alsoWhole.le,
    List.take_of_length_le whole.le] at stored
  exact stored.symm

end LittleEndian
