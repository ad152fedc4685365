import Mathlib.Data.Fintype.EquivFin
import Mathlib.Tactic.Linarith

/-! # Mixing steps of word hashes

A multiplication by a word that has an inverse, an exclusive or with a fixed word and an exclusive
or of a word with its own right shift all reach every word, and so none of them maps two words to
one.
-/

/-- The high bits of a word are those of its xor shift, and each lower bit follows from a higher one. -/
theorem BitVec.xor_ushiftRight_injective {width shift : ℕ} (positive : 0 < shift) :
    Function.Injective fun word : BitVec width => word ^^^ (word >>> shift) := by
  intro first second same
  have bits (missing : ℕ) : ∀ index, width ≤ index + missing →
      first.getLsbD index = second.getLsbD index := by
    induction missing with
    | zero =>
      intro index high
      rw [getLsbD_of_ge first index high, getLsbD_of_ge second index high]
    | succ missing ih =>
      intro index high
      have shifted : first.getLsbD (shift + index) = second.getLsbD (shift + index) :=
        ih (shift + index) (by omega)
      have mixed := congrArg (fun word : BitVec width => word.getLsbD index) same
      simp only [getLsbD_xor, getLsbD_ushiftRight] at mixed
      rw [shifted] at mixed
      exact Bool.xor_left_inj.mp mixed
  apply eq_of_getLsbD_eq
  intro index _
  exact bits width index (Nat.le_add_left width index)

namespace UInt32

theorem xor_right_surjective (mask : UInt32) : Function.Surjective fun word : UInt32 => word ^^^ mask := by
  intro value
  exact ⟨value ^^^ mask, by dsimp only; rw [UInt32.xor_assoc, UInt32.xor_self, UInt32.xor_zero]⟩

theorem mul_right_surjective {factor inverse : UInt32} (unit : inverse * factor = 1) :
    Function.Surjective fun word : UInt32 => word * factor := by
  intro value
  exact ⟨value * inverse, by dsimp only; rw [UInt32.mul_assoc, unit, UInt32.mul_one]⟩

instance finite : Finite UInt32 :=
  Finite.of_injective UInt32.toFin fun _ _ same => UInt32.toFin_inj.mp same

theorem xor_shiftRight_surjective {shift : UInt32} (positive : 0 < shift.toNat % 32) :
    Function.Surjective fun word : UInt32 => word ^^^ (word >>> shift) := by
  have finite : Finite (BitVec 32) :=
    Finite.of_injective BitVec.toFin fun _ _ same => congrArg BitVec.ofFin same
  have onto := Finite.injective_iff_surjective.mp
    (@BitVec.xor_ushiftRight_injective 32 (shift.toNat % 32) positive)
  intro value
  obtain ⟨bits, mixed⟩ := onto value.toBitVec
  refine ⟨⟨bits⟩, UInt32.toBitVec_inj.mp ?_⟩
  rw [UInt32.toBitVec_xor, UInt32.toBitVec_shiftRight]
  exact mixed

theorem xor_right_injective (mask : UInt32) : Function.Injective fun word : UInt32 => word ^^^ mask :=
  Finite.injective_iff_surjective.mpr (xor_right_surjective mask)

theorem xor_left_injective (mask : UInt32) : Function.Injective fun word : UInt32 => mask ^^^ word := by
  intro first second same
  dsimp only at same
  rw [UInt32.xor_comm mask, UInt32.xor_comm mask] at same
  exact xor_right_injective mask same

theorem mul_right_injective {factor inverse : UInt32} (unit : inverse * factor = 1) :
    Function.Injective fun word : UInt32 => word * factor :=
  Finite.injective_iff_surjective.mpr (mul_right_surjective unit)

theorem xor_shiftRight_injective {shift : UInt32} (positive : 0 < shift.toNat % 32) :
    Function.Injective fun word : UInt32 => word ^^^ (word >>> shift) :=
  Finite.injective_iff_surjective.mpr (xor_shiftRight_surjective positive)

/-- A word without low bits and a word with low bits only are known from their exclusive or. -/
theorem eq_of_xor_eq {width : ℕ} {high other low less : UInt32} (clean : high.toNat % 2 ^ width = 0)
    (alsoClean : other.toNat % 2 ^ width = 0) (small : low.toNat < 2 ^ width)
    (alsoSmall : less.toNat < 2 ^ width) (same : high ^^^ low = other ^^^ less) :
    high = other ∧ low = less := by
  have lows : low = less := by
    have bits := congrArg (fun word : UInt32 => word.toNat % 2 ^ width) same
    simp only [UInt32.toNat_xor, Nat.xor_mod_two_pow, clean, alsoClean, Nat.zero_xor,
      Nat.mod_eq_of_lt small, Nat.mod_eq_of_lt alsoSmall] at bits
    exact UInt32.toNat_inj.mp bits
  rw [lows] at same
  exact ⟨xor_right_injective less same, lows⟩

end UInt32
