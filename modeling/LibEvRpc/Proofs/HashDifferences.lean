import LibEvRpc.Proofs.ShardHashes

/-! # Keys with different hashes

Two keys that differ in one word, or only behind the last word, have different hashes as soon as
they differ in a byte that is read. The length is taken as a signed 32-bit number, and nothing behind
that many bytes is read.
-/

namespace LibEvRpc

/-- The keys are of one length and the same but for one aligned word, or but for the bytes behind
the last word. -/
def DifferInOneGroup (first second : Bytes) : Prop :=
  ∃ front group other rest, first = front ++ group ++ rest ∧ second = front ++ other ++ rest ∧
    front.length % 4 = 0 ∧ group.length = other.length ∧
    (group.length = 4 ∨ group.length < 4 ∧ rest = [])

/-- Two words at the same aligned place of a key. -/
theorem differInOneGroup_of_word {front word other : Bytes} (rest : Bytes)
    (aligned : front.length % 4 = 0) (whole : word.length = 4) (alsoWhole : other.length = 4) :
    DifferInOneGroup (front ++ word ++ rest) (front ++ other ++ rest) :=
  ⟨front, word, other, rest, rfl, rfl, aligned, whole.trans alsoWhole.symm, .inl whole⟩

theorem DifferInOneGroup.length_eq {first second : Bytes} (differ : DifferInOneGroup first second) :
    first.length = second.length := by
  obtain ⟨front, group, other, rest, rfl, rfl, -, lengths, -⟩ := differ
  simp only [List.length_append, lengths]

/-- The first bytes of the keys are the same or differ in one group as well. Those before the last
one read become the bytes behind the last word if it is inside the group. -/
theorem DifferInOneGroup.take {first second : Bytes} (differ : DifferInOneGroup first second)
    (count : ℕ) :
    first.take count = second.take count ∨ DifferInOneGroup (first.take count) (second.take count) := by
  obtain ⟨front, group, other, rest, rfl, rfl, aligned, lengths, size⟩ := differ
  by_cases reached : front.length ≤ count
  · have parts (part : Bytes) : (front ++ part ++ rest).take count =
        front ++ part.take (count - front.length) ++ rest.take (count - (front ++ part).length) := by
      rw [List.take_append, List.take_append, List.take_of_length_le reached]
    have sameLength : (front ++ other).length = (front ++ group).length := by
      rw [List.length_append, List.length_append, lengths]
    right
    rw [parts, parts, sameLength]
    refine ⟨front, _, _, _, rfl, rfl, aligned, ?_, ?_⟩
    · rw [List.length_take, List.length_take, lengths]
    · rw [List.length_take]
      rcases size with whole | ⟨short, rfl⟩
      · by_cases all : 4 ≤ count - front.length
        · left
          omega
        · right
          refine ⟨by omega, ?_⟩
          rw [List.length_append, whole, show count - (front.length + 4) = 0 by omega, List.take_zero]
      · right
        exact ⟨by omega, List.take_nil⟩
  · left
    have inside (part : Bytes) : (front ++ part ++ rest).take count = front.take count := by
      rw [List.append_assoc, List.take_append_of_le_length (by omega)]
    rw [inside, inside]

/-- Keys that differ in one group are the same if the loop gives the same for them. -/
theorem DifferInOneGroup.eq_of_murMurLoop_eq {h : UInt32} {first second : Bytes}
    (differ : DifferInOneGroup first second) (same : murMurLoop h first = murMurLoop h second) :
    first = second := by
  obtain ⟨front, group, other, rest, rfl, rfl, aligned, lengths, whole | ⟨short, rfl⟩⟩ := differ
  · rw [List.append_assoc, List.append_assoc] at same
    rw [murMurLoop_word aligned whole (lengths.symm.trans whole) same]
  · obtain ⟨middle, goesOn⟩ := murMurLoop_append h aligned
    rw [List.append_nil, List.append_nil, goesOn, goesOn, murMurLoop_of_short _ short,
      murMurLoop_of_short _ (lengths ▸ short)] at same
    rw [murMurTail_bytes short lengths same]

/-- Two keys of one length that differ only inside one aligned word, or only behind the last word,
have different hashes exactly when they differ in a byte that the length, taken as a signed 32-bit
number, covers. For lengths below `2 ^ 31` these are all of them. -/
theorem murMurHash2_ne_iff {first second : Bytes} (differ : DifferInOneGroup first second) :
    (murMurHash2 first (Int32.ofNat first.length) ≠ murMurHash2 second (Int32.ofNat second.length) ↔
      first.take (Int32.ofNat first.length).toNatClampNeg ≠
        second.take (Int32.ofNat first.length).toNatClampNeg) ∧
    (first.length < 2 ^ 31 → first ≠ second →
      murMurHash2 first (Int32.ofNat first.length) ≠
        murMurHash2 second (Int32.ofNat second.length)) := by
  have lengths := differ.length_eq
  have exact : murMurHash2 first (Int32.ofNat first.length) ≠
        murMurHash2 second (Int32.ofNat second.length) ↔
      first.take (Int32.ofNat first.length).toNatClampNeg ≠
        second.take (Int32.ofNat first.length).toNatClampNeg := by
    rw [← lengths, Ne, murMurHash2_eq_iff, not_iff_not]
    constructor
    · intro same
      rcases differ.take (Int32.ofNat first.length).toNatClampNeg with equal | part
      · exact equal
      · exact part.eq_of_murMurLoop_eq same
    · intro same
      rw [same]
  refine ⟨exact, fun fits different => exact.mpr ?_⟩
  rw [Int32.toNatClampNeg_ofNat_of_lt fits, List.take_length, lengths, List.take_length]
  exact different

/-- Two keys of five bytes that differ in their third byte. -/
theorem murMurHash2_ne_sample :
    murMurHash2 [97, 98, 99, 100, 101] 5 ≠ murMurHash2 [97, 98, 0, 100, 101] 5 := by
  have differ : DifferInOneGroup [97, 98, 99, 100, 101] [97, 98, 0, 100, 101] :=
    @differInOneGroup_of_word [] [97, 98, 99, 100] [97, 98, 0, 100] [101] rfl rfl rfl
  have small : ([97, 98, 99, 100, 101] : Bytes).length < 2 ^ 31 := by decide
  exact (murMurHash2_ne_iff differ).2 small (by decide)

/-- For two keys of `2 ^ 31` bytes that differ in their first byte, the length is negative as a
signed 32-bit number, and no byte is read. -/
theorem murMurHash2_eq_of_long :
    ¬ ∀ first second : Bytes, DifferInOneGroup first second → first ≠ second →
      murMurHash2 first (Int32.ofNat first.length) ≠
        murMurHash2 second (Int32.ofNat second.length) := by
  intro different
  obtain ⟨rest, length⟩ : ∃ rest : Bytes, rest.length = 2 ^ 31 - 4 :=
    ⟨List.replicate (2 ^ 31 - 4) 0, List.length_replicate⟩
  have size (byte : UInt8) : ([byte, 0, 0, 0] ++ rest).length = 2 ^ 31 := by
    rw [List.length_append, length, List.length_cons, List.length_cons, List.length_cons,
      List.length_singleton]
    omega
  have unread : (Int32.ofNat (2 ^ 31)).toNatClampNeg = 0 := by decide
  have group := @differInOneGroup_of_word [] [0, 0, 0, 0] [1, 0, 0, 0] rest rfl rfl rfl
  apply different ([0, 0, 0, 0] ++ rest) ([1, 0, 0, 0] ++ rest) group (by simp)
  rw [size, size, murMurHash2_eq_iff, unread, List.take_zero, List.take_zero]

end LibEvRpc
