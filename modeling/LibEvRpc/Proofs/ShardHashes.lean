import LibEvRpc.Proofs.HashRing

/-! # The ids of one server

Each step of the ring hash can be undone, so two keys of one length that differ in a single word, or
only in the bytes behind the last word, have different hashes. The shards of an address differ in
their last byte: up to the number of bytes they are all different, as long as the length of the key
fits into the 32 bits in which the hash takes it. Beyond that the last byte is not read at all.
-/

namespace LibEvRpc

open Std.ExtTreeMap

/-! ## The ring hash -/

private theorem murMur_mul_injective : Function.Injective fun word : UInt32 => word * 0x5bd1e995 :=
  UInt32.mul_right_injective (show (0xe59b19bd : UInt32) * 0x5bd1e995 = 1 by decide)

theorem murMurMix_injective (k : UInt32) : Function.Injective fun h => murMurMix h k := by
  intro first second same
  exact murMur_mul_injective (UInt32.xor_right_injective _ same)

theorem murMurMix_word_injective (h : UInt32) : Function.Injective (murMurMix h) := by
  intro first second same
  rw [murMurMix, murMurMix, UInt32.xor_comm, UInt32.xor_comm (h * 0x5bd1e995)] at same
  have twice := UInt32.xor_right_injective _ same
  have shifted := murMur_mul_injective twice
  have once := @UInt32.xor_shiftRight_injective 24 (by decide) _ _ shifted
  exact murMur_mul_injective once

private theorem length_lt_of_short {tail : Bytes}
    (short : ∀ a b c d rest, tail = a :: b :: c :: d :: rest → False) : tail.length < 4 := by
  match tail with
  | [] | [_] | [_, _] | [_, _, _] => simp
  | a :: b :: c :: d :: rest => exact absurd rfl (short a b c d rest)

theorem murMurLoop_of_short (h : UInt32) {tail : Bytes} (short : tail.length < 4) :
    murMurLoop h tail = murMurTail h tail := by
  match tail with
  | [] | [_] | [_, _] | [_, _, _] => rfl
  | _ :: _ :: _ :: _ :: _ =>
    simp only [List.length_cons] at short
    omega

/-- The loop goes on from the words in front. -/
theorem murMurLoop_append (h : UInt32) {front : Bytes} (aligned : front.length % 4 = 0) :
    ∃ middle, ∀ rest, murMurLoop h (front ++ rest) = murMurLoop middle rest := by
  induction h, front using murMurLoop.induct with
  | case1 h a b c d front ih =>
    obtain ⟨middle, goesOn⟩ := ih (by
      simp only [List.length_cons] at aligned
      omega)
    exact ⟨middle, fun rest => goesOn rest⟩
  | case2 h tail short =>
    have bound := length_lt_of_short short
    have empty : tail = [] := List.length_eq_zero_iff.mp (by omega)
    rw [empty]
    exact ⟨h, fun _ => rfl⟩

theorem murMurTail_injective (tail : Bytes) : Function.Injective fun h => murMurTail h tail := by
  intro first second same
  match tail, same with
  | [], same => exact same
  | [a], same => exact UInt32.xor_right_injective _ (murMur_mul_injective same)
  | [a, b], same =>
    have once := UInt32.xor_right_injective _ (murMur_mul_injective same)
    exact UInt32.xor_right_injective _ once
  | [a, b, c], same =>
    have once := UInt32.xor_right_injective _ (murMur_mul_injective same)
    have twice := UInt32.xor_right_injective _ once
    exact UInt32.xor_right_injective _ twice
  | _ :: _ :: _ :: _ :: _, same => exact same

theorem murMurLoop_injective (key : Bytes) : Function.Injective fun h => murMurLoop h key := by
  intro first second same
  induction first, key using murMurLoop.induct generalizing second with
  | case1 h a b c d rest ih => exact murMurMix_injective _ (ih same)
  | case2 h tail short =>
    have bound := length_lt_of_short short
    dsimp only at same
    rw [murMurLoop_of_short h bound, murMurLoop_of_short second bound] at same
    exact murMurTail_injective tail same

/-- Keys that differ in one word at most are the same if their hashes are. -/
theorem murMurLoop_word {h : UInt32} {front word other rest : Bytes}
    (aligned : front.length % 4 = 0) (whole : word.length = 4) (alsoWhole : other.length = 4)
    (same : murMurLoop h (front ++ (word ++ rest)) = murMurLoop h (front ++ (other ++ rest))) :
    word = other := by
  obtain ⟨middle, goesOn⟩ := murMurLoop_append h aligned
  rw [goesOn, goesOn] at same
  have mixes {bytes : Bytes} (four : bytes.length = 4) :
      murMurLoop middle (bytes ++ rest) =
        murMurLoop (murMurMix middle (LittleEndian.decode bytes).toUInt32) rest := by
    match bytes, four with
    | [_, _, _, _], _ => rfl
  rw [mixes whole, mixes alsoWhole] at same
  have decoded := murMurMix_word_injective middle (murMurLoop_injective rest same)
  exact LittleEndian.eq_of_decode_eq whole alsoWhole (congrArg UInt32.toInt32 decoded)

private theorem toNat_shift (byte : UInt8) {places : UInt32} (inside : places.toNat ≤ 24) :
    (byte.toUInt32 <<< places).toNat = byte.toNat * 2 ^ places.toNat := by
  have fits : byte.toNat * 2 ^ places.toNat < 2 ^ 32 := calc
    byte.toNat * 2 ^ places.toNat < 2 ^ 8 * 2 ^ places.toNat :=
      Nat.mul_lt_mul_of_pos_right byte.toNat_lt (Nat.two_pow_pos _)
    _ = 2 ^ (8 + places.toNat) := (Nat.pow_add 2 8 _).symm
    _ ≤ 2 ^ 32 := Nat.pow_le_pow_right (by omega) (by omega)
  have amount : places.toNat % 32 = places.toNat := Nat.mod_eq_of_lt (by omega)
  rw [UInt32.toNat_shiftLeft, UInt8.toNat_toUInt32, amount, Nat.shiftLeft_eq, Nat.mod_eq_of_lt fits]

private theorem toNat_byte_lt (byte : UInt8) : byte.toUInt32.toNat < 2 ^ 8 := by
  rw [UInt8.toNat_toUInt32]
  exact byte.toNat_lt

private theorem one_byte {a x : UInt8} (same : a.toUInt32 = x.toUInt32) : a = x := by
  have bytes := congrArg UInt32.toNat same
  rw [UInt8.toNat_toUInt32, UInt8.toNat_toUInt32] at bytes
  exact UInt8.toNat_inj.mp bytes

/-- A byte in front of lower bits, and these, are known from the word they make. -/
private theorem front_byte {a x : UInt8} {places low less : UInt32} (inside : places.toNat ≤ 24)
    (small : low.toNat < 2 ^ places.toNat) (alsoSmall : less.toNat < 2 ^ places.toNat)
    (same : a.toUInt32 <<< places ^^^ low = x.toUInt32 <<< places ^^^ less) : a = x ∧ low = less := by
  have clean (byte : UInt8) : (byte.toUInt32 <<< places).toNat % 2 ^ places.toNat = 0 := by
    rw [toNat_shift byte inside]
    exact Nat.mul_mod_left _ _
  obtain ⟨highs, lows⟩ := UInt32.eq_of_xor_eq (clean a) (clean x) small alsoSmall same
  have bytes := congrArg UInt32.toNat highs
  rw [toNat_shift a inside, toNat_shift x inside] at bytes
  exact ⟨UInt8.toNat_inj.mp (Nat.eq_of_mul_eq_mul_right (Nat.two_pow_pos _) bytes), lows⟩

private theorem two_bytes {a b x y : UInt8}
    (same : b.toUInt32 <<< 8 ^^^ a.toUInt32 = y.toUInt32 <<< 8 ^^^ x.toUInt32) : b = y ∧ a = x := by
  obtain ⟨front, back⟩ := front_byte (by decide) (toNat_byte_lt a) (toNat_byte_lt x) same
  exact ⟨front, one_byte back⟩

private theorem three_bytes {a b c x y z : UInt8}
    (same : c.toUInt32 <<< 16 ^^^ (b.toUInt32 <<< 8 ^^^ a.toUInt32) =
      z.toUInt32 <<< 16 ^^^ (y.toUInt32 <<< 8 ^^^ x.toUInt32)) : c = z ∧ b = y ∧ a = x := by
  have small (byte other : UInt8) : (byte.toUInt32 <<< 8 ^^^ other.toUInt32).toNat < 2 ^ 16 := by
    have shifted := toNat_shift byte (show (8 : UInt32).toNat ≤ 24 by decide)
    have bound := byte.toNat_lt
    have less := toNat_byte_lt other
    rw [UInt32.toNat_xor]
    apply Nat.xor_lt_two_pow
    · rw [shifted, show (8 : UInt32).toNat = 8 by decide]
      omega
    · omega
  obtain ⟨front, back⟩ := front_byte (by decide) (small b a) (small y x) same
  exact ⟨front, two_bytes back⟩

/-- The bytes behind the last word are known from what the `switch` makes of a hash. -/
theorem murMurTail_bytes {h : UInt32} {tail other : Bytes} (short : tail.length < 4)
    (lengths : tail.length = other.length) (same : murMurTail h tail = murMurTail h other) :
    tail = other := by
  match tail, other, lengths, short, same with
  | [], [], _, _, _ => rfl
  | [a], [x], _, _, same =>
    have words := murMur_mul_injective same
    rw [one_byte (UInt32.xor_left_injective h words)]
  | [a, b], [x, y], _, _, same =>
    have words := murMur_mul_injective same
    simp only [UInt32.xor_assoc] at words
    obtain ⟨rfl, rfl⟩ := two_bytes (UInt32.xor_left_injective h words)
    rfl
  | [a, b, c], [x, y, z], _, _, same =>
    have words := murMur_mul_injective same
    simp only [UInt32.xor_assoc] at words
    obtain ⟨rfl, rfl, rfl⟩ := three_bytes (UInt32.xor_left_injective h words)
    rfl
  | _ :: _ :: _ :: _ :: _, _, _, short, _ =>
    simp only [List.length_cons] at short
    omega

/-- The last byte of a key is known from its hash. -/
theorem murMurLoop_last {h : UInt32} {front : Bytes} {last other : UInt8}
    (same : murMurLoop h (front ++ [last]) = murMurLoop h (front ++ [other])) : last = other := by
  set words := front.take (front.length / 4 * 4) with wordsEq
  set rest := front.drop (front.length / 4 * 4) with restEq
  have split : front = words ++ rest := (List.take_append_drop _ _).symm
  have aligned : words.length % 4 = 0 := by
    rw [wordsEq, List.length_take]
    omega
  have short : rest.length < 4 := by
    rw [restEq, List.length_drop]
    omega
  rw [split, List.append_assoc, List.append_assoc] at same
  have ends : rest ++ [last] = rest ++ [other] := by
    by_cases full : rest.length = 3
    · have four (byte : UInt8) : (rest ++ [byte]).length = 4 := by
        rw [List.length_append, full]
        rfl
      rw [← List.append_nil (rest ++ [last]), ← List.append_nil (rest ++ [other])] at same
      exact murMurLoop_word aligned (four last) (four other) same
    · have below (byte : UInt8) : (rest ++ [byte]).length < 4 := by
        rw [List.length_append, List.length_singleton]
        omega
      obtain ⟨middle, goesOn⟩ := murMurLoop_append h aligned
      rw [goesOn, goesOn, murMurLoop_of_short _ (below last), murMurLoop_of_short _ (below other)] at same
      exact murMurTail_bytes (below last) (by simp) same
  simpa using ends

/-- Keys of one length have the same hash only if the loop gives the same. -/
theorem murMurHash2_eq_iff {first second : Bytes} {len : Int32} :
    murMurHash2 first len = murMurHash2 second len ↔
      murMurLoop (97 ^^^ len.toUInt32) (first.take len.toNatClampNeg) =
        murMurLoop (97 ^^^ len.toUInt32) (second.take len.toNatClampNeg) := by
  constructor
  · intro same
    have product := @UInt32.xor_shiftRight_injective 15 (by decide) _ _ same
    have mixed := murMur_mul_injective product
    exact @UInt32.xor_shiftRight_injective 13 (by decide) _ _ mixed
  · intro same
    rw [murMurHash2, murMurHash2, same]

/-! ## The shards of an address -/

/-- The text that `AddRpcServer` hashes, up to its last byte. -/
def shardText (addr : Bytes) : Bytes := [83, 72, 65, 82, 68, 45] ++ addr ++ [45, 78, 79, 68, 69, 45]

/-- The length of the text of a shard fits into the type in which the hash takes it. -/
def KeyFits (addr : Bytes) : Prop := addr.length + 13 < 2 ^ 31

instance : DecidablePred KeyFits := fun _ => inferInstanceAs (Decidable (_ < _))

theorem shardText_length (addr : Bytes) : (shardText addr).length = addr.length + 12 := by
  simp only [shardText, List.length_append, List.length_cons, List.length_nil]
  omega

/-- The last byte of a shard is its number, cut to a `char`. -/
theorem shardHash_eq (addr : Bytes) (i : Nat) :
    shardHash addr (Int32.ofNat i) =
      murMurHash2 (shardText addr ++ [UInt8.ofNat i]) (Int32.ofNat (addr.length + 13)) := by
  have length (byte : UInt8) : (shardText addr ++ [byte]).length = addr.length + 13 := by
    rw [List.length_append, shardText_length, List.length_singleton]
  have cut : (Int32.ofNat i).toInt8.toUInt8 = UInt8.ofNat i := by simp
  change murMurHash2 (shardText addr ++ [(Int32.ofNat i).toInt8.toUInt8])
    (Int32.ofNat (shardText addr ++ [(Int32.ofNat i).toInt8.toUInt8]).length) = _
  rw [cut, length]

/-- As long as the length fits, the ids repeat only when the byte does. -/
theorem shardHash_eq_iff {addr : Bytes} (fits : KeyFits addr) (i j : Nat) :
    shardHash addr (Int32.ofNat i) = shardHash addr (Int32.ofNat j) ↔ i % 256 = j % 256 := by
  have whole (byte : UInt8) :
      (shardText addr ++ [byte]).take (Int32.ofNat (addr.length + 13)).toNatClampNeg =
        shardText addr ++ [byte] := by
    rw [Int32.toNatClampNeg_ofNat_of_lt fits]
    apply List.take_of_length_le
    rw [List.length_append, shardText_length, List.length_singleton]
  have bytes : UInt8.ofNat i = UInt8.ofNat j ↔ i % 256 = j % 256 := by
    rw [← UInt8.toNat_inj, UInt8.toNat_ofNat', UInt8.toNat_ofNat']
  rw [shardHash_eq, shardHash_eq, murMurHash2_eq_iff, whole, whole, ← bytes]
  constructor
  · exact murMurLoop_last
  · intro same
    rw [same]

/-- Beyond that the last byte is not among those the hash reads. -/
theorem shardHash_eq_of_long {addr : Bytes} (long : ¬ KeyFits addr) (i j : Nat) :
    shardHash addr (Int32.ofNat i) = shardHash addr (Int32.ofNat j) := by
  have bound := (Int32.ofNat (addr.length + 13)).toNatClampNeg_lt
  have inside : (Int32.ofNat (addr.length + 13)).toNatClampNeg ≤ (shardText addr).length := by
    rw [KeyFits] at long
    rw [shardText_length]
    omega
  rw [shardHash_eq, shardHash_eq, murMurHash2_eq_iff, List.take_append_of_le_length inside,
    List.take_append_of_le_length inside]

namespace LoadBalancer

/-- The number of different ids the shards of an address can have. -/
def idPeriod (addr : Bytes) : Nat := if KeyFits addr then 256 else 1

theorem shardHash_period (addr : Bytes) (i j : Nat) :
    shardHash addr (Int32.ofNat i) = shardHash addr (Int32.ofNat j) ↔
      i % idPeriod addr = j % idPeriod addr := by
  by_cases fits : KeyFits addr
  · rw [idPeriod, if_pos fits]
    exact shardHash_eq_iff fits i j
  · rw [idPeriod, if_neg fits, Nat.mod_one, Nat.mod_one]
    exact iff_of_true (shardHash_eq_of_long fits i j) rfl

/-- The ring of one server. -/
theorem size_insertShards_empty (count : Int32) (addr : Bytes) :
    (insertShards count addr ∅).size = min count.toNatClampNeg (idPeriod addr) := by
  have positive : 0 < idPeriod addr := by
    rw [idPeriod]
    split
    · omega
    · omega
  have ids : ((shards count addr).map Prod.fst).toFinset =
      (Finset.range count.toNatClampNeg).image fun i => shardHash addr (Int32.ofNat i) := by
    ext id
    simp [shards]
  rw [insertShards_eq_insertAll, size_insertAll_empty, ids]
  exact Finset.card_image_range_of_period positive (shardHash_period addr) _

/-- `AddRpcServer` on an empty ring leaves only virtual nodes of that server: up to 256 of them, and
with ids that differ as their last bytes do, exactly when the length of their text fits into the
type in which the hash takes it. For longer addresses all of them have one id. -/
theorem addRpcServer_empty (count : Int32) (server : RpcClusterServer) :
    (∀ (id : UInt32) (owner : Bytes), (addRpcServer ⟨count, ∅⟩ server).vnMap[id]? = some owner →
      owner = server.clusterServerAddr) ∧
    (addRpcServer ⟨count, ∅⟩ server).vnMap.size =
      min count.toNatClampNeg (if KeyFits server.clusterServerAddr then 256 else 1) ∧
    ((∀ i < 256, ∀ j < 256, shardHash server.clusterServerAddr (Int32.ofNat i) =
        shardHash server.clusterServerAddr (Int32.ofNat j) → i = j) ↔
      KeyFits server.clusterServerAddr) := by
  refine ⟨?_, size_insertShards_empty count _, ?_, ?_⟩
  · intro id owner found
    have ring : (addRpcServer ⟨count, ∅⟩ server).vnMap =
        insertAll (shards count server.clusterServerAddr) ∅ := insertShards_eq_insertAll count _ ∅
    rw [ring] at found
    exact snd_eq_of_mem_shards (mem_of_getElem?_insertAll not_mem_empty found)
  · intro different
    by_contra long
    have same := different 0 (by omega) 1 (by omega) (shardHash_eq_of_long long 0 1)
    contradiction
  · intro fits i first j second same
    have bytes := (shardHash_eq_iff fits i j).mp same
    omega

/-- An address whose text is longer than the hash can take, with two virtual nodes. -/
theorem addRpcServer_empty_long :
    (addRpcServer ⟨2, ∅⟩ { clusterServerAddr := List.replicate (2 ^ 31) 65 }).vnMap.size ≠
      min 2 256 := by
  have long : ¬ KeyFits (List.replicate (2 ^ 31) 65) := by
    rw [KeyFits, List.length_replicate]
    omega
  rw [addRpcServer, size_insertShards_empty, idPeriod, if_neg long]
  decide

end LoadBalancer

end LibEvRpc
