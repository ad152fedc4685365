import LibEvRpc.ToMathlib.WordMixing
import LibEvRpc.Util.Communication
import Mathlib.Data.List.ProdSigma
import Mathlib.Data.List.Perm.Subperm

/-! # Hashes and addresses

`bkdrHash` names a remote method by 31 bits of a C string, whose characters are signed and the
arithmetic is on 32 bits. `murMurHash2` places centers and servers on the hash rings. An address
is the dotted text of four bytes, so it is short and there are at most `2 ^ 32` of them.
-/

namespace LibEvRpc

/-! ## The method hash -/

/-- One character of the loop of `BKDRHash`. -/
def bkdrStep (hashCode : UInt32) (char : UInt8) : UInt32 :=
  hashCode * 1313 + char.toInt8.toInt32.toUInt32

def bkdrHash (origStr : Bytes) : UInt32 :=
  (CString.ofBuffer origStr).foldl bkdrStep 0 &&& 0x7FFFFFFF

/-- The sign bit of a hash is clear. -/
theorem bkdrHash_lt (origStr : Bytes) : (bkdrHash origStr).toNat < 2 ^ 31 := by
  rw [bkdrHash, UInt32.toNat_and]
  exact lt_of_le_of_lt Nat.and_le_right (by decide)

/-- As a transfer id a hash is never negative. -/
theorem bkdrHash_toInt32_nonneg (origStr : Bytes) : ¬ (bkdrHash origStr).toInt32 < 0 := by
  have bound := bkdrHash_lt origStr
  generalize bkdrHash origStr = hash at bound
  rw [Int32.lt_iff_toInt_lt]
  have value : hash.toInt32.toInt = hash.toNat := by
    rw [UInt32.toInt32, Int32.toInt, BitVec.toInt_eq_toNat_of_lt]
    · rfl
    · change 2 * hash.toNat < 2 ^ 32
      omega
  rw [value]
  simp

/-! ## The ring hash -/

/-- The four-byte round of `MurMurHash2`. -/
def murMurMix (h k : UInt32) : UInt32 :=
  let k := k * 0x5bd1e995
  let k := k ^^^ (k >>> 24)
  let k := k * 0x5bd1e995
  h * 0x5bd1e995 ^^^ k

/-- The fall-through `switch` of `MurMurHash2` on the remaining bytes. -/
def murMurTail (h : UInt32) : Bytes → UInt32
  | [a, b, c] => (h ^^^ c.toUInt32 <<< 16 ^^^ b.toUInt32 <<< 8 ^^^ a.toUInt32) * 0x5bd1e995
  | [a, b] => (h ^^^ b.toUInt32 <<< 8 ^^^ a.toUInt32) * 0x5bd1e995
  | [a] => (h ^^^ a.toUInt32) * 0x5bd1e995
  | _ => h

/-- The loop of `MurMurHash2` and the `switch` behind it. -/
def murMurLoop (h : UInt32) : Bytes → UInt32
  | a :: b :: c :: d :: rest =>
      murMurLoop (murMurMix h (LittleEndian.decode [a, b, c, d]).toUInt32) rest
  | tail => murMurTail h tail

def murMurHash2 (keyStr : Bytes) (len : Int32) : UInt32 :=
  let h := murMurLoop (97 ^^^ len.toUInt32) (keyStr.take len.toNatClampNeg)
  let h := h ^^^ (h >>> 13)
  let h := h * 0x5bd1e995
  h ^^^ (h >>> 15)

/-- The constant by which the ring hash multiplies has an inverse. -/
private theorem murMur_mul_surjective :
    Function.Surjective fun word : UInt32 => word * 0x5bd1e995 :=
  UInt32.mul_right_surjective (show (0xe59b19bd : UInt32) * 0x5bd1e995 = 1 by decide)

/-- Every value is the ring hash of some four bytes. -/
theorem murMurHash2_surjective (hash : UInt32) :
    ∃ keyStr : Bytes, murMurHash2 keyStr (Int32.ofNat keyStr.length) = hash := by
  -- the steps of the hash are undone from the last one to the first
  obtain ⟨shifted, rfl⟩ := @UInt32.xor_shiftRight_surjective 15 (by decide) hash
  obtain ⟨product, rfl⟩ := murMur_mul_surjective shifted
  obtain ⟨mixed, rfl⟩ := @UInt32.xor_shiftRight_surjective 13 (by decide) product
  obtain ⟨masked, xored⟩ := UInt32.xor_right_surjective ((97 ^^^ 4) * 0x5bd1e995) mixed
  obtain ⟨twice, rfl⟩ := murMur_mul_surjective masked
  obtain ⟨once, rfl⟩ := @UInt32.xor_shiftRight_surjective 24 (by decide) twice
  obtain ⟨word, rfl⟩ := murMur_mul_surjective once
  refine ⟨LittleEndian.encode word.toInt32, ?_⟩
  have decoded := LittleEndian.decode_encode word.toInt32
  have round : murMurLoop (97 ^^^ 4) (LittleEndian.encode word.toInt32) = mixed := by
    change murMurMix (97 ^^^ 4) (LittleEndian.decode (LittleEndian.encode word.toInt32)).toUInt32 = _
    rw [decoded, ← xored, murMurMix, UInt32.xor_comm]
    rfl
  rw [← round]
  rfl

/-! ## Addresses -/

def decimal (byte : UInt8) : Bytes :=
  if byte < 10 then [48 + byte]
  else if byte < 100 then [48 + byte / 10, 48 + byte % 10]
  else [48 + byte / 100, 48 + byte / 10 % 10, 48 + byte % 10]

/-- The text `inet_ntoa` gives for four bytes of an address. -/
def inetNtoa (address : UInt8 × UInt8 × UInt8 × UInt8) : Bytes :=
  decimal address.1 ++ 46 :: decimal address.2.1 ++ 46 :: decimal address.2.2.1 ++
    46 :: decimal address.2.2.2

theorem decimal_length_le (byte : UInt8) : (decimal byte).length ≤ 3 := by
  unfold decimal
  split
  · simp
  · split <;> simp

theorem inetNtoa_length_le (address : UInt8 × UInt8 × UInt8 × UInt8) :
    (inetNtoa address).length ≤ 15 := by
  have first := decimal_length_le address.1
  have second := decimal_length_le address.2.1
  have third := decimal_length_le address.2.2.1
  have fourth := decimal_length_le address.2.2.2
  simp only [inetNtoa, List.length_append, List.length_cons]
  omega

theorem zero_notMem_decimal (byte : UInt8) : 0 ∉ decimal byte := by
  unfold decimal
  split
  · grind
  · split <;> grind

theorem zero_notMem_inetNtoa (address : UInt8 × UInt8 × UInt8 × UInt8) : 0 ∉ inetNtoa address := by
  simp [inetNtoa, zero_notMem_decimal]

/-- As a C string an address is itself. -/
theorem ofBuffer_inetNtoa (address : UInt8 × UInt8 × UInt8 × UInt8) :
    CString.ofBuffer (inetNtoa address) = inetNtoa address :=
  CString.ofBuffer_eq_self_iff.mpr (zero_notMem_inetNtoa address)

private def allBytes : List UInt8 := (List.range 256).map UInt8.ofNat

private theorem mem_allBytes (byte : UInt8) : byte ∈ allBytes :=
  List.mem_map.mpr ⟨byte.toNat, List.mem_range.mpr byte.toNat_lt, UInt8.ofNat_toNat⟩

/-- There are at most `2 ^ 32` distinct addresses. -/
theorem length_le_of_dotted {addresses : List Bytes} (nodup : addresses.Nodup)
    (dotted : ∀ addr ∈ addresses, ∃ address, addr = inetNtoa address) :
    addresses.length ≤ 2 ^ 32 := by
  have subset : addresses ⊆
      (allBytes ×ˢ (allBytes ×ˢ (allBytes ×ˢ allBytes))).map inetNtoa := by
    intro addr member
    obtain ⟨⟨a, b, c, d⟩, rfl⟩ := dotted addr member
    apply List.mem_map_of_mem
    simp only [List.mem_product, mem_allBytes, and_self]
  have bound := (List.subperm_of_subset nodup subset).length_le
  have count : allBytes.length = 256 := by
    rw [allBytes, List.length_map, List.length_range]
  rwa [List.length_map, List.length_product, List.length_product, List.length_product,
    count] at bound

end LibEvRpc
