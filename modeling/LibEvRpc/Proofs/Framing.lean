import LibEvRpc.Util.Communication
import LibEvRpc.ToMathlib.ListSlices
import Mathlib.Algebra.Order.BigOperators.Group.List
import Mathlib.Algebra.Order.Ring.Nat

/-! # Exactly which messages the framing carries

A message survives `rpcSend` and `rpcRecv` on whole blocks exactly when it has no NUL byte, its
length is not a multiple of 511 and its last block starts below 2^31. Without a NUL the scan of
each body finds all of its bytes; with a remainder there is a last block to stop at; and the
32-bit offset reaches the bytes it names. One message outside these limits breaks the sequence.
-/

namespace LibEvRpc

/-- The strings that one message can carry. -/
def Framable (info : Bytes) : Prop :=
  0 ∉ info ∧ info.length % 511 ≠ 0 ∧ info.length / 511 * 511 < 2 ^ 31

instance (info : Bytes) : Decidable (Framable info) := inferInstanceAs (Decidable (_ ∧ _ ∧ _))

/-! ## Copies and counters in 32-bit arithmetic -/

theorem blockNum_sub_one (count : ℕ) : Int32.ofNat (count + 1) - 1 = Int32.ofNat count := by
  simp

theorem ofNat_mul_511 (count : ℕ) : Int32.ofNat count * 511 = Int32.ofNat (count * 511) := by
  simp

private theorem toNatClampNeg_ofNat_le (count : ℕ) : (Int32.ofNat count).toNatClampNeg ≤ count := by
  rw [← Int32.toNat_toInt, Int32.toInt_ofNat', Int.bmod_def]
  simp only [Int32.size]
  split <;> omega

private theorem not_ofNat_neg {count : ℕ} (bound : count < 2 ^ 31) : ¬ Int32.ofNat count < 0 := by
  rw [Int32.lt_iff_toInt_lt, Int32.toInt_ofNat_of_lt bound]
  simp

private theorem not_zero_le_ofNat {count : ℕ} (low : 2 ^ 31 ≤ count) (high : count < 2 ^ 32) :
    ¬ 0 ≤ Int32.ofNat count := by
  rw [Int32.le_iff_toInt_le, Int32.toInt_ofNat', Int.bmod_def]
  simp only [Int32.size, Int32.toInt_zero]
  split <;> omega

private theorem toNatClampNeg_lt (value : Int32) : value.toNatClampNeg < 2 ^ 31 := by
  have bound := value.toInt_lt
  rw [← Int32.toNat_toInt]
  omega

theorem memcpy?_ofNat {source : Bytes} {offset count : ℕ} (bound : offset < 2 ^ 31)
    (inside : offset + count ≤ source.length) :
    memcpy? source (Int32.ofNat offset) count = some ((source.drop offset).take count) := by
  have start : (Int32.ofNat offset).toNatClampNeg = offset :=
    Int32.toNatClampNeg_ofNat_of_lt bound
  have nonneg : 0 ≤ Int32.ofNat offset := Int32.not_lt.mp (not_ofNat_neg bound)
  rw [memcpy?, start, if_pos ⟨nonneg, inside⟩]

/-- A copy has the length asked for, and only bytes of its source. -/
theorem memcpy?_eq_some {source content : Bytes} {offset : Int32} {count : ℕ}
    (success : memcpy? source offset count = some content) :
    0 ≤ offset ∧ content.length = count ∧ content ⊆ source := by
  unfold memcpy? at success
  split at success
  · next inside =>
    cases success
    refine ⟨inside.1, ?_, fun _ member => List.mem_of_mem_drop (List.mem_of_mem_take member)⟩
    rw [List.length_take, List.length_drop]
    omega
  · contradiction

/-! ## The blocks of one message -/

/-- A full piece of a message: the code of its block and its 511 bytes. -/
structure FullPiece (info : Bytes) where
  code : Int32
  content : Bytes
  code_nonneg : ¬ code < 0
  content_length : content.length = 511
  content_subset : content ⊆ info

namespace FullPiece

variable {info : Bytes}

def block (piece : FullPiece info) : MetaData := .make piece.code piece.content

end FullPiece

/-- The loop sends the full blocks of its indices in order, each copied from inside the string. -/
private theorem sendLoop_allSent {info : Bytes} {indices : List ℕ} {before after : List MetaData}
    {ok : Bool} (small : ∀ i ∈ indices, i < 2 ^ 31)
    (success : sendLoop allSent info indices before = some (after, ok)) :
    ok = true ∧ (∀ i ∈ indices, 0 ≤ Int32.ofNat (i * 511)) ∧
      ∃ pieces : List (FullPiece info), pieces.length = indices.length ∧
        after = before ++ pieces.map FullPiece.block := by
  induction indices generalizing before with
  | nil =>
    cases success
    exact ⟨rfl, by simp, [], rfl, by simp⟩
  | cons i rest ih =>
    obtain ⟨block, made, success⟩ := Option.bind_eq_some_iff.mp success
    obtain ⟨content, copied, rfl⟩ := Option.map_eq_some_iff.mp made
    obtain ⟨start, length, subset⟩ := memcpy?_eq_some copied
    obtain ⟨done, starts, pieces, count, rfl⟩ :=
      ih (fun j member => small j (List.mem_cons_of_mem _ member)) success
    refine ⟨done, ?_, ⟨Int32.ofNat i, content, not_ofNat_neg (small i List.mem_cons_self),
      length, subset⟩ :: pieces, by simp [count], by simp [FullPiece.block]⟩
    intro j member
    rcases List.mem_cons.mp member with rfl | later
    · rwa [ofNat_mul_511] at start
    · exact starts j later

/-- The code at the end of a message, with id 0 renumbered to 1. -/
def endCode (transferId : Int32) : Int32 := -1 * if transferId = 0 then 1 else transferId

theorem endCode_neg {transferId : Int32} (valid : ¬ transferId < 0) : endCode transferId < 0 := by
  unfold endCode
  split <;> grind

theorem endCode_mul_neg_one {transferId : Int32} (nonzero : transferId ≠ 0) :
    endCode transferId * -1 = transferId := by
  rw [endCode, if_neg nonzero]
  grind

/-- What a message that could be sent looks like on the connection: full blocks for at most all
of its full pieces, and one last block exactly when a remainder is left. -/
theorem rpcSend_shape {transferId : Int32} {info : Bytes} {needClosed : Bool} {sent : Sent}
    (valid : ¬ transferId < 0)
    (success : rpcSend allSent transferId info needClosed = some sent) :
    ∃ pieces : List (FullPiece info), pieces.length ≤ info.length / 511 ∧
      (info.length % 511 = 0 ∧ sent.blocks = pieces.map FullPiece.block ∨
        ∃ last : Bytes, last.length = info.length % 511 ∧ 0 < last.length ∧ last ⊆ info ∧
          sent.blocks = pieces.map FullPiece.block ++ [.make (endCode transferId) last] ∧
          (pieces.length = info.length / 511 → info.length / 511 * 511 < 2 ^ 31)) := by
  rw [rpcSend, if_neg valid] at success
  simp only [blockNum_sub_one] at success
  obtain ⟨⟨full, ok⟩, looped, success⟩ := Option.bind_eq_some_iff.mp success
  set count := (Int32.ofNat (info.length / 511)).toNatClampNeg with countEq
  have countLe : count ≤ info.length / 511 := toNatClampNeg_ofNat_le _
  obtain ⟨rfl, starts, pieces, piecesLength, rfl⟩ := sendLoop_allSent
    (fun i member => (List.mem_range.mp member).trans (toNatClampNeg_lt _)) looped
  rw [List.length_range] at piecesLength
  refine ⟨pieces, piecesLength.trans_le countLe, ?_⟩
  by_cases remainder : info.length % 511 = 0
  · refine Or.inl ⟨remainder, ?_⟩
    simp only [remainder, ne_eq, not_true_eq_false, ↓reduceIte, Option.some.injEq] at success
    rw [← success, List.nil_append]
  · simp only [remainder, ne_eq, not_false_eq_true, ↓reduceIte] at success
    obtain ⟨block, made, success⟩ := Option.bind_eq_some_iff.mp success
    obtain ⟨last, copied, rfl⟩ := Option.map_eq_some_iff.mp made
    obtain ⟨start, length, subset⟩ := memcpy?_eq_some copied
    simp only [allSent, ↓reduceIte, Option.some.injEq] at success
    refine Or.inr ⟨last, length, by omega, subset, by rw [← success]; rfl, ?_⟩
    -- the first index whose offset leaves the 32-bit range is 4202513, in the loop or after it
    intro all
    by_contra large
    rw [blockNum_sub_one, ofNat_mul_511] at start
    rcases Nat.lt_or_ge 4202513 (info.length / 511) with inLoop | atEnd
    · exact not_zero_le_ofNat (by decide) (by decide)
        (starts 4202513 (List.mem_range.mpr (by omega)))
    · exact not_zero_le_ofNat (by omega) (by omega) start

/-- The `i`-th slice of a string inside the limits, under its code. -/
def fullPiece (info : Bytes) (framable : Framable info) (i : Fin (info.length / 511)) :
    FullPiece info where
  code := Int32.ofNat i
  content := (info.drop (i * 511)).take 511
  code_nonneg := not_ofNat_neg (by have := framable.2.2; omega)
  content_length := by rw [List.length_take, List.length_drop]; omega
  content_subset _ member := List.mem_of_mem_drop (List.mem_of_mem_take member)

def fullPieces (info : Bytes) (framable : Framable info) : List (FullPiece info) :=
  (List.finRange (info.length / 511)).map (fullPiece info framable)

theorem fullPieces_content (info : Bytes) (framable : Framable info) :
    (fullPieces info framable).map FullPiece.content =
      (List.range (info.length / 511)).map fun i => (info.drop (i * 511)).take 511 := by
  apply List.ext_getElem
  · simp [fullPieces]
  · intro index _ _
    simp [fullPieces, fullPiece]

/-- The last piece starts where the full ones end. -/
def lastPiece (info : Bytes) : Bytes := info.drop (info.length / 511 * 511)

/-- The pieces of a message tile it. -/
theorem pieces_tile (info : Bytes) (framable : Framable info) :
    (fullPieces info framable).flatMap FullPiece.content ++ lastPiece info = info := by
  rw [List.flatMap_def, fullPieces_content, ← List.flatMap_def]
  exact List.flatMap_slices_append_drop 511 _ info (Nat.div_mul_le_self _ _)

private theorem fullBlock?_framable {info : Bytes} (framable : Framable info)
    (i : Fin (info.length / 511)) :
    fullBlock? info i = some (fullPiece info framable i).block := by
  have offset : (i : ℕ) * 511 < 2 ^ 31 :=
    lt_of_le_of_lt (Nat.mul_le_mul_right 511 i.isLt.le) framable.2.2
  have covered : (i : ℕ) * 511 + 511 ≤ info.length := by omega
  rw [fullBlock?, ofNat_mul_511, memcpy?_ofNat offset covered, Option.map_some]
  rfl

private theorem sendLoop_framable {info : Bytes} (framable : Framable info)
    (indices : List (Fin (info.length / 511))) (before : List MetaData) :
    sendLoop allSent info (indices.map Fin.val) before =
      some (before ++ indices.map fun i => (fullPiece info framable i).block, true) := by
  induction indices generalizing before with
  | nil => simp [sendLoop]
  | cons i rest ih =>
    have accepted : allSent before.length = true := rfl
    rw [List.map_cons, sendLoop, fullBlock?_framable framable i, Option.bind_some,
      if_pos accepted, ih, List.map_cons, List.append_assoc, List.singleton_append]

/-- A message inside the limits is sent, as the blocks of its pieces. -/
theorem rpcSend_framable {transferId : Int32} {info : Bytes} (needClosed : Bool)
    (valid : ¬ transferId < 0) (framable : Framable info) :
    rpcSend allSent transferId info needClosed = some
      ⟨(fullPieces info framable).map FullPiece.block ++ [.make (endCode transferId) (lastPiece info)],
        needClosed.toNat, 0⟩ := by
  have count : (Int32.ofNat (info.length / 511)).toNatClampNeg = info.length / 511 :=
    Int32.toNatClampNeg_ofNat_of_lt (by have := framable.2.2; omega)
  have last : lastBlock? (if transferId = 0 then 1 else transferId) info
      (Int32.ofNat (info.length / 511 + 1)) =
        some (.make (endCode transferId) (lastPiece info)) := by
    rw [lastBlock?, blockNum_sub_one, ofNat_mul_511, memcpy?_ofNat framable.2.2 (by omega),
      List.take_of_length_le (by rw [List.length_drop]; omega)]
    rfl
  rw [rpcSend, if_neg valid]
  simp only [blockNum_sub_one, count, ← List.map_coe_finRange_eq_range, sendLoop_framable framable,
    last, Option.bind_some, List.nil_append, ne_eq, framable.2.1, not_false_eq_true, ↓reduceIte,
    allSent, fullPieces, List.map_map, Function.comp_def]

/-! ## Sending when a `send` may fail -/

/-- The number of blocks a message is cut into. -/
def blockCount (info : Bytes) : ℕ := info.length / 511 + if info.length % 511 ≠ 0 then 1 else 0

private theorem fullBlock?_inside {info : Bytes} {i : ℕ} (small : info.length < 2 ^ 31)
    (inside : i < info.length / 511) : ∃ block, fullBlock? info i = some block := by
  have offset : i * 511 < 2 ^ 31 := by omega
  have covered : i * 511 + 511 ≤ info.length := by omega
  rw [fullBlock?, ofNat_mul_511, memcpy?_ofNat offset covered]
  exact ⟨_, rfl⟩

/-- The loop succeeds exactly when each of its calls of `send` does. -/
private theorem sendLoop_ok {send : ℕ → Bool} {info : Bytes} {indices : List ℕ}
    {before after : List MetaData} {ok : Bool}
    (success : sendLoop send info indices before = some (after, ok)) :
    (ok = true ↔ ∀ k < indices.length, send (before.length + k) = true) ∧
      (ok = true → after.length = before.length + indices.length) := by
  induction indices generalizing before with
  | nil =>
    cases success
    exact ⟨by simp, fun _ => rfl⟩
  | cons i rest ih =>
    obtain ⟨block, _, success⟩ := Option.bind_eq_some_iff.mp success
    cases outcome : send before.length with
    | false =>
      rw [outcome] at success
      cases success
      refine ⟨?_, by simp⟩
      constructor
      · intro contradictory
        contradiction
      · intro all
        rw [← outcome]
        exact all 0 (Nat.succ_pos _)
    | true =>
      rw [outcome] at success
      obtain ⟨sent, length⟩ := ih success
      rw [List.length_append, List.length_singleton] at sent length
      refine ⟨?_, fun done => ?_⟩
      · rw [sent, List.length_cons, Nat.forall_lt_succ_left]
        simp only [Nat.add_zero, outcome, true_and, Nat.add_assoc, Nat.add_comm 1]
      · rw [length done, List.length_cons]
        omega

/-- The loop stays inside a string whose offsets fit. -/
private theorem sendLoop_isSome (send : ℕ → Bool) {info : Bytes} {indices : List ℕ}
    (before : List MetaData) (small : info.length < 2 ^ 31)
    (inside : ∀ i ∈ indices, i < info.length / 511) :
    ∃ after ok, sendLoop send info indices before = some (after, ok) := by
  induction indices generalizing before with
  | nil => exact ⟨before, true, rfl⟩
  | cons i rest ih =>
    obtain ⟨block, made⟩ := fullBlock?_inside small (inside i List.mem_cons_self)
    rw [sendLoop, made, Option.bind_some]
    cases send before.length with
    | false => exact ⟨before, false, rfl⟩
    | true => exact ih (before ++ [block]) fun j member => inside j (List.mem_cons_of_mem i member)

private theorem lastBlock?_inside (transferId : Int32) {info : Bytes}
    (small : info.length < 2 ^ 31) :
    ∃ block, lastBlock? transferId info (Int32.ofNat (info.length / 511 + 1)) = some block := by
  rw [lastBlock?, blockNum_sub_one, ofNat_mul_511, memcpy?_ofNat (by omega) (by omega)]
  exact ⟨_, rfl⟩

/-- The number of calls of `send` that `RpcSend` makes for a message unless one fails. -/
def sendCount (info : Bytes) : ℕ :=
  (Int32.ofNat (info.length / 511 + 1) - 1).toNatClampNeg + if info.length % 511 ≠ 0 then 1 else 0

theorem sendCount_eq_blockCount {info : Bytes} (small : info.length < 2 ^ 31) :
    sendCount info = blockCount info := by
  rw [sendCount, blockCount, blockNum_sub_one, Int32.toNatClampNeg_ofNat_of_lt (by omega)]

/-- A call of `RpcSend` fails exactly when one of its calls of `send` does, and then it closes the
descriptor. -/
theorem rpcSend_of_some {send : ℕ → Bool} {transferId : Int32} {info : Bytes} {needClosed : Bool}
    {sent : Sent} (valid : ¬ transferId < 0)
    (success : rpcSend send transferId info needClosed = some sent) :
    (sent.ret < 0 ↔ ∃ k < sendCount info, send k = false) ∧
      sent.closes = if sent.ret < 0 then 1 else needClosed.toNat := by
  rw [rpcSend, if_neg valid] at success
  obtain ⟨⟨after, ok⟩, looped, success⟩ := Option.bind_eq_some_iff.mp success
  obtain ⟨sending, length⟩ := sendLoop_ok looped
  simp only [List.length_range, List.length_nil, Nat.zero_add] at sending length
  have failure : (-1 : Int32) < 0 := by decide
  have done : ¬ (0 : Int32) < 0 := by decide
  cases ok with
  | false =>
    cases success
    refine ⟨iff_of_true failure ?_, (if_pos failure).symm⟩
    by_contra none
    refine Bool.false_ne_true (sending.mpr fun k bound => ?_)
    by_contra failed
    refine none ⟨k, ?_, Bool.eq_false_iff.mpr failed⟩
    rw [sendCount]
    omega
  | true =>
    have all : ¬ ∃ k < (Int32.ofNat (info.length / 511 + 1) - 1).toNatClampNeg, send k = false := by
      rintro ⟨k, bound, failed⟩
      rw [sending.mp rfl k bound] at failed
      contradiction
    dsimp only at success
    rw [if_pos rfl] at success
    by_cases remainder : info.length % 511 ≠ 0
    · rw [if_pos remainder] at success
      obtain ⟨block, _, success⟩ := Option.bind_eq_some_iff.mp success
      rw [length rfl] at success
      rw [sendCount, if_pos remainder]
      simp only [Nat.exists_lt_succ_right, all, false_or]
      cases outcome : send (Int32.ofNat (info.length / 511 + 1) - 1).toNatClampNeg with
      | false =>
        rw [outcome] at success
        cases success
        exact ⟨iff_of_true failure rfl, (if_pos failure).symm⟩
      | true =>
        rw [outcome] at success
        cases success
        exact ⟨iff_of_false done (by simp), (if_neg done).symm⟩
    · rw [if_neg remainder] at success
      cases success
      rw [sendCount, if_neg remainder]
      exact ⟨iff_of_false done all, (if_neg done).symm⟩

theorem rpcSend_isSome (send : ℕ → Bool) {transferId : Int32} {info : Bytes} (needClosed : Bool)
    (valid : ¬ transferId < 0) (small : info.length < 2 ^ 31) :
    ∃ sent, rpcSend send transferId info needClosed = some sent := by
  have count : (Int32.ofNat (info.length / 511)).toNatClampNeg = info.length / 511 :=
    Int32.toNatClampNeg_ofNat_of_lt (by omega)
  obtain ⟨after, ok, looped⟩ := sendLoop_isSome send [] small fun i member => List.mem_range.mp member
  rw [rpcSend, if_neg valid]
  simp only [blockNum_sub_one, count, looped, Option.bind_some]
  cases ok with
  | false => exact ⟨_, rfl⟩
  | true =>
    rw [if_pos rfl]
    split
    · obtain ⟨block, made⟩ := lastBlock?_inside (if transferId = 0 then 1 else transferId) small
      rw [made, Option.bind_some]
      cases send after.length with
      | false => exact ⟨_, rfl⟩
      | true => exact ⟨_, rfl⟩
    · exact ⟨_, rfl⟩

/-- `RpcSend` fails exactly when one of its calls of `send` does. -/
theorem rpcSend_fails_iff (send : ℕ → Bool) {transferId : Int32} {info : Bytes} (needClosed : Bool)
    (valid : ¬ transferId < 0) (small : info.length < 2 ^ 31) :
    ∃ sent, rpcSend send transferId info needClosed = some sent ∧
      (sent.ret < 0 ↔ ∃ k < blockCount info, send k = false) := by
  obtain ⟨sent, success⟩ := rpcSend_isSome send needClosed valid small
  refine ⟨sent, success, ?_⟩
  rw [(rpcSend_of_some valid success).1, sendCount_eq_blockCount small]

private theorem sendLoop_of_ok {send : ℕ → Bool} {info : Bytes} {indices : List ℕ}
    {before after : List MetaData} (success : sendLoop send info indices before = some (after, true)) :
    sendLoop allSent info indices before = some (after, true) := by
  induction indices generalizing before with
  | nil => exact success
  | cons i rest ih =>
    obtain ⟨block, made, success⟩ := Option.bind_eq_some_iff.mp success
    split at success
    · rw [sendLoop, made, Option.bind_some, allSent, if_pos rfl]
      exact ih success
    · cases success

/-- A call of `RpcSend` that does not fail does what it does when every `send` succeeds. -/
theorem rpcSend_allSent {send : ℕ → Bool} {transferId : Int32} {info : Bytes} {needClosed : Bool}
    {sent : Sent} (valid : ¬ transferId < 0) (done : ¬ sent.ret < 0)
    (success : rpcSend send transferId info needClosed = some sent) :
    rpcSend allSent transferId info needClosed = some sent := by
  rw [rpcSend, if_neg valid] at success ⊢
  dsimp only
  obtain ⟨⟨full, ok⟩, looped, success⟩ := Option.bind_eq_some_iff.mp success
  cases ok with
  | false =>
    cases success
    exact absurd (show (-1 : Int32) < 0 by decide) done
  | true =>
    rw [sendLoop_of_ok looped, Option.bind_some]
    dsimp only at success ⊢
    rw [if_pos rfl] at success ⊢
    split at success
    · next remainder =>
      obtain ⟨block, made, success⟩ := Option.bind_eq_some_iff.mp success
      rw [if_pos remainder, made, Option.bind_some, allSent, if_pos rfl]
      split at success
      · exact success
      · cases success
        exact absurd (show (-1 : Int32) < 0 by decide) done
    · next whole =>
      rw [if_neg whole]
      exact success

/-- A string of less than a block is sent in one block, or not at all. -/
theorem rpcSend_short (send : ℕ → Bool) {transferId : Int32} {info : Bytes} (positive : 0 < transferId)
    (nonempty : info ≠ []) (short : info.length < 511) :
    rpcSend send transferId info false =
      some (if send 0 then ⟨[.make (endCode transferId) info], 0, 0⟩ else ⟨[], 1, -1⟩) := by
  have valid : ¬ transferId < 0 := Int32.not_lt.mpr (Int32.le_of_lt positive)
  have count : info.length / 511 = 0 := Nat.div_eq_of_lt short
  have remainder : info.length % 511 ≠ 0 := by
    rw [Nat.mod_eq_of_lt short]
    exact List.length_eq_zero_iff.not.mpr nonempty
  have last : lastBlock? transferId info 1 = some (.make (endCode transferId) info) := by
    have copied : memcpy? info (Int32.ofNat 0) info.length = some info := by
      rw [memcpy?_ofNat (by decide) (by omega), List.drop_zero, List.take_length]
    rw [lastBlock?, Nat.mod_eq_of_lt short, endCode, if_neg (Int32.ne_of_lt positive).symm]
    exact congrArg (Option.map _) copied
  rw [rpcSend, if_neg valid, if_neg (Int32.ne_of_lt positive).symm, count]
  change (Option.bind (some ([], true)) _) = _
  rw [Option.bind_some]
  dsimp only
  rw [if_pos rfl, if_pos remainder]
  change (lastBlock? transferId info 1).bind _ = _
  rw [last, Option.bind_some, List.length_nil, List.nil_append]
  cases send 0 <;> rfl

/-! ## Decoding whole blocks -/

theorem rpcRecv_block (needClosed : Bool) (code : Int32) {content : Bytes} (info : Bytes)
    (rest : List RecvEvent) (short : content.length < bodySize) :
    rpcRecv needClosed (.data (MetaData.make code content).chunk :: rest) info =
      if code < 0 then
        some ⟨code * -1, info ++ CString.ofBuffer content, needClosed.toNat, rest⟩
      else rpcRecv needClosed rest (info ++ CString.ofBuffer content) := by
  have seen : MetaData.ofReceived (MetaData.make code content).chunk.bytes = .make code content :=
    MetaData.ofReceived_bytes _
  rw [rpcRecv, seen, MetaData.strlen?_make code short, Option.bind_some,
    ← MetaData.ofBuffer_make code short, CString.take_ofBuffer_length]
  rfl

/-- Blocks with a code from zero on only add the strings in their bodies. -/
theorem rpcRecv_full (needClosed : Bool) {source : Bytes} (pieces : List (FullPiece source))
    (rest : List RecvEvent) (info : Bytes) :
    rpcRecv needClosed (wholeBlocks (pieces.map FullPiece.block) ++ rest) info =
      rpcRecv needClosed rest
        (info ++ pieces.flatMap fun piece => CString.ofBuffer piece.content) := by
  induction pieces generalizing info with
  | nil => simp [wholeBlocks]
  | cons piece pieces ih =>
    have short : piece.content.length < bodySize := by
      rw [piece.content_length]
      decide
    change rpcRecv needClosed (.data piece.block.chunk ::
      (wholeBlocks (pieces.map FullPiece.block) ++ rest)) info = _
    rw [FullPiece.block, rpcRecv_block _ _ _ _ short, if_neg piece.code_nonneg, ih,
      List.flatMap_cons, List.append_assoc]

/-- A message with a last block is received as one string, up to that block. -/
theorem rpcRecv_message (needClosed : Bool) {source : Bytes} (pieces : List (FullPiece source))
    {last : Bytes} {transferId : Int32} (rest : List RecvEvent) (short : last.length < bodySize)
    (valid : ¬ transferId < 0) :
    rpcRecv needClosed (wholeBlocks (pieces.map FullPiece.block ++
      [.make (endCode transferId) last]) ++ rest) [] =
      some ⟨endCode transferId * -1, pieces.flatMap (fun piece => CString.ofBuffer piece.content) ++
        CString.ofBuffer last, needClosed.toNat, rest⟩ := by
  have split : wholeBlocks (pieces.map FullPiece.block ++ [.make (endCode transferId) last]) ++ rest =
      wholeBlocks (pieces.map FullPiece.block) ++
        (.data (MetaData.make (endCode transferId) last).chunk :: rest) := by
    simp [wholeBlocks]
  rw [split, rpcRecv_full, rpcRecv_block _ _ _ _ short, if_pos (endCode_neg valid), List.nil_append]

/-- A message inside the limits comes back unchanged. -/
theorem rpcRecv_framable (needClosed : Bool) {info : Bytes} {transferId : Int32}
    (rest : List RecvEvent) (valid : ¬ transferId < 0) (framable : Framable info) :
    rpcRecv needClosed (wholeBlocks ((fullPieces info framable).map FullPiece.block ++
      [.make (endCode transferId) (lastPiece info)]) ++ rest) [] =
      some ⟨endCode transferId * -1, info, needClosed.toNat, rest⟩ := by
  have short : (lastPiece info).length < bodySize := by
    rw [lastPiece, List.length_drop, bodySize]
    omega
  have clean {content : Bytes} (subset : content ⊆ info) : CString.ofBuffer content = content :=
    CString.ofBuffer_eq_self_iff.mpr fun member => framable.1 (subset member)
  have full : (fullPieces info framable).flatMap (fun piece => CString.ofBuffer piece.content) =
      (fullPieces info framable).flatMap FullPiece.content := by
    simp only [clean (FullPiece.content_subset _)]
  have tail : CString.ofBuffer (lastPiece info) = lastPiece info :=
    clean fun _ member => List.mem_of_mem_drop member
  rw [rpcRecv_message _ _ _ short valid, full, tail, pieces_tile]

/-- Pieces that decode to the whole message show that it was inside the limits. -/
theorem framable_of_decoded {info last : Bytes} {pieces : List (FullPiece info)}
    (count : pieces.length ≤ info.length / 511) (lastLength : last.length = info.length % 511)
    (nonempty : 0 < last.length)
    (offset : pieces.length = info.length / 511 → info.length / 511 * 511 < 2 ^ 31)
    (decoded : pieces.flatMap (fun piece => CString.ofBuffer piece.content) ++
      CString.ofBuffer last = info) : Framable info := by
  have fullLength : (pieces.flatMap fun piece => CString.ofBuffer piece.content).length ≤
      pieces.length * 511 := by
    rw [List.length_flatMap]
    refine (List.sum_le_card_nsmul _ 511 ?_).trans (by simp)
    intro length member
    obtain ⟨piece, _, rfl⟩ := List.mem_map.mp member
    exact (CString.ofBuffer_length_le _).trans piece.content_length.le
  have total := congrArg List.length decoded
  rw [List.length_append] at total
  have tail := CString.ofBuffer_length_le last
  refine ⟨?_, by omega, offset (by omega)⟩
  rw [← decoded, List.mem_append, List.mem_flatMap]
  rintro (⟨piece, _, zero⟩ | zero)
  · exact CString.zero_notMem_ofBuffer _ zero
  · exact CString.zero_notMem_ofBuffer _ zero

end LibEvRpc
