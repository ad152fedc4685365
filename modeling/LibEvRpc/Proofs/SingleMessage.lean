import LibEvRpc.Proofs.Framing

/-! # One message on a connection that is closed behind it

`RpcSend` copies ranges of its string that tile it, whatever the length, so every byte is sent once.
With an end of file behind the blocks a call of `RpcRecv` always returns, and it returns the message
exactly when no byte of it is NUL and a last block carries its id.
-/

namespace LibEvRpc

/-- The ranges `RpcSend` copies out of its string: 511 bytes in each iteration of the loop, and what
is left behind it. -/
def copyRanges (info : Bytes) : List (Int32 × ℕ) :=
  let blockNum := Int32.ofNat (info.length / 511 + 1)
  ((List.range (blockNum - 1).toNatClampNeg).map fun i => (Int32.ofNat i * 511, 511)) ++
    if info.length % 511 ≠ 0 then [((blockNum - 1) * 511, info.length % 511)] else []

/-- The bytes in some ranges of a string, undefined when one of them leaves it. -/
def copies? (info : Bytes) (ranges : List (Int32 × ℕ)) : Option (List Bytes) :=
  ranges.mapM fun range => memcpy? info range.1 range.2

/-- The body of a block with some content. -/
abbrev bodyOf (content : Bytes) : Bytes := zeroFill bodySize content

private theorem sendLoop_copies {info : Bytes} {indices : List ℕ} {before after : List MetaData}
    {ok : Bool} (success : sendLoop allSent info indices before = some (after, ok)) :
    ok = true ∧ ∃ contents,
      copies? info (indices.map fun i => (Int32.ofNat i * 511, 511)) = some contents ∧
        after.map MetaData.body = before.map MetaData.body ++ contents.map bodyOf := by
  induction indices generalizing before with
  | nil =>
    cases success
    exact ⟨rfl, [], rfl, by simp⟩
  | cons i rest ih =>
    obtain ⟨block, made, success⟩ := Option.bind_eq_some_iff.mp success
    obtain ⟨content, copied, rfl⟩ := Option.map_eq_some_iff.mp made
    obtain ⟨done, contents, others, bodies⟩ := ih success
    refine ⟨done, content :: contents, ?_, ?_⟩
    · rw [copies?] at others
      rw [copies?, List.map_cons, List.mapM_cons, copied, others]
      rfl
    · rw [bodies, List.map_append, List.append_assoc]
      rfl

/-- The bodies `RpcSend` transmits are filled with what it copies. -/
theorem rpcSend_copies {transferId : Int32} {info : Bytes} {needClosed : Bool} {sent : Sent}
    (valid : ¬ transferId < 0)
    (success : rpcSend allSent transferId info needClosed = some sent) :
    ∃ contents, copies? info (copyRanges info) = some contents ∧
      sent.blocks.map MetaData.body = contents.map bodyOf := by
  rw [rpcSend, if_neg valid] at success
  obtain ⟨⟨full, ok⟩, looped, success⟩ := Option.bind_eq_some_iff.mp success
  obtain ⟨rfl, contents, copied, bodies⟩ := sendLoop_copies looped
  rw [List.map_nil, List.nil_append] at bodies
  rw [copies?] at copied
  rw [copies?, copyRanges, List.mapM_append, copied]
  dsimp only at success
  rw [if_pos rfl] at success
  by_cases remainder : info.length % 511 ≠ 0
  · rw [if_pos remainder] at success ⊢
    obtain ⟨block, made, success⟩ := Option.bind_eq_some_iff.mp success
    obtain ⟨last, lastCopied, rfl⟩ := Option.map_eq_some_iff.mp made
    cases success
    refine ⟨contents ++ [last], ?_, ?_⟩
    · rw [List.mapM_cons, lastCopied]
      rfl
    · rw [List.map_append, bodies, List.map_append]
      rfl
  · rw [if_neg remainder] at success ⊢
    cases success
    refine ⟨contents, ?_, bodies⟩
    exact congrArg some (List.append_nil contents)

/-- The start of a range as a position in the string. -/
abbrev position (range : Int32 × ℕ) : ℕ × ℕ := (range.1.toNatClampNeg, range.2)

/-- The ranges of a string whose length fits into 31 bits tile it, from its first byte on. -/
theorem copyRanges_tile {info : Bytes} (short : info.length < 2 ^ 31) :
    (∀ range ∈ copyRanges info, 0 ≤ range.1) ∧
      Tiles 0 info.length ((copyRanges info).map position) := by
  have count : (Int32.ofNat (info.length / 511)).toNatClampNeg = info.length / 511 :=
    Int32.toNatClampNeg_ofNat_of_lt (by omega)
  have start {i : ℕ} (bound : i ≤ info.length / 511) :
      0 ≤ Int32.ofNat i * 511 ∧ (Int32.ofNat i * 511).toNatClampNeg = i * 511 := by
    have small : i * 511 < 2 ^ 31 := by omega
    rw [ofNat_mul_511, Int32.le_iff_toInt_le, Int32.toInt_ofNat_of_lt small, Int32.toInt_zero]
    exact ⟨by omega, Int32.toNatClampNeg_ofNat_of_lt small⟩
  rw [copyRanges]
  simp only [blockNum_sub_one, count]
  constructor
  · intro range member
    rcases List.mem_append.mp member with inLoop | last
    · obtain ⟨i, listed, rfl⟩ := List.mem_map.mp inLoop
      exact (start (List.mem_range.mp listed).le).1
    · split at last
      · rw [List.mem_singleton.mp last]
        exact (start (Nat.le_refl _)).1
      · contradiction
  · have loop : ((List.range (info.length / 511)).map fun i => (Int32.ofNat i * 511, 511)).map position =
        (List.range (info.length / 511)).map fun i => (i * 511, 511) := by
      rw [List.map_map]
      apply List.map_congr_left
      intro i listed
      exact Prod.ext (start (List.mem_range.mp listed).le).2 rfl
    rw [List.map_append, loop]
    apply (Tiles.equal (info.length / 511) 511).append
    have total := Nat.div_add_mod' info.length 511
    split
    · rw [List.map_singleton, position, (start (Nat.le_refl _)).2]
      apply Tiles.cons
      rw [total]
      exact .nil _
    · next none =>
      rw [not_ne_iff.mp none, Nat.add_zero] at total
      rw [total]
      exact .nil _

/-- With an end of file behind its blocks, a message of up to `2 ^ 31 - 1` bytes with a positive id is
received as it was sent exactly when it holds no NUL and its length is not a multiple of 511. The
ranges that are copied for it tile it. -/
theorem message_received_iff {transferId : Int32} {info : Bytes} (needClosed otherClosed : Bool)
    (valid : 0 < transferId) (short : info.length < 2 ^ 31) :
    ∃ sent contents, rpcSend allSent transferId info needClosed = some sent ∧
      copies? info (copyRanges info) = some contents ∧
      sent.blocks.map MetaData.body = contents.map bodyOf ∧
      (∀ range ∈ copyRanges info, 0 ≤ range.1) ∧
      Tiles 0 info.length ((copyRanges info).map position) ∧
      ((∃ closes rest, rpcRecv otherClosed (wholeBlocks sent.blocks ++ [.eof]) [] =
          some ⟨transferId, info, closes, rest⟩) ↔
        0 ∉ info ∧ info.length % 511 ≠ 0) := by
  have nonneg : ¬ transferId < 0 := by grind
  have nonzero : transferId ≠ 0 := by grind
  obtain ⟨sent, success, _⟩ := rpcSend_fails_iff allSent needClosed nonneg short
  obtain ⟨contents, copied, bodies⟩ := rpcSend_copies nonneg success
  obtain ⟨starts, tiles⟩ := copyRanges_tile short
  refine ⟨sent, contents, success, copied, bodies, starts, tiles, ?_⟩
  constructor
  · rintro ⟨closes, rest, received⟩
    obtain ⟨pieces, count, ⟨none, blocks⟩ | ⟨last, length, nonempty, _, blocks, offset⟩⟩ :=
      rpcSend_shape nonneg success
    · -- without a last block the end of the file is the result
      rw [blocks, rpcRecv_full, rpcRecv, Option.some.injEq, Received.mk.injEq] at received
      exact absurd received.1.symm nonzero
    · have lastShort : last.length < bodySize := by
        rw [length, bodySize]
        omega
      rw [blocks, rpcRecv_message _ _ _ lastShort nonneg, Option.some.injEq,
        Received.mk.injEq] at received
      have framable := framable_of_decoded count length nonempty offset received.2.1
      exact ⟨framable.1, framable.2.1⟩
  · rintro ⟨clean, remainder⟩
    have framable : Framable info := ⟨clean, remainder, by omega⟩
    rw [rpcSend_framable needClosed nonneg framable, Option.some.injEq] at success
    rw [← success]
    refine ⟨otherClosed.toNat, [.eof], ?_⟩
    rw [rpcRecv_framable otherClosed [.eof] nonneg framable, endCode_mul_neg_one nonzero]

/-- A message of two bytes is received, whether or not its connection is closed by the calls. -/
theorem message_received_hi :
    ∃ sent, rpcSend allSent 7 [104, 105] false = some sent ∧
      ∃ closes rest, rpcRecv false (wholeBlocks sent.blocks ++ [.eof]) [] =
        some ⟨7, [104, 105], closes, rest⟩ := by
  obtain ⟨sent, _, success, _, _, _, _, received⟩ :=
    @message_received_iff 7 [104, 105] false false (by decide) (by decide)
  exact ⟨sent, success, received.mpr (by decide)⟩

end LibEvRpc
