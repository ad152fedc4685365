import LibEvRpc.Proofs.Framing

/-! # Segmentation of the stream decides what is received

`rpcRecv` takes every `recv` result as a fresh block. When all full blocks arrive whole, the
last one may be cut anywhere behind its content and the message is still right; cut it earlier
and the call stops at the code in the first part, so the content behind the cut is lost. Hence
no message has the same result under all segmentations of its stream.
-/

namespace LibEvRpc

/-- The bytes one call of `RpcSend` put on the connection. -/
def Sent.stream (sent : Sent) : Bytes := sent.blocks.flatMap MetaData.bytes

/-- Successive `recv` results that make up a stream. -/
def Segmentation (stream : Bytes) (chunks : List Chunk) : Prop :=
  chunks.flatMap Chunk.bytes = stream

/-- The id and the string of `RpcRecv` on successive results of `recv`. -/
def recvSegmented (chunks : List Chunk) : Option (Int32 × Bytes) :=
  (rpcRecv false (chunks.map .data) []).map fun received => (received.transferId, received.info)

/-- Any two segmentations of a stream are received alike. -/
def SegmentationIndependent (stream : Bytes) : Prop :=
  ∀ first second, Segmentation stream first → Segmentation stream second →
    recvSegmented first = recvSegmented second

namespace MetaData

/-- The first part of a block cut behind its code and some bytes of its body. -/
def front (block : MetaData) (count : Fin bodySize) : Chunk where
  bytes := block.bytes.take (4 + count)
  nonempty := by
    rw [List.length_take, block.bytes_length, metaSize]
    omega
  bounded := (List.length_take_le' _ _).trans_eq block.bytes_length

/-- The second part of a block cut behind its code and some bytes of its body. -/
def back (block : MetaData) (count : Fin bodySize) : Chunk where
  bytes := block.bytes.drop (4 + count)
  nonempty := by
    have inside : count.val < 512 := count.isLt
    rw [List.length_drop, block.bytes_length, metaSize]
    omega
  bounded := by
    rw [List.length_drop, block.bytes_length]
    exact Nat.sub_le _ _

end MetaData

/-- Whole blocks, and a last block cut in two. -/
def cutLast (full : List MetaData) (last : MetaData) (count : Fin bodySize) : List Chunk :=
  full.map MetaData.chunk ++ [last.front count, last.back count]

theorem cutLast_segmentation (full : List MetaData) (last : MetaData) (count : Fin bodySize) :
    Segmentation ((full ++ [last]).flatMap MetaData.bytes) (cutLast full last count) := by
  have parts : (last.front count).bytes ++ (last.back count).bytes = last.bytes :=
    List.take_append_drop _ _
  rw [Segmentation, cutLast, List.flatMap_append, List.flatMap_append, List.flatMap_map]
  simp only [List.flatMap_cons, List.flatMap_nil, List.append_nil, parts]
  rfl

/-- With the last block cut, only the content in front of the cut is received. -/
theorem recvSegmented_cutLast {info last : Bytes} (pieces : List (FullPiece info))
    {transferId : Int32} (valid : ¬ transferId < 0) (short : last.length < bodySize)
    (count : Fin bodySize) :
    recvSegmented (cutLast (pieces.map FullPiece.block) (.make (endCode transferId) last) count) =
      some (endCode transferId * -1, pieces.flatMap (fun piece => CString.ofBuffer piece.content) ++
        CString.ofBuffer (last.take count)) := by
  set block := MetaData.make (endCode transferId) last with blockEq
  have seen : MetaData.ofReceived (block.front count).bytes =
      .make (endCode transferId) (last.take count) := MetaData.ofReceived_take _ _ _
  have cut : (last.take count).length < bodySize :=
    lt_of_le_of_lt (List.length_take_le' _ _) short
  have events : (cutLast (pieces.map FullPiece.block) block count).map RecvEvent.data =
      wholeBlocks (pieces.map FullPiece.block) ++
        [.data (block.front count), .data (block.back count)] := by
    simp [cutLast, wholeBlocks]
  rw [recvSegmented, events, rpcRecv_full, rpcRecv, seen, MetaData.strlen?_make _ cut,
    Option.bind_some, ← MetaData.ofBuffer_make (endCode transferId) cut,
    CString.take_ofBuffer_length, MetaData.make_hCode, if_pos (endCode_neg valid),
    Option.map_some, List.nil_append]

/-- The stream of every message without NUL bytes and with a last block has two segmentations
that differ: the whole last block, and the last block cut behind its code. -/
theorem segmentation_dependent {transferId : Int32} {info : Bytes} {needClosed : Bool}
    {sent : Sent} (valid : 0 ≤ transferId) (clean : 0 ∉ info) (remainder : info.length % 511 ≠ 0)
    (success : rpcSend allSent transferId info needClosed = some sent) :
    ¬ SegmentationIndependent sent.stream := by
  intro independent
  have nonneg : ¬ transferId < 0 := Int32.not_lt.mpr valid
  obtain ⟨pieces, _, ⟨none, _⟩ | ⟨last, length, nonempty, subset, blocks, _⟩⟩ :=
    rpcSend_shape nonneg success
  · exact remainder none
  have short : last.length < bodySize := by
    rw [length, bodySize]
    omega
  have stream : sent.stream = (pieces.map FullPiece.block ++
      [MetaData.make (endCode transferId) last]).flatMap MetaData.bytes := by rw [Sent.stream, blocks]
  have same := independent _ _
    (stream ▸ cutLast_segmentation _ _ ⟨last.length, short⟩)
    (stream ▸ cutLast_segmentation _ _ ⟨0, by decide⟩)
  rw [recvSegmented_cutLast pieces nonneg short, recvSegmented_cutLast pieces nonneg short] at same
  have strings := congrArg Prod.snd (Option.some.inj same)
  have unchanged : CString.ofBuffer last = last :=
    CString.ofBuffer_eq_self_iff.mpr fun member => clean (subset member)
  have lengths := congrArg List.length (List.append_cancel_left strings)
  simp only [List.take_length, List.take_zero, unchanged, CString.ofBuffer_nil,
    List.length_nil] at lengths
  omega

/-- The message "hi" under id 7: its block whole gives "hi", its block cut behind the code gives
the empty string. -/
theorem segmentation_hi_differs :
    ∃ sent, rpcSend allSent 7 [104, 105] false = some sent ∧
      ¬ SegmentationIndependent sent.stream := by
  refine ⟨⟨[.make (-7) [104, 105]], 0, 0⟩, rfl, fun independent => ?_⟩
  have nonneg : ¬ (7 : Int32) < 0 := by decide
  have whole := @recvSegmented_cutLast [] [104, 105] [] 7 nonneg (by decide) ⟨2, by decide⟩
  have cut := @recvSegmented_cutLast [] [104, 105] [] 7 nonneg (by decide) ⟨0, by decide⟩
  have same := independent _ _
    (cutLast_segmentation [] (.make (endCode 7) [104, 105]) ⟨2, by decide⟩)
    (cutLast_segmentation [] (.make (endCode 7) [104, 105]) ⟨0, by decide⟩)
  rw [List.map_nil] at whole cut
  rw [whole, cut] at same
  exact absurd same (by decide)

theorem segmentation_dependent_hi : ¬ SegmentationIndependent
    (Sent.stream ⟨[.make (-7) [104, 105]], 0, 0⟩) :=
  @segmentation_dependent 7 [104, 105] false ⟨[.make (-7) [104, 105]], 0, 0⟩
    (by decide) (by decide) (by decide) rfl

end LibEvRpc
