import LibEvRpc.Proofs.Framing
import Mathlib.Data.List.Count

/-! # A sequence of messages on one connection

Each call of `rpcRecv` stops at the next block with a negative code, wherever it belongs, so n
calls return only when there are n such blocks. A message whose length is a multiple of 511 has
none and desynchronizes everything behind it; once every message has one, the calls are aligned
with the messages and each message is judged alone.
-/

namespace LibEvRpc

/-- `RpcSend` for a list of messages in order on one connection, every `send` succeeding. -/
def sendAll : List (Int32 × Bytes) → Option (List MetaData)
  | [] => some []
  | (transferId, info) :: rest =>
      (rpcSend allSent transferId info false).bind fun sent =>
        (sendAll rest).map fun blocks => sent.blocks ++ blocks

/-- A number of successive calls of `RpcRecv`, each with a fresh string. -/
def recvAll : ℕ → List RecvEvent → Option (List (Int32 × Bytes))
  | 0, _ => some []
  | count + 1, events =>
      (rpcRecv false events []).bind fun received =>
        (recvAll count received.rest).map fun messages =>
          (received.transferId, received.info) :: messages

/-- The blocks at which a call of `RpcRecv` stops. -/
def MetaData.ends (block : MetaData) : Bool := decide (block.hCode < 0)

/-- One call uses up exactly one ending block. -/
theorem rpcRecv_ends {needClosed : Bool} {blocks : List MetaData} {info : Bytes}
    {received : Received} (success : rpcRecv needClosed (wholeBlocks blocks) info = some received) :
    ∃ remaining, received.rest = wholeBlocks remaining ∧
      blocks.countP MetaData.ends = remaining.countP MetaData.ends + 1 := by
  induction blocks generalizing info with
  | nil => contradiction
  | cons block blocks ih =>
    change rpcRecv needClosed (.data block.chunk :: wholeBlocks blocks) info = _ at success
    have seen : MetaData.ofReceived block.chunk.bytes = block := MetaData.ofReceived_bytes block
    rw [rpcRecv, seen] at success
    obtain ⟨length, _, success⟩ := Option.bind_eq_some_iff.mp success
    by_cases last : block.hCode < 0
    · rw [if_pos last] at success
      cases success
      exact ⟨blocks, rfl, List.countP_cons_of_pos (decide_eq_true last)⟩
    · rw [if_neg last] at success
      obtain ⟨remaining, rest, count⟩ := ih success
      refine ⟨remaining, rest, ?_⟩
      rw [List.countP_cons_of_neg (by simpa [MetaData.ends] using last), count]

theorem recvAll_ends {count : ℕ} {blocks : List MetaData} {messages : List (Int32 × Bytes)}
    (success : recvAll count (wholeBlocks blocks) = some messages) :
    count ≤ blocks.countP MetaData.ends := by
  induction count generalizing blocks messages with
  | zero => exact Nat.zero_le _
  | succ count ih =>
    obtain ⟨received, first, success⟩ := Option.bind_eq_some_iff.mp success
    obtain ⟨others, later, _⟩ := Option.map_eq_some_iff.mp success
    obtain ⟨remaining, rest, ends⟩ := rpcRecv_ends first
    rw [rest] at later
    have := ih later
    omega

private theorem fullBlocks_ends {info : Bytes} (pieces : List (FullPiece info)) :
    (pieces.map FullPiece.block).countP MetaData.ends = 0 := by
  apply List.countP_eq_zero.mpr
  intro block member
  obtain ⟨piece, _, rfl⟩ := List.mem_map.mp member
  exact fun ends => piece.code_nonneg (of_decide_eq_true ends)

/-- A message has an ending block exactly when a remainder of it is left over. -/
theorem rpcSend_ends {transferId : Int32} {info : Bytes} {needClosed : Bool} {sent : Sent}
    (valid : ¬ transferId < 0)
    (success : rpcSend allSent transferId info needClosed = some sent) :
    sent.blocks.countP MetaData.ends = if info.length % 511 ≠ 0 then 1 else 0 := by
  obtain ⟨pieces, _, ⟨none, blocks⟩ | ⟨last, length, nonempty, _, blocks, _⟩⟩ :=
    rpcSend_shape valid success
  · rw [blocks, fullBlocks_ends, if_neg (not_not_intro none)]
  · have ends : (MetaData.make (endCode transferId) last).ends = true :=
      decide_eq_true (endCode_neg valid)
    rw [blocks, List.countP_append, fullBlocks_ends, if_pos (by omega), List.countP_singleton,
      if_pos ends]

theorem sendAll_ends {messages : List (Int32 × Bytes)} {blocks : List MetaData}
    (valid : ∀ message ∈ messages, ¬ message.1 < 0) (success : sendAll messages = some blocks) :
    blocks.countP MetaData.ends = messages.countP fun message => message.2.length % 511 ≠ 0 := by
  induction messages generalizing blocks with
  | nil =>
    cases success
    rfl
  | cons message rest ih =>
    obtain ⟨sent, first, success⟩ := Option.bind_eq_some_iff.mp success
    obtain ⟨others, later, rfl⟩ := Option.map_eq_some_iff.mp success
    rw [List.countP_append, rpcSend_ends (valid message List.mem_cons_self) first,
      ih (fun other member => valid other (List.mem_cons_of_mem _ member)) later, List.countP_cons]
    simp [Nat.add_comm]

/-- Messages that all have an ending block are received one by one. -/
private theorem framable_of_recvAll {messages : List (Int32 × Bytes)} {blocks : List MetaData}
    (valid : ∀ message ∈ messages, ¬ message.1 < 0)
    (remainder : ∀ message ∈ messages, message.2.length % 511 ≠ 0)
    (sent : sendAll messages = some blocks)
    (received : recvAll messages.length (wholeBlocks blocks) = some messages) :
    ∀ message ∈ messages, Framable message.2 := by
  induction messages generalizing blocks with
  | nil => simp
  | cons message rest ih =>
    obtain ⟨first, firstSent, sent⟩ := Option.bind_eq_some_iff.mp sent
    obtain ⟨others, restSent, rfl⟩ := Option.map_eq_some_iff.mp sent
    have headValid := valid message List.mem_cons_self
    obtain ⟨pieces, count, ⟨none, _⟩ | ⟨last, length, nonempty, _, shape, offset⟩⟩ :=
      rpcSend_shape headValid firstSent
    · exact absurd none (remainder message List.mem_cons_self)
    have short : last.length < bodySize := by
      rw [length, bodySize]
      omega
    have split : wholeBlocks (first.blocks ++ others) =
        wholeBlocks (pieces.map FullPiece.block ++ [.make (endCode message.1) last]) ++
          wholeBlocks others := by
      rw [shape, wholeBlocks, wholeBlocks, wholeBlocks, List.map_append]
    rw [List.length_cons, recvAll, split, rpcRecv_message _ _ _ short headValid,
      Option.bind_some] at received
    obtain ⟨tail, restReceived, equal⟩ := Option.map_eq_some_iff.mp received
    obtain ⟨head, rfl⟩ := List.cons.inj equal
    intro other member
    rcases List.mem_cons.mp member with rfl | later
    · exact framable_of_decoded count length nonempty offset (congrArg Prod.snd head)
    · exact ih (fun other member => valid other (List.mem_cons_of_mem _ member))
        (fun other member => remainder other (List.mem_cons_of_mem _ member))
        restSent restReceived other later

private theorem recvAll_of_framable {messages : List (Int32 × Bytes)}
    (valid : ∀ message ∈ messages, 0 < message.1)
    (framable : ∀ message ∈ messages, Framable message.2) :
    ∃ blocks, sendAll messages = some blocks ∧
      recvAll messages.length (wholeBlocks blocks) = some messages := by
  induction messages with
  | nil => exact ⟨[], rfl, rfl⟩
  | cons message rest ih =>
    have positive := valid message List.mem_cons_self
    have headValid : ¬ message.1 < 0 := by grind
    have nonzero : message.1 ≠ 0 := by grind
    have head := framable message List.mem_cons_self
    obtain ⟨others, restSent, restReceived⟩ :=
      ih (fun other member => valid other (List.mem_cons_of_mem _ member))
        (fun other member => framable other (List.mem_cons_of_mem _ member))
    refine ⟨(fullPieces message.2 head).map FullPiece.block ++
      [.make (endCode message.1) (lastPiece message.2)] ++ others, ?_, ?_⟩
    · rw [sendAll, rpcSend_framable false headValid head, Option.bind_some, restSent,
        Option.map_some]
    · have split : wholeBlocks ((fullPieces message.2 head).map FullPiece.block ++
          [.make (endCode message.1) (lastPiece message.2)] ++ others) =
          wholeBlocks ((fullPieces message.2 head).map FullPiece.block ++
            [.make (endCode message.1) (lastPiece message.2)]) ++ wholeBlocks others := by
        rw [wholeBlocks, wholeBlocks, wholeBlocks, List.map_append]
      rw [List.length_cons, recvAll, split, rpcRecv_framable _ _ headValid head,
        Option.bind_some, restReceived, Option.map_some, endCode_mul_neg_one nonzero]

/-- A sequence of messages with positive ids comes back as it was sent exactly when every one of
them is inside the limits. -/
theorem sequence_received_iff (messages : List (Int32 × Bytes))
    (valid : ∀ message ∈ messages, 0 < message.1) :
    (∃ blocks, sendAll messages = some blocks ∧
      recvAll messages.length (wholeBlocks blocks) = some messages) ↔
      ∀ message ∈ messages, Framable message.2 := by
  constructor
  · rintro ⟨blocks, sent, received⟩
    have nonneg : ∀ message ∈ messages, ¬ message.1 < 0 := by
      intro message member
      have positive := valid message member
      grind
    have ends := (recvAll_ends received).trans_eq (sendAll_ends nonneg sent)
    have all := List.countP_eq_length.mp (le_antisymm List.countP_le_length ends)
    exact framable_of_recvAll nonneg (fun message member => by simpa using all message member)
      sent received
  · exact recvAll_of_framable valid

/-- The empty string has no ending block, so the message behind it is taken for it. -/
theorem sequence_empty_string_lost :
    ¬ ∃ blocks, sendAll [(7, []), (8, [104, 105])] = some blocks ∧
      recvAll 2 (wholeBlocks blocks) = some [(7, []), (8, [104, 105])] := by
  rintro ⟨blocks, sent, received⟩
  have count := recvAll_ends received
  have ends := sendAll_ends (by decide) sent
  rw [ends] at count
  exact absurd count (by decide)

theorem sequence_received_two :
    ∃ blocks, sendAll [(7, [112, 105, 110, 103]), (8, [104, 105])] = some blocks ∧
      recvAll 2 (wholeBlocks blocks) = some [(7, [112, 105, 110, 103]), (8, [104, 105])] :=
  (sequence_received_iff [(7, [112, 105, 110, 103]), (8, [104, 105])] (by decide)).mpr (by decide)

end LibEvRpc
