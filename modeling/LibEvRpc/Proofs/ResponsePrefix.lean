import LibEvRpc.Client.Channel
import LibEvRpc.Proofs.MethodTable

/-! # A response that breaks off

A proper prefix of the blocks of a response has no ending block, so the receive runs into the end
of the stream and returns id 0. The channel tests for the failure code alone, so it hands the
prefix on as the response. Only a request that was never sent whole is reported.
-/

namespace LibEvRpc

variable {Service Method Message : Type}

/-- A proper prefix of the blocks of a message consists of full blocks. -/
theorem rpcSend_prefix {transferId : Int32} {info : Bytes} {needClosed : Bool} {sent : Sent}
    {arrived missing : List MetaData} (valid : ¬ transferId < 0)
    (success : rpcSend allSent transferId info needClosed = some sent)
    (split : sent.blocks = arrived ++ missing) (proper : missing ≠ []) :
    ∃ pieces : List (FullPiece info), arrived = pieces.map FullPiece.block := by
  have front : arrived = sent.blocks.take arrived.length := by
    rw [split, List.take_left]
  have length := congrArg List.length split
  have more := List.length_pos_of_ne_nil proper
  rw [List.length_append] at length
  obtain ⟨pieces, _, ⟨_, blocks⟩ | ⟨last, _, _, _, blocks, _⟩⟩ := rpcSend_shape valid success
  · refine ⟨pieces.take arrived.length, ?_⟩
    rw [List.map_take, ← blocks]
    exact front
  · rw [blocks, List.length_append, List.length_singleton] at length
    refine ⟨pieces.take arrived.length, ?_⟩
    rw [List.map_take, ← List.take_append_of_le_length (show _ ≤ _ by omega), ← blocks]
    exact front

/-- At the end of the stream a prefix of a message is received under the id 0. -/
theorem rpcRecv_prefix {info : Bytes} (needClosed : Bool) (pieces : List (FullPiece info)) :
    rpcRecv needClosed (wholeBlocks (pieces.map FullPiece.block) ++ [.eof]) [] =
      some ⟨0, pieces.flatMap fun piece => CString.ofBuffer piece.content, needClosed.toNat, []⟩ := by
  rw [rpcRecv_full, rpcRecv, List.nil_append]

/-- The request could not be sent whole: it has no serialisation, or one of its sends fails. -/
def Unsent (runtime : Runtime Service Method Message) (send : ℕ → Bool) (request : Message) :
    Prop :=
  ∀ info, runtime.serializeToString request = some info → ∃ k < blockCount info, send k = false

/-- Up to the end of the stream the communication fails exactly for an unsent request. -/
theorem rpcCommunication_fails_iff (runtime : Runtime Service Method Message) (send : ℕ → Bool)
    {info : Bytes} (pieces : List (FullPiece info)) (errorInfo : String)
    {rpcParams : RpcCallParams Message} (response : rpcParams.response.isSome) :
    ∃ result, rpcCommunication runtime send
        (wholeBlocks (pieces.map FullPiece.block) ++ [.eof]) errorInfo rpcParams = some result ∧
      (result.ok = false ↔ Unsent runtime send rpcParams.request) := by
  have nonNull : ¬ rpcParams.response.isNone := by
    rw [Option.isNone_iff_eq_none]
    exact Option.isSome_iff_ne_none.mp response
  rw [rpcCommunication, if_neg nonNull, rpcRecv_prefix, Unsent]
  cases serialized : runtime.serializeToString rpcParams.request with
  | none => exact ⟨_, rfl, fun _ info contradictory => by contradiction, fun _ => rfl⟩
  | some sendStr =>
    obtain ⟨sent, sending, fails⟩ := rpcSend_fails_iff send false
      (bkdrHash_toInt32_nonneg rpcParams.methodFullName)
      (runtime.serializeToString_length _ _ serialized)
    have unsent : (∀ info, some sendStr = some info → ∃ k < blockCount info, send k = false) ↔
        sent.ret < 0 := by
      rw [fails]
      exact ⟨fun all => all sendStr rfl, fun failed info same => by cases same; exact failed⟩
    dsimp only
    rw [unsent, sending, Option.bind_some, Option.bind_some]
    by_cases negative : sent.ret < 0
    · rw [if_pos negative]
      exact ⟨_, rfl, fun _ => negative, fun _ => rfl⟩
    · rw [if_neg negative, if_neg (show (0 : Int32) ≠ errorRecv by decide)]
      exact ⟨_, rfl, fun contradictory => by contradiction, fun contradictory => absurd contradictory negative⟩

/-- A synchronous call whose response breaks off is reported as failed, by the channel and on the
controller, exactly when it is made without a heartbeat and its request could not be sent whole. -/
theorem callMethod_prefix_fails_iff (runtime : Runtime Service Method Message)
    {channel : Channel} {connects : List Int32} {connectFd : Int32} (send : ℕ → Bool)
    (tid : UInt64) {rpcParams : RpcCallParams Message} {responseStr : Bytes} {server : Sent}
    {arrived missing : List MetaData}
    (configured : channel.centerClientHeartbeat ∨ channel.addr.isSome ∧ channel.port.isSome)
    (synchronous : channel.isChannelAsyncCall = false)
    (connected : connectLoop channel.tryTime connects = some connectFd)
    (established : ¬ connectFd < 0) (response : rpcParams.response.isSome)
    (sent : rpcSend allSent 0 responseStr true = some server)
    (split : server.blocks = arrived ++ missing) (proper : missing ≠ []) :
    ∃ result,
      rpcCommunication runtime send (wholeBlocks arrived ++ [.eof]) channel.errorInfo rpcParams =
        some result ∧
      ((result.ok = false ∧ ∃ called,
          channel.callMethod runtime connects send (wholeBlocks arrived ++ [.eof]) tid true rpcParams =
            some called ∧ called.failures ≠ []) ↔
        channel.centerClientHeartbeat = false ∧ Unsent runtime send rpcParams.request) := by
  obtain ⟨pieces, rfl⟩ := rpcSend_prefix (by decide) sent split proper
  obtain ⟨result, communicated, fails⟩ :=
    rpcCommunication_fails_iff runtime send pieces channel.errorInfo response
  have guard : ¬ (!channel.centerClientHeartbeat && (channel.addr.isNone || channel.port.isNone)) := by
    rcases configured with distributed | ⟨addr, port⟩
    · simp [distributed]
    · simp [Option.isNone_eq_false_iff.mpr addr, Option.isNone_eq_false_iff.mpr port]
  refine ⟨result, communicated, ?_⟩
  rw [← fails, Channel.callMethod, if_neg guard]
  cases heartbeat : channel.centerClientHeartbeat with
  | true =>
    refine iff_of_false ?_ fun single => Bool.noConfusion single.1
    rintro ⟨_, called, aborted, _⟩
    rw [if_pos rfl] at aborted
    contradiction
  | false =>
    rw [if_neg Bool.false_ne_true, connected, Option.bind_some, if_neg established, synchronous,
      if_neg Bool.false_ne_true, communicated, Option.bind_some]
    constructor
    · exact fun failed => ⟨rfl, failed.1⟩
    · rintro ⟨_, failed⟩
      rw [failed]
      exact ⟨rfl, _, rfl, List.cons_ne_nil _ _⟩

/-- The client of the echo service, connected to one address. -/
def echoChannel : Channel where
  addr := some [49, 48, 46, 48, 46, 48, 46, 49]
  port := some [57, 57, 57, 57]
  isChannelAsyncCall := false
  callLimit := 100
  tryTime := 1
  centerClientHeartbeat := false
  errorInfo := ""
  threadIds := []
  callTids := ∅

def echoParams : RpcCallParams Bytes where
  methodFullName := echoFaqcfe
  methodClientName := [70, 97, 113, 99, 102, 101]
  request := [104, 105]
  response := some []

/-- The connection is closed before the one block of the response: the call succeeds with an empty
response, and no failure is set. -/
theorem callMethod_empty_prefix_succeeds :
    (∃ server, rpcSend allSent 0 [10, 2, 104, 105] true = some server ∧ server.blocks ≠ []) ∧
    rpcCommunication echoRuntime allSent [.eof] "" echoParams = some ⟨true, "", []⟩ ∧
    ∃ called, echoChannel.callMethod echoRuntime [5] allSent [.eof] 0 true echoParams =
      some called ∧ called.failures = [] ∧ called.response = some [] := by
  refine ⟨⟨_, rfl, List.cons_ne_nil _ _⟩, rfl, ?_⟩
  exact ⟨_, rfl, rfl, rfl⟩

/-- The first send of the request fails, and the call is reported as failed. -/
theorem callMethod_prefix_unsent :
    ∃ result,
      rpcCommunication echoRuntime (fun _ => false) (wholeBlocks [] ++ [.eof]) echoChannel.errorInfo
        echoParams = some result ∧
      result.ok = false ∧ ∃ called,
        echoChannel.callMethod echoRuntime [5] (fun _ => false) (wholeBlocks [] ++ [.eof]) 0 true
          echoParams = some called ∧ called.failures ≠ [] := by
  obtain ⟨result, communicated, reported⟩ :=
    @callMethod_prefix_fails_iff _ _ _ echoRuntime echoChannel [5] 5 (fun _ => false) 0 echoParams
      [10, 2, 104, 105] ⟨[.make (-1) [10, 2, 104, 105]], 1, 0⟩ [] [.make (-1) [10, 2, 104, 105]]
      (.inr ⟨rfl, rfl⟩) rfl rfl (by decide) rfl rfl rfl (List.cons_ne_nil _ _)
  refine ⟨result, communicated, reported.mpr ⟨rfl, ?_⟩⟩
  intro info serialized
  cases serialized
  exact ⟨0, by decide, rfl⟩

end LibEvRpc
