import LibEvRpc.Client.RemoteCall
import LibEvRpc.Proofs.AsyncThreads
import LibEvRpc.Proofs.MessageSequence
import LibEvRpc.Proofs.Processor
import LibEvRpc.Proofs.ResponsePrefix

/-! # What a remote call returns

The server never sends a response, so the client receives the end of its connection as soon as the
server has received the request. It takes this end for an empty response. A request that leaves no
remainder of a block is never received to its end, and then both sides wait.
-/

namespace LibEvRpc

variable {Service Method Message : Type} {runtime : Runtime Service Method Message}
  {server : RpcServer Service Method Message}

/-- A request that was sent whole is received as soon as it leaves a remainder of a block. -/
theorem rpcRecv_isSome_of_sent {send : ℕ → Bool} {transferId : Int32} {info : Bytes} {sent : Sent}
    (valid : ¬ transferId < 0) (done : ¬ sent.ret < 0)
    (success : rpcSend send transferId info false = some sent) :
    (rpcRecv false (wholeBlocks sent.blocks) []).isSome ↔ info.length % 511 ≠ 0 := by
  have same := rpcSend_allSent valid done success
  constructor
  · intro received
    obtain ⟨received, receiving⟩ := Option.isSome_iff_exists.mp received
    obtain ⟨_, _, ends⟩ := rpcRecv_ends receiving
    rw [rpcSend_ends valid same] at ends
    intro whole
    rw [if_neg (not_not_intro whole)] at ends
    omega
  · intro remainder
    obtain ⟨pieces, _, ⟨whole, _⟩ | ⟨last, length, _, _, blocks, _⟩⟩ := rpcSend_shape valid same
    · exact absurd whole remainder
    · have short : last.length < bodySize := by
        rw [length]
        exact (Nat.mod_lt _ (by decide)).trans (by decide)
      have received := rpcRecv_message false pieces [] short valid
      rw [List.append_nil] at received
      rw [blocks, received]
      rfl

/-- `RpcProcessor` goes on as soon as `RpcRecv` does. -/
theorem rpcProcessor_isSome (noReaders : server.readerThreads = false) (send : ℕ → Bool)
    (eventFd : Int32) (events : List RecvEvent) :
    (rpcProcessor runtime server send eventFd events).isSome = (rpcRecv false events []).isSome := by
  rw [rpcProcessor, noReaders, if_neg Bool.false_ne_true]
  cases rpcRecv false events [] with
  | none => rfl
  | some received =>
    rw [Option.bind_some]
    split
    · rfl
    · obtain ⟨_, found⟩ | ⟨_, found⟩ := findAndCall_cases runtime server send eventFd received
      · rw [found]
        rfl
      · rw [found]
        rfl

/-- Whatever `RpcProcessor` does, the client receives the end of its connection only. -/
theorem answerEvents_rpcProcessor (send : ℕ → Bool) (eventFd : Int32) (events : List RecvEvent) :
    answerEvents (rpcProcessor runtime server send eventFd events) =
      if (rpcProcessor runtime server send eventFd events).isSome then [.eof] else [] := by
  cases processed : rpcProcessor runtime server send eventFd events with
  | none => rfl
  | some actions =>
    rcases rpcProcessor_cases processed with rfl | rfl
    · rfl
    · rfl

/-- The answer to a request that was sent whole. -/
theorem answerEvents_of_sent (noReaders : server.readerThreads = false) {send serverSend : ℕ → Bool}
    {eventFd : Int32} {rpcParams : RpcCallParams Message} {sendStr : Bytes} {sent : Sent}
    (serialized : runtime.serializeToString rpcParams.request = some sendStr)
    (done : ¬ sent.ret < 0)
    (sending : rpcSend send (bkdrHash rpcParams.methodFullName).toInt32 sendStr false = some sent) :
    answerEvents (rpcProcessor runtime server serverSend eventFd
      (requestEvents runtime send rpcParams)) =
        if sendStr.length % 511 = 0 then [] else [.eof] := by
  have valid := bkdrHash_toInt32_nonneg rpcParams.methodFullName
  have closes := (rpcSend_of_some valid sending).2
  rw [if_neg done] at closes
  have events : requestEvents runtime send rpcParams = wholeBlocks sent.blocks := by
    rw [requestEvents, serialized, Option.bind_some, sending, Option.elim_some, closes]
    exact List.append_nil _
  have received := rpcRecv_isSome_of_sent valid done sending
  rw [answerEvents_rpcProcessor, rpcProcessor_isSome noReaders, events]
  split
  · next ends => rw [if_neg (received.mp ends)]
  · next waits => rw [if_pos (not_not.mp (received.not.mp waits))]

/-- What a synchronous call returns does not depend on the method, on the services of the server or on
what the request says. Its failures to serialise and to send the request are reported. A request of full
blocks leaves the client waiting. Every other call returns what the empty string is parsed to. -/
theorem remoteCall_eq {channel : Channel} {connects : List Int32} {send serverSend : ℕ → Bool}
    {eventFd : Int32} {tid : UInt64} {controller : Bool} {rpcParams : RpcCallParams Message}
    {response : Message} (noReaders : server.readerThreads = false)
    (reaches : channel.Reaches connects) (synchronous : channel.isChannelAsyncCall = false)
    (nonNull : rpcParams.response = some response) :
    (runtime.serializeToString rpcParams.request = none →
        remoteCall runtime server channel connects send serverSend eventFd tid controller rpcParams =
          some ⟨{ channel with errorInfo := "SerializeToString request failed!" },
            if controller then ["SerializeToString request failed!"] else [], none⟩) ∧
      ∀ sendStr, runtime.serializeToString rpcParams.request = some sendStr →
        ((∃ k < blockCount sendStr, send k = false) →
          remoteCall runtime server channel connects send serverSend eventFd tid controller rpcParams =
            some ⟨{ channel with errorInfo := "Send data error in rpc channel." },
              if controller then ["Send data error in rpc channel."] else [], none⟩) ∧
        ((∀ k < blockCount sendStr, send k = true) → sendStr.length % 511 = 0 →
          remoteCall runtime server channel connects send serverSend eventFd tid controller rpcParams =
            none) ∧
        ((∀ k < blockCount sendStr, send k = true) → sendStr.length % 511 ≠ 0 →
          remoteCall runtime server channel connects send serverSend eventFd tid controller rpcParams =
            some ⟨channel,
              if controller && (runtime.parseFromString response []).isNone then
                ["SerializeToString response error in RpcChannel!"] else [],
              runtime.parseFromString response []⟩) := by
  obtain ⟨single, _, _, connectFd, connected, established⟩ := id reaches
  rw [remoteCall, Channel.callMethod, if_neg reaches.addressed, if_neg (Bool.eq_false_iff.mp single),
    connected, Option.bind_some, if_neg established, if_neg (Bool.eq_false_iff.mp synchronous),
    rpcCommunication, nonNull, Option.isNone_some, if_neg Bool.false_ne_true]
  refine ⟨fun unserialized => ?_, fun sendStr serialized => ?_⟩
  · rw [unserialized]
    rfl
  obtain ⟨sent, sending, fails⟩ := rpcSend_fails_iff send false
    (bkdrHash_toInt32_nonneg rpcParams.methodFullName)
    (runtime.serializeToString_length _ _ serialized)
  have done (all : ∀ k < blockCount sendStr, send k = true) : ¬ sent.ret < 0 := by
    rintro failed
    obtain ⟨k, small, outcome⟩ := fails.mp failed
    rw [all k small] at outcome
    contradiction
  rw [serialized]
  dsimp only
  rw [sending, Option.bind_some]
  refine ⟨fun failing => ?_, fun all whole => ?_, fun all remainder => ?_⟩
  · rw [if_pos (fails.mpr failing)]
    rfl
  · rw [if_neg (done all), answerEvents_of_sent noReaders serialized (done all) sending, if_pos whole]
    rfl
  · rw [if_neg (done all), answerEvents_of_sent noReaders serialized (done all) sending,
      if_neg remainder, rpcRecv, Option.bind_some, if_neg (show (0 : Int32) ≠ errorRecv by decide),
      Option.bind_some, if_pos rfl, Option.bind_some]
    cases runtime.parseFromString response [] with
    | none => rw [Option.isNone_none, Bool.and_true]
    | some parsed =>
      rw [Option.isNone_some, Bool.and_false]
      rfl

/-- The echo service is called with two letters, and the call succeeds with an empty response. -/
theorem remoteCall_eq_echo :
    remoteCall echoRuntime ⟨registeServices echoRuntime [[echoFaqcfe]], false, false⟩ echoChannel [5]
      allSent allSent 5 0 true echoParams = some ⟨echoChannel, [], some []⟩ :=
  ((remoteCall_eq rfl ⟨rfl, rfl, rfl, 5, rfl, by decide⟩ rfl rfl).2 [10, 2, 104, 105] rfl).2.2
    (fun _ _ => rfl) (by decide)

end LibEvRpc
