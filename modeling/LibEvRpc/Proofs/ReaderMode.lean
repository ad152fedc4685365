import LibEvRpc.Proofs.Processor
import LibEvRpc.Proofs.ReceivedBlocks

/-! # A server with a pool of readers

With readers `RpcProcessor` receives nothing itself, but it does not take the call id and the payload
from its parameters either. It looks up -1, which no message has and no method is filed under, and so
it closes every connection.
-/

namespace LibEvRpc

variable {Service Method Message : Type}

/-- `RpcProcessor` takes the data of a call to the table. -/
theorem rpcProcessor_eq_callData (runtime : Runtime Service Method Message)
    (server : RpcServer Service Method Message) (send : ℕ → Bool) (eventFd : Int32)
    (events : List RecvEvent) :
    rpcProcessor runtime server send eventFd events =
      (server.callData events).bind fun
        | none => some [.close eventFd]
        | some (callId, recvInfo) => findAndCall runtime server send eventFd callId recvInfo := by
  rw [rpcProcessor, RpcServer.callData]
  split
  · rfl
  · cases rpcRecv false events [] with
    | none => rfl
    | some received =>
      rw [Option.bind_some, Option.map_some, Option.bind_some]
      split
      · rfl
      · rfl

/-- No message is received with the id -1. -/
theorem rpcRecv_transferId_ne {needClosed : Bool} {events : List RecvEvent} {info : Bytes}
    {received : Received} (success : rpcRecv needClosed events info = some received) :
    received.transferId ≠ -1 := by
  obtain ⟨loopEnded, ended, value⟩ := rpcRecv_loopEnd success
  rw [value]
  cases loopEnded with
  | failed | eof => decide
  | block chunk =>
    intro same
    dsimp only at same
    have negative := (loopEnd_block ended).2
    by_cases least : chunk.block.hCode = Int32.minValue
    · rw [least] at same
      exact absurd same (by decide)
    · have positive := (zero_lt_neg_iff negative).mpr least
      rw [same] at positive
      exact absurd positive (by decide)

/-- With and without readers the server looks up the same id and parses the same payload. -/
def SameCall (server : RpcServer Service Method Message) (events : List RecvEvent) : Prop :=
  ∃ call, { server with readerThreads := true }.callData events = some (some call) ∧
    { server with readerThreads := false }.callData events = some (some call)

/-- No request is looked up alike with and without readers; what a reader received is not used, and
the connection is closed. -/
theorem readers_never_sameCall (runtime : Runtime Service Method Message) (services : List Service)
    (writerThreads : Bool) (send : ℕ → Bool) (eventFd : Int32) (events : List RecvEvent) :
    (∀ readerThreads,
      ¬ SameCall (RpcServer.mk (registeServices runtime services) readerThreads writerThreads) events) ∧
    ∀ filled, rpcReader events ⟨eventFd, 0, []⟩ = some filled →
      rpcProcessor runtime ⟨registeServices runtime services, true, writerThreads⟩ send filled.eventFd
        [] = some [.close eventFd] := by
  constructor
  · rintro readerThreads ⟨call, withReaders, without⟩
    obtain ⟨received, receiving, looked⟩ := Option.map_eq_some_iff.mp without
    cases withReaders
    split at looked
    · contradiction
    · exact rpcRecv_transferId_ne receiving (congrArg Prod.fst (Option.some.inj looked))
  · intro filled reading
    obtain ⟨received, _, rfl⟩ := Option.map_eq_some_iff.mp reading
    have unregistered := lookup_registeServices_of_neg runtime services
      (show 2 ^ 31 ≤ (-1 : Int32).toUInt32.toNat by decide)
    rw [rpcProcessor, if_pos rfl, findAndCall, unregistered]

/-- A request of the echo service is looked up without readers, and not with them. -/
theorem echo_not_sameCall :
    RpcServer.callData (RpcServer.mk (registeServices echoRuntime [[echoFaqcfe]]) false false)
        [.data (MetaData.make (bkdrHash echoFaqcfe).toInt32.neg [10, 2, 104, 105]).chunk] =
      some (some ((bkdrHash echoFaqcfe).toInt32, [10, 2, 104, 105])) ∧
    ¬ SameCall (RpcServer.mk (registeServices echoRuntime [[echoFaqcfe]]) false false)
        [.data (MetaData.make (bkdrHash echoFaqcfe).toInt32.neg [10, 2, 104, 105]).chunk] := by
  have handed := rpcRecv_block false (bkdrHash echoFaqcfe).toInt32.neg [] []
    (show [10, 2, 104, 105].length < bodySize by decide)
  rw [if_pos (by decide)] at handed
  have without : RpcServer.callData (RpcServer.mk (registeServices echoRuntime [[echoFaqcfe]]) false
      false) [.data (MetaData.make (bkdrHash echoFaqcfe).toInt32.neg [10, 2, 104, 105]).chunk] =
        some (some ((bkdrHash echoFaqcfe).toInt32, [10, 2, 104, 105])) := by
    rw [RpcServer.callData, if_neg Bool.false_ne_true, handed]
    decide
  refine ⟨without, ?_⟩
  rintro ⟨call, withReaders, again⟩
  cases withReaders
  rw [without] at again
  exact absurd again (by decide)

end LibEvRpc
