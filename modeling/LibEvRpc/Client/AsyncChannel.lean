import LibEvRpc.Client.Channel
import LibEvRpc.ToMathlib.Run

/-! # Asynchronous calls on one channel

One thread makes the calls and takes their responses, and each call has a thread of its own. The
calls share `connect_fd_`: `RpcSend` and `RpcRecv` of a call read it when they begin. The thread of a
call deletes its parameters at its end, and the calling thread reads a name in them behind
`pthread_create`. A connection is known by the call it was opened for, and a table says which one a
descriptor stands for; receiving a response closes the descriptor. A response is known by the call it
answers, and the server answers on each connection in the order of the requests. Connections and
exchanges succeed.
-/

namespace LibEvRpc

/-- A response that a call received, with the connection it arrived on. -/
structure AsyncResponse where
  call : ℕ
  conn : ℕ
deriving DecidableEq

/-- Where the thread of a call is. It has deleted its parameters when it has ended. -/
inductive CallPhase where
  | dropped
  | created
  | sending (fd : Int32)
  | sent
  | receiving (fd : Int32)
  | received (response : AsyncResponse)
  | stored
  | ended
  | joined
deriving DecidableEq

/-- A channel in asynchronous mode: the calls by number, the one whose thread the calling thread has
still to store, the connections, and the responses that `GetAsyncResponse` gave. A read of deleted
parameters is remembered. -/
structure AsyncChannel where
  channel : Channel
  connectFd : Int32
  names : List Bytes
  storing : Option ℕ
  tid : ℕ → UInt64
  phase : ℕ → CallPhase
  callResults : UInt64 → Option AsyncResponse
  table : Int32 → Option ℕ
  requests : ℕ → List ℕ
  responses : ℕ → List ℕ
  gets : List (Bytes × AsyncResponse)
  readsDeleted : Bool

namespace AsyncChannel

/-- A channel behind its constructor and `OpenRpcAsyncMode`. -/
def init (channel : Channel) : AsyncChannel where
  channel := { channel with isChannelAsyncCall := true, threadIds := [], callTids := ∅ }
  connectFd := 0
  names := []
  storing := none
  tid _ := 0
  phase _ := .dropped
  callResults _ := none
  table _ := none
  requests _ := []
  responses _ := []
  gets := []
  readsDeleted := false

/-- A step of the calling thread, of the thread of a call, or of the server. -/
inductive Action where
  | callMethod (fd : Int32) (tid : UInt64) (methodClientName : Bytes)
  | storeTid
  | rpcSend (call : ℕ)
  | send (call : ℕ)
  | answer (conn : ℕ)
  | rpcRecv (call : ℕ)
  | recv (call : ℕ)
  | store (call : ℕ)
  | delete (call : ℕ)
  | getAsyncResponse (methodName : Bytes)
deriving DecidableEq

def setPhase (state : AsyncChannel) (call : ℕ) (phase : CallPhase) : AsyncChannel :=
  { state with phase := Function.update state.phase call phase }

/-- The call whose thread has an id and was not joined. -/
def threadOf (state : AsyncChannel) (tid : UInt64) : Option ℕ :=
  (List.range state.names.length).find? fun call =>
    state.tid call = tid ∧ state.phase call ≠ .dropped ∧ state.phase call ≠ .joined

/-- `CallMethod` up to `pthread_create`: the connection is opened also for a call that the limit drops.
The new thread gets an id that no thread has. -/
def callMethod (state : AsyncChannel) (fd : Int32) (tid : UInt64) (methodClientName : Bytes) :
    Option AsyncChannel :=
  if state.storing = none ∧ state.channel.centerClientHeartbeat = false ∧ state.channel.addr.isSome ∧
      state.channel.port.isSome ∧ 0 ≤ fd ∧ state.table fd = none ∧ state.threadOf tid = none then
    let call := state.names.length
    some { state with
      connectFd := fd
      names := state.names ++ [methodClientName]
      storing := if state.channel.LimitReached then none else some call
      tid := Function.update state.tid call tid
      phase := Function.update state.phase call
        (if state.channel.LimitReached then .dropped else .created)
      table := Function.update state.table fd (some call) }
  else none

/-- The rest of `AsyncRpcCall`. The name of the method is read from the parameters of the thread. -/
def storeTid (state : AsyncChannel) : Option AsyncChannel :=
  state.storing.bind fun call =>
    state.names[call]?.map fun methodClientName =>
      if state.phase call = .ended then { state with readsDeleted := true }
      else { state with
        channel := state.channel.storeTid (state.tid call) methodClientName
        storing := none }

/-- `GetAsyncResponse`, once the thread it joins has ended. -/
def getAsyncResponse (state : AsyncChannel) (methodName : Bytes) : Option AsyncChannel :=
  let methodCode := bkdrHash methodName
  if state.storing.isSome then none
  else
    match (state.channel.callTids.lookup methodCode).getD [] with
    | [] => some state
    | curTid :: _ =>
        (state.threadOf curTid).bind fun call =>
          if state.phase call = .ended then
            let channel := { state.channel with
              callTids := state.channel.callTids.modify methodCode List.tail }
            let state := { state with channel }.setPhase call .joined
            match state.callResults curTid with
            | none => some state
            | some response =>
                some { state with
                  callResults := Function.update state.callResults curTid none
                  gets := state.gets ++ [(methodName, response)] }
          else none

/-- The state behind a step of a process that goes on. -/
def advance (state : AsyncChannel) : Action → Option AsyncChannel
  | .callMethod fd tid methodClientName => state.callMethod fd tid methodClientName
  | .storeTid => state.storeTid
  | .rpcSend call =>
      if state.phase call = .created then some (state.setPhase call (.sending state.connectFd))
      else none
  | .send call =>
      match state.phase call with
      | .sending fd =>
          (state.table fd).map fun conn =>
            { state with
              requests := Function.update state.requests conn (state.requests conn ++ [call]) }.setPhase
                call .sent
      | _ => none
  | .answer conn =>
      match state.requests conn with
      | [] => none
      | call :: rest =>
          some { state with
            requests := Function.update state.requests conn rest
            responses := Function.update state.responses conn (state.responses conn ++ [call]) }
  | .rpcRecv call =>
      if state.phase call = .sent then some (state.setPhase call (.receiving state.connectFd))
      else none
  | .recv call =>
      match state.phase call with
      | .receiving fd =>
          (state.table fd).bind fun conn =>
            match state.responses conn with
            | [] => none
            | answered :: rest =>
                some ({ state with
                  table := Function.update state.table fd none
                  responses := Function.update state.responses conn rest }.setPhase
                    call (.received ⟨answered, conn⟩))
      | _ => none
  | .store call =>
      match state.phase call with
      | .received response =>
          some ({ state with
            callResults := Function.update state.callResults (state.tid call) (some response) }.setPhase
              call .stored)
      | _ => none
  | .delete call =>
      if state.phase call = .stored then some (state.setPhase call .ended) else none
  | .getAsyncResponse methodName => state.getAsyncResponse methodName

/-- Behind a read of deleted parameters nothing is known. -/
def step (state : AsyncChannel) (action : Action) : Option AsyncChannel :=
  if state.readsDeleted then none else state.advance action

end AsyncChannel

end LibEvRpc
