import LibEvRpc.Client.Channel
import LibEvRpc.ToMathlib.Run

/-! # Threads of asynchronous calls

A channel in asynchronous mode is used by one thread, one call after the other, and destroyed at the
end. The results of `TcpConnect` and the ids of new threads are parameters; what the threads do and
the responses that they leave are not part of this module.
-/

namespace LibEvRpc

/-- What `CallMethod` did in asynchronous mode: the connection that it opened, whether the limit turned
the call away, the failures set on the controller, and the descriptors that it closed. -/
structure AsyncCalled where
  channel : Channel
  connectFd : Option Int32
  turnedAway : Bool
  failures : List String
  closed : List Int32

/-- `CallMethod` in asynchronous mode. It does not read the result of `AsyncRpcCall`, and has no result
with a heartbeat, as in synchronous mode. -/
def Channel.callMethodAsync (channel : Channel) (connects : List Int32) (tid : UInt64)
    (controller : Bool) (methodClientName : Bytes) : Option AsyncCalled :=
  if !channel.centerClientHeartbeat && (channel.addr.isNone || channel.port.isNone) then
    some ⟨channel, none, false, [], []⟩
  else if channel.centerClientHeartbeat then none
  else (connectLoop channel.tryTime connects).map fun connectFd =>
    if connectFd < 0 then
      ⟨channel, none, false, if controller then ["Rpc connect server failed!"] else [], []⟩
    else
      let (started, channel) := channel.asyncRpcCall tid methodClientName
      ⟨channel, some connectFd, !started, [], []⟩

/-- A channel with the threads that it created and those that `GetAsyncResponse` joined. -/
structure AsyncThreads where
  channel : Channel
  created : List UInt64
  joined : List UInt64

namespace AsyncThreads

/-- A channel behind its constructor and `OpenRpcAsyncMode`. -/
def init (channel : Channel) : AsyncThreads where
  channel := { channel with isChannelAsyncCall := true, threadIds := [], callTids := ∅ }
  created := []
  joined := []

inductive Action where
  | callMethod (connects : List Int32) (tid : UInt64) (controller : Bool) (methodClientName : Bytes)
  | getAsyncResponse (methodName : Bytes)
deriving DecidableEq

/-- `GetAsyncResponse`, up to the end of the thread that it joins. -/
def getAsyncResponse (state : AsyncThreads) (methodName : Bytes) : AsyncThreads :=
  let methodCode := bkdrHash methodName
  match (state.channel.callTids.lookup methodCode).getD [] with
  | [] =>
      { state with channel := { state.channel with errorInfo := "Get the response list failed" } }
  | curTid :: _ =>
      { state with
        channel := { state.channel with
          callTids := state.channel.callTids.modify methodCode List.tail }
        joined := state.joined ++ [curTid] }

/-- The state behind a call. A call whose connection loop goes on has no result. -/
def step (state : AsyncThreads) : Action → Option AsyncThreads
  | .callMethod connects tid controller methodClientName =>
      (state.channel.callMethodAsync connects tid controller methodClientName).map fun called =>
        { state with
          channel := called.channel
          created :=
            if called.connectFd.isSome && !called.turnedAway then state.created ++ [tid]
            else state.created }
  | .getAsyncResponse methodName => some (state.getAsyncResponse methodName)

/-- The threads that `~Channel` joins. -/
def destroy (state : AsyncThreads) : List UInt64 := state.channel.threadIds

end AsyncThreads

end LibEvRpc
