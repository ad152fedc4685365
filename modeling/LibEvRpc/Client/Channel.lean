import LibEvRpc.Server.RpcServer

/-! # The RPC channel of a client

`rpcCommunication` sends one request and receives its response; only the code of a failed receive
counts as a failure there. `Channel.callMethod` connects, communicates and parses the response,
or starts a thread that communicates. The results of `TcpConnect` and the id of a new thread are
parameters.
-/

namespace LibEvRpc

/-- The parts of a `Channel` that its calls use. The constructor for a single server leaves
`center_client_heartbeat_ptr_` as it is; it is taken as null. -/
structure Channel where
  addr : Option Bytes
  port : Option Bytes
  isChannelAsyncCall : Bool
  callLimit : Int32
  tryTime : Int32
  centerClientHeartbeat : Bool
  errorInfo : String
  threadIds : List UInt64
  callTids : AList fun _ : UInt32 => List UInt64

structure RpcCallParams (Message : Type) where
  methodFullName : Bytes
  methodClientName : Bytes
  request : Message
  response : Option Message

/-- The result of `RpcCommunication`, with the error text of the channel and the string received
for the response. -/
structure Communicated where
  ok : Bool
  errorInfo : String
  responseStr : Bytes
deriving DecidableEq

variable {Service Method Message : Type}

/-- `RpcCommunication`. It has no result for a null response. -/
def rpcCommunication (runtime : Runtime Service Method Message) (send : ℕ → Bool)
    (events : List RecvEvent) (errorInfo : String) (rpcParams : RpcCallParams Message) :
    Option Communicated :=
  if rpcParams.response.isNone then none
  else
    match runtime.serializeToString rpcParams.request with
    | none => some ⟨false, "SerializeToString request failed!", []⟩
    | some sendStr =>
        let hashCode := bkdrHash rpcParams.methodFullName
        (rpcSend send hashCode.toInt32 sendStr false).bind fun sent =>
          if sent.ret < 0 then some ⟨false, "Send data error in rpc channel.", []⟩
          else (rpcRecv true events []).bind fun received =>
            if received.transferId = errorRecv then
              some ⟨false, "Recv data error in rpc channel.", received.info⟩
            else some ⟨true, errorInfo, received.info⟩

/-- The connection loop of `CallMethod` on the results of its calls of `TcpConnect`. It has no
result while it goes on. -/
def connectLoop (tryTimes : Int32) : List Int32 → Option Int32
  | [] => none
  | connectFd :: rest =>
      if tcpConnTimeout ≠ connectFd then some connectFd
      else if tryTimes - 1 ≤ 0 then connectLoop (tryTimes - 1) rest
      else some connectFd

/-- The first test of `AsyncRpcCall`: the limit is compared with the size of the table of threads. -/
def Channel.LimitReached (channel : Channel) : Prop :=
  channel.callLimit.toInt64.toUInt64 ≤ UInt64.ofNat channel.callTids.keys.length

instance (channel : Channel) : Decidable channel.LimitReached :=
  inferInstanceAs (Decidable (_ ≤ _))

/-- `AsyncRpcCall` behind `pthread_create`: the id of the new thread is stored under the hash of the
method. -/
def Channel.storeTid (channel : Channel) (tid : UInt64) (methodClientName : Bytes) : Channel :=
  let hashCode := bkdrHash methodClientName
  let callTids :=
    if hashCode ∈ channel.callTids then channel.callTids.modify hashCode fun tids => tids ++ [tid]
    else channel.callTids.insertNew hashCode [tid]
  { channel with callTids, threadIds := channel.threadIds ++ [tid] }

/-- `AsyncRpcCall`, with the id of the new thread. -/
def Channel.asyncRpcCall (channel : Channel) (tid : UInt64) (methodClientName : Bytes) :
    Bool × Channel :=
  if channel.LimitReached then (false, channel) else (true, channel.storeTid tid methodClientName)

/-- What `CallMethod` left behind: the channel, the failures set on the controller, and the
response if one was parsed. -/
structure Called (Message : Type) where
  channel : Channel
  failures : List String
  response : Option Message

/-- `CallMethod`. It has no result while one of the calls it waits for has none, and none with a
heartbeat: the address it then connects to belongs to a string that is gone, and it frees it. -/
def Channel.callMethod (runtime : Runtime Service Method Message) (channel : Channel)
    (connects : List Int32) (send : ℕ → Bool) (events : List RecvEvent) (tid : UInt64)
    (controller : Bool) (rpcParams : RpcCallParams Message) : Option (Called Message) :=
  let setFailed (text : String) := if controller then [text] else []
  if !channel.centerClientHeartbeat && (channel.addr.isNone || channel.port.isNone) then
    some ⟨channel, [], none⟩
  else if channel.centerClientHeartbeat then none
  else (connectLoop channel.tryTime connects).bind fun connectFd =>
    if connectFd < 0 then some ⟨channel, setFailed "Rpc connect server failed!", none⟩
    else if channel.isChannelAsyncCall then
      some ⟨(channel.asyncRpcCall tid rpcParams.methodClientName).2, [], none⟩
    else (rpcCommunication runtime send events channel.errorInfo rpcParams).bind fun result =>
      let channel := { channel with errorInfo := result.errorInfo }
      if result.ok then
        match rpcParams.response.bind fun response =>
            runtime.parseFromString response result.responseStr with
        | none =>
            some ⟨channel, setFailed "SerializeToString response error in RpcChannel!", none⟩
        | some response => some ⟨channel, [], some response⟩
      else some ⟨channel, setFailed result.errorInfo, none⟩

end LibEvRpc
