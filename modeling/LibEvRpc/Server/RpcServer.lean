import LibEvRpc.ToMathlib.AListUpdate
import LibEvRpc.Util.RpcUtil

/-! # The RPC server

`registeService` fills the table of methods under the hashes of their full names. `rpcProcessor`
serves one connection: it receives a message, looks its id up, parses the request, calls the
service and sends the response. The block that finds the method declares its own `rpc_method` and
`request`; the variables used behind it are the outer ones, which are still null.
-/

namespace LibEvRpc

/-- The part of the protobuf runtime and of the services the server is linked with that the
channel and the server use. Serialisation refuses what does not fit an `int`. -/
structure Runtime (Service Method Message : Type) where
  methods : Service → List Method
  fullName : Method → Bytes
  requestPrototype : Service → Method → Message
  responsePrototype : Service → Method → Message
  new : Message → Message
  parseFromString : Message → Bytes → Option Message
  serializeToString : Message → Option Bytes
  callMethod : Service → Method → Option Message → Message → Message
  serializeToString_length : ∀ message info,
    serializeToString message = some info → info.length < 2 ^ 31

structure RpcMethod (Service Method Message : Type) where
  service : Service
  request : Message
  response : Message
  method : Method
deriving DecidableEq

abbrev HashMap (Service Method Message : Type) :=
  AList fun _ : UInt32 => RpcMethod Service Method Message

/-- The table of methods, and which of the optional pools were started. -/
structure RpcServer (Service Method Message : Type) where
  methodHashmap : HashMap Service Method Message
  readerThreads : Bool
  writerThreads : Bool

variable {Service Method Message : Type}

/-! ## Registration -/

/-- The entry made for one method of a service. -/
def Runtime.rpcMethod (runtime : Runtime Service Method Message) (service : Service)
    (method : Method) : RpcMethod Service Method Message where
  service
  request := runtime.requestPrototype service method
  response := runtime.responsePrototype service method
  method

/-- The hash an entry is filed under. -/
def RpcMethod.hashCode (runtime : Runtime Service Method Message)
    (rpcMethod : RpcMethod Service Method Message) : UInt32 :=
  bkdrHash (runtime.fullName rpcMethod.method)

/-- One iteration of `RegisteService`. A conflicting entry is replaced. -/
def registeMethod (runtime : Runtime Service Method Message)
    (table : HashMap Service Method Message) (rpcMethod : RpcMethod Service Method Message) :
    HashMap Service Method Message :=
  let hashCode := rpcMethod.hashCode runtime
  if hashCode ∈ table then table.modify hashCode fun _ => rpcMethod
  else table.insertNew hashCode rpcMethod

def registeService (runtime : Runtime Service Method Message)
    (table : HashMap Service Method Message) (regService : Service) :
    HashMap Service Method Message :=
  (runtime.methods regService).foldl
    (fun table method => registeMethod runtime table (runtime.rpcMethod regService method)) table

/-- Successive calls of `RegisteService` on a new server. -/
def registeServices (runtime : Runtime Service Method Message) (services : List Service) :
    HashMap Service Method Message :=
  services.foldl (registeService runtime) ∅

/-! ## Serving a connection -/

/-- What happens outside the server while it serves a connection. -/
inductive ServerAction (Service Method Message : Type) where
  | close (fd : Int32)
  | callMethod (rpcMethod : RpcMethod Service Method Message) (request : Option Message)
  | rpcSend (fd : Int32) (info : Bytes) (sent : Sent)
  | rpcWriter (fd : Int32) (response : Message)
  | nullDereference

/-- The part of `RpcProcessor` behind the block that finds the method. -/
def callAndRespond (runtime : Runtime Service Method Message)
    (server : RpcServer Service Method Message) (send : ℕ → Bool) (eventFd : Int32)
    (rpcMethod : Option (RpcMethod Service Method Message)) (request : Option Message) :
    Option (List (ServerAction Service Method Message)) :=
  match rpcMethod with
  | none => some [.nullDereference]
  | some rpcMethod =>
      let response := runtime.callMethod rpcMethod.service rpcMethod.method request
        (runtime.new rpcMethod.response)
      match runtime.serializeToString response with
      | none => some [.callMethod rpcMethod request, .close eventFd]
      | some responseStr =>
          if server.writerThreads then
            some [.callMethod rpcMethod request, .rpcWriter eventFd response]
          else (LibEvRpc.rpcSend send 0 responseStr true).map fun sent =>
            [.callMethod rpcMethod request, .rpcSend eventFd responseStr sent]

/-- The part of `RpcProcessor` behind the receipt of a call. -/
def findAndCall (runtime : Runtime Service Method Message)
    (server : RpcServer Service Method Message) (send : ℕ → Bool) (eventFd : Int32)
    (callId : Int32) (recvInfo : Bytes) : Option (List (ServerAction Service Method Message)) :=
  let request : Option Message := none
  let rpcMethod : Option (RpcMethod Service Method Message) := none
  match server.methodHashmap.lookup callId.toUInt32 with
  | none => some [.close eventFd]
  | some found =>
      -- the method and the request found here are variables of the inner block
      match runtime.parseFromString (runtime.new found.request) recvInfo with
      | none => some [.close eventFd]
      | some _ => callAndRespond runtime server send eventFd rpcMethod request

/-- `RpcProcessor` on the receive outcomes of its connection. It has no result while `RpcRecv`
has none. -/
def rpcProcessor (runtime : Runtime Service Method Message)
    (server : RpcServer Service Method Message) (send : ℕ → Bool) (eventFd : Int32)
    (events : List RecvEvent) : Option (List (ServerAction Service Method Message)) :=
  if server.readerThreads then findAndCall runtime server send eventFd (-1) []
  else (rpcRecv false events []).bind fun received =>
    if received.transferId = errorRecv then some [.close eventFd]
    else findAndCall runtime server send eventFd received.transferId received.info

/-! ## With a pool of readers -/

/-- `CallBackParams`, without its pointers. -/
structure CallBackParams where
  eventFd : Int32
  callId : Int32
  recvInfo : Bytes
deriving DecidableEq

/-- `RpcReader` up to its dispatch of `RpcProcessor` with the parameters it filled. -/
def rpcReader (events : List RecvEvent) (cbParams : CallBackParams) : Option CallBackParams :=
  (rpcRecv false events cbParams.recvInfo).map fun received =>
    { cbParams with callId := received.transferId, recvInfo := received.info }

/-- The call id and the payload with which `RpcProcessor` goes to the table of methods, unless its
receive fails. Of its parameters it reads the descriptor only. -/
def RpcServer.callData (server : RpcServer Service Method Message) (events : List RecvEvent) :
    Option (Option (Int32 × Bytes)) :=
  if server.readerThreads then some (some (-1, []))
  else (rpcRecv false events []).map fun received =>
    if received.transferId = errorRecv then none else some (received.transferId, received.info)

end LibEvRpc
