import LibEvRpc.Client.Channel
import LibEvRpc.Server.ServerProcess

/-! # A remote call

`CallMethod` of a client and `RpcProcessor` of the server that it is connected to. Blocks arrive as they
were sent, with the end of the connection behind them. A server without a pool of readers receives the
request before it closes, so that its close does not lose what it sent.
-/

namespace LibEvRpc

variable {Service Method Message : Type}

/-- What the server receives of a request: the blocks of it that were sent, and the end of the
connection if the client closed it over a failure. -/
def requestEvents (runtime : Runtime Service Method Message) (send : ℕ → Bool)
    (rpcParams : RpcCallParams Message) : List RecvEvent :=
  ((runtime.serializeToString rpcParams.request).bind fun sendStr =>
    rpcSend send (bkdrHash rpcParams.methodFullName).toInt32 sendStr false).elim [] fun sent =>
      wholeBlocks sent.blocks ++ List.replicate sent.closes .eof

def ServerAction.sentBlocks : ServerAction Service Method Message → List MetaData
  | .rpcSend _ _ sent => sent.blocks
  | .close _ | .callMethod _ _ | .rpcWriter _ _ | .nullDereference => []

def ServerAction.endsConnection (action : ServerAction Service Method Message) : Bool :=
  action.crashes || !action.closedFds.isEmpty

/-- What the client receives of what `RpcProcessor` did, and nothing while `RpcProcessor` waits. -/
def answerEvents (processed : Option (List (ServerAction Service Method Message))) : List RecvEvent :=
  processed.elim [] fun actions =>
    wholeBlocks (actions.flatMap ServerAction.sentBlocks) ++
      if actions.any ServerAction.endsConnection then [.eof] else []

/-- A call over a new connection. It has no result when the client waits for ever. -/
def remoteCall (runtime : Runtime Service Method Message) (server : RpcServer Service Method Message)
    (channel : Channel) (connects : List Int32) (send serverSend : ℕ → Bool) (eventFd : Int32)
    (tid : UInt64) (controller : Bool) (rpcParams : RpcCallParams Message) : Option (Called Message) :=
  channel.callMethod runtime connects send
    (answerEvents (rpcProcessor runtime server serverSend eventFd
      (requestEvents runtime send rpcParams)))
    tid controller rpcParams

end LibEvRpc
