import LibEvRpc.Server.DispatchThread
import LibEvRpc.Server.LibevThreadPool
import LibEvRpc.Server.RpcServer

/-! # Connections in the process of a server

The event loop accepts connections, and when one can be read `RpcCall` dispatches `RpcProcessor` for its
descriptor to the pool of workers. A worker receives, answers and closes. The system gives the number of
a descriptor that was closed to a later connection, so it is kept for the record which connection an
open descriptor is for. A null method ends the process, which then has no result.
-/

namespace LibEvRpc

variable {Service Method Message : Type}

/-- The descriptors that an action closes. A writer closes later. -/
def ServerAction.closedFds : ServerAction Service Method Message → List Int32
  | .close fd => [fd]
  | .rpcSend fd _ sent => List.replicate sent.closes fd
  | .callMethod _ _ | .rpcWriter _ _ | .nullDereference => []

def ServerAction.crashes : ServerAction Service Method Message → Bool
  | .nullDereference => true
  | .close _ | .callMethod _ _ | .rpcSend _ _ _ | .rpcWriter _ _ => false

/-- The event loop and the pool of a server, with the descriptor and the connection that the parameters
of each call are for, the calls that workers are making, and every close, by the connection it was made
for and the one the descriptor was open for. -/
structure ServerProcess where
  dispatch : DispatchThread
  pool : LibevThreadPool
  params : List (Int32 × ℕ)
  running : ℕ → Option ℕ
  owner : Int32 → Option ℕ
  closings : List (ℕ × Option ℕ)

namespace ServerProcess

def start (numThreads : ℕ) (threadId : ℕ → UInt64) : ServerProcess where
  dispatch := .init
  pool := .start numThreads threadId
  params := []
  running _ := none
  owner _ := none
  closings := []

/-- A step of one thread: a callback of the event loop, a part of a dispatch or of a worker that makes no
call, and the begin and the end of `RpcProcessor`. -/
inductive Action where
  | acceptCb (cfd : Int32)
  | processCb (item : ℕ)
  | pool (action : LibevThreadPool.Action)
  | execute (thread : ℕ)
  | complete (thread : ℕ) (events : List RecvEvent) (send : ℕ → Bool)

def close (process : ServerProcess) (connection : ℕ) (fd : Int32) : ServerProcess :=
  { process with
    owner := Function.update process.owner fd none
    closings := process.closings ++ [(connection, process.owner fd)] }

/-- `AcceptCb` of a connection, to which the system gives a descriptor that is not open. -/
def acceptCb (process : ServerProcess) (cfd : Int32) : Option ServerProcess :=
  if 0 ≤ cfd ∧ process.owner cfd = none then
    (process.dispatch.watch cfd).map fun dispatch =>
      { process with
        dispatch
        owner := Function.update process.owner cfd (some process.dispatch.accepted) }
  else none

/-- `ProcessCb`, up to the begin of `DispatchRpcCall` in `RpcCall`. -/
def processCb (process : ServerProcess) (item : ℕ) : Option ServerProcess :=
  (process.dispatch.processCb item).bind fun dispatch =>
    (process.pool.step .dispatchRpcCall).map fun pool =>
      { process with
        dispatch
        pool
        params := process.params ++ [(process.dispatch.eio item).swap] }

/-- A step of `DispatchRpcCall` or of a worker. If there is no item `RpcCall` closes the connection. -/
def poolStep (process : ServerProcess) : LibevThreadPool.Action → Option ServerProcess
  | .dispatchRpcCall | .execute _ | .complete _ => none
  | .malloc call false =>
      (process.params[call]?).bind fun param =>
        (process.pool.step (.malloc call false)).map fun pool =>
          { process with pool }.close param.2 param.1
  | action => (process.pool.step action).map fun pool => { process with pool }

/-- A worker begins `RpcProcessor` for the call of its item. -/
def execute (process : ServerProcess) (thread : ℕ) : Option ServerProcess :=
  match (process.pool.libevThreads thread).phase with
  | .popped (some item) =>
      (process.pool.step (.execute thread)).map fun pool =>
        { process with
          pool
          running := Function.update process.running thread (some (process.pool.param item)) }
  | _ => none

/-- `RpcProcessor` returns, on what its connection received and on the results of its calls of `send`. -/
def complete (runtime : Runtime Service Method Message) (server : RpcServer Service Method Message)
    (process : ServerProcess) (thread : ℕ) (events : List RecvEvent) (send : ℕ → Bool) :
    Option ServerProcess :=
  (process.running thread).bind fun call =>
    (process.params[call]?).bind fun param =>
      (rpcProcessor runtime server send param.1 events).bind fun actions =>
        if actions.any ServerAction.crashes then none
        else (process.pool.step (.complete thread)).map fun pool =>
          (actions.flatMap ServerAction.closedFds).foldl (fun process fd => process.close param.2 fd)
            { process with pool, running := Function.update process.running thread none }

def step (runtime : Runtime Service Method Message) (server : RpcServer Service Method Message)
    (process : ServerProcess) : Action → Option ServerProcess
  | .acceptCb cfd => process.acceptCb cfd
  | .processCb item => process.processCb item
  | .pool action => process.poolStep action
  | .execute thread => process.execute thread
  | .complete thread events send => complete runtime server process thread events send

end ServerProcess

end LibEvRpc
