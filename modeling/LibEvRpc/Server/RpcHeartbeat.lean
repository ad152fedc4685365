import LibEvRpc.Server.ConnectionTimerManager

/-! # Heartbeats of clients

Every client with an open heartbeat pings the server with its address in datagrams, which can be lost,
repeated and reordered. A thread of the server, which the timer manager starts once, shall give the
addresses to the manager, which refreshes the timers of these clients when it visits them. The
descriptors and the results of `sendto` and `recvfrom` are parameters. A pointer that was never set has
no result, unless it happens to be null.
-/

namespace LibEvRpc

/-! ## The server -/

/-- What `epoller_` of a heartbeat server is. -/
inductive Epoller where
  | unset
  | null
  | loop (serverFd : Int32)
deriving DecidableEq

/-- How far the thread of a heartbeat server got. -/
inductive RpcHeartbeatServer.Phase where
  | created
  | looping (serverFd : Int32)
  | returned
deriving DecidableEq

structure RpcHeartbeatServer where
  epoller : Epoller
  phase : RpcHeartbeatServer.Phase
deriving DecidableEq

namespace RpcHeartbeatServer

/-- The constructor does not set the loop, which can be null. -/
def new (null : Bool) : RpcHeartbeatServer := ⟨if null then .null else .unset, .created⟩

/-- `InitHeartbeatServer` on the result of `UdpServerInit`. -/
def initHeartbeatServer (server : RpcHeartbeatServer) (serverFd : Int32) :
    Bool × RpcHeartbeatServer :=
  if serverFd < 0 then (false, server) else (true, { server with epoller := .loop serverFd })

/-- `Run`, up to the loop if it comes there. -/
def run (server : RpcHeartbeatServer) (serverFd : Int32) : Option RpcHeartbeatServer :=
  let (initialised, server) := server.initHeartbeatServer serverFd
  if initialised then some { server with phase := .returned }
  else
    match server.epoller with
    | .unset => none
    | .null => some { server with phase := .returned }
    | .loop serverFd => some { server with phase := .looping serverFd }

end RpcHeartbeatServer

/-- `HeartBeatProcessor` on what the socket gives, with the rest of it. The address of a message that
was not received is empty. -/
def heartBeatProcessor (error : Bool) (manager : ConnectionTimerManager) (socket : List RecvEvent) :
    Option (ConnectionTimerManager × List RecvEvent) :=
  if error then some (manager, socket)
  else (rpcRecvFrom false socket []).map fun received =>
    (manager.insertRefreshConnectionInfo received.info, received.rest)

/-! ## The clients -/

/-- How far the thread of a heartbeat client got. -/
inductive RpcHeartbeatClient.Phase where
  | created
  | pinging
  | returned
deriving DecidableEq

/-- `RpcHeartbeatClient`, with the address of its host. -/
structure RpcHeartbeatClient where
  hbServerAddr : Option Bytes
  hbServerPort : Option Bytes
  localAddress : Bytes
  phase : RpcHeartbeatClient.Phase
deriving DecidableEq

namespace RpcHeartbeatClient

/-- `CreateRpcConnection` on the result of `UdpClientInit`. -/
def createRpcConnection (client : RpcHeartbeatClient) (connectFd : Int32) : Bool :=
  client.hbServerAddr.isSome && client.hbServerPort.isSome && !(connectFd < 0)

/-- `Run`, up to its loop. -/
def start (client : RpcHeartbeatClient) (connectFd : Int32) : RpcHeartbeatClient :=
  { client with phase := if client.createRpcConnection connectFd then .pinging else .returned }

/-- The datagrams of one iteration of the loop, which goes on whatever becomes of them. -/
def ping (client : RpcHeartbeatClient) (sendto : ℕ → Bool) : Option (List MetaData) :=
  (rpcSendTo sendto client.localAddress false).map Sent.blocks

end RpcHeartbeatClient

/-! ## All of them -/

/-- The timers, the thread that shall receive heartbeats, the clients, the datagrams under way and those
at the socket. -/
structure HeartbeatSystem where
  wheel : TimerWheel
  server : RpcHeartbeatServer
  clients : List RpcHeartbeatClient
  flight : List MetaData
  socket : List RecvEvent

namespace HeartbeatSystem

/-- `Run` of the manager begins. -/
def init (refreshInterval now : Int) (null : Bool) (clients : List RpcHeartbeatClient) :
    HeartbeatSystem where
  wheel := .init (.init refreshInterval) now
  server := .new null
  clients
  flight := []
  socket := []

/-- What can happen next: anything at the timers but a heartbeat, a step of a thread, and a datagram that
arrives, and may do so again, or is lost. -/
inductive Action where
  | timer (event : TimerWheel.Event)
  | server (serverFd : Int32)
  | client (index : ℕ) (connectFd : Int32)
  | ping (index : ℕ) (sendto : ℕ → Bool)
  | arrive (index : ℕ)
  | lose (index : ℕ)
  | fail
  | readable (error : Bool)

def isHeartbeat : TimerWheel.Event → Bool
  | .insertRefreshConnectionInfo _ => true
  | _ => false

/-- The system behind an action. Each thread is started once. -/
def step (system : HeartbeatSystem) : Action → Option HeartbeatSystem
  | .timer event =>
      if isHeartbeat event then none
      else (system.wheel.step event).map fun wheel => { system with wheel }
  | .server serverFd =>
      if system.server.phase = .created then
        (system.server.run serverFd).map fun server => { system with server }
      else none
  | .client index connectFd =>
      (system.clients[index]?).bind fun client =>
        if client.phase = .created then
          some { system with clients := system.clients.set index (client.start connectFd) }
        else none
  | .ping index sendto =>
      (system.clients[index]?).bind fun client =>
        if client.phase = .pinging then
          (client.ping sendto).map fun blocks => { system with flight := system.flight ++ blocks }
        else none
  | .arrive index =>
      (system.flight[index]?).map fun block =>
        { system with socket := system.socket ++ [.data block.chunk] }
  | .lose index => some { system with flight := system.flight.eraseIdx index }
  | .fail => some { system with socket := system.socket ++ [.error] }
  | .readable error =>
      match system.server.phase with
      | .looping _ =>
          (heartBeatProcessor error system.wheel.manager system.socket).map fun processed =>
            { system with
              wheel := { system.wheel with manager := processed.1 }
              socket := processed.2 }
      | .created | .returned => none

end HeartbeatSystem

end LibEvRpc
