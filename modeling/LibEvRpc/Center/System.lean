import LibEvRpc.Center.Cluster
import LibEvRpc.Center.Transport
import LibEvRpc.Server.CenterClusterHeartbeat

/-! # Centers, servers and clients

A cluster of centers whose messages may arrive as the string that was sent, or not at all, with the
requests that servers and clients send to the centers that listen, a client in distributed mode and
the heartbeat of a server. These two receive nothing but what some center answered. Election messages
come from centers only.
-/

namespace LibEvRpc

/-- A message that `CenterProcessor` queues for the election thread. -/
def Incoming.isElection : Incoming → Bool
  | .center (some received) => Cluster.isElection received.centerAction
  | .failed | .center none | .client _ | .cluster _ | .other => false

def RouteEffect.answer? : RouteEffect → Option Reply
  | .sent _ reply => some reply
  | .close _ | .pushElectionMessage _ _ | .pushFollowerMessage _ _ => none

/-- The message of a center that a step of a client receives. -/
def DistributedClient.Action.received? : DistributedClient.Action → Option ClientWithCenter
  | .initialise outside => outside.received.join
  | .round exchanged => exchanged.parsed
  | .pushBack | .storeServer | .enterLoop | .remainder _ | .index _ => none

/-- The message of a center that a step of a server receives. -/
def ClusterThread.Action.received? : ClusterThread.Action → Option CenterResponseCluster
  | .start outside _ => outside.received
  | .round _ reinit _ => reinit.received

/-- `CenterProcessor` takes the string of an election message on its way. -/
def Cluster.arrive (stream : CodedStream) (cluster : Cluster) (index : ℕ) : Option Cluster :=
  cluster.flight[index]?.bind fun packet =>
    (Incoming.ofSent stream (.ofElection packet.centersProto)).map fun incoming =>
      let node := cluster.node packet.receiver
      let electionQ := match incoming with
        | .center (some received) =>
            if Cluster.isElection received.centerAction then
              node.electionQ ++ [{ packet with centersProto := received }]
            else node.electionQ
        | _ => node.electionQ
      { cluster.setNode packet.receiver { node with electionQ } with
        flight := cluster.flight.eraseIdx index }

/-- A message on its way is lost with its connection. -/
def Cluster.lose (cluster : Cluster) (index : ℕ) : Option Cluster :=
  if index < cluster.flight.length then
    some { cluster with flight := cluster.flight.eraseIdx index }
  else none

/-- The centers with the servers they buffer, a client, a server, and what the centers answered. -/
structure CenterSystem where
  cluster : Cluster
  rpcServerBuf : Bytes → List RpcClusterServer
  client : DistributedClient
  server : ClusterThread
  answers : List Reply

namespace CenterSystem

def init (config : ClusterConfig) (serverConfig : ConfigParser) : CenterSystem where
  cluster := Cluster.init config
  rpcServerBuf _ := []
  client := DistributedClient.init
  server := ClusterThread.init serverConfig
  answers := []

inductive Action where
  | center (action : Cluster.Action)
  | arrive (index : ℕ)
  | lose (index : ℕ)
  | serve (addr : Bytes) (answering : Answering) (connFd : Int32) (incoming : Incoming)
  | client (action : DistributedClient.Action)
  | server (action : ClusterThread.Action)

def buffered (system : CenterSystem) (addr : Bytes) : BufferedCenter :=
  ⟨(system.cluster.node addr).center, system.rpcServerBuf addr⟩

/-- `CenterProcessor` of a center on a request that is not a message of an election. -/
def serve (system : CenterSystem) (addr : Bytes) (answering : Answering) (connFd : Int32)
    (incoming : Incoming) : Option CenterSystem :=
  let node := system.cluster.node addr
  if node.listening ∧ !incoming.isElection then
    ((system.buffered addr).centerProcessor answering connFd incoming).map fun routed =>
      { cluster := system.cluster.setNode addr { node with center := routed.state.center }
        rpcServerBuf := Function.update system.rpcServerBuf addr routed.state.rpcServerBuf
        client := system.client
        server := system.server
        answers := system.answers ++ routed.effects.filterMap RouteEffect.answer? }
  else none

def step (config : ClusterConfig) (stream : CodedStream) (system : CenterSystem) :
    Action → Option CenterSystem
  | .center action =>
      (system.cluster.step config action).map fun cluster => { system with cluster }
  | .arrive index =>
      (system.cluster.arrive stream index).map fun cluster => { system with cluster }
  | .lose index => (system.cluster.lose index).map fun cluster => { system with cluster }
  | .serve addr answering connFd incoming => system.serve addr answering connFd incoming
  | .client action =>
      if action.received?.all fun received => .client received ∈ system.answers then
        (system.client.step action).map fun client => { system with client }
      else none
  | .server action =>
      if action.received?.all fun received => .cluster received ∈ system.answers then
        (system.server.step action).map fun server => { system with server }
      else none

end CenterSystem

end LibEvRpc
