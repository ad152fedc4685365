import LibEvRpc.Center.RpcCenter
import Mathlib.Logic.Function.Basic

/-! # A cluster of centers

Every center of the file runs `StartCenter`: it starts its server thread, which listens at some
later moment, and its election thread, asks the centers it does not know, and proposes its leader
to all others, one connection after the other. A message is sent if the receiver listens; it is
delivered unchanged and in any order to the queue of the receiver, from where the election thread
takes one at a time. The server thread closes a connection once its message is queued, so a center
that waits for an answer may see the end of the stream instead, which parses as the empty message.
-/

namespace LibEvRpc

open RpcCenter

/-- Centers with distinct addresses that share one file of centers, and an outside on which no call
fails. -/
structure ClusterConfig where
  centers : List Bytes
  startTime : Bytes → UInt64
  virtualNodeNum : Bytes → Int32
  outside : Outside
  nodup : centers.Nodup
  dotted : ∀ addr ∈ centers, ∃ address, addr = inetNtoa address
  several : 2 ≤ centers.length
  createOk : outside.createOk = true
  serializes : ∀ info, outside.serializes info = true

/-- A message on a connection of its own, with the center that opened it. -/
structure Packet where
  peer : Bytes
  receiver : Bytes
  centersProto : CentersProto
deriving DecidableEq

/-- How far `StartCenter` got, with the centers that its loops have still to visit. -/
inductive Phase where
  | off
  | booted
  | inquiring (rest : List Bytes) (info : CentersProto)
  | waiting (next : Bytes) (rest : List Bytes) (info : CentersProto)
  | broadcasting (rest : List Bytes) (info : CentersProto)
  | started
deriving DecidableEq

structure Node where
  center : RpcCenter
  phase : Phase
  listening : Bool
  electionQ : List Packet

/-- The centers, the messages on their way and the answers on their way back. The failed
connections are counted for the record. -/
structure Cluster where
  node : Bytes → Node
  flight : List Packet
  replies : List Packet
  failedConnects : ℕ

namespace Cluster

def init (config : ClusterConfig) : Cluster where
  node addr :=
    { center := initRpcCenter addr (config.startTime addr) (config.virtualNodeNum addr) config.centers
      phase := .off
      listening := false
      electionQ := [] }
  flight := []
  replies := []
  failedConnects := 0

inductive Action where
  | boot (addr : Bytes)
  | listen (addr : Bytes)
  | elect (addr : Bytes)
  | inquire (addr : Bytes)
  | answered (addr : Bytes)
  | hangUp (addr : Bytes)
  | propose (addr : Bytes)
  | broadcast (addr : Bytes)
  | deliver (index : ℕ)
  | process (addr : Bytes)

def setNode (cluster : Cluster) (addr : Bytes) (node : Node) : Cluster :=
  { cluster with node := Function.update cluster.node addr node }

/-- Connect to the receiver of a message and send it. -/
def transmit (cluster : Cluster) (packet : Packet) : Cluster :=
  if (cluster.node packet.receiver).listening then
    { cluster with flight := cluster.flight ++ [packet] }
  else { cluster with failedConnects := cluster.failedConnects + 1 }

/-- What the cluster makes of an effect of a center that processed a message of a peer. An answer
reaches a peer that still waits for it. -/
def effect (addr peer : Bytes) (cluster : Cluster) : Effect → Cluster
  | .rpcSend _ _ info =>
      match (cluster.node peer).phase with
      | .waiting next _ _ =>
          if next = addr then { cluster with replies := cluster.replies ++ [⟨addr, peer, info⟩] }
          else cluster
      | _ => cluster
  | .broadcast centers info =>
      centers.foldl (fun cluster next => cluster.transmit ⟨addr, next, info⟩) cluster
  | .close _ => cluster

/-- The actions that `CenterProcessor` queues for the election thread. -/
def isElection : CenterAction → Bool
  | .inquiry | .proposal | .accept | .refused | .leaderConfirm => true
  | .followerPing | .leaderPingResponse | .centerReporter => false

/-- `InitRpcCenter` is done and the server thread is started. -/
def boot (config : ClusterConfig) (cluster : Cluster) (addr : Bytes) : Option Cluster :=
  let node := cluster.node addr
  match node.phase with
  | .off =>
      let (started, centerServerThread) :=
        node.center.centerServerThread.start config.outside.toPlatform
      if addr ∈ config.centers ∧ started then
        some (cluster.setNode addr
          { node with center := { node.center with centerServerThread }, phase := .booted })
      else none
  | _ => none

/-- The server thread begins to listen. -/
def listen (cluster : Cluster) (addr : Bytes) : Option Cluster :=
  let node := cluster.node addr
  match node.phase with
  | .off => none
  | _ => if node.listening then none
      else some (cluster.setNode addr { node with listening := true })

/-- `StartFastLeaderElection` up to the loop of `InquiryCenters`. -/
def elect (config : ClusterConfig) (cluster : Cluster) (addr : Bytes) : Option Cluster :=
  let node := cluster.node addr
  match node.phase with
  | .booted =>
      let (started, center) := node.center.startElectionThread config.outside.toPlatform
      if started then
        let rest := if config.outside.serializes center.inquiryProto then center.otherCenters.keys
          else []
        some (cluster.setNode addr { node with center, phase := .inquiring rest center.inquiryProto })
      else none
  | _ => none

/-- One iteration of `InquiryCenters`, up to the receipt of an answer. -/
def inquire (cluster : Cluster) (addr : Bytes) : Option Cluster :=
  let node := cluster.node addr
  match node.phase with
  | .inquiring (next :: rest) info =>
      if node.center.inquired next then
        let phase := if (cluster.node next).listening then .waiting next rest info
          else .inquiring rest info
        some ((cluster.setNode addr { node with phase }).transmit ⟨addr, next, info⟩)
      else some (cluster.setNode addr { node with phase := .inquiring rest info })
  | _ => none

/-- The answer a center waits for arrives. -/
def answered (cluster : Cluster) (addr : Bytes) : Option Cluster :=
  let node := cluster.node addr
  match node.phase with
  | .waiting next rest info =>
      (cluster.replies.find? fun reply => reply.peer = next ∧ reply.receiver = addr).map fun reply =>
        let center := node.center.inquiryResponse next reply.centersProto
        { cluster.setNode addr { node with center, phase := .inquiring rest info } with
          replies := cluster.replies.erase reply }
  | _ => none

/-- The connection of an inquiry is closed without an answer. -/
def hangUp (cluster : Cluster) (addr : Bytes) : Option Cluster :=
  let node := cluster.node addr
  match node.phase with
  | .waiting next rest info =>
      if (cluster.flight.any fun packet => packet.peer = addr ∧ packet.receiver = next) ∨
          (cluster.replies.any fun reply => reply.peer = next ∧ reply.receiver = addr) then none
      else
        let center := node.center.inquiryResponse next {}
        some (cluster.setNode addr { node with center, phase := .inquiring rest info })
  | _ => none

/-- `ProposalLeaderElection` up to the loop of `BroadcastInfo`. -/
def propose (config : ClusterConfig) (cluster : Cluster) (addr : Bytes) : Option Cluster :=
  let node := cluster.node addr
  match node.phase with
  | .inquiring [] _ =>
      let (center, effects) := node.center.proposalLeaderElection config.outside
      let phase := match effects with
        | [.broadcast rest info] => .broadcasting rest info
        | _ => .started
      some (cluster.setNode addr { node with center, phase })
  | _ => none

/-- One iteration of `BroadcastInfo`, or its end. -/
def broadcast (cluster : Cluster) (addr : Bytes) : Option Cluster :=
  let node := cluster.node addr
  match node.phase with
  | .broadcasting (next :: rest) info =>
      some ((cluster.setNode addr { node with phase := .broadcasting rest info }).transmit
        ⟨addr, next, info⟩)
  | .broadcasting [] _ => some (cluster.setNode addr { node with phase := .started })
  | _ => none

/-- `CenterProcessor` takes a message on its way. -/
def deliver (cluster : Cluster) (index : ℕ) : Option Cluster :=
  cluster.flight[index]?.map fun packet =>
    let node := cluster.node packet.receiver
    let electionQ := if isElection packet.centersProto.centerAction then node.electionQ ++ [packet]
      else node.electionQ
    { cluster.setNode packet.receiver { node with electionQ } with
      flight := cluster.flight.eraseIdx index }

/-- One iteration of `ElectionThread::Run` that finds a message. -/
def process (config : ClusterConfig) (cluster : Cluster) (addr : Bytes) : Option Cluster :=
  let node := cluster.node addr
  match node.center.electionThread.life, node.electionQ with
  | .running, packet :: electionQ =>
      (node.center.processCenterData config.outside 0 packet.centersProto).map fun processed =>
        processed.effects.foldl (effect addr packet.peer)
          (cluster.setNode addr { node with center := processed.center, electionQ })
  | _, _ => none

def step (config : ClusterConfig) (cluster : Cluster) : Action → Option Cluster
  | .boot addr => boot config cluster addr
  | .listen addr => listen cluster addr
  | .elect addr => elect config cluster addr
  | .inquire addr => inquire cluster addr
  | .answered addr => answered cluster addr
  | .hangUp addr => hangUp cluster addr
  | .propose addr => propose config cluster addr
  | .broadcast addr => broadcast cluster addr
  | .deliver index => deliver cluster index
  | .process addr => process config cluster addr

def Completed (config : ClusterConfig) (cluster : Cluster) : Prop :=
  ∀ addr ∈ config.centers, (cluster.node addr).phase = .started

instance (config : ClusterConfig) (cluster : Cluster) : Decidable (Completed config cluster) :=
  inferInstanceAs (Decidable (∀ _ ∈ _, _))

/-- No message is in flight or queued. -/
def Quiet (config : ClusterConfig) (cluster : Cluster) : Prop :=
  cluster.flight = [] ∧ cluster.replies = [] ∧
    ∀ addr ∈ config.centers, (cluster.node addr).electionQ = []

instance (config : ClusterConfig) (cluster : Cluster) : Decidable (Quiet config cluster) :=
  inferInstanceAs (Decidable (_ ∧ _ ∧ ∀ _ ∈ _, _))

/-- One center leads, and every other one follows it. -/
def Elected (config : ClusterConfig) (cluster : Cluster) : Prop :=
  ∃ leader ∈ config.centers, (cluster.node leader).center.centerStatus = .leading ∧
    ∀ addr ∈ config.centers, addr ≠ leader →
      (cluster.node addr).center.centerStatus = .following ∧
        (cluster.node addr).center.leaderInfos.leaderCenter = leader

end Cluster

end LibEvRpc
