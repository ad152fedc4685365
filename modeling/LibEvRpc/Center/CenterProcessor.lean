import LibEvRpc.Center.RpcCenter

/-! # Routing of a connection's message

`CenterProcessor` receives one message on a connection and answers it, queues it for a thread, or
ignores it; `ReporterProcessor` sends a ping and has the reply routed in the same way. What is sent,
closed and queued is returned as effects. A call makes at most one answer; whether it serialises
and whether `RpcSend` sends it is a parameter. A read through the end iterator of the ring of
centers has no result.
-/

namespace LibEvRpc

/-- What `RpcRecv` and the parsing of its string give: the type of the message, and the message if
it is well-formed. -/
inductive Incoming where
  | failed
  | center (centersProto : Option CentersProto)
  | client (cwcProto : Option ClientWithCenter)
  | cluster (rpcClusterServer : Option RpcClusterServer)
  | other
deriving DecidableEq

/-- A message that is sent on a connection. -/
inductive Reply where
  | center (centersProto : CentersProto)
  | client (cwcProto : ClientWithCenter)
  | cluster (crc : CenterResponseCluster)
deriving DecidableEq

/-- What becomes of a message to be sent. -/
structure Answering where
  serializes : Bool
  sends : Bool

/-- What a call does on its connection and to the queues. -/
inductive RouteEffect where
  | sent (fd : Int32) (reply : Reply)
  | close (fd : Int32)
  | pushElectionMessage (fd : Int32) (centersProto : CentersProto)
  | pushFollowerMessage (fd : Int32) (centersProto : CentersProto)
deriving DecidableEq

/-- A center with `rpc_server_buf_`, the servers to be reported. -/
structure BufferedCenter where
  center : RpcCenter
  rpcServerBuf : List RpcClusterServer

/-- The result of `CenterProcessor` and of `ReporterProcessor`. -/
structure Routed where
  state : BufferedCenter
  ret : Bool
  effects : List RouteEffect

namespace BufferedCenter

/-- `AddRpcServerToBuf`: a server with a known address is not added. -/
def addRpcServerToBuf (state : BufferedCenter) (rpcClusterServer : RpcClusterServer) :
    BufferedCenter :=
  if rpcClusterServer.clusterServerAddr ∈ state.rpcServerBuf.map RpcClusterServer.clusterServerAddr
  then state
  else { state with rpcServerBuf := state.rpcServerBuf ++ [rpcClusterServer] }

/-- `RpcSend` of an answer. A failed one closes the connection, a successful one if it is asked to. -/
def sendReply (sends : Bool) (fd : Int32) (reply : Reply) (needClosed : Bool) : List RouteEffect :=
  if sends then .sent fd reply :: if needClosed then [.close fd] else [] else [.close fd]

def centerIsReady (center : RpcCenter) : Bool :=
  center.centerStatus = .following || center.centerStatus = .leading

/-- The entries of the ring of centers from `lower_bound` on. -/
def lowerBound (ring : VnHashMap) (hashId : UInt32) : List (UInt32 × Bytes) :=
  ring.toList.dropWhile fun entry => entry.1 < hashId

/-- The loop of `CLIENT_INIT_REQ` from an iterator on: it moves the iterator and then reads it. -/
def clientCenters : ℕ → List (UInt32 × Bytes) → Option (List Bytes)
  | 0, _ => some []
  | _ + 1, [] => some []
  | _ + 1, [_] => none
  | count + 1, _ :: entry :: rest =>
      (clientCenters count (entry :: rest)).map fun addrs =>
        if entry.2.length < 2 then addrs else entry.2 :: addrs

/-- The loop of `REGISTER` from an iterator on. At the end it goes on at the beginning. -/
def clusterCenters (ring : List (UInt32 × Bytes)) :
    ℕ → List (UInt32 × Bytes) → Option (List Bytes)
  | 0, _ => some []
  | count + 1, [] =>
      match ring with
      | [] => none
      | entry :: _ => (clusterCenters ring count ring).map (entry.2 :: ·)
  | _ + 1, [_] => none
  | count + 1, _ :: entry :: rest =>
      (clusterCenters ring count (entry :: rest)).map (entry.2 :: ·)

/-- The servers `GetRpcServer` finds for a client. -/
def serverList (center : RpcCenter) (clientAddr : Bytes) : List Bytes :=
  let (found, servers) := center.loadBalancer.getRpcServer clientAddr []
  if found then servers else []

/-- The answer to a client, before its action is set. -/
def clientResponse (center : RpcCenter) (cwcProto : ClientWithCenter) : Option ClientWithCenter :=
  match cwcProto.clientCenterAction with
  | .clientInitReq =>
      let hashId := murMurHash2 cwcProto.fromAddr (Int32.ofNat cwcProto.fromAddr.length)
      (clientCenters 3 (lowerBound center.centerHashMap hashId)).map fun centers =>
        { shouldCommunicateCenter := centers, clusterServerList := serverList center cwcProto.fromAddr }
  | .updateServerInfo => some { clusterServerList := serverList center cwcProto.fromAddr }
  | .centerRespOk | .centerRespErr => some {}

/-- The part of `CenterProcessor` for a message of another center. The message of the inner block
hides the one that was received. -/
def processCenterRequest (answering : Answering) (state : BufferedCenter) (connFd : Int32)
    (received : CentersProto) : Routed :=
  match received.centerAction with
  | .inquiry | .proposal | .accept | .refused | .leaderConfirm =>
      ⟨state, true, [.pushElectionMessage connFd received]⟩
  | .followerPing | .leaderPingResponse | .centerReporter =>
      let responseProto : CentersProto := {}
      if state.center.centerStatus ≠ .leading then
        let responseProto := { responseProto with
          fromCenterAddr := state.center.localAddress, centerAction := .refused }
        if answering.serializes then
          ⟨state, answering.sends, sendReply answering.sends connFd (.center responseProto) false⟩
        else ⟨state, false, []⟩
      else ⟨state, true, [.pushFollowerMessage connFd responseProto]⟩

/-- The part of `CenterProcessor` for a client. -/
def processClientRequest (answering : Answering) (state : BufferedCenter) (connFd : Int32)
    (cwcProto : ClientWithCenter) : Option Routed :=
  (clientResponse state.center cwcProto).map fun response =>
    let response := { response with clientCenterAction := .centerRespOk }
    if answering.serializes then
      ⟨state, answering.sends, sendReply answering.sends connFd (.client response) true⟩
    else ⟨state, false, [.close connFd]⟩

/-- The part of `CenterProcessor` for a server of the cluster, once the center is ready. -/
def processClusterRequest (answering : Answering) (state : BufferedCenter) (connFd : Int32)
    (rpcClusterServer : RpcClusterServer) : Option Routed :=
  match rpcClusterServer.clusterAction with
  | .register =>
      let state :=
        if state.center.centerStatus = .leading then
          { state with center := { state.center with
            loadBalancer := state.center.loadBalancer.addRpcServer rpcClusterServer } }
        else state.addRpcServerToBuf rpcClusterServer
      let serverAddr := rpcClusterServer.clusterServerAddr
      let hashId := murMurHash2 serverAddr (Int32.ofNat serverAddr.length)
      let ring := state.center.centerHashMap
      (clusterCenters ring.toList 3 (lowerBound ring hashId)).map fun centers =>
        let crc := { centerResponseAction := .clusterResp, shouldReporterCenter := centers }
        if answering.serializes then
          ⟨state, answering.sends, sendReply answering.sends connFd (.cluster crc) false⟩
        else ⟨state, false, []⟩
  | .clusterPing => some ⟨state, true, []⟩

def centerProcessor (answering : Answering) (state : BufferedCenter) (connFd : Int32) :
    Incoming → Option Routed
  | .failed => some ⟨state, false, [.close connFd]⟩
  | .center none => some ⟨state, false, []⟩
  | .center (some received) => some (processCenterRequest answering state connFd received)
  | .client none => some ⟨state, false, []⟩
  | .client (some cwcProto) => processClientRequest answering state connFd cwcProto
  | .cluster received =>
      if !centerIsReady state.center then
        some ⟨state, false, sendReply answering.sends connFd
          (.cluster { centerResponseAction := .centerNotReady }) false⟩
      else
        match received with
        | none => some ⟨state, false, []⟩
        | some rpcClusterServer => processClusterRequest answering state connFd rpcClusterServer
  | .other => some ⟨state, false, []⟩

/-- The message of `ReporterProcessor`. -/
def followerPing (state : BufferedCenter) : CentersProto :=
  { fromCenterAddr := state.center.localAddress
    centerAction := .followerPing
    serverInfosList := state.rpcServerBuf }

/-- `ReporterProcessor`, with what becomes of the ping and of the answer to the reply. -/
def reporterProcessor (ping answering : Answering) (state : BufferedCenter) (connFd : Int32)
    (reply : Incoming) : Option Routed :=
  if !ping.serializes then some ⟨state, false, []⟩
  else
    let sent := sendReply ping.sends connFd (.center state.followerPing) false
    if !ping.sends then some ⟨state, false, sent⟩
    else (centerProcessor answering state connFd reply).map fun routed =>
      { routed with effects := sent ++ routed.effects }

end BufferedCenter

end LibEvRpc
