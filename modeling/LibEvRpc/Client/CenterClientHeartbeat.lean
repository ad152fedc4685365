import LibEvRpc.Center.Protocol
import LibEvRpc.ToMathlib.Run

/-! # The heartbeat of a client to the centers

The thread reads the file of centers, asks one of them for its servers and then asks again in
rounds; `RandomGetRpcServerAddr` picks one of the servers for a call. What the file, the
network and the parser give is a parameter. The list of servers is written without a lock while
the thread initialises, so that a call can read it inside a `push_back`, and under a lock by a round.
-/

namespace LibEvRpc

structure CenterClientHeartbeat where
  centerAddrs : List Bytes
  updatecenterAddrs : List Bytes
  clusterServerAddrsList : List Bytes
  running : Bool
deriving DecidableEq

namespace CenterClientHeartbeat

def new : CenterClientHeartbeat := ⟨[], [], [], false⟩

def initRequest : ClientWithCenter := { clientCenterAction := .clientInitReq }

/-- What the outside gives to `InitCenterClientHB`: the lines of the file, if it is there, whether the
center is reached, and the string received from it, if there is one, as a message, if it is one. -/
structure InitOutside where
  lines : Option (List Bytes)
  localAddr : Bytes
  connects : Bool
  serializes : Bool
  sends : Bool
  received : Option (Option ClientWithCenter)

/-- `InitCenterClientHB` up to the list of servers it stores, or up to its failure. -/
def initExchange (outside : InitOutside) (client : CenterClientHeartbeat) :
    CenterClientHeartbeat × Option (List Bytes) :=
  match outside.lines with
  | none => (client, none)
  | some lines =>
      let client := { client with
        centerAddrs := client.centerAddrs ++
          lines.filter fun line => CString.ofBuffer line ≠ CString.ofBuffer outside.localAddr }
      if client.centerAddrs = [] then (client, none)
      else if !outside.connects then (client, none)
      else if !outside.serializes then (client, none)
      else if !outside.sends then (client, none)
      else
        match outside.received with
        | some (some cwcProto) =>
            if cwcProto.clientCenterAction = .centerRespOk then
              ({ client with
                updatecenterAddrs := client.updatecenterAddrs ++ cwcProto.shouldCommunicateCenter },
                some cwcProto.clusterServerList)
            else (client, some [])
        | none | some none => (client, some [])

def initCenterClientHB (outside : InitOutside) (client : CenterClientHeartbeat) :
    Bool × CenterClientHeartbeat :=
  match initExchange outside client with
  | (client, none) => (false, client)
  | (client, some servers) =>
      (true, { client with
        clusterServerAddrsList := client.clusterServerAddrsList ++ servers, running := true })

/-- What the outside gives to one round of `Run`: the return value of `RpcRecv`, and the string it
received as a message, if it is one. -/
structure Round where
  serializes : Bool
  connects : Bool
  sends : Bool
  recvRet : Int32
  parsed : Option ClientWithCenter
deriving DecidableEq

/-- `UpdateCenterAddrs` and `UpdateServerAddrs` -/
def updateAddrs (client : CenterClientHeartbeat) (cwcResponseProto : ClientWithCenter) :
    CenterClientHeartbeat :=
  { client with
    updatecenterAddrs := client.updatecenterAddrs ++ cwcResponseProto.shouldCommunicateCenter
    clusterServerAddrsList := client.clusterServerAddrsList ++ cwcResponseProto.clusterServerList }

/-- A round of `Run`. The string is parsed only if `RpcRecv` failed. -/
def runRound (client : CenterClientHeartbeat) (round : Round) : CenterClientHeartbeat :=
  if !round.serializes then client
  else if !round.connects then client
  else if !round.sends then client
  else if 0 ≤ round.recvRet then client.updateAddrs {}
  else
    match round.parsed with
    | none => client
    | some cwcResponseProto => client.updateAddrs cwcResponseProto

/-- Whether `Run` gets to its rounds behind the initialisation. -/
def entersLoop (client : CenterClientHeartbeat) : Bool :=
  !client.updatecenterAddrs.isEmpty && !client.centerAddrs.isEmpty

end CenterClientHeartbeat

/-! ## The thread and its callers -/

/-- Where the thread is. While it initialises, servers of the response are left to be stored, and one
may be under way. -/
inductive HeartbeatPhase where
  | unstarted
  | storing (servers : List Bytes)
  | pushing (server : Bytes) (servers : List Bytes)
  | looping
  | ended
deriving DecidableEq

/-- The thread is inside a `push_back`. -/
def HeartbeatPhase.isPushing : HeartbeatPhase → Bool
  | .pushing _ _ => true
  | .unstarted | .storing _ | .looping | .ended => false

/-- A client in distributed mode: the heartbeat, its thread, and the remainders that
`RandomGetRpcServerAddr` has computed in the calls that are there. A remainder by zero, an index outside
the list and a read of a list that is being changed are remembered. -/
structure DistributedClient where
  heartbeat : CenterClientHeartbeat
  phase : HeartbeatPhase
  picking : List ℕ
  zeroRemainder : Bool
  outside : Bool
  torn : Bool
deriving DecidableEq

namespace DistributedClient

open CenterClientHeartbeat

def init : DistributedClient := ⟨.new, .unstarted, [], false, false, false⟩

/-- A step of the thread or of a call of `CallMethod`. -/
inductive Action where
  | initialise (outside : InitOutside)
  | pushBack
  | storeServer
  | enterLoop
  | round (round : Round)
  | remainder (rand : ℕ)
  | index (random : ℕ)

/-- The state behind a step of a process that goes on. A round waits for the calls that read the
list. -/
def advance (client : DistributedClient) : Action → Option DistributedClient
  | .initialise outside =>
      if client.phase = .unstarted then
        match initExchange outside client.heartbeat with
        | (heartbeat, none) => some { client with heartbeat, phase := .ended }
        | (heartbeat, some servers) => some { client with heartbeat, phase := .storing servers }
      else none
  | .pushBack =>
      match client.phase with
      | .storing (server :: servers) => some { client with phase := .pushing server servers }
      | .storing [] | .pushing _ _ | .unstarted | .looping | .ended => none
  | .storeServer =>
      match client.phase with
      | .pushing server servers =>
          some { client with
            heartbeat := { client.heartbeat with
              clusterServerAddrsList := client.heartbeat.clusterServerAddrsList ++ [server] }
            phase := .storing servers }
      | .storing _ | .unstarted | .looping | .ended => none
  | .enterLoop =>
      if client.phase = .storing [] then
        some { client with
          heartbeat := { client.heartbeat with running := true }
          phase := if client.heartbeat.entersLoop then .looping else .ended }
      else none
  | .round round =>
      if client.phase = .looping ∧ client.picking = [] then
        some { client with heartbeat := client.heartbeat.runRound round }
      else none
  | .remainder rand =>
      if client.phase.isPushing then some { client with torn := true }
      else
        match client.heartbeat.clusterServerAddrsList.length with
        | 0 => some { client with zeroRemainder := true }
        | size + 1 => some { client with picking := client.picking ++ [rand % (size + 1)] }
  | .index random =>
      if random ∈ client.picking then
        if client.phase.isPushing then some { client with torn := true }
        else some { client with
          picking := client.picking.erase random
          outside := (client.heartbeat.clusterServerAddrsList[random]?).isNone }
      else none

/-- A division by zero or an index outside the list ends the process, and behind a read of a list that
is being changed nothing is known. -/
def step (client : DistributedClient) (action : Action) : Option DistributedClient :=
  if client.zeroRemainder || client.outside || client.torn then none else client.advance action

end DistributedClient

end LibEvRpc
