import LibEvRpc.Center.LoadBalancer
import LibEvRpc.ToMathlib.AListUpdate
import LibEvRpc.Util.Thread

/-! # A center

The state of one `RpcCenter` and the functions that receive election messages. A name that does
not fit the array of `OtherCenter` has no result, like every write outside a buffer. Messages
that a function sends are returned as effects; what the system and the serialisation answer is a
parameter. The locks are not modelled: a function is one step.
-/

namespace LibEvRpc

/-- The size of `current_follow_leader_center`. -/
abbrev leaderNameSize : ℕ := 128

/-- What the outside answers during one call: the system, and the serialisation of a message. -/
structure Outside extends Platform where
  serializes : CentersProto → Bool

structure OtherCenter where
  startTime : UInt64
  centerStatus : CenterStatus
  voteCount : UInt32
  currentFollowLeaderCenter : Bytes
deriving DecidableEq

abbrev OtherCenters := AList fun _ : Bytes => OtherCenter

structure LeaderInfos where
  lcStartTime : UInt64
  leaderCenter : Bytes
deriving DecidableEq

/-- `RpcCenter` behind `InitRpcCenter`, with the address of its host. -/
structure RpcCenter where
  localAddress : Bytes
  centerStatus : CenterStatus
  startTime : UInt64
  leaderInfos : LeaderInfos
  otherCenters : OtherCenters
  electionDoneNum : UInt32
  logicalClock : UInt64
  fastleaderElectionRunning : Bool
  centerServerThread : Thread
  electionThread : Thread
  reporterThread : Thread
  leaderThread : Thread
  loadBalancer : LoadBalancer
  centerHashMap : VnHashMap

/-- A message to the outside, or the end of a connection. -/
inductive Effect where
  | rpcSend (fd : Int32) (transferId : Int32) (info : CentersProto)
  | broadcast (centers : List Bytes) (info : CentersProto)
  | close (fd : Int32)
deriving DecidableEq

/-- A copy of a C string with its terminator into an array. -/
def strcpy? (size : ℕ) (source : Bytes) : Option Bytes :=
  if (CString.ofBuffer source).length < size then some (CString.ofBuffer source) else none

namespace RpcCenter

/-! ## Initialisation -/

def registNewCenter (map : VnHashMap) (newCenter : Bytes) : VnHashMap := insertShards 50 newCenter map

/-- The entry `InitRpcCenter` makes: its status is cleared together with the rest. -/
def initialEntry : OtherCenter := ⟨0, .looking, 0, []⟩

def initLine (localAddress : Bytes) (tables : OtherCenters × VnHashMap) (line : Bytes) :
    OtherCenters × VnHashMap :=
  if CString.ofBuffer line = CString.ofBuffer localAddress then tables
  else (tables.1.insertNew line initialEntry, registNewCenter tables.2 line)

/-- The constructor and `InitRpcCenter` on the lines of the file of centers. -/
def initRpcCenter (localAddress : Bytes) (startTime : UInt64) (virtualNodeNum : Int32)
    (lines : List Bytes) : RpcCenter :=
  let tables := lines.foldl (initLine localAddress) (∅, ∅)
  { localAddress
    centerStatus := .looking
    startTime
    leaderInfos := ⟨startTime, localAddress⟩
    otherCenters := tables.1
    electionDoneNum := UInt32.ofNat ((tables.1.keys.length + 1) / 2 + 1)
    logicalClock := 0
    fastleaderElectionRunning := false
    centerServerThread := Thread.new
    electionThread := Thread.new
    reporterThread := Thread.new
    leaderThread := Thread.new
    loadBalancer := ⟨virtualNodeNum, ∅⟩
    centerHashMap := tables.2 }

/-! ## The recorded leader -/

def updateCenterStatus (center : RpcCenter) (cs : CenterStatus) : RpcCenter :=
  { center with centerStatus := cs }

def updateLeadingCenterInfos (center : RpcCenter) (centersProto : CentersProto) : RpcCenter :=
  { center with leaderInfos := ⟨centersProto.lcStartTime, centersProto.leaderCenter⟩ }

def increaseLogicalClock (center : RpcCenter) : RpcCenter :=
  { center with logicalClock := center.logicalClock + 1 }

def leaderPredicate (center : RpcCenter) (centersProto : CentersProto) : CenterAction :=
  if centersProto.logicalClock < center.logicalClock then .refused
  else if centersProto.logicalClock = center.logicalClock then
    if centersProto.lcStartTime > center.leaderInfos.lcStartTime then .refused
    else if centersProto.lcStartTime = center.leaderInfos.lcStartTime ∧
        ¬ center.leaderInfos.leaderCenter < centersProto.leaderCenter then .refused
    else .accept
  else .accept

/-! ## Votes -/

/-- The first locked block of `UpdateOCStatus`: the entry of the sender. -/
def recordSender (table : OtherCenters) (centersProto : CentersProto) : Option OtherCenters :=
  let addr := centersProto.fromCenterAddr
  (strcpy? leaderNameSize centersProto.leaderCenter).map fun name =>
    if addr ∈ table then
      table.modify addr fun oc =>
        { oc with
          startTime := centersProto.startTime
          centerStatus := centersProto.centerStatus
          currentFollowLeaderCenter := name }
    else
      table.insertNew addr ⟨centersProto.startTime, centersProto.centerStatus, 0, name⟩

/-- The second locked block of `UpdateOCStatus`: the vote for the leader that is named. The entry
made for an unknown leader goes under the address of the sender, which is taken. -/
def countVote (table : OtherCenters) (centersProto : CentersProto) : OtherCenters × UInt32 :=
  match table.lookup centersProto.leaderCenter with
  | none => (table.insertNew centersProto.fromCenterAddr ⟨0, .looking, 1, []⟩, 0)
  | some oc =>
      (table.modify centersProto.leaderCenter fun oc => { oc with voteCount := oc.voteCount + 1 },
        oc.voteCount + 1)

/-- The result of `UpdateOCStatus`, its messages, and whether the calling thread runs on. -/
structure Updated where
  center : RpcCenter
  ret : Bool
  effects : List Effect
  continues : Bool

/-- The message that announces the local center as leader. -/
def confirmProto (center : RpcCenter) : CentersProto :=
  { fromCenterAddr := center.localAddress
    centerAction := .leaderConfirm
    startTime := center.startTime
    logicalClock := center.logicalClock
    centerStatus := .leading
    lcStartTime := center.startTime
    leaderCenter := center.localAddress }

/-- The part of `UpdateOCStatus` that runs once there are enough votes. -/
def electionDone (outside : Outside) (center : RpcCenter) (centersProto : CentersProto) : Updated :=
  let center := center.updateLeadingCenterInfos centersProto
  if CString.ofBuffer center.leaderInfos.leaderCenter = CString.ofBuffer center.localAddress then
    let center := center.updateCenterStatus .leading
    let (started, leaderThread) := center.leaderThread.start outside.toPlatform
    let center := { center with leaderThread }
    if started then
      let confirm := center.confirmProto
      let effects := if outside.serializes confirm then
        [.broadcast center.otherCenters.keys confirm] else []
      let (continues, electionThread) := center.electionThread.stopSelf outside.toPlatform
      ⟨{ center with electionThread }, true, effects, continues⟩
    else ⟨center, false, [], true⟩
  else if center.centerStatus ≠ .following then
    ⟨center.updateCenterStatus .observing, true, [], true⟩
  else ⟨center, true, [], true⟩

def updateOCStatus (outside : Outside) (center : RpcCenter) (centersProto : CentersProto) :
    Option Updated :=
  if centersProto.logicalClock < center.logicalClock then some ⟨center, false, [], true⟩
  else (recordSender center.otherCenters centersProto).map fun table =>
    let (table, voteCount) := countVote table centersProto
    let center := { center with otherCenters := table }
    if 0 ≠ center.electionDoneNum ∧ voteCount ≥ center.electionDoneNum then
      electionDone outside center centersProto
    else ⟨center, true, [], true⟩

/-! ## Inquiries and proposals -/

def inquiryProto (center : RpcCenter) : CentersProto :=
  { fromCenterAddr := center.localAddress
    centerStatus := center.centerStatus
    centerAction := .inquiry
    startTime := center.startTime
    logicalClock := center.logicalClock }

/-- The centers `InquiryCenters` asks: those with the status for unknown. -/
def inquired (center : RpcCenter) (addr : Bytes) : Bool :=
  (center.otherCenters.lookup addr).any fun oc => oc.centerStatus = .unkonw

/-- What `InquiryCenters` does with the response of a center. -/
def inquiryResponse (center : RpcCenter) (addr : Bytes) (responseProto : CentersProto) : RpcCenter :=
  let center := { center with
    otherCenters := center.otherCenters.modify addr fun oc =>
      { oc with startTime := responseProto.startTime, centerStatus := responseProto.centerStatus } }
  let responseProto := { responseProto with
    lcStartTime := responseProto.startTime, leaderCenter := responseProto.fromCenterAddr }
  if center.leaderPredicate responseProto = .accept then
    center.updateLeadingCenterInfos responseProto
  else center

/-- `InquiryCenters` on the response of every center, if there was a well-formed one. -/
def inquiryCenters (outside : Outside) (center : RpcCenter)
    (response : Bytes → Option CentersProto) : RpcCenter :=
  if outside.serializes center.inquiryProto then
    center.otherCenters.keys.foldl (fun center addr =>
      if center.inquired addr then
        match response addr with
        | none => center
        | some responseProto => center.inquiryResponse addr responseProto
      else center) center
  else center

/-- The message of `ProposalLeaderElection`, behind the increase of the clock. -/
def proposal (center : RpcCenter) : CentersProto :=
  { fromCenterAddr := center.localAddress
    centerStatus := .looking
    centerAction := .proposal
    startTime := center.startTime
    lcStartTime := center.leaderInfos.lcStartTime
    logicalClock := center.logicalClock
    leaderCenter := center.leaderInfos.leaderCenter }

def proposalLeaderElection (outside : Outside) (center : RpcCenter) : RpcCenter × List Effect :=
  let center := center.increaseLogicalClock
  if outside.serializes center.proposal then
    (center, [.broadcast center.otherCenters.keys center.proposal])
  else (center, [])

/-- The part of `StartFastLeaderElection` in front of the election: it starts the election thread
unless an election is running. -/
def startElectionThread (platform : Platform) (center : RpcCenter) : Bool × RpcCenter :=
  if center.fastleaderElectionRunning then (true, center)
  else
    let (started, electionThread) := center.electionThread.start platform
    if started then (true, { center with electionThread, fastleaderElectionRunning := true })
    else (false, { center with electionThread })

/-! ## Processing a message -/

/-- The result of `ProcessCenterData`, its messages, and whether the calling thread runs on. -/
structure Processed where
  center : RpcCenter
  ret : Bool
  effects : List Effect
  continues : Bool

/-- The answer to an inquiry. -/
def inquiryAnswer (center : RpcCenter) : CentersProto :=
  { fromCenterAddr := center.localAddress
    centerStatus := center.centerStatus
    centerAction := .inquiry
    startTime := center.startTime
    lcStartTime := center.leaderInfos.lcStartTime
    logicalClock := center.logicalClock
    leaderCenter := center.leaderInfos.leaderCenter }

/-- Send a response on a connection and close it, or only close it if there is nothing to send. -/
def respond (outside : Outside) (center : RpcCenter) (fd : Int32) (response : CentersProto) :
    Processed :=
  if outside.serializes response then
    ⟨center, true, [.rpcSend fd center2Center response, .close fd], true⟩
  else ⟨center, false, [.close fd], true⟩

/-- The case of a confirmation: the reporter starts whatever the predicate says. -/
def leaderConfirm (outside : Outside) (center : RpcCenter) (centersProto : CentersProto) :
    RpcCenter :=
  let caResult := center.leaderPredicate centersProto
  let center := { center with
    reporterThread := (center.reporterThread.start outside.toPlatform).2 }
  if caResult = .accept then
    let center := center.updateCenterStatus .following
    if center.leaderThread.isAlive outside.toPlatform then
      { center with leaderThread := (center.leaderThread.stop outside.toPlatform).2 }
    else center
  else center

def processCenterData (outside : Outside) (center : RpcCenter) (fd : Int32)
    (centersProto : CentersProto) : Option Processed :=
  match centersProto.centerAction with
  | .inquiry => some (respond outside center fd center.inquiryAnswer)
  | .proposal =>
      if center.leaderPredicate centersProto = .accept then
        (center.updateOCStatus outside centersProto).map fun updated =>
          if updated.continues then
            ⟨updated.center, true, updated.effects ++ [.close fd], true⟩
          else ⟨updated.center, false, updated.effects, false⟩
      else some ⟨center, true, [.close fd], true⟩
  | .leaderConfirm => some ⟨center.leaderConfirm outside centersProto, true, [.close fd], true⟩
  | .followerPing =>
      let center := { center with
        loadBalancer := centersProto.serverInfosList.foldl LoadBalancer.addRpcServer
          center.loadBalancer }
      some (respond outside center fd
        { centerAction := .leaderPingResponse
          lbResult := center.loadBalancer.getCurrentLBResult [] })
  | .leaderPingResponse =>
      let center := { center with
        loadBalancer := center.loadBalancer.updateLBResult centersProto.lbResult }
      some ⟨center, true, [.close fd], true⟩
  | .accept | .refused | .centerReporter => some ⟨center, true, [.close fd], true⟩

/-! ## One event of a center -/

/-- What happens to a running center: a message is processed, a center answers an inquiry, or a
local round starts. -/
inductive Event where
  | process (outside : Outside) (fd : Int32) (centersProto : CentersProto)
  | inquiryResponse (addr : Bytes) (responseProto : CentersProto)
  | proposalLeaderElection (outside : Outside)

def step (center : RpcCenter) : Event → Option RpcCenter
  | .process outside fd centersProto =>
      (center.processCenterData outside fd centersProto).map Processed.center
  | .inquiryResponse addr responseProto => some (center.inquiryResponse addr responseProto)
  | .proposalLeaderElection outside => some (center.proposalLeaderElection outside).1

end RpcCenter

end LibEvRpc
