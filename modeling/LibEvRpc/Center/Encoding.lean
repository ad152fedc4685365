import LibEvRpc.Center.CenterProcessor
import LibEvRpc.ToMathlib.TaggedFields

/-! # The encoding of the messages of a center

The classes that are generated from the `.proto` files, with the bits that say which fields are set:
a field that is not set is `none`. Each class writes its fields in the order of their numbers, counts
the bytes beforehand, and reads them by a table of cases with the tags that are expected behind each.
What `content` gives is what the accessors return. The coding of integers and the skipping of unknown
fields are those of the `CodedStream`; a string with more than `2 ^ 31 - 1` bytes is not made. Unknown
fields are skipped and not kept.
-/

namespace LibEvRpc

open TaggedFields

/-! ## Numbers of enumerations -/

def CenterStatus.number : CenterStatus → UInt64
  | .looking => 0
  | .following => 1
  | .observing => 2
  | .leading => 3
  | .unkonw => 4
  | .dead => 5

/-- `CenterStatus_IsValid`, with the status. -/
def CenterStatus.ofNumber (value : UInt32) : Option CenterStatus :=
  [.looking, .following, .observing, .leading, .unkonw, .dead][value.toNat]?

def CenterAction.number : CenterAction → UInt64
  | .inquiry => 0
  | .proposal => 1
  | .leaderConfirm => 2
  | .accept => 3
  | .refused => 4
  | .followerPing => 5
  | .leaderPingResponse => 6
  | .centerReporter => 7

/-- `CenterAction_IsValid`, with the action. -/
def CenterAction.ofNumber (value : UInt32) : Option CenterAction :=
  [.inquiry, .proposal, .leaderConfirm, .accept, .refused, .followerPing, .leaderPingResponse,
    .centerReporter][value.toNat]?

def ClusteAction.number : ClusteAction → UInt64
  | .register => 1
  | .clusterPing => 2

/-- `ClusteAction_IsValid`, with the action. -/
def ClusteAction.ofNumber (value : UInt32) : Option ClusteAction :=
  [none, some .register, some .clusterPing].getD value.toNat none

def ResponseClusterAction.number : ResponseClusterAction → UInt64
  | .clusterResp => 1
  | .centerNotReady => 2

/-- `ResponseClusterAction_IsValid`, with the action. -/
def ResponseClusterAction.ofNumber (value : UInt32) : Option ResponseClusterAction :=
  [none, some .clusterResp, some .centerNotReady].getD value.toNat none

def ClientClusterAction.number : ClientClusterAction → UInt64
  | .clientInitReq => 1
  | .updateServerInfo => 2
  | .centerRespOk => 3
  | .centerRespErr => 4

/-- `ClientClusterAction_IsValid`, with the action. -/
def ClientClusterAction.ofNumber (value : UInt32) : Option ClientClusterAction :=
  [none, some .clientInitReq, some .updateServerInfo, some .centerRespOk,
    some .centerRespErr].getD value.toNat none

namespace Pb

def uintSize (stream : CodedStream) (value : UInt64) : ℕ := 1 + stream.size value

/-- The number of bytes of a tag, a length and a content. -/
def bytesSize (stream : CodedStream) (length : ℕ) : ℕ :=
  1 + (stream.size (UInt64.ofNat length) + length)

/-! ## `RpcClusterServer` -/

/-- `RpcClusterServer`, with the bits of the float `cpu_used`. -/
structure RpcClusterServer where
  clusterAction : Option ClusteAction := none
  clusterServerAddr : Option Bytes := none
  load : Option UInt32 := none
  cpuUsed : Option Int32 := none
  connectionNum : Option Int32 := none
deriving DecidableEq

namespace RpcClusterServer

def setClusterAction (message : RpcClusterServer) (value : ClusteAction) : RpcClusterServer :=
  { message with clusterAction := some value }

def setClusterServerAddr (message : RpcClusterServer) (value : Bytes) : RpcClusterServer :=
  { message with clusterServerAddr := some value }

def setLoad (message : RpcClusterServer) (value : UInt32) : RpcClusterServer :=
  { message with load := some value }

def setCpuUsed (message : RpcClusterServer) (value : Int32) : RpcClusterServer :=
  { message with cpuUsed := some value }

def setConnectionNum (message : RpcClusterServer) (value : Int32) : RpcClusterServer :=
  { message with connectionNum := some value }

/-- The switch of `MergePartialFromCodedStream`. -/
def cases (stream : CodedStream) : List (FieldCase RpcClusterServer) :=
  [.uint stream 8 (fun message value =>
      (ClusteAction.ofNumber value.toUInt32).elim message message.setClusterAction) [18] false,
    .bytes stream 18 setClusterServerAddr [24] false,
    .uint stream 24 (fun message value => message.setLoad value.toUInt32) [37] false,
    .fixed32 37 setCpuUsed [40] false,
    .uint stream 40 (fun message value => message.setConnectionNum value.toUInt32.toInt32) [] true]

def table (stream : CodedStream) : CaseTable RpcClusterServer where
  cases := cases stream
  numbers := by
    change [fieldNumber 8, fieldNumber 18, fieldNumber 24, fieldNumber 37, fieldNumber 40].Nodup
    decide
  bounds := by simp [cases, FieldCase.uint, FieldCase.bytes, FieldCase.fixed32]
  positive := by simp [cases, FieldCase.uint, FieldCase.bytes, FieldCase.fixed32]
  expected := by simp [cases, FieldCase.uint, FieldCase.bytes, FieldCase.fixed32]

def serializeWithCachedSizes (stream : CodedStream) (message : RpcClusterServer) : Bytes :=
  message.clusterAction.elim [] (fun value => writeUint stream 8 value.number) ++
  message.clusterServerAddr.elim [] (fun value => writeBytes stream 18 value.length value) ++
  message.load.elim [] (fun value => writeUint stream 24 value.toUInt64) ++
  message.cpuUsed.elim [] (fun value => writeFixed32 stream 37 value) ++
  message.connectionNum.elim [] (fun value => writeUint stream 40 value.toInt64.toUInt64)

def byteSize (stream : CodedStream) (message : RpcClusterServer) : ℕ :=
  message.clusterAction.elim 0 (fun value => uintSize stream value.number) +
  message.clusterServerAddr.elim 0 (fun value => bytesSize stream value.length) +
  message.load.elim 0 (fun value => uintSize stream value.toUInt64) +
  message.cpuUsed.elim 0 (fun _ => 1 + 4) +
  message.connectionNum.elim 0 (fun value => uintSize stream value.toInt64.toUInt64)

def mergeFrom (message other : RpcClusterServer) : RpcClusterServer :=
  let message := other.clusterAction.elim message message.setClusterAction
  let message := other.clusterServerAddr.elim message message.setClusterServerAddr
  let message := other.load.elim message message.setLoad
  let message := other.cpuUsed.elim message message.setCpuUsed
  other.connectionNum.elim message message.setConnectionNum

/-- What the accessors return. -/
def content (message : RpcClusterServer) : LibEvRpc.RpcClusterServer where
  clusterAction := message.clusterAction.getD .register
  clusterServerAddr := message.clusterServerAddr.getD []

end RpcClusterServer

/-! ## `LoadBalancerMetaData` -/

structure LoadBalancerMetaData where
  vid : Option UInt32 := none
  serverAddr : Option Bytes := none
deriving DecidableEq

namespace LoadBalancerMetaData

def setVid (message : LoadBalancerMetaData) (value : UInt32) : LoadBalancerMetaData :=
  { message with vid := some value }

def setServerAddr (message : LoadBalancerMetaData) (value : Bytes) : LoadBalancerMetaData :=
  { message with serverAddr := some value }

def cases (stream : CodedStream) : List (FieldCase LoadBalancerMetaData) :=
  [.uint stream 8 (fun message value => message.setVid value.toUInt32) [18] false,
    .bytes stream 18 setServerAddr [] true]

def table (stream : CodedStream) : CaseTable LoadBalancerMetaData where
  cases := cases stream
  numbers := by
    change [fieldNumber 8, fieldNumber 18].Nodup
    decide
  bounds := by simp [cases, FieldCase.uint, FieldCase.bytes]
  positive := by simp [cases, FieldCase.uint, FieldCase.bytes]
  expected := by simp [cases, FieldCase.uint, FieldCase.bytes]

def serializeWithCachedSizes (stream : CodedStream) (message : LoadBalancerMetaData) : Bytes :=
  message.vid.elim [] (fun value => writeUint stream 8 value.toUInt64) ++
  message.serverAddr.elim [] (fun value => writeBytes stream 18 value.length value)

def byteSize (stream : CodedStream) (message : LoadBalancerMetaData) : ℕ :=
  message.vid.elim 0 (fun value => uintSize stream value.toUInt64) +
  message.serverAddr.elim 0 (fun value => bytesSize stream value.length)

def mergeFrom (message other : LoadBalancerMetaData) : LoadBalancerMetaData :=
  let message := other.vid.elim message message.setVid
  other.serverAddr.elim message message.setServerAddr

def content (message : LoadBalancerMetaData) : LibEvRpc.LoadBalancerMetaData where
  vid := message.vid.getD 0
  serverAddr := message.serverAddr.getD []

end LoadBalancerMetaData

/-! ## `CentersProto` -/

structure CentersProto where
  fromCenterAddr : Option Bytes := none
  centerStatus : Option CenterStatus := none
  centerAction : Option CenterAction := none
  startTime : Option UInt64 := none
  lcStartTime : Option UInt64 := none
  logicalClock : Option UInt64 := none
  leaderCenter : Option Bytes := none
  serverInfosList : List RpcClusterServer := []
  lbResult : List LoadBalancerMetaData := []
deriving DecidableEq

namespace CentersProto

def setFromCenterAddr (message : CentersProto) (value : Bytes) : CentersProto :=
  { message with fromCenterAddr := some value }

def setCenterStatus (message : CentersProto) (value : CenterStatus) : CentersProto :=
  { message with centerStatus := some value }

def setCenterAction (message : CentersProto) (value : CenterAction) : CentersProto :=
  { message with centerAction := some value }

def setStartTime (message : CentersProto) (value : UInt64) : CentersProto :=
  { message with startTime := some value }

def setLcStartTime (message : CentersProto) (value : UInt64) : CentersProto :=
  { message with lcStartTime := some value }

def setLogicalClock (message : CentersProto) (value : UInt64) : CentersProto :=
  { message with logicalClock := some value }

def setLeaderCenter (message : CentersProto) (value : Bytes) : CentersProto :=
  { message with leaderCenter := some value }

def addServerInfosList (message : CentersProto) (value : RpcClusterServer) : CentersProto :=
  { message with serverInfosList := message.serverInfosList ++ [value] }

def addLbResult (message : CentersProto) (value : LoadBalancerMetaData) : CentersProto :=
  { message with lbResult := message.lbResult ++ [value] }

def cases (stream : CodedStream) : List (FieldCase CentersProto) :=
  [.bytes stream 10 setFromCenterAddr [16] false,
    .uint stream 16 (fun message value =>
      (CenterStatus.ofNumber value.toUInt32).elim message message.setCenterStatus) [24] false,
    .uint stream 24 (fun message value =>
      (CenterAction.ofNumber value.toUInt32).elim message message.setCenterAction) [32] false,
    .uint stream 32 setStartTime [40] false,
    .uint stream 40 setLcStartTime [48] false,
    .uint stream 48 setLogicalClock [58] false,
    .bytes stream 58 setLeaderCenter [66] false,
    .nested stream 66 ((RpcClusterServer.table stream).mergeFromCodedStream stream {})
      addServerInfosList [66, 74] false,
    .nested stream 74 ((LoadBalancerMetaData.table stream).mergeFromCodedStream stream {})
      addLbResult [74] true]

def table (stream : CodedStream) : CaseTable CentersProto where
  cases := cases stream
  numbers := by
    change [fieldNumber 10, fieldNumber 16, fieldNumber 24, fieldNumber 32, fieldNumber 40,
      fieldNumber 48, fieldNumber 58, fieldNumber 66, fieldNumber 74].Nodup
    decide
  bounds := by simp [cases, FieldCase.uint, FieldCase.bytes, FieldCase.nested]
  positive := by simp [cases, FieldCase.uint, FieldCase.bytes, FieldCase.nested]
  expected := by simp [cases, FieldCase.uint, FieldCase.bytes, FieldCase.nested]

def serializeWithCachedSizes (stream : CodedStream) (message : CentersProto) : Bytes :=
  message.fromCenterAddr.elim [] (fun value => writeBytes stream 10 value.length value) ++
  message.centerStatus.elim [] (fun value => writeUint stream 16 value.number) ++
  message.centerAction.elim [] (fun value => writeUint stream 24 value.number) ++
  message.startTime.elim [] (fun value => writeUint stream 32 value) ++
  message.lcStartTime.elim [] (fun value => writeUint stream 40 value) ++
  message.logicalClock.elim [] (fun value => writeUint stream 48 value) ++
  message.leaderCenter.elim [] (fun value => writeBytes stream 58 value.length value) ++
  message.serverInfosList.flatMap (fun value =>
    writeBytes stream 66 (value.byteSize stream) (value.serializeWithCachedSizes stream)) ++
  message.lbResult.flatMap (fun value =>
    writeBytes stream 74 (value.byteSize stream) (value.serializeWithCachedSizes stream))

def byteSize (stream : CodedStream) (message : CentersProto) : ℕ :=
  message.fromCenterAddr.elim 0 (fun value => bytesSize stream value.length) +
  message.centerStatus.elim 0 (fun value => uintSize stream value.number) +
  message.centerAction.elim 0 (fun value => uintSize stream value.number) +
  message.startTime.elim 0 (fun value => uintSize stream value) +
  message.lcStartTime.elim 0 (fun value => uintSize stream value) +
  message.logicalClock.elim 0 (fun value => uintSize stream value) +
  message.leaderCenter.elim 0 (fun value => bytesSize stream value.length) +
  (message.serverInfosList.map fun value => bytesSize stream (value.byteSize stream)).sum +
  (message.lbResult.map fun value => bytesSize stream (value.byteSize stream)).sum

def mergeFrom (message other : CentersProto) : CentersProto :=
  let message := other.serverInfosList.foldl addServerInfosList message
  let message := other.lbResult.foldl addLbResult message
  let message := other.fromCenterAddr.elim message message.setFromCenterAddr
  let message := other.centerStatus.elim message message.setCenterStatus
  let message := other.centerAction.elim message message.setCenterAction
  let message := other.startTime.elim message message.setStartTime
  let message := other.lcStartTime.elim message message.setLcStartTime
  let message := other.logicalClock.elim message message.setLogicalClock
  other.leaderCenter.elim message message.setLeaderCenter

def content (message : CentersProto) : LibEvRpc.CentersProto where
  fromCenterAddr := message.fromCenterAddr.getD []
  centerStatus := message.centerStatus.getD .looking
  centerAction := message.centerAction.getD .inquiry
  startTime := message.startTime.getD 0
  lcStartTime := message.lcStartTime.getD 0
  logicalClock := message.logicalClock.getD 0
  leaderCenter := message.leaderCenter.getD []
  serverInfosList := message.serverInfosList.map RpcClusterServer.content
  lbResult := message.lbResult.map LoadBalancerMetaData.content

end CentersProto

/-! ## `ClientWithCenter` -/

structure ClientWithCenter where
  fromAddr : Option Bytes := none
  clientCenterAction : Option ClientClusterAction := none
  shouldCommunicateCenter : List Bytes := []
  clusterServerList : List Bytes := []
deriving DecidableEq

namespace ClientWithCenter

def setFromAddr (message : ClientWithCenter) (value : Bytes) : ClientWithCenter :=
  { message with fromAddr := some value }

def setClientCenterAction (message : ClientWithCenter) (value : ClientClusterAction) :
    ClientWithCenter :=
  { message with clientCenterAction := some value }

def addShouldCommunicateCenter (message : ClientWithCenter) (value : Bytes) : ClientWithCenter :=
  { message with shouldCommunicateCenter := message.shouldCommunicateCenter ++ [value] }

def addClusterServerList (message : ClientWithCenter) (value : Bytes) : ClientWithCenter :=
  { message with clusterServerList := message.clusterServerList ++ [value] }

def cases (stream : CodedStream) : List (FieldCase ClientWithCenter) :=
  [.bytes stream 10 setFromAddr [16] false,
    .uint stream 16 (fun message value =>
      (ClientClusterAction.ofNumber value.toUInt32).elim message message.setClientCenterAction)
      [26] false,
    .bytes stream 26 addShouldCommunicateCenter [26, 34] false,
    .bytes stream 34 addClusterServerList [34] true]

def table (stream : CodedStream) : CaseTable ClientWithCenter where
  cases := cases stream
  numbers := by
    change [fieldNumber 10, fieldNumber 16, fieldNumber 26, fieldNumber 34].Nodup
    decide
  bounds := by simp [cases, FieldCase.uint, FieldCase.bytes]
  positive := by simp [cases, FieldCase.uint, FieldCase.bytes]
  expected := by simp [cases, FieldCase.uint, FieldCase.bytes]

def serializeWithCachedSizes (stream : CodedStream) (message : ClientWithCenter) : Bytes :=
  message.fromAddr.elim [] (fun value => writeBytes stream 10 value.length value) ++
  message.clientCenterAction.elim [] (fun value => writeUint stream 16 value.number) ++
  message.shouldCommunicateCenter.flatMap (fun value => writeBytes stream 26 value.length value) ++
  message.clusterServerList.flatMap (fun value => writeBytes stream 34 value.length value)

def byteSize (stream : CodedStream) (message : ClientWithCenter) : ℕ :=
  message.fromAddr.elim 0 (fun value => bytesSize stream value.length) +
  message.clientCenterAction.elim 0 (fun value => uintSize stream value.number) +
  (message.shouldCommunicateCenter.map fun value => bytesSize stream value.length).sum +
  (message.clusterServerList.map fun value => bytesSize stream value.length).sum

def mergeFrom (message other : ClientWithCenter) : ClientWithCenter :=
  let message := other.shouldCommunicateCenter.foldl addShouldCommunicateCenter message
  let message := other.clusterServerList.foldl addClusterServerList message
  let message := other.fromAddr.elim message message.setFromAddr
  other.clientCenterAction.elim message message.setClientCenterAction

def content (message : ClientWithCenter) : LibEvRpc.ClientWithCenter where
  fromAddr := message.fromAddr.getD []
  clientCenterAction := message.clientCenterAction.getD .clientInitReq
  shouldCommunicateCenter := message.shouldCommunicateCenter
  clusterServerList := message.clusterServerList

end ClientWithCenter

/-! ## `CenterResponseCluster` -/

structure CenterResponseCluster where
  centerResponseAction : Option ResponseClusterAction := none
  shouldReporterCenter : List Bytes := []
deriving DecidableEq

namespace CenterResponseCluster

def setCenterResponseAction (message : CenterResponseCluster) (value : ResponseClusterAction) :
    CenterResponseCluster :=
  { message with centerResponseAction := some value }

def addShouldReporterCenter (message : CenterResponseCluster) (value : Bytes) :
    CenterResponseCluster :=
  { message with shouldReporterCenter := message.shouldReporterCenter ++ [value] }

def cases (stream : CodedStream) : List (FieldCase CenterResponseCluster) :=
  [.uint stream 8 (fun message value =>
      (ResponseClusterAction.ofNumber value.toUInt32).elim message message.setCenterResponseAction)
      [18] false,
    .bytes stream 18 addShouldReporterCenter [18] true]

def table (stream : CodedStream) : CaseTable CenterResponseCluster where
  cases := cases stream
  numbers := by
    change [fieldNumber 8, fieldNumber 18].Nodup
    decide
  bounds := by simp [cases, FieldCase.uint, FieldCase.bytes]
  positive := by simp [cases, FieldCase.uint, FieldCase.bytes]
  expected := by simp [cases, FieldCase.uint, FieldCase.bytes]

def serializeWithCachedSizes (stream : CodedStream) (message : CenterResponseCluster) : Bytes :=
  message.centerResponseAction.elim [] (fun value => writeUint stream 8 value.number) ++
  message.shouldReporterCenter.flatMap (fun value => writeBytes stream 18 value.length value)

def byteSize (stream : CodedStream) (message : CenterResponseCluster) : ℕ :=
  message.centerResponseAction.elim 0 (fun value => uintSize stream value.number) +
  (message.shouldReporterCenter.map fun value => bytesSize stream value.length).sum

def mergeFrom (message other : CenterResponseCluster) : CenterResponseCluster :=
  let message := other.shouldReporterCenter.foldl addShouldReporterCenter message
  other.centerResponseAction.elim message message.setCenterResponseAction

def content (message : CenterResponseCluster) : LibEvRpc.CenterResponseCluster where
  centerResponseAction := message.centerResponseAction.getD .clusterResp
  shouldReporterCenter := message.shouldReporterCenter

end CenterResponseCluster

/-! ## Strings -/

/-- The classes of the messages of a center, without unknown fields. `LoadBalancerMetaData` is sent
inside `CentersProto` only. -/
inductive Message where
  | centers (message : CentersProto)
  | client (message : ClientWithCenter)
  | cluster (message : RpcClusterServer)
  | response (message : CenterResponseCluster)
  | metaData (message : LoadBalancerMetaData)
deriving DecidableEq

namespace Message

def byteSize (stream : CodedStream) : Message → ℕ
  | .centers message => message.byteSize stream
  | .client message => message.byteSize stream
  | .cluster message => message.byteSize stream
  | .response message => message.byteSize stream
  | .metaData message => message.byteSize stream

def serializeWithCachedSizes (stream : CodedStream) : Message → Bytes
  | .centers message => message.serializeWithCachedSizes stream
  | .client message => message.serializeWithCachedSizes stream
  | .cluster message => message.serializeWithCachedSizes stream
  | .response message => message.serializeWithCachedSizes stream
  | .metaData message => message.serializeWithCachedSizes stream

/-- `SerializeToString`, of a size that is an `int`. -/
def serializeToString (stream : CodedStream) (message : Message) : Option Bytes :=
  if message.byteSize stream < 2 ^ 31 then some (message.serializeWithCachedSizes stream) else none

/-- `MergePartialFromCodedStream` of the class of a message, which the input is merged into. -/
def mergeFromString (stream : CodedStream) (info : Bytes) : Message → Option Message
  | .centers message =>
      ((CentersProto.table stream).mergeFromCodedStream stream message info).map .centers
  | .client message =>
      ((ClientWithCenter.table stream).mergeFromCodedStream stream message info).map .client
  | .cluster message =>
      ((RpcClusterServer.table stream).mergeFromCodedStream stream message info).map .cluster
  | .response message =>
      ((CenterResponseCluster.table stream).mergeFromCodedStream stream message info).map .response
  | .metaData message =>
      ((LoadBalancerMetaData.table stream).mergeFromCodedStream stream message info).map .metaData

/-- A message of the same class with no field set. -/
def clear : Message → Message
  | .centers _ => .centers {}
  | .client _ => .client {}
  | .cluster _ => .cluster {}
  | .response _ => .response {}
  | .metaData _ => .metaData {}

/-- `ParseFromString` into a message. -/
def parseFromString (stream : CodedStream) (message : Message) (info : Bytes) : Option Message :=
  message.clear.mergeFromString stream info

/-- `MergeFrom`, for messages of one class. -/
def mergeFrom : Message → Message → Option Message
  | .centers message, .centers other => some (.centers (message.mergeFrom other))
  | .client message, .client other => some (.client (message.mergeFrom other))
  | .cluster message, .cluster other => some (.cluster (message.mergeFrom other))
  | .response message, .response other => some (.response (message.mergeFrom other))
  | .metaData message, .metaData other => some (.metaData (message.mergeFrom other))
  | _, _ => none

end Message

end Pb

end LibEvRpc
