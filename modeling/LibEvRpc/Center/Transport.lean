import LibEvRpc.Center.Encoding
import LibEvRpc.Center.PeerConnections

/-! # Messages of a center on a connection

A message is serialized, sent by `RpcSend` with the id of its protocol, received by `RpcRecv` and
parsed by `CenterProcessor`. The text in a block ends at its first NUL, so it matters which fields
have one in their encoding. The messages that a center makes are here with the fields they set.
-/

namespace LibEvRpc

def center2Cluster : Int32 := 102

namespace Pb

/-! ## Messages with the fields that are set -/

namespace CentersProto

/-- The message of `InquiryCenters`. -/
def inquiry (center : RpcCenter) : CentersProto where
  fromCenterAddr := some center.localAddress
  centerStatus := some center.centerStatus
  centerAction := some .inquiry
  startTime := some center.startTime
  logicalClock := some center.logicalClock

/-- The answer of `ProcessCenterData` to an inquiry. -/
def inquiryAnswer (center : RpcCenter) : CentersProto where
  fromCenterAddr := some center.localAddress
  centerStatus := some center.centerStatus
  centerAction := some .inquiry
  startTime := some center.startTime
  lcStartTime := some center.leaderInfos.lcStartTime
  logicalClock := some center.logicalClock
  leaderCenter := some center.leaderInfos.leaderCenter

/-- The message of `ProposalLeaderElection`, behind the increase of the clock. -/
def proposal (center : RpcCenter) : CentersProto where
  fromCenterAddr := some center.localAddress
  centerStatus := some .looking
  centerAction := some .proposal
  startTime := some center.startTime
  lcStartTime := some center.leaderInfos.lcStartTime
  logicalClock := some center.logicalClock
  leaderCenter := some center.leaderInfos.leaderCenter

/-- The message by which `UpdateOCStatus` announces the local center as leader. -/
def confirm (center : RpcCenter) : CentersProto where
  fromCenterAddr := some center.localAddress
  centerStatus := some .leading
  centerAction := some .leaderConfirm
  startTime := some center.startTime
  lcStartTime := some center.startTime
  logicalClock := some center.logicalClock
  leaderCenter := some center.localAddress

/-- The answer of a center that does not lead. -/
def refusal (center : RpcCenter) : CentersProto where
  fromCenterAddr := some center.localAddress
  centerAction := some .refused

/-- An election message with the fields that its sender sets: those of an inquiry, or those of a
proposal and of a confirmation. -/
def ofElection (info : LibEvRpc.CentersProto) : CentersProto where
  fromCenterAddr := some info.fromCenterAddr
  centerStatus := some info.centerStatus
  centerAction := some info.centerAction
  startTime := some info.startTime
  lcStartTime := if info.centerAction = .inquiry then none else some info.lcStartTime
  logicalClock := some info.logicalClock
  leaderCenter := if info.centerAction = .inquiry then none else some info.leaderCenter

end CentersProto

/-! ## Fields with a zero byte -/

/-- A string that is written without a zero byte, and its length as well. -/
def Text (value : Bytes) : Prop := value ≠ [] ∧ 0 ∉ value

/-- No field is written with a zero byte. The numbers of the action start at one. -/
structure RpcClusterServer.NulFree (message : RpcClusterServer) : Prop where
  clusterServerAddr : ∀ value ∈ message.clusterServerAddr, Text value
  load : ∀ value ∈ message.load, value ≠ 0
  cpuUsed : ∀ value ∈ message.cpuUsed, 0 ∉ LittleEndian.encode value
  connectionNum : ∀ value ∈ message.connectionNum, value ≠ 0

/-- No field is written with a zero byte. -/
structure LoadBalancerMetaData.NulFree (message : LoadBalancerMetaData) : Prop where
  vid : ∀ value ∈ message.vid, value ≠ 0
  serverAddr : ∀ value ∈ message.serverAddr, Text value

/-- No field is written with a zero byte: no enumeration has its first value, no number is zero, no
string is empty and no message in it is without fields. -/
structure CentersProto.NulFree (message : CentersProto) : Prop where
  fromCenterAddr : ∀ value ∈ message.fromCenterAddr, Text value
  centerStatus : message.centerStatus ≠ some .looking
  centerAction : message.centerAction ≠ some .inquiry
  startTime : message.startTime ≠ some 0
  lcStartTime : message.lcStartTime ≠ some 0
  logicalClock : message.logicalClock ≠ some 0
  leaderCenter : ∀ value ∈ message.leaderCenter, Text value
  serverInfosList : ∀ value ∈ message.serverInfosList, value ≠ {} ∧ value.NulFree
  lbResult : ∀ value ∈ message.lbResult, value ≠ {} ∧ value.NulFree

/-- No field is written with a zero byte. The numbers of the action start at one. -/
structure ClientWithCenter.NulFree (message : ClientWithCenter) : Prop where
  fromAddr : ∀ value ∈ message.fromAddr, Text value
  shouldCommunicateCenter : ∀ value ∈ message.shouldCommunicateCenter, Text value
  clusterServerList : ∀ value ∈ message.clusterServerList, Text value

/-- No field is written with a zero byte. The numbers of the action start at one. -/
def CenterResponseCluster.NulFree (message : CenterResponseCluster) : Prop :=
  ∀ value ∈ message.shouldReporterCenter, Text value

/-- No field of the message is written with a zero byte. -/
def Message.NulFree : Message → Prop
  | .centers message => message.NulFree
  | .client message => message.NulFree
  | .cluster message => message.NulFree
  | .response message => message.NulFree
  | .metaData message => message.NulFree

end Pb

/-! ## From the sender to the receiver -/

/-- What `RpcRecv` gives of a string that `RpcSend` sent in whole blocks. -/
def carried (transferId : Int32) (info : Bytes) : Option Received :=
  (rpcSend allSent transferId info false).bind fun sent =>
    rpcRecv false (wholeBlocks sent.blocks) []

/-- What `CenterProcessor` finds in a string that was received. -/
def Incoming.ofReceived (stream : CodedStream) (received : Received) : Incoming :=
  if received.transferId < 0 then .failed
  else if received.transferId = center2Center then
    .center (((Pb.CentersProto.table stream).mergeFromCodedStream stream {} received.info).map
      Pb.CentersProto.content)
  else if received.transferId = center2Client then
    .client (((Pb.ClientWithCenter.table stream).mergeFromCodedStream stream {} received.info).map
      Pb.ClientWithCenter.content)
  else if received.transferId = center2Cluster then
    .cluster (((Pb.RpcClusterServer.table stream).mergeFromCodedStream stream {} received.info).map
      Pb.RpcClusterServer.content)
  else .other

/-- What `CenterProcessor` finds when a message of a center is sent to it. A message that is not
serialized is not sent. -/
def Incoming.ofSent (stream : CodedStream) (message : Pb.CentersProto) : Option Incoming :=
  ((Pb.Message.centers message).serializeToString stream).bind fun info =>
    (carried center2Center info).map (Incoming.ofReceived stream)

end LibEvRpc
