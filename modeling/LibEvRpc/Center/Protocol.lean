import LibEvRpc.Util.RpcUtil

/-! # Messages between centers

A `CentersProto` is the content of the message whatever its encoding: a field that was not set has
its default, which is the first name of an enumeration, zero or the empty string.
-/

namespace LibEvRpc

/-- `CenterType`, the transfer ids of the center protocols. -/
def center2Center : Int32 := 100

inductive CenterStatus where
  | looking
  | following
  | observing
  | leading
  | unkonw
  | dead
deriving DecidableEq

inductive CenterAction where
  | inquiry
  | proposal
  | leaderConfirm
  | accept
  | refused
  | followerPing
  | leaderPingResponse
  | centerReporter
deriving DecidableEq

inductive ClusteAction where
  | register
  | clusterPing
deriving DecidableEq

/-- `RpcClusterServer`, without the load figures nothing reads. -/
structure RpcClusterServer where
  clusterAction : ClusteAction := .register
  clusterServerAddr : Bytes := []
deriving DecidableEq

structure LoadBalancerMetaData where
  vid : UInt32 := 0
  serverAddr : Bytes := []
deriving DecidableEq

structure CentersProto where
  fromCenterAddr : Bytes := []
  centerStatus : CenterStatus := .looking
  centerAction : CenterAction := .inquiry
  startTime : UInt64 := 0
  lcStartTime : UInt64 := 0
  logicalClock : UInt64 := 0
  leaderCenter : Bytes := []
  serverInfosList : List RpcClusterServer := []
  lbResult : List LoadBalancerMetaData := []
deriving DecidableEq

inductive ClientClusterAction where
  | clientInitReq
  | updateServerInfo
  | centerRespOk
  | centerRespErr
deriving DecidableEq

structure ClientWithCenter where
  fromAddr : Bytes := []
  clientCenterAction : ClientClusterAction := .clientInitReq
  shouldCommunicateCenter : List Bytes := []
  clusterServerList : List Bytes := []
deriving DecidableEq

inductive ResponseClusterAction where
  | clusterResp
  | centerNotReady
deriving DecidableEq

structure CenterResponseCluster where
  centerResponseAction : ResponseClusterAction := .clusterResp
  shouldReporterCenter : List Bytes := []
deriving DecidableEq

end LibEvRpc
