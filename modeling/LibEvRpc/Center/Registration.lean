import LibEvRpc.Center.Transport
import LibEvRpc.Server.CenterClusterHeartbeat

/-! # A server and a center on one connection

A server sends its registration and its pings as strings, and a center sends its answer back on the
same connection. Here every call of the two succeeds; a server to whom nothing is sent waits, which has
no result.
-/

namespace LibEvRpc

namespace Pb

/-- The message of `InitCenterClusterHB`. -/
def RpcClusterServer.register (localAddr : Bytes) : RpcClusterServer where
  clusterAction := some .register
  clusterServerAddr := some localAddr

/-- The message of a round of `Run`, with the load of the last minute. -/
def RpcClusterServer.ping (localAddr : Bytes) (load : UInt32) : RpcClusterServer where
  clusterAction := some .clusterPing
  clusterServerAddr := some localAddr
  load := some load

/-- An answer to a server with the fields that are set. -/
def CenterResponseCluster.ofAnswer (crc : LibEvRpc.CenterResponseCluster) : CenterResponseCluster where
  centerResponseAction := some crc.centerResponseAction
  shouldReporterCenter := crc.shouldReporterCenter

end Pb

/-- What `CenterProcessor` finds when a server sends it a message. -/
def Incoming.ofServer (stream : CodedStream) (message : Pb.RpcClusterServer) : Option Incoming :=
  ((Pb.Message.cluster message).serializeToString stream).bind fun info =>
    (carried center2Cluster info).map (Incoming.ofReceived stream)

/-- What a server finds in the string of an answer. -/
def receivedAnswer (stream : CodedStream) (crc : CenterResponseCluster) :
    Option (Option CenterResponseCluster) :=
  ((Pb.Message.response (.ofAnswer crc)).serializeToString stream).bind fun info =>
    (carried center2Cluster info).map fun received =>
      ((Pb.CenterResponseCluster.table stream).mergeFromCodedStream stream {} received.info).map
        Pb.CenterResponseCluster.content

/-- The registration of a server: the center behind it, and the answer that the server finds. -/
def BufferedCenter.register (stream : CodedStream) (state : BufferedCenter) (connFd : Int32)
    (localAddr : Bytes) : Option (BufferedCenter × Option CenterResponseCluster) :=
  (Incoming.ofServer stream (.register localAddr)).bind fun incoming =>
    (state.centerProcessor ⟨true, true⟩ connFd incoming).bind fun routed =>
      match routed.effects with
      | .sent _ (.cluster crc) :: _ =>
          (receivedAnswer stream crc).map fun found => (routed.state, found)
      | _ => none

end LibEvRpc
