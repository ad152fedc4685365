import LibEvRpc.Center.Protocol
import Mathlib.Tactic.Linarith

/-! # The consistent-hash ring

The ring maps the hash of every virtual node to the address of its server. An id that is taken
stays with the server that took it first.
-/

namespace LibEvRpc

abbrev VnHashMap := Std.ExtTreeMap UInt32 Bytes compare

/-- The hash of one shard of an address, `SHARD-<addr>-NODE-<char>`. -/
def shardHash (addr : Bytes) (i : Int32) : UInt32 :=
  let hashStr : Bytes := [83, 72, 65, 82, 68, 45] ++ addr ++ [45, 78, 79, 68, 69, 45] ++
    [i.toInt8.toUInt8]
  murMurHash2 hashStr (Int32.ofNat hashStr.length)

/-- Insert the first shards of an address that are not taken. -/
def insertShards (count : Int32) (addr : Bytes) (map : VnHashMap) : VnHashMap :=
  (List.range count.toNatClampNeg).foldl
    (fun map i => map.insertIfNew (shardHash addr (Int32.ofNat i)) addr) map

structure LoadBalancer where
  virtualNodeNum : Int32
  vnMap : VnHashMap

namespace LoadBalancer

def addRpcServer (balancer : LoadBalancer) (rpcClusterServer : RpcClusterServer) : LoadBalancer where
  virtualNodeNum := balancer.virtualNodeNum
  vnMap := insertShards balancer.virtualNodeNum rpcClusterServer.clusterServerAddr balancer.vnMap

/-- `GetRpcServer`, appending to the given list. -/
def getRpcServer (balancer : LoadBalancer) (rpcClient : Bytes) (rpcServerList : List Bytes) :
    Bool × List Bytes :=
  let hashId := murMurHash2 rpcClient (Int32.ofNat rpcClient.length)
  if balancer.vnMap.isEmpty then (false, rpcServerList)
  else
    match balancer.vnMap.getEntryGE? hashId with
    | some entry => (true, rpcServerList ++ [entry.2])
    | none =>
        match balancer.vnMap.minEntry? with
        | some entry => (true, rpcServerList ++ [entry.2])
        | none => (true, rpcServerList)

/-- `GetCurrentLBResult`, appending to the given list. -/
def getCurrentLBResult (balancer : LoadBalancer) (lbResultList : List LoadBalancerMetaData) :
    List LoadBalancerMetaData :=
  lbResultList ++ balancer.vnMap.toList.map fun entry => ⟨entry.1, entry.2⟩

def updateLBResult (balancer : LoadBalancer) (lbResultList : List LoadBalancerMetaData) :
    LoadBalancer where
  virtualNodeNum := balancer.virtualNodeNum
  vnMap := lbResultList.foldl (fun map data => map.insertIfNew data.vid data.serverAddr)
    balancer.vnMap

end LoadBalancer

end LibEvRpc
