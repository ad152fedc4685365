import LibEvRpc.Proofs.HashRing

/-! # What is on a ring and whom it serves

Seen as a circle of `2 ^ 32` places, a ring serves a client by the node nearest to its hash, going
up. After any registrations each id belongs to the earliest server with a shard there, so a server
that registers again changes nothing.
-/

namespace LibEvRpc

open Std.ExtTreeMap

namespace LoadBalancer

/-! ## The nearest node -/

/-- No node of a ring is nearer to a hash than the given one, which belongs to a server. -/
def Nearest (ring : VnHashMap) (hash point : UInt32) (server : Bytes) : Prop :=
  ring[point]? = some server ∧ ∀ other ∈ ring, hash.distance point ≤ hash.distance other

theorem nearest_iff_successor? {ring : VnHashMap} {hash point : UInt32} {server : Bytes} :
    Nearest ring hash point server ↔ ring.successor? hash = some (point, server) :=
  (@successor?_eq_some_iff_distance Bytes ring hash (point, server)).symm

def clientHash (rpcClient : Bytes) : UInt32 := murMurHash2 rpcClient (Int32.ofNat rpcClient.length)

/-- `GetRpcServer` fails exactly on an empty ring, and otherwise appends the server of the one node
that is nearest to the client. -/
theorem getRpcServer_nearest (balancer : LoadBalancer) (rpcClient : Bytes)
    (rpcServerList : List Bytes) :
    (balancer.vnMap = ∅ ∧ balancer.getRpcServer rpcClient rpcServerList = (false, rpcServerList)) ∨
    (balancer.vnMap ≠ ∅ ∧ ∃ point server, Nearest balancer.vnMap (clientHash rpcClient) point server ∧
      (∀ other owner, Nearest balancer.vnMap (clientHash rpcClient) other owner → other = point) ∧
      balancer.getRpcServer rpcClient rpcServerList = (true, rpcServerList ++ [server])) := by
  rw [getRpcServer_eq, ← clientHash]
  cases found : balancer.vnMap.successor? (clientHash rpcClient) with
  | none => exact .inl ⟨successor?_eq_none_iff.mp found, rfl⟩
  | some entry =>
    refine .inr ⟨?_, entry.1, entry.2, nearest_iff_successor?.mpr found, ?_, rfl⟩
    · intro empty
      rw [successor?_eq_none_iff.mpr empty] at found
      contradiction
    · intro other owner nearest
      rw [nearest_iff_successor?, found, Option.some.injEq] at nearest
      exact congrArg Prod.fst nearest.symm

/-! ## The nodes behind some registrations -/

def Generates (count : Int32) (id : UInt32) (server : RpcClusterServer) : Prop :=
  ∃ i < count.toNatClampNeg, shardHash server.clusterServerAddr (Int32.ofNat i) = id

instance (count : Int32) (id : UInt32) : DecidablePred (Generates count id) := fun _ =>
  inferInstanceAs (Decidable (∃ i < _, _))

/-- The registrations of servers that were not registered before. -/
def firstRegistrations : List RpcClusterServer → List RpcClusterServer
  | [] => []
  | server :: rest =>
      server :: (firstRegistrations rest).filter fun other =>
        other.clusterServerAddr ≠ server.clusterServerAddr

theorem mem_shards {count : Int32} {addr : Bytes} {entry : UInt32 × Bytes} :
    entry ∈ shards count addr ↔
      Generates count entry.1 { clusterServerAddr := addr } ∧ entry.2 = addr := by
  rw [shards, List.mem_map]
  constructor
  · rintro ⟨i, bound, rfl⟩
    exact ⟨⟨i, List.mem_range.mp bound, rfl⟩, rfl⟩
  · rintro ⟨⟨i, bound, id⟩, owner⟩
    exact ⟨i, List.mem_range.mpr bound, Prod.ext id owner.symm⟩

/-- The first virtual node with an id is one of the first server that generates it. -/
theorem find?_nodes (count : Int32) (servers : List RpcClusterServer) (id : UInt32) :
    ((nodes count servers).find? fun entry => entry.1 = id).map Prod.snd =
      (servers.find? fun server => Generates count id server).map RpcClusterServer.clusterServerAddr := by
  induction servers with
  | nil => rfl
  | cons server rest ih =>
    rw [nodes, List.flatMap_cons, List.find?_append, List.find?_cons, ← nodes]
    by_cases generates : Generates count id server
    · obtain ⟨entry, found⟩ : ∃ entry, (shards count server.clusterServerAddr).find?
          (fun entry => entry.1 = id) = some entry := by
        apply Option.isSome_iff_exists.mp
        rw [List.find?_isSome]
        exact ⟨(id, server.clusterServerAddr), mem_shards.mpr ⟨generates, rfl⟩, decide_eq_true rfl⟩
      have owner := snd_eq_of_mem_shards (List.mem_of_find?_eq_some found)
      rw [found, decide_eq_true generates, Option.some_or, Option.map_some, Option.map_some, owner]
    · have none : (shards count server.clusterServerAddr).find? (fun entry => entry.1 = id) = none := by
        apply List.find?_eq_none.mpr
        intro entry member same
        rw [decide_eq_true_eq] at same
        exact generates (same ▸ (mem_shards.mp member).1)
      rw [none, Option.none_or, ih, decide_eq_false generates]

/-- Whoever generates an id first is registered for the first time then. -/
theorem find?_firstRegistrations (count : Int32) (servers : List RpcClusterServer) (id : UInt32) :
    (firstRegistrations servers).find? (fun server => Generates count id server) =
      servers.find? fun server => Generates count id server := by
  induction servers with
  | nil => rfl
  | cons server rest ih =>
    rw [firstRegistrations, List.find?_cons, List.find?_cons, List.find?_filter, ← ih]
    split
    · rfl
    · next absent =>
      congr 1
      funext other
      have differs : Generates count id other →
          other.clusterServerAddr ≠ server.clusterServerAddr := by
        intro generates same
        rw [Generates, same] at generates
        exact of_decide_eq_false absent generates
      rw [decide_eq_decide, decide_eq_true_eq, decide_eq_true_eq]
      exact and_iff_right_of_imp differs

/-- On an empty ring any registrations bind exactly the ids that some server of theirs generates, each
to the earliest one, and registrations of known servers add nothing. -/
theorem ring_of_registrations (count : Int32) (servers : List RpcClusterServer) :
    (∀ id, (servers.foldl addRpcServer ⟨count, ∅⟩).vnMap[id]? =
      (servers.find? fun server => Generates count id server).map RpcClusterServer.clusterServerAddr) ∧
    ((firstRegistrations servers).foldl addRpcServer ⟨count, ∅⟩).vnMap =
      (servers.foldl addRpcServer ⟨count, ∅⟩).vnMap := by
  have closed (registered : List RpcClusterServer) (id : UInt32) :
      (registered.foldl addRpcServer ⟨count, ∅⟩).vnMap[id]? =
        (registered.find? fun server => Generates count id server).map
          RpcClusterServer.clusterServerAddr := by
    rw [addRpcServers_eq]
    change (insertAll (nodes count registered) (∅ : VnHashMap))[id]? = _
    rw [getElem?_insertAll, getElem?_empty, Option.none_or, find?_nodes]
  refine ⟨closed servers, ext_getElem? fun id => ?_⟩
  rw [closed, closed, find?_firstRegistrations]

/-- A server that registers twice. -/
example : firstRegistrations [serverA, serverB, serverA] = [serverA, serverB] := by decide

end LoadBalancer

end LibEvRpc
