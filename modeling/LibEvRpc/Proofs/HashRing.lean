import LibEvRpc.Center.LoadBalancer
import LibEvRpc.ToMathlib.CircularLookup

/-! # The ring under additions and snapshots

Every update of the ring inserts virtual nodes that are not there yet, so the ring only grows and
never rebinds an id. A client keeps its server or moves to a new one; a follower that merges
snapshots of one leader ends with the most recent; and two orders of registration give one ring
exactly when no two servers share the id of a virtual node.
-/

namespace LibEvRpc

open Std (ExtTreeMap)
open Std.ExtTreeMap

/-- The virtual nodes of a server. -/
def shards (count : Int32) (addr : Bytes) : List (UInt32 × Bytes) :=
  (List.range count.toNatClampNeg).map fun i => (shardHash addr (Int32.ofNat i), addr)

theorem insertShards_eq_insertAll (count : Int32) (addr : Bytes) (map : VnHashMap) :
    insertShards count addr map = insertAll (shards count addr) map := by
  rw [insertShards, insertAll, shards, List.foldl_map]

theorem snd_eq_of_mem_shards {count : Int32} {addr : Bytes} {entry : UInt32 × Bytes}
    (member : entry ∈ shards count addr) : entry.2 = addr := by
  obtain ⟨_, _, rfl⟩ := List.mem_map.mp member
  rfl

namespace LoadBalancer

/-- The virtual nodes of a list of servers, in the order of their registration. -/
def nodes (count : Int32) (servers : List RpcClusterServer) : List (UInt32 × Bytes) :=
  servers.flatMap fun server => shards count server.clusterServerAddr

/-- Successive calls of `AddRpcServer` insert the virtual nodes of the servers. -/
theorem addRpcServers_eq (balancer : LoadBalancer) (servers : List RpcClusterServer) :
    servers.foldl addRpcServer balancer =
      ⟨balancer.virtualNodeNum,
        insertAll (nodes balancer.virtualNodeNum servers) balancer.vnMap⟩ := by
  induction servers generalizing balancer with
  | nil => rfl
  | cons server servers ih =>
    rw [List.foldl_cons, ih, addRpcServer, insertShards_eq_insertAll, nodes, nodes,
      List.flatMap_cons, insertAll_append]

theorem updateLBResult_vnMap (balancer : LoadBalancer) (lbResultList : List LoadBalancerMetaData) :
    (balancer.updateLBResult lbResultList).vnMap =
      insertAll (lbResultList.map fun data => (data.vid, data.serverAddr)) balancer.vnMap := by
  rw [updateLBResult, insertAll, List.foldl_map]

/-- A client is served by the successor of its hash. -/
theorem getRpcServer_eq (balancer : LoadBalancer) (rpcClient : Bytes) (rpcServerList : List Bytes) :
    balancer.getRpcServer rpcClient rpcServerList =
      match balancer.vnMap.successor? (murMurHash2 rpcClient (Int32.ofNat rpcClient.length)) with
      | none => (false, rpcServerList)
      | some entry => (true, rpcServerList ++ [entry.2]) := by
  rw [getRpcServer]
  split
  · next empty =>
    rw [successor?_eq_none_iff.mpr (isEmpty_iff.mp empty)]
  · next nonempty =>
    have found : balancer.vnMap.successor?
        (murMurHash2 rpcClient (Int32.ofNat rpcClient.length)) ≠ none := by
      rw [ne_eq, successor?_eq_none_iff]
      exact fun empty => nonempty (isEmpty_iff.mpr empty)
    rw [successor?] at found ⊢
    cases above : balancer.vnMap.getEntryGE?
        (murMurHash2 rpcClient (Int32.ofNat rpcClient.length)) with
    | some entry => rfl
    | none =>
      rw [above, Option.none_or] at found
      cases lowest : balancer.vnMap.minEntry? with
      | some entry => rfl
      | none => exact absurd lowest found

/-- A client is served by one server exactly when the successor of its hash belongs to it. -/
theorem getRpcServer_eq_iff {balancer : LoadBalancer} {rpcClient addr : Bytes} :
    balancer.getRpcServer rpcClient [] = (true, [addr]) ↔
      ∃ id, balancer.vnMap.successor? (murMurHash2 rpcClient (Int32.ofNat rpcClient.length)) =
        some (id, addr) := by
  rw [getRpcServer_eq]
  cases balancer.vnMap.successor? (murMurHash2 rpcClient (Int32.ofNat rpcClient.length)) with
  | none => simp
  | some entry =>
    obtain ⟨id, stored⟩ := entry
    simp

/-! ## Additions -/

/-- The server of a virtual node is the one it was made for. -/
theorem server_of_mem_nodes {count : Int32} {servers : List RpcClusterServer}
    {entry : UInt32 × Bytes} (member : entry ∈ nodes count servers) :
    ∃ server ∈ servers, entry.2 = server.clusterServerAddr := by
  obtain ⟨server, listed, shard⟩ := List.mem_flatMap.mp member
  exact ⟨server, listed, snd_eq_of_mem_shards shard⟩

/-- Additions that leave some virtual node on the ring: the client gets its old answer or a new
server. -/
private theorem successor?_after_additions {ring : VnHashMap} {added : List (UInt32 × Bytes)}
    (key : UInt32) (nonempty : insertAll added ring ≠ ∅) :
    ∃ entry, (insertAll added ring).successor? key = some entry ∧
      (ring.successor? key = some entry ∨ entry ∈ added) := by
  cases found : (insertAll added ring).successor? key with
  | none => exact absurd (successor?_eq_none_iff.mp found) nonempty
  | some entry =>
    refine ⟨entry, rfl, ?_⟩
    rcases successor?_of_extension (insertAll_extends added ring) found with new | old
    · exact .inr (mem_of_getElem?_insertAll new (successor?_eq_some_iff.mp found).1)
    · exact .inl old

/-- What a client gets after additions: the old answer or a new server. -/
theorem getRpcServer_after_additions (balancer : LoadBalancer) (servers : List RpcClusterServer)
    (rpcClient : Bytes) (positive : 1 ≤ balancer.virtualNodeNum) :
    (∀ old, balancer.getRpcServer rpcClient [] = (true, [old]) →
      ∃ new, (servers.foldl addRpcServer balancer).getRpcServer rpcClient [] = (true, [new]) ∧
        (new = old ∨ ∃ server ∈ servers, new = server.clusterServerAddr)) ∧
    (balancer.vnMap = ∅ → servers ≠ [] →
      ∃ new, (servers.foldl addRpcServer balancer).getRpcServer rpcClient [] = (true, [new]) ∧
        ∃ server ∈ servers, new = server.clusterServerAddr) := by
  set added := nodes balancer.virtualNodeNum servers with addedEq
  simp only [getRpcServer_eq_iff, addRpcServers_eq, ← addedEq]
  constructor
  · rintro old ⟨id, served⟩
    have kept : id ∈ insertAll added balancer.vnMap := by
      apply mem_insertAll.mpr
      exact .inl (mem_iff_isSome_getElem?.mpr ((successor?_eq_some_iff.mp served).1 ▸ rfl))
    have nonempty : insertAll added balancer.vnMap ≠ ∅ := by
      intro empty
      rw [empty] at kept
      exact not_mem_empty kept
    obtain ⟨entry, found, same | new⟩ := successor?_after_additions
      (murMurHash2 rpcClient (Int32.ofNat rpcClient.length)) nonempty
    · rw [served, Option.some.injEq] at same
      exact ⟨old, ⟨id, same ▸ found⟩, .inl rfl⟩
    · exact ⟨entry.2, ⟨entry.1, found⟩, .inr (server_of_mem_nodes new)⟩
  · intro empty listed
    obtain ⟨server, rest, rfl⟩ := List.exists_cons_of_ne_nil listed
    have first : (shardHash server.clusterServerAddr (Int32.ofNat 0), server.clusterServerAddr) ∈
        added := by
      apply List.mem_flatMap.mpr
      refine ⟨server, List.mem_cons_self, List.mem_map.mpr ⟨0, List.mem_range.mpr ?_, rfl⟩⟩
      have bound : (1 : Int32).toInt ≤ balancer.virtualNodeNum.toInt := Int32.le_iff_toInt_le.mp positive
      rw [← Int32.toNat_toInt]
      change 1 ≤ _ at bound
      omega
    have nonempty : insertAll added balancer.vnMap ≠ ∅ := by
      intro none
      have member : shardHash server.clusterServerAddr (Int32.ofNat 0) ∈ insertAll added balancer.vnMap :=
        mem_insertAll.mpr (.inr ⟨_, first, rfl⟩)
      rw [none] at member
      exact not_mem_empty member
    obtain ⟨entry, found, old | new⟩ := successor?_after_additions
      (murMurHash2 rpcClient (Int32.ofNat rpcClient.length)) nonempty
    · rw [empty, successor?_eq_none_iff.mpr rfl] at old
      contradiction
    · exact ⟨entry.2, ⟨entry.1, found⟩, server_of_mem_nodes new⟩

def serverA : RpcClusterServer := { clusterServerAddr := inetNtoa (10, 0, 1, 7) }

def serverB : RpcClusterServer := { clusterServerAddr := inetNtoa (10, 0, 32, 119) }

/-- The first server serves the client, and the second one leaves it there or takes it over. -/
theorem getRpcServer_after_additions_sample :
    ∃ new, ([serverB].foldl addRpcServer ([serverA].foldl addRpcServer ⟨20, ∅⟩)).getRpcServer
        [99] [] = (true, [new]) ∧
      (new = serverA.clusterServerAddr ∨ ∃ server ∈ [serverB], new = server.clusterServerAddr) := by
  obtain ⟨old, served, server, listed, rfl⟩ :=
    (getRpcServer_after_additions ⟨20, ∅⟩ [serverA] [99] (by decide)).2 rfl (by decide)
  rw [List.mem_singleton.mp listed] at served
  exact (getRpcServer_after_additions ([serverA].foldl addRpcServer ⟨20, ∅⟩) [serverB] [99]
    (by decide)).1 _ served

/-! ## Order of registration -/

/-- Two servers with different addresses have a virtual node with the same id. -/
def SharePoint (count : Int32) (servers : List RpcClusterServer) : Prop :=
  ∃ first ∈ servers, ∃ second ∈ servers, first.clusterServerAddr ≠ second.clusterServerAddr ∧
    ∃ i < count.toNatClampNeg, ∃ j < count.toNatClampNeg,
      shardHash first.clusterServerAddr (Int32.ofNat i) =
        shardHash second.clusterServerAddr (Int32.ofNat j)

theorem mem_nodes {count : Int32} {servers : List RpcClusterServer} {entry : UInt32 × Bytes} :
    entry ∈ nodes count servers ↔ ∃ server ∈ servers, ∃ i < count.toNatClampNeg,
      entry = (shardHash server.clusterServerAddr (Int32.ofNat i), server.clusterServerAddr) := by
  simp only [nodes, shards, List.mem_flatMap, List.mem_map, List.mem_range, eq_comm]

theorem conflicting_nodes_iff {count : Int32} {servers : List RpcClusterServer} :
    Conflicting (nodes count servers) ↔ SharePoint count servers := by
  constructor
  · rintro ⟨_, one, _, two, sameId, different⟩
    obtain ⟨first, firstListed, i, iBound, rfl⟩ := mem_nodes.mp one
    obtain ⟨second, secondListed, j, jBound, rfl⟩ := mem_nodes.mp two
    exact ⟨first, firstListed, second, secondListed, different, i, iBound, j, jBound, sameId⟩
  · rintro ⟨first, firstListed, second, secondListed, different, i, iBound, j, jBound, sameId⟩
    exact ⟨_, mem_nodes.mpr ⟨first, firstListed, i, iBound, rfl⟩, _,
      mem_nodes.mpr ⟨second, secondListed, j, jBound, rfl⟩, sameId, different⟩

/-- On an empty ring the first server gets all of its virtual nodes. -/
theorem getElem?_first_server {count : Int32} (server : RpcClusterServer)
    (rest : List RpcClusterServer) {i : ℕ} (bound : i < count.toNatClampNeg) :
    ((server :: rest).foldl addRpcServer ⟨count, ∅⟩).vnMap[
      shardHash server.clusterServerAddr (Int32.ofNat i)]? = some server.clusterServerAddr := by
  set id := shardHash server.clusterServerAddr (Int32.ofNat i) with idEq
  have own : id ∈ insertAll (shards count server.clusterServerAddr) (∅ : VnHashMap) := by
    apply mem_insertAll.mpr
    exact .inr ⟨_, List.mem_map.mpr ⟨i, List.mem_range.mpr bound, rfl⟩, rfl⟩
  rw [addRpcServers_eq]
  change (insertAll (nodes count (server :: rest)) (∅ : VnHashMap))[id]? = _
  rw [nodes, List.flatMap_cons, insertAll_append]
  apply insertAll_extends
  cases found : (insertAll (shards count server.clusterServerAddr) (∅ : VnHashMap))[id]? with
  | none =>
    rw [mem_iff_isSome_getElem?, found] at own
    contradiction
  | some addr =>
    exact congrArg some (snd_eq_of_mem_shards (mem_of_getElem?_insertAll not_mem_empty found))

/-- Any two orders of registration give the same ring and the same answers exactly when no two
servers share the id of a virtual node. -/
theorem registration_order_iff (count : Int32) (servers : List RpcClusterServer) :
    (∀ order : List RpcClusterServer, order.Perm servers →
      (order.foldl addRpcServer ⟨count, ∅⟩).vnMap = (servers.foldl addRpcServer ⟨count, ∅⟩).vnMap ∧
      ∀ rpcClient rpcServerList,
        (order.foldl addRpcServer ⟨count, ∅⟩).getRpcServer rpcClient rpcServerList =
          (servers.foldl addRpcServer ⟨count, ∅⟩).getRpcServer rpcClient rpcServerList) ↔
      ¬ SharePoint count servers := by
  constructor
  · rintro same ⟨first, firstListed, second, secondListed, different, i, iBound, j, jBound, sameId⟩
    have firstOrder := (same _ (List.perm_cons_erase firstListed).symm).1
    have secondOrder := (same _ (List.perm_cons_erase secondListed).symm).1
    have one := getElem?_first_server first (servers.erase first) iBound
    have two := getElem?_first_server second (servers.erase second) jBound
    rw [firstOrder, sameId] at one
    rw [secondOrder, one, Option.some.injEq] at two
    exact different two
  · intro apart order perm
    have consistent : ¬ Conflicting (nodes count order) := by
      rw [conflicting_nodes_iff]
      rintro ⟨first, firstListed, second, secondListed, shared⟩
      exact apart ⟨first, perm.mem_iff.mp firstListed, second, perm.mem_iff.mp secondListed, shared⟩
    have rings : order.foldl addRpcServer ⟨count, ∅⟩ = servers.foldl addRpcServer ⟨count, ∅⟩ := by
      rw [addRpcServers_eq, addRpcServers_eq]
      congr 1
      apply insertAll_eq_of_mem_iff _ consistent
      intro entry
      simp only [mem_nodes, perm.mem_iff]
    rw [rings]
    exact ⟨rfl, fun _ _ => rfl⟩

/-- Two servers whose 18th and 15th virtual node have one id: it goes to the server that was
registered first. -/
theorem registration_order_matters :
    ([serverA, serverB].foldl addRpcServer ⟨20, ∅⟩).vnMap ≠
      ([serverB, serverA].foldl addRpcServer ⟨20, ∅⟩).vnMap := by
  intro same
  have shared : shardHash serverA.clusterServerAddr (Int32.ofNat 17) =
      shardHash serverB.clusterServerAddr (Int32.ofNat 14) := by decide +kernel
  have first := @getElem?_first_server 20 serverA [serverB] 17 (by decide)
  have second := @getElem?_first_server 20 serverB [serverA] 14 (by decide)
  rw [same, shared, second] at first
  exact absurd first (by decide)

/-! ## Snapshots -/

/-- A leader after a number of additions. -/
def grown (leader : LoadBalancer) (servers : List RpcClusterServer) (count : ℕ) : LoadBalancer :=
  (servers.take count).foldl addRpcServer leader

/-- The snapshot of a leader after a number of additions. -/
def snapshot (leader : LoadBalancer) (servers : List RpcClusterServer) (count : ℕ) :
    List LoadBalancerMetaData :=
  (grown leader servers count).getCurrentLBResult []

theorem grown_extends (leader : LoadBalancer) (servers : List RpcClusterServer) {first second : ℕ}
    (later : first ≤ second) :
    Extends (grown leader servers second).vnMap (grown leader servers first).vnMap := by
  obtain ⟨more, rfl⟩ := Nat.exists_eq_add_of_le later
  rw [grown, grown, List.take_add, List.foldl_append, addRpcServers_eq]
  exact insertAll_extends _ _

/-- Merging a snapshot inserts the ring it was taken of. -/
theorem updateLBResult_snapshot (balancer leader : LoadBalancer) (servers : List RpcClusterServer)
    (count : ℕ) : (balancer.updateLBResult (snapshot leader servers count)).vnMap =
      insertAll (grown leader servers count).vnMap.toList balancer.vnMap := by
  rw [updateLBResult_vnMap, snapshot, getCurrentLBResult, List.nil_append, List.map_map]
  congr 1
  exact List.map_id _

theorem updateLBResults_snapshots (leader : LoadBalancer) (servers : List RpcClusterServer)
    (picks : List ℕ) (balancer : LoadBalancer) :
    ((picks.map (snapshot leader servers)).foldl updateLBResult balancer).vnMap =
      picks.foldl (fun map pick => insertAll (grown leader servers pick).vnMap.toList map)
        balancer.vnMap := by
  induction picks generalizing balancer with
  | nil => rfl
  | cons pick picks ih => rw [List.map_cons, List.foldl_cons, List.foldl_cons, ih, updateLBResult_snapshot]

/-- A follower that starts empty and applies snapshots of one leader in any order, with repetitions
and losses, has the ring of the most recent of them. -/
theorem follower_has_last_snapshot (leader : LoadBalancer) (servers : List RpcClusterServer)
    (virtualNodeNum : Int32) {picks : List ℕ} {last : ℕ} (applied : last ∈ picks)
    (recent : ∀ pick ∈ picks, pick ≤ last) :
    ((picks.map (snapshot leader servers)).foldl updateLBResult ⟨virtualNodeNum, ∅⟩).vnMap =
      (grown leader servers last).vnMap := by
  obtain ⟨first, rest, rfl⟩ := List.exists_cons_of_ne_nil (List.ne_nil_of_mem applied)
  rw [updateLBResults_snapshots, List.foldl_cons, insertAll_toList_of_extended (extends_empty _)]
  exact @foldl_insertAll_chain UInt32 Bytes compare _ _ _ ℕ _
    (fun count => (grown leader servers count).vnMap)
    (fun _ _ later => grown_extends leader servers later) rest first last applied recent

/-- A leader registers two servers, and a follower gets the second snapshot before the first. -/
theorem follower_has_last_snapshot_sample :
    (([2, 1, 2].map (snapshot ⟨20, ∅⟩ [serverA, serverB])).foldl updateLBResult ⟨20, ∅⟩).vnMap =
      (grown ⟨20, ∅⟩ [serverA, serverB] 2).vnMap :=
  follower_has_last_snapshot ⟨20, ∅⟩ [serverA, serverB] 20 (by decide) (by decide)

end LoadBalancer

end LibEvRpc
