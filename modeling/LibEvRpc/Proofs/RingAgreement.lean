import LibEvRpc.Proofs.HashRing

/-! # A follower's ring behind a change of leader

A follower inserts the virtual nodes of its leader where they are absent and removes nothing. Each
virtual node that it kept from an earlier leader, or from its own time as a leader, is read by the
clients in front of it, so the follower answers as its leader does exactly when the leader gives
every such virtual node to the same server.
-/

namespace LibEvRpc

open Std.ExtTreeMap

namespace LoadBalancer

def owner? (balancer : LoadBalancer) (hashId : UInt32) : Option Bytes :=
  (balancer.vnMap.successor? hashId).map Prod.snd

theorem getRpcServer_eq_owner? (balancer : LoadBalancer) (rpcClient : Bytes)
    (rpcServerList : List Bytes) :
    balancer.getRpcServer rpcClient rpcServerList =
      match balancer.owner? (murMurHash2 rpcClient (Int32.ofNat rpcClient.length)) with
      | none => (false, rpcServerList)
      | some addr => (true, rpcServerList ++ [addr]) := by
  rw [getRpcServer_eq, owner?]
  cases balancer.vnMap.successor? (murMurHash2 rpcClient (Int32.ofNat rpcClient.length)) with
  | none => rfl
  | some entry => rfl

/-- A client gets the same answer from two rings exactly when they give its hash to the same server. -/
theorem getRpcServer_eq_getRpcServer_iff {first second : LoadBalancer} {rpcClient : Bytes} :
    (∀ rpcServerList, first.getRpcServer rpcClient rpcServerList =
        second.getRpcServer rpcClient rpcServerList) ↔
      first.owner? (murMurHash2 rpcClient (Int32.ofNat rpcClient.length)) =
        second.owner? (murMurHash2 rpcClient (Int32.ofNat rpcClient.length)) := by
  simp only [getRpcServer_eq_owner?]
  constructor
  · intro same
    specialize same []
    cases one : first.owner? (murMurHash2 rpcClient (Int32.ofNat rpcClient.length)) with
    | none =>
      cases two : second.owner? (murMurHash2 rpcClient (Int32.ofNat rpcClient.length)) with
      | none => rfl
      | some addr =>
        rw [one, two] at same
        exact absurd (congrArg Prod.fst same) Bool.false_ne_true
    | some addr =>
      cases two : second.owner? (murMurHash2 rpcClient (Int32.ofNat rpcClient.length)) with
      | none =>
        rw [one, two] at same
        exact absurd (congrArg Prod.fst same).symm Bool.false_ne_true
      | some other =>
        rw [one, two] at same
        exact congrArg some (List.singleton_inj.mp (congrArg Prod.snd same))
  · intro same rpcServerList
    rw [same]

/-- Applying the snapshot of a leader inserts its ring. -/
theorem updateLBResult_getCurrentLBResult (center leader : LoadBalancer) :
    (center.updateLBResult (leader.getCurrentLBResult [])).vnMap =
      insertAll leader.vnMap.toList center.vnMap := by
  rw [updateLBResult_vnMap, getCurrentLBResult, List.nil_append, List.map_map]
  congr 1
  exact List.map_id _

/-- A center that applied a leader's snapshot answers every client as the leader does exactly when
the leader's ring gives each virtual node that the center had to the server it has at the center. -/
theorem getRpcServer_after_snapshot_iff (center leader : LoadBalancer) :
    (∀ rpcClient rpcServerList,
      (center.updateLBResult (leader.getCurrentLBResult [])).getRpcServer rpcClient rpcServerList =
        leader.getRpcServer rpcClient rpcServerList) ↔
      ∀ (id : UInt32) (addr : Bytes), center.vnMap[id]? = some addr → leader.owner? id = some addr := by
  simp only [getRpcServer_eq_getRpcServer_iff]
  simp only [owner?, updateLBResult_getCurrentLBResult]
  rw [← successor?_insertAll_agree_iff]
  constructor
  · intro agree hashId
    obtain ⟨rpcClient, rfl⟩ := murMurHash2_surjective hashId
    exact agree rpcClient
  · intro agree rpcClient
    exact agree _

/-- A center that registered one server while it was leading, followed a leader that had registered
another one, and applies the snapshot of a further leader, which also has the other one only: the
client `10.0.2.1` is still sent to the first server. -/
theorem getRpcServer_after_snapshot_differs :
    let earlier := [serverB].foldl addRpcServer ⟨20, ∅⟩
    let leader := [serverB].foldl addRpcServer ⟨20, ∅⟩
    let center := ([serverA].foldl addRpcServer ⟨20, ∅⟩).updateLBResult (earlier.getCurrentLBResult [])
    (center.updateLBResult (leader.getCurrentLBResult [])).getRpcServer (inetNtoa (10, 0, 2, 1)) [] =
        (true, [serverA.clusterServerAddr]) ∧
      leader.getRpcServer (inetNtoa (10, 0, 2, 1)) [] = (true, [serverB.clusterServerAddr]) := by
  decide +kernel

end LoadBalancer

end LibEvRpc
