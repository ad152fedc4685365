import LibEvRpc.Proofs.CenterRing

/-! # The walk of a registration round the ring

A server should be told of the centers of the three virtual nodes that follow its hash on the circle.
The loop moves its iterator before it reads, and goes on at the beginning only from the end itself: it
skips the first node from the hash on, and reads the end if fewer than three are behind that one.
-/

namespace LibEvRpc

open RpcCenter BufferedCenter Entries
open Std.ExtTreeMap

/-- The centers of the three consecutive nodes of a ring from a hash on, round the circle. -/
def successorCenters (hashId : UInt32) (ring : VnHashMap) : List Bytes :=
  (consecutive hashId ring.toList 3).map Prod.snd

def nodesFrom (hashId : UInt32) (ring : VnHashMap) : List (UInt32 × Bytes) :=
  ring.toList.filter fun node => hashId ≤ node.1

/-- Behind all nodes the circle starts with the smallest one. -/
theorem fromKey_of_none {hashId : UInt32} {ring : VnHashMap} (none : nodesFrom hashId ring = []) :
    fromKey hashId ring.toList = ring.toList := by
  have below : ring.toList.filter (fun node => node.1 < hashId) = ring.toList := by
    apply List.filter_eq_self.mpr
    intro node member
    have notFrom := List.filter_eq_nil_iff.mp none node member
    exact decide_eq_true (UInt32.not_le.mp fun above => notFrom (decide_eq_true above))
  rw [fromKey, ← nodesFrom, none, below, List.nil_append]

/-- The loop reads nodes only and names the centers that follow the hash exactly when it starts behind
all nodes of a ring of at least three, or at the first of four that belong to one center. -/
theorem clusterCenters_successors_iff (ring : VnHashMap) (hashId : UInt32) :
    clusterCenters ring.toList 3 (lowerBound ring hashId) = some (successorCenters hashId ring) ↔
      (nodesFrom hashId ring = [] ∧ 3 ≤ ring.toList.length) ∨
        (4 ≤ (nodesFrom hashId ring).length ∧ OneValue ((nodesFrom hashId ring).take 4)) := by
  have ascending := ascending_toList ring
  rw [clusterCenters_lowerBound, readPoints_eq ascending, dropWhile_eq_filter ascending,
    successorCenters, ← nodesFrom, Option.ite_none_right_eq_some]
  cases nodes : nodesFrom hashId ring with
  | nil =>
    rw [or_iff_left (fun long => absurd long.1 (by decide))]
    constructor
    · rintro ⟨enough, _⟩
      exact ⟨rfl, enough⟩
    · rintro ⟨_, enough⟩
      refine ⟨enough, ?_⟩
      rw [consecutive_eq_take (by rwa [fromKey_of_none nodes]), fromKey_of_none nodes]
  | cons first behind =>
    rw [or_iff_right (fun none => List.cons_ne_nil _ _ none.1), List.length_cons]
    dsimp only
    have lengths : 4 ≤ behind.length + 1 ↔ 3 ≤ behind.length := by omega
    rw [lengths]
    apply and_congr_right
    intro enough
    have circle : fromKey hashId ring.toList =
        (first :: behind) ++ ring.toList.filter fun node => node.1 < hashId := by
      rw [fromKey, ← nodesFrom, nodes]
    have named : consecutive hashId ring.toList 3 = (first :: behind).take 3 := by
      rw [consecutive_eq_take, circle, List.take_append_of_le_length]
      · rw [List.length_cons]
        omega
      · rw [circle, List.length_append, List.length_cons]
        omega
    rw [named, Option.some.injEq]
    exact (take_values_eq_iff enough).trans oneValue_cons_iff.symm

/-- A center that is ready tells a server of the centers that follow the hash of the server, without
reading the end of its ring, exactly when no node is from the hash on and there are at least three, or
the first four from the hash on belong to one center. -/
theorem names_successors_iff {state : BufferedCenter} (ready : centerIsReady state.center)
    (serverAddr : Bytes) :
    Names state serverAddr (successorCenters (serverHash serverAddr) state.center.centerHashMap) ↔
      (nodesFrom (serverHash serverAddr) state.center.centerHashMap = [] ∧
          3 ≤ state.center.centerHashMap.toList.length) ∨
        (4 ≤ (nodesFrom (serverHash serverAddr) state.center.centerHashMap).length ∧
          OneValue ((nodesFrom (serverHash serverAddr) state.center.centerHashMap).take 4)) := by
  rw [names_iff, clusterCenters_successors_iff]
  exact and_iff_right ready

/-- A registration reads the end of the ring when the loop does. -/
theorem processClusterRequest_eq_none (answering : Answering) {state : BufferedCenter} (connFd : Int32)
    {server : RpcClusterServer} (register : server.clusterAction = .register)
    (reads : clusterCenters state.center.centerHashMap.toList 3
      (lowerBound state.center.centerHashMap (serverHash server.clusterServerAddr)) = none) :
    processClusterRequest answering state connFd server = none := by
  rw [processClusterRequest_register answering state connFd register, reads]
  rfl

/-- The server `10.0.1.65` has a hash near the end of the ring of `10.0.0.1`, which is read. -/
theorem names_reads_end :
    (∀ answering connFd, processClusterRequest answering (followerOf threeCenters (sampleAddress 1))
        connFd { clusterServerAddr := inetNtoa (10, 0, 1, 65) } = none) ∧
      ¬ Names (followerOf threeCenters (sampleAddress 1)) (inetNtoa (10, 0, 1, 65))
        (successorCenters (serverHash (inetNtoa (10, 0, 1, 65)))
          (followerOf threeCenters (sampleAddress 1)).center.centerHashMap) := by
  have readsEnd : clusterCenters (followerOf threeCenters (sampleAddress 1)).center.centerHashMap.toList 3
      (lowerBound (followerOf threeCenters (sampleAddress 1)).center.centerHashMap
        (serverHash (inetNtoa (10, 0, 1, 65)))) = none := by decide +kernel
  constructor
  · intro answering connFd
    exact processClusterRequest_eq_none answering connFd rfl readsEnd
  · rw [names_iff, readsEnd]
    rintro ⟨_, contradictory⟩
    exact Option.some_ne_none _ contradictory.symm

/-- The hash of the server `10.0.1.35` is behind all nodes. -/
theorem names_successors_sample :
    Names (followerOf threeCenters (sampleAddress 1)) (inetNtoa (10, 0, 1, 35))
      (successorCenters (serverHash (inetNtoa (10, 0, 1, 35)))
        (followerOf threeCenters (sampleAddress 1)).center.centerHashMap) :=
  (names_successors_iff rfl _).mpr (.inl (by decide +kernel))

end LibEvRpc
