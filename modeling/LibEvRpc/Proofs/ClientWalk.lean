import LibEvRpc.Proofs.RegisterWalk
import LibEvRpc.Proofs.RingContents

/-! # The walk of a client round the ring

A new client should be told of the center of the node that follows its hash on the circle. The loop
stops at the end of the ring without going round, and it moves its iterator before it reads: it names
no center if no node is from the hash on, and it reads the end if there are fewer than four.
-/

namespace LibEvRpc

open RpcCenter BufferedCenter Entries
open Std.ExtTreeMap

/-- A center answers a new client with the centers it communicates with. -/
def Communicates (state : BufferedCenter) (clientAddr : Bytes) (centers : List Bytes) : Prop :=
  ∃ answering connFd cwcProto routed response,
    cwcProto.clientCenterAction = .clientInitReq ∧ cwcProto.fromAddr = clientAddr ∧
    state.centerProcessor answering connFd (.client (some cwcProto)) = some routed ∧
    RouteEffect.sent connFd (.client response) ∈ routed.effects ∧
    response.shouldCommunicateCenter = centers

/-! ## The loop -/

/-- From a node on, the loop names the centers of the nodes behind it. -/
theorem clientCenters_cons {entry : UInt32 × Bytes} {rest : List (UInt32 × Bytes)}
    (long : ∀ node ∈ rest, 2 ≤ node.2.length) (count : ℕ) :
    clientCenters count (entry :: rest) =
      if count ≤ rest.length then some ((rest.take count).map Prod.snd) else none := by
  induction count generalizing entry rest with
  | zero => simp [clientCenters]
  | succ count ih =>
    cases rest with
    | nil => simp [clientCenters]
    | cons next rest =>
      obtain ⟨first, later⟩ := List.forall_mem_cons.mp long
      have named : ¬ next.2.length < 2 := by omega
      rw [clientCenters, ih later, List.length_cons, List.take_succ_cons]
      simp only [Nat.add_le_add_iff_right, named, ↓reduceIte]
      split <;> rfl

/-- The centers of a ring are among those it was built from. -/
theorem mem_of_mem_registered {lines : List Bytes} {node : UInt32 × Bytes}
    (member : node ∈ (lines.foldl registNewCenter ∅).toList) : node.2 ∈ lines := by
  rw [foldl_registNewCenter, mem_toList_iff_getElem?_eq_some] at member
  have inserted := mem_of_getElem?_insertAll not_mem_empty member
  obtain ⟨line, listed, shard⟩ := List.mem_flatMap.mp inserted
  rwa [snd_eq_of_mem_shards shard]

/-- The nodes from a hash on begin with the successor of the hash. -/
theorem successor?_of_nodesFrom {hashId : UInt32} {ring : VnHashMap} {node : UInt32 × Bytes}
    {behind : List (UInt32 × Bytes)} (nodes : nodesFrom hashId ring = node :: behind) :
    ring.successor? hashId = some node := by
  have found : ring.getEntryGE? hashId = some node := by
    rw [getEntryGE?_eq_find?, ← List.head?_filter]
    have same : ring.toList.filter (fun entry => (compare hashId entry.1).isLE) =
        nodesFrom hashId ring := by
      apply List.filter_congr
      intro entry _
      rw [Bool.eq_iff_iff, decide_eq_true_iff]
      exact Std.isLE_compare
    rw [same, nodes]
    rfl
  rw [successor?, found, Option.some_or]

/-! ## The answer -/

/-- The message of an answer is the one that was to be sent. -/
private theorem client_of_sent {sends : Bool} {connFd : Int32} {response answer : ClientWithCenter}
    (sent : RouteEffect.sent connFd (.client response) ∈ sendReply sends connFd (.client answer) true) :
    response = answer := by
  cases sends with
  | false => simp [sendReply] at sent
  | true => simpa [sendReply] using sent

/-- A center names to a new client what the loop finds from the hash of the client on. -/
theorem communicates_iff {state : BufferedCenter} {clientAddr : Bytes} {centers : List Bytes} :
    Communicates state clientAddr centers ↔
      clientCenters 3 (lowerBound state.center.centerHashMap (LoadBalancer.clientHash clientAddr)) =
        some centers := by
  constructor
  · rintro ⟨answering, connFd, cwcProto, routed, response, action, rfl, success, sent, rfl⟩
    rw [centerProcessor, processClientRequest, clientResponse, action] at success
    obtain ⟨_, responding, rfl⟩ := Option.map_eq_some_iff.mp success
    obtain ⟨centers, found, rfl⟩ := Option.map_eq_some_iff.mp responding
    dsimp only at sent
    split at sent
    · rw [client_of_sent sent]
      exact found
    · simp at sent
  · intro found
    let response : ClientWithCenter := {
      clientCenterAction := .centerRespOk
      shouldCommunicateCenter := centers
      clusterServerList := serverList state.center clientAddr }
    refine ⟨⟨true, true⟩, 0, { clientCenterAction := .clientInitReq, fromAddr := clientAddr },
      ⟨state, true, sendReply true 0 (.client response) true⟩, response, rfl, rfl, ?_,
      List.mem_cons_self, rfl⟩
    rw [LoadBalancer.clientHash] at found
    simp only [centerProcessor, processClientRequest, clientResponse, found, Option.map_some]
    rfl

/-- A center with a ring of addresses names to a new client the center that follows its hash, and
perhaps others, exactly when four nodes are from the hash on and the first two belong to one
center. -/
theorem communicates_following_iff {lines : List Bytes} {state : BufferedCenter}
    (ring : state.center.centerHashMap = lines.foldl registNewCenter ∅)
    (addresses : ∀ line ∈ lines, 2 ≤ line.length) (clientAddr : Bytes) :
    (∃ point following others,
        LoadBalancer.Nearest state.center.centerHashMap (LoadBalancer.clientHash clientAddr) point
          following ∧
        Communicates state clientAddr (following :: others)) ↔
      4 ≤ (nodesFrom (LoadBalancer.clientHash clientAddr) state.center.centerHashMap).length ∧
        OneValue ((nodesFrom (LoadBalancer.clientHash clientAddr) state.center.centerHashMap).take
          2) := by
  have long : ∀ node ∈ nodesFrom (LoadBalancer.clientHash clientAddr) state.center.centerHashMap,
      2 ≤ node.2.length := by
    intro node member
    have listed := (List.mem_filter.mp member).1
    rw [ring] at listed
    exact addresses _ (mem_of_mem_registered listed)
  simp only [communicates_iff, LoadBalancer.nearest_iff_successor?, lowerBound,
    dropWhile_eq_filter (ascending_toList _)]
  rw [← nodesFrom]
  cases nodes : nodesFrom (LoadBalancer.clientHash clientAddr) state.center.centerHashMap with
  | nil => simp [clientCenters]
  | cons node behind =>
    rw [nodes] at long
    rw [clientCenters_cons (List.forall_mem_cons.mp long).2, successor?_of_nodesFrom nodes,
      List.length_cons]
    have lengths : 4 ≤ behind.length + 1 ↔ 3 ≤ behind.length := by omega
    rw [lengths]
    constructor
    · rintro ⟨point, following, others, successor, named⟩
      obtain ⟨enough, named⟩ := Option.ite_none_right_eq_some.mp named
      refine ⟨enough, ?_⟩
      cases successor
      cases behind with
      | nil => contradiction
      | cons next behind =>
        have same := (List.cons.inj (Option.some.inj named)).1
        apply oneValue_cons_iff.mpr
        intro entry member
        rcases List.mem_cons.mp member with rfl | second
        · rfl
        · rw [List.mem_singleton.mp second]
          exact same
    · rintro ⟨enough, oneValue⟩
      cases behind with
      | nil => contradiction
      | cons next behind =>
        have same := oneValue_cons_iff.mp oneValue next (List.mem_cons_of_mem _ List.mem_cons_self)
        refine ⟨node.1, node.2, (behind.take 2).map Prod.snd, rfl, ?_⟩
        rw [if_pos enough, ← same]
        rfl

/-- No node is from the hash of the client `10.0.2.65` on, and it is told of no center. -/
theorem communicates_with_none :
    (followerOf threeCenters (sampleAddress 1)).center.centerHashMap =
        [sampleAddress 2, sampleAddress 3].foldl registNewCenter ∅ ∧
      Communicates (followerOf threeCenters (sampleAddress 1)) (inetNtoa (10, 0, 2, 65)) [] ∧
      ¬ ∃ point following others,
        LoadBalancer.Nearest (followerOf threeCenters (sampleAddress 1)).center.centerHashMap
          (LoadBalancer.clientHash (inetNtoa (10, 0, 2, 65))) point following ∧
        Communicates (followerOf threeCenters (sampleAddress 1)) (inetNtoa (10, 0, 2, 65))
          (following :: others) := by
  have none : clientCenters 3 (lowerBound
      (followerOf threeCenters (sampleAddress 1)).center.centerHashMap
      (LoadBalancer.clientHash (inetNtoa (10, 0, 2, 65)))) = some [] := by decide +kernel
  refine ⟨rfl, communicates_iff.mpr none, ?_⟩
  rintro ⟨point, following, others, _, communicates⟩
  rw [communicates_iff, none, Option.some.injEq] at communicates
  exact List.cons_ne_nil _ _ communicates.symm

/-- The client `10.0.2.3` has seventeen nodes from its hash on, and the first two belong to one center. -/
theorem communicates_following_sample :
    ∃ point following others,
      LoadBalancer.Nearest (followerOf threeCenters (sampleAddress 1)).center.centerHashMap
        (LoadBalancer.clientHash (inetNtoa (10, 0, 2, 3))) point following ∧
      Communicates (followerOf threeCenters (sampleAddress 1)) (inetNtoa (10, 0, 2, 3))
        (following :: others) :=
  (@communicates_following_iff [sampleAddress 2, sampleAddress 3]
    (followerOf threeCenters (sampleAddress 1)) rfl (by decide) _).mpr
      ⟨by decide +kernel, by unfold OneValue; decide +kernel⟩

end LibEvRpc
