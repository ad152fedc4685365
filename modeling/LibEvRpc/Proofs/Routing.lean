import LibEvRpc.Center.Descriptors
import LibEvRpc.Proofs.CallbackSteps
import LibEvRpc.Proofs.CenterSteps
import LibEvRpc.Proofs.HashRing

/-! # Pings and their replies

A ping is routed by `CenterProcessor`, and so is the reply to it. Only messages of an election are
queued as they were received; in the other branch a new message hides the received one, and it is
empty. A queued message therefore never has an action that touches the ring: neither the servers
of a follower nor the snapshot of a leader get there.
-/

namespace LibEvRpc

open RpcCenter BufferedCenter LoadBalancer
open Std.ExtTreeMap

/-! ## What is queued -/

def RouteEffect.pushed? : RouteEffect → Option CentersProto
  | .pushElectionMessage _ centersProto | .pushFollowerMessage _ centersProto => some centersProto
  | .sent _ _ | .close _ => none

def RouteEffect.sent? : RouteEffect → Option Reply
  | .sent _ reply => some reply
  | .close _ | .pushElectionMessage _ _ | .pushFollowerMessage _ _ => none

theorem pushed?_sendReply (sends : Bool) (fd : Int32) (reply : Reply) (needClosed : Bool) :
    (sendReply sends fd reply needClosed).filterMap RouteEffect.pushed? = [] := by
  cases sends with
  | false => rfl
  | true => cases needClosed <;> rfl

theorem sent?_sendReply (sends : Bool) (fd : Int32) (reply : Reply) (needClosed : Bool) :
    (sendReply sends fd reply needClosed).filterMap RouteEffect.sent? =
      if sends then [reply] else [] := by
  cases sends with
  | false => rfl
  | true => cases needClosed <;> rfl

/-- What `CenterProcessor` queues: a message of the election as it was received, and an empty message
for any other one that a leader receives. -/
def queuedMessages (center : RpcCenter) : Incoming → List CentersProto
  | .center (some received) =>
      if Cluster.isElection received.centerAction then [received]
      else if center.centerStatus = .leading then [{}] else []
  | _ => []

theorem pushed?_centerProcessor {answering : Answering} {state : BufferedCenter} {connFd : Int32}
    {incoming : Incoming} {routed : Routed}
    (success : state.centerProcessor answering connFd incoming = some routed) :
    routed.effects.filterMap RouteEffect.pushed? = queuedMessages state.center incoming := by
  obtain ⟨rfl, rfl⟩ | ⟨silent, rfl⟩ | ⟨received, rfl, rfl⟩ | ⟨cwcProto, rfl, request⟩ |
    ⟨received, rfl, _, rfl⟩ | ⟨server, rfl, _, request⟩ := centerProcessor_cases success
  · rfl
  · obtain rfl | rfl | rfl | ⟨rfl, _⟩ := silent <;> rfl
  · rw [processCenterRequest_effects, queuedMessages]
    split
    · rfl
    · split
      · rfl
      · split
        · exact pushed?_sendReply _ _ _ _
        · rfl
  · obtain ⟨_, response, effects⟩ := processClientRequest_spec request
    rw [effects]
    split
    · exact pushed?_sendReply _ _ _ _
    · rfl
  · exact pushed?_sendReply _ _ _ _
  · obtain ⟨_, _, effects⟩ | ⟨_, _, crc, effects⟩ := processClusterRequest_spec request
    · rw [effects]
      rfl
    · rw [effects]
      split
      · exact pushed?_sendReply _ _ _ _
      · rfl

/-- A message that is queued has an action of the election. -/
theorem isElection_of_queued {center : RpcCenter} {incoming : Incoming} {centersProto : CentersProto}
    (queued : centersProto ∈ queuedMessages center incoming) :
    Cluster.isElection centersProto.centerAction := by
  unfold queuedMessages at queued
  split at queued
  · split at queued
    · next election => exact List.mem_singleton.mp queued ▸ election
    · split at queued
      · exact List.mem_singleton.mp queued ▸ rfl
      · contradiction
  · contradiction

/-- A message of the election leaves the ring alone. -/
theorem processCenterData_loadBalancer {outside : Outside} {center : RpcCenter} {fd : Int32}
    {centersProto : CentersProto} {processed : Processed}
    (election : Cluster.isElection centersProto.centerAction)
    (success : center.processCenterData outside fd centersProto = some processed) :
    processed.center.loadBalancer = center.loadBalancer := by
  rw [processCenterData] at success
  cases action : centersProto.centerAction with
  | inquiry =>
    rw [action] at success
    cases success
    rw [respond_center]
  | proposal =>
    by_cases accepted : center.leaderPredicate centersProto = .accept
    · obtain ⟨recorded, _, voting⟩ := processCenterData_voted action accepted
        (processCenterData.eq_def _ _ _ _ ▸ success)
      rw [voting]
      exact (voted_sameRings _ _ _ _).loadBalancer
    · rw [action] at success
      dsimp only at success
      rw [if_neg accepted] at success
      cases success
      rfl
  | leaderConfirm =>
    rw [action] at success
    cases success
    exact (leaderConfirm_sameRings _ _ _).loadBalancer
  | accept | refused =>
    rw [action] at success
    cases success
    rfl
  | followerPing | leaderPingResponse | centerReporter =>
    rw [action] at election
    contradiction

/-! ## The ping of a follower -/

/-- A ring that the virtual nodes of some servers are already on. -/
def OnRing (balancer : LoadBalancer) (servers : List RpcClusterServer) : Prop :=
  ∀ server ∈ servers, ∀ i < balancer.virtualNodeNum.toNatClampNeg,
    shardHash server.clusterServerAddr (Int32.ofNat i) ∈ balancer.vnMap

/-- Adding servers changes nothing exactly when the ids of their virtual nodes are taken. -/
theorem addRpcServers_eq_self_iff {balancer : LoadBalancer} {servers : List RpcClusterServer} :
    balancer.vnMap = (servers.foldl addRpcServer balancer).vnMap ↔ OnRing balancer servers := by
  rw [addRpcServers_eq, eq_comm, insertAll_eq_self_iff]
  constructor
  · intro present server listed i bound
    exact present _ (mem_nodes.mpr ⟨server, listed, i, bound, rfl⟩)
  · intro present entry member
    obtain ⟨server, listed, i, bound, rfl⟩ := mem_nodes.mp member
    exact present server listed i bound

/-- Servers that were added are on the ring. -/
theorem onRing_addRpcServers (balancer : LoadBalancer) {servers added : List RpcClusterServer}
    (listed : servers ⊆ added) : OnRing (added.foldl addRpcServer balancer) servers := by
  intro server member i bound
  rw [addRpcServers_eq] at bound ⊢
  exact mem_insertAll.mpr (.inr ⟨_, mem_nodes.mpr ⟨server, listed member, i, bound, rfl⟩, rfl⟩)

/-- The ping of a follower is queued by the leader, and when the queued item is processed the ring
has the servers of the follower. -/
def Registers (outside : Outside) (answering : Answering) (leader follower : BufferedCenter)
    (conn : ℕ) (connFd : Int32) (followerQ : MessageQueue QueuedMessage) : Prop :=
  ∃ routed item queue processed,
    leader.centerProcessor answering connFd (.center (some follower.followerPing)) = some routed ∧
    routed.effects.filterMap (CenterServer.routedCall? conn) = [.pushFollowerMessage item] ∧
    followerQ.push item = some queue ∧
    routed.state.center.processCenterData outside item.connFd item.centersProto = some processed ∧
    processed.center.loadBalancer.vnMap =
      (follower.rpcServerBuf.foldl addRpcServer leader.center.loadBalancer).vnMap

private theorem routing_followerPing {answering : Answering} {leader follower : BufferedCenter}
    {connFd : Int32} (leading : leader.center.centerStatus = .leading) :
    leader.centerProcessor answering connFd (.center (some follower.followerPing)) =
      some ⟨leader, true, [.pushFollowerMessage connFd {}]⟩ := by
  rw [centerProcessor, processCenterRequest, followerPing]
  dsimp only
  rw [if_neg (not_not_intro leading)]

/-- A center takes the empty message for an inquiry. -/
private theorem processCenterData_empty (outside : Outside) (center : RpcCenter) (fd : Int32) :
    center.processCenterData outside fd {} =
      some (respond outside center fd center.inquiryAnswer) :=
  rfl

theorem onRing_of_registers {outside : Outside} {answering : Answering}
    {leader follower : BufferedCenter} {conn : ℕ} {connFd : Int32}
    {followerQ : MessageQueue QueuedMessage} (leading : leader.center.centerStatus = .leading)
    (registers : Registers outside answering leader follower conn connFd followerQ) :
    followerQ.items.isSome ∧ OnRing leader.center.loadBalancer follower.rpcServerBuf := by
  obtain ⟨routed, item, queue, processed, success, calls, pushed, processing, ring⟩ := registers
  rw [routing_followerPing leading, Option.some.injEq] at success
  subst success
  cases calls
  rw [processCenterData_empty, Option.some.injEq] at processing
  rw [← processing, respond_center] at ring
  obtain ⟨items, found, _⟩ := MessageQueue.push_eq_some_iff.mp pushed
  exact ⟨found ▸ rfl, addRpcServers_eq_self_iff.mp ring⟩

/-- The servers of a follower are on the ring of the leader behind its ping exactly when there is a
queue and they were on the ring before. -/
theorem registers_iff (outside : Outside) (answering : Answering) (leader follower : BufferedCenter)
    (conn : ℕ) (connFd : Int32) (followerQ : MessageQueue QueuedMessage)
    (leading : leader.center.centerStatus = .leading) :
    Registers outside answering leader follower conn connFd followerQ ↔
      followerQ.items.isSome ∧ OnRing leader.center.loadBalancer follower.rpcServerBuf := by
  constructor
  · exact onRing_of_registers leading
  · rintro ⟨present, onRing⟩
    obtain ⟨items, found⟩ := Option.isSome_iff_exists.mp present
    refine ⟨_, ⟨conn, connFd, {}⟩, _, _, routing_followerPing leading, rfl,
      MessageQueue.push_eq_some_iff.mpr ⟨items, found, rfl⟩, processCenterData_empty _ _ _, ?_⟩
    rw [respond_center]
    exact addRpcServers_eq_self_iff.mpr onRing

def sampleLeader : BufferedCenter := ⟨sampleCenter.updateCenterStatus .leading, []⟩

/-- A follower with one server to report. -/
def sampleFollower : BufferedCenter := ⟨sampleCenter.updateCenterStatus .following, [serverA]⟩

def BufferedCenter.withServers (state : BufferedCenter) (servers : List RpcClusterServer) :
    BufferedCenter :=
  { state with center :=
    { state.center with loadBalancer := servers.foldl addRpcServer state.center.loadBalancer } }

/-- A follower reports one of the two servers of the leader. -/
theorem registers_iff_sample :
    Registers sampleOutside ⟨true, true⟩ (sampleLeader.withServers [serverB, serverA]) sampleFollower
      0 5 MessageQueue.new := by
  apply (registers_iff _ _ _ _ _ _ _ rfl).mpr
  exact ⟨rfl, onRing_addRpcServers _ (List.subset_cons_self _ _)⟩

/-- A server that is reported for the first time does not get onto the ring. -/
theorem serverA_not_registered :
    ¬ Registers sampleOutside ⟨true, true⟩ sampleLeader sampleFollower 0 5 MessageQueue.new := by
  intro registers
  have onRing := (onRing_of_registers rfl registers).2 serverA List.mem_cons_self 0 (by decide)
  exact not_mem_empty onRing

/-! ## The reply of a leader -/

/-- The pairs of a reply that were not on the ring are there behind it, and nothing but the ping was
sent. -/
def Merges (answering : Answering) (state : BufferedCenter) (connFd : Int32)
    (response : CentersProto) : Prop :=
  ∃ routed,
    state.reporterProcessor ⟨true, true⟩ answering connFd (.center (some response)) = some routed ∧
    (∀ data ∈ response.lbResult, data.vid ∉ state.center.loadBalancer.vnMap →
      routed.state.center.loadBalancer.vnMap[data.vid]? = some data.serverAddr) ∧
    routed.effects.filterMap RouteEffect.sent? = [.center state.followerPing]

/-- A reply to a center that does not lead is refused and changes nothing. -/
private theorem reporterProcessor_refuses (answering : Answering) {state : BufferedCenter}
    (connFd : Int32) {response : CentersProto} (notLeading : state.center.centerStatus ≠ .leading)
    (action : response.centerAction = .leaderPingResponse) :
    ∃ routed,
      state.reporterProcessor ⟨true, true⟩ answering connFd (.center (some response)) = some routed ∧
      routed.state = state ∧
      routed.effects.filterMap RouteEffect.sent? = .center state.followerPing ::
        if answering.serializes ∧ answering.sends then
          [.center { fromCenterAddr := state.center.localAddress, centerAction := .refused }]
        else [] := by
  refine ⟨_, rfl, ?_⟩
  rw [processCenterRequest, action]
  dsimp only
  rw [if_pos notLeading]
  cases serializes : answering.serializes with
  | false => exact ⟨rfl, rfl⟩
  | true =>
    refine ⟨rfl, congrArg (_ :: ·) ?_⟩
    exact (sent?_sendReply _ _ _ _).trans (by simp)

theorem refused_of_merges {answering : Answering} {state : BufferedCenter} {connFd : Int32}
    {response : CentersProto} (notLeading : state.center.centerStatus ≠ .leading)
    (action : response.centerAction = .leaderPingResponse)
    (merges : Merges answering state connFd response) :
    ¬ (answering.serializes ∧ answering.sends) ∧
      ∀ data ∈ response.lbResult, data.vid ∈ state.center.loadBalancer.vnMap := by
  obtain ⟨routed, success, merged, sent⟩ := merges
  obtain ⟨other, again, same, refusal⟩ := reporterProcessor_refuses answering connFd notLeading action
  rw [success, Option.some.injEq] at again
  subst again
  constructor
  · intro answered
    rw [sent, if_pos answered] at refusal
    exact absurd (List.cons.inj refusal).2.symm (List.cons_ne_nil _ _)
  · intro data listed
    by_contra absent
    have found := merged data listed absent
    rw [same, getElem?_eq_none absent] at found
    contradiction

/-- The reply of a leader is merged without a message back exactly when the ring has its ids and the
refusal cannot be sent. -/
theorem merges_iff (answering : Answering) (state : BufferedCenter) (connFd : Int32)
    (response : CentersProto) (notLeading : state.center.centerStatus ≠ .leading)
    (action : response.centerAction = .leaderPingResponse) :
    Merges answering state connFd response ↔
      ¬ (answering.serializes ∧ answering.sends) ∧
        ∀ data ∈ response.lbResult, data.vid ∈ state.center.loadBalancer.vnMap := by
  constructor
  · exact refused_of_merges notLeading action
  · rintro ⟨unanswered, present⟩
    obtain ⟨routed, success, _, refusal⟩ :=
      reporterProcessor_refuses answering connFd notLeading action
    rw [if_neg unanswered] at refusal
    exact ⟨routed, success, fun data listed absent => absurd (present data listed) absent, refusal⟩

/-- A reply with a virtual node that the follower has already, when the connection fails. -/
theorem merges_iff_sample :
    Merges ⟨true, false⟩ (sampleFollower.withServers [serverA, serverB]) 5
      { centerAction := .leaderPingResponse
        lbResult := [⟨shardHash serverA.clusterServerAddr 0, serverA.clusterServerAddr⟩] } := by
  have onRing := onRing_addRpcServers sampleFollower.center.loadBalancer
    (List.Subset.refl [serverA, serverB]) serverA List.mem_cons_self 0 (by decide)
  apply (merges_iff _ _ _ _ (by decide) rfl).mpr
  refine ⟨by decide, fun data listed => ?_⟩
  rw [List.mem_singleton.mp listed]
  exact onRing

/-- The first pair of a leader is not merged. -/
theorem first_pair_not_merged :
    ¬ Merges ⟨true, true⟩ sampleFollower 5
      { centerAction := .leaderPingResponse
        lbResult := [⟨7, serverA.clusterServerAddr⟩] } := by
  intro merges
  have refused := refused_of_merges (by decide) rfl merges
  exact not_mem_empty (refused.2 _ List.mem_cons_self)

end LibEvRpc
