import LibEvRpc.Center.System
import LibEvRpc.Proofs.ClientHeartbeat
import LibEvRpc.Proofs.ClusterHeartbeat
import LibEvRpc.Proofs.ElectionRuns
import LibEvRpc.Proofs.Routing
import LibEvRpc.Proofs.Transport

/-! # A cluster that serves nobody

No center ever leads or follows, so it turns away every server and every other center, and its ring
stays empty: what it answers to a client has no servers. A client that only hears from such centers
has nothing to choose from, and a server that does never reports to one. When the messages of the
election arrive as the strings that are sent, not even a vote is counted.
-/

namespace LibEvRpc

open RpcCenter BufferedCenter

/-! ## What the steps of a cluster leave alone -/

namespace Cluster

/-- Nodes with the same rings, tables and queues. -/
structure SameTables (old new : Node) : Prop where
  loadBalancer : new.center.loadBalancer = old.center.loadBalancer
  otherCenters : new.center.otherCenters = old.center.otherCenters
  electionQ : new.electionQ = old.electionQ

theorem SameTables.refl (node : Node) : SameTables node node := ⟨rfl, rfl, rfl⟩

@[simp] theorem transmit_node (cluster : Cluster) (packet : Packet) :
    (cluster.transmit packet).node = cluster.node := by
  rw [transmit]
  split <;> rfl

/-- What a step replaces leaves all tables alone if that of one center does. -/
theorem sameTables_setNode {cluster : Cluster} {addr : Bytes} {node : Node}
    (same : SameTables (cluster.node addr) node) (other : Bytes) :
    SameTables (cluster.node other) ((cluster.setNode addr node).node other) := by
  apply forall_setNode (motive := fun other new => SameTables (cluster.node other) new) same
  exact fun other => SameTables.refl _

theorem startElectionThread_tables (platform : Platform) (center : RpcCenter) :
    (center.startElectionThread platform).2.loadBalancer = center.loadBalancer ∧
      (center.startElectionThread platform).2.otherCenters = center.otherCenters := by
  rw [startElectionThread]
  split
  · exact ⟨rfl, rfl⟩
  · dsimp only
    split <;> exact ⟨rfl, rfl⟩

/-- Only a delivery and a processed message change a table. -/
theorem step_sameTables {config : ClusterConfig} {cluster next : Cluster} {action : Action}
    (inv : Inv config cluster) (success : step config cluster action = some next)
    (deliver : ∀ index, action ≠ .deliver index) (process : ∀ addr, action ≠ .process addr)
    (other : Bytes) : SameTables (cluster.node other) (next.node other) := by
  cases action with
  | boot addr =>
    rw [step, boot] at success
    dsimp only at success
    split at success
    · obtain ⟨_, same⟩ := Option.ite_none_right_eq_some.mp success
      cases same
      apply sameTables_setNode
      exact ⟨rfl, rfl, rfl⟩
    · contradiction
  | listen addr =>
    rw [step, listen] at success
    split at success
    · contradiction
    · obtain ⟨_, same⟩ := Option.ite_none_left_eq_some.mp success
      cases same
      apply sameTables_setNode
      exact ⟨rfl, rfl, rfl⟩
  | elect addr =>
    rw [step, elect] at success
    dsimp only at success
    split at success
    · obtain ⟨rings, table⟩ := startElectionThread_tables config.outside.toPlatform
        (cluster.node addr).center
      obtain ⟨_, same⟩ := Option.ite_none_right_eq_some.mp success
      cases same
      apply sameTables_setNode
      exact ⟨rings, table, rfl⟩
    · contradiction
  | inquire addr =>
    rw [step, inquire] at success
    dsimp only at success
    split at success
    · split at success
      · cases success
        rw [transmit_node]
        apply sameTables_setNode
        exact ⟨rfl, rfl, rfl⟩
      · cases success
        apply sameTables_setNode
        exact ⟨rfl, rfl, rfl⟩
    · contradiction
  | answered addr =>
    have phase := (inv.nodes addr).phase
    rw [step, answered] at success
    dsimp only at success
    split at success
    · next waiting =>
      rw [waiting] at phase
      exact phase.elim
    · contradiction
  | hangUp addr =>
    have phase := (inv.nodes addr).phase
    rw [step, hangUp] at success
    dsimp only at success
    split at success
    · next waiting =>
      rw [waiting] at phase
      exact phase.elim
    · contradiction
  | propose addr =>
    rw [step, propose] at success
    dsimp only at success
    split at success
    · rw [proposalLeaderElection_of_serializes] at success
      cases success
      apply sameTables_setNode
      exact ⟨rfl, rfl, rfl⟩
    · contradiction
  | broadcast addr =>
    rw [step, broadcast] at success
    split at success
    · cases success
      rw [transmit_node]
      apply sameTables_setNode
      exact ⟨rfl, rfl, rfl⟩
    · cases success
      apply sameTables_setNode
      exact ⟨rfl, rfl, rfl⟩
    · contradiction
  | deliver index => exact absurd rfl (deliver index)
  | process addr => exact absurd rfl (process addr)

/-- A delivery and a processed proposal leave the rings alone as well. -/
theorem step_loadBalancer {config : ClusterConfig} {cluster next : Cluster} {action : Action}
    (inv : Inv config cluster) (success : step config cluster action = some next) (other : Bytes) :
    (next.node other).center.loadBalancer = (cluster.node other).center.loadBalancer := by
  by_cases deliver : ∃ index, action = .deliver index
  · obtain ⟨index, rfl⟩ := deliver
    obtain ⟨packet, _, rfl⟩ := Option.map_eq_some_iff.mp success
    apply forall_setNode (motive := fun other new =>
      new.center.loadBalancer = (cluster.node other).center.loadBalancer)
    · rfl
    · exact fun _ => rfl
  by_cases process : ∃ addr, action = .process addr
  · obtain ⟨addr, rfl⟩ := process
    have whole := success
    rw [step, Cluster.process] at success
    split at success
    · next running queued =>
      obtain ⟨table, processed, _⟩ := process_of_queued inv running queued
      rw [step, processed, Option.some.injEq] at whole
      rw [← whole]
      apply forall_setNode (motive := fun other new =>
        new.center.loadBalancer = (cluster.node other).center.loadBalancer)
      · rfl
      · exact fun _ => rfl
    · contradiction
  exact (step_sameTables inv success (not_exists.mp deliver) (not_exists.mp process) other).loadBalancer

/-! ## Messages that do not arrive -/

theorem lose_node {cluster next : Cluster} {index : ℕ} (success : cluster.lose index = some next) :
    next.node = cluster.node := by
  obtain ⟨_, same⟩ := Option.ite_none_right_eq_some.mp success
  cases same
  rfl

theorem inv_lose {config : ClusterConfig} {cluster next : Cluster} {index : ℕ}
    (inv : Inv config cluster) (success : cluster.lose index = some next) : Inv config next := by
  obtain ⟨_, same⟩ := Option.ite_none_right_eq_some.mp success
  cases same
  refine ⟨inv.nodes, fun packet member => inv.flight packet (List.mem_of_mem_eraseIdx member),
    inv.replies, fun receiver candidate => ?_⟩
  have fewer : inFlight (cluster.flight.eraseIdx index) receiver candidate ≤
      inFlight cluster.flight receiver candidate :=
    (List.eraseIdx_sublist cluster.flight index).countP_le
  have budget := inv.budget receiver candidate
  dsimp only
  omega

/-- The string of a proposal is not parsed, so its arrival is a loss. -/
theorem arrive_eq_lose {config : ClusterConfig} {stream : CodedStream} {cluster : Cluster}
    (inv : Inv config cluster) (index : ℕ) : cluster.arrive stream index = cluster.lose index := by
  rw [arrive, lose]
  by_cases bound : index < cluster.flight.length
  · have packetInv := inv.flight _ (List.getElem_mem bound)
    obtain ⟨address, dotted⟩ := config.dotted _ packetInv.peer
    have length := inetNtoa_length_le address
    rw [← dotted] at length
    have unheard : Incoming.ofSent stream (.ofElection cluster.flight[index].centersProto) =
        some (.center none) := by
      apply @ofSent_unheard stream _ cluster.flight[index].centersProto.fromCenterAddr rfl rfl rfl
      · rw [Pb.CentersProto.ofElection, packetInv.proposes.sender, packetInv.proposes.action,
          packetInv.proposes.leader]
        change _ + List.length cluster.flight[index].peer ≤ 400
        omega
      · exact .inl (congrArg some packetInv.proposes.status)
    rw [List.getElem?_eq_getElem bound, Option.bind_some, unheard, if_pos bound, Option.map_some]
    simp only [setNode, Function.update_eq_self]
  · rw [List.getElem?_eq_none (not_lt.mp bound), if_neg bound, Option.bind_none]

end Cluster

/-! ## Requests to a center that looks for a leader -/

/-- What is answered names no servers and no centers. -/
def Reply.Bare : Reply → Prop
  | .center _ => True
  | .client cwcProto => cwcProto.clusterServerList = []
  | .cluster crc => crc.shouldReporterCenter = []

namespace BufferedCenter

/-- A center that changes nothing for a request, turns away servers and other centers, and has no
server for a client. -/
structure Unserving (state : BufferedCenter) : Prop where
  cluster : ∀ answering connFd received,
    state.centerProcessor answering connFd (.cluster received) = some ⟨state, false,
      sendReply answering.sends connFd (.cluster { centerResponseAction := .centerNotReady }) false⟩
  center : ∀ answering connFd received, Cluster.isElection received.centerAction = false →
    ∃ ret, state.centerProcessor answering connFd (.center (some received)) = some ⟨state, ret,
      if answering.serializes then sendReply answering.sends connFd
        (.center { fromCenterAddr := state.center.localAddress, centerAction := .refused }) false
      else []⟩
  client : ∀ answering connFd cwcProto routed,
    state.centerProcessor answering connFd (.client (some cwcProto)) = some routed →
      routed.state = state ∧ ∃ response : ClientWithCenter, response.clusterServerList = [] ∧
        routed.effects = if answering.serializes then
          sendReply answering.sends connFd (.client response) true else [.close connFd]

/-- An empty ring has no server for anyone. -/
theorem serverList_of_empty {center : RpcCenter} (empty : center.loadBalancer.vnMap = ∅)
    (clientAddr : Bytes) : serverList center clientAddr = [] := by
  rw [serverList, LoadBalancer.getRpcServer, empty]
  rfl

theorem clientResponse_of_empty {center : RpcCenter} {cwcProto response : ClientWithCenter}
    (empty : center.loadBalancer.vnMap = ∅)
    (success : clientResponse center cwcProto = some response) : response.clusterServerList = [] := by
  rw [clientResponse] at success
  split at success
  · obtain ⟨centers, _, rfl⟩ := Option.map_eq_some_iff.mp success
    exact serverList_of_empty empty _
  · cases success
    exact serverList_of_empty empty _
  · cases success
    rfl
  · cases success
    rfl

theorem unserving_of_looking {state : BufferedCenter} (looking : state.center.centerStatus = .looking)
    (empty : state.center.loadBalancer.vnMap = ∅) : state.Unserving where
  cluster answering connFd received := by
    have notReady : centerIsReady state.center = false := by
      rw [centerIsReady, looking]
      rfl
    cases received <;> simp only [centerProcessor, notReady, Bool.not_false, ↓reduceIte]
  center answering connFd received other := by
    have kept := processCenterRequest_state answering state connFd received
    have effects := processCenterRequest_effects answering state connFd received
    rw [if_neg (Bool.eq_false_iff.mp other), if_neg (by rw [looking]; decide)] at effects
    refine ⟨(processCenterRequest answering state connFd received).ret, ?_⟩
    rw [← effects, centerProcessor]
    exact congrArg (fun state => some (Routed.mk state _ _)) kept
  client answering connFd cwcProto routed success := by
    obtain ⟨response, made, rfl⟩ := Option.map_eq_some_iff.mp success
    have servers := clientResponse_of_empty empty made
    refine ⟨?_, { response with clientCenterAction := .centerRespOk }, servers, ?_⟩
    · split <;> rfl
    · split <;> rfl

/-- What such a center answers names nobody. -/
theorem Unserving.serves {state : BufferedCenter} (unserving : state.Unserving)
    {answering : Answering} {connFd : Int32} {incoming : Incoming} {routed : Routed}
    (other : incoming.isElection = false)
    (success : state.centerProcessor answering connFd incoming = some routed) :
    routed.state = state ∧ ∀ answer ∈ routed.effects.filterMap RouteEffect.answer?, answer.Bare := by
  have reply (sends : Bool) (reply : Reply) (needClosed : Bool) (answer : Reply)
      (member : answer ∈ (sendReply sends connFd reply needClosed).filterMap RouteEffect.answer?) :
      reply = answer := by
    cases sends <;> cases needClosed <;> simp_all [sendReply, RouteEffect.answer?]
  cases incoming with
  | failed =>
    cases success
    exact ⟨rfl, fun _ member => by contradiction⟩
  | other =>
    cases success
    exact ⟨rfl, fun _ member => by contradiction⟩
  | cluster received =>
    rw [unserving.cluster] at success
    cases success
    refine ⟨rfl, fun answer member => ?_⟩
    cases reply _ _ _ answer member
    exact rfl
  | center received =>
    cases received with
    | none =>
      cases success
      exact ⟨rfl, fun _ member => by contradiction⟩
    | some received =>
      obtain ⟨ret, answered⟩ := unserving.center answering connFd received other
      rw [answered] at success
      cases success
      refine ⟨rfl, fun answer member => ?_⟩
      dsimp only at member
      split at member
      · cases reply _ _ _ answer member
        trivial
      · contradiction
  | client received =>
    cases received with
    | none =>
      cases success
      exact ⟨rfl, fun _ member => by contradiction⟩
    | some cwcProto =>
      obtain ⟨kept, response, none, effects⟩ := unserving.client answering connFd cwcProto routed success
      refine ⟨kept, fun answer member => ?_⟩
      rw [effects] at member
      split at member
      · cases reply _ _ _ answer member
        exact none
      · contradiction

end BufferedCenter

/-! ## A client that only hears of no servers -/

namespace DistributedClient

open CenterClientHeartbeat

/-- The client has no servers and is not about to store one. -/
structure Empty (client : DistributedClient) : Prop where
  servers : client.heartbeat.clusterServerAddrsList = []
  storing : ∀ servers, client.phase = .storing servers → servers = []
  notPushing : client.phase.isPushing = false

theorem empty_init : init.Empty := ⟨rfl, nofun, rfl⟩

theorem Empty.step {client next : DistributedClient} {action : Action} (empty : client.Empty)
    (received : ∀ message, action.received? = some message → message.clusterServerList = [])
    (success : client.step action = some next) : next.Empty := by
  obtain ⟨_, success⟩ := Option.ite_none_left_eq_some.mp success
  cases action with
  | initialise outside =>
    obtain ⟨kept, stored⟩ := initExchange_spec outside client.heartbeat
    have none : outside.servers = [] := by
      rw [InitOutside.servers]
      split
      · next cwcProto response =>
        split
        · exact received cwcProto (by rw [Action.received?, response, Option.join_some])
        · rfl
      · rfl
      · rfl
    obtain ⟨_, success⟩ := Option.ite_none_right_eq_some.mp success
    split at success
    · next heartbeat same =>
      rw [same] at kept
      cases success
      exact ⟨kept.trans empty.servers, fun _ storing => by contradiction, rfl⟩
    · next heartbeat servers same =>
      rw [same] at kept stored
      cases success
      refine ⟨kept.trans empty.servers, fun others storing => ?_, rfl⟩
      cases storing
      exact (stored servers rfl).trans none
  | pushBack =>
    rw [advance] at success
    split at success
    · next server servers storing => exact absurd (empty.storing _ storing) (List.cons_ne_nil _ _)
    all_goals contradiction
  | storeServer =>
    rw [advance] at success
    split at success
    · next server servers pushing =>
      have unchanged := empty.notPushing
      rw [pushing] at unchanged
      contradiction
    all_goals contradiction
  | enterLoop =>
    obtain ⟨_, same⟩ := Option.ite_none_right_eq_some.mp success
    cases same
    refine ⟨empty.servers, fun servers storing => ?_, ?_⟩
    · dsimp only at storing
      split at storing <;> contradiction
    · dsimp only
      split <;> rfl
  | round exchanged =>
    obtain ⟨_, same⟩ := Option.ite_none_right_eq_some.mp success
    cases same
    obtain ⟨servers, appended, stores⟩ := runRound_servers client.heartbeat exchanged
    have none : servers = [] := by
      by_contra some_
      obtain ⟨_, _, _, _, cwcProto, parsed, more⟩ := stores.mp some_
      exact more (received cwcProto parsed)
    refine ⟨?_, empty.storing, empty.notPushing⟩
    rw [appended, empty.servers, none]
    rfl
  | remainder rand =>
    rw [advance, empty.notPushing, if_neg Bool.false_ne_true, empty.servers] at success
    cases success
    exact ⟨empty.servers, empty.storing, empty.notPushing⟩
  | index random =>
    obtain ⟨_, same⟩ := Option.ite_none_right_eq_some.mp success
    rw [empty.notPushing, if_neg Bool.false_ne_true] at same
    cases same
    exact ⟨empty.servers, empty.storing, empty.notPushing⟩

/-- Any call of a client without servers ends the process. -/
theorem Empty.remainder {client next : DistributedClient} {rand : ℕ} (empty : client.Empty)
    (success : client.step (.remainder rand) = some next) : next.zeroRemainder = true := by
  obtain ⟨_, success⟩ := Option.ite_none_left_eq_some.mp success
  rw [advance, empty.notPushing, if_neg Bool.false_ne_true, empty.servers] at success
  cases success
  rfl

end DistributedClient

/-! ## A server that only hears of no centers -/

namespace ClusterThread

open CenterClusterHeartbeat

/-- The server has no centers to report to, and does not. -/
structure Silent (thread : ClusterThread) : Prop where
  addrs : thread.heartbeat.reporterCenterAddrs = []
  phase : thread.phase ≠ .looping
  pinged : thread.pinged = []

theorem silent_init (config : ConfigParser) : (init config).Silent :=
  ⟨rfl, fun looping => by contradiction, rfl⟩

theorem Silent.step {thread next : ClusterThread} {action : Action} (silent : thread.Silent)
    (received : ∀ message, action.received? = some message → message.shouldReporterCenter = [])
    (success : thread.step action = some next) : next.Silent := by
  cases action with
  | start outside rand =>
    obtain ⟨_, success⟩ := Option.ite_none_right_eq_some.mp success
    obtain ⟨⟨ret, heartbeat⟩, initialised, success⟩ := Option.bind_eq_some_iff.mp success
    have spec := initCenterClusterHB_spec initialised
    have addrs : heartbeat.reporterCenterAddrs = [] := by
      cases ret with
      | false => rw [spec.failed rfl, silent.addrs]
      | true =>
        obtain ⟨crcProto, response, stored⟩ := spec.stored rfl
        rw [stored, silent.addrs, received crcProto response]
        rfl
    dsimp only at success
    rw [if_pos addrs, ite_self] at success
    cases success
    exact ⟨addrs, fun looping => by contradiction, silent.pinged⟩
  | round round reinit rand =>
    obtain ⟨⟨looping, _⟩, _⟩ := Option.ite_none_right_eq_some.mp success
    exact absurd looping silent.phase

end ClusterThread

/-! ## The system -/

namespace CenterSystem

structure Inv (config : ClusterConfig) (system : CenterSystem) : Prop where
  cluster : Cluster.Inv config system.cluster
  rings : ∀ addr, (system.cluster.node addr).center.loadBalancer.vnMap = ∅
  rpcServerBuf : system.rpcServerBuf = fun _ => []
  client : system.client.Empty
  server : system.server.Silent
  answers : ∀ answer ∈ system.answers, answer.Bare

theorem inv_init (config : ClusterConfig) (serverConfig : ConfigParser) :
    Inv config (init config serverConfig) where
  cluster := Cluster.inv_init config
  rings _ := rfl
  rpcServerBuf := rfl
  client := DistributedClient.empty_init
  server := ClusterThread.silent_init serverConfig
  answers _ member := absurd member List.not_mem_nil

theorem Inv.unserving {config : ClusterConfig} {system : CenterSystem} (inv : Inv config system)
    (addr : Bytes) : (system.buffered addr).Unserving :=
  unserving_of_looking (inv.cluster.nodes addr).undecided.centerStatus (inv.rings addr)

/-- A step of the cluster alone. -/
theorem Inv.withCluster {config : ClusterConfig} {system : CenterSystem} (inv : Inv config system)
    {cluster : Cluster} (kept : Cluster.Inv config cluster)
    (rings : ∀ addr, (cluster.node addr).center.loadBalancer =
      (system.cluster.node addr).center.loadBalancer) : Inv config { system with cluster } where
  cluster := kept
  rings addr := by rw [rings addr, inv.rings addr]
  rpcServerBuf := inv.rpcServerBuf
  client := inv.client
  server := inv.server
  answers := inv.answers

/-- A request changes nothing but what was answered. -/
theorem Inv.serve {config : ClusterConfig} {system next : CenterSystem} (inv : Inv config system)
    {addr : Bytes} {answering : Answering} {connFd : Int32} {incoming : Incoming}
    (success : system.serve addr answering connFd incoming = some next) :
    ∃ answers, next = { system with answers := system.answers ++ answers } ∧
      ∀ answer ∈ answers, answer.Bare := by
  obtain ⟨⟨_, other⟩, success⟩ := Option.ite_none_right_eq_some.mp success
  obtain ⟨routed, called, rfl⟩ := Option.map_eq_some_iff.mp success
  obtain ⟨kept, none⟩ := (inv.unserving addr).serves (by simpa using other) called
  refine ⟨_, ?_, none⟩
  rw [kept, buffered]
  simp only [Cluster.setNode, Function.update_eq_self]

theorem inv_step {config : ClusterConfig} {stream : CodedStream} {system next : CenterSystem}
    {action : Action} (inv : Inv config system)
    (success : step config stream system action = some next) : Inv config next := by
  cases action with
  | center action =>
    obtain ⟨cluster, stepped, rfl⟩ := Option.map_eq_some_iff.mp success
    exact inv.withCluster (Cluster.inv_step inv.cluster stepped)
      (Cluster.step_loadBalancer inv.cluster stepped)
  | arrive index =>
    obtain ⟨cluster, arrived, rfl⟩ := Option.map_eq_some_iff.mp success
    rw [Cluster.arrive_eq_lose inv.cluster] at arrived
    exact inv.withCluster (Cluster.inv_lose inv.cluster arrived) fun _ => by rw [Cluster.lose_node arrived]
  | lose index =>
    obtain ⟨cluster, lost, rfl⟩ := Option.map_eq_some_iff.mp success
    exact inv.withCluster (Cluster.inv_lose inv.cluster lost) fun _ => by rw [Cluster.lose_node lost]
  | serve addr answering connFd incoming =>
    obtain ⟨answers, rfl, none⟩ := inv.serve success
    refine ⟨inv.cluster, inv.rings, inv.rpcServerBuf, inv.client, inv.server, fun answer member => ?_⟩
    rcases List.mem_append.mp member with old | new
    · exact inv.answers answer old
    · exact none answer new
  | client action =>
    obtain ⟨heard, success⟩ := Option.ite_none_right_eq_some.mp success
    obtain ⟨client, stepped, rfl⟩ := Option.map_eq_some_iff.mp success
    refine ⟨inv.cluster, inv.rings, inv.rpcServerBuf, inv.client.step ?_ stepped, inv.server, inv.answers⟩
    intro message received
    rw [received, Option.all_some, decide_eq_true_eq] at heard
    exact inv.answers _ heard
  | server action =>
    obtain ⟨heard, success⟩ := Option.ite_none_right_eq_some.mp success
    obtain ⟨server, stepped, rfl⟩ := Option.map_eq_some_iff.mp success
    refine ⟨inv.cluster, inv.rings, inv.rpcServerBuf, inv.client, inv.server.step ?_ stepped, inv.answers⟩
    intro message received
    rw [received, Option.all_some, decide_eq_true_eq] at heard
    exact inv.answers _ heard

theorem inv_run {config : ClusterConfig} {serverConfig : ConfigParser} {stream : CodedStream}
    {actions : List Action} {system : CenterSystem}
    (run : Run (step config stream) (init config serverConfig) actions system) : Inv config system :=
  run.invariant_of_step (inv_init config serverConfig) fun _ _ _ inv success => inv_step inv success

/-- In every reachable state every center turns away the servers of the cluster and the other centers,
buffers no server and has none for a client; the server has never pinged a center; the client has no
servers, and any call of it ends its process. -/
theorem run_unserving {config : ClusterConfig} {serverConfig : ConfigParser} {stream : CodedStream}
    {actions : List Action} {system : CenterSystem}
    (run : Run (step config stream) (init config serverConfig) actions system) :
    (∀ addr, (system.buffered addr).Unserving ∧ system.rpcServerBuf addr = []) ∧
      system.server.phase ≠ .looping ∧ system.server.pinged = [] ∧
      system.client.heartbeat.clusterServerAddrsList = [] ∧
      ∀ rand next, system.client.step (.remainder rand) = some next → next.zeroRemainder = true := by
  have inv := inv_run run
  refine ⟨fun addr => ⟨inv.unserving addr, ?_⟩, inv.server.phase, inv.server.pinged,
    inv.client.servers, fun _ _ => inv.client.remainder⟩
  rw [inv.rpcServerBuf]

/-- Two centers send their proposals, which arrive as strings; then one of them answers a client and a
server. -/
def sampleRun : List Action :=
  (Cluster.twoCentersRun.take 14).map .center ++ [.arrive 0, .arrive 0,
    .serve (sampleAddress 1) ⟨true, true⟩ 7
      (.client (some { clientCenterAction := .updateServerInfo })),
    .client (.initialise
      { lines := some [sampleAddress 1]
        localAddr := sampleAddress 3
        connects := true
        serializes := true
        sends := true
        received := some (some { clientCenterAction := .centerRespOk }) }),
    .serve (sampleAddress 1) ⟨true, true⟩ 8
      (.cluster (some (CenterClusterHeartbeat.registerMessage (sampleAddress 3)))),
    .server (.start
      { lines := some [sampleAddress 1]
        localAddr := sampleAddress 3
        rand := 0
        tcpConnect := fun _ => 5
        serializes := true
        sendRet := 0
        recvRet := 102
        received := some { centerResponseAction := .centerNotReady } } 0)]

private theorem sampleRun_isSome :
    (sampleRun.foldlM (step Cluster.twoCenters .base128) (init Cluster.twoCenters ⟨none⟩)).isSome := by
  decide +kernel

theorem run_unserving_sample : ∃ system,
    Run (step Cluster.twoCenters .base128) (init Cluster.twoCenters ⟨none⟩) sampleRun system ∧
      system.server.phase ≠ .looping :=
  ⟨_, Run.of_isSome sampleRun_isSome, (run_unserving (Run.of_isSome sampleRun_isSome)).2.1⟩

/-! ## Messages as strings -/

/-- No message of an election is queued, and no table has changed. -/
def Unheard (config : ClusterConfig) (system : CenterSystem) : Prop :=
  ∀ addr, Cluster.SameTables ((Cluster.init config).node addr) (system.cluster.node addr)

theorem unheard_step {config : ClusterConfig} {stream : CodedStream} {system next : CenterSystem}
    {action : Action} (inv : Inv config system) (unheard : Unheard config system)
    (wire : ∀ index, action ≠ .center (.deliver index))
    (success : step config stream system action = some next) : Unheard config next := by
  cases action with
  | center action =>
    obtain ⟨cluster, stepped, rfl⟩ := Option.map_eq_some_iff.mp success
    have idle : ∀ addr, action ≠ .process addr := by
      rintro addr rfl
      have queue : (system.cluster.node addr).electionQ = [] := (unheard addr).electionQ
      rw [Cluster.step, Cluster.process, queue] at stepped
      split at stepped <;> contradiction
    intro addr
    have same := Cluster.step_sameTables inv.cluster stepped
      (fun index same => wire index (congrArg Action.center same)) idle addr
    exact ⟨same.loadBalancer.trans (unheard addr).loadBalancer,
      same.otherCenters.trans (unheard addr).otherCenters,
      same.electionQ.trans (unheard addr).electionQ⟩
  | arrive index =>
    obtain ⟨cluster, arrived, rfl⟩ := Option.map_eq_some_iff.mp success
    rw [Cluster.arrive_eq_lose inv.cluster] at arrived
    intro addr
    rw [Cluster.lose_node arrived]
    exact unheard addr
  | lose index =>
    obtain ⟨cluster, lost, rfl⟩ := Option.map_eq_some_iff.mp success
    intro addr
    rw [Cluster.lose_node lost]
    exact unheard addr
  | serve addr answering connFd incoming =>
    obtain ⟨answers, rfl, _⟩ := inv.serve success
    exact unheard
  | client action =>
    obtain ⟨_, success⟩ := Option.ite_none_right_eq_some.mp success
    obtain ⟨client, _, rfl⟩ := Option.map_eq_some_iff.mp success
    exact unheard
  | server action =>
    obtain ⟨_, success⟩ := Option.ite_none_right_eq_some.mp success
    obtain ⟨server, _, rfl⟩ := Option.map_eq_some_iff.mp success
    exact unheard

/-- When messages between centers arrive as the strings that are sent, none of them is ever queued for
an election, and every center keeps the table it started with. -/
theorem run_unheard {config : ClusterConfig} {serverConfig : ConfigParser} {stream : CodedStream}
    {actions : List Action} {system : CenterSystem}
    (run : Run (step config stream) (init config serverConfig) actions system)
    (wire : ∀ index, .center (.deliver index) ∉ actions) (addr : Bytes) :
    (system.cluster.node addr).electionQ = [] ∧
      (system.cluster.node addr).center.otherCenters =
        (initRpcCenter addr (config.startTime addr) (config.virtualNodeNum addr)
          config.centers).otherCenters := by
  have unheard : Unheard config system := by
    have both := @Run.invariant _ _ _ _ (fun _ _ action => ∀ index, action ≠ .center (.deliver index))
      (fun _ system => Inv config system ∧ Unheard config system) _ _ run
      ⟨inv_init config serverConfig, fun _ => Cluster.SameTables.refl _⟩
    refine (both ?_ ?_).2
    · intro _ state action next kept wire success
      exact ⟨inv_step kept.1 success, unheard_step kept.1 kept.2 wire success⟩
    · rintro before action state front _ index rfl
      exact wire index (front.subset (List.mem_append_right _ (List.mem_singleton_self _)))
  exact ⟨(unheard addr).electionQ, (unheard addr).otherCenters⟩

theorem run_unheard_sample : ∃ system,
    Run (step Cluster.twoCenters .base128) (init Cluster.twoCenters ⟨none⟩) sampleRun system ∧
      (system.cluster.node (sampleAddress 2)).electionQ = [] :=
  ⟨_, Run.of_isSome sampleRun_isSome,
    (run_unheard (Run.of_isSome sampleRun_isSome) (fun _ => by simp [sampleRun, Cluster.twoCentersRun])
      (sampleAddress 2)).1⟩

end CenterSystem

end LibEvRpc
