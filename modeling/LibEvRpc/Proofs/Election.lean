import LibEvRpc.Proofs.UndecidedCenter
import LibEvRpc.ToMathlib.Run

/-! # No center is ever elected

Every center proposes itself once, to every other center, and nothing but these proposals is ever
sent: the entries of a new table have the status for looking, so no center is asked. For a center
and a candidate, the votes held, the proposals queued, those in flight and the one still to be sent
are at most one together. A decision takes two votes, so every center goes on looking.
-/

namespace LibEvRpc

open RpcCenter

namespace Cluster

/-! ## Nodes -/

@[simp] theorem setNode_self (cluster : Cluster) (addr : Bytes) (node : Node) :
    (cluster.setNode addr node).node addr = node := Function.update_self _ _ _

theorem setNode_ne (cluster : Cluster) {addr other : Bytes} (node : Node)
    (different : other ≠ addr) : (cluster.setNode addr node).node other = cluster.node other :=
  Function.update_of_ne different _ _

/-- What holds of the new node of one center and of the old nodes of all holds of the new ones. -/
theorem forall_setNode {motive : Bytes → Node → Prop} {cluster : Cluster} {addr : Bytes} {node : Node}
    (own : motive addr node) (others : ∀ other, motive other (cluster.node other)) (other : Bytes) :
    motive other ((cluster.setNode addr node).node other) := by
  by_cases same : other = addr
  · rw [same, setNode_self]
    exact own
  · rw [setNode_ne cluster node same]
    exact others other

@[simp] theorem setNode_flight (cluster : Cluster) (addr : Bytes) (node : Node) :
    (cluster.setNode addr node).flight = cluster.flight := rfl

/-! ## The invariant -/

/-- The proposals of a center that a receiver has still to get. -/
def pending : Phase → Bytes → ℕ
  | .broadcasting rest _, receiver => rest.count receiver
  | .started, _ => 0
  | _, _ => 1

/-- The votes for a candidate that a center holds or has in its queue. -/
def held (node : Node) (candidate : Bytes) : ℕ :=
  votesFor node.center.otherCenters candidate +
    node.electionQ.countP fun packet => packet.peer = candidate

/-- The messages of a candidate on their way to a receiver. -/
def inFlight (flight : List Packet) (receiver candidate : Bytes) : ℕ :=
  flight.countP fun packet => packet.peer = candidate ∧ packet.receiver = receiver

/-- A proposal of a center for itself, on its way to a center. -/
structure PacketInv (config : ClusterConfig) (packet : Packet) : Prop where
  peer : packet.peer ∈ config.centers
  receiver : packet.receiver ∈ config.centers
  proposes : ProposesItself packet.peer packet.centersProto

/-- A started center is in the file, waits for nobody, and sends its own proposal. -/
def PhaseInv (config : ClusterConfig) (addr : Bytes) : Phase → Prop
  | .off => True
  | .waiting _ _ _ => False
  | .broadcasting rest info => addr ∈ config.centers ∧ ProposesItself addr info ∧ rest.Nodup ∧
      ∀ next ∈ rest, next ∈ config.centers
  | .booted | .inquiring _ _ | .started => addr ∈ config.centers

/-- The election thread runs from the start of the election on. -/
def ThreadInv (center : RpcCenter) : Phase → Prop
  | .off | .booted =>
      center.fastleaderElectionRunning = false ∧ center.electionThread.threadRunning = false
  | _ => center.electionThread.life = .running

structure NodeInv (config : ClusterConfig) (addr : Bytes) (node : Node) : Prop where
  undecided : Undecided config addr node.center
  queue : ∀ packet ∈ node.electionQ, PacketInv config packet
  phase : PhaseInv config addr node.phase
  thread : ThreadInv node.center node.phase

/-- What holds of the cluster in every reachable state. -/
structure Inv (config : ClusterConfig) (cluster : Cluster) : Prop where
  nodes : ∀ addr, NodeInv config addr (cluster.node addr)
  flight : ∀ packet ∈ cluster.flight, PacketInv config packet
  replies : cluster.replies = []
  budget : ∀ receiver candidate, held (cluster.node receiver) candidate +
    inFlight cluster.flight receiver candidate +
    pending (cluster.node candidate).phase receiver ≤ 1

theorem inv_init (config : ClusterConfig) : Inv config (init config) where
  nodes addr :=
    { undecided := undecided_initRpcCenter config addr
      queue := fun packet member => absurd member List.not_mem_nil
      phase := trivial
      thread := ⟨rfl, rfl⟩ }
  flight packet member := absurd member List.not_mem_nil
  replies := rfl
  budget receiver candidate := by
    have none : held ((init config).node receiver) candidate = 0 := by
      rw [held]
      exact congrArg (· + 0) (initRpcCenter_votesFor _ _ _ _ candidate)
    rw [none]
    exact le_rfl

/-! ## What a step can do -/

/-- A center holds no more votes than before, and has no more proposals to send. -/
structure NoMore (old new : Node) : Prop where
  held : ∀ candidate, held new candidate ≤ held old candidate
  pending : ∀ receiver, pending new.phase receiver ≤ pending old.phase receiver

/-- A step changes one center, without more votes or proposals; or a center sends its proposal to
the next one; or a message is queued. -/
inductive Change (config : ClusterConfig) (cluster : Cluster) : Cluster → Prop
  | node (addr : Bytes) (node : Node) (inv : NodeInv config addr node)
      (noMore : NoMore (cluster.node addr) node) : Change config cluster (cluster.setNode addr node)
  | send (addr next : Bytes) (rest : List Bytes) (info : CentersProto)
      (phase : (cluster.node addr).phase = .broadcasting (next :: rest) info) :
      Change config cluster
        ((cluster.setNode addr { cluster.node addr with phase := .broadcasting rest info }).transmit
          ⟨addr, next, info⟩)
  | queue (index : ℕ) (packet : Packet) (found : cluster.flight[index]? = some packet) :
      Change config cluster { cluster.setNode packet.receiver { cluster.node packet.receiver with
        electionQ := (cluster.node packet.receiver).electionQ ++ [packet] } with
        flight := cluster.flight.eraseIdx index }

/-- A change of the phase alone. -/
private theorem change_phase {config : ClusterConfig} {cluster : Cluster} {addr : Bytes}
    (inv : Inv config cluster) (phase : Phase) (phaseInv : PhaseInv config addr phase)
    (threadInv : ThreadInv (cluster.node addr).center phase)
    (pends : ∀ receiver, pending phase receiver ≤ pending (cluster.node addr).phase receiver) :
    Change config cluster (cluster.setNode addr { cluster.node addr with phase }) :=
  .node addr _ ⟨(inv.nodes addr).undecided, (inv.nodes addr).queue, phaseInv, threadInv⟩
    ⟨fun _ => le_rfl, pends⟩

private theorem boot_change {config : ClusterConfig} {cluster next : Cluster} {addr : Bytes}
    (inv : Inv config cluster) (success : boot config cluster addr = some next) :
    Change config cluster next := by
  obtain ⟨undecided, queue, _, thread⟩ := inv.nodes addr
  rw [boot] at success
  dsimp only at success
  split at success
  · next off =>
    rw [off] at thread
    split at success
    · next started =>
      cases success
      exact .node addr _ ⟨undecided.congr rfl rfl rfl rfl rfl, queue, started.1, thread⟩
        ⟨fun _ => le_rfl, fun _ => by rw [off]; exact le_rfl⟩
    · contradiction
  · contradiction

private theorem listen_change {config : ClusterConfig} {cluster next : Cluster} {addr : Bytes}
    (inv : Inv config cluster) (success : listen cluster addr = some next) :
    Change config cluster next := by
  obtain ⟨undecided, queue, phase, thread⟩ := inv.nodes addr
  rw [listen] at success
  split at success
  · contradiction
  · split at success
    · contradiction
    · cases success
      exact .node addr _ ⟨undecided, queue, phase, thread⟩ ⟨fun _ => le_rfl, fun _ => le_rfl⟩

/-- Starting an election starts the election thread. -/
theorem startElectionThread_of_booted {config : ClusterConfig} {center : RpcCenter}
    (thread : ThreadInv center .booted) :
    center.startElectionThread config.outside.toPlatform =
      (true, { center with
        electionThread := ⟨true, .running⟩, fastleaderElectionRunning := true }) := by
  obtain ⟨notRunning, notStarted⟩ := thread
  simp only [startElectionThread, notRunning, Bool.false_eq_true, ↓reduceIte, Thread.start,
    notStarted, config.createOk]

private theorem elect_change {config : ClusterConfig} {cluster next : Cluster} {addr : Bytes}
    (inv : Inv config cluster) (success : elect config cluster addr = some next) :
    Change config cluster next := by
  obtain ⟨undecided, queue, phase, thread⟩ := inv.nodes addr
  rw [elect] at success
  dsimp only at success
  split at success
  · next booted =>
    rw [booted] at thread phase
    rw [startElectionThread_of_booted thread] at success
    cases success
    exact .node addr _ ⟨undecided.congr rfl rfl rfl rfl rfl, queue, phase, rfl⟩
      ⟨fun _ => le_rfl, fun _ => by rw [booted]; exact le_rfl⟩
  · contradiction

private theorem inquire_change {config : ClusterConfig} {cluster next : Cluster} {addr : Bytes}
    (inv : Inv config cluster) (success : inquire cluster addr = some next) :
    Change config cluster next := by
  obtain ⟨undecided, _, phase, thread⟩ := inv.nodes addr
  rw [inquire] at success
  dsimp only at success
  split at success
  · next inquiring =>
    rw [undecided.known, if_neg Bool.false_ne_true] at success
    cases success
    rw [inquiring] at phase thread
    exact change_phase inv _ phase thread fun _ => by rw [inquiring]; exact le_rfl
  · contradiction

/-- No center waits for an answer. -/
private theorem not_waiting {config : ClusterConfig} {cluster : Cluster} (inv : Inv config cluster)
    {addr next : Bytes} {rest : List Bytes} {info : CentersProto}
    (waiting : (cluster.node addr).phase = .waiting next rest info) : False := by
  have phase := (inv.nodes addr).phase
  rwa [waiting] at phase

private theorem answered_change {config : ClusterConfig} {cluster next : Cluster} {addr : Bytes}
    (inv : Inv config cluster) (success : answered cluster addr = some next) :
    Change config cluster next := by
  rw [answered] at success
  dsimp only at success
  split at success
  · next waiting => exact (not_waiting inv waiting).elim
  · contradiction

private theorem hangUp_change {config : ClusterConfig} {cluster next : Cluster} {addr : Bytes}
    (inv : Inv config cluster) (success : hangUp cluster addr = some next) :
    Change config cluster next := by
  rw [hangUp] at success
  dsimp only at success
  split at success
  · next waiting => exact (not_waiting inv waiting).elim
  · contradiction

/-- The proposal of an undecided center names itself. -/
theorem proposesItself_proposal {config : ClusterConfig} {addr : Bytes} {center : RpcCenter}
    (undecided : Undecided config addr center) : ProposesItself addr center.proposal :=
  ⟨rfl, undecided.localAddress, undecided.leaderCenter, rfl⟩

theorem proposalLeaderElection_of_serializes (config : ClusterConfig) (center : RpcCenter) :
    center.proposalLeaderElection config.outside = (center.increaseLogicalClock,
      [.broadcast center.increaseLogicalClock.otherCenters.keys
        center.increaseLogicalClock.proposal]) := by
  rw [proposalLeaderElection]
  exact if_pos (config.serializes _)

private theorem propose_change {config : ClusterConfig} {cluster next : Cluster} {addr : Bytes}
    (inv : Inv config cluster) (success : propose config cluster addr = some next) :
    Change config cluster next := by
  obtain ⟨undecided, queue, phase, thread⟩ := inv.nodes addr
  rw [propose] at success
  dsimp only at success
  split at success
  · next inquiring =>
    rw [proposalLeaderElection_of_serializes] at success
    cases success
    rw [inquiring] at phase thread
    have round : Undecided config addr (cluster.node addr).center.increaseLogicalClock :=
      undecided.congr rfl rfl rfl rfl rfl
    have nodup : (cluster.node addr).center.increaseLogicalClock.otherCenters.keys.Nodup :=
      AList.keys_nodup _
    refine .node addr _ ⟨round, queue, ⟨phase, proposesItself_proposal round, nodup, ?_⟩, thread⟩
      ⟨fun _ => le_rfl, fun receiver => ?_⟩
    · exact fun other member => round.members other (AList.mem_keys.mpr member)
    · rw [inquiring]
      exact List.nodup_iff_count_le_one.mp nodup receiver
  · contradiction

private theorem broadcast_change {config : ClusterConfig} {cluster next : Cluster} {addr : Bytes}
    (inv : Inv config cluster) (success : broadcast cluster addr = some next) :
    Change config cluster next := by
  obtain ⟨_, _, phase, thread⟩ := inv.nodes addr
  rw [broadcast] at success
  split at success
  · next broadcasting =>
    cases success
    exact .send addr _ _ _ broadcasting
  · next broadcasting =>
    cases success
    rw [broadcasting] at phase thread
    exact change_phase inv .started phase.1 thread fun _ => Nat.zero_le _
  · contradiction

private theorem deliver_change {config : ClusterConfig} {cluster next : Cluster} {index : ℕ}
    (inv : Inv config cluster) (success : deliver cluster index = some next) :
    Change config cluster next := by
  obtain ⟨packet, found, rfl⟩ := Option.map_eq_some_iff.mp success
  have action := (inv.flight packet (List.mem_of_getElem? found)).proposes.action
  simp only [action, isElection, ↓reduceIte]
  exact .queue index packet found

/-- A queued proposal is the only vote for its candidate. -/
theorem votesFor_of_queued {config : ClusterConfig} {cluster : Cluster} (inv : Inv config cluster)
    {addr : Bytes} {packet : Packet} {electionQ : List Packet}
    (queued : (cluster.node addr).electionQ = packet :: electionQ) :
    votesFor (cluster.node addr).center.otherCenters packet.peer = 0 := by
  have budget := inv.budget addr packet.peer
  rw [held, queued, List.countP_cons, if_pos (decide_eq_true rfl)] at budget
  omega

/-- Processing a queued proposal changes the table of the center and nothing else. -/
theorem process_of_queued {config : ClusterConfig} {cluster : Cluster} (inv : Inv config cluster)
    {addr : Bytes} {packet : Packet} {electionQ : List Packet}
    (running : (cluster.node addr).center.electionThread.life = .running)
    (queued : (cluster.node addr).electionQ = packet :: electionQ) :
    ∃ table, process config cluster addr = some (cluster.setNode addr
        { cluster.node addr with
          center := (cluster.node addr).center.withTable table, electionQ }) ∧
      Undecided config addr ((cluster.node addr).center.withTable table) ∧
      ∀ candidate, votesFor table candidate ≤
        votesFor (cluster.node addr).center.otherCenters candidate +
          if packet.peer = candidate then 1 else 0 := by
  have packetInv := (inv.nodes addr).queue packet (queued ▸ List.mem_cons_self)
  obtain ⟨table, processed, undecided, votes⟩ := processCenterData_undecided config.outside 0
    (inv.nodes addr).undecided packetInv.proposes packetInv.peer (votesFor_of_queued inv queued)
  refine ⟨table, ?_, undecided, votes⟩
  simp only [process, running, queued, processed]
  rfl

private theorem process_change {config : ClusterConfig} {cluster next : Cluster} {addr : Bytes}
    (inv : Inv config cluster) (success : process config cluster addr = some next) :
    Change config cluster next := by
  obtain ⟨_, queue, phase, thread⟩ := inv.nodes addr
  have whole := success
  rw [process] at success
  split at success
  · next running queued =>
    obtain ⟨table, processed, undecided, votes⟩ := process_of_queued inv running queued
    rw [whole, Option.some.injEq] at processed
    rw [processed]
    refine .node addr _ ⟨undecided, fun packet member => ?_, phase, thread⟩
      ⟨fun candidate => ?_, fun _ => le_rfl⟩
    · exact queue packet (queued ▸ List.mem_cons_of_mem _ member)
    · have bound := votes candidate
      rw [held, held, queued, List.countP_cons]
      simp only [decide_eq_true_eq]
      omega
  · contradiction

/-- Every step from a state with the invariant is one of the three changes. -/
theorem step_change {config : ClusterConfig} {cluster next : Cluster} {action : Action}
    (inv : Inv config cluster) (success : step config cluster action = some next) :
    Change config cluster next := by
  cases action with
  | boot addr => exact boot_change inv success
  | listen addr => exact listen_change inv success
  | elect addr => exact elect_change inv success
  | inquire addr => exact inquire_change inv success
  | answered addr => exact answered_change inv success
  | hangUp addr => exact hangUp_change inv success
  | propose addr => exact propose_change inv success
  | broadcast addr => exact broadcast_change inv success
  | deliver index => exact deliver_change inv success
  | process addr => exact process_change inv success

/-! ## The invariant is kept -/

theorem inv_setNode {config : ClusterConfig} {cluster : Cluster} {addr : Bytes} {node : Node}
    (inv : Inv config cluster) (nodeInv : NodeInv config addr node)
    (noMore : NoMore (cluster.node addr) node) : Inv config (cluster.setNode addr node) where
  nodes := forall_setNode nodeInv inv.nodes
  flight := inv.flight
  replies := inv.replies
  budget receiver candidate := by
    have holds : held ((cluster.setNode addr node).node receiver) candidate ≤
        held (cluster.node receiver) candidate :=
      forall_setNode (motive := fun other new => held new candidate ≤ held (cluster.node other) candidate)
        (noMore.held candidate) (fun _ => le_rfl) receiver
    have pends : pending ((cluster.setNode addr node).node candidate).phase receiver ≤
        pending (cluster.node candidate).phase receiver :=
      forall_setNode (motive := fun other new =>
        pending new.phase receiver ≤ pending (cluster.node other).phase receiver)
        (noMore.pending receiver) (fun _ => le_rfl) candidate
    have budget := inv.budget receiver candidate
    rw [setNode_flight]
    omega

/-- A proposal that is sent is not pending any more. -/
theorem inv_send {config : ClusterConfig} {cluster : Cluster} {addr next : Bytes}
    {rest : List Bytes} {info : CentersProto} (inv : Inv config cluster)
    (phase : (cluster.node addr).phase = .broadcasting (next :: rest) info) :
    Inv config ((cluster.setNode addr
      { cluster.node addr with phase := .broadcasting rest info }).transmit ⟨addr, next, info⟩) := by
  obtain ⟨undecided, queue, phaseInv, thread⟩ := inv.nodes addr
  rw [phase] at phaseInv thread
  obtain ⟨listed, proposes, nodup, targets⟩ := phaseInv
  have fewer (receiver : Bytes) : pending (.broadcasting rest info) receiver +
      (if next = receiver then 1 else 0) = pending (cluster.node addr).phase receiver := by
    rw [phase, pending, pending, List.count_cons]
    simp only [beq_iff_eq]
  have kept : Inv config (cluster.setNode addr
      { cluster.node addr with phase := .broadcasting rest info }) :=
    inv_setNode inv ⟨undecided, queue, ⟨listed, proposes, (List.nodup_cons.mp nodup).2,
      fun other member => targets other (List.mem_cons_of_mem next member)⟩, thread⟩
      ⟨fun _ => le_rfl, fun receiver => by
        rw [← fewer receiver]
        exact Nat.le_add_right _ _⟩
  rw [transmit]
  split
  · refine ⟨kept.nodes, fun packet member => ?_, kept.replies, fun receiver candidate => ?_⟩
    · rcases List.mem_append.mp member with old | new
      · exact kept.flight packet old
      · cases List.mem_singleton.mp new
        exact ⟨listed, targets next List.mem_cons_self, proposes⟩
    · have before := inv.budget receiver candidate
      have budget := kept.budget receiver candidate
      rw [setNode_flight] at budget ⊢
      simp only [inFlight, List.countP_append, List.countP_singleton, decide_eq_true_eq]
      rw [← inFlight]
      split
      · next own =>
        obtain ⟨rfl, rfl⟩ := own
        have holds : held ((cluster.setNode addr
            { cluster.node addr with phase := .broadcasting rest info }).node next) addr =
            held (cluster.node next) addr := by
          apply forall_setNode (motive := fun other new =>
            held new addr = held (cluster.node other) addr)
          · rfl
          · exact fun _ => rfl
        rw [← fewer next, if_pos rfl] at before
        rw [setNode_self, holds]
        dsimp only
        omega
      · exact budget
  · exact ⟨kept.nodes, kept.flight, kept.replies, kept.budget⟩

/-- A message that is queued is not in flight any more. -/
theorem inv_queue {config : ClusterConfig} {cluster : Cluster} {index : ℕ} {packet : Packet}
    (inv : Inv config cluster) (found : cluster.flight[index]? = some packet) :
    Inv config { cluster.setNode packet.receiver { cluster.node packet.receiver with
      electionQ := (cluster.node packet.receiver).electionQ ++ [packet] } with
      flight := cluster.flight.eraseIdx index } := by
  obtain ⟨undecided, queue, phase, thread⟩ := inv.nodes packet.receiver
  have packetInv := inv.flight packet (List.mem_of_getElem? found)
  have split (receiver candidate : Bytes) : inFlight cluster.flight receiver candidate =
      (if packet.peer = candidate ∧ packet.receiver = receiver then 1 else 0) +
        inFlight (cluster.flight.eraseIdx index) receiver candidate := by
    obtain ⟨bound, rfl⟩ := List.getElem?_eq_some_iff.mp found
    rw [inFlight, ← (List.getElem_cons_eraseIdx_perm bound).countP_eq, List.countP_cons,
      Nat.add_comm]
    simp only [decide_eq_true_eq, inFlight]
  refine ⟨forall_setNode ⟨undecided, fun other member => ?_, phase, thread⟩ inv.nodes,
    fun other member => ?_, inv.replies, fun receiver candidate => ?_⟩
  · rcases List.mem_append.mp member with old | new
    · exact queue other old
    · rw [List.mem_singleton.mp new]
      exact packetInv
  · exact inv.flight other (List.mem_of_mem_eraseIdx member)
  · have budget := inv.budget receiver candidate
    have pends : ((cluster.setNode packet.receiver { cluster.node packet.receiver with
        electionQ := (cluster.node packet.receiver).electionQ ++ [packet] }).node candidate).phase =
        (cluster.node candidate).phase := by
      apply forall_setNode (motive := fun other new => new.phase = (cluster.node other).phase)
      · rfl
      · exact fun _ => rfl
    rw [split] at budget
    rw [pends]
    by_cases same : receiver = packet.receiver
    · rw [same] at budget ⊢
      rw [setNode_self, held, List.countP_append, List.countP_singleton]
      rw [held] at budget
      simp only [and_true, decide_eq_true_eq] at budget ⊢
      omega
    · rw [setNode_ne cluster _ same]
      dsimp only
      omega

theorem inv_step {config : ClusterConfig} {cluster next : Cluster} {action : Action}
    (inv : Inv config cluster) (success : step config cluster action = some next) :
    Inv config next := by
  cases step_change inv success with
  | node addr node nodeInv noMore => exact inv_setNode inv nodeInv noMore
  | send addr receiver rest info phase => exact inv_send inv phase
  | queue index packet found => exact inv_queue inv found

/-- Every reachable state has the invariant. -/
theorem inv_run {config : ClusterConfig} {actions : List Action} {cluster : Cluster}
    (run : Run (step config) (init config) actions cluster) : Inv config cluster :=
  run.invariant_of_step (inv_init config) fun _ _ _ inv success => inv_step inv success

/-- A state with the invariant has no leader. -/
theorem Inv.not_elected {config : ClusterConfig} {cluster : Cluster} (inv : Inv config cluster) :
    ¬ Elected config cluster := by
  rintro ⟨leader, _, leading, _⟩
  rw [(inv.nodes leader).undecided.centerStatus] at leading
  contradiction

end Cluster

end LibEvRpc
