import LibEvRpc.Proofs.Election

/-! # Every cluster comes to rest without a leader

From every reachable state in which no connection has failed the cluster can go on: it starts all
centers, lets all of them listen, runs their elections, and delivers and processes what is sent.
Each of these steps makes the cluster lighter, so it comes to a state in which every center has
completed `StartCenter` and no message is left, and there no center is elected.
-/

namespace LibEvRpc

open RpcCenter

namespace Cluster

/-! ## Weights -/

/-- The steps a center has still to take, each counted with the messages it may send. -/
def phaseWeight (count : ℕ) : Phase → ℕ
  | .off => 4 * count + 4
  | .booted => 4 * count + 3
  | .inquiring rest _ => rest.length + 3 * count + 2
  | .waiting _ rest _ => rest.length + 3 * count + 3
  | .broadcasting rest _ => 3 * rest.length + 1
  | .started => 0

def nodeWeight (count : ℕ) (node : Node) : ℕ :=
  phaseWeight count node.phase + (if node.listening then 0 else 1) + node.electionQ.length

def weight (config : ClusterConfig) (cluster : Cluster) : ℕ :=
  (config.centers.map fun addr => nodeWeight config.centers.length (cluster.node addr)).sum +
    2 * cluster.flight.length

private theorem sum_map_update (weigh : Node → ℕ) (nodes : Bytes → Node) {addr : Bytes} (node : Node)
    {keys : List Bytes} (nodup : keys.Nodup) (member : addr ∈ keys) :
    (keys.map fun key => weigh (Function.update nodes addr node key)).sum + weigh (nodes addr) =
      (keys.map fun key => weigh (nodes key)).sum + weigh node := by
  induction keys with
  | nil => contradiction
  | cons key keys ih =>
    obtain ⟨absent, nodup⟩ := List.nodup_cons.mp nodup
    rw [List.map_cons, List.map_cons, List.sum_cons, List.sum_cons]
    rcases List.mem_cons.mp member with rfl | later
    · have others : (keys.map fun key => weigh (Function.update nodes addr node key)) =
          keys.map fun key => weigh (nodes key) := by
        apply List.map_congr_left
        intro other present
        rw [Function.update_of_ne (ne_of_mem_of_not_mem present absent)]
      rw [others, Function.update_self]
      omega
    · rw [Function.update_of_ne (ne_of_mem_of_not_mem later absent).symm]
      have rest := ih nodup later
      omega

theorem weight_setNode {config : ClusterConfig} (cluster : Cluster) {addr : Bytes} (node : Node)
    (listed : addr ∈ config.centers) :
    weight config (cluster.setNode addr node) +
        nodeWeight config.centers.length (cluster.node addr) =
      weight config cluster + nodeWeight config.centers.length node := by
  have sums := sum_map_update (nodeWeight config.centers.length) cluster.node node config.nodup listed
  rw [weight, weight, setNode_flight, setNode]
  dsimp only
  omega

/-- A lighter center makes a lighter cluster. -/
theorem weight_setNode_lt {config : ClusterConfig} {cluster : Cluster} {addr : Bytes} {node : Node}
    (listed : addr ∈ config.centers)
    (lighter : nodeWeight config.centers.length node <
      nodeWeight config.centers.length (cluster.node addr)) :
    weight config (cluster.setNode addr node) < weight config cluster := by
  have weights := weight_setNode cluster node listed
  omega

/-! ## Orderly runs -/

def AllListening (config : ClusterConfig) (cluster : Cluster) : Prop :=
  ∀ addr ∈ config.centers, (cluster.node addr).listening = true

/-- No connection has failed so far, and no election starts before every center listens. -/
structure Orderly (config : ClusterConfig) (cluster : Cluster) : Prop where
  connects : cluster.failedConnects = 0
  order : AllListening config cluster ∨
    ∀ addr, (cluster.node addr).phase = .off ∨ (cluster.node addr).phase = .booted

/-- Some step leads to a lighter state that is orderly again. -/
def Advances (config : ClusterConfig) (cluster : Cluster) : Prop :=
  ∃ action next, step config cluster action = some next ∧ Orderly config next ∧
    weight config next < weight config cluster

theorem allListening_setNode {config : ClusterConfig} {cluster : Cluster}
    (listening : AllListening config cluster) {addr : Bytes} {node : Node}
    (own : node.listening = true) : AllListening config (cluster.setNode addr node) :=
  forall_setNode (motive := fun other new => other ∈ config.centers → new.listening = true)
    (fun _ => own) listening

/-- A step of one center that makes it lighter. -/
private theorem advances_node {config : ClusterConfig} {cluster : Cluster} {addr : Bytes}
    {node : Node} (action : Action) (connects : cluster.failedConnects = 0)
    (listening : AllListening config cluster) (listed : addr ∈ config.centers)
    (success : step config cluster action = some (cluster.setNode addr node))
    (own : node.listening = true)
    (lighter : nodeWeight config.centers.length node <
      nodeWeight config.centers.length (cluster.node addr)) : Advances config cluster := by
  exact ⟨action, _, success, ⟨connects, .inl (allListening_setNode listening own)⟩,
    weight_setNode_lt listed lighter⟩

/-! ## The steps of a center -/

private theorem start_fst {config : ClusterConfig} (thread : Thread) :
    (thread.start config.outside.toPlatform).1 = true := by
  rw [Thread.start, config.createOk]
  split <;> rfl

/-- A center that is off can be started. -/
theorem boot_of_off {config : ClusterConfig} {cluster : Cluster} {addr : Bytes}
    (listed : addr ∈ config.centers) (off : (cluster.node addr).phase = .off) :
    ∃ center, boot config cluster addr =
      some (cluster.setNode addr { cluster.node addr with center, phase := .booted }) := by
  rw [boot]
  simp only [off, listed, start_fst, and_self, ↓reduceIte]
  exact ⟨_, rfl⟩

/-- A started center can begin its election. -/
theorem elect_of_booted {config : ClusterConfig} {cluster : Cluster} {addr : Bytes}
    (inv : Inv config cluster) (booted : (cluster.node addr).phase = .booted) :
    ∃ center info, elect config cluster addr = some (cluster.setNode addr
      { cluster.node addr with
        center, phase := .inquiring (cluster.node addr).center.otherCenters.keys info }) := by
  have thread := (inv.nodes addr).thread
  rw [booted] at thread
  simp only [elect, booted, startElectionThread_of_booted thread, ↓reduceIte, config.serializes]
  exact ⟨_, _, rfl⟩

/-- A center knows all others, so it asks none. -/
theorem inquire_of_inquiring {config : ClusterConfig} {cluster : Cluster} {addr next : Bytes}
    {rest : List Bytes} {info : CentersProto} (inv : Inv config cluster)
    (inquiring : (cluster.node addr).phase = .inquiring (next :: rest) info) :
    inquire cluster addr =
      some (cluster.setNode addr { cluster.node addr with phase := .inquiring rest info }) := by
  simp only [inquire, inquiring, (inv.nodes addr).undecided.known, Bool.false_eq_true, ↓reduceIte]

theorem propose_of_inquiring {config : ClusterConfig} {cluster : Cluster} {addr : Bytes}
    {info : CentersProto} (inquiring : (cluster.node addr).phase = .inquiring [] info) :
    ∃ center info, propose config cluster addr = some (cluster.setNode addr
      { cluster.node addr with
        center, phase := .broadcasting (cluster.node addr).center.otherCenters.keys info }) := by
  simp only [propose, inquiring, proposalLeaderElection_of_serializes]
  exact ⟨_, _, rfl⟩

/-- The other centers of an undecided center are in the file. -/
theorem keys_length_le {config : ClusterConfig} {addr : Bytes} {center : RpcCenter}
    (undecided : Undecided config addr center) :
    center.otherCenters.keys.length ≤ config.centers.length :=
  (List.subperm_of_subset (AList.keys_nodup _) fun other member =>
    undecided.members other (AList.mem_keys.mpr member)).length_le

/-- A proposal to a listening center is sent. -/
private theorem advances_send {config : ClusterConfig} {cluster : Cluster} {addr next : Bytes}
    {rest : List Bytes} {info : CentersProto} (inv : Inv config cluster)
    (connects : cluster.failedConnects = 0) (listening : AllListening config cluster)
    (listed : addr ∈ config.centers)
    (phase : (cluster.node addr).phase = .broadcasting (next :: rest) info) :
    Advances config cluster := by
  have phaseInv := (inv.nodes addr).phase
  rw [phase] at phaseInv
  obtain ⟨_, _, _, targets⟩ := phaseInv
  set sending := cluster.setNode addr { cluster.node addr with phase := .broadcasting rest info }
    with sendingEq
  have ready : AllListening config sending :=
    allListening_setNode listening (listening addr listed)
  have sent : sending.transmit ⟨addr, next, info⟩ =
      { sending with flight := sending.flight ++ [⟨addr, next, info⟩] } := by
    rw [transmit]
    exact if_pos (ready next (targets next List.mem_cons_self))
  refine ⟨.broadcast addr, sending.transmit ⟨addr, next, info⟩, ?_, ?_, ?_⟩
  · simp only [step, broadcast, phase, sendingEq]
  · rw [sent]
    exact ⟨connects, .inl ready⟩
  · have weights := weight_setNode cluster
      { cluster.node addr with phase := .broadcasting rest info } listed
    rw [← sendingEq] at weights
    simp only [nodeWeight, phase, phaseWeight, List.length_cons] at weights
    rw [sent]
    simp only [weight, List.length_append, List.length_singleton] at weights ⊢
    omega

/-- While every center listens, a center that has not completed `StartCenter` can go on. -/
theorem advances_of_not_started {config : ClusterConfig} {cluster : Cluster}
    (inv : Inv config cluster) (connects : cluster.failedConnects = 0)
    (listening : AllListening config cluster) {addr : Bytes} (listed : addr ∈ config.centers)
    (unfinished : (cluster.node addr).phase ≠ .started) : Advances config cluster := by
  obtain ⟨undecided, _, phaseInv, _⟩ := inv.nodes addr
  have own := listening addr listed
  have keys := keys_length_le undecided
  cases phase : (cluster.node addr).phase with
  | off =>
    obtain ⟨center, booted⟩ := boot_of_off listed phase
    refine advances_node (.boot addr) connects listening listed booted own ?_
    simp only [nodeWeight, phase, phaseWeight]
    omega
  | booted =>
    obtain ⟨center, info, inquiring⟩ := elect_of_booted inv phase
    refine advances_node (.elect addr) connects listening listed inquiring own ?_
    simp only [nodeWeight, phase, phaseWeight]
    omega
  | inquiring rest info =>
    cases rest with
    | nil =>
      obtain ⟨center, info, proposing⟩ := @propose_of_inquiring config cluster addr info phase
      refine advances_node (.propose addr) connects listening listed proposing own ?_
      simp only [nodeWeight, phase, phaseWeight, List.length_nil]
      omega
    | cons next rest =>
      have asked := inquire_of_inquiring inv phase
      refine advances_node (.inquire addr) connects listening listed asked own ?_
      simp only [nodeWeight, phase, phaseWeight, List.length_cons]
      omega
  | waiting next rest info =>
    rw [phase] at phaseInv
    exact phaseInv.elim
  | broadcasting rest info =>
    cases rest with
    | nil =>
      have done : step config cluster (.broadcast addr) =
          some (cluster.setNode addr { cluster.node addr with phase := .started }) := by
        simp only [step, broadcast, phase]
      refine advances_node (.broadcast addr) connects listening listed done own ?_
      simp only [nodeWeight, phase, phaseWeight]
      omega
    | cons next rest => exact advances_send inv connects listening listed phase
  | started => exact absurd phase unfinished

/-! ## The steps of the cluster -/

/-- A message in flight can be queued. -/
private theorem advances_of_flight {config : ClusterConfig} {cluster : Cluster} {packet : Packet}
    {rest : List Packet} (inv : Inv config cluster) (connects : cluster.failedConnects = 0)
    (listening : AllListening config cluster) (flight : cluster.flight = packet :: rest) :
    Advances config cluster := by
  have packetInv := inv.flight packet (flight ▸ List.mem_cons_self)
  set node := { cluster.node packet.receiver with
    electionQ := (cluster.node packet.receiver).electionQ ++ [packet] } with nodeEq
  have own : node.listening = true := listening packet.receiver packetInv.receiver
  refine ⟨.deliver 0, { cluster.setNode packet.receiver node with flight := rest }, ?_, ?_, ?_⟩
  · simp only [step, deliver, flight, List.getElem?_cons_zero, Option.map_some,
      packetInv.proposes.action, isElection, ↓reduceIte, List.eraseIdx_cons_zero, nodeEq]
  · exact ⟨connects, .inl (allListening_setNode listening own)⟩
  · have weights := weight_setNode cluster node packetInv.receiver
    simp only [weight, setNode_flight, flight, nodeWeight, nodeEq, List.length_append,
      List.length_cons, List.length_nil] at weights ⊢
    omega

/-- A queued message can be processed. -/
private theorem advances_of_queued {config : ClusterConfig} {cluster : Cluster} {addr : Bytes}
    {packet : Packet} {electionQ : List Packet} (inv : Inv config cluster)
    (connects : cluster.failedConnects = 0) (listening : AllListening config cluster)
    (listed : addr ∈ config.centers) (started : (cluster.node addr).phase = .started)
    (queued : (cluster.node addr).electionQ = packet :: electionQ) : Advances config cluster := by
  have thread := (inv.nodes addr).thread
  rw [started] at thread
  obtain ⟨table, processed, _⟩ := process_of_queued inv thread queued
  refine advances_node (.process addr) connects listening listed processed
    (listening addr listed) ?_
  simp only [nodeWeight, queued, List.length_cons]
  omega

/-- Before any election, a center that does not listen yet can be started or begin to listen. -/
private theorem advances_of_silent {config : ClusterConfig} {cluster : Cluster} {addr : Bytes}
    (connects : cluster.failedConnects = 0)
    (early : ∀ other, (cluster.node other).phase = .off ∨ (cluster.node other).phase = .booted)
    (listed : addr ∈ config.centers) (silent : (cluster.node addr).listening = false) :
    Advances config cluster := by
  have stays {node : Node} (phase : node.phase = .booted) (other : Bytes) :
      ((cluster.setNode addr node).node other).phase = .off ∨
        ((cluster.setNode addr node).node other).phase = .booted :=
    forall_setNode (motive := fun _ new => new.phase = .off ∨ new.phase = .booted)
      (.inr phase) early other
  rcases early addr with off | booted
  · obtain ⟨center, boots⟩ := boot_of_off listed off
    refine ⟨.boot addr, _, boots, ⟨connects, .inr (stays rfl)⟩, weight_setNode_lt listed ?_⟩
    simp only [nodeWeight, off, phaseWeight]
    omega
  · refine ⟨.listen addr, cluster.setNode addr { cluster.node addr with listening := true }, ?_,
      ⟨connects, .inr (stays booted)⟩, weight_setNode_lt listed ?_⟩
    · simp only [step, listen, booted, silent, Bool.false_eq_true, ↓reduceIte]
    · simp only [nodeWeight, silent, Bool.false_eq_true, ↓reduceIte]
      omega

/-- An orderly cluster goes on until every center has completed `StartCenter` and no message is
left. -/
theorem advances_or_rests {config : ClusterConfig} {cluster : Cluster} (inv : Inv config cluster)
    (orderly : Orderly config cluster) :
    Advances config cluster ∨ Completed config cluster ∧ Quiet config cluster := by
  obtain ⟨connects, order⟩ := orderly
  by_cases listening : AllListening config cluster
  · by_cases completed : Completed config cluster
    · cases flight : cluster.flight with
      | cons packet rest => exact .inl (advances_of_flight inv connects listening flight)
      | nil =>
        by_cases queues : ∀ addr ∈ config.centers, (cluster.node addr).electionQ = []
        · exact .inr ⟨completed, flight, inv.replies, queues⟩
        · push Not at queues
          obtain ⟨addr, listed, some⟩ := queues
          obtain ⟨packet, electionQ, queued⟩ := List.exists_cons_of_ne_nil some
          exact .inl (advances_of_queued inv connects listening listed (completed addr listed) queued)
    · rw [Completed] at completed
      push Not at completed
      obtain ⟨addr, listed, unfinished⟩ := completed
      exact .inl (advances_of_not_started inv connects listening listed unfinished)
  · have early := order.resolve_left listening
    rw [AllListening] at listening
    push Not at listening
    obtain ⟨addr, listed, silent⟩ := listening
    exact .inl (advances_of_silent connects early listed (Bool.eq_false_iff.mpr silent))

/-- From every orderly state a run leads to rest, without a failed connection. -/
theorem rests_of_orderly {config : ClusterConfig} {start : Cluster} {actions : List Action}
    {cluster : Cluster} (run : Run (step config) start actions cluster)
    (inv : Inv config cluster) (orderly : Orderly config cluster) :
    ∃ actions final, Run (step config) start actions final ∧ Completed config final ∧
      Quiet config final ∧ final.failedConnects = 0 := by
  induction size : weight config cluster using Nat.strong_induction_on generalizing cluster actions with
  | h size ih =>
    rcases advances_or_rests inv orderly with ⟨action, next, success, orderlyNext, lighter⟩ | rests
    · exact ih _ (size ▸ lighter) (.snoc run success) (inv_step inv success) orderlyNext rfl
    · exact ⟨actions, cluster, run, rests.1, rests.2, orderly.connects⟩

/-- Every cluster can come to rest without a failed connection, and whenever it is at rest, however
it got there, no center is elected. -/
theorem rests_unelected (config : ClusterConfig) :
    (∃ actions cluster, Run (step config) (init config) actions cluster ∧
      Completed config cluster ∧ Quiet config cluster ∧ cluster.failedConnects = 0) ∧
    ∀ actions cluster, Run (step config) (init config) actions cluster →
      Completed config cluster → Quiet config cluster → ¬ Elected config cluster :=
  ⟨rests_of_orderly .nil (inv_init config) ⟨rfl, .inr fun _ => .inl rfl⟩,
    fun _ _ run _ _ => (inv_run run).not_elected⟩

/-! ## Two centers -/

/-- The centers 10.0.0.1 and 10.0.0.2, started at 1000 and 1001. -/
def twoCenters : ClusterConfig where
  centers := [sampleAddress 1, sampleAddress 2]
  startTime addr := if addr = sampleAddress 1 then 1000 else 1001
  virtualNodeNum _ := 20
  outside := sampleOutside
  nodup := by decide
  dotted addr member := by
    rcases List.mem_pair.mp member with rfl | rfl
    · exact ⟨_, rfl⟩
    · exact ⟨_, rfl⟩
  several := le_rfl
  createOk := rfl
  serializes _ := rfl

/-- Both centers start and listen, send their proposals, and process the other's. -/
def twoCentersRun : List Action :=
  let first := sampleAddress 1
  let second := sampleAddress 2
  [.boot first, .boot second, .listen first, .listen second, .elect first, .elect second,
    .inquire first, .inquire second, .propose first, .propose second, .broadcast first,
    .broadcast first, .broadcast second, .broadcast second, .deliver 0, .deliver 0, .process first,
    .process second]

/-- The run of two centers ends with both of them looking for a leader. -/
theorem twoCenters_unelected : ∃ cluster,
    Run (step twoCenters) (init twoCenters) twoCentersRun cluster ∧
      Completed twoCenters cluster ∧ Quiet twoCenters cluster ∧ ¬ Elected twoCenters cluster := by
  have computed : ((twoCentersRun.foldlM (step twoCenters) (init twoCenters)).any fun cluster =>
      decide (Completed twoCenters cluster ∧ Quiet twoCenters cluster ∧
        ∀ addr ∈ twoCenters.centers, (cluster.node addr).center.centerStatus = .looking)) = true := by
    decide +kernel
  obtain ⟨cluster, reached, final⟩ := (Option.any_eq_true _ _).mp computed
  obtain ⟨completed, quiet, looking⟩ := of_decide_eq_true final
  refine ⟨cluster, Run.of_foldlM reached, completed, quiet, ?_⟩
  rintro ⟨leader, listed, leading, -⟩
  rw [looking leader listed] at leading
  contradiction

end Cluster

end LibEvRpc
