import LibEvRpc.Proofs.DescriptorOwnership
import LibEvRpc.Proofs.Routing

/-! # The ring of a center over its runs

The messages that wait for a thread are all messages of an election, and these leave the ring alone.
So a ring has only the servers that registered at its own center.
-/

namespace LibEvRpc

open RpcCenter BufferedCenter

def ConnectionCall.item? : ConnectionCall → Option QueuedMessage
  | .pushElectionMessage item | .pushFollowerMessage item => some item
  | .rpcSend _ _ | .close _ _ => none

/-- A callback adds at most the server that registers. -/
theorem centerProcessor_loadBalancer {answering : Answering} {state : BufferedCenter}
    {connFd : Int32} {incoming : Incoming} {routed : Routed}
    (success : state.centerProcessor answering connFd incoming = some routed) :
    routed.state.center.loadBalancer = state.center.loadBalancer ∨
      ∃ server, incoming = .cluster (some server) ∧
        routed.state.center.loadBalancer = state.center.loadBalancer.addRpcServer server := by
  obtain ⟨_, rfl⟩ | ⟨_, rfl⟩ | ⟨received, _, rfl⟩ | ⟨cwcProto, _, request⟩ | ⟨received, _, _, rfl⟩ |
    ⟨server, rfl, _, request⟩ := centerProcessor_cases success
  · exact .inl rfl
  · exact .inl rfl
  · rw [processCenterRequest_state]
    exact .inl rfl
  · rw [(processClientRequest_spec request).1]
    exact .inl rfl
  · exact .inl rfl
  · obtain ⟨_, same, _⟩ | ⟨_, registered, _⟩ := processClusterRequest_spec request
    · exact .inl (same ▸ rfl)
    · rw [registered]
      split
      · exact .inr ⟨server, rfl, rfl⟩
      · rw [addRpcServerToBuf]
        split <;> exact .inl rfl

namespace CenterServer

/-- Every message that is queued, or is about to be, is one of an election. -/
structure ElectionOnly (server : CenterServer) : Prop where
  queued : ∀ item ∈ server.queued, Cluster.isElection item.centersProto.centerAction
  calls : ∀ call ∈ server.callsLeft, ∀ item ∈ call.item?,
    Cluster.isElection item.centersProto.centerAction

/-- A call changes neither the center nor the calls that are left, and queues its own message. -/
theorem makeCall_spec {server made : CenterServer} {sends : Bool} {call : ConnectionCall}
    (success : server.makeCall sends call = some made) :
    made.buffered = server.buffered ∧ made.callback = server.callback ∧
      made.election = server.election ∧ made.leader = server.leader ∧
        ∀ item ∈ made.queued, item ∈ server.queued ∨ item ∈ call.item? := by
  cases call with
  | rpcSend conn fd =>
    rw [makeCall] at success
    split at success
    · cases success
      exact ⟨rfl, rfl, rfl, rfl, fun _ member => .inl member⟩
    · split at success
      · cases success
        exact ⟨rfl, rfl, rfl, rfl, fun _ member => .inl member⟩
      · contradiction
  | close conn fd =>
    cases success
    exact ⟨rfl, rfl, rfl, rfl, fun _ member => .inl member⟩
  | pushElectionMessage item =>
    obtain ⟨queue, pushed, rfl⟩ := Option.map_eq_some_iff.mp success
    obtain ⟨items, found, rfl⟩ := MessageQueue.push_eq_some_iff.mp pushed
    refine ⟨rfl, rfl, rfl, rfl, fun other member => ?_⟩
    rw [queued, found]
    simpa [queued, ConnectionCall.item?, or_assoc, or_comm, or_left_comm, eq_comm] using member
  | pushFollowerMessage item =>
    obtain ⟨queue, pushed, rfl⟩ := Option.map_eq_some_iff.mp success
    obtain ⟨items, found, rfl⟩ := MessageQueue.push_eq_some_iff.mp pushed
    refine ⟨rfl, rfl, rfl, rfl, fun other member => ?_⟩
    rw [queued, found]
    simpa [queued, ConnectionCall.item?, or_assoc, eq_comm] using member

/-- A step that queues no new message. -/
theorem ElectionOnly.mono {before after : CenterServer} (only : before.ElectionOnly)
    (queued : ∀ item ∈ after.queued, item ∈ before.queued)
    (calls : ∀ call ∈ after.callsLeft, call ∈ before.callsLeft ∨ call.item? = none) :
    after.ElectionOnly where
  queued item member := only.queued item (queued item member)
  calls call left item found := by
    rcases calls call left with earlier | silent
    · exact only.calls call earlier item found
    · rw [silent] at found
      contradiction

/-- The next call of a thread is made. -/
theorem ElectionOnly.callNext {server after : CenterServer} {sends : Bool}
    {calls : List ConnectionCall} {put : CenterServer → List ConnectionCall → CenterServer}
    (only : server.ElectionOnly) (success : server.callNext sends calls put = some after)
    (mine : ∀ call ∈ calls, call ∈ server.callsLeft)
    (buffered : ∀ made rest, (put made rest).buffered = made.buffered)
    (queued : ∀ made rest, (put made rest).queued = made.queued)
    (left : ∀ made : CenterServer, made.callback = server.callback →
      made.election = server.election → made.leader = server.leader →
        ∀ call rest, calls = call :: rest → ∀ later ∈ (put made rest).callsLeft,
          later ∈ server.callsLeft) :
    after.ElectionOnly ∧ after.buffered = server.buffered := by
  cases calls with
  | nil => contradiction
  | cons call rest =>
    obtain ⟨made, making, rfl⟩ := Option.map_eq_some_iff.mp success
    obtain ⟨same, callback, election, leader, items⟩ := makeCall_spec making
    refine ⟨⟨fun item member => ?_, fun later member => ?_⟩, (buffered made rest).trans same⟩
    · rw [queued] at member
      rcases items item member with earlier | own
      · exact only.queued item earlier
      · exact only.calls call (mine call List.mem_cons_self) item own
    · exact only.calls later (left made callback election leader call rest rfl later member)

theorem mem_callsLeft {server : CenterServer} {call : ConnectionCall} :
    call ∈ server.callsLeft ↔ call ∈ server.callback.getD [] ∨ call ∈ server.election.getD [] ∨
      call ∈ server.leader.getD [] := by
  rw [callsLeft, List.mem_append, List.mem_append, or_assoc]

theorem mem_callsLeft_of_withCenter {server : CenterServer} {center : RpcCenter}
    {call : ConnectionCall} (left : call ∈ (server.withCenter center).callsLeft) :
    call ∈ server.callsLeft := by
  have fewer {calls : Option (List ConnectionCall)} {kept : Prop} [Decidable kept]
      (member : call ∈ (if kept then calls else none).getD []) : call ∈ calls.getD [] := by
    split at member
    · exact member
    · contradiction
  rw [mem_callsLeft] at left ⊢
  exact left.imp_right (Or.imp fewer fewer)

/-- An iteration queues nothing. -/
theorem item?_of_iterationCalls {item : QueuedMessage} {processed : Processed}
    {call : ConnectionCall} (member : call ∈ iterationCalls item processed) : call.item? = none := by
  rcases List.mem_append.mp member with own | last
  · obtain ⟨effect, _, same⟩ := List.mem_filterMap.mp own
    cases effect with
    | broadcast => contradiction
    | rpcSend | close =>
      cases same
      rfl
  · split at last
    · cases List.mem_singleton.mp last
      rfl
    · contradiction

/-- A callback queues what `CenterProcessor` does. -/
theorem isElection_of_routedCall {answering : Answering} {state : BufferedCenter} {conn : ℕ}
    {fd : Int32} {incoming : Incoming} {routed : Routed} {call : ConnectionCall} {item : QueuedMessage}
    (success : state.centerProcessor answering fd incoming = some routed)
    (member : call ∈ routed.effects.filterMap (routedCall? conn)) (found : item ∈ call.item?) :
    Cluster.isElection item.centersProto.centerAction := by
  obtain ⟨effect, listed, same⟩ := List.mem_filterMap.mp member
  have pushed : effect.pushed? = some item.centersProto := by
    cases effect with
    | sent => contradiction
    | close =>
      cases same
      contradiction
    | pushElectionMessage | pushFollowerMessage =>
      cases same
      cases found
      rfl
  apply isElection_of_queued
  rw [← pushed?_centerProcessor success]
  exact List.mem_filterMap.mpr ⟨effect, listed, pushed⟩

theorem electionOnly_init (buffered : BufferedCenter) : (init buffered).ElectionOnly where
  queued _ member := absurd member List.not_mem_nil
  calls _ left := absurd left List.not_mem_nil

/-- The message at the front of a queue is processed. -/
private theorem popped_spec {queue rest : MessageQueue QueuedMessage} {item : QueuedMessage}
    (popped : queue.pop = some (some item, rest)) :
    item ∈ queue.items.getD [] ∧ ∀ other ∈ rest.items.getD [], other ∈ queue.items.getD [] := by
  obtain ⟨items, found, same⟩ := Option.map_eq_some_iff.mp popped
  obtain ⟨first, rfl⟩ := Prod.mk.inj same
  rw [found]
  exact ⟨List.mem_of_mem_head? first, fun _ => List.mem_of_mem_tail⟩

private theorem electionOnly_electionRun {server after : CenterServer} {outside : Outside}
    (only : server.ElectionOnly) (success : server.electionRun outside = some after) :
    after.ElectionOnly ∧
      after.buffered.center.loadBalancer = server.buffered.center.loadBalancer := by
  rw [electionRun] at success
  split at success
  · cases success
    exact ⟨only, rfl⟩
  · next item electionQ enabled popped =>
    obtain ⟨processed, processing, rfl⟩ := Option.map_eq_some_iff.mp success
    obtain ⟨first, rest⟩ := popped_spec popped
    refine ⟨only.mono ?_ ?_, ?_⟩
    · intro other member
      rcases List.mem_append.mp member with behind | follower
      · exact List.mem_append_left _ (rest other behind)
      · exact List.mem_append_right _ follower
    · intro call left
      rcases mem_callsLeft.mp (mem_callsLeft_of_withCenter left) with callback | iteration | leader
      · exact .inl (mem_callsLeft.mpr (.inl callback))
      · exact .inr (item?_of_iterationCalls iteration)
      · exact .inl (mem_callsLeft.mpr (.inr (.inr leader)))
    · exact processCenterData_loadBalancer (only.queued item (List.mem_append_left _ first)) processing
  · contradiction

private theorem electionOnly_leaderRun {server after : CenterServer} {outside : Outside}
    (only : server.ElectionOnly) (success : server.leaderRun outside = some after) :
    after.ElectionOnly ∧
      after.buffered.center.loadBalancer = server.buffered.center.loadBalancer := by
  rw [leaderRun] at success
  split at success
  · next popped followerQ enabled popping =>
    split at success
    · cases success
      refine ⟨only.mono ?_ fun call left => .inl (mem_callsLeft_of_withCenter left), rfl⟩
      intro other member
      rcases List.mem_append.mp member with election | gone
      · exact List.mem_append_left _ election
      · contradiction
    · split at success
      · cases success
        exact ⟨only, rfl⟩
      · next item =>
        obtain ⟨processed, processing, rfl⟩ := Option.map_eq_some_iff.mp success
        obtain ⟨first, rest⟩ := popped_spec popping
        refine ⟨only.mono ?_ ?_, ?_⟩
        · intro other member
          rcases List.mem_append.mp member with election | behind
          · exact List.mem_append_left _ election
          · exact List.mem_append_right _ (rest other behind)
        · intro call left
          rcases mem_callsLeft.mp (mem_callsLeft_of_withCenter left) with callback | election | iteration
          · exact .inl (mem_callsLeft.mpr (.inl callback))
          · exact .inl (mem_callsLeft.mpr (.inr (.inl election)))
          · exact .inr (item?_of_iterationCalls iteration)
        · exact processCenterData_loadBalancer (only.queued item (List.mem_append_right _ first))
            processing
  · contradiction

private theorem electionOnly_processor {server after : CenterServer} {item : ℕ}
    {answering : Answering} {incoming : Incoming} (only : server.ElectionOnly)
    (success : server.processor item answering incoming = some after) :
    after.ElectionOnly ∧
      (after.buffered.center.loadBalancer = server.buffered.center.loadBalancer ∨
        ∃ registered, incoming = .cluster (some registered) ∧
          after.buffered.center.loadBalancer =
            server.buffered.center.loadBalancer.addRpcServer registered) := by
  rw [processor] at success
  split at success
  · obtain ⟨routed, routing, rfl⟩ := Option.map_eq_some_iff.mp success
    refine ⟨⟨only.queued, fun call left item found => ?_⟩, centerProcessor_loadBalancer routing⟩
    rcases mem_callsLeft.mp left with callback | others
    · rcases List.mem_append.mp callback with own | last
      · exact isElection_of_routedCall routing own found
      · cases List.mem_singleton.mp last
        contradiction
    · exact only.calls call (mem_callsLeft.mpr (.inr others)) item found
  · contradiction

/-- A step keeps the queues to messages of an election, and adds to the ring only a server that
registers. -/
theorem ring_step {server after : CenterServer} {action : Action} (only : server.ElectionOnly)
    (success : server.step action = some after) :
    after.ElectionOnly ∧
      (after.buffered.center.loadBalancer = server.buffered.center.loadBalancer ∨
        ∃ item answering registered,
          action = .processor item answering (.cluster (some registered)) ∧
            after.buffered.center.loadBalancer =
              server.buffered.center.loadBalancer.addRpcServer registered) := by
  cases action with
  | accept fd =>
    rw [step, accept] at success
    split at success
    · obtain ⟨items, _, rfl⟩ := Option.map_eq_some_iff.mp success
      exact ⟨only.mono (fun _ => id) fun _ => .inl, .inl rfl⟩
    · contradiction
  | processor item answering incoming =>
    obtain ⟨kept, ring⟩ := electionOnly_processor only success
    refine ⟨kept, ring.imp_right ?_⟩
    rintro ⟨registered, rfl, added⟩
    exact ⟨item, answering, registered, rfl, added⟩
  | callbackCall =>
    have advanced := only.callNext success (fun call member => mem_callsLeft.mpr (.inl member))
      (fun _ _ => rfl) (fun _ _ => rfl)
    refine (advanced ?_).imp_right fun same => .inl (congrArg (·.center.loadBalancer) same)
    intro made _ election leader call rest calls later left
    rw [mem_callsLeft] at left ⊢
    dsimp only at left
    rw [election, leader] at left
    exact left.imp_left fun member => calls ▸ List.mem_cons_of_mem call member
  | callbackEnd =>
    rw [step, callbackEnd] at success
    split at success
    · obtain ⟨items, _, rfl⟩ := Option.map_eq_some_iff.mp success
      refine ⟨only.mono (fun _ => id) fun call left => .inl ?_, .inl rfl⟩
      rw [mem_callsLeft] at left ⊢
      exact left.imp_left fun none => absurd none List.not_mem_nil
    · contradiction
  | electionEnter =>
    rw [step] at success
    split at success
    · cases success
      refine ⟨only.mono (fun _ => id) fun call left => .inl ?_, .inl rfl⟩
      rw [mem_callsLeft] at left ⊢
      exact left.imp_right (Or.imp_left fun none => absurd none List.not_mem_nil)
    · contradiction
  | electionRun outside =>
    obtain ⟨kept, same⟩ := electionOnly_electionRun only success
    exact ⟨kept, .inl same⟩
  | electionCall sends =>
    have advanced := only.callNext success
      (fun call member => mem_callsLeft.mpr (.inr (.inl member))) (fun _ _ => rfl) (fun _ _ => rfl)
    refine (advanced ?_).imp_right fun same => .inl (congrArg (·.center.loadBalancer) same)
    intro made callback _ leader call rest calls later left
    rw [mem_callsLeft] at left ⊢
    dsimp only at left
    rw [callback, leader] at left
    exact left.imp_right (Or.imp_left fun member => calls ▸ List.mem_cons_of_mem call member)
  | leaderEnter =>
    rw [step] at success
    split at success
    · cases success
      refine ⟨only.mono (fun _ => id) fun call left => .inl ?_, .inl rfl⟩
      rw [mem_callsLeft] at left ⊢
      exact left.imp_right (Or.imp_right fun none => absurd none List.not_mem_nil)
    · contradiction
  | leaderRun outside =>
    obtain ⟨kept, same⟩ := electionOnly_leaderRun only success
    exact ⟨kept, .inl same⟩
  | leaderCall sends =>
    have advanced := only.callNext success
      (fun call member => mem_callsLeft.mpr (.inr (.inr member))) (fun _ _ => rfl) (fun _ _ => rfl)
    refine (advanced ?_).imp_right fun same => .inl (congrArg (·.center.loadBalancer) same)
    intro made callback election _ call rest calls later left
    rw [mem_callsLeft] at left ⊢
    dsimp only at left
    rw [callback, election] at left
    exact left.imp_right (Or.imp_right fun member => calls ▸ List.mem_cons_of_mem call member)

/-- A follower reports a server to a leader, and another one registers. -/
def reportAndRegister : List Action :=
  [.accept 5, .processor 0 ⟨true, true⟩ (.center (some sampleFollower.followerPing)), .callbackCall,
    .callbackCall, .callbackEnd, .accept 5, .processor 0 ⟨true, true⟩ (.cluster (some LoadBalancer.serverB)),
    .callbackCall, .callbackEnd]

private theorem reportAndRegister_done :
    (reportAndRegister.foldlM step (init sampleLeader)).isSome := by
  decide +kernel

end CenterServer

end LibEvRpc
