import LibEvRpc.Client.CenterClientHeartbeat
import LibEvRpc.Proofs.CallbackSteps
import LibEvRpc.Proofs.CenterSteps
import LibEvRpc.Proofs.RingAgreement

/-! # The servers a client knows

The request of a client does not name it, so the center looks up the empty address; a round parses the
response only if receiving it failed, so the list stays what the initialisation stored; and a call
that comes before the first server is stored computes a remainder by zero.
-/

namespace LibEvRpc

open BufferedCenter LoadBalancer

namespace CenterClientHeartbeat

/-! ## The first list -/

theorem serverList_eq_owner? (center : RpcCenter) (clientAddr : Bytes) :
    serverList center clientAddr =
      (center.loadBalancer.owner? (murMurHash2 clientAddr (Int32.ofNat clientAddr.length))).toList := by
  rw [serverList, getRpcServer_eq_owner?]
  cases center.loadBalancer.owner? (murMurHash2 clientAddr (Int32.ofNat clientAddr.length)) with
  | none => rfl
  | some addr => rfl

/-- The center answers the request of a client with the servers of the empty address. -/
theorem response_of_initRequest {answering : Answering} {state : BufferedCenter} {connFd : Int32}
    {routed : Routed} {response : ClientWithCenter}
    (answered : state.centerProcessor answering connFd (.client (some initRequest)) = some routed)
    (sent : .sent connFd (.client response) ∈ routed.effects) :
    response.clientCenterAction = .centerRespOk ∧
      response.clusterServerList = serverList state.center [] := by
  obtain ⟨made, found, rfl⟩ := Option.map_eq_some_iff.mp answered
  obtain ⟨centers, _, rfl⟩ := Option.map_eq_some_iff.mp found
  dsimp only at sent
  split at sent
  · rw [sendReply] at sent
    split at sent
    · simp only [if_true, List.mem_cons, List.not_mem_nil, or_false, RouteEffect.sent.injEq, true_and,
        Reply.client.injEq, reduceCtorEq] at sent
      subst sent
      exact ⟨rfl, rfl⟩
    · simp at sent
  · simp at sent

/-- The servers that the initialisation stores. -/
def InitOutside.servers (outside : InitOutside) : List Bytes :=
  match outside.received with
  | some (some cwcProto) =>
      if cwcProto.clientCenterAction = .centerRespOk then cwcProto.clusterServerList else []
  | none | some none => []

/-- The exchange leaves the list alone, and gives the servers of the response to be stored. -/
theorem initExchange_spec (outside : InitOutside) (client : CenterClientHeartbeat) :
    (initExchange outside client).1.clusterServerAddrsList = client.clusterServerAddrsList ∧
      ∀ servers, (initExchange outside client).2 = some servers → servers = outside.servers := by
  rw [initExchange, InitOutside.servers]
  split
  · exact ⟨rfl, fun _ failed => by contradiction⟩
  · dsimp only
    split
    · exact ⟨rfl, fun _ failed => by contradiction⟩
    · split
      · exact ⟨rfl, fun _ failed => by contradiction⟩
      · split
        · exact ⟨rfl, fun _ failed => by contradiction⟩
        · split
          · exact ⟨rfl, fun _ failed => by contradiction⟩
          · rcases outside.received with _ | _ | cwcProto
            · exact ⟨rfl, fun _ stored => (Option.some.inj stored).symm⟩
            · exact ⟨rfl, fun _ stored => (Option.some.inj stored).symm⟩
            · dsimp only
              split <;> exact ⟨rfl, fun _ stored => (Option.some.inj stored).symm⟩

/-- A client that initialised has the servers of the response behind its own. -/
theorem initCenterClientHB_servers {outside : InitOutside} {client after : CenterClientHeartbeat}
    (done : initCenterClientHB outside client = (true, after)) :
    after.clusterServerAddrsList = client.clusterServerAddrsList ++ outside.servers := by
  obtain ⟨kept, stored⟩ := initExchange_spec outside client
  rw [initCenterClientHB] at done
  split at done
  · cases done
  · next exchanged servers same =>
    rw [same] at kept stored
    cases done
    dsimp only
    rw [kept, stored servers rfl]

/-- The list that a client obtains is the one the contacted center has for its address exactly when the
center gives its address and the empty address to the same server. -/
theorem obtained_servers_iff {answering : Answering} {state : BufferedCenter} {connFd : Int32}
    {routed : Routed} {response : ClientWithCenter} {outside : InitOutside}
    {client : CenterClientHeartbeat}
    (answered : state.centerProcessor answering connFd (.client (some initRequest)) = some routed)
    (sent : .sent connFd (.client response) ∈ routed.effects)
    (received : outside.received = some (some response))
    (done : initCenterClientHB outside new = (true, client)) :
    client.clusterServerAddrsList = serverList state.center outside.localAddr ↔
      state.center.loadBalancer.owner? (murMurHash2 [] 0) =
        state.center.loadBalancer.owner?
          (murMurHash2 outside.localAddr (Int32.ofNat outside.localAddr.length)) := by
  obtain ⟨action, servers⟩ := response_of_initRequest answered sent
  rw [initCenterClientHB_servers done, InitOutside.servers, received]
  dsimp only
  rw [if_pos action, servers, serverList_eq_owner?, serverList_eq_owner?]
  constructor
  · intro same
    have first := congrArg List.head? same
    rwa [new, List.nil_append, Option.head?_toList, Option.head?_toList] at first
  · intro same
    rw [← same]
    rfl

/-- The center 10.0.0.1 with a ring of servers. -/
def sampleState (servers : List RpcClusterServer) : BufferedCenter where
  center := { RpcCenter.sampleCenter with loadBalancer := servers.foldl addRpcServer ⟨20, ∅⟩ }
  rpcServerBuf := []

def sampleOutside (localAddr : Bytes) (response : ClientWithCenter) : InitOutside :=
  ⟨some [RpcCenter.sampleAddress 1], localAddr, true, true, true, some (some response)⟩

def sampleResponse (servers : List RpcClusterServer) : ClientWithCenter :=
  { (((clientResponse (sampleState servers).center initRequest).getD {})) with
    clientCenterAction := .centerRespOk }

private theorem sampleState_answers (servers : List RpcClusterServer) :
    (sampleState servers).centerProcessor ⟨true, true⟩ 5 (.client (some initRequest)) =
      some ⟨sampleState servers, true, [.sent 5 (.client (sampleResponse servers)), .close 5]⟩ := by
  have found : (clientCenters 3 (lowerBound RpcCenter.sampleCenter.centerHashMap
      (murMurHash2 [] (Int32.ofNat ([] : Bytes).length)))).isSome := by decide +kernel
  have answers : (clientResponse (sampleState servers).center initRequest).isSome := by
    rw [clientResponse, initRequest]
    dsimp only
    rw [Option.isSome_map]
    exact found
  obtain ⟨response, shape⟩ := Option.isSome_iff_exists.mp answers
  rw [centerProcessor, processClientRequest, sampleResponse, shape]
  rfl

private theorem sampleResponse_spec (servers : List RpcClusterServer) :
    (sampleResponse servers).clientCenterAction = .centerRespOk ∧
      (sampleResponse servers).clusterServerList = serverList (sampleState servers).center [] :=
  response_of_initRequest (sampleState_answers servers) List.mem_cons_self

private theorem sampleOutside_done {localAddr : Bytes} (response : ClientWithCenter)
    (other : CString.ofBuffer (RpcCenter.sampleAddress 1) ≠ CString.ofBuffer localAddr) :
    initCenterClientHB (sampleOutside localAddr response) new =
      (true, (initCenterClientHB (sampleOutside localAddr response) new).2) := by
  refine Prod.ext ?_ rfl
  obtain ⟨_, action, _, _⟩ := response
  cases action <;> simp [initCenterClientHB, initExchange, sampleOutside, new, other]

/-- On the ring of two servers the client gets the server of the empty address and not its own. -/
theorem obtained_servers_differ :
    ∃ routed client, (sampleState [serverA, serverB]).centerProcessor ⟨true, true⟩ 5
        (.client (some initRequest)) = some routed ∧
      .sent 5 (.client (sampleResponse [serverA, serverB])) ∈ routed.effects ∧
      initCenterClientHB (sampleOutside (inetNtoa (10, 0, 2, 1)) (sampleResponse [serverA, serverB]))
        new = (true, client) ∧
      client.clusterServerAddrsList = [serverB.clusterServerAddr] ∧
      serverList (sampleState [serverA, serverB]).center (inetNtoa (10, 0, 2, 1)) =
        [serverA.clusterServerAddr] := by
  refine ⟨_, _, sampleState_answers _, List.mem_cons_self, sampleOutside_done _ (by decide), ?_,
    by decide +kernel⟩
  obtain ⟨action, servers⟩ := sampleResponse_spec [serverA, serverB]
  rw [initCenterClientHB_servers (sampleOutside_done _ (by decide)), InitOutside.servers, sampleOutside]
  dsimp only
  rw [if_pos action, servers]
  decide +kernel

/-- On the same ring the client `10.0.2.4` and the empty address share a server. -/
theorem obtained_servers_iff_sample :
    (initCenterClientHB (sampleOutside (inetNtoa (10, 0, 2, 4)) (sampleResponse [serverA, serverB]))
        new).2.clusterServerAddrsList =
      serverList (sampleState [serverA, serverB]).center (inetNtoa (10, 0, 2, 4)) :=
  (obtained_servers_iff (sampleState_answers [serverA, serverB]) List.mem_cons_self rfl
    (sampleOutside_done _ (by decide))).mpr (by decide +kernel)

/-! ## The list behind a round -/

/-- The response of the round arrived, complete and well formed. -/
def Round.Complete (round : Round) : Prop :=
  round.serializes ∧ round.connects ∧ round.sends ∧ 0 ≤ round.recvRet ∧ round.parsed.isSome

/-- The servers of the response. -/
def Round.servers (round : Round) : List Bytes := (round.parsed.getD {}).clusterServerList

/-- A complete response is not parsed. -/
theorem runRound_of_complete (client : CenterClientHeartbeat) {round : Round}
    (complete : round.Complete) :
    (client.runRound round).clusterServerAddrsList = client.clusterServerAddrsList := by
  obtain ⟨serializes, connects, sends, received, _⟩ := complete
  simp [runRound, serializes, connects, sends, received, updateAddrs]

theorem runRounds_of_complete (client : CenterClientHeartbeat) {rounds : List Round}
    (complete : ∀ round ∈ rounds, round.Complete) :
    (rounds.foldl runRound client).clusterServerAddrsList = client.clusterServerAddrsList := by
  induction rounds generalizing client with
  | nil => rfl
  | cons round rounds ih =>
    obtain ⟨first, rest⟩ := List.forall_mem_cons.mp complete
    rw [List.foldl_cons, ih (client.runRound round) rest, runRound_of_complete client first]

/-- Over rounds with complete responses the client has the servers of each response behind its round
exactly when every response has the servers that the client had before. -/
theorem servers_follow_iff (client : CenterClientHeartbeat) {rounds : List Round}
    (complete : ∀ round ∈ rounds, round.Complete) :
    (∀ before round, before ++ [round] <+: rounds →
        ((before ++ [round]).foldl runRound client).clusterServerAddrsList = round.servers) ↔
      ∀ round ∈ rounds, round.servers = client.clusterServerAddrsList := by
  constructor
  · intro follows round member
    obtain ⟨before, after, rfl⟩ := List.append_of_mem member
    have front : before ++ [round] <+: before ++ round :: after := ⟨after, by simp⟩
    rw [← follows before round front]
    exact runRounds_of_complete client fun other listed => complete other (front.subset listed)
  · intro same before round front
    have listed : round ∈ rounds := front.subset (List.mem_append_right before (List.mem_singleton_self round))
    rw [same round listed]
    exact runRounds_of_complete client fun other member => complete other (front.subset member)

/-- A round with a complete response that names some servers. -/
def sampleRound (servers : List RpcClusterServer) : Round where
  serializes := true
  connects := true
  sends := true
  recvRet := 101
  parsed := some { clusterServerList := servers.map RpcClusterServer.clusterServerAddr }

/-- The client keeps its first server, whatever the response says. -/
theorem servers_not_followed :
    (sampleRound [serverB]).Complete ∧ (sampleRound [serverB]).servers = [serverB.clusterServerAddr] ∧
      ([sampleRound [serverB]].foldl runRound
        { new with clusterServerAddrsList := [serverA.clusterServerAddr] }).clusterServerAddrsList =
          [serverA.clusterServerAddr] :=
  ⟨by simp [Round.Complete, sampleRound], rfl, rfl⟩

/-- Two rounds whose responses name the servers the client has. -/
theorem servers_follow_iff_sample :
    (∀ round ∈ [sampleRound [serverA], sampleRound [serverA]],
      round.servers = [serverA.clusterServerAddr]) ∧
      ∀ before round, before ++ [round] <+: [sampleRound [serverA], sampleRound [serverA]] →
        ((before ++ [round]).foldl runRound
          { new with clusterServerAddrsList := [serverA.clusterServerAddr] }).clusterServerAddrsList =
            round.servers := by
  have same : ∀ round ∈ [sampleRound [serverA], sampleRound [serverA]],
      round.servers = [serverA.clusterServerAddr] := by decide
  exact ⟨same, (servers_follow_iff _ (by simp [Round.Complete, sampleRound])).mpr same⟩

end CenterClientHeartbeat

namespace DistributedClient

open CenterClientHeartbeat

/-! ## Calls in front of the first server -/

/-- No remainder by zero was computed, no index was outside the list, and no call has read the list
while it was changed. -/
def Safe (client : DistributedClient) : Prop :=
  client.zeroRemainder = false ∧ client.outside = false ∧ client.torn = false

/-- A step that puts a server into the list. -/
def Action.Stores : Action → Prop
  | .storeServer => True
  | .round made => made.serializes ∧ made.connects ∧ made.sends ∧ ¬ 0 ≤ made.recvRet ∧
      ∃ cwcProto, made.parsed = some cwcProto ∧ cwcProto.clusterServerList ≠ []
  | .initialise _ | .pushBack | .enterLoop | .remainder _ | .index _ => False

/-- A step of `RandomGetRpcServerAddr`, which reads the list. -/
def Action.Reads : Action → Prop
  | .remainder _ | .index _ => True
  | .initialise _ | .pushBack | .storeServer | .enterLoop | .round _ => False

/-- A step that reads the list comes behind one that has put a server there, and not inside a
`push_back`. -/
def ReadsStored (before : List Action) (client : DistributedClient) (action : Action) : Prop :=
  action.Reads → (∃ earlier ∈ before, earlier.Stores) ∧ ¬ client.phase.isPushing

/-- The list has a server exactly when a step has put one there, and the indices of the calls are
inside. -/
structure Counted (before : List Action) (client : DistributedClient) : Prop where
  stored : client.heartbeat.clusterServerAddrsList ≠ [] ↔ ∃ action ∈ before, action.Stores
  picking : ∀ random ∈ client.picking, random < client.heartbeat.clusterServerAddrsList.length
  inside : client.outside = false

/-- What a round puts into the list. -/
theorem runRound_servers (client : CenterClientHeartbeat) (round : Round) :
    ∃ servers, (client.runRound round).clusterServerAddrsList =
        client.clusterServerAddrsList ++ servers ∧ (servers ≠ [] ↔ (Action.round round).Stores) := by
  rw [runRound, Action.Stores]
  cases serializes : round.serializes with
  | false => exact ⟨[], by simp⟩
  | true =>
    cases connects : round.connects with
    | false => exact ⟨[], by simp⟩
    | true =>
      cases sends : round.sends with
      | false => exact ⟨[], by simp⟩
      | true =>
        by_cases received : 0 ≤ round.recvRet
        · exact ⟨[], by simp [received, updateAddrs]⟩
        · cases parsed : round.parsed with
          | none => exact ⟨[], by simp [received]⟩
          | some cwcProto => exact ⟨cwcProto.clusterServerList, by simp [received, updateAddrs]⟩

/-- A step that leaves the list alone. -/
theorem Counted.quiet {before : List Action} {client next : DistributedClient} {action : Action}
    (counted : client.Counted before) (silent : ¬ action.Stores)
    (same : next.heartbeat.clusterServerAddrsList = client.heartbeat.clusterServerAddrsList)
    (picking : ∀ random ∈ next.picking, random ∈ client.picking ∨
      random < client.heartbeat.clusterServerAddrsList.length)
    (inside : next.outside = false) : next.Counted (before ++ [action]) where
  stored := by
    rw [same, counted.stored]
    simp only [List.mem_append, List.mem_singleton]
    constructor
    · rintro ⟨earlier, member, stores⟩
      exact ⟨earlier, .inl member, stores⟩
    · rintro ⟨earlier, member | rfl, stores⟩
      · exact ⟨earlier, member, stores⟩
      · exact absurd stores silent
  picking random member := by
    rw [same]
    rcases picking random member with old | new
    · exact counted.picking random old
    · exact new
  inside := inside

/-- A step that puts servers behind the list. -/
theorem Counted.append {before : List Action} {client next : DistributedClient} {action : Action}
    {servers : List Bytes} (counted : client.Counted before) (stores : servers ≠ [] ↔ action.Stores)
    (same : next.heartbeat.clusterServerAddrsList =
      client.heartbeat.clusterServerAddrsList ++ servers)
    (picking : next.picking = client.picking) (inside : next.outside = client.outside) :
    next.Counted (before ++ [action]) where
  stored := by
    rw [same, ne_eq, List.append_eq_nil_iff, not_and_or, ← ne_eq, ← ne_eq, counted.stored, stores]
    simp only [List.mem_append, List.mem_singleton, or_and_right, exists_or, exists_eq_left]
  picking random member := by
    have bound := counted.picking random (picking ▸ member)
    rw [same, List.length_append]
    omega
  inside := inside.trans counted.inside

/-- A step counts what it stores. -/
theorem counted_advance {before : List Action} {client next : DistributedClient} {action : Action}
    (counted : client.Counted before) (success : client.advance action = some next) :
    next.Counted (before ++ [action]) := by
  cases action with
  | initialise outside =>
    obtain ⟨kept, _⟩ := initExchange_spec outside client.heartbeat
    obtain ⟨_, success⟩ := Option.ite_none_right_eq_some.mp success
    split at success
    · next heartbeat same =>
      rw [same] at kept
      cases success
      exact counted.quiet id kept (fun _ => .inl) counted.inside
    · next heartbeat servers same =>
      rw [same] at kept
      cases success
      exact counted.quiet id kept (fun _ => .inl) counted.inside
  | pushBack =>
    rw [advance] at success
    split at success
    · cases success
      exact counted.quiet id rfl (fun _ => .inl) counted.inside
    all_goals contradiction
  | storeServer =>
    rw [advance] at success
    split at success
    · next server servers _ =>
      cases success
      exact @Counted.append _ _ _ _ [server] counted (by simp [Action.Stores]) rfl rfl rfl
    all_goals contradiction
  | enterLoop =>
    obtain ⟨_, same⟩ := Option.ite_none_right_eq_some.mp success
    cases same
    exact counted.quiet id rfl (fun _ => .inl) counted.inside
  | round made =>
    obtain ⟨_, same⟩ := Option.ite_none_right_eq_some.mp success
    cases same
    obtain ⟨servers, same, stores⟩ := runRound_servers client.heartbeat made
    exact counted.append stores same rfl rfl
  | remainder rand =>
    rw [advance] at success
    split at success
    · cases success
      exact counted.quiet id rfl (fun _ => .inl) counted.inside
    · split at success
      · cases success
        exact counted.quiet id rfl (fun _ => .inl) counted.inside
      · next size length =>
        cases success
        refine counted.quiet id rfl ?_ counted.inside
        intro random member
        rcases List.mem_append.mp member with old | new
        · exact .inl old
        · rw [List.mem_singleton.mp new, length]
          exact .inr (Nat.mod_lt rand (Nat.succ_pos size))
  | index random =>
    obtain ⟨picked, success⟩ := Option.ite_none_right_eq_some.mp success
    split at success
    · cases success
      exact counted.quiet id rfl (fun _ => .inl) counted.inside
    · cases success
      refine counted.quiet id rfl (fun other member => .inl ?_) ?_
      · exact List.mem_of_mem_erase member
      · have bound := counted.picking random picked
        dsimp only
        rw [List.getElem?_eq_getElem bound]
        rfl

/-- A step from a safe state is safe exactly when it reads a list with a server and not inside a
`push_back`. -/
theorem safe_advance_iff {before : List Action} {client next : DistributedClient} {action : Action}
    (counted : client.Counted before) (safe : client.Safe)
    (success : client.advance action = some next) :
    next.Safe ↔ ReadsStored before client action := by
  have inside := (counted_advance counted success).inside
  obtain ⟨zero, _, untorn⟩ := safe
  cases action with
  | initialise outside =>
    obtain ⟨_, success⟩ := Option.ite_none_right_eq_some.mp success
    refine iff_of_true ?_ nofun
    split at success
    · cases success
      exact ⟨zero, inside, untorn⟩
    · cases success
      exact ⟨zero, inside, untorn⟩
  | pushBack =>
    rw [advance] at success
    split at success
    · cases success
      exact iff_of_true ⟨zero, inside, untorn⟩ nofun
    all_goals contradiction
  | storeServer =>
    rw [advance] at success
    split at success
    · cases success
      exact iff_of_true ⟨zero, inside, untorn⟩ nofun
    all_goals contradiction
  | enterLoop | round =>
    obtain ⟨_, same⟩ := Option.ite_none_right_eq_some.mp success
    cases same
    exact iff_of_true ⟨zero, inside, untorn⟩ nofun
  | remainder rand =>
    rw [advance] at success
    split at success
    · next pushing =>
      cases success
      exact iff_of_false (fun safe => Bool.noConfusion safe.2.2) fun kept => (kept trivial).2 pushing
    · next unchanged =>
      split at success
      · next empty =>
        cases success
        refine iff_of_false (fun safe => Bool.noConfusion safe.1) fun kept => ?_
        exact counted.stored.mpr (kept trivial).1 (List.eq_nil_of_length_eq_zero empty)
      · next size length =>
        cases success
        refine iff_of_true ⟨zero, inside, untorn⟩ fun _ => ⟨counted.stored.mp ?_, unchanged⟩
        rintro empty
        rw [empty] at length
        contradiction
  | index random =>
    obtain ⟨picked, success⟩ := Option.ite_none_right_eq_some.mp success
    have bound := counted.picking random picked
    have stored := counted.stored.mp (List.ne_nil_of_length_pos (Nat.zero_lt_of_lt bound))
    split at success
    · next pushing =>
      cases success
      exact iff_of_false (fun safe => Bool.noConfusion safe.2.2) fun kept => (kept trivial).2 pushing
    · next unchanged =>
      cases success
      exact iff_of_true ⟨zero, inside, untorn⟩ fun _ => ⟨stored, unchanged⟩

theorem advance_of_step {client next : DistributedClient} {action : Action}
    (success : client.step action = some next) : client.advance action = some next :=
  (Option.ite_none_left_eq_some.mp success).2

theorem counted_init : init.Counted [] where
  stored := by simp [init, new]
  picking _ member := absurd member List.not_mem_nil
  inside := rfl

theorem counted_run {before : List Action} {client : DistributedClient}
    (run : Run step init before client) : client.Counted before := by
  induction run with
  | nil => exact counted_init
  | snoc run success ih => exact counted_advance ih (advance_of_step success)

/-- In a run of the heartbeat thread and of calls no remainder by zero is computed, no index is outside
the list and the list is not read while it is changed, exactly when every call reads it behind the
first server and not inside a `push_back`. -/
theorem safe_iff {actions : List Action} {final : DistributedClient}
    (run : Run step init actions final) :
    (∀ before client, before <+: actions → Run step init before client → client.Safe) ↔
      Throughout step init ReadsStored actions := by
  rw [Run.forall_prefix_iff, and_iff_right (show init.Safe from ⟨rfl, rfl, rfl⟩)]
  refine @Run.throughout_congr_of_invariant _ _ _ _ _ _
    (fun before client => client.Counted before ∧ client.Safe) _ _ run ⟨counted_init, rfl, rfl, rfl⟩ ?_ ?_
  · rintro before client action next ⟨counted, safe⟩ success
    rw [← safe_advance_iff counted safe (advance_of_step success)]
    constructor
    · exact fun kept => kept next success
    · intro kept other again
      rw [← Option.some.inj (success.symm.trans again)]
      exact kept
  · rintro before client action next ⟨counted, safe⟩ kept success
    have advanced := advance_of_step success
    exact ⟨counted_advance counted advanced, (safe_advance_iff counted safe advanced).mpr kept⟩

/-- Two servers are stored, and the client calls inside the second `push_back`. -/
def callInPush : List Action :=
  [.initialise (sampleOutside (inetNtoa (10, 0, 2, 1))
      { clientCenterAction := .centerRespOk
        clusterServerList := [serverA.clusterServerAddr, serverB.clusterServerAddr] }),
    .pushBack, .storeServer, .pushBack, .remainder 7]

/-- The client calls before its heartbeat thread has done anything, or while the list is changed. -/
theorem call_before_heartbeat :
    (∃ final, Run step init [.remainder 7] final ∧ final.zeroRemainder = true) ∧
      ∃ final, Run step init callInPush final ∧ final.torn = true :=
  ⟨⟨_, Run.of_foldlM rfl, rfl⟩, ⟨_, Run.of_foldlM rfl, rfl⟩⟩

/-- Two servers are stored, and the client calls between the two and behind them. -/
def callsBetween : List Action :=
  [.initialise (sampleOutside (inetNtoa (10, 0, 2, 1))
      { clientCenterAction := .centerRespOk
        clusterServerList := [serverA.clusterServerAddr, serverB.clusterServerAddr] }),
    .pushBack, .storeServer, .remainder 7, .index 0, .pushBack, .storeServer, .remainder 7, .index 1]

instance : DecidablePred Action.Reads := fun action =>
  match action with
  | .remainder _ | .index _ => isTrue trivial
  | .initialise _ | .pushBack | .storeServer | .enterLoop | .round _ => isFalse id

private theorem callsBetween_kept :
    (callsBetween.foldlM (Run.guarded step fun client action => action.Reads →
      client.heartbeat.clusterServerAddrsList ≠ [] ∧ ¬ client.phase.isPushing) init).isSome := by
  decide +kernel

theorem safe_iff_sample :
    ∃ final, Run step init callsBetween final ∧
      ∀ before client, before <+: callsBetween → Run step init before client → client.Safe := by
  obtain ⟨run, met⟩ := (Run.of_isSome callsBetween_kept).of_guarded
  refine ⟨_, run, (safe_iff run).mpr fun before action client front reached reads => ?_⟩
  obtain ⟨stored, unchanged⟩ := met before action client front reached reads
  exact ⟨(counted_run reached).stored.mp stored, unchanged⟩

end DistributedClient

end LibEvRpc
