import LibEvRpc.Center.CenterProcessor
import LibEvRpc.Center.Cluster

/-! # What a callback does

The branches of `CenterProcessor`: the state behind each of them, and its effects.
-/

namespace LibEvRpc

namespace BufferedCenter

variable {answering : Answering} {state : BufferedCenter} {connFd : Int32} {routed : Routed}

theorem processCenterRequest_state (answering : Answering) (state : BufferedCenter)
    (connFd : Int32) (received : CentersProto) :
    (processCenterRequest answering state connFd received).state = state := by
  rw [processCenterRequest]
  cases received.centerAction with
  | inquiry | proposal | leaderConfirm | accept | refused => rfl
  | followerPing | leaderPingResponse | centerReporter =>
    dsimp only
    split
    · split <;> rfl
    · rfl

/-- A message of the election is queued as it is, and any other one is refused, or queued empty. -/
theorem processCenterRequest_effects (answering : Answering) (state : BufferedCenter)
    (connFd : Int32) (received : CentersProto) :
    (processCenterRequest answering state connFd received).effects =
      if Cluster.isElection received.centerAction then [.pushElectionMessage connFd received]
      else if state.center.centerStatus = .leading then [.pushFollowerMessage connFd {}]
      else if answering.serializes then
        sendReply answering.sends connFd
          (.center { fromCenterAddr := state.center.localAddress, centerAction := .refused }) false
      else [] := by
  rw [processCenterRequest]
  cases received.centerAction with
  | inquiry | proposal | leaderConfirm | accept | refused => rfl
  | followerPing | leaderPingResponse | centerReporter =>
    simp only [Cluster.isElection, Bool.false_eq_true, if_false, ite_not]
    split
    · rfl
    · split <;> rfl

theorem processClientRequest_spec {cwcProto : ClientWithCenter}
    (success : processClientRequest answering state connFd cwcProto = some routed) :
    routed.state = state ∧ ∃ response, routed.effects =
      if answering.serializes then sendReply answering.sends connFd (.client response) true
      else [.close connFd] := by
  obtain ⟨response, _, rfl⟩ := Option.map_eq_some_iff.mp success
  refine ⟨?_, { response with clientCenterAction := .centerRespOk }, ?_⟩
  · split <;> rfl
  · split <;> rfl

/-- Only a registration changes the center, and it is answered. -/
theorem processClusterRequest_spec {rpcClusterServer : RpcClusterServer}
    (success : processClusterRequest answering state connFd rpcClusterServer = some routed) :
    (rpcClusterServer.clusterAction = .clusterPing ∧ routed.state = state ∧ routed.effects = []) ∨
      rpcClusterServer.clusterAction = .register ∧
      (routed.state = if state.center.centerStatus = .leading then
          { state with center := { state.center with
            loadBalancer := state.center.loadBalancer.addRpcServer rpcClusterServer } }
        else state.addRpcServerToBuf rpcClusterServer) ∧
      ∃ crc, routed.effects =
        if answering.serializes then sendReply answering.sends connFd (.cluster crc) false else [] := by
  rw [processClusterRequest] at success
  cases action : rpcClusterServer.clusterAction with
  | clusterPing =>
    rw [action] at success
    cases success
    exact .inl ⟨rfl, rfl, rfl⟩
  | register =>
    rw [action] at success
    obtain ⟨centers, _, rfl⟩ := Option.map_eq_some_iff.mp success
    refine .inr ⟨rfl, ?_, { centerResponseAction := .clusterResp, shouldReporterCenter := centers }, ?_⟩
    · split <;> rfl
    · split <;> rfl

/-- The branches for the type of the message. -/
theorem centerProcessor_cases {incoming : Incoming}
    (success : state.centerProcessor answering connFd incoming = some routed) :
    (incoming = .failed ∧ routed = ⟨state, false, [.close connFd]⟩) ∨
    ((incoming = .other ∨ incoming = .center none ∨ incoming = .client none ∨
      incoming = .cluster none ∧ centerIsReady state.center) ∧ routed = ⟨state, false, []⟩) ∨
    (∃ received, incoming = .center (some received) ∧
      routed = processCenterRequest answering state connFd received) ∨
    (∃ cwcProto, incoming = .client (some cwcProto) ∧
      processClientRequest answering state connFd cwcProto = some routed) ∨
    (∃ received, incoming = .cluster received ∧ centerIsReady state.center = false ∧
      routed = ⟨state, false, sendReply answering.sends connFd
        (.cluster { centerResponseAction := .centerNotReady }) false⟩) ∨
    ∃ rpcClusterServer, incoming = .cluster (some rpcClusterServer) ∧ centerIsReady state.center ∧
      processClusterRequest answering state connFd rpcClusterServer = some routed := by
  cases incoming with
  | failed =>
    cases success
    exact .inl ⟨rfl, rfl⟩
  | other =>
    cases success
    exact .inr (.inl ⟨.inl rfl, rfl⟩)
  | center centersProto? =>
    cases centersProto? with
    | none =>
      cases success
      exact .inr (.inl ⟨.inr (.inl rfl), rfl⟩)
    | some received =>
      cases success
      exact .inr (.inr (.inl ⟨received, rfl, rfl⟩))
  | client cwcProto? =>
    cases cwcProto? with
    | none =>
      cases success
      exact .inr (.inl ⟨.inr (.inr (.inl rfl)), rfl⟩)
    | some cwcProto => exact .inr (.inr (.inr (.inl ⟨cwcProto, rfl, success⟩)))
  | cluster rpcClusterServer? =>
    rw [centerProcessor.eq_def] at success
    dsimp only at success
    split at success
    · next notReady =>
      cases success
      rw [Bool.not_eq_true'] at notReady
      exact .inr (.inr (.inr (.inr (.inl ⟨_, rfl, notReady, rfl⟩))))
    · next ready =>
      rw [Bool.not_eq_true', Bool.not_eq_false] at ready
      cases rpcClusterServer? with
      | none =>
        cases success
        exact .inr (.inl ⟨.inr (.inr (.inr ⟨rfl, ready⟩)), rfl⟩)
      | some rpcClusterServer =>
        exact .inr (.inr (.inr (.inr (.inr ⟨rpcClusterServer, rfl, ready, success⟩))))

end BufferedCenter

end LibEvRpc
