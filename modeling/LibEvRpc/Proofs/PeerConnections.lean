import LibEvRpc.Center.PeerConnections
import LibEvRpc.Proofs.Framing
import LibEvRpc.Proofs.Inquiry
import LibEvRpc.Proofs.ReceivedBlocks

/-! # Descriptors that are closed once

An inquiry leaves the descriptor open when nothing is received, a broadcast closes it twice when
nothing is sent, and a round of the heartbeat closes it twice whenever there is one: behind a failed
`RpcSend`, which closed it, and behind `RpcRecv`, which was asked to. Descriptor 0 counts as a failed
connection and is left open by the first two.
-/

namespace LibEvRpc

/-! ## One visit -/

namespace Connection

variable {α : Type}

/-- Some call of `send` for a message fails. -/
def SendFails (connection : Connection α) (info : Bytes) : Prop :=
  ∃ k < sendCount info, connection.send k = false

/-- An inquiry gets no descriptor, or one other than 0 with which sending fails or receiving does not. -/
def InquiryCloses (connection : Connection α) (inquiryStr : Bytes) : Prop :=
  connection.connFd < 0 ∨
    0 < connection.connFd ∧ (connection.SendFails inquiryStr ∨ ¬ RecvFails connection.events)

/-- A broadcast gets no descriptor, or one other than 0 with which sending does not fail. -/
def BroadcastCloses (connection : Connection α) (bcInfo : Bytes) : Prop :=
  connection.connFd < 0 ∨ 0 < connection.connFd ∧ ¬ connection.SendFails bcInfo

end Connection

private theorem center2Center_valid : ¬ center2Center < 0 := by decide

private theorem center2Client_valid : ¬ center2Client < 0 := by decide

/-- Descriptors that are not positive are not there or 0. -/
private theorem unconnected_iff {fd : Int32} (refused : fd ≤ 0) (property : Prop) :
    (fd < 0 ∨ 0 < fd ∧ property) ↔ ¬ 0 ≤ fd := by
  have positive : ¬ 0 < fd := Int32.not_lt.mpr refused
  rw [Int32.not_le]
  simp [positive]

private theorem connected_iff {fd : Int32} (connected : ¬ fd ≤ 0) (property : Prop) :
    (fd < 0 ∨ 0 < fd ∧ property) ↔ property := by
  have positive : 0 < fd := Int32.not_le.mp connected
  have nonneg : ¬ fd < 0 := Int32.not_lt.mpr (Int32.le_of_lt positive)
  simp [positive, nonneg]

/-! ## A loop over visits -/

/-- What each step of a loop says about the visits it makes holds for the visits of the whole loop, if
the steps in front of an item do not change what it is to be for it. -/
theorem closedOnce_of_foldlM {σ ι : Type} {step : σ → ι → Option σ} {visits : σ → List Visit}
    {closes : σ → ι → Prop}
    (each : ∀ state item next, step state item = some next →
      ∃ made, visits next = visits state ++ made ∧
        ((∀ visit ∈ made, visit.ClosedOnce) ↔ closes state item))
    (stable : ∀ state item next other, step state item = some next → closes state item →
      (closes next other ↔ closes state other))
    {items : List ι} {state final : σ} (success : items.foldlM step state = some final) :
    ∃ made, visits final = visits state ++ made ∧
      ((∀ visit ∈ made, visit.ClosedOnce) ↔ ∀ item ∈ items, closes state item) := by
  induction items generalizing state with
  | nil =>
    cases success
    exact ⟨[], (List.append_nil _).symm, by simp⟩
  | cons item rest ih =>
    rw [List.foldlM_cons] at success
    obtain ⟨next, first, success⟩ := Option.bind_eq_some_iff.mp success
    obtain ⟨made, front, here⟩ := each state item next first
    obtain ⟨more, back, later⟩ := ih success
    refine ⟨made ++ more, by rw [back, front, List.append_assoc], ?_⟩
    rw [List.forall_mem_append, List.forall_mem_cons, here, later]
    apply and_congr_right
    intro met
    apply forall₂_congr
    intro other _
    exact stable state item next other first met

/-! ## The inquiry -/

def Peer.closed (peer : Peer) : List Int32 :=
  if peer.accepts ∧ peer.exchange ≠ .recvFails then [peer.connFd] else []

namespace RpcCenter

variable {inquiryStr : Bytes} {connections : Bytes → Connection CentersProto} {center : RpcCenter}
  {visits : List Visit} {addr : Bytes} {next : RpcCenter × List Visit}

/-- An iteration is one of the loop over peers, with what the exchange comes to. -/
theorem inquireVisit_spec (inquiry : CentersProto) (calls : List InquiryCall)
    (success : inquireVisit inquiryStr connections (center, visits) addr = some next) :
    ∃ exchange : Exchange,
      (center.inquired addr → 0 < (connections addr).connFd →
        (exchange = .recvFails ↔
          ¬ (connections addr).SendFails inquiryStr ∧ RecvFails (connections addr).events)) ∧
      next = ((inquireCenter inquiry (fun _ => ⟨(connections addr).connFd, exchange⟩)
          ⟨center, calls⟩ addr).center,
        visits ++ if center.inquired addr then
          [⟨(connections addr).connFd, Peer.closed ⟨(connections addr).connFd, exchange⟩⟩]
        else []) := by
  rw [inquireVisit] at success
  dsimp only at success
  cases asked : center.inquired addr with
  | false =>
    rw [asked] at success
    cases success
    refine ⟨.malformed, fun contradictory => by contradiction, ?_⟩
    simp [inquireCenter, asked]
  | true =>
    rw [asked] at success
    simp only [Bool.not_true, Bool.false_eq_true, if_false] at success
    split at success
    · next refused =>
      cases success
      refine ⟨.malformed, fun _ positive => absurd refused (Int32.not_le.mpr positive), ?_⟩
      simp [inquireCenter, asked, refused, Peer.closed, Peer.accepts]
    · next connected =>
      obtain ⟨sent, sending, success⟩ := Option.bind_eq_some_iff.mp success
      obtain ⟨failure, closed⟩ := rpcSend_of_some center2Center_valid sending
      split at success
      · next failed =>
        cases success
        rw [if_pos failed] at closed
        refine ⟨.sendFails, fun _ _ => iff_of_false (by simp) (not_and.mpr fun sends => ?_), ?_⟩
        · exact absurd (failure.mp failed) sends
        · simp [inquireCenter, asked, connected, Peer.closed, Peer.accepts, Visit.close, closed]
      · next done =>
        rw [if_neg done] at closed
        have sends : ¬ (connections addr).SendFails inquiryStr := failure.not.mp done
        obtain ⟨received, receiving, success⟩ := Option.bind_eq_some_iff.mp success
        have kept := rpcRecv_closes receiving
        have result := rpcRecv_neg_iff receiving
        split at success
        · next failed =>
          cases success
          refine ⟨.recvFails, fun _ _ => iff_of_true rfl ⟨sends, result.mp failed⟩, ?_⟩
          simp [inquireCenter, asked, connected, Peer.closed, Visit.close, closed, kept]
        · next arrived =>
          have receives : ¬ RecvFails (connections addr).events := result.not.mp arrived
          split at success
          · cases success
            refine ⟨.malformed, fun _ _ => iff_of_false (by simp) fun both => receives both.2, ?_⟩
            simp [inquireCenter, asked, connected, Peer.closed, Peer.accepts, Visit.close, closed,
              kept]
          · next responseProto _ =>
            cases success
            refine ⟨.response responseProto,
              fun _ _ => iff_of_false (by simp) fun both => receives both.2, ?_⟩
            simp [inquireCenter, asked, connected, Peer.closed, Peer.accepts, Visit.close, closed,
              kept]

/-- The descriptor of an iteration is closed once exactly when the outcomes of its calls close it. -/
theorem inquireVisit_made
    (success : inquireVisit inquiryStr connections (center, visits) addr = some next) :
    ∃ made, next.2 = visits ++ made ∧ ((∀ visit ∈ made, visit.ClosedOnce) ↔
      (center.inquired addr → (connections addr).InquiryCloses inquiryStr)) := by
  obtain ⟨exchange, received, rfl⟩ := inquireVisit_spec {} [] success
  refine ⟨_, rfl, ?_⟩
  split
  · next asked =>
    rw [List.forall_mem_singleton, imp_iff_right asked, Connection.InquiryCloses]
    by_cases refused : (connections addr).connFd ≤ 0
    · rw [unconnected_iff refused]
      simp [Visit.ClosedOnce, Peer.closed, Peer.accepts, refused]
    · rw [connected_iff refused]
      have positive : 0 < (connections addr).connFd := Int32.not_le.mp refused
      have nonneg : 0 ≤ (connections addr).connFd := Int32.le_of_lt positive
      have failing := received asked positive
      by_cases failed : exchange = .recvFails
      · have leaves := failing.mp failed
        simp [Visit.ClosedOnce, Peer.closed, failed, nonneg, leaves]
      · have closes := failing.not.mp failed
        rw [not_and_or, not_not] at closes
        refine iff_of_true (fun _ => ?_) closes
        simp [Peer.closed, Peer.accepts, refused, failed]
  · next other => simp [other]

/-- What a center is to do is the same behind an iteration on another one, and behind one on itself that
closes the descriptor. -/
theorem inquireVisit_stable {other : Bytes}
    (success : inquireVisit inquiryStr connections (center, visits) addr = some next)
    (closes : center.inquired addr → (connections addr).InquiryCloses inquiryStr) :
    (next.1.inquired other → (connections other).InquiryCloses inquiryStr) ↔
      (center.inquired other → (connections other).InquiryCloses inquiryStr) := by
  obtain ⟨exchange, _, rfl⟩ := inquireVisit_spec {} [] success
  rcases eq_or_ne other addr with rfl | differ
  · cases asked : center.inquired other with
    | false => simp [inquireCenter, asked]
    | true => exact iff_of_true (fun _ => closes asked) (fun _ => closes asked)
  · rw [inquireCenter_inquired_ne _ _ _ differ]

theorem inquireVisits_closedOnce {serialize : CentersProto → Option Bytes} {order : List Bytes}
    {ret : Bool} {after : RpcCenter}
    (success : center.inquireVisits serialize connections order = some (ret, after, visits)) :
    (∀ visit ∈ visits, visit.ClosedOnce) ↔
      ∀ inquiryStr, serialize center.inquiryProto = some inquiryStr →
        ∀ addr ∈ order, center.inquired addr → (connections addr).InquiryCloses inquiryStr := by
  rw [inquireVisits] at success
  cases text : serialize center.inquiryProto with
  | none =>
    rw [text] at success
    cases success
    simp
  | some inquiryStr =>
    rw [text] at success
    obtain ⟨final, looped, same⟩ := Option.map_eq_some_iff.mp success
    cases same
    obtain ⟨made, all, closes⟩ := @closedOnce_of_foldlM _ _ (inquireVisit inquiryStr connections)
      Prod.snd (fun state addr => state.1.inquired addr → (connections addr).InquiryCloses inquiryStr)
      (fun _ _ _ => inquireVisit_made) (fun _ _ _ _ => inquireVisit_stable) _ _ _ looped
    obtain rfl : visits = made := all
    simpa using closes

/-! ## The broadcast -/

theorem broadcastVisit_made {bcInfo : Bytes} {after : List Visit}
    (success : broadcastVisit bcInfo connections visits addr = some after) :
    ∃ made, after = visits ++ made ∧ ((∀ visit ∈ made, visit.ClosedOnce) ↔
      (connections addr).BroadcastCloses bcInfo) := by
  rw [broadcastVisit] at success
  split at success
  · next refused =>
    cases success
    refine ⟨_, rfl, ?_⟩
    rw [List.forall_mem_singleton, Connection.BroadcastCloses, unconnected_iff refused]
    simp [Visit.ClosedOnce]
  · next connected =>
    obtain ⟨sent, sending, rfl⟩ := Option.map_eq_some_iff.mp success
    obtain ⟨failure, closed⟩ := rpcSend_of_some center2Center_valid sending
    have nonneg : 0 ≤ (connections addr).connFd := Int32.le_of_lt (Int32.not_le.mp connected)
    refine ⟨_, rfl, ?_⟩
    rw [List.forall_mem_singleton, Connection.BroadcastCloses, connected_iff connected,
      Connection.SendFails, ← failure]
    by_cases failed : sent.ret < 0
    · simp [Visit.ClosedOnce, Visit.close, closed, failed, nonneg]
    · simp [Visit.ClosedOnce, Visit.close, closed, failed]

theorem broadcastVisits_closedOnce {bcInfo : Bytes} {order : List Bytes} {ret : Bool}
    (success : broadcastVisits bcInfo connections order = some (ret, visits)) :
    (∀ visit ∈ visits, visit.ClosedOnce) ↔
      ∀ addr ∈ order, (connections addr).BroadcastCloses bcInfo := by
  obtain ⟨final, looped, same⟩ := Option.map_eq_some_iff.mp success
  cases same
  obtain ⟨made, all, closes⟩ := @closedOnce_of_foldlM _ _ (broadcastVisit bcInfo connections)
    id (fun _ addr => (connections addr).BroadcastCloses bcInfo)
    (fun _ _ _ => broadcastVisit_made) (fun _ _ _ _ _ _ => Iff.rfl) _ _ _ looped
  obtain rfl : visits = made := all
  exact closes

end RpcCenter

/-! ## The heartbeat -/

namespace CenterClientHeartbeat

variable {client : CenterClientHeartbeat} {visits : List Visit}

/-- A round is one on the outcomes of its calls, and closes the descriptor of a connection twice. -/
theorem visitRound_spec {round : VisitingRound} {next : CenterClientHeartbeat × List Visit}
    (success : visitRound (client, visits) round = some next) :
    ∃ outcome : Round, outcome.serializes = round.cwcStr.isSome ∧
      (outcome.connects ↔ ¬ round.connection.connFd ≤ 0) ∧
      next = (client.runRound outcome, visits ++ if outcome.serializes then
          [⟨round.connection.connFd,
            List.replicate (if outcome.connects then 2 else 1) round.connection.connFd⟩]
        else []) := by
  rw [visitRound] at success
  cases text : round.cwcStr with
  | none =>
    rw [text] at success
    cases success
    refine ⟨⟨false, !decide (round.connection.connFd ≤ 0), false, 0, none⟩, rfl, by simp, ?_⟩
    simp [runRound]
  | some cwcStr =>
    rw [text] at success
    dsimp only at success
    split at success
    · next refused =>
      cases success
      refine ⟨⟨true, false, false, 0, none⟩, rfl, by simp [refused], ?_⟩
      simp [runRound, Visit.close]
    · next connected =>
      obtain ⟨sent, sending, success⟩ := Option.bind_eq_some_iff.mp success
      have closed := (rpcSend_of_some center2Client_valid sending).2
      split at success
      · next failed =>
        cases success
        rw [if_pos failed] at closed
        refine ⟨⟨true, true, false, 0, none⟩, rfl, by simp [connected], ?_⟩
        simp [runRound, Visit.close, closed]
      · next done =>
        rw [if_neg done] at closed
        obtain ⟨received, receiving, success⟩ := Option.bind_eq_some_iff.mp success
        have again := rpcRecv_closes receiving
        refine ⟨⟨true, true, true, received.transferId, round.connection.parse received.info⟩, rfl,
          by simp [connected], ?_⟩
        split at success
        · next arrived =>
          cases success
          simp [runRound, Visit.close, closed, again, arrived]
        · next failed =>
          split at success
          · next unparsed =>
            cases success
            simp [runRound, Visit.close, closed, again, failed, unparsed]
          · next cwcResponseProto parsed =>
            cases success
            simp [runRound, Visit.close, closed, again, failed, parsed]

/-- The descriptor of a round is closed once exactly when it is no connection. -/
theorem visitRound_made {round : VisitingRound} {next : CenterClientHeartbeat × List Visit}
    (success : visitRound (client, visits) round = some next) :
    ∃ made, next.2 = visits ++ made ∧ ((∀ visit ∈ made, visit.ClosedOnce) ↔
      (round.cwcStr.isSome → round.connection.connFd ≤ 0)) := by
  obtain ⟨outcome, serializes, connects, rfl⟩ := visitRound_spec success
  refine ⟨_, rfl, ?_⟩
  rw [← serializes]
  split
  · next serialized =>
    rw [List.forall_mem_singleton, imp_iff_right serialized]
    by_cases refused : round.connection.connFd ≤ 0
    · have unconnected : ¬ outcome.connects := fun connected => connects.mp connected refused
      simp [Visit.ClosedOnce, refused, unconnected]
    · have connected := connects.mpr refused
      have nonneg : 0 ≤ round.connection.connFd := Int32.le_of_lt (Int32.not_le.mp refused)
      simp [Visit.ClosedOnce, refused, connected, nonneg]
  · next other => simp [other]

theorem visitRounds_closedOnce {rounds : List VisitingRound} {after : CenterClientHeartbeat}
    (success : client.visitRounds rounds = some (after, visits)) :
    (∀ visit ∈ visits, visit.ClosedOnce) ↔
      ∀ round ∈ rounds, round.cwcStr.isSome → round.connection.connFd ≤ 0 := by
  obtain ⟨made, all, closes⟩ := @closedOnce_of_foldlM _ _ visitRound Prod.snd
    (fun _ round => round.cwcStr.isSome → round.connection.connFd ≤ 0)
    (fun _ _ _ => visitRound_made) (fun _ _ _ _ _ _ => Iff.rfl) _ _ _ success
  obtain rfl : visits = made := all
  exact closes

end CenterClientHeartbeat

/-! ## All descriptors -/

/-- In the inquiry no center that is asked gets descriptor 0 or one on which receiving fails behind a
send that does not, in the broadcast none gets descriptor 0 or one on which sending fails, and in the
heartbeat no round gets a connection. -/
def PeerLoop.Closes : PeerLoop → Prop
  | .inquiryCenters center serialize connections order =>
      ∀ inquiryStr, serialize center.inquiryProto = some inquiryStr →
        ∀ addr ∈ order, center.inquired addr → (connections addr).InquiryCloses inquiryStr
  | .broadcastInfo bcInfo connections order =>
      ∀ addr ∈ order, (connections addr).BroadcastCloses bcInfo
  | .heartbeat _ rounds =>
      ∀ round ∈ rounds, round.cwcStr.isSome → round.connection.connFd ≤ 0

/-- In the loops of `InquiryCenters`, `BroadcastInfo` and `CenterClientHeartbeat::Run` every descriptor
that was obtained is closed once before the next peer or round exactly when the outcomes of the calls
are such that the loop closes them. -/
theorem visits_closedOnce_iff {loop : PeerLoop} {visits : List Visit}
    (success : loop.visits = some visits) :
    (∀ visit ∈ visits, visit.ClosedOnce) ↔ loop.Closes := by
  cases loop with
  | inquiryCenters center serialize connections order =>
    obtain ⟨⟨ret, after, made⟩, looped, rfl⟩ := Option.map_eq_some_iff.mp success
    exact RpcCenter.inquireVisits_closedOnce looped
  | broadcastInfo bcInfo connections order =>
    obtain ⟨⟨ret, made⟩, looped, rfl⟩ := Option.map_eq_some_iff.mp success
    exact RpcCenter.broadcastVisits_closedOnce looped
  | heartbeat client rounds =>
    obtain ⟨⟨after, made⟩, looped, rfl⟩ := Option.map_eq_some_iff.mp success
    exact CenterClientHeartbeat.visitRounds_closedOnce looped

/-- Descriptor 5, with the outcomes of its calls and a string that does not parse. -/
def sampleConnection {α : Type} (send : ℕ → Bool) (events : List RecvEvent) : Connection α :=
  ⟨5, send, events, fun _ => none⟩

/-- A center that was told of the status for unknown of another one. -/
def sampleAsking : RpcCenter :=
  { RpcCenter.sampleCenter with
    otherCenters := RpcCenter.sampleCenter.otherCenters.modify (RpcCenter.sampleAddress 2)
      fun oc => { oc with centerStatus := .unkonw } }

/-- An inquiry that cannot be sent, a broadcast that can, and a round that is refused. -/
theorem visits_closedOnce_sample :
    (∀ visit ∈ [(⟨5, [5]⟩ : Visit)], visit.ClosedOnce) ∧
    (∀ visit ∈ [(⟨5, [5]⟩ : Visit)], visit.ClosedOnce) ∧
    (∀ visit ∈ [(⟨-1, [-1]⟩ : Visit)], visit.ClosedOnce) := by
  refine ⟨?_, ?_, ?_⟩
  · refine (@visits_closedOnce_iff (.inquiryCenters sampleAsking (fun _ => some [8])
      (fun _ => sampleConnection (fun _ => false) []) [RpcCenter.sampleAddress 2]) _ rfl).mpr ?_
    rintro inquiryStr same _ _ _
    cases same
    exact .inr ⟨show (0 : Int32) < 5 by decide, .inl ⟨0, by decide, rfl⟩⟩
  · refine (@visits_closedOnce_iff (.broadcastInfo [8] (fun _ => sampleConnection allSent [])
      [RpcCenter.sampleAddress 2]) _ rfl).mpr ?_
    intro _ _
    refine .inr ⟨show (0 : Int32) < 5 by decide, ?_⟩
    rintro ⟨_, _, failed⟩
    cases failed
  · refine (@visits_closedOnce_iff
      (.heartbeat .new [⟨some [8], ⟨-1, allSent, [], fun _ => none⟩⟩]) _ rfl).mpr ?_
    intro round member _
    rw [List.mem_singleton.mp member]
    decide

/-- An inquiry that gets no answer leaves its descriptor open, a broadcast that cannot be sent closes
it twice, and so does a round that is answered. -/
theorem not_visits_closedOnce :
    (∃ visits, (PeerLoop.inquiryCenters sampleAsking (fun _ => some [8])
        (fun _ => sampleConnection allSent [.error]) [RpcCenter.sampleAddress 2]).visits =
          some visits ∧
      ¬ ∀ visit ∈ visits, visit.ClosedOnce) ∧
    (∃ visits, (PeerLoop.broadcastInfo [8] (fun _ => sampleConnection (fun _ => false) [])
        [RpcCenter.sampleAddress 2]).visits = some visits ∧
      ¬ ∀ visit ∈ visits, visit.ClosedOnce) ∧
    (∃ visits, (PeerLoop.heartbeat .new
        [⟨some [8], sampleConnection allSent [.eof]⟩]).visits = some visits ∧
      ¬ ∀ visit ∈ visits, visit.ClosedOnce) :=
  ⟨⟨[⟨5, []⟩], rfl, by decide⟩, ⟨[⟨5, [5, 5]⟩], rfl, by decide⟩, ⟨[⟨5, [5, 5]⟩], rfl, by decide⟩⟩

end LibEvRpc
