import LibEvRpc.Center.Inquiry
import LibEvRpc.Proofs.LogicalClock
import LibEvRpc.ToMathlib.BestOfFold

/-! # What an inquiry finds, and whom it asks

At equal clocks the acceptance test is a strict total order on candidates, so an inquiry records the
best of them in whatever order the table is iterated. It asks the centers whose status is the one
for unknown, and a new table has no such entry: a center is asked only after a message of its own
gave it that status.
-/

namespace LibEvRpc

/-! ## The order of the candidates -/

/-- A candidate is before another one: it started earlier, or at the same time and has the greater
address. -/
def LeaderInfos.Before (first second : LeaderInfos) : Prop :=
  first.lcStartTime < second.lcStartTime ∨
    first.lcStartTime = second.lcStartTime ∧ second.leaderCenter < first.leaderCenter

namespace LeaderInfos

instance : DecidableRel Before := fun _ _ => inferInstanceAs (Decidable (_ ∨ _ ∧ _))

theorem Before.irrefl (candidate : LeaderInfos) : ¬ Before candidate candidate := by
  rintro (earlier | ⟨_, greater⟩)
  · exact UInt64.lt_irrefl _ earlier
  · exact List.lt_irrefl _ greater

theorem Before.trans {first second third : LeaderInfos} (ahead : Before first second)
    (behind : Before second third) : Before first third := by
  rcases ahead with earlier | ⟨time, greater⟩
  · rcases behind with later | ⟨time, _⟩
    · exact .inl (UInt64.lt_trans earlier later)
    · exact .inl (time ▸ earlier)
  · rcases behind with later | ⟨sameTime, less⟩
    · exact .inl (time ▸ later)
    · exact .inr ⟨time.trans sameTime, List.lt_trans less greater⟩

/-- Candidates of which none is before the other are the same. -/
theorem Before.eq_of_not {first second : LeaderInfos} (notAhead : ¬ Before first second)
    (notBehind : ¬ Before second first) : first = second := by
  have time : first.lcStartTime = second.lcStartTime := by
    apply UInt64.le_antisymm
    · exact UInt64.not_lt.mp fun later => notBehind (.inl later)
    · exact UInt64.not_lt.mp fun earlier => notAhead (.inl earlier)
  have addr : first.leaderCenter = second.leaderCenter := by
    apply List.le_antisymm
    · exact List.not_lt.mp fun greater => notAhead (.inr ⟨time, greater⟩)
    · exact List.not_lt.mp fun less => notBehind (.inr ⟨time.symm, less⟩)
  obtain ⟨firstTime, firstAddr⟩ := first
  obtain ⟨secondTime, secondAddr⟩ := second
  rw [LeaderInfos.mk.injEq]
  exact ⟨time, addr⟩

instance : IsStrictTotalOrder LeaderInfos Before where
  irrefl := Before.irrefl
  trans _ _ _ := Before.trans
  trichotomous _ _ := Before.eq_of_not

end LeaderInfos

namespace RpcCenter

open LeaderInfos (Before)

/-! ## The leader an inquiry records -/

def candidate (centersProto : CentersProto) : LeaderInfos :=
  ⟨centersProto.lcStartTime, centersProto.leaderCenter⟩

/-- The candidate of a response is the center that responds. -/
def responder (responseProto : CentersProto) : LeaderInfos :=
  ⟨responseProto.startTime, responseProto.fromCenterAddr⟩

/-- A response of the own round makes the responder the leader if it is before the recorded one. -/
theorem inquiryResponse_leaderInfos {center : RpcCenter} (addr : Bytes) {responseProto : CentersProto}
    (clock : responseProto.logicalClock = center.logicalClock) :
    (center.inquiryResponse addr responseProto).leaderInfos =
      keepBest Before center.leaderInfos (responder responseProto) := by
  rw [inquiryResponse]
  split
  · next accepted =>
    rw [leaderPredicate_eq_accept_iff (by exact clock)] at accepted
    have before : Before (responder responseProto) center.leaderInfos := accepted
    rw [keepBest, if_pos before]
    rfl
  · next refused =>
    rw [leaderPredicate_eq_accept_iff (by exact clock)] at refused
    have notBefore : ¬ Before (responder responseProto) center.leaderInfos := refused
    rw [keepBest, if_neg notBefore]

/-- The responses of an inquiry, one after the other. -/
def inquiryResponses (center : RpcCenter) (responses : List (Bytes × CentersProto)) : RpcCenter :=
  responses.foldl (fun center response => center.inquiryResponse response.1 response.2) center

theorem inquiryResponses_leaderInfos {center : RpcCenter} {responses : List (Bytes × CentersProto)}
    (clocks : ∀ response ∈ responses, response.2.logicalClock = center.logicalClock) :
    (center.inquiryResponses responses).leaderInfos =
      (responses.map fun response => responder response.2).foldl (keepBest Before)
        center.leaderInfos := by
  induction responses generalizing center with
  | nil => rfl
  | cons response rest ih =>
    have clock := inquiryResponse_logicalClock center response.1 response.2
    rw [List.map_cons, List.foldl_cons,
      ← inquiryResponse_leaderInfos response.1 (clocks response List.mem_cons_self)]
    apply ih
    intro other member
    rw [clock]
    exact clocks other (List.mem_cons_of_mem _ member)

/-- At equal clocks the acceptance test is a strict total order, and responses leave the best of the
recorded leader and the responders, in whatever order they are taken. -/
theorem inquiry_records_best (center : RpcCenter) (responses : List (Bytes × CentersProto))
    (clocks : ∀ response ∈ responses, response.2.logicalClock = center.logicalClock) :
    IsStrictTotalOrder LeaderInfos Before ∧
    (∀ centersProto, centersProto.logicalClock = center.logicalClock →
      (center.leaderPredicate centersProto = .accept ↔
        Before (candidate centersProto) center.leaderInfos)) ∧
    (∀ leader, IsBest Before
        (center.leaderInfos :: responses.map fun response => responder response.2) leader ↔
      (center.inquiryResponses responses).leaderInfos = leader) ∧
    ∀ order, order.Perm responses →
      (center.inquiryResponses order).leaderInfos = (center.inquiryResponses responses).leaderInfos := by
  refine ⟨inferInstance, fun _ clock => leaderPredicate_eq_accept_iff clock, fun leader => ?_,
    fun order perm => ?_⟩
  · have best := @isBest_foldl_keepBest _ Before _ _
      (responses.map fun response => responder response.2) center.leaderInfos
    rw [← inquiryResponses_leaderInfos clocks] at best
    constructor
    · exact best.unique
    · rintro rfl
      exact best
  · rw [inquiryResponses_leaderInfos clocks, inquiryResponses_leaderInfos]
    · exact foldl_keepBest_perm (perm.map _) _
    · intro response member
      exact clocks response (perm.mem_iff.mp member)

/-- The responses of `10.0.0.2` and `10.0.0.3`, which started at the same time. -/
def sampleResponses : List (Bytes × CentersProto) :=
  [(sampleAddress 2, { fromCenterAddr := sampleAddress 2, startTime := 500 }),
    (sampleAddress 3, { fromCenterAddr := sampleAddress 3, startTime := 500 })]

/-- The greater address is recorded. -/
theorem inquiry_records_best_sample :
    (sampleCenter.inquiryResponses sampleResponses).leaderInfos = ⟨500, sampleAddress 3⟩ :=
  ((inquiry_records_best sampleCenter sampleResponses (by decide)).2.2.1 _).mp (by decide)

/-! ## The centers an inquiry asks -/

def askCalls (inquiry : CentersProto) (addr : Bytes) (peer : Peer) : List InquiryCall :=
  .tcpConnect addr :: if peer.accepts then .rpcSend addr peer.connFd inquiry ::
    if peer.exchange = .recvFails then [] else [.close addr peer.connFd] else []

theorem tcpConnect_mem_askCalls {inquiry : CentersProto} {addr other : Bytes} {peer : Peer} :
    .tcpConnect other ∈ askCalls inquiry addr peer ↔ other = addr := by
  rw [askCalls, List.mem_cons, InquiryCall.tcpConnect.injEq, or_iff_left]
  split
  · split
    · simp
    · simp
  · simp

/-- A response of one center leaves the entries of the others. -/
theorem inquiryResponse_lookup_ne {addr other : Bytes} (center : RpcCenter)
    (responseProto : CentersProto) (differ : other ≠ addr) :
    (center.inquiryResponse addr responseProto).otherCenters.lookup other =
      center.otherCenters.lookup other := by
  rw [inquiryResponse]
  split
  · exact AList.lookup_modify_ne differ
  · exact AList.lookup_modify_ne differ

theorem inquireCenter_calls (inquiry : CentersProto) (peers : Bytes → Peer) (state : Inquiring)
    (addr : Bytes) :
    (inquireCenter inquiry peers state addr).calls =
      state.calls ++ if state.center.inquired addr then askCalls inquiry addr (peers addr) else [] := by
  rw [inquireCenter]
  cases state.center.inquired addr with
  | false => exact (List.append_nil _).symm
  | true =>
    by_cases failed : (peers addr).connFd ≤ 0
    · have refuses : ¬ (peers addr).accepts := not_not_intro failed
      simp only [failed, refuses, askCalls, Bool.not_true, Bool.false_eq_true, ↓reduceIte]
    · have accepts : (peers addr).accepts := failed
      cases exchange : (peers addr).exchange with
      | sendFails | recvFails | malformed | response =>
        simp only [failed, accepts, exchange, askCalls, Bool.not_true, Bool.false_eq_true,
          ↓reduceIte, reduceCtorEq, List.append_assoc, List.cons_append, List.nil_append]

theorem inquireCenter_inquired_ne {addr other : Bytes} (inquiry : CentersProto)
    (peers : Bytes → Peer) (state : Inquiring) (differ : other ≠ addr) :
    (inquireCenter inquiry peers state addr).center.inquired other = state.center.inquired other := by
  rw [inquireCenter_center]
  split
  · split
    · rfl
    · rw [inquired, inquiryResponse_lookup_ne state.center _ differ, inquired]
  · rfl

/-- The loop asks exactly the centers of its order that were to be asked from the start, and takes the
responses of those it gets one from. -/
theorem inquireCenters_spec (inquiry : CentersProto) (peers : Bytes → Peer) {order : List Bytes}
    (nodup : order.Nodup) (state : Inquiring) :
    (order.foldl (inquireCenter inquiry peers) state).calls =
        state.calls ++ (order.filter state.center.inquired).flatMap
          (fun addr => askCalls inquiry addr (peers addr)) ∧
      (order.foldl (inquireCenter inquiry peers) state).center =
        state.center.inquiryResponses ((order.filter state.center.inquired).filterMap fun addr =>
          (peers addr).responseProto.map fun responseProto => (addr, responseProto)) := by
  induction order generalizing state with
  | nil => exact ⟨(List.append_nil _).symm, rfl⟩
  | cons addr rest ih =>
    obtain ⟨fresh, nodup⟩ := List.nodup_cons.mp nodup
    have others : rest.filter (inquireCenter inquiry peers state addr).center.inquired =
        rest.filter state.center.inquired := by
      apply List.filter_congr
      intro other member
      exact inquireCenter_inquired_ne _ _ _ fun same => fresh (same ▸ member)
    obtain ⟨calls, center⟩ := ih nodup (inquireCenter inquiry peers state addr)
    rw [List.foldl_cons, calls, center, others, inquireCenter_calls, inquireCenter_center,
      List.filter_cons]
    split
    · rw [List.flatMap_cons, List.append_assoc, List.filterMap_cons]
      cases (peers addr).responseProto with
      | none => exact ⟨rfl, rfl⟩
      | some responseProto => exact ⟨rfl, rfl⟩
    · rw [List.append_nil]
      exact ⟨rfl, rfl⟩

/-! ## The centers a run has learned of -/

/-- A message of a center brings its status: a proposal of its own that is accepted, or its answer to
an inquiry. -/
def Teaches (addr : Bytes) (center : RpcCenter) : Event → Prop
  | .process _ _ centersProto =>
      centersProto.centerAction = .proposal ∧ center.leaderPredicate centersProto = .accept ∧
        centersProto.fromCenterAddr = addr
  | .inquiryResponse asked _ => asked = addr
  | .proposalLeaderElection _ => False

/-- Some event of a run brought the status of a center. -/
abbrev Learned (start : RpcCenter) (events : List Event) (addr : Bytes) : Prop :=
  Sometimes step start (Teaches addr) events

def heldStatus (center : RpcCenter) (addr : Bytes) : Option CenterStatus :=
  (center.otherCenters.lookup addr).map OtherCenter.centerStatus

theorem inquired_iff {center : RpcCenter} {addr : Bytes} :
    center.inquired addr ↔ center.heldStatus addr = some .unkonw := by
  rw [inquired, heldStatus]
  cases center.otherCenters.lookup addr with
  | none => simp
  | some oc => simp

/-- A vote changes the status of its sender only. -/
theorem voted_heldStatus {outside : Outside} {center : RpcCenter} {recorded : OtherCenters}
    {centersProto : CentersProto} {addr : Bytes} (differ : addr ≠ centersProto.fromCenterAddr)
    (success : recordSender center.otherCenters centersProto = some recorded) :
    (center.voted outside recorded centersProto).heldStatus addr = center.heldStatus addr := by
  have sender : recorded.lookup addr = center.otherCenters.lookup addr := by
    obtain ⟨name, _, rfl⟩ := Option.map_eq_some_iff.mp success
    split
    · exact AList.lookup_modify_ne differ
    · exact AList.lookup_insertNew_ne differ
  have vote : ((countVote recorded centersProto).1.lookup addr).map OtherCenter.centerStatus =
      (recorded.lookup addr).map OtherCenter.centerStatus := by
    rw [countVote]
    cases recorded.lookup centersProto.leaderCenter with
    | none => rw [AList.lookup_insertNew_ne differ]
    | some oc =>
      by_cases named : addr = centersProto.leaderCenter
      · rw [named, AList.lookup_modify_self, Option.map_map]
        rfl
      · rw [AList.lookup_modify_ne named]
  rw [heldStatus, (voted_sameRound outside center recorded centersProto).otherCenters, vote, sender,
    heldStatus]

/-- An event changes the status of a center only if it brings it. -/
theorem step_heldStatus {center next : RpcCenter} {event : Event} {addr : Bytes}
    (silent : ¬ Teaches addr center event) (success : center.step event = some next) :
    next.heldStatus addr = center.heldStatus addr := by
  cases event with
  | process outside fd centersProto =>
    obtain ⟨processed, processing, rfl⟩ := Option.map_eq_some_iff.mp success
    obtain ⟨action, accepted, recorded, recording, voting⟩ | ⟨round, _⟩ :=
      processCenterData_cases processing
    · rw [voting]
      exact voted_heldStatus (fun same => silent ⟨action, accepted, same.symm⟩) recording
    · rw [heldStatus, round.otherCenters, heldStatus]
  | inquiryResponse asked responseProto =>
    cases success
    rw [heldStatus, inquiryResponse_lookup_ne center _ fun same => silent same.symm, heldStatus]
  | proposalLeaderElection outside =>
    cases success
    rw [heldStatus, proposalLeaderElection_center]
    rfl

/-- A listed center of which nothing was learned still has the cleared status. -/
theorem heldStatus_of_not_learned {localAddress : Bytes} {startTime : UInt64} {virtualNodeNum : Int32}
    {lines : List Bytes} {events : List Event} {center : RpcCenter} {addr : Bytes}
    (run : Run step (initRpcCenter localAddress startTime virtualNodeNum lines) events center)
    (listed : addr ∈ lines) (other : CString.ofBuffer addr ≠ CString.ofBuffer localAddress)
    (unlearned :
      ¬ Learned (initRpcCenter localAddress startTime virtualNodeNum lines) events addr) :
    center.heldStatus addr = some .looking := by
  apply @Run.invariant _ _ _ _ _ (fun _ center => center.heldStatus addr = some .looking) _ _ run
  · rw [heldStatus, initRpcCenter_lookup, if_pos ⟨listed, other⟩]
    rfl
  · intro _ state event next held silent success
    exact (step_heldStatus silent success).trans held
  · exact not_sometimes_iff.mp unlearned

/-- An inquiry connects to every listed center but the local one, and sends its message to each that
accepts; it skips centers that were learned of only. -/
def AsksUnlearned (localAddress : Bytes) (lines : List Bytes) (learned : Bytes → Prop)
    (inquiry : CentersProto) (peers : Bytes → Peer) (calls : List InquiryCall) : Prop :=
  ∀ line ∈ lines, CString.ofBuffer line ≠ CString.ofBuffer localAddress → ¬ learned line →
    .tcpConnect line ∈ calls ∧
      ((peers line).accepts → .rpcSend line (peers line).connFd inquiry ∈ calls)

/-- Behind any run an inquiry asks the centers that it should exactly when there are none: every other
line of the list was learned of. -/
theorem asksUnlearned_iff {localAddress : Bytes} {startTime : UInt64} {virtualNodeNum : Int32}
    {lines : List Bytes} {events : List Event} {center : RpcCenter}
    (run : Run step (initRpcCenter localAddress startTime virtualNodeNum lines) events center)
    (outside : Outside) (peers : Bytes → Peer) {order : List Bytes}
    (perm : order.Perm center.otherCenters.keys) :
    AsksUnlearned localAddress lines
        (Learned (initRpcCenter localAddress startTime virtualNodeNum lines) events)
        center.inquiryProto peers (center.inquireInOrder outside peers order).2.calls ↔
      ∀ line ∈ lines, CString.ofBuffer line ≠ CString.ofBuffer localAddress →
        Learned (initRpcCenter localAddress startTime virtualNodeNum lines) events line := by
  constructor
  · intro asks line listed other
    by_contra unlearned
    have called := (asks line listed other unlearned).1
    have held := heldStatus_of_not_learned run listed other unlearned
    rw [inquireInOrder] at called
    split at called
    · have nodup := perm.nodup_iff.mpr center.otherCenters.keys_nodup
      have calls := (inquireCenters_spec center.inquiryProto peers nodup ⟨center, []⟩).1
      dsimp only at called
      rw [calls, List.nil_append] at called
      obtain ⟨addr, asked, connects⟩ := List.mem_flatMap.mp called
      have unknown := inquired_iff.mp (List.mem_filter.mp asked).2
      dsimp only at unknown
      rw [← tcpConnect_mem_askCalls.mp connects, held] at unknown
      contradiction
    · exact absurd called List.not_mem_nil
  · intro learned line listed other unlearned
    exact absurd (learned line listed other) unlearned

/-- Every peer accepts, and answers with the message of a center started at 500. -/
def answeringPeer (addr : Bytes) : Peer :=
  ⟨7, .response { fromCenterAddr := addr, startTime := 500 }⟩

/-- A new center of a cluster of three connects to neither of the other two. -/
theorem asksUnlearned_fails_at_start :
    ¬ AsksUnlearned (sampleAddress 1) [sampleAddress 1, sampleAddress 2, sampleAddress 3]
      (Learned sampleCenter []) sampleCenter.inquiryProto answeringPeer
      (sampleCenter.inquireInOrder sampleOutside answeringPeer sampleCenter.otherCenters.keys).2.calls := by
  intro asks
  have unlearned : ¬ Learned sampleCenter [] (sampleAddress 2) := not_sometimes_nil
  have connects := (asks (sampleAddress 2) (by decide) (by decide) unlearned).1
  exact absurd connects (by decide)

/-- Both other centers of a cluster of three propose the second one. -/
def twoProposals : List Event :=
  [.process sampleOutside 5 (sampleProposal 2 2 900), .process sampleOutside 6 (sampleProposal 3 2 900)]

/-- A center that has heard from both others has nobody left to ask. -/
theorem asksUnlearned_twoProposals :
    ∃ center, Run step sampleCenter twoProposals center ∧
      AsksUnlearned (sampleAddress 1) [sampleAddress 1, sampleAddress 2, sampleAddress 3]
        (Learned sampleCenter twoProposals) center.inquiryProto answeringPeer
        (center.inquireInOrder sampleOutside answeringPeer center.otherCenters.keys).2.calls := by
  have first : Run step sampleCenter [.process sampleOutside 5 (sampleProposal 2 2 900)] _ :=
    .snoc .nil rfl
  have run : Run step sampleCenter twoProposals _ := first.snoc rfl
  have learnedSecond : Learned sampleCenter twoProposals (sampleAddress 2) :=
    ⟨[], .process sampleOutside 5 (sampleProposal 2 2 900), _, ⟨_, rfl⟩, .nil, rfl, by decide, rfl⟩
  have learnedThird : Learned sampleCenter twoProposals (sampleAddress 3) :=
    ⟨_, .process sampleOutside 6 (sampleProposal 3 2 900), _, List.prefix_rfl, first, rfl, by decide,
      rfl⟩
  refine ⟨_, run, (asksUnlearned_iff run _ _ (List.Perm.refl _)).mpr ?_⟩
  intro line listed other
  rcases List.mem_cons.mp listed with rfl | listed
  · exact absurd rfl other
  · rcases List.mem_cons.mp listed with rfl | listed
    · exact learnedSecond
    · rw [List.mem_singleton.mp listed]
      exact learnedThird

end RpcCenter

end LibEvRpc
