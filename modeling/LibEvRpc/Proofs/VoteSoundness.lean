import LibEvRpc.Proofs.LogicalClock

/-! # When a count of votes is a quorum

A vote counter is a bare number: it moves with every accepted proposal, whoever sent it and in
whatever round. As long as no counted proposal repeats a sender for its candidate or mixes rounds,
the counter of a candidate is at most the number of senders that voted for it in one round, so a
decision rests on a quorum. The history of counted proposals is not part of the center; it is read
off the run.
-/

namespace LibEvRpc

namespace RpcCenter

/-- The event processes an accepted proposal whose vote moves a counter. -/
structure Counts (center : RpcCenter) (event : Event) (centersProto : CentersProto) : Prop where
  processed : ∃ outside fd, event = .process outside fd centersProto
  action : centersProto.centerAction = .proposal
  accepted : center.leaderPredicate centersProto = .accept
  countable : center.Countable centersProto

/-- A vote was counted at some step of the events from a start. -/
def CountedIn (start : RpcCenter) (events : List Event) (centersProto : CentersProto) : Prop :=
  ∃ before event center, before ++ [event] <+: events ∧ Run step start before center ∧
    Counts center event centersProto

/-- A counted vote is the first one of its sender for its candidate, and in the same round as the
votes counted for the candidate before. -/
def FirstVote (start : RpcCenter) (before : List Event) (center : RpcCenter) (event : Event) : Prop :=
  ∀ vote, Counts center event vote → ∀ earlier, CountedIn start before earlier →
    earlier.leaderCenter = vote.leaderCenter →
      earlier.fromCenterAddr ≠ vote.fromCenterAddr ∧ earlier.logicalClock = vote.logicalClock

/-- The event processes an accepted proposal with whose vote the count is enough. -/
structure Decides (center : RpcCenter) (event : Event) (centersProto : CentersProto) : Prop where
  processed : ∃ outside fd, event = .process outside fd centersProto
  action : centersProto.centerAction = .proposal
  accepted : center.leaderPredicate centersProto = .accept
  enough : ∃ recorded, recordSender center.otherCenters centersProto = some recorded ∧
    center.Enough (countVote recorded centersProto).2

/-- Enough distinct centers sent a proposal for the leader of a message in its round. -/
def Quorum (electionDoneNum : UInt32) (events : List Event) (centersProto : CentersProto) : Prop :=
  ∃ senders : List Bytes, senders.Nodup ∧ electionDoneNum.toNat ≤ senders.length ∧
    ∀ sender ∈ senders, ∃ outside fd vote, Event.process outside fd vote ∈ events ∧
      vote.centerAction = .proposal ∧ vote.fromCenterAddr = sender ∧
      vote.leaderCenter = centersProto.leaderCenter ∧
      vote.logicalClock = centersProto.logicalClock

/-! ## Decisions -/

/-- A processed message that changes the recorded leader, or the status to leading or observing, is
the last vote of a decision. -/
theorem decides_of_change {outside : Outside} {center : RpcCenter} {fd : Int32}
    {centersProto : CentersProto} {processed : Processed}
    (success : center.processCenterData outside fd centersProto = some processed)
    (changed : processed.center.leaderInfos ≠ center.leaderInfos ∨
      processed.center.centerStatus ≠ center.centerStatus ∧
        processed.center.centerStatus ≠ .following) :
    Decides center (.process outside fd centersProto) centersProto := by
  rcases processCenterData_cases success with
    ⟨action, accepted, recorded, recording, result⟩ | ⟨_, leader, status⟩
  · refine ⟨⟨outside, fd, rfl⟩, action, accepted, recorded, recording, ?_⟩
    by_contra few
    rw [voted, if_neg few] at result
    rw [result] at changed
    rcases changed with leader | ⟨status, _⟩
    · exact leader rfl
    · exact status rfl
  · rcases changed with moved | ⟨moved, notFollowing⟩
    · exact absurd leader moved
    · exact absurd (status.resolve_left moved) notFollowing

/-- What a decision records, and the statuses it can lead to. -/
theorem electionDone_records (outside : Outside) (center : RpcCenter) (centersProto : CentersProto) :
    (electionDone outside center centersProto).center.leaderInfos =
        ⟨centersProto.lcStartTime, centersProto.leaderCenter⟩ ∧
      ((electionDone outside center centersProto).center.centerStatus = .leading ∨
        (electionDone outside center centersProto).center.centerStatus = .observing ∨
        (electionDone outside center centersProto).center.centerStatus = .following) := by
  rw [electionDone]
  split
  · dsimp only
    split
    · exact ⟨rfl, .inl rfl⟩
    · exact ⟨rfl, .inl rfl⟩
  · split
    · exact ⟨rfl, .inr (.inl rfl)⟩
    · next following => exact ⟨rfl, .inr (.inr (not_not.mp following))⟩

/-- The last vote of a decision records its leader. -/
theorem decides_records {outside : Outside} {center : RpcCenter} {fd : Int32}
    {centersProto : CentersProto} {processed : Processed}
    (decides : Decides center (.process outside fd centersProto) centersProto)
    (success : center.processCenterData outside fd centersProto = some processed) :
    processed.center.leaderInfos = ⟨centersProto.lcStartTime, centersProto.leaderCenter⟩ ∧
      (processed.center.centerStatus = .leading ∨ processed.center.centerStatus = .observing ∨
        processed.center.centerStatus = .following) := by
  obtain ⟨recorded, recording, result⟩ :=
    processCenterData_voted decides.action decides.accepted success
  obtain ⟨again, recordingAgain, enough⟩ := decides.enough
  rw [recording, Option.some.injEq] at recordingAgain
  rw [result, voted, recordingAgain, if_pos enough]
  exact electionDone_records outside _ centersProto

/-! ## The votes behind a counter -/

theorem CountedIn.mono {start : RpcCenter} {events : List Event} {vote : CentersProto}
    (counted : CountedIn start events vote) (event : Event) :
    CountedIn start (events ++ [event]) vote := by
  obtain ⟨before, last, center, front, run, counts⟩ := counted
  exact ⟨before, last, center, front.trans (List.prefix_append _ _), run, counts⟩

/-- Every counter is covered by counted votes for its candidate, from distinct senders and all in
one round. -/
def Covered (start : RpcCenter) (events : List Event) (center : RpcCenter) : Prop :=
  Run step start events center ∧ ∀ candidate, ∃ votes : List CentersProto,
    (votes.map CentersProto.fromCenterAddr).Nodup ∧
    votesFor center.otherCenters candidate ≤ votes.length ∧
    (∀ vote ∈ votes, CountedIn start events vote ∧ vote.leaderCenter = candidate) ∧
    ∀ vote ∈ votes, ∀ other ∈ votes, vote.logicalClock = other.logicalClock

/-- An answer to an inquiry moves no vote. -/
theorem inquiryResponse_votesFor (center : RpcCenter) (addr : Bytes) (responseProto : CentersProto)
    (candidate : Bytes) :
    votesFor (center.inquiryResponse addr responseProto).otherCenters candidate =
      votesFor center.otherCenters candidate := by
  have table : (center.inquiryResponse addr responseProto).otherCenters =
      center.otherCenters.modify addr fun oc => { oc with
        startTime := responseProto.startTime, centerStatus := responseProto.centerStatus } := by
    rw [inquiryResponse]
    split <;> rfl
  rw [table]
  apply votesFor_modify
  exact fun _ => rfl

/-- A step moves only the counter of the candidate whose vote it counts, by at most one. -/
theorem step_votesFor {center next : RpcCenter} {event : Event}
    (success : center.step event = some next) (candidate : Bytes) :
    votesFor next.otherCenters candidate ≤ votesFor center.otherCenters candidate ∨
      ∃ vote, Counts center event vote ∧ vote.leaderCenter = candidate ∧
        votesFor next.otherCenters candidate ≤ votesFor center.otherCenters candidate + 1 := by
  cases event with
  | process outside fd centersProto =>
    obtain ⟨processed, processing, rfl⟩ := Option.map_eq_some_iff.mp success
    rcases processCenterData_cases processing with
      ⟨action, accepted, recorded, recording, result⟩ | ⟨round, _⟩
    · obtain ⟨_, counting, uncounting⟩ := recordSender_countVote recording
      rw [result, (voted_sameRound outside center recorded centersProto).otherCenters]
      by_cases countable : center.Countable centersProto
      · rw [(counting countable).2]
        split
        · next leader =>
          refine .inr ⟨centersProto, ⟨⟨outside, fd, rfl⟩, action, accepted, countable⟩, leader.symm, ?_⟩
          rw [leader]
          exact Nat.mod_le _ _
        · exact .inl le_rfl
      · exact .inl ((uncounting countable).2 candidate).le
    · rw [round.otherCenters]
      exact .inl le_rfl
  | inquiryResponse addr responseProto =>
    cases success
    exact .inl (inquiryResponse_votesFor center addr responseProto candidate).le
  | proposalLeaderElection outside =>
    cases success
    rw [proposalLeaderElection_center]
    exact .inl le_rfl

/-- A counted vote extends the votes of its candidate. -/
theorem covered_vote {start center : RpcCenter} {events : List Event} {event : Event}
    {vote : CentersProto} {votes : List CentersProto} (run : Run step start events center)
    (first : FirstVote start events center event) (counts : Counts center event vote)
    (nodup : (votes.map CentersProto.fromCenterAddr).Nodup)
    (counted : ∀ other ∈ votes,
      CountedIn start events other ∧ other.leaderCenter = vote.leaderCenter) :
    ((vote :: votes).map CentersProto.fromCenterAddr).Nodup ∧
      (∀ other ∈ vote :: votes,
        CountedIn start (events ++ [event]) other ∧ other.leaderCenter = vote.leaderCenter) ∧
      ∀ other ∈ vote :: votes, other.logicalClock = vote.logicalClock := by
  have earlier (other : CentersProto) (member : other ∈ votes) :=
    first vote counts other (counted other member).1 (counted other member).2
  refine ⟨?_, ?_, ?_⟩
  · rw [List.map_cons, List.nodup_cons]
    refine ⟨fun member => ?_, nodup⟩
    obtain ⟨other, present, same⟩ := List.mem_map.mp member
    exact (earlier other present).1 same
  · intro other member
    rcases List.mem_cons.mp member with rfl | present
    · exact ⟨⟨events, event, center, List.prefix_rfl, run, counts⟩, rfl⟩
    · exact ⟨(counted other present).1.mono event, (counted other present).2⟩
  · intro other member
    rcases List.mem_cons.mp member with rfl | present
    · rfl
    · exact (earlier other present).2

theorem covered_step {start center next : RpcCenter} {events : List Event} {event : Event}
    (covered : Covered start events center) (first : FirstVote start events center event)
    (success : center.step event = some next) : Covered start (events ++ [event]) next := by
  obtain ⟨run, cover⟩ := covered
  refine ⟨.snoc run success, fun candidate => ?_⟩
  obtain ⟨votes, nodup, bound, counted, round⟩ := cover candidate
  rcases step_votesFor success candidate with unmoved | ⟨vote, counts, rfl, moved⟩
  · exact ⟨votes, nodup, unmoved.trans bound,
      fun vote member => ⟨(counted vote member).1.mono event, (counted vote member).2⟩, round⟩
  · obtain ⟨nodup, counted, round⟩ := covered_vote run first counts nodup counted
    refine ⟨vote :: votes, nodup, ?_, counted, ?_⟩
    · rw [List.length_cons]
      omega
    · intro one member other present
      rw [round one member, round other present]

/-- A counted vote is among the processed messages. -/
theorem CountedIn.processed {start : RpcCenter} {events : List Event} {vote : CentersProto}
    (counted : CountedIn start events vote) :
    ∃ outside fd, Event.process outside fd vote ∈ events ∧ vote.centerAction = .proposal := by
  obtain ⟨before, event, center, front, _, counts⟩ := counted
  obtain ⟨outside, fd, rfl⟩ := counts.processed
  refine ⟨outside, fd, front.subset ?_, counts.action⟩
  exact List.mem_append_right _ (List.mem_singleton_self _)

/-- From a table without votes, every decision of a run of first votes rests on a quorum. -/
theorem decides_quorum {start center : RpcCenter} {events : List Event} {event : Event}
    {centersProto : CentersProto} (fresh : ∀ candidate, votesFor start.otherCenters candidate = 0)
    (run : Run step start events center)
    (first : Throughout step start (FirstVote start) (events ++ [event]))
    (decides : Decides center event centersProto) :
    Quorum center.electionDoneNum (events ++ [event]) centersProto := by
  have initial : Covered start [] start := by
    refine ⟨.nil, fun candidate => ⟨[], List.nodup_nil, (fresh candidate).le, ?_, ?_⟩⟩
    · exact fun vote member => absurd member List.not_mem_nil
    · exact fun vote member => absurd member List.not_mem_nil
  obtain ⟨first, last⟩ := run.throughout_snoc.mp first
  have covered : Covered start events center := run.invariant initial
    (fun _ _ _ _ covered first success => covered_step covered first success) first
  obtain ⟨recorded, recording, some, enough⟩ := decides.enough
  obtain ⟨_, counting, uncounting⟩ := recordSender_countVote recording
  have positive : 0 < center.electionDoneNum.toNat := by
    apply Nat.pos_of_ne_zero
    intro zero
    exact some (UInt32.toNat_inj.mp zero.symm)
  have reached : center.electionDoneNum.toNat ≤ (countVote recorded centersProto).2.toNat :=
    UInt32.le_iff_toNat_le.mp enough
  have countable : center.Countable centersProto := by
    by_contra uncountable
    rw [(uncounting uncountable).1] at reached
    exact absurd reached (Nat.not_le.mpr positive)
  have counts : Counts center event centersProto :=
    ⟨decides.processed, decides.action, decides.accepted, countable⟩
  obtain ⟨votes, nodup, bound, counted, _⟩ := covered.2 centersProto.leaderCenter
  obtain ⟨nodup, counted, round⟩ := covered_vote run last counts nodup counted
  refine ⟨_, nodup, ?_, fun sender member => ?_⟩
  · rw [(counting countable).1] at reached
    have := Nat.mod_le (votesFor center.otherCenters centersProto.leaderCenter + 1) (2 ^ 32)
    rw [List.length_map, List.length_cons]
    omega
  · obtain ⟨vote, present, rfl⟩ := List.mem_map.mp member
    obtain ⟨counted, leader⟩ := counted vote present
    obtain ⟨outside, fd, processed, action⟩ := counted.processed
    exact ⟨outside, fd, vote, processed, action, rfl, leader, round vote present⟩

/-! ## A sender that repeats its proposal -/

/-- A proposal ahead of the clock, so accepted whatever leader is recorded. -/
def sampleVote (sender : UInt8) : CentersProto :=
  { sampleProposal sender 3 999 with logicalClock := 1 }

def sampleVoteEvent (sender : UInt8) : Event := .process sampleOutside 5 (sampleVote sender)

/-- The second copy of one proposal decides the election of a cluster of three, though only one
center voted. -/
theorem repeated_vote_decides :
    ∃ center, Run step sampleCenter [sampleVoteEvent 2] center ∧ center.electionDoneNum = 2 ∧
      Decides center (sampleVoteEvent 2) (sampleVote 2) ∧
      ¬ Quorum 2 [sampleVoteEvent 2, sampleVoteEvent 2] (sampleVote 2) := by
  refine ⟨_, .snoc .nil rfl, rfl, ⟨⟨_, _, rfl⟩, rfl, rfl, _, rfl, by decide⟩, ?_⟩
  rintro ⟨senders, nodup, many, voted⟩
  have one (sender : Bytes) (member : sender ∈ senders) : sender = sampleAddress 2 := by
    obtain ⟨_, _, vote, processed, _, sent, _⟩ := voted sender member
    have same : vote = sampleVote 2 := by
      simp only [sampleVoteEvent, List.mem_cons, Event.process.injEq, List.not_mem_nil] at processed
      tauto
    rw [← sent, same]
    rfl
  rw [List.eq_replicate_of_mem one, List.nodup_replicate] at nodup
  exact absurd (many.trans nodup) (by decide)

private theorem counts_sampleVoteEvent {center : RpcCenter} {sender : UInt8} {vote : CentersProto}
    (counts : Counts center (sampleVoteEvent sender) vote) : vote = sampleVote sender := by
  obtain ⟨_, _, same⟩ := counts.processed
  cases same
  rfl

private theorem sampleVotes_first : Throughout step sampleCenter (FirstVote sampleCenter)
    ([sampleVoteEvent 2] ++ [sampleVoteEvent 3]) := by
  have run : Run step sampleCenter [sampleVoteEvent 2] _ := .snoc .nil rfl
  refine run.throughout_snoc.mpr ⟨Run.nil.throughout_snoc.mpr ⟨throughout_nil, ?_⟩, ?_⟩
  · intro _ _ earlier counted
    obtain ⟨_, _, processed, _⟩ := counted.processed
    exact absurd processed List.not_mem_nil
  · intro vote counts earlier counted _
    obtain ⟨_, _, processed, _⟩ := counted.processed
    have first : earlier = sampleVote 2 := by
      cases List.mem_singleton.mp processed
      rfl
    rw [counts_sampleVoteEvent counts, first]
    decide

/-- Two centers that each vote once make a quorum of three. -/
theorem decides_quorum_sample : ∃ center, Run step sampleCenter [sampleVoteEvent 2] center ∧
    Quorum center.electionDoneNum ([sampleVoteEvent 2] ++ [sampleVoteEvent 3]) (sampleVote 3) :=
  ⟨_, .snoc .nil rfl, decides_quorum (initRpcCenter_votesFor _ _ _ _) (.snoc .nil rfl)
    sampleVotes_first ⟨⟨_, _, rfl⟩, rfl, rfl, _, rfl, by decide⟩⟩

end RpcCenter

end LibEvRpc
