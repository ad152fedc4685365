import LibEvRpc.Proofs.CenterSteps

/-! # Which votes are counted

A proposal of the own round for a candidate at least as good as the recorded leader should move
the counter of the candidate by one. It does so only for a candidate that is strictly better and
that has an entry, or is the sender itself: the recorded leader is refused as a tie, and the local
center and unknown candidates have no entry to count in.
-/

namespace LibEvRpc

namespace RpcCenter

/-- The candidate of a message is at least as good as the recorded leader. -/
def AtLeastAsGood (center : RpcCenter) (centersProto : CentersProto) : Prop :=
  centersProto.lcStartTime < center.leaderInfos.lcStartTime ∨
    centersProto.lcStartTime = center.leaderInfos.lcStartTime ∧
      (centersProto.leaderCenter = center.leaderInfos.leaderCenter ∨
        center.leaderInfos.leaderCenter < centersProto.leaderCenter)

instance (center : RpcCenter) (centersProto : CentersProto) :
    Decidable (center.AtLeastAsGood centersProto) := inferInstanceAs (Decidable (_ ∨ _ ∧ (_ ∨ _)))

theorem atLeastAsGood_iff {center : RpcCenter} {centersProto : CentersProto} :
    center.AtLeastAsGood centersProto ↔
      center.SameLeader centersProto ∨ center.BetterLeader centersProto := by
  rw [AtLeastAsGood, SameLeader, BetterLeader]
  constructor
  · rintro (earlier | ⟨time, same | greater⟩)
    · exact .inr (.inl earlier)
    · exact .inl ⟨time, same⟩
    · exact .inr (.inr ⟨time, greater⟩)
  · rintro (⟨time, same⟩ | earlier | ⟨time, greater⟩)
    · exact .inr ⟨time, .inl same⟩
    · exact .inl earlier
    · exact .inr ⟨time, .inr greater⟩

/-- The message is processed and the center holds one more vote for its candidate. -/
def CountsVote (outside : Outside) (center : RpcCenter) (fd : Int32) (centersProto : CentersProto) :
    Prop :=
  ∃ processed, center.processCenterData outside fd centersProto = some processed ∧
    votesFor processed.center.otherCenters centersProto.leaderCenter =
      votesFor center.otherCenters centersProto.leaderCenter + 1

/-- An accepted proposal is counted when its leader has an entry, the counter is not at its
maximum and the name of the leader fits. -/
theorem countsVote_of_accept_iff {outside : Outside} {center : RpcCenter} {fd : Int32}
    {centersProto : CentersProto} (action : centersProto.centerAction = .proposal)
    (accepted : center.leaderPredicate centersProto = .accept) :
    center.CountsVote outside fd centersProto ↔
      center.Countable centersProto ∧
        votesFor center.otherCenters centersProto.leaderCenter < 2 ^ 32 - 1 ∧
        (CString.ofBuffer centersProto.leaderCenter).length < leaderNameSize := by
  constructor
  · rintro ⟨processed, processing, counted⟩
    obtain ⟨recorded, recording, result⟩ := processCenterData_voted action accepted processing
    obtain ⟨_, countable, uncountable⟩ := recordSender_countVote recording
    rw [result, (voted_sameRound outside center recorded centersProto).otherCenters] at counted
    by_cases entry : center.Countable centersProto
    · rw [(countable entry).2, if_pos rfl] at counted
      refine ⟨entry, by omega, ?_⟩
      exact recordSender_isSome_iff.mp (Option.isSome_iff_exists.mpr ⟨_, recording⟩)
    · rw [(uncountable entry).2] at counted
      omega
  · rintro ⟨entry, room, fits⟩
    obtain ⟨processed, processing⟩ := Option.isSome_iff_exists.mp
      ((processCenterData_isSome_iff outside fd action accepted).mpr fits)
    obtain ⟨recorded, recording, result⟩ := processCenterData_voted action accepted processing
    obtain ⟨_, countable, _⟩ := recordSender_countVote recording
    refine ⟨processed, processing, ?_⟩
    rw [result, (voted_sameRound outside center recorded centersProto).otherCenters,
      (countable entry).2, if_pos rfl]
    omega

/-- A proposal of the own round for a candidate at least as good as the recorded leader is counted
exactly when the candidate is not the recorded leader, has an entry or is the sender, has a counter
below its maximum, and has a name that fits. -/
theorem proposal_countsVote_iff {outside : Outside} {center : RpcCenter} {fd : Int32}
    {centersProto : CentersProto} (action : centersProto.centerAction = .proposal)
    (clock : centersProto.logicalClock = center.logicalClock)
    (good : center.AtLeastAsGood centersProto) :
    center.CountsVote outside fd centersProto ↔
      ¬ center.SameLeader centersProto ∧ center.Countable centersProto ∧
        votesFor center.otherCenters centersProto.leaderCenter < 2 ^ 32 - 1 ∧
        (CString.ofBuffer centersProto.leaderCenter).length < leaderNameSize := by
  rcases atLeastAsGood_iff.mp good with same | better
  · have refused : center.leaderPredicate centersProto ≠ .accept := fun accepted =>
      ((leaderPredicate_eq_accept_iff clock).mp accepted).not_same same
    refine ⟨?_, fun ⟨different, _⟩ => absurd same different⟩
    rintro ⟨processed, processing, counted⟩
    have unchanged := processCenterData_proposal_refused outside fd action refused
    rw [processing, Option.map_some, Option.some.injEq] at unchanged
    rw [unchanged] at counted
    omega
  · rw [countsVote_of_accept_iff action ((leaderPredicate_eq_accept_iff clock).mpr better)]
    exact (and_iff_right better.not_same).symm

/-- The vote for the recorded leader, which is the local center of a new center, is lost. -/
theorem proposal_recorded_leader_lost :
    sampleCenter.AtLeastAsGood (sampleProposal 2 1 1000) ∧
      ¬ sampleCenter.CountsVote sampleOutside 5 (sampleProposal 2 1 1000) := by
  refine ⟨by decide, ?_⟩
  rintro ⟨processed, processing, counted⟩
  have refused : sampleCenter.leaderPredicate (sampleProposal 2 1 1000) ≠ .accept := by decide
  have unchanged := processCenterData_proposal_refused sampleOutside 5 rfl refused
  rw [processing, Option.map_some, Option.some.injEq] at unchanged
  rw [unchanged] at counted
  omega

theorem proposal_countsVote_sample :
    sampleCenter.CountsVote sampleOutside 5 (sampleProposal 2 3 999) :=
  (@proposal_countsVote_iff sampleOutside sampleCenter 5 (sampleProposal 2 3 999) rfl rfl
    (by decide)).mpr (by decide)

end RpcCenter

end LibEvRpc
