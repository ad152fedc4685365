import LibEvRpc.Proofs.CenterSteps

/-! # Confirmation of a leader

A confirmation of the own round for the recorded leader or a better one should make the center
follow that leader. The code accepts a better leader only, and then changes the status without
recording the leader; a confirmation of the recorded leader is refused as a tie. Even a refused
confirmation starts the reporter.
-/

namespace LibEvRpc

namespace RpcCenter

/-- The center follows the confirmed leader if it is the recorded one or a better one, and is
unchanged in status and recorded leader otherwise. -/
def Confirms (outside : Outside) (center : RpcCenter) (fd : Int32) (centersProto : CentersProto) :
    Prop :=
  ∃ processed, center.processCenterData outside fd centersProto = some processed ∧
    (center.SameLeader centersProto ∨ center.BetterLeader centersProto →
      processed.center.centerStatus = .following ∧
        processed.center.leaderInfos = ⟨centersProto.lcStartTime, centersProto.leaderCenter⟩) ∧
    (¬ (center.SameLeader centersProto ∨ center.BetterLeader centersProto) →
      processed.center.centerStatus = center.centerStatus ∧
        processed.center.leaderInfos = center.leaderInfos)

theorem sameLeader_iff_eq {center : RpcCenter} {centersProto : CentersProto} :
    center.SameLeader centersProto ↔
      center.leaderInfos = ⟨centersProto.lcStartTime, centersProto.leaderCenter⟩ := by
  constructor
  · rintro ⟨time, addr⟩
    rw [time, addr]
  · intro same
    rw [SameLeader, same]
    exact ⟨rfl, rfl⟩

/-- A confirmation of the own round has its effect exactly when it is not for a better leader, and
the center follows already if it is for the recorded one. -/
theorem leaderConfirm_confirms_iff {outside : Outside} {center : RpcCenter} {fd : Int32}
    {centersProto : CentersProto} (action : centersProto.centerAction = .leaderConfirm)
    (clock : centersProto.logicalClock = center.logicalClock) :
    center.Confirms outside fd centersProto ↔
      ¬ center.BetterLeader centersProto ∧
        (center.SameLeader centersProto → center.centerStatus = .following) := by
  obtain ⟨_, leader, status⟩ := leaderConfirm_spec outside center centersProto
  rw [Confirms, processCenterData, action]
  simp only [Option.some.injEq, exists_eq_left', leader, status, leaderPredicate_eq_accept_iff clock]
  constructor
  · rintro ⟨follows, unchanged⟩
    have notBetter : ¬ center.BetterLeader centersProto := by
      intro better
      exact better.not_same (sameLeader_iff_eq.mpr (follows (.inr better)).2)
    refine ⟨notBetter, fun same => ?_⟩
    have following := (follows (.inl same)).1
    rwa [if_neg notBetter] at following
  · rintro ⟨notBetter, following⟩
    rw [if_neg notBetter]
    refine ⟨?_, fun _ => ⟨rfl, trivial⟩⟩
    rintro (same | better)
    · exact ⟨following same, sameLeader_iff_eq.mp same⟩
    · exact absurd better notBetter

/-- The confirmation of a center with a given host number and start time. -/
def sampleConfirm (leader : UInt8) (lcStartTime : UInt64) : CentersProto :=
  { fromCenterAddr := sampleAddress leader
    centerStatus := .leading
    centerAction := .leaderConfirm
    startTime := lcStartTime
    lcStartTime
    leaderCenter := sampleAddress leader }

/-- A better leader is followed without being recorded. -/
theorem leaderConfirm_better_unrecorded :
    sampleCenter.BetterLeader (sampleConfirm 2 1000) ∧
      ¬ sampleCenter.Confirms sampleOutside 5 (sampleConfirm 2 1000) := by
  have better : sampleCenter.BetterLeader (sampleConfirm 2 1000) := by decide
  refine ⟨better, ?_⟩
  rintro ⟨processed, processing, follows, _⟩
  cases processing
  have leader := (leaderConfirm_spec sampleOutside sampleCenter (sampleConfirm 2 1000)).2.1
  exact better.not_same (sameLeader_iff_eq.mpr (leader.symm.trans (follows (.inr better)).2))

theorem leaderConfirm_confirms_worse :
    sampleCenter.Confirms sampleOutside 5 (sampleConfirm 2 1001) :=
  (@leaderConfirm_confirms_iff sampleOutside sampleCenter 5 (sampleConfirm 2 1001) rfl rfl).mpr
    (by decide)

/-! ## Refused messages -/

/-- What an election message can change is as it was. -/
structure Untouched (before after : RpcCenter) : Prop where
  centerStatus : after.centerStatus = before.centerStatus
  leaderInfos : after.leaderInfos = before.leaderInfos
  logicalClock : after.logicalClock = before.logicalClock
  otherCenters : after.otherCenters = before.otherCenters
  reporterThread : after.reporterThread = before.reporterThread
  leaderThread : after.leaderThread = before.leaderThread
  electionThread : after.electionThread = before.electionThread

def LeavesNoTrace (outside : Outside) (center : RpcCenter) (fd : Int32) (centersProto : CentersProto) :
    Prop :=
  ∃ processed, center.processCenterData outside fd centersProto = some processed ∧
    Untouched center processed.center

/-- A refused confirmation does nothing but start the reporter. -/
theorem leaderConfirm_refused (outside : Outside) {center : RpcCenter} {centersProto : CentersProto}
    (refused : center.leaderPredicate centersProto = .refused) :
    center.leaderConfirm outside centersProto =
      { center with reporterThread := (center.reporterThread.start outside.toPlatform).2 } := by
  rw [leaderConfirm, refused]
  rfl

/-- A refused message leaves no trace exactly when it is a proposal, or the reporter was started
before, or cannot be. -/
theorem refused_leavesNoTrace_iff {outside : Outside} {center : RpcCenter} {fd : Int32}
    {centersProto : CentersProto}
    (kind : centersProto.centerAction = .proposal ∨ centersProto.centerAction = .leaderConfirm)
    (refused : center.leaderPredicate centersProto = .refused) :
    center.LeavesNoTrace outside fd centersProto ↔
      centersProto.centerAction = .proposal ∨ center.reporterThread.threadRunning ∨
        ¬ outside.createOk := by
  rw [LeavesNoTrace, processCenterData]
  rcases kind with action | action
  · have unaccepted : ¬ center.leaderPredicate centersProto = .accept := by
      rw [refused]
      exact CenterAction.noConfusion
    rw [action]
    dsimp only
    rw [if_neg unaccepted]
    exact ⟨fun _ => .inl rfl, fun _ => ⟨_, rfl, rfl, rfl, rfl, rfl, rfl, rfl, rfl⟩⟩
  · rw [action, ← Thread.start_snd_eq_self_iff]
    simp only [leaderConfirm_refused outside refused, Option.some.injEq, exists_eq_left', reduceCtorEq,
      false_or]
    constructor
    · exact Untouched.reporterThread
    · intro unstarted
      exact ⟨rfl, rfl, rfl, rfl, unstarted, rfl, rfl⟩

/-- A new center refuses the confirmation of a later leader and starts its reporter. -/
theorem refused_confirmation_starts_reporter :
    sampleCenter.leaderPredicate (sampleConfirm 2 1001) = .refused ∧
      ¬ sampleCenter.LeavesNoTrace sampleOutside 5 (sampleConfirm 2 1001) := by
  refine ⟨by decide, ?_⟩
  rintro ⟨processed, processing, untouched⟩
  cases processing
  exact absurd untouched.reporterThread (by decide)

theorem refused_proposal_leavesNoTrace :
    sampleCenter.LeavesNoTrace sampleOutside 5 (sampleProposal 2 2 1001) :=
  (@refused_leavesNoTrace_iff sampleOutside sampleCenter 5 (sampleProposal 2 2 1001) (.inl rfl)
    (by decide)).mpr (.inl rfl)

end RpcCenter

end LibEvRpc
