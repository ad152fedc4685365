import LibEvRpc.Center.CenterThreads
import LibEvRpc.Proofs.CenterSteps
import LibEvRpc.ToMathlib.Run

/-! # The threads of a center over its runs

The flag that an election is running is set where the election thread is started and cleared only
at the end of its `Run`, but the thread can be cancelled before that, and its object is not started
again behind a `Run` that ended. The leader thread tests a flag that is never set: its `Run` ends
at once, discards what was pushed and leaves a null queue behind.
-/

namespace LibEvRpc

/-- A thread still runs behind `Stop` exactly when it was running and is not cancelled. -/
theorem Thread.stop_life_iff (platform : Platform) (thread : Thread) :
    (thread.stop platform).2.life = .running ↔
      thread.life = .running ∧ ¬ (thread.threadRunning ∧ platform.cancelOk) := by
  rw [stop]
  cases alive : thread.isAlive platform with
  | false =>
    have ended : thread.life ≠ .running := by
      intro running
      rw [isAlive, running] at alive
      contradiction
    simp [ended]
  | true => cases thread.threadRunning <;> cases platform.cancelOk <;> simp

/-- A thread that calls `Stop` on itself runs on exactly when it is not cancelled. -/
theorem Thread.stopSelf_life_iff (platform : Platform) {thread : Thread}
    (running : thread.life = .running) :
    (thread.stopSelf platform).2.life = .running ↔
      ¬ (thread.threadRunning ∧ platform.cancelOk) := by
  rw [stopSelf, isAlive, running]
  cases thread.threadRunning <;> cases platform.cancelOk <;> simp [running]

namespace RpcCenter

/-- The vote of a message makes the center the leader, with a leader thread. -/
def BecomesLeader (outside : Outside) (center : RpcCenter) (centersProto : CentersProto) : Prop :=
  ¬ centersProto.logicalClock < center.logicalClock ∧
    ((recordSender center.otherCenters centersProto).any fun recorded =>
      center.Enough (countVote recorded centersProto).2) ∧
    CString.ofBuffer centersProto.leaderCenter = CString.ofBuffer center.localAddress ∧
    (center.leaderThread.start outside.toPlatform).1

instance (outside : Outside) (center : RpcCenter) (centersProto : CentersProto) :
    Decidable (center.BecomesLeader outside centersProto) := inferInstanceAs (Decidable (_ ∧ _))

/-- What enough votes do to the threads of a center. -/
private theorem electionDone_threads (outside : Outside) (center : RpcCenter)
    (centersProto : CentersProto) :
    (electionDone outside center centersProto).center.fastleaderElectionRunning =
        center.fastleaderElectionRunning ∧
      (electionDone outside center centersProto).center.electionThread =
        (if CString.ofBuffer centersProto.leaderCenter = CString.ofBuffer center.localAddress ∧
            (center.leaderThread.start outside.toPlatform).1 then
          (center.electionThread.stopSelf outside.toPlatform).2 else center.electionThread) ∧
      ((electionDone outside center centersProto).center.leaderThread = center.leaderThread ∨
        (electionDone outside center centersProto).center.leaderThread =
          (center.leaderThread.start outside.toPlatform).2) := by
  rw [electionDone]
  split
  · next own =>
    dsimp only
    split
    · next started => exact ⟨rfl, (if_pos ⟨own, started⟩).symm, .inr rfl⟩
    · next failed => exact ⟨rfl, (if_neg fun done => failed done.2).symm, .inr rfl⟩
  · next foreign =>
    have kept := (if_neg fun done => foreign (And.left done) :
      (if CString.ofBuffer centersProto.leaderCenter = CString.ofBuffer center.localAddress ∧
          (center.leaderThread.start outside.toPlatform).1 then
        (center.electionThread.stopSelf outside.toPlatform).2 else center.electionThread) = _)
    split
    · exact ⟨rfl, kept.symm, .inl rfl⟩
    · exact ⟨rfl, kept.symm, .inl rfl⟩

/-- What `UpdateOCStatus` does to the threads of a center. -/
theorem updateOCStatus_threads {outside : Outside} {center : RpcCenter} {centersProto : CentersProto}
    {updated : Updated} (success : center.updateOCStatus outside centersProto = some updated) :
    updated.center.fastleaderElectionRunning = center.fastleaderElectionRunning ∧
      updated.center.electionThread =
        (if center.BecomesLeader outside centersProto then
          (center.electionThread.stopSelf outside.toPlatform).2 else center.electionThread) ∧
      (updated.center.leaderThread = center.leaderThread ∨
        updated.center.leaderThread = (center.leaderThread.start outside.toPlatform).2) := by
  by_cases stale : centersProto.logicalClock < center.logicalClock
  · rw [updateOCStatus, if_pos stale] at success
    cases success
    rw [if_neg fun becomes => becomes.1 stale]
    exact ⟨rfl, rfl, .inl rfl⟩
  · obtain ⟨recorded, found, rfl⟩ := updateOCStatus_eq_some stale success
    have counted : center.BecomesLeader outside centersProto ↔
        center.Enough (countVote recorded centersProto).2 ∧
          CString.ofBuffer centersProto.leaderCenter = CString.ofBuffer center.localAddress ∧
            (center.leaderThread.start outside.toPlatform).1 := by
      rw [BecomesLeader, found, Option.any_some, decide_eq_true_iff]
      exact and_iff_right stale
    simp only [counted]
    split
    · next enough =>
      simp only [enough, true_and]
      exact electionDone_threads outside (center.withTable _) centersProto
    · next few =>
      rw [if_neg fun becomes => few becomes.1]
      exact ⟨rfl, rfl, .inl rfl⟩

private theorem inquiryResponse_election (center : RpcCenter) (addr : Bytes)
    (responseProto : CentersProto) :
    (center.inquiryResponse addr responseProto).fastleaderElectionRunning =
        center.fastleaderElectionRunning ∧
      (center.inquiryResponse addr responseProto).electionThread = center.electionThread := by
  rw [inquiryResponse]
  split <;> exact ⟨rfl, rfl⟩

private theorem inquiryCenters_election (outside : Outside) (center : RpcCenter)
    (response : Bytes → Option CentersProto) :
    (center.inquiryCenters outside response).fastleaderElectionRunning =
        center.fastleaderElectionRunning ∧
      (center.inquiryCenters outside response).electionThread = center.electionThread := by
  rw [inquiryCenters]
  split
  · next serialized =>
    clear serialized
    generalize center.otherCenters.keys = addrs
    induction addrs generalizing center with
    | nil => exact ⟨rfl, rfl⟩
    | cons addr addrs ih =>
      rw [List.foldl_cons]
      split
      · cases response addr with
        | none => exact ih center
        | some responseProto =>
          obtain ⟨flag, thread⟩ := inquiryResponse_election center addr responseProto
          rw [← flag, ← thread]
          exact ih (center.inquiryResponse addr responseProto)
      · exact ih center
  · exact ⟨rfl, rfl⟩

/-- The election of a started thread touches neither the thread nor the flag. -/
theorem fastLeaderElection_election (outside : Outside) (center : RpcCenter)
    (response : Bytes → Option CentersProto) :
    (center.fastLeaderElection outside response).1.fastleaderElectionRunning =
        center.fastleaderElectionRunning ∧
      (center.fastLeaderElection outside response).1.electionThread = center.electionThread := by
  obtain ⟨flag, thread⟩ := inquiryCenters_election outside center response
  rw [fastLeaderElection, proposalLeaderElection, ← flag, ← thread]
  split <;> exact ⟨rfl, rfl⟩

/-! ## The flag of the election -/

/-- The flag says that the election thread is running exactly when it is. -/
def FlagAgrees (center : RpcCenter) : Prop :=
  center.fastleaderElectionRunning ↔ center.electionThread.life = .running

/-- What an operation leaves in step: the flag with the thread, and a running thread behind a
`StartFastLeaderElection` that returned true. -/
def InStep (center : RpcCenter) (operation : Operation) : Prop :=
  ∀ ret next, center.operate operation = some (ret, next) → next.FlagAgrees ∧
    ∀ outside response, operation = .startFastLeaderElection outside response → ret →
      next.electionThread.life = .running

/-- An operation neither cancels a running election thread nor starts one whose object still has the
flag of a `Run` that ended. -/
def KeepsElection (center : RpcCenter) : Operation → Prop
  | .startFastLeaderElection _ _ =>
      center.fastleaderElectionRunning ∨ ¬ center.electionThread.threadRunning
  | .updateOCStatus outside centersProto =>
      ¬ (center.BecomesLeader outside centersProto ∧ center.electionThread.threadRunning ∧
        outside.cancelOk)
  | .stopCenter platform =>
      ¬ (center.electionThread.life = .running ∧ center.electionThread.threadRunning ∧
        platform.cancelOk)
  | .electionRunEnds => True

theorem operate_startFastLeaderElection {center next : RpcCenter} {outside : Outside}
    {response : Bytes → Option CentersProto} {ret : Bool}
    (success : center.operate (.startFastLeaderElection outside response) = some (ret, next)) :
    ret = (center.startElectionThread outside.toPlatform).1 ∧
      next.fastleaderElectionRunning =
        (center.startElectionThread outside.toPlatform).2.fastleaderElectionRunning ∧
      next.electionThread = (center.startElectionThread outside.toPlatform).2.electionThread := by
  rw [operate, startFastLeaderElection] at success
  dsimp only at success
  split at success
  · next started =>
    cases success
    exact ⟨started.symm, fastLeaderElection_election _ _ _⟩
  · next failed =>
    cases success
    exact ⟨(Bool.eq_false_iff.mpr failed).symm, rfl, rfl⟩

private theorem inStep_iff_of_operate {center after : RpcCenter} {operation : Operation} {ret : Bool}
    (success : center.operate operation = some (ret, after)) :
    center.InStep operation ↔ after.FlagAgrees ∧ ∀ outside response,
      operation = .startFastLeaderElection outside response → ret →
        after.electionThread.life = .running := by
  constructor
  · intro inStep
    exact inStep ret after success
  · intro met otherRet next again
    rw [success] at again
    cases again
    exact met

/-- From a center in step an operation leaves it in step exactly when it keeps the election. -/
theorem inStep_iff {center after : RpcCenter} {operation : Operation} {ret : Bool}
    (agrees : center.FlagAgrees) (success : center.operate operation = some (ret, after)) :
    center.InStep operation ↔ center.KeepsElection operation := by
  rw [inStep_iff_of_operate success, FlagAgrees]
  rw [FlagAgrees] at agrees
  cases operation with
  | startFastLeaderElection outside response =>
    obtain ⟨rfl, flag, thread⟩ := operate_startFastLeaderElection success
    rw [flag, thread, KeepsElection, startElectionThread]
    cases running : center.fastleaderElectionRunning with
    | true => simp [running, agrees.mp running]
    | false =>
      have stopped : center.electionThread.life ≠ .running := by simp [← agrees, running]
      rw [Thread.start]
      cases center.electionThread.threadRunning with
      | true => simp [stopped]
      | false => cases outside.createOk <;> simp [stopped]
  | updateOCStatus outside centersProto =>
    rw [operate] at success
    split at success
    · next alive =>
      obtain ⟨updated, voted, same⟩ := Option.map_eq_some_iff.mp success
      cases same
      obtain ⟨flag, thread, _⟩ := updateOCStatus_threads voted
      rw [flag, thread, KeepsElection]
      split
      · next becomes =>
        have flagged : center.fastleaderElectionRunning := agrees.mpr alive
        rw [Thread.stopSelf_life_iff _ alive]
        simp [becomes, flagged]
      · next remains => simp [remains, agrees]
    · contradiction
  | stopCenter platform =>
    cases success
    rw [KeepsElection, stopCenter, Thread.stop_life_iff, agrees]
    simp
  | electionRunEnds =>
    rw [operate] at success
    split at success
    · cases success
      simp [KeepsElection, electionRunEnds]
    · contradiction

/-- What keeps the election leaves flag and thread in step. -/
private theorem flagAgrees_of_keeps {center after : RpcCenter} {operation : Operation}
    (agrees : center.FlagAgrees) (kept : center.KeepsElection operation)
    (success : center.operated operation = some after) : after.FlagAgrees := by
  obtain ⟨⟨ret, _⟩, operated, rfl⟩ := Option.map_eq_some_iff.mp success
  exact ((inStep_iff agrees operated).mpr kept ret _ operated).1

/-- In a run of operations the flag says after each of them whether the election thread is running,
and each start that returns true leaves it running, exactly when no operation cancels a running
election thread or starts one whose object still has the flag of a `Run` that ended. -/
theorem fastleaderElectionRunning_iff (localAddress : Bytes) (startTime : UInt64)
    (virtualNodeNum : Int32) (lines : List Bytes) {operations : List Operation} {final : RpcCenter}
    (run : Run operated (initRpcCenter localAddress startTime virtualNodeNum lines) operations final) :
    Throughout operated (initRpcCenter localAddress startTime virtualNodeNum lines)
        (fun _ center operation => center.InStep operation) operations ↔
      Throughout operated (initRpcCenter localAddress startTime virtualNodeNum lines)
        (fun _ center operation => center.KeepsElection operation) operations := by
  refine @Run.throughout_congr_of_invariant _ _ _ _ _ _ (fun _ center => FlagAgrees center) _ _ run
    ?_ ?_ ?_
  · simp [FlagAgrees, initRpcCenter, Thread.new]
  · intro _ center operation after agrees success
    obtain ⟨⟨ret, _⟩, operated, rfl⟩ := Option.map_eq_some_iff.mp success
    exact inStep_iff agrees operated
  · intro _ center operation after agrees kept success
    exact flagAgrees_of_keeps agrees kept success

/-- The center 10.0.0.1 starts an election, and two votes make it the leader. -/
def sampleVictory : List Operation :=
  [.startFastLeaderElection sampleOutside fun _ => none,
    .updateOCStatus sampleOutside { sampleProposal 1 1 1000 with logicalClock := 1 },
    .updateOCStatus sampleOutside { sampleProposal 2 1 1000 with logicalClock := 1 }]

private theorem sampleVictory_isSome : (sampleVictory.foldlM operated sampleCenter).isSome := by
  decide +kernel

/-- The elected center cancels its election thread and keeps the flag, so that the next election
starts without a thread. -/
theorem fastleaderElectionRunning_stale :
    ∃ led, Run operated sampleCenter sampleVictory led ∧ led.fastleaderElectionRunning ∧
      led.electionThread.life = .ended ∧
      (led.operate (.startFastLeaderElection sampleOutside fun _ => none)).map
        (fun operated => (operated.1, operated.2.electionThread.life)) = some (true, .ended) :=
  ⟨_, Run.of_isSome sampleVictory_isSome, by decide +kernel, by decide +kernel, by decide +kernel⟩

/-- A run of one start and one vote keeps the election. -/
theorem fastleaderElectionRunning_iff_sample :
    Throughout operated sampleCenter (fun _ center operation => center.InStep operation)
        (sampleVictory.take 2) ↔
      Throughout operated sampleCenter (fun _ center operation => center.KeepsElection operation)
        (sampleVictory.take 2) :=
  fastleaderElectionRunning_iff _ _ _ _ (Run.of_isSome (by decide +kernel))

end RpcCenter

namespace LeaderQueue

open RpcCenter

/-! ## The queue of the leader thread -/

/-- What a leader relies on: no null queue was read or written, the thread has not ended, and what was
pushed was popped in that order or is queued. -/
structure Safe (state : LeaderQueue) : Prop where
  nonNull : state.nullAccess = false
  draining : state.center.leaderThread.life ≠ .ended
  kept : ∃ items, state.followerQ.items = some items ∧ state.popped ++ items = state.pushed

/-- The state before `Run` tests its flag. -/
structure Untested (state : LeaderQueue) : Prop extends Safe state where
  phase : state.phase = .outside ∨ state.phase = .testing

private theorem start_life_ne_ended (platform : Platform) {thread : Thread}
    (alive : thread.life ≠ .ended) : (thread.start platform).2.life ≠ .ended := by
  rw [Thread.start]
  split
  · exact alive
  · split
    · simp
    · exact alive

/-- No operation sets `running_`. -/
theorem running_of_step {state next : LeaderQueue} {action : Action} (idle : state.running = false)
    (success : state.step action = some next) : next.running = false := by
  cases action with
  | updateOCStatus outside centersProto =>
    obtain ⟨updated, _, kept⟩ := Option.bind_eq_some_iff.mp success
    split at kept
    · cases kept
      exact idle
    · contradiction
  | pushFollowerMessage item =>
    rw [step] at success
    split at success
    · cases success
      rw [pushFollowerMessage]
      split <;> exact idle
    · contradiction
  | enter =>
    rw [step] at success
    split at success
    · cases success
      exact idle
    · contradiction
  | test =>
    rw [step] at success
    split at success
    · cases success
      rw [test]
      split <;> exact idle
    · contradiction
  | pop =>
    rw [step] at success
    split at success
    · cases success
      rw [popFollowerMessage]
      split <;> exact idle
    · contradiction
  | process outside =>
    rw [step] at success
    split at success
    · obtain ⟨processed, _, kept⟩ := Option.bind_eq_some_iff.mp success
      split at kept
      · cases kept
        exact idle
      · contradiction
    · contradiction
    · contradiction
    · contradiction

/-- `Run` ends at its first test. -/
theorem ended_of_test {state next : LeaderQueue} (idle : state.running = false)
    (success : state.step .test = some next) : next.center.leaderThread.life = .ended := by
  rw [step] at success
  split at success
  · cases success
    rw [test, if_neg (by rw [idle]; exact Bool.false_ne_true)]
  · contradiction

/-- Until `Run` tests its flag, messages are only queued. -/
theorem untested_of_step {state next : LeaderQueue} {action : Action} (untested : state.Untested)
    (other : action ≠ .test) (success : state.step action = some next) : next.Untested := by
  obtain ⟨⟨nonNull, draining, items, found, kept⟩, phase⟩ := untested
  cases action with
  | updateOCStatus outside centersProto =>
    obtain ⟨updated, voted, leading⟩ := Option.bind_eq_some_iff.mp success
    split at leading
    · cases leading
      refine ⟨⟨nonNull, ?_, items, found, kept⟩, phase⟩
      rcases (updateOCStatus_threads voted).2.2 with same | started
      · exact same ▸ draining
      · exact started ▸ start_life_ne_ended _ draining
    · contradiction
  | pushFollowerMessage item =>
    rw [step] at success
    split at success
    · cases success
      rw [pushFollowerMessage, MessageQueue.push, found]
      have longer : state.popped ++ (items ++ [item]) = state.pushed ++ [item] := by
        rw [← List.append_assoc, kept]
      exact ⟨⟨nonNull, draining, items ++ [item], rfl, longer⟩, phase⟩
    · contradiction
  | enter =>
    rw [step] at success
    split at success
    · cases success
      exact ⟨⟨nonNull, draining, items, by rw [MessageQueue.enter, found]; rfl, kept⟩, .inr rfl⟩
    · contradiction
  | test => exact absurd rfl other
  | pop =>
    rw [step] at success
    split at success
    · next popping => rcases phase with here | here <;> rw [here] at popping <;> contradiction
    · contradiction
  | process outside =>
    rw [step] at success
    rcases phase with here | here <;> rw [here] at success <;> contradiction

/-- While a center leads, its queue is there, its leader thread has not ended and each message is
popped in order or queued, exactly as long as `Run` has not come to test its flag. -/
theorem follower_queue_safe_iff (center : RpcCenter) {actions : List Action} {final : LeaderQueue}
    (run : Run step (init center) actions final) :
    (∀ before state, before <+: actions → Run step (init center) before state → state.Safe) ↔
      Action.test ∉ actions := by
  have idle {before : List Action} {state : LeaderQueue} (reached : Run step (init center) before state) :
      state.running = false := by
    induction reached with
    | nil => rfl
    | snoc reached success ih => exact running_of_step ih success
  constructor
  · intro safe tested
    obtain ⟨before, after, rfl⟩ := List.append_of_mem tested
    have front : before ++ [Action.test] <+: before ++ Action.test :: after := ⟨after, by simp⟩
    obtain ⟨next, reached⟩ := run.of_prefix front
    obtain ⟨state, earlier, success⟩ := reached.last
    exact (safe _ next front reached).draining (ended_of_test (idle earlier) success)
  · intro untested before state front reached
    have absent : Action.test ∉ before := fun member => untested (front.subset member)
    clear front
    suffices state.Untested from this.toSafe
    induction reached with
    | nil => exact ⟨⟨rfl, by simp [init, Thread.new], [], rfl, rfl⟩, .inl rfl⟩
    | snoc reached success ih =>
      rw [List.mem_append, not_or] at absent
      exact untested_of_step (ih absent.1) (fun same => absent.2 (same ▸ List.mem_singleton_self _)) success

/-- The center 10.0.0.1 with one vote for itself. -/
def sampleCandidate : RpcCenter :=
  ((sampleVictory.take 2).foldlM operated sampleCenter).getD sampleCenter

def sampleMessage (conn : ℕ) : QueuedMessage := ⟨conn, 5, {}⟩

/-- The second vote starts the leader thread; a message is pushed, `Run` begins and tests its flag,
and another message is pushed. -/
def sampleLeadership : List Action :=
  [.updateOCStatus sampleOutside { sampleProposal 2 1 1000 with logicalClock := 1 },
    .pushFollowerMessage (sampleMessage 0), .enter, .test, .pushFollowerMessage (sampleMessage 1)]

private theorem sampleLeadership_isSome :
    (sampleLeadership.foldlM step (init sampleCandidate)).isSome := by decide +kernel

/-- The first message is discarded, and the second one is pushed to a null queue. -/
theorem follower_queue_null :
    ∃ final, Run step (init sampleCandidate) sampleLeadership final ∧
      final.center.centerStatus = .leading ∧ final.center.leaderThread = ⟨true, .ended⟩ ∧
      final.nullAccess ∧ final.pushed = [sampleMessage 0, sampleMessage 1] ∧ final.popped = [] ∧
      final.followerQ.items = none :=
  ⟨_, Run.of_isSome sampleLeadership_isSome, by decide +kernel, by decide +kernel, by decide +kernel,
    by decide +kernel, by decide +kernel, by decide +kernel⟩

private theorem sampleStart_isSome :
    ((sampleLeadership.take 3).foldlM step (init sampleCandidate)).isSome := by decide +kernel

/-- Nothing is lost while the thread starts. -/
theorem follower_queue_safe_iff_sample :
    (∃ final, Run step (init sampleCandidate) (sampleLeadership.take 3) final) ∧
      ∀ before state, before <+: sampleLeadership.take 3 →
        Run step (init sampleCandidate) before state → state.Safe :=
  ⟨⟨_, Run.of_isSome sampleStart_isSome⟩,
    (follower_queue_safe_iff sampleCandidate (Run.of_isSome sampleStart_isSome)).mpr
      (by simp [sampleLeadership])⟩

end LeaderQueue

end LibEvRpc
