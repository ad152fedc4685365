import LibEvRpc.Proofs.CenterSteps
import LibEvRpc.Proofs.LogicalClock
import LibEvRpc.ToMathlib.Run
import Mathlib.Data.Finset.Card

/-! # The threshold of an election

The number of votes an election needs is computed once from the list of centers, while every accepted
proposal of an unlisted center makes the table longer. It stays a majority of the centers that are
known exactly as long as there are no more such centers than the number of listed ones leaves room
for: none if it is even, one if it is odd.
-/

namespace LibEvRpc

namespace RpcCenter

/-- The centers a center knows, itself included. -/
def known (center : RpcCenter) : Finset Bytes :=
  insert center.localAddress center.otherCenters.keys.toFinset

/-- The threshold is more than half of the centers that are known. -/
def Majority (center : RpcCenter) : Prop :=
  center.otherCenters.keys.length + 1 < 2 * center.electionDoneNum.toNat

instance (center : RpcCenter) : Decidable center.Majority := inferInstanceAs (Decidable (_ < _))

/-- Any two sets of known centers that reach the threshold share one. -/
def VotersMeet (center : RpcCenter) : Prop :=
  ∀ first ⊆ center.known, ∀ second ⊆ center.known,
    center.electionDoneNum.toNat ≤ first.card → center.electionDoneNum.toNat ≤ second.card →
      (first ∩ second).Nonempty

theorem Majority.votersMeet {center : RpcCenter} (majority : center.Majority) : center.VotersMeet := by
  intro first firstKnown second secondKnown enough alsoEnough
  apply Finset.inter_nonempty_of_card_lt_card_add_card firstKnown secondKnown
  have count : center.known.card ≤ center.otherCenters.keys.length + 1 :=
    (Finset.card_insert_le _ _).trans (Nat.succ_le_succ (List.toFinset_card_le _))
  rw [Majority] at majority
  omega

/-! ## The table behind a run -/

/-- An event has a center recorded: a proposal of its own that is accepted. -/
def Admits (addr : Bytes) (center : RpcCenter) : Event → Prop
  | .process _ _ centersProto =>
      centersProto.centerAction = .proposal ∧ center.leaderPredicate centersProto = .accept ∧
        centersProto.fromCenterAddr = addr
  | .inquiryResponse _ _ | .proposalLeaderElection _ => False

/-- An event adds the center it has recorded to the table, and leaves the threshold as it is. -/
theorem step_table {center next : RpcCenter} {event : Event} (success : center.step event = some next) :
    (∀ addr, addr ∈ next.otherCenters ↔ addr ∈ center.otherCenters ∨ Admits addr center event) ∧
      next.electionDoneNum = center.electionDoneNum := by
  cases event with
  | process outside fd centersProto =>
    obtain ⟨processed, processing, rfl⟩ := Option.map_eq_some_iff.mp success
    by_cases accepted : centersProto.centerAction = .proposal ∧
        center.leaderPredicate centersProto = .accept
    · obtain ⟨action, accepted⟩ := accepted
      obtain ⟨recorded, recording, voting⟩ := processCenterData_voted action accepted processing
      have round := voted_sameRound outside center recorded centersProto
      rw [← voting] at round
      refine ⟨fun addr => ?_, round.electionDoneNum⟩
      rw [round.otherCenters, (recordSender_countVote recording).1, or_comm, Admits]
      simp only [action, accepted, true_and, eq_comm]
    · obtain ⟨other, again, round, _⟩ := processCenterData_sameRound outside fd accepted
      rw [processing, Option.some.injEq] at again
      subst again
      refine ⟨fun addr => ?_, round.electionDoneNum⟩
      rw [round.otherCenters, or_iff_left]
      exact fun admits => accepted ⟨admits.1, admits.2.1⟩
  | inquiryResponse asked responseProto =>
    cases success
    rw [inquiryResponse]
    split
    · exact ⟨fun addr => AList.mem_modify.trans (or_iff_left not_false).symm, rfl⟩
    · exact ⟨fun addr => AList.mem_modify.trans (or_iff_left not_false).symm, rfl⟩
  | proposalLeaderElection outside =>
    cases success
    rw [proposalLeaderElection_center]
    exact ⟨fun addr => (or_iff_left not_false).symm, rfl⟩

/-- A run adds the centers that it has recorded. -/
theorem run_table {start center : RpcCenter} {events : List Event}
    (run : Run step start events center) :
    (∀ addr, addr ∈ center.otherCenters ↔
      addr ∈ start.otherCenters ∨ Sometimes step start (Admits addr) events) ∧
      center.electionDoneNum = start.electionDoneNum := by
  induction run with
  | nil => exact ⟨fun addr => (or_iff_left not_sometimes_nil).symm, rfl⟩
  | snoc run success ih =>
    obtain ⟨members, threshold⟩ := step_table success
    refine ⟨fun addr => ?_, threshold.trans ih.2⟩
    rw [members, ih.1, run.sometimes_snoc, or_assoc]

/-! ## The threshold behind a run -/

/-- The listed centers other than the local one. -/
def listed (localAddress : Bytes) (lines : List Bytes) : Finset Bytes :=
  (lines.filter fun line => CString.ofBuffer line ≠ CString.ofBuffer localAddress).toFinset

theorem mem_initRpcCenter {localAddress : Bytes} {startTime : UInt64} {virtualNodeNum : Int32}
    {lines : List Bytes} {addr : Bytes} :
    addr ∈ (initRpcCenter localAddress startTime virtualNodeNum lines).otherCenters ↔
      addr ∈ listed localAddress lines := by
  rw [← AList.lookup_isSome, initRpcCenter_lookup, listed, List.mem_toFinset, List.mem_filter,
    decide_eq_true_eq]
  split
  · next both => exact ⟨fun _ => both, fun _ => rfl⟩
  · next neither => exact ⟨fun contradictory => by contradiction, fun both => absurd both neither⟩

/-- The number of entries is that of the addresses. -/
theorem length_keys (center : RpcCenter) :
    center.otherCenters.keys.length = center.otherCenters.keys.toFinset.card :=
  (List.toFinset_card_of_nodup center.otherCenters.keys_nodup).symm

theorem initRpcCenter_electionDoneNum (localAddress : Bytes) (startTime : UInt64)
    (virtualNodeNum : Int32) (lines : List Bytes) :
    (initRpcCenter localAddress startTime virtualNodeNum lines).electionDoneNum.toNat =
      (((listed localAddress lines).card + 1) / 2 + 1) % 2 ^ 32 := by
  have keys : (initRpcCenter localAddress startTime virtualNodeNum lines).otherCenters.keys.toFinset =
      listed localAddress lines := by
    ext addr
    rw [List.mem_toFinset, ← AList.mem_keys, mem_initRpcCenter]
  rw [← keys, ← length_keys]
  exact UInt32.toNat_ofNat'

/-- An unlisted center that was recorded in a run. -/
def Stranger (localAddress : Bytes) (startTime : UInt64) (virtualNodeNum : Int32) (lines : List Bytes)
    (events : List Event) (addr : Bytes) : Prop :=
  addr ∉ listed localAddress lines ∧
    Sometimes step (initRpcCenter localAddress startTime virtualNodeNum lines) (Admits addr) events

/-- The table behind a run has the listed centers and the unlisted ones that were recorded. -/
theorem table_of_run {localAddress : Bytes} {startTime : UInt64} {virtualNodeNum : Int32}
    {lines : List Bytes} {events : List Event} {center : RpcCenter}
    (run : Run step (initRpcCenter localAddress startTime virtualNodeNum lines) events center) :
    ∃ recorded : Finset Bytes,
      (∀ addr, addr ∈ recorded ↔
        Stranger localAddress startTime virtualNodeNum lines events addr) ∧
      center.otherCenters.keys.length = (listed localAddress lines).card + recorded.card := by
  obtain ⟨members, _⟩ := run_table run
  simp only [mem_initRpcCenter] at members
  have subset : listed localAddress lines ⊆ center.otherCenters.keys.toFinset := by
    intro addr member
    rw [List.mem_toFinset, ← AList.mem_keys, members]
    exact .inl member
  refine ⟨center.otherCenters.keys.toFinset \ listed localAddress lines, fun addr => ?_, ?_⟩
  · rw [Finset.mem_sdiff, List.mem_toFinset, ← AList.mem_keys, members, Stranger, and_comm]
    exact and_congr_right fun absent => or_iff_right absent
  · rw [length_keys, Nat.add_comm, Finset.card_sdiff_add_card_eq_card subset]

/-- Behind a run the threshold is a majority, and voters that reach it meet, exactly when it fits into
32 bits and the run has recorded no unlisted center, or one if the number of listed ones is odd. -/
theorem majority_iff {localAddress : Bytes} {startTime : UInt64} {virtualNodeNum : Int32}
    {lines : List Bytes} {events : List Event} {center : RpcCenter}
    (run : Run step (initRpcCenter localAddress startTime virtualNodeNum lines) events center) :
    center.Majority ∧ center.VotersMeet ↔
      ((listed localAddress lines).card + 1) / 2 + 1 < 2 ^ 32 ∧
        ∀ strangers : Finset Bytes,
          (∀ addr ∈ strangers, Stranger localAddress startTime virtualNodeNum lines events addr) →
            strangers.card ≤ (listed localAddress lines).card % 2 := by
  obtain ⟨recorded, strange, count⟩ := table_of_run run
  have all : (∀ strangers : Finset Bytes,
      (∀ addr ∈ strangers, Stranger localAddress startTime virtualNodeNum lines events addr) →
        strangers.card ≤ (listed localAddress lines).card % 2) ↔
      recorded.card ≤ (listed localAddress lines).card % 2 := by
    constructor
    · intro bound
      exact bound recorded fun addr => (strange addr).mp
    · intro bound strangers unlisted
      exact (Finset.card_le_card fun addr member => (strange addr).mpr (unlisted addr member)).trans bound
  rw [and_iff_left_of_imp Majority.votersMeet, all, Majority, count, (run_table run).2,
    initRpcCenter_electionDoneNum]
  omega

/-- A proposal of the unlisted center `10.0.0.9`. -/
def strangerProposal : CentersProto := sampleProposal 9 2 900

/-- In a cluster of three the vote of an unlisted center leaves a threshold of two for four centers. -/
theorem majority_lost :
    ∃ center, Run step sampleCenter [.process sampleOutside 5 strangerProposal] center ∧
      ¬ (center.Majority ∧ center.VotersMeet) := by
  refine ⟨_, Run.of_isSome (by decide), ?_⟩
  rintro ⟨majority, _⟩
  exact absurd majority (by decide)

/-- The vote of a listed center keeps the majority. -/
theorem majority_kept :
    ∃ center, Run step sampleCenter [.process sampleOutside 5 (sampleProposal 3 2 900)] center ∧
      center.Majority ∧ center.VotersMeet := by
  have run := @Run.of_isSome _ _ step sampleCenter [.process sampleOutside 5 (sampleProposal 3 2 900)]
    (by decide)
  refine ⟨_, run, (majority_iff run).mpr ⟨by decide, fun strangers unlisted => ?_⟩⟩
  have none : strangers = ∅ := by
    apply Finset.eq_empty_of_forall_notMem
    intro addr member
    obtain ⟨absent, recorded⟩ := unlisted addr member
    rcases (@Run.nil _ _ step sampleCenter).sometimes_snoc.mp recorded with earlier | ⟨_, _, rfl⟩
    · exact not_sometimes_nil earlier
    · exact absent (by decide)
  rw [none]
  exact Nat.zero_le _

end RpcCenter

end LibEvRpc
