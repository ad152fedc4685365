import LibEvRpc.Center.Cluster
import LibEvRpc.Proofs.CenterSteps

/-! # A center that cannot decide

A new center records itself as leader, knows every other center, and needs at least two votes. As
long as it holds no vote for a candidate, a proposal of that candidate for itself leaves it looking
with at most one vote more, sends nothing and cancels nothing.
-/

namespace LibEvRpc

namespace RpcCenter

/-- A center that looks for a leader and records itself, among the centers of a cluster. -/
structure Undecided (config : ClusterConfig) (addr : Bytes) (center : RpcCenter) : Prop where
  localAddress : center.localAddress = addr
  centerStatus : center.centerStatus = .looking
  leaderCenter : center.leaderInfos.leaderCenter = addr
  threshold : 2 ≤ center.electionDoneNum.toNat
  known : ∀ other, center.inquired other = false
  members : ∀ other ∈ center.otherCenters, other ∈ config.centers

structure ProposesItself (peer : Bytes) (centersProto : CentersProto) : Prop where
  action : centersProto.centerAction = .proposal
  sender : centersProto.fromCenterAddr = peer
  leader : centersProto.leaderCenter = peer
  status : centersProto.centerStatus = .looking

/-- What does not change the identity, the record or the table of a center leaves it undecided. -/
theorem Undecided.congr {config : ClusterConfig} {addr : Bytes} {center other : RpcCenter}
    (undecided : Undecided config addr center) (localAddress : other.localAddress = center.localAddress)
    (status : other.centerStatus = center.centerStatus)
    (leader : other.leaderInfos = center.leaderInfos)
    (threshold : other.electionDoneNum = center.electionDoneNum)
    (table : other.otherCenters = center.otherCenters) : Undecided config addr other where
  localAddress := localAddress.trans undecided.localAddress
  centerStatus := status.trans undecided.centerStatus
  leaderCenter := by rw [leader, undecided.leaderCenter]
  threshold := by rw [threshold]; exact undecided.threshold
  known next := by
    have known := undecided.known next
    rw [inquired] at known ⊢
    rw [table, known]
  members := by rw [table]; exact undecided.members

/-! ## Statuses in the table -/

/-- No entry of a table has the status for unknown. -/
def AllKnown (table : OtherCenters) : Prop :=
  ∀ addr oc, table.lookup addr = some oc → oc.centerStatus ≠ .unkonw

theorem allKnown_iff {center : RpcCenter} :
    AllKnown center.otherCenters ↔ ∀ addr, center.inquired addr = false := by
  constructor
  · intro known addr
    rw [inquired]
    cases found : center.otherCenters.lookup addr with
    | none => rfl
    | some oc => exact decide_eq_false (known addr oc found)
  · intro known addr oc found
    have := known addr
    rw [inquired, found] at this
    exact of_decide_eq_false this

/-- Updating or adding one entry keeps all entries known if the new entry is. -/
theorem AllKnown.modify {table : OtherCenters} (known : AllKnown table) (key : Bytes)
    {update : OtherCenter → OtherCenter}
    (kept : ∀ oc, oc.centerStatus ≠ .unkonw → (update oc).centerStatus ≠ .unkonw) :
    AllKnown (table.modify key update) := by
  intro addr oc found
  by_cases same : addr = key
  · rw [same, AList.lookup_modify_self] at found
    obtain ⟨old, present, rfl⟩ := Option.map_eq_some_iff.mp found
    exact kept old (known key old present)
  · rw [AList.lookup_modify_ne same] at found
    exact known addr oc found

theorem AllKnown.insertNew {table : OtherCenters} (known : AllKnown table) (key : Bytes)
    {entry : OtherCenter} (fresh : entry.centerStatus ≠ .unkonw) :
    AllKnown (table.insertNew key entry) := by
  intro addr oc found
  by_cases same : addr = key
  · rw [same, AList.lookup_insertNew_self] at found
    cases present : table.lookup key with
    | none =>
      rw [present] at found
      cases found
      exact fresh
    | some old =>
      rw [present] at found
      cases found
      exact known key old present
  · rw [AList.lookup_insertNew_ne same] at found
    exact known addr oc found

/-- A vote of a looking center keeps all entries known. -/
theorem AllKnown.vote {table recorded : OtherCenters} {centersProto : CentersProto}
    (known : AllKnown table) (status : centersProto.centerStatus = .looking)
    (success : recordSender table centersProto = some recorded) :
    AllKnown (countVote recorded centersProto).1 := by
  have looking : centersProto.centerStatus ≠ .unkonw := by
    rw [status]
    decide
  have recordedKnown : AllKnown recorded := by
    obtain ⟨name, _, rfl⟩ := Option.map_eq_some_iff.mp success
    split
    · exact known.modify _ fun _ _ => looking
    · exact known.insertNew _ looking
  rw [countVote]
  split
  · exact recordedKnown.insertNew _ (by decide)
  · exact recordedKnown.modify _ fun _ old => old

/-! ## A new center -/

/-- Distinct addresses without one text leave at least all but one. -/
private theorem length_filter_ne {lines : List Bytes} (nodup : lines.Nodup)
    (dotted : ∀ addr ∈ lines, ∃ address, addr = inetNtoa address) (text : Bytes) :
    lines.length - 1 ≤ (lines.filter fun line => CString.ofBuffer line ≠ text).length := by
  have same : (lines.filter fun line => CString.ofBuffer line ≠ text) = lines.erase text := by
    rw [nodup.erase_eq_filter]
    apply List.filter_congr
    intro line member
    obtain ⟨address, rfl⟩ := dotted line member
    rw [ofBuffer_inetNtoa]
    by_cases equal : inetNtoa address = text <;> simp [equal]
  rw [same, List.length_erase]
  split <;> omega

theorem undecided_initRpcCenter (config : ClusterConfig) (addr : Bytes) :
    Undecided config addr (initRpcCenter addr (config.startTime addr) (config.virtualNodeNum addr)
      config.centers) where
  localAddress := rfl
  centerStatus := rfl
  leaderCenter := rfl
  threshold := by
    have keys := initRpcCenter_keys addr (config.startTime addr) (config.virtualNodeNum addr)
      config.nodup
    have length := congrArg List.length keys
    have few := length_filter_ne config.nodup config.dotted (CString.ofBuffer addr)
    have most := List.length_filter_le
      (fun line => decide (CString.ofBuffer line ≠ CString.ofBuffer addr)) config.centers
    have bound := length_le_of_dotted config.nodup config.dotted
    have several := config.several
    rw [List.length_reverse] at length
    change 2 ≤ (UInt32.ofNat (((initRpcCenter addr (config.startTime addr)
      (config.virtualNodeNum addr) config.centers).otherCenters.keys.length + 1) / 2 + 1)).toNat
    rw [length, UInt32.toNat_ofNat_of_lt' (by rw [UInt32.size]; omega)]
    omega
  known := by
    apply allKnown_iff.mp
    intro other oc found
    rw [initRpcCenter_lookup] at found
    split at found
    · cases found
      decide
    · contradiction
  members other member := by
    obtain ⟨oc, found⟩ := Option.isSome_iff_exists.mp (AList.lookup_isSome.mpr member)
    rw [initRpcCenter_lookup] at found
    split at found
    · next listed => exact listed.1
    · contradiction

/-! ## A proposal -/

/-- One vote is not enough for an undecided center. -/
theorem Undecided.not_enough {config : ClusterConfig} {addr : Bytes} {center : RpcCenter}
    (undecided : Undecided config addr center) {voteCount : UInt32} (few : voteCount.toNat ≤ 1) :
    ¬ center.Enough voteCount := by
  rintro ⟨_, enough⟩
  have reached : center.electionDoneNum.toNat ≤ voteCount.toNat := UInt32.le_iff_toNat_le.mp enough
  have threshold := undecided.threshold
  omega

/-- The first proposal of a candidate for itself changes nothing but the table. -/
theorem processCenterData_undecided {config : ClusterConfig} {addr peer : Bytes}
    {center : RpcCenter} {centersProto : CentersProto} (outside : Outside) (fd : Int32)
    (undecided : Undecided config addr center) (proposes : ProposesItself peer centersProto)
    (member : peer ∈ config.centers) (noVotes : votesFor center.otherCenters peer = 0) :
    ∃ table, center.processCenterData outside fd centersProto =
        some ⟨center.withTable table, true, [.close fd], true⟩ ∧
      Undecided config addr (center.withTable table) ∧
      ∀ candidate, votesFor table candidate ≤
        votesFor center.otherCenters candidate + if peer = candidate then 1 else 0 := by
  by_cases accepted : center.leaderPredicate centersProto = .accept
  · have current := not_lt_of_accept accepted
    have fits : (CString.ofBuffer centersProto.leaderCenter).length < leaderNameSize := by
      obtain ⟨address, rfl⟩ := config.dotted peer member
      rw [proposes.leader, ofBuffer_inetNtoa]
      exact lt_of_le_of_lt (inetNtoa_length_le address) (by decide)
    obtain ⟨updated, updating⟩ :=
      Option.isSome_iff_exists.mp ((updateOCStatus_isSome_iff outside current).mpr fits)
    obtain ⟨recorded, recording, result⟩ := updateOCStatus_eq_some current updating
    obtain ⟨keys, counting, uncounting⟩ := recordSender_countVote recording
    have few : (countVote recorded centersProto).2.toNat ≤ 1 ∧
        ∀ candidate, votesFor (countVote recorded centersProto).1 candidate ≤
          votesFor center.otherCenters candidate + if peer = candidate then 1 else 0 := by
      rw [proposes.leader, noVotes] at counting
      by_cases countable : center.Countable centersProto
      · obtain ⟨count, counters⟩ := counting countable
        refine ⟨by omega, fun candidate => ?_⟩
        rw [counters]
        split
        · next same =>
          rw [same, noVotes, if_pos rfl]
          decide
        · exact Nat.le_add_right _ _
      · obtain ⟨count, counters⟩ := uncounting countable
        refine ⟨by rw [count]; decide, fun candidate => ?_⟩
        rw [counters]
        exact Nat.le_add_right _ _
    rw [if_neg (undecided.not_enough few.1)] at result
    refine ⟨(countVote recorded centersProto).1, ?_, ?_, few.2⟩
    · simp only [processCenterData, proposes.action, accepted, ↓reduceIte, updating,
        Option.map_some, result, List.nil_append]
    · exact {
        localAddress := undecided.localAddress
        centerStatus := undecided.centerStatus
        leaderCenter := undecided.leaderCenter
        threshold := undecided.threshold
        known := allKnown_iff.mp ((allKnown_iff.mpr undecided.known).vote proposes.status recording)
        members := fun other present => by
          rcases (keys other).mp present with rfl | old
          · rw [proposes.sender]
            exact member
          · exact undecided.members other old }
  · refine ⟨center.otherCenters, ?_, undecided, fun candidate => Nat.le_add_right _ _⟩
    simp only [processCenterData, proposes.action, accepted, ↓reduceIte]

end RpcCenter

end LibEvRpc
