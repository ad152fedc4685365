import LibEvRpc.Center.RpcCenter

/-! # What one call of a center does

The acceptance test is an order on candidates at equal clocks. An accepted proposal moves the
counter of the leader it names and no other, by one and modulo `2 ^ 32`, provided the leader has
an entry once the sender has one. Nothing that follows a vote touches the counters or the clock.
-/

namespace LibEvRpc

namespace RpcCenter

/-! ## The acceptance test -/

/-- The candidate of a message has the recorded leader's address and start time. -/
def SameLeader (center : RpcCenter) (centersProto : CentersProto) : Prop :=
  centersProto.lcStartTime = center.leaderInfos.lcStartTime ∧
    centersProto.leaderCenter = center.leaderInfos.leaderCenter

/-- The candidate of a message is before the recorded leader in the election order: it started
earlier, or at the same time and has the greater address. -/
def BetterLeader (center : RpcCenter) (centersProto : CentersProto) : Prop :=
  centersProto.lcStartTime < center.leaderInfos.lcStartTime ∨
    centersProto.lcStartTime = center.leaderInfos.lcStartTime ∧
      center.leaderInfos.leaderCenter < centersProto.leaderCenter

instance (center : RpcCenter) (centersProto : CentersProto) :
    Decidable (center.SameLeader centersProto) := inferInstanceAs (Decidable (_ ∧ _))

instance (center : RpcCenter) (centersProto : CentersProto) :
    Decidable (center.BetterLeader centersProto) := inferInstanceAs (Decidable (_ ∨ _ ∧ _))

theorem BetterLeader.not_same {center : RpcCenter} {centersProto : CentersProto}
    (better : center.BetterLeader centersProto) : ¬ center.SameLeader centersProto := by
  rintro ⟨time, addr⟩
  rcases better with earlier | ⟨_, greater⟩
  · rw [time] at earlier
    exact absurd earlier (UInt64.lt_irrefl _)
  · rw [addr] at greater
    exact absurd greater (List.lt_irrefl _)

/-- Messages of the own round are accepted exactly for a better leader. -/
theorem leaderPredicate_eq_accept_iff {center : RpcCenter} {centersProto : CentersProto}
    (clock : centersProto.logicalClock = center.logicalClock) :
    center.leaderPredicate centersProto = .accept ↔ center.BetterLeader centersProto := by
  rw [leaderPredicate, if_neg (clock ▸ UInt64.lt_irrefl _), if_pos clock, BetterLeader]
  split
  · next later =>
    have : ¬ centersProto.lcStartTime < center.leaderInfos.lcStartTime :=
      UInt64.not_lt.mpr (UInt64.le_of_lt later)
    have : centersProto.lcStartTime ≠ center.leaderInfos.lcStartTime :=
      fun same => UInt64.lt_irrefl _ (same ▸ later)
    simp [*]
  · next notLater =>
    rcases UInt64.lt_or_eq_of_le (UInt64.not_lt.mp notLater) with earlier | same
    · have : centersProto.lcStartTime ≠ center.leaderInfos.lcStartTime :=
        fun same => UInt64.lt_irrefl _ (same ▸ earlier)
      simp [*]
    · by_cases greater : center.leaderInfos.leaderCenter < centersProto.leaderCenter
      · simp [same, greater]
      · simp [same, greater]

/-- Whatever is accepted is not of an earlier round. -/
theorem not_lt_of_accept {center : RpcCenter} {centersProto : CentersProto}
    (accepted : center.leaderPredicate centersProto = .accept) :
    ¬ centersProto.logicalClock < center.logicalClock := by
  intro earlier
  rw [leaderPredicate, if_pos earlier] at accepted
  contradiction

/-! ## Votes -/

def votesFor (table : OtherCenters) (candidate : Bytes) : ℕ :=
  ((table.lookup candidate).map fun oc => oc.voteCount.toNat).getD 0

theorem votesFor_eq_of_lookup {table other : OtherCenters} {candidate : Bytes}
    (same : table.lookup candidate = other.lookup candidate) :
    votesFor table candidate = votesFor other candidate := by
  rw [votesFor, votesFor, same]

/-- An update of an entry that keeps its counter moves no vote. -/
theorem votesFor_modify (table : OtherCenters) (addr : Bytes) {update : OtherCenter → OtherCenter}
    (kept : ∀ oc, (update oc).voteCount = oc.voteCount) (candidate : Bytes) :
    votesFor (table.modify addr update) candidate = votesFor table candidate := by
  by_cases same : candidate = addr
  · rw [votesFor, votesFor, same, AList.lookup_modify_self, Option.map_map]
    simp only [Function.comp_def, kept]
  · exact votesFor_eq_of_lookup (AList.lookup_modify_ne same)

/-- The sender can be recorded exactly when the name of its leader fits. -/
theorem recordSender_isSome_iff {table : OtherCenters} {centersProto : CentersProto} :
    (recordSender table centersProto).isSome ↔
      (CString.ofBuffer centersProto.leaderCenter).length < leaderNameSize := by
  rw [recordSender, Option.isSome_map, strcpy?]
  split
  · next fits => exact ⟨fun _ => fits, fun _ => rfl⟩
  · next overflow => exact ⟨fun contradictory => by contradiction, fun fits => absurd fits overflow⟩

/-- Recording the sender makes it present, keeps everything else present or absent, and moves no
vote. -/
theorem recordSender_spec {table recorded : OtherCenters} {centersProto : CentersProto}
    (success : recordSender table centersProto = some recorded) :
    (∀ addr, addr ∈ recorded ↔ addr = centersProto.fromCenterAddr ∨ addr ∈ table) ∧
      ∀ candidate, votesFor recorded candidate = votesFor table candidate := by
  obtain ⟨name, _, rfl⟩ := Option.map_eq_some_iff.mp success
  split
  · next present =>
    constructor
    · intro addr
      rw [AList.mem_modify]
      constructor
      · exact Or.inr
      · rintro (rfl | member)
        · exact present
        · exact member
    · apply votesFor_modify
      exact fun _ => rfl
  · next absent =>
    refine ⟨fun addr => AList.mem_insertNew, fun candidate => ?_⟩
    by_cases same : candidate = centersProto.fromCenterAddr
    · rw [votesFor, votesFor, same, AList.lookup_insertNew_self, AList.lookup_eq_none.mpr absent]
      rfl
    · exact votesFor_eq_of_lookup (AList.lookup_insertNew_ne same)

/-- The vote for a leader with an entry moves its counter, and that is the count returned. -/
theorem countVote_of_mem {table : OtherCenters} {centersProto : CentersProto}
    (present : centersProto.leaderCenter ∈ table) :
    (countVote table centersProto).2.toNat =
        (votesFor table centersProto.leaderCenter + 1) % 2 ^ 32 ∧
      (∀ addr, addr ∈ (countVote table centersProto).1 ↔ addr ∈ table) ∧
      ∀ candidate, votesFor (countVote table centersProto).1 candidate =
        if candidate = centersProto.leaderCenter then
          (votesFor table centersProto.leaderCenter + 1) % 2 ^ 32
        else votesFor table candidate := by
  obtain ⟨oc, found⟩ := Option.isSome_iff_exists.mp (AList.lookup_isSome.mpr present)
  have held : votesFor table centersProto.leaderCenter = oc.voteCount.toNat := by
    rw [votesFor, found]
    rfl
  have added : (oc.voteCount + 1).toNat = (oc.voteCount.toNat + 1) % 2 ^ 32 :=
    UInt32.toNat_add oc.voteCount 1
  simp only [countVote, found, held]
  refine ⟨added, fun addr => AList.mem_modify, fun candidate => ?_⟩
  split
  · next same =>
    rw [same, votesFor, AList.lookup_modify_self, found]
    exact added
  · next other => exact votesFor_eq_of_lookup (AList.lookup_modify_ne other)

/-- The vote for a leader without an entry is lost once the sender has one. -/
theorem countVote_of_notMem {table : OtherCenters} {centersProto : CentersProto}
    (absent : centersProto.leaderCenter ∉ table) (sender : centersProto.fromCenterAddr ∈ table) :
    countVote table centersProto = (table, 0) := by
  rw [countVote, AList.lookup_eq_none.mpr absent]
  exact congrArg (·, 0) (AList.insertNew_of_mem sender)

/-- The named leader has an entry once the sender has one. -/
def Countable (center : RpcCenter) (centersProto : CentersProto) : Prop :=
  centersProto.leaderCenter ∈ center.otherCenters ∨
    centersProto.leaderCenter = centersProto.fromCenterAddr

instance (center : RpcCenter) (centersProto : CentersProto) :
    Decidable (center.Countable centersProto) := inferInstanceAs (Decidable (_ ∨ _))

/-- Both locked blocks together: the counters behind them, and the count that is compared. -/
theorem recordSender_countVote {center : RpcCenter} {recorded : OtherCenters}
    {centersProto : CentersProto}
    (success : recordSender center.otherCenters centersProto = some recorded) :
    (∀ addr, addr ∈ (countVote recorded centersProto).1 ↔
      addr = centersProto.fromCenterAddr ∨ addr ∈ center.otherCenters) ∧
    (center.Countable centersProto →
      (countVote recorded centersProto).2.toNat =
        (votesFor center.otherCenters centersProto.leaderCenter + 1) % 2 ^ 32 ∧
      ∀ candidate, votesFor (countVote recorded centersProto).1 candidate =
        if candidate = centersProto.leaderCenter then
          (votesFor center.otherCenters centersProto.leaderCenter + 1) % 2 ^ 32
        else votesFor center.otherCenters candidate) ∧
    (¬ center.Countable centersProto →
      (countVote recorded centersProto).2 = 0 ∧
      ∀ candidate, votesFor (countVote recorded centersProto).1 candidate =
        votesFor center.otherCenters candidate) := by
  obtain ⟨members, votes⟩ := recordSender_spec success
  have entry : centersProto.leaderCenter ∈ recorded ↔ center.Countable centersProto := by
    rw [members, Countable, or_comm]
  by_cases present : centersProto.leaderCenter ∈ recorded
  · obtain ⟨count, keys, counters⟩ := countVote_of_mem present
    simp only [votes] at count counters
    exact ⟨fun addr => (keys addr).trans (members addr), fun _ => ⟨count, counters⟩,
      fun uncounted => absurd (entry.mp present) uncounted⟩
  · rw [countVote_of_notMem present ((members _).mpr (.inl rfl))]
    exact ⟨members, fun counted => absurd (entry.mpr counted) present, fun _ => ⟨rfl, votes⟩⟩

/-! ## What a call leaves alone -/

/-- The parts of a center that an election result does not touch. -/
structure SameRound (before after : RpcCenter) : Prop where
  localAddress : after.localAddress = before.localAddress
  startTime : after.startTime = before.startTime
  otherCenters : after.otherCenters = before.otherCenters
  electionDoneNum : after.electionDoneNum = before.electionDoneNum
  logicalClock : after.logicalClock = before.logicalClock

theorem electionDone_sameRound (outside : Outside) (center : RpcCenter)
    (centersProto : CentersProto) :
    SameRound center (electionDone outside center centersProto).center := by
  rw [electionDone]
  split
  · dsimp only
    split
    · exact ⟨rfl, rfl, rfl, rfl, rfl⟩
    · exact ⟨rfl, rfl, rfl, rfl, rfl⟩
  · split
    · exact ⟨rfl, rfl, rfl, rfl, rfl⟩
    · exact ⟨rfl, rfl, rfl, rfl, rfl⟩

/-- The rings of a center, which neither a vote nor a confirmation touches. -/
structure SameRings (before after : RpcCenter) : Prop where
  loadBalancer : after.loadBalancer = before.loadBalancer
  centerHashMap : after.centerHashMap = before.centerHashMap

theorem electionDone_sameRings (outside : Outside) (center : RpcCenter)
    (centersProto : CentersProto) :
    SameRings center (electionDone outside center centersProto).center := by
  rw [electionDone]
  split
  · dsimp only
    split
    · exact ⟨rfl, rfl⟩
    · exact ⟨rfl, rfl⟩
  · split
    · exact ⟨rfl, rfl⟩
    · exact ⟨rfl, rfl⟩

theorem leaderConfirm_sameRings (outside : Outside) (center : RpcCenter)
    (centersProto : CentersProto) : SameRings center (center.leaderConfirm outside centersProto) := by
  rw [leaderConfirm]
  split
  · dsimp only
    split
    · exact ⟨rfl, rfl⟩
    · exact ⟨rfl, rfl⟩
  · exact ⟨rfl, rfl⟩

/-- There are enough votes in a count for the leader it belongs to. -/
def Enough (center : RpcCenter) (voteCount : UInt32) : Prop :=
  0 ≠ center.electionDoneNum ∧ voteCount ≥ center.electionDoneNum

instance (center : RpcCenter) (voteCount : UInt32) : Decidable (center.Enough voteCount) :=
  inferInstanceAs (Decidable (_ ∧ _))

abbrev withTable (center : RpcCenter) (table : OtherCenters) : RpcCenter :=
  { center with otherCenters := table }

/-- An update that is not of an earlier round records the sender, counts the vote, and has the
election done exactly when the count is enough. -/
theorem updateOCStatus_eq_some {outside : Outside} {center : RpcCenter}
    {centersProto : CentersProto} {updated : Updated}
    (current : ¬ centersProto.logicalClock < center.logicalClock)
    (success : center.updateOCStatus outside centersProto = some updated) :
    ∃ recorded, recordSender center.otherCenters centersProto = some recorded ∧
      updated = if center.Enough (countVote recorded centersProto).2 then
        electionDone outside (center.withTable (countVote recorded centersProto).1) centersProto
      else ⟨center.withTable (countVote recorded centersProto).1, true, [], true⟩ := by
  rw [updateOCStatus, if_neg current] at success
  obtain ⟨recorded, recording, rfl⟩ := Option.map_eq_some_iff.mp success
  exact ⟨recorded, recording, rfl⟩

theorem updateOCStatus_isSome_iff (outside : Outside) {center : RpcCenter}
    {centersProto : CentersProto} (current : ¬ centersProto.logicalClock < center.logicalClock) :
    (center.updateOCStatus outside centersProto).isSome ↔
      (CString.ofBuffer centersProto.leaderCenter).length < leaderNameSize := by
  rw [updateOCStatus, if_neg current, Option.isSome_map, recordSender_isSome_iff]

/-- The center behind a vote, with the election done if the count is enough. -/
def voted (outside : Outside) (center : RpcCenter) (recorded : OtherCenters)
    (centersProto : CentersProto) : RpcCenter :=
  if center.Enough (countVote recorded centersProto).2 then
    (electionDone outside (center.withTable (countVote recorded centersProto).1) centersProto).center
  else center.withTable (countVote recorded centersProto).1

/-- The table behind a vote is the one with the vote. -/
theorem voted_sameRound (outside : Outside) (center : RpcCenter) (recorded : OtherCenters)
    (centersProto : CentersProto) :
    SameRound (center.withTable (countVote recorded centersProto).1)
      (center.voted outside recorded centersProto) := by
  rw [voted]
  split
  · exact electionDone_sameRound _ _ _
  · exact ⟨rfl, rfl, rfl, rfl, rfl⟩

theorem voted_sameRings (outside : Outside) (center : RpcCenter) (recorded : OtherCenters)
    (centersProto : CentersProto) : SameRings center (center.voted outside recorded centersProto) := by
  rw [voted]
  split
  · obtain ⟨loadBalancer, centerHashMap⟩ := electionDone_sameRings outside
      (center.withTable (countVote recorded centersProto).1) centersProto
    exact ⟨loadBalancer, centerHashMap⟩
  · exact ⟨rfl, rfl⟩

/-! ## Cases of a processed message -/

/-- Processing an accepted proposal is an update of the table. -/
theorem processCenterData_proposal_accept (outside : Outside) {center : RpcCenter} (fd : Int32)
    {centersProto : CentersProto} (action : centersProto.centerAction = .proposal)
    (accepted : center.leaderPredicate centersProto = .accept) :
    (center.processCenterData outside fd centersProto).map Processed.center =
      (center.updateOCStatus outside centersProto).map Updated.center := by
  simp only [processCenterData, action, accepted, ↓reduceIte, Option.map_map]
  congr 1
  funext updated
  simp only [Function.comp_apply]
  split <;> rfl

/-- An accepted proposal is processed when the name of its leader fits. -/
theorem processCenterData_isSome_iff (outside : Outside) {center : RpcCenter} (fd : Int32)
    {centersProto : CentersProto} (action : centersProto.centerAction = .proposal)
    (accepted : center.leaderPredicate centersProto = .accept) :
    (center.processCenterData outside fd centersProto).isSome ↔
      (CString.ofBuffer centersProto.leaderCenter).length < leaderNameSize := by
  have centers := congrArg Option.isSome (processCenterData_proposal_accept outside fd action accepted)
  rw [Option.isSome_map, Option.isSome_map] at centers
  rw [centers, updateOCStatus_isSome_iff outside (not_lt_of_accept accepted)]

/-- An accepted proposal that is processed has its sender recorded and its vote counted. -/
theorem processCenterData_voted {outside : Outside} {center : RpcCenter} {fd : Int32}
    {centersProto : CentersProto} {processed : Processed}
    (action : centersProto.centerAction = .proposal)
    (accepted : center.leaderPredicate centersProto = .accept)
    (success : center.processCenterData outside fd centersProto = some processed) :
    ∃ recorded, recordSender center.otherCenters centersProto = some recorded ∧
      processed.center = center.voted outside recorded centersProto := by
  have centers := processCenterData_proposal_accept outside fd action accepted
  rw [success, Option.map_some] at centers
  obtain ⟨updated, updating, same⟩ := Option.map_eq_some_iff.mp centers.symm
  obtain ⟨recorded, recording, result⟩ := updateOCStatus_eq_some (not_lt_of_accept accepted) updating
  refine ⟨recorded, recording, ?_⟩
  rw [← same, result, voted]
  split <;> rfl

theorem processCenterData_proposal_refused (outside : Outside) {center : RpcCenter} (fd : Int32)
    {centersProto : CentersProto} (action : centersProto.centerAction = .proposal)
    (refused : center.leaderPredicate centersProto ≠ .accept) :
    (center.processCenterData outside fd centersProto).map Processed.center = some center := by
  simp only [processCenterData, action, refused, ↓reduceIte, Option.map_some]

theorem respond_center (outside : Outside) (center : RpcCenter) (fd : Int32)
    (response : CentersProto) : (respond outside center fd response).center = center := by
  rw [respond]
  split <;> rfl

theorem leaderConfirm_spec (outside : Outside) (center : RpcCenter) (centersProto : CentersProto) :
    SameRound center (center.leaderConfirm outside centersProto) ∧
      (center.leaderConfirm outside centersProto).leaderInfos = center.leaderInfos ∧
      (center.leaderConfirm outside centersProto).centerStatus =
        if center.leaderPredicate centersProto = .accept then .following
        else center.centerStatus := by
  rw [leaderConfirm]
  split
  · dsimp only
    split
    · exact ⟨⟨rfl, rfl, rfl, rfl, rfl⟩, rfl, rfl⟩
    · exact ⟨⟨rfl, rfl, rfl, rfl, rfl⟩, rfl, rfl⟩
  · exact ⟨⟨rfl, rfl, rfl, rfl, rfl⟩, rfl, rfl⟩

/-- Every message but an accepted proposal is processed, leaves the round and the recorded leader as
they are, and changes the status to following if at all. -/
theorem processCenterData_sameRound (outside : Outside) {center : RpcCenter} (fd : Int32)
    {centersProto : CentersProto} (other : ¬ (centersProto.centerAction = .proposal ∧
      center.leaderPredicate centersProto = .accept)) :
    ∃ processed, center.processCenterData outside fd centersProto = some processed ∧
      SameRound center processed.center ∧ processed.center.leaderInfos = center.leaderInfos ∧
      (processed.center.centerStatus = center.centerStatus ∨
        processed.center.centerStatus = .following) := by
  have same : SameRound center center := ⟨rfl, rfl, rfl, rfl, rfl⟩
  rw [processCenterData]
  cases action : centersProto.centerAction with
  | inquiry =>
    refine ⟨_, rfl, ?_⟩
    rw [respond_center]
    exact ⟨same, rfl, .inl rfl⟩
  | proposal =>
    rw [if_neg fun accepted => other ⟨action, accepted⟩]
    exact ⟨_, rfl, same, rfl, .inl rfl⟩
  | leaderConfirm =>
    obtain ⟨round, leader, status⟩ := leaderConfirm_spec outside center centersProto
    refine ⟨_, rfl, round, leader, ?_⟩
    rw [status]
    split
    · exact .inr rfl
    · exact .inl rfl
  | followerPing =>
    refine ⟨_, rfl, ?_⟩
    rw [respond_center]
    exact ⟨⟨rfl, rfl, rfl, rfl, rfl⟩, rfl, .inl rfl⟩
  | leaderPingResponse => exact ⟨_, rfl, ⟨rfl, rfl, rfl, rfl, rfl⟩, rfl, .inl rfl⟩
  | accept => exact ⟨_, rfl, same, rfl, .inl rfl⟩
  | refused => exact ⟨_, rfl, same, rfl, .inl rfl⟩
  | centerReporter => exact ⟨_, rfl, same, rfl, .inl rfl⟩

/-- What processing a message can do: count the vote of an accepted proposal, or leave the round and
the recorded leader as they are and at most follow. -/
theorem processCenterData_cases {outside : Outside} {center : RpcCenter} {fd : Int32}
    {centersProto : CentersProto} {processed : Processed}
    (success : center.processCenterData outside fd centersProto = some processed) :
    (centersProto.centerAction = .proposal ∧ center.leaderPredicate centersProto = .accept ∧
      ∃ recorded, recordSender center.otherCenters centersProto = some recorded ∧
        processed.center = center.voted outside recorded centersProto) ∨
    SameRound center processed.center ∧ processed.center.leaderInfos = center.leaderInfos ∧
      (processed.center.centerStatus = center.centerStatus ∨
        processed.center.centerStatus = .following) := by
  by_cases proposal : centersProto.centerAction = .proposal ∧
      center.leaderPredicate centersProto = .accept
  · obtain ⟨action, accepted⟩ := proposal
    exact .inl ⟨action, accepted, processCenterData_voted action accepted success⟩
  · obtain ⟨other, processing, unchanged⟩ := processCenterData_sameRound outside fd proposal
    rw [success, Option.some.injEq] at processing
    rw [processing]
    exact .inr unchanged

/-! ## The initial table -/

private theorem initLine_foldl (localAddress : Bytes) (lines : List Bytes)
    (tables : OtherCenters × VnHashMap) :
    (lines.foldl (initLine localAddress) tables).1 =
      (lines.filter fun line => CString.ofBuffer line ≠ CString.ofBuffer localAddress).foldl
        (fun table line => table.insertNew line initialEntry) tables.1 := by
  induction lines generalizing tables with
  | nil => rfl
  | cons line lines ih =>
    rw [List.foldl_cons, ih, initLine]
    by_cases same : CString.ofBuffer line = CString.ofBuffer localAddress
    · simp [same]
    · simp [same]

/-- The table of a new center: a cleared entry for every line but the local one. -/
theorem initRpcCenter_lookup (localAddress : Bytes) (startTime : UInt64) (virtualNodeNum : Int32)
    (lines : List Bytes) (addr : Bytes) :
    (initRpcCenter localAddress startTime virtualNodeNum lines).otherCenters.lookup addr =
      if addr ∈ lines ∧ CString.ofBuffer addr ≠ CString.ofBuffer localAddress then
        some initialEntry else none := by
  simp only [initRpcCenter, initLine_foldl, AList.lookup_foldl_insertNew, AList.lookup_empty,
    Option.none_or, List.mem_filter, decide_eq_true_eq]

/-- Distinct lines become distinct keys. -/
theorem initRpcCenter_keys (localAddress : Bytes) (startTime : UInt64) (virtualNodeNum : Int32)
    {lines : List Bytes} (nodup : lines.Nodup) :
    (initRpcCenter localAddress startTime virtualNodeNum lines).otherCenters.keys =
      (lines.filter fun line =>
        CString.ofBuffer line ≠ CString.ofBuffer localAddress).reverse := by
  have fresh (key : Bytes) (_ : key ∈ lines.filter fun line =>
      CString.ofBuffer line ≠ CString.ofBuffer localAddress) :
      key ∉ (∅ : OtherCenters) := AList.notMem_empty key
  simp only [initRpcCenter, initLine_foldl, AList.keys_foldl_insertNew initialEntry
    (nodup.filter _) fresh, AList.keys_empty, List.append_nil]

/-- A new center holds no votes. -/
theorem initRpcCenter_votesFor (localAddress : Bytes) (startTime : UInt64)
    (virtualNodeNum : Int32) (lines : List Bytes) (candidate : Bytes) :
    votesFor (initRpcCenter localAddress startTime virtualNodeNum lines).otherCenters
      candidate = 0 := by
  rw [votesFor, initRpcCenter_lookup]
  split <;> rfl

/-! ## A cluster of three -/

/-- The addresses 10.0.0.x. -/
def sampleAddress (host : UInt8) : Bytes := inetNtoa (10, 0, 0, host)

/-- The center 10.0.0.1 of a cluster of three, started at 1000. -/
def sampleCenter : RpcCenter :=
  initRpcCenter (sampleAddress 1) 1000 20 [sampleAddress 1, sampleAddress 2, sampleAddress 3]

/-- A proposal of the first round. -/
def sampleProposal (sender leader : UInt8) (lcStartTime : UInt64) : CentersProto :=
  { fromCenterAddr := sampleAddress sender
    centerAction := .proposal
    startTime := 1000
    lcStartTime
    leaderCenter := sampleAddress leader }

def sampleOutside : Outside := ⟨⟨true, true, true, true⟩, fun _ => true⟩

end RpcCenter

end LibEvRpc
