import LibEvRpc.Proofs.CallbackSteps
import LibEvRpc.Proofs.CenterSteps
import LibEvRpc.Proofs.HashRing
import LibEvRpc.ToMathlib.JoinedEntries

/-! # The rings of two centers

A center leaves itself out of its ring, so two centers of one list have different rings: each has the
virtual nodes of the other one. They name the same centers to a server exactly when these nodes lie
behind what is read, and both skip a node of the remaining centers or neither does.
-/

namespace LibEvRpc

open RpcCenter BufferedCenter Entries
open Std.ExtTreeMap

/-! ## The rings -/

/-- A line is an address, as `strcmp` compares them. -/
def SameAddress (addr line : Bytes) : Prop := CString.ofBuffer line = CString.ofBuffer addr

instance (addr : Bytes) : DecidablePred (SameAddress addr) := fun _ =>
  inferInstanceAs (Decidable (_ = _))

/-- The ring of the centers of a list other than one of them. -/
def centerRing (addr : Bytes) (lines : List Bytes) : VnHashMap :=
  (lines.filter fun line => ¬ SameAddress addr line).foldl registNewCenter ∅

/-- The ring of the centers of a list that are neither of two. -/
def othersRing (first second : Bytes) (lines : List Bytes) : VnHashMap :=
  centerRing second (lines.filter fun line => ¬ SameAddress first line)

private theorem initLine_ring (localAddress : Bytes) (lines : List Bytes)
    (tables : OtherCenters × VnHashMap) :
    (lines.foldl (initLine localAddress) tables).2 =
      (lines.filter fun line => ¬ SameAddress localAddress line).foldl registNewCenter tables.2 := by
  induction lines generalizing tables with
  | nil => rfl
  | cons line lines ih =>
    rw [List.foldl_cons, ih, initLine, List.filter_cons]
    split
    · next same =>
      have own : SameAddress localAddress line := same
      rw [if_neg (by simp [own])]
    · next differ =>
      have other : ¬ SameAddress localAddress line := differ
      rw [if_pos (by simp [other]), List.foldl_cons]

/-- A center starts with the ring of the lines that are not its address. -/
theorem initRpcCenter_centerHashMap (localAddress : Bytes) (startTime : UInt64)
    (virtualNodeNum : Int32) (lines : List Bytes) :
    (initRpcCenter localAddress startTime virtualNodeNum lines).centerHashMap =
      centerRing localAddress lines :=
  initLine_ring localAddress lines (∅, ∅)

def centerNodes (lines : List Bytes) : List (UInt32 × Bytes) := lines.flatMap (shards 50)

theorem foldl_registNewCenter (lines : List Bytes) (map : VnHashMap) :
    lines.foldl registNewCenter map = insertAll (centerNodes lines) map := by
  induction lines generalizing map with
  | nil => rfl
  | cons line lines ih =>
    rw [List.foldl_cons, ih, registNewCenter, insertShards_eq_insertAll, centerNodes, centerNodes,
      List.flatMap_cons, insertAll_append]

theorem filter_centerNodes (keep : Bytes → Bool) (lines : List Bytes) :
    ((centerNodes lines).filter fun node => keep node.2) = centerNodes (lines.filter keep) := by
  induction lines with
  | nil => rfl
  | cons line lines ih =>
    rw [centerNodes, List.flatMap_cons, List.filter_append, List.filter_cons]
    cases kept : keep line with
    | false =>
      have dropped : ((shards 50 line).filter fun node => keep node.2) = [] := by
        apply List.filter_eq_nil_iff.mpr
        intro node member
        simp [snd_eq_of_mem_shards member, kept]
      rw [dropped]
      exact ih
    | true =>
      have whole : ((shards 50 line).filter fun node => keep node.2) = shards 50 line := by
        apply List.filter_eq_self.mpr
        intro node member
        rw [snd_eq_of_mem_shards member, kept]
      rw [whole]
      exact congrArg (shards 50 line ++ ·) ih

/-- The ring of a center joins the virtual nodes of another center to those of the remaining ones. -/
theorem joins_centerRing (addr other : Bytes) (lines : List Bytes) :
    Joins (SameAddress other) (centerRing addr lines).toList (othersRing addr other lines).toList := by
  have joins := joins_insertAll (centerNodes (lines.filter fun line => ¬ SameAddress addr line))
    (SameAddress other)
  rw [filter_centerNodes fun line => ¬ SameAddress other line, ← foldl_registNewCenter,
    ← foldl_registNewCenter] at joins
  exact joins

theorem othersRing_comm (first second : Bytes) (lines : List Bytes) :
    othersRing first second lines = othersRing second first lines := by
  rw [othersRing, othersRing, centerRing, centerRing, List.filter_filter, List.filter_filter]
  simp only [Bool.and_comm]

/-- A center has no virtual node of its own. -/
theorem notSame_of_mem_centerRing {addr : Bytes} {lines : List Bytes} {node : UInt32 × Bytes}
    (member : node ∈ (centerRing addr lines).toList) : ¬ SameAddress addr node.2 := by
  rw [centerRing, foldl_registNewCenter, mem_toList_iff_getElem?_eq_some] at member
  have inserted := mem_of_getElem?_insertAll not_mem_empty member
  rw [← filter_centerNodes] at inserted
  simpa using (List.mem_filter.mp inserted).2

/-! ## Behind the initialisation -/

theorem processCenterData_centerHashMap {outside : Outside} {center : RpcCenter} {fd : Int32}
    {centersProto : CentersProto} {processed : Processed}
    (success : center.processCenterData outside fd centersProto = some processed) :
    processed.center.centerHashMap = center.centerHashMap := by
  cases action : centersProto.centerAction with
  | proposal =>
    by_cases accepted : center.leaderPredicate centersProto = .accept
    · obtain ⟨recorded, _, voting⟩ := processCenterData_voted action accepted success
      rw [voting]
      exact (voted_sameRings _ _ _ _).centerHashMap
    · simp only [processCenterData, action, if_neg accepted, Option.some.injEq] at success
      rw [← success]
  | inquiry | followerPing =>
    simp only [processCenterData, action, Option.some.injEq] at success
    rw [← success, respond_center]
  | leaderConfirm =>
    simp only [processCenterData, action, Option.some.injEq] at success
    rw [← success]
    exact (leaderConfirm_sameRings _ _ _).centerHashMap
  | accept | refused | leaderPingResponse | centerReporter =>
    simp only [processCenterData, action, Option.some.injEq] at success
    rw [← success]

/-- No event of a center changes its ring. -/
theorem step_centerHashMap {center next : RpcCenter} {event : Event}
    (success : center.step event = some next) : next.centerHashMap = center.centerHashMap := by
  cases event with
  | process outside fd centersProto =>
    obtain ⟨processed, processing, rfl⟩ := Option.map_eq_some_iff.mp success
    exact processCenterData_centerHashMap processing
  | inquiryResponse addr responseProto =>
    cases success
    rw [RpcCenter.inquiryResponse]
    split <;> rfl
  | proposalLeaderElection outside =>
    cases success
    rw [RpcCenter.proposalLeaderElection]
    split <;> rfl

def afterRegister (state : BufferedCenter) (server : RpcClusterServer) : BufferedCenter :=
  if state.center.centerStatus = .leading then
    { state with center := { state.center with
      loadBalancer := state.center.loadBalancer.addRpcServer server } }
  else state.addRpcServerToBuf server

theorem afterRegister_centerHashMap (state : BufferedCenter) (server : RpcClusterServer) :
    (afterRegister state server).center.centerHashMap = state.center.centerHashMap := by
  rw [afterRegister]
  split
  · rfl
  · rw [addRpcServerToBuf]
    split <;> rfl

/-- No message on a connection changes the ring of a center. -/
theorem centerProcessor_centerHashMap {answering : Answering} {state : BufferedCenter}
    {connFd : Int32} {incoming : Incoming} {routed : Routed}
    (success : state.centerProcessor answering connFd incoming = some routed) :
    routed.state.center.centerHashMap = state.center.centerHashMap := by
  obtain ⟨_, rfl⟩ | ⟨_, rfl⟩ | ⟨received, _, rfl⟩ | ⟨cwcProto, _, request⟩ | ⟨_, _, _, rfl⟩ |
    ⟨server, _, _, request⟩ := centerProcessor_cases success
  · rfl
  · rfl
  · rw [processCenterRequest_state]
  · rw [(processClientRequest_spec request).1]
  · rfl
  · obtain ⟨_, same, _⟩ | ⟨_, same, _⟩ := processClusterRequest_spec request
    · rw [same]
    · rw [same]
      exact afterRegister_centerHashMap state server

/-- A center of a list in some state behind `InitRpcCenter`. -/
inductive Initialised (addr : Bytes) (lines : List Bytes) : BufferedCenter → Prop
  | initRpcCenter (startTime : UInt64) (virtualNodeNum : Int32) :
      Initialised addr lines ⟨RpcCenter.initRpcCenter addr startTime virtualNodeNum lines, []⟩
  | step {state : BufferedCenter} {event : Event} {center : RpcCenter}
      (before : Initialised addr lines state) (success : state.center.step event = some center) :
      Initialised addr lines { state with center }
  | centerProcessor {state : BufferedCenter} {answering : Answering} {connFd : Int32}
      {incoming : Incoming} {routed : Routed} (before : Initialised addr lines state)
      (success : state.centerProcessor answering connFd incoming = some routed) :
      Initialised addr lines routed.state

/-- A center keeps the ring of the other lines of its list. -/
theorem Initialised.centerHashMap {addr : Bytes} {lines : List Bytes} {state : BufferedCenter}
    (initialised : Initialised addr lines state) :
    state.center.centerHashMap = centerRing addr lines := by
  induction initialised with
  | initRpcCenter startTime virtualNodeNum => exact initRpcCenter_centerHashMap _ _ _ _
  | step before success ih => exact (step_centerHashMap success).trans ih
  | centerProcessor before success ih => exact (centerProcessor_centerHashMap success).trans ih

/-! ## The lookup -/

/-- From an entry on, the loop reads the entries behind it. -/
theorem clusterCenters_cons (ring : List (UInt32 × Bytes)) (count : ℕ) (entry : UInt32 × Bytes)
    (rest : List (UInt32 × Bytes)) :
    clusterCenters ring count (entry :: rest) =
      if count ≤ rest.length then some ((rest.take count).map Prod.snd) else none := by
  induction count generalizing entry rest with
  | zero => simp [clusterCenters]
  | succ count ih =>
    cases rest with
    | nil => simp [clusterCenters]
    | cons next rest =>
      rw [clusterCenters, ih, List.length_cons, List.take_succ_cons]
      simp only [Nat.add_le_add_iff_right]
      split <;> rfl

/-- From the lower bound of a hash on, the loop reads the points of the hash. -/
theorem clusterCenters_lowerBound (ring : VnHashMap) (hashId : UInt32) (count : ℕ) :
    clusterCenters ring.toList (count + 1) (lowerBound ring hashId) =
      if count + 1 ≤ (readPoints hashId ring.toList ring.toList).length then
        some (((readPoints hashId ring.toList ring.toList).take (count + 1)).map Prod.snd)
      else none := by
  rw [readPoints_eq (ascending_toList ring), lowerBound]
  cases ring.toList.dropWhile fun entry => entry.1 < hashId with
  | nil =>
    cases ring.toList with
    | nil => rfl
    | cons entry rest =>
      rw [clusterCenters, clusterCenters_cons, List.length_cons, List.take_succ_cons]
      simp only [Nat.add_le_add_iff_right]
      split <;> rfl
  | cons skipped behind => exact clusterCenters_cons _ _ _ _

def serverHash (serverAddr : Bytes) : UInt32 :=
  murMurHash2 serverAddr (Int32.ofNat serverAddr.length)

/-- A center answers the registration of a server with the centers it reports to. -/
def Names (state : BufferedCenter) (serverAddr : Bytes) (reporters : List Bytes) : Prop :=
  ∃ answering connFd server routed crc,
    server.clusterAction = .register ∧ server.clusterServerAddr = serverAddr ∧
    state.centerProcessor answering connFd (.cluster (some server)) = some routed ∧
    RouteEffect.sent connFd (.cluster crc) ∈ routed.effects ∧
    crc.centerResponseAction = .clusterResp ∧ crc.shouldReporterCenter = reporters

/-- A registration reads the ring that was there before. -/
theorem processClusterRequest_register (answering : Answering) (state : BufferedCenter)
    (connFd : Int32) {server : RpcClusterServer} (register : server.clusterAction = .register) :
    processClusterRequest answering state connFd server =
      (clusterCenters state.center.centerHashMap.toList 3
        (lowerBound state.center.centerHashMap (serverHash server.clusterServerAddr))).map fun centers =>
          let crc := { centerResponseAction := .clusterResp, shouldReporterCenter := centers }
          if answering.serializes then
            ⟨afterRegister state server, answering.sends,
              sendReply answering.sends connFd (.cluster crc) false⟩
          else ⟨afterRegister state server, false, []⟩ := by
  rw [processClusterRequest, register, ← afterRegister_centerHashMap state server]
  rfl

/-- The message of an answer is the one that was to be sent. -/
private theorem cluster_of_sent {sends : Bool} {connFd : Int32} {crc answer : CenterResponseCluster}
    (sent : RouteEffect.sent connFd (.cluster crc) ∈ sendReply sends connFd (.cluster answer) false) :
    crc = answer := by
  cases sends with
  | false => simp [sendReply] at sent
  | true => simpa [sendReply] using sent

/-- A center that is ready names the centers of the first three points of the hash. -/
theorem names_iff {state : BufferedCenter} {serverAddr : Bytes} {reporters : List Bytes} :
    Names state serverAddr reporters ↔
      centerIsReady state.center ∧
        clusterCenters state.center.centerHashMap.toList 3
          (lowerBound state.center.centerHashMap (serverHash serverAddr)) = some reporters := by
  constructor
  · rintro ⟨answering, connFd, server, routed, crc, register, rfl, success, sent, response, rfl⟩
    rw [centerProcessor] at success
    split at success
    · cases success
      rw [cluster_of_sent sent] at response
      contradiction
    · next ready =>
      rw [processClusterRequest_register _ _ _ register] at success
      obtain ⟨centers, found, rfl⟩ := Option.map_eq_some_iff.mp success
      dsimp only at sent
      split at sent
      · rw [found, cluster_of_sent sent]
        exact ⟨by simpa using ready, rfl⟩
      · contradiction
  · rintro ⟨ready, found⟩
    refine ⟨⟨true, true⟩, 0, ⟨.register, serverAddr⟩,
      ⟨afterRegister state ⟨.register, serverAddr⟩, true, sendReply true 0 (.cluster
        { centerResponseAction := .clusterResp, shouldReporterCenter := reporters }) false⟩,
      _, rfl, rfl, ?_, List.mem_cons_self, rfl, rfl⟩
    have answered := @processClusterRequest_register ⟨true, true⟩ state 0 ⟨.register, serverAddr⟩ rfl
    rw [found] at answered
    rw [centerProcessor, if_neg (by simp [ready])]
    exact answered

/-! ## Two centers -/

/-- The virtual nodes of the second center lie behind what the first one reads of the remaining
centers. -/
def ReadsOthers (first second : Bytes) (lines : List Bytes) (hashId : UInt32) : Prop :=
  Clear (SameAddress second) 3
    (readPoints hashId (centerRing first lines).toList (centerRing first lines).toList)
    (readPoints hashId (centerRing first lines).toList (othersRing first second lines).toList)

/-- The first center skips a virtual node whose id is one of the remaining centers. -/
def SkipsOther (first second : Bytes) (lines : List Bytes) (hashId : UInt32) : Prop :=
  Skips hashId (centerRing first lines).toList (othersRing first second lines).toList

/-- The first four virtual nodes of the remaining centers from a hash on belong to one center. -/
def OneCenter (first second : Bytes) (lines : List Bytes) (hashId : UInt32) : Prop :=
  OneValue (((othersRing first second lines).toList.filter fun node => hashId ≤ node.1).take 4)

/-- Two centers of one list name the same centers to a server exactly when each reads virtual nodes
of the remaining centers only, and both skip one of them or neither does, or the first four of them
from the hash on belong to one center. -/
theorem names_same_iff {lines : List Bytes} {addr other : Bytes} {first second : BufferedCenter}
    {serverAddr : Bytes} {reporters otherReporters : List Bytes}
    (initialised : Initialised addr lines first) (otherInitialised : Initialised other lines second)
    (names : Names first serverAddr reporters) (otherNames : Names second serverAddr otherReporters) :
    reporters = otherReporters ↔
      ReadsOthers addr other lines (serverHash serverAddr) ∧
        ReadsOthers other addr lines (serverHash serverAddr) ∧
        ((SkipsOther addr other lines (serverHash serverAddr) ↔
            SkipsOther other addr lines (serverHash serverAddr)) ∨
          OneCenter addr other lines (serverHash serverAddr)) := by
  have read {addr : Bytes} {state : BufferedCenter} {reporters : List Bytes}
      (initialised : Initialised addr lines state) (names : Names state serverAddr reporters) :
      3 ≤ (readPoints (serverHash serverAddr) (centerRing addr lines).toList
          (centerRing addr lines).toList).length ∧
        reporters = ((readPoints (serverHash serverAddr) (centerRing addr lines).toList
          (centerRing addr lines).toList).take 3).map Prod.snd := by
    obtain ⟨_, found⟩ := names_iff.mp names
    rw [initialised.centerHashMap, clusterCenters_lowerBound] at found
    obtain ⟨enough, same⟩ := Option.ite_none_right_eq_some.mp found
    exact ⟨enough, (Option.some.inj same).symm⟩
  obtain ⟨enough, rfl⟩ := read initialised names
  obtain ⟨otherEnough, rfl⟩ := read otherInitialised otherNames
  have otherJoins := joins_centerRing other addr lines
  rw [ReadsOthers, ReadsOthers, SkipsOther, SkipsOther, OneCenter, othersRing_comm other addr] at *
  exact (joins_centerRing addr other lines).read_values_eq_iff otherJoins
    (fun _ => notSame_of_mem_centerRing) (fun _ => notSame_of_mem_centerRing) enough otherEnough

def sampleConfirm : CentersProto where
  fromCenterAddr := sampleAddress 3
  centerAction := .leaderConfirm
  logicalClock := 1

def threeCenters : List Bytes := [sampleAddress 1, sampleAddress 2, sampleAddress 3]

def followerOf (lines : List Bytes) (addr : Bytes) : BufferedCenter :=
  ⟨(initRpcCenter addr 1000 20 lines).leaderConfirm sampleOutside sampleConfirm, []⟩

theorem initialised_followerOf (lines : List Bytes) (addr : Bytes) :
    Initialised addr lines (followerOf lines addr) :=
  @Initialised.step _ _ _ (.process sampleOutside 5 sampleConfirm) _ (.initRpcCenter 1000 20) rfl

/-- The server `10.0.1.0` is told of other centers by `10.0.0.1` than by `10.0.0.2`. -/
theorem names_differ :
    ∃ first second, Initialised (sampleAddress 1) threeCenters first ∧
      Initialised (sampleAddress 2) threeCenters second ∧
      Names first (inetNtoa (10, 0, 1, 0)) [sampleAddress 3, sampleAddress 2, sampleAddress 2] ∧
      Names second (inetNtoa (10, 0, 1, 0)) [sampleAddress 1, sampleAddress 3, sampleAddress 1] ∧
      [sampleAddress 3, sampleAddress 2, sampleAddress 2] ≠
        [sampleAddress 1, sampleAddress 3, sampleAddress 1] := by
  refine ⟨_, _, initialised_followerOf _ _, initialised_followerOf _ _, ?_, ?_, by decide⟩
  · exact names_iff.mpr ⟨rfl, by decide +kernel⟩
  · exact names_iff.mpr ⟨rfl, by decide +kernel⟩

/-- For the server `10.0.1.2` both read virtual nodes of `10.0.0.3` only. -/
theorem names_same_sample :
    ReadsOthers (sampleAddress 1) (sampleAddress 2) threeCenters (serverHash (inetNtoa (10, 0, 1, 2))) ∧
      ReadsOthers (sampleAddress 2) (sampleAddress 1) threeCenters
        (serverHash (inetNtoa (10, 0, 1, 2))) ∧
      ((SkipsOther (sampleAddress 1) (sampleAddress 2) threeCenters
            (serverHash (inetNtoa (10, 0, 1, 2))) ↔
          SkipsOther (sampleAddress 2) (sampleAddress 1) threeCenters
            (serverHash (inetNtoa (10, 0, 1, 2)))) ∨
        OneCenter (sampleAddress 1) (sampleAddress 2) threeCenters
          (serverHash (inetNtoa (10, 0, 1, 2)))) := by
  have names (addr : Bytes) (found : clusterCenters
      (followerOf threeCenters addr).center.centerHashMap.toList 3
      (lowerBound (followerOf threeCenters addr).center.centerHashMap
        (serverHash (inetNtoa (10, 0, 1, 2)))) =
          some [sampleAddress 3, sampleAddress 3, sampleAddress 3]) :
      Names (followerOf threeCenters addr) (inetNtoa (10, 0, 1, 2))
        [sampleAddress 3, sampleAddress 3, sampleAddress 3] := names_iff.mpr ⟨rfl, found⟩
  exact (names_same_iff (initialised_followerOf _ _) (initialised_followerOf _ _)
    (names (sampleAddress 1) (by decide +kernel)) (names (sampleAddress 2) (by decide +kernel))).mp rfl

end LibEvRpc
