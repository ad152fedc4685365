import LibEvRpc.Center.Encoding
import Mathlib.Algebra.Order.BigOperators.Group.List
import Mathlib.Algebra.Order.Ring.Nat

/-! # What is written is read

Every class writes as many bytes as it counted. The bytes of a message, in front of any others, merge
it into the message that is parsed, so a message is read as it was written, and two messages behind
each other are read as `MergeFrom` merges them. Bytes that end at their first NUL are refused.
-/

namespace LibEvRpc

open TaggedFields

namespace Pb

variable {stream : CodedStream}

/-! ## Numbers of enumerations -/

@[simp] theorem ofNumber_centerStatus (value : CenterStatus) :
    CenterStatus.ofNumber value.number.toUInt32 = some value := by
  cases value <;> rfl

@[simp] theorem ofNumber_centerAction (value : CenterAction) :
    CenterAction.ofNumber value.number.toUInt32 = some value := by
  cases value <;> rfl

@[simp] theorem ofNumber_clusteAction (value : ClusteAction) :
    ClusteAction.ofNumber value.number.toUInt32 = some value := by
  cases value <;> rfl

@[simp] theorem ofNumber_responseClusterAction (value : ResponseClusterAction) :
    ResponseClusterAction.ofNumber value.number.toUInt32 = some value := by
  cases value <;> rfl

@[simp] theorem ofNumber_clientClusterAction (value : ClientClusterAction) :
    ClientClusterAction.ofNumber value.number.toUInt32 = some value := by
  cases value <;> rfl

/-- A signed number is extended to 64 bits and cut back. -/
@[simp] theorem toInt32_toUInt64 (value : Int32) :
    value.toInt64.toUInt64.toUInt32.toInt32 = value := by
  apply Int32.toBitVec_inj.mp
  apply BitVec.eq_of_getElem_eq
  intro index inside
  simp [BitVec.getLsbD_signExtend, inside]
  omega

/-! ## Sizes -/

theorem length_elim {α : Type*} {write : α → Bytes} {size : α → ℕ} (value : Option α)
    (same : ∀ present, value = some present → (write present).length = size present) :
    (value.elim [] write).length = value.elim 0 size := by
  cases value with
  | none => rfl
  | some present => exact same present rfl

theorem length_flatMap {α : Type*} {write : α → Bytes} {size : α → ℕ} {values : List α}
    (same : ∀ value ∈ values, (write value).length = size value) :
    (values.flatMap write).length = (values.map size).sum := by
  rw [List.length_flatMap]
  exact congrArg List.sum (List.map_congr_left same)

/-- A string in an optional field is part of the size. -/
theorem length_le_elim {value : Option Bytes} {present : Bytes} (member : present ∈ value) :
    present.length ≤ value.elim 0 fun present => bytesSize stream present.length := by
  rw [member, Option.elim_some, bytesSize]
  omega

/-- What is counted of a value in a repeated field is part of the size. -/
theorem size_le_sum {α : Type*} (size : α → ℕ) {value : α} {values : List α}
    (member : value ∈ values) :
    size value ≤ (values.map fun value => bytesSize stream (size value)).sum := by
  have part := List.le_sum_of_mem
    (List.mem_map_of_mem (f := fun value => bytesSize stream (size value)) member)
  rw [bytesSize] at part
  omega

theorem length_writeUint {tag : UInt32} (small : tag < 128) (value : UInt64) :
    (writeUint stream tag value).length = uintSize stream value :=
  TaggedFields.length_writeUint small value

theorem length_writeBytes {tag : UInt32} (small : tag < 128) (content : Bytes) :
    (writeBytes stream tag content.length content).length = bytesSize stream content.length :=
  TaggedFields.length_writeBytes small _ _

/-! ## `RpcClusterServer` -/

namespace RpcClusterServer

theorem length_serializeWithCachedSizes (message : RpcClusterServer) :
    (message.serializeWithCachedSizes stream).length = message.byteSize stream := by
  simp only [serializeWithCachedSizes, byteSize, List.length_append]
  rw [length_elim _ fun _ _ => length_writeUint (by decide) _,
    length_elim _ fun _ _ => length_writeBytes (by decide) _,
    length_elim _ fun _ _ => length_writeUint (by decide) _,
    length_elim _ fun _ _ => length_writeFixed32 (by decide) _,
    length_elim _ fun _ _ => length_writeUint (by decide) _]

theorem mergeFrom_empty (message : RpcClusterServer) : mergeFrom {} message = message := by
  obtain ⟨clusterAction, clusterServerAddr, load, cpuUsed, connectionNum⟩ := message
  cases clusterAction <;> cases clusterServerAddr <;> cases load <;> cases cpuUsed <;>
    cases connectionNum <;> rfl

theorem clusterServerAddr_lt {message : RpcClusterServer} (bound : message.byteSize stream < 2 ^ 31) :
    ∀ value ∈ message.clusterServerAddr, value.length < 2 ^ 31 := by
  intro value member
  have part := @length_le_elim stream _ _ member
  rw [byteSize] at bound
  omega

/-- The bytes of a message are merged into the one that is parsed. -/
theorem absorbs {message : RpcClusterServer} (bound : message.byteSize stream < 2 ^ 31) :
    Absorbs stream (table stream) (message.serializeWithCachedSizes stream)
      fun before => before.mergeFrom message := by
  have action : Absorbs stream (table stream)
      (message.clusterAction.elim [] fun value => writeUint stream 8 value.number)
      fun before => message.clusterAction.elim before before.setClusterAction :=
    absorbs_option _ fun present _ => (absorbs_uint (.head _) _).congr fun before => by
      rw [ofNumber_clusteAction, Option.elim_some]
  have addr : Absorbs stream (table stream)
      (message.clusterServerAddr.elim [] fun value => writeBytes stream 18 value.length value)
      fun before => message.clusterServerAddr.elim before before.setClusterServerAddr :=
    absorbs_option _ fun present same =>
      absorbs_bytes (.tail _ (.head _)) (clusterServerAddr_lt bound present same)
  have load : Absorbs stream (table stream)
      (message.load.elim [] fun value => writeUint stream 24 value.toUInt64)
      fun before => message.load.elim before before.setLoad :=
    absorbs_option _ fun present _ => (absorbs_uint (.tail _ (.tail _ (.head _))) _).congr
      fun before => by rw [UInt32.toUInt32_toUInt64]
  have cpu : Absorbs stream (table stream)
      (message.cpuUsed.elim [] fun value => writeFixed32 stream 37 value)
      fun before => message.cpuUsed.elim before before.setCpuUsed :=
    absorbs_option _ fun present _ => absorbs_fixed32 (.tail _ (.tail _ (.tail _ (.head _)))) _
  have connections : Absorbs stream (table stream)
      (message.connectionNum.elim [] fun value => writeUint stream 40 value.toInt64.toUInt64)
      fun before => message.connectionNum.elim before before.setConnectionNum :=
    absorbs_option _ fun present _ =>
      (absorbs_uint (.tail _ (.tail _ (.tail _ (.tail _ (.head _))))) _).congr fun before => by
        rw [toInt32_toUInt64]
  exact (((action.append addr).append load).append cpu).append connections

/-- A server inside another message, behind its size. -/
theorem absorbs_add {M : Type*} {tag : UInt32} {add : M → RpcClusterServer → M}
    {expect : List UInt32} {atEnd : Bool} {outer : CaseTable M}
    (member : FieldCase.nested stream tag ((table stream).mergeFromCodedStream stream {}) add expect
      atEnd ∈ outer.cases)
    {message : RpcClusterServer} (bound : message.byteSize stream < 2 ^ 31) :
    Absorbs stream outer
      (writeBytes stream tag (message.byteSize stream) (message.serializeWithCachedSizes stream))
      fun before => add before message := by
  rw [← message.length_serializeWithCachedSizes] at bound ⊢
  have whole := absorbs (message.length_serializeWithCachedSizes ▸ bound)
  apply absorbs_nested member bound
  · rw [CaseTable.mergeFromCodedStream_eq_parse, whole.parse, mergeFrom_empty]
  · intro cut
    rw [CaseTable.mergeFromCodedStream_eq_parse, whole.refused cut]

end RpcClusterServer

/-! ## `LoadBalancerMetaData` -/

namespace LoadBalancerMetaData

theorem length_serializeWithCachedSizes (message : LoadBalancerMetaData) :
    (message.serializeWithCachedSizes stream).length = message.byteSize stream := by
  simp only [serializeWithCachedSizes, byteSize, List.length_append]
  rw [length_elim _ fun _ _ => length_writeUint (by decide) _,
    length_elim _ fun _ _ => length_writeBytes (by decide) _]

theorem mergeFrom_empty (message : LoadBalancerMetaData) : mergeFrom {} message = message := by
  obtain ⟨vid, serverAddr⟩ := message
  cases vid <;> cases serverAddr <;> rfl

theorem serverAddr_lt {message : LoadBalancerMetaData} (bound : message.byteSize stream < 2 ^ 31) :
    ∀ value ∈ message.serverAddr, value.length < 2 ^ 31 := by
  intro value member
  have part := @length_le_elim stream _ _ member
  rw [byteSize] at bound
  omega

/-- The bytes of a message are merged into the one that is parsed. -/
theorem absorbs {message : LoadBalancerMetaData} (bound : message.byteSize stream < 2 ^ 31) :
    Absorbs stream (table stream) (message.serializeWithCachedSizes stream)
      fun before => before.mergeFrom message := by
  have vid : Absorbs stream (table stream)
      (message.vid.elim [] fun value => writeUint stream 8 value.toUInt64)
      fun before => message.vid.elim before before.setVid :=
    absorbs_option _ fun present _ => (absorbs_uint (.head _) _).congr fun before => by
      rw [UInt32.toUInt32_toUInt64]
  have addr : Absorbs stream (table stream)
      (message.serverAddr.elim [] fun value => writeBytes stream 18 value.length value)
      fun before => message.serverAddr.elim before before.setServerAddr :=
    absorbs_option _ fun present same =>
      absorbs_bytes (.tail _ (.head _)) (serverAddr_lt bound present same)
  exact vid.append addr

/-- An entry inside another message, behind its size. -/
theorem absorbs_add {M : Type*} {tag : UInt32} {add : M → LoadBalancerMetaData → M}
    {expect : List UInt32} {atEnd : Bool} {outer : CaseTable M}
    (member : FieldCase.nested stream tag ((table stream).mergeFromCodedStream stream {}) add expect
      atEnd ∈ outer.cases)
    {message : LoadBalancerMetaData} (bound : message.byteSize stream < 2 ^ 31) :
    Absorbs stream outer
      (writeBytes stream tag (message.byteSize stream) (message.serializeWithCachedSizes stream))
      fun before => add before message := by
  rw [← message.length_serializeWithCachedSizes] at bound ⊢
  have whole := absorbs (message.length_serializeWithCachedSizes ▸ bound)
  apply absorbs_nested member bound
  · rw [CaseTable.mergeFromCodedStream_eq_parse, whole.parse, mergeFrom_empty]
  · intro cut
    rw [CaseTable.mergeFromCodedStream_eq_parse, whole.refused cut]

end LoadBalancerMetaData

/-! ## `CentersProto` -/

namespace CentersProto

private theorem elim_setFromCenterAddr (message : CentersProto) (value : Option Bytes) :
    value.elim message message.setFromCenterAddr =
      { message with fromCenterAddr := value.or message.fromCenterAddr } := by
  cases value <;> rfl

private theorem elim_setCenterStatus (message : CentersProto) (value : Option CenterStatus) :
    value.elim message message.setCenterStatus =
      { message with centerStatus := value.or message.centerStatus } := by
  cases value <;> rfl

private theorem elim_setCenterAction (message : CentersProto) (value : Option CenterAction) :
    value.elim message message.setCenterAction =
      { message with centerAction := value.or message.centerAction } := by
  cases value <;> rfl

private theorem elim_setStartTime (message : CentersProto) (value : Option UInt64) :
    value.elim message message.setStartTime =
      { message with startTime := value.or message.startTime } := by
  cases value <;> rfl

private theorem elim_setLcStartTime (message : CentersProto) (value : Option UInt64) :
    value.elim message message.setLcStartTime =
      { message with lcStartTime := value.or message.lcStartTime } := by
  cases value <;> rfl

private theorem elim_setLogicalClock (message : CentersProto) (value : Option UInt64) :
    value.elim message message.setLogicalClock =
      { message with logicalClock := value.or message.logicalClock } := by
  cases value <;> rfl

private theorem elim_setLeaderCenter (message : CentersProto) (value : Option Bytes) :
    value.elim message message.setLeaderCenter =
      { message with leaderCenter := value.or message.leaderCenter } := by
  cases value <;> rfl

private theorem foldl_addServerInfosList (message : CentersProto) (values : List RpcClusterServer) :
    values.foldl addServerInfosList message =
      { message with serverInfosList := message.serverInfosList ++ values } := by
  induction values generalizing message with
  | nil => rw [List.foldl_nil, List.append_nil]
  | cons value values ih =>
    simp only [List.foldl_cons, ih, addServerInfosList, List.append_assoc, List.singleton_append]

private theorem foldl_addLbResult (message : CentersProto) (values : List LoadBalancerMetaData) :
    values.foldl addLbResult message =
      { message with lbResult := message.lbResult ++ values } := by
  induction values generalizing message with
  | nil => rw [List.foldl_nil, List.append_nil]
  | cons value values ih =>
    simp only [List.foldl_cons, ih, addLbResult, List.append_assoc, List.singleton_append]

/-- A field that is set replaces the one before it, and repeated fields are appended. -/
theorem mergeFrom_eq (message other : CentersProto) :
    message.mergeFrom other =
      { fromCenterAddr := other.fromCenterAddr.or message.fromCenterAddr
        centerStatus := other.centerStatus.or message.centerStatus
        centerAction := other.centerAction.or message.centerAction
        startTime := other.startTime.or message.startTime
        lcStartTime := other.lcStartTime.or message.lcStartTime
        logicalClock := other.logicalClock.or message.logicalClock
        leaderCenter := other.leaderCenter.or message.leaderCenter
        serverInfosList := message.serverInfosList ++ other.serverInfosList
        lbResult := message.lbResult ++ other.lbResult } := by
  simp only [mergeFrom, foldl_addServerInfosList, foldl_addLbResult, elim_setFromCenterAddr,
    elim_setCenterStatus, elim_setCenterAction, elim_setStartTime, elim_setLcStartTime,
    elim_setLogicalClock, elim_setLeaderCenter]

theorem mergeFrom_empty (message : CentersProto) : mergeFrom {} message = message := by
  simp only [mergeFrom_eq, Option.or_none, List.nil_append]

theorem length_serializeWithCachedSizes (message : CentersProto) :
    (message.serializeWithCachedSizes stream).length = message.byteSize stream := by
  have server : ∀ value ∈ message.serverInfosList,
      (writeBytes stream 66 (value.byteSize stream) (value.serializeWithCachedSizes stream)).length =
        bytesSize stream (value.byteSize stream) := fun value _ => by
    rw [← value.length_serializeWithCachedSizes, length_writeBytes (by decide)]
  have result : ∀ value ∈ message.lbResult,
      (writeBytes stream 74 (value.byteSize stream) (value.serializeWithCachedSizes stream)).length =
        bytesSize stream (value.byteSize stream) := fun value _ => by
    rw [← value.length_serializeWithCachedSizes, length_writeBytes (by decide)]
  simp only [serializeWithCachedSizes, byteSize, List.length_append]
  rw [length_elim _ fun _ _ => length_writeBytes (by decide) _,
    length_elim _ fun _ _ => length_writeUint (by decide) _,
    length_elim _ fun _ _ => length_writeUint (by decide) _,
    length_elim _ fun _ _ => length_writeUint (by decide) _,
    length_elim _ fun _ _ => length_writeUint (by decide) _,
    length_elim _ fun _ _ => length_writeUint (by decide) _,
    length_elim _ fun _ _ => length_writeBytes (by decide) _, length_flatMap server,
    length_flatMap result]

theorem fromCenterAddr_lt {message : CentersProto} (bound : message.byteSize stream < 2 ^ 31) :
    ∀ value ∈ message.fromCenterAddr, value.length < 2 ^ 31 := by
  intro value member
  have part := @length_le_elim stream _ _ member
  rw [byteSize] at bound
  omega

theorem leaderCenter_lt {message : CentersProto} (bound : message.byteSize stream < 2 ^ 31) :
    ∀ value ∈ message.leaderCenter, value.length < 2 ^ 31 := by
  intro value member
  have part := @length_le_elim stream _ _ member
  rw [byteSize] at bound
  omega

theorem serverInfosList_lt {message : CentersProto} (bound : message.byteSize stream < 2 ^ 31) :
    ∀ value ∈ message.serverInfosList, value.byteSize stream < 2 ^ 31 := by
  intro value member
  have part := @size_le_sum stream _ (fun value => value.byteSize stream) _ _ member
  rw [byteSize] at bound
  omega

theorem lbResult_lt {message : CentersProto} (bound : message.byteSize stream < 2 ^ 31) :
    ∀ value ∈ message.lbResult, value.byteSize stream < 2 ^ 31 := by
  intro value member
  have part := @size_le_sum stream _ (fun value => value.byteSize stream) _ _ member
  rw [byteSize] at bound
  omega

/-- The bytes of a message are merged into the one that is parsed. -/
theorem absorbs {message : CentersProto} (bound : message.byteSize stream < 2 ^ 31) :
    Absorbs stream (table stream) (message.serializeWithCachedSizes stream)
      fun before => before.mergeFrom message := by
  have sender : Absorbs stream (table stream)
      (message.fromCenterAddr.elim [] fun value => writeBytes stream 10 value.length value)
      fun before => message.fromCenterAddr.elim before before.setFromCenterAddr :=
    absorbs_option _ fun present same => absorbs_bytes (.head _) (fromCenterAddr_lt bound present same)
  have status : Absorbs stream (table stream)
      (message.centerStatus.elim [] fun value => writeUint stream 16 value.number)
      fun before => message.centerStatus.elim before before.setCenterStatus :=
    absorbs_option _ fun present _ => (absorbs_uint (.tail _ (.head _)) _).congr fun before => by
      rw [ofNumber_centerStatus, Option.elim_some]
  have action : Absorbs stream (table stream)
      (message.centerAction.elim [] fun value => writeUint stream 24 value.number)
      fun before => message.centerAction.elim before before.setCenterAction :=
    absorbs_option _ fun present _ => (absorbs_uint (.tail _ (.tail _ (.head _))) _).congr
      fun before => by rw [ofNumber_centerAction, Option.elim_some]
  have start : Absorbs stream (table stream)
      (message.startTime.elim [] fun value => writeUint stream 32 value)
      fun before => message.startTime.elim before before.setStartTime :=
    absorbs_option _ fun present _ => absorbs_uint (.tail _ (.tail _ (.tail _ (.head _)))) _
  have lcStart : Absorbs stream (table stream)
      (message.lcStartTime.elim [] fun value => writeUint stream 40 value)
      fun before => message.lcStartTime.elim before before.setLcStartTime :=
    absorbs_option _ fun present _ =>
      absorbs_uint (.tail _ (.tail _ (.tail _ (.tail _ (.head _))))) _
  have clock : Absorbs stream (table stream)
      (message.logicalClock.elim [] fun value => writeUint stream 48 value)
      fun before => message.logicalClock.elim before before.setLogicalClock :=
    absorbs_option _ fun present _ =>
      absorbs_uint (.tail _ (.tail _ (.tail _ (.tail _ (.tail _ (.head _)))))) _
  have leader : Absorbs stream (table stream)
      (message.leaderCenter.elim [] fun value => writeBytes stream 58 value.length value)
      fun before => message.leaderCenter.elim before before.setLeaderCenter :=
    absorbs_option _ fun present same =>
      absorbs_bytes (.tail _ (.tail _ (.tail _ (.tail _ (.tail _ (.tail _ (.head _)))))))
        (leaderCenter_lt bound present same)
  have servers : Absorbs stream (table stream)
      (message.serverInfosList.flatMap fun value =>
        writeBytes stream 66 (value.byteSize stream) (value.serializeWithCachedSizes stream))
      fun before => message.serverInfosList.foldl addServerInfosList before :=
    absorbs_list fun value member => RpcClusterServer.absorbs_add
      (.tail _ (.tail _ (.tail _ (.tail _ (.tail _ (.tail _ (.tail _ (.head _))))))))
      (serverInfosList_lt bound value member)
  have results : Absorbs stream (table stream)
      (message.lbResult.flatMap fun value =>
        writeBytes stream 74 (value.byteSize stream) (value.serializeWithCachedSizes stream))
      fun before => message.lbResult.foldl addLbResult before :=
    absorbs_list fun value member => LoadBalancerMetaData.absorbs_add
      (.tail _ (.tail _ (.tail _ (.tail _ (.tail _ (.tail _ (.tail _ (.tail _ (.head _)))))))))
      (lbResult_lt bound value member)
  have fields := (((((((sender.append status).append action).append start).append lcStart).append
    clock).append leader).append servers).append results
  refine fields.congr fun before => ?_
  -- `MergeFrom` takes the repeated fields first
  simp only [Function.comp_apply, mergeFrom_eq, foldl_addServerInfosList, foldl_addLbResult,
    elim_setFromCenterAddr, elim_setCenterStatus, elim_setCenterAction, elim_setStartTime,
    elim_setLcStartTime, elim_setLogicalClock, elim_setLeaderCenter]

end CentersProto

/-! ## `ClientWithCenter` -/

namespace ClientWithCenter

private theorem elim_setFromAddr (message : ClientWithCenter) (value : Option Bytes) :
    value.elim message message.setFromAddr =
      { message with fromAddr := value.or message.fromAddr } := by
  cases value <;> rfl

private theorem elim_setClientCenterAction (message : ClientWithCenter)
    (value : Option ClientClusterAction) :
    value.elim message message.setClientCenterAction =
      { message with clientCenterAction := value.or message.clientCenterAction } := by
  cases value <;> rfl

private theorem foldl_addShouldCommunicateCenter (message : ClientWithCenter) (values : List Bytes) :
    values.foldl addShouldCommunicateCenter message =
      { message with shouldCommunicateCenter := message.shouldCommunicateCenter ++ values } := by
  induction values generalizing message with
  | nil => rw [List.foldl_nil, List.append_nil]
  | cons value values ih =>
    simp only [List.foldl_cons, ih, addShouldCommunicateCenter, List.append_assoc,
      List.singleton_append]

private theorem foldl_addClusterServerList (message : ClientWithCenter) (values : List Bytes) :
    values.foldl addClusterServerList message =
      { message with clusterServerList := message.clusterServerList ++ values } := by
  induction values generalizing message with
  | nil => rw [List.foldl_nil, List.append_nil]
  | cons value values ih =>
    simp only [List.foldl_cons, ih, addClusterServerList, List.append_assoc, List.singleton_append]

/-- A field that is set replaces the one before it, and repeated fields are appended. -/
theorem mergeFrom_eq (message other : ClientWithCenter) :
    message.mergeFrom other =
      { fromAddr := other.fromAddr.or message.fromAddr
        clientCenterAction := other.clientCenterAction.or message.clientCenterAction
        shouldCommunicateCenter := message.shouldCommunicateCenter ++ other.shouldCommunicateCenter
        clusterServerList := message.clusterServerList ++ other.clusterServerList } := by
  simp only [mergeFrom, foldl_addShouldCommunicateCenter, foldl_addClusterServerList,
    elim_setFromAddr, elim_setClientCenterAction]

theorem mergeFrom_empty (message : ClientWithCenter) : mergeFrom {} message = message := by
  simp only [mergeFrom_eq, Option.or_none, List.nil_append]

theorem length_serializeWithCachedSizes (message : ClientWithCenter) :
    (message.serializeWithCachedSizes stream).length = message.byteSize stream := by
  simp only [serializeWithCachedSizes, byteSize, List.length_append]
  rw [length_elim _ fun _ _ => length_writeBytes (by decide) _,
    length_elim _ fun _ _ => length_writeUint (by decide) _,
    length_flatMap fun _ _ => length_writeBytes (by decide) _,
    length_flatMap fun _ _ => length_writeBytes (by decide) _]

theorem fromAddr_lt {message : ClientWithCenter} (bound : message.byteSize stream < 2 ^ 31) :
    ∀ value ∈ message.fromAddr, value.length < 2 ^ 31 := by
  intro value member
  have part := @length_le_elim stream _ _ member
  rw [byteSize] at bound
  omega

theorem shouldCommunicateCenter_lt {message : ClientWithCenter}
    (bound : message.byteSize stream < 2 ^ 31) :
    ∀ value ∈ message.shouldCommunicateCenter, value.length < 2 ^ 31 := by
  intro value member
  have part := @size_le_sum stream Bytes (fun value => value.length) _ _ member
  rw [byteSize] at bound
  omega

theorem clusterServerList_lt {message : ClientWithCenter} (bound : message.byteSize stream < 2 ^ 31) :
    ∀ value ∈ message.clusterServerList, value.length < 2 ^ 31 := by
  intro value member
  have part := @size_le_sum stream Bytes (fun value => value.length) _ _ member
  rw [byteSize] at bound
  omega

/-- The bytes of a message are merged into the one that is parsed. -/
theorem absorbs {message : ClientWithCenter} (bound : message.byteSize stream < 2 ^ 31) :
    Absorbs stream (table stream) (message.serializeWithCachedSizes stream)
      fun before => before.mergeFrom message := by
  have sender : Absorbs stream (table stream)
      (message.fromAddr.elim [] fun value => writeBytes stream 10 value.length value)
      fun before => message.fromAddr.elim before before.setFromAddr :=
    absorbs_option _ fun present same => absorbs_bytes (.head _) (fromAddr_lt bound present same)
  have action : Absorbs stream (table stream)
      (message.clientCenterAction.elim [] fun value => writeUint stream 16 value.number)
      fun before => message.clientCenterAction.elim before before.setClientCenterAction :=
    absorbs_option _ fun present _ => (absorbs_uint (.tail _ (.head _)) _).congr fun before => by
      rw [ofNumber_clientClusterAction, Option.elim_some]
  have centers : Absorbs stream (table stream)
      (message.shouldCommunicateCenter.flatMap fun value => writeBytes stream 26 value.length value)
      fun before => message.shouldCommunicateCenter.foldl addShouldCommunicateCenter before :=
    absorbs_list fun value member =>
      absorbs_bytes (.tail _ (.tail _ (.head _))) (shouldCommunicateCenter_lt bound value member)
  have servers : Absorbs stream (table stream)
      (message.clusterServerList.flatMap fun value => writeBytes stream 34 value.length value)
      fun before => message.clusterServerList.foldl addClusterServerList before :=
    absorbs_list fun value member =>
      absorbs_bytes (.tail _ (.tail _ (.tail _ (.head _)))) (clusterServerList_lt bound value member)
  refine (((sender.append action).append centers).append servers).congr fun before => ?_
  simp only [Function.comp_apply, mergeFrom_eq, foldl_addShouldCommunicateCenter,
    foldl_addClusterServerList, elim_setFromAddr, elim_setClientCenterAction]

end ClientWithCenter

/-! ## `CenterResponseCluster` -/

namespace CenterResponseCluster

private theorem elim_setCenterResponseAction (message : CenterResponseCluster)
    (value : Option ResponseClusterAction) :
    value.elim message message.setCenterResponseAction =
      { message with centerResponseAction := value.or message.centerResponseAction } := by
  cases value <;> rfl

private theorem foldl_addShouldReporterCenter (message : CenterResponseCluster) (values : List Bytes) :
    values.foldl addShouldReporterCenter message =
      { message with shouldReporterCenter := message.shouldReporterCenter ++ values } := by
  induction values generalizing message with
  | nil => rw [List.foldl_nil, List.append_nil]
  | cons value values ih =>
    simp only [List.foldl_cons, ih, addShouldReporterCenter, List.append_assoc,
      List.singleton_append]

/-- A field that is set replaces the one before it, and repeated fields are appended. -/
theorem mergeFrom_eq (message other : CenterResponseCluster) :
    message.mergeFrom other =
      { centerResponseAction := other.centerResponseAction.or message.centerResponseAction
        shouldReporterCenter := message.shouldReporterCenter ++ other.shouldReporterCenter } := by
  simp only [mergeFrom, foldl_addShouldReporterCenter, elim_setCenterResponseAction]

theorem mergeFrom_empty (message : CenterResponseCluster) : mergeFrom {} message = message := by
  simp only [mergeFrom_eq, Option.or_none, List.nil_append]

theorem length_serializeWithCachedSizes (message : CenterResponseCluster) :
    (message.serializeWithCachedSizes stream).length = message.byteSize stream := by
  simp only [serializeWithCachedSizes, byteSize, List.length_append]
  rw [length_elim _ fun _ _ => length_writeUint (by decide) _,
    length_flatMap fun _ _ => length_writeBytes (by decide) _]

theorem shouldReporterCenter_lt {message : CenterResponseCluster}
    (bound : message.byteSize stream < 2 ^ 31) :
    ∀ value ∈ message.shouldReporterCenter, value.length < 2 ^ 31 := by
  intro value member
  have part := @size_le_sum stream Bytes (fun value => value.length) _ _ member
  rw [byteSize] at bound
  omega

/-- The bytes of a message are merged into the one that is parsed. -/
theorem absorbs {message : CenterResponseCluster} (bound : message.byteSize stream < 2 ^ 31) :
    Absorbs stream (table stream) (message.serializeWithCachedSizes stream)
      fun before => before.mergeFrom message := by
  have action : Absorbs stream (table stream)
      (message.centerResponseAction.elim [] fun value => writeUint stream 8 value.number)
      fun before => message.centerResponseAction.elim before before.setCenterResponseAction :=
    absorbs_option _ fun present _ => (absorbs_uint (.head _) _).congr fun before => by
      rw [ofNumber_responseClusterAction, Option.elim_some]
  have centers : Absorbs stream (table stream)
      (message.shouldReporterCenter.flatMap fun value => writeBytes stream 18 value.length value)
      fun before => message.shouldReporterCenter.foldl addShouldReporterCenter before :=
    absorbs_list fun value member =>
      absorbs_bytes (.tail _ (.head _)) (shouldReporterCenter_lt bound value member)
  refine (action.append centers).congr fun before => ?_
  simp only [Function.comp_apply, mergeFrom_eq, foldl_addShouldReporterCenter,
    elim_setCenterResponseAction]

end CenterResponseCluster

/-! ## Messages of any class -/

namespace Message

theorem length_serializeWithCachedSizes (message : Message) :
    (message.serializeWithCachedSizes stream).length = message.byteSize stream := by
  cases message with
  | centers message => exact message.length_serializeWithCachedSizes
  | client message => exact message.length_serializeWithCachedSizes
  | cluster message => exact message.length_serializeWithCachedSizes
  | response message => exact message.length_serializeWithCachedSizes
  | metaData message => exact message.length_serializeWithCachedSizes

/-- A string that was made has the size that was counted. -/
theorem serializeToString_eq_some {message : Message} {info : Bytes}
    (made : message.serializeToString stream = some info) :
    info = message.serializeWithCachedSizes stream ∧ info.length = message.byteSize stream ∧
      info.length < 2 ^ 31 := by
  obtain ⟨bound, same⟩ := Option.ite_none_right_eq_some.mp made
  cases same
  rw [length_serializeWithCachedSizes]
  exact ⟨rfl, rfl, bound⟩

/-- The message of a class, merged into one of its class. -/
theorem mergeFrom_clear (message : Message) : message.clear.mergeFrom message = some message := by
  cases message with
  | centers message => exact congrArg (some ∘ centers) message.mergeFrom_empty
  | client message => exact congrArg (some ∘ client) message.mergeFrom_empty
  | cluster message => exact congrArg (some ∘ cluster) message.mergeFrom_empty
  | response message => exact congrArg (some ∘ response) message.mergeFrom_empty
  | metaData message => exact congrArg (some ∘ metaData) message.mergeFrom_empty

/-- In front of any other bytes a message is merged into the one that is parsed. -/
theorem mergeFromString_append {message before merged : Message} {info : Bytes}
    (made : message.serializeToString stream = some info)
    (merges : before.mergeFrom message = some merged) (rest : Bytes) :
    before.mergeFromString stream (info ++ rest) = merged.mergeFromString stream rest := by
  obtain ⟨rfl, length, short⟩ := serializeToString_eq_some made
  rw [length] at short
  cases message <;> cases before <;> cases merges
  case centers.centers message before =>
    simp only [mergeFromString, CaseTable.mergeFromCodedStream_eq_parse]
    exact congrArg (Option.map centers) ((CentersProto.absorbs short).parse_append before rest)
  case client.client message before =>
    simp only [mergeFromString, CaseTable.mergeFromCodedStream_eq_parse]
    exact congrArg (Option.map client) ((ClientWithCenter.absorbs short).parse_append before rest)
  case cluster.cluster message before =>
    simp only [mergeFromString, CaseTable.mergeFromCodedStream_eq_parse]
    exact congrArg (Option.map cluster) ((RpcClusterServer.absorbs short).parse_append before rest)
  case response.response message before =>
    simp only [mergeFromString, CaseTable.mergeFromCodedStream_eq_parse]
    exact congrArg (Option.map response)
      ((CenterResponseCluster.absorbs short).parse_append before rest)
  case metaData.metaData message before =>
    simp only [mergeFromString, CaseTable.mergeFromCodedStream_eq_parse]
    exact congrArg (Option.map metaData)
      ((LoadBalancerMetaData.absorbs short).parse_append before rest)

@[simp] theorem mergeFromString_nil (message : Message) :
    message.mergeFromString stream [] = some message := by
  cases message <;>
    simp only [mergeFromString, CaseTable.mergeFromCodedStream_eq_parse, CaseTable.parse_nil,
      Option.map_some]

/-- Messages of one class behind each other are merged into the one that is parsed. -/
theorem mergeFromString_flatMap {messages : List (Message × Bytes)} {before merged : Message}
    (made : ∀ entry ∈ messages, entry.1.serializeToString stream = some entry.2)
    (merges : messages.foldlM (fun message entry => message.mergeFrom entry.1) before = some merged) :
    before.mergeFromString stream (messages.flatMap Prod.snd) = some merged := by
  induction messages generalizing before with
  | nil =>
    cases merges
    exact mergeFromString_nil _
  | cons entry messages ih =>
    rw [List.foldlM_cons] at merges
    obtain ⟨next, first, later⟩ := Option.bind_eq_some_iff.mp merges
    rw [List.flatMap_cons, mergeFromString_append (made entry List.mem_cons_self) first]
    exact ih (fun other member => made other (List.mem_cons_of_mem _ member)) later

/-- Messages of one class can be merged. -/
theorem foldlM_mergeFrom {messages : List (Message × Bytes)} {before : Message}
    (same : ∀ entry ∈ messages, entry.1.clear = before.clear) :
    ∃ merged, messages.foldlM (fun message entry => message.mergeFrom entry.1) before = some merged ∧
      merged.clear = before.clear := by
  induction messages generalizing before with
  | nil => exact ⟨before, rfl, rfl⟩
  | cons entry messages ih =>
    have first := same entry List.mem_cons_self
    obtain ⟨next, merged, class_⟩ : ∃ next, before.mergeFrom entry.1 = some next ∧
        next.clear = before.clear := by
      obtain ⟨message, info⟩ := entry
      cases message <;> cases before <;> first | contradiction | exact ⟨_, rfl, rfl⟩
    obtain ⟨last, later, kept⟩ := ih fun other member =>
      (same other (List.mem_cons_of_mem _ member)).trans class_.symm
    refine ⟨last, ?_, kept.trans class_⟩
    rw [List.foldlM_cons, merged]
    exact later

/-- Every message of a class is written in the size that was counted and read as it was written, and
any number of them behind each other are read as `MergeFrom` merges them in their order. -/
theorem parseFromString_written {messages : List (Message × Bytes)} {into : Message}
    (same : ∀ entry ∈ messages, entry.1.clear = into.clear)
    (made : ∀ entry ∈ messages, entry.1.serializeToString stream = some entry.2) :
    (∀ entry ∈ messages, entry.2.length = entry.1.byteSize stream ∧
        into.parseFromString stream entry.2 = some entry.1) ∧
      ∃ merged,
        messages.foldlM (fun message entry => message.mergeFrom entry.1) into.clear = some merged ∧
        into.parseFromString stream (messages.flatMap Prod.snd) = some merged := by
  constructor
  · intro entry member
    refine ⟨(serializeToString_eq_some (made entry member)).2.1, ?_⟩
    rw [parseFromString, ← same entry member, ← List.append_nil entry.2,
      mergeFromString_append (made entry member) (mergeFrom_clear entry.1), mergeFromString_nil]
  · have clear : into.clear.clear = into.clear := by cases into <;> rfl
    obtain ⟨merged, merges, _⟩ := foldlM_mergeFrom fun entry member =>
      (same entry member).trans clear.symm
    exact ⟨merged, merges, mergeFromString_flatMap made merges⟩

def samplePing : List (Message × Bytes) :=
  [(.cluster { clusterAction := some .register, clusterServerAddr := some [49, 48] },
      [8, 1, 18, 2, 49, 48]),
    (.cluster { clusterAction := some .clusterPing, load := some 300 }, [8, 2, 24, 172, 2])]

/-- The second message changes the action and adds the load. -/
theorem parseFromString_written_sample :
    ∃ merged, samplePing.foldlM (fun message entry => message.mergeFrom entry.1) (.cluster {}) =
        some merged ∧
      (Message.cluster {}).parseFromString .base128 [8, 1, 18, 2, 49, 48, 8, 2, 24, 172, 2] =
        some merged :=
  (@parseFromString_written .base128 samplePing (.cluster {}) (by decide) (by decide)).2

end Message

end Pb

end LibEvRpc
