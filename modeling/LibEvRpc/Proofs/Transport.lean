import LibEvRpc.Center.Transport
import LibEvRpc.Proofs.Encoding
import LibEvRpc.Proofs.Framing

/-! # Which messages arrive at a center

An encoding without a zero byte arrives as it was sent. A shorter one than a block with a zero byte
arrives up to that byte, and such a text is never parsed. The first values of the enumerations are
written as zero bytes, and so the messages of an election that say that their sender is looking, or
that are inquiries, never reach the election.
-/

namespace LibEvRpc

open TaggedFields

namespace Pb

variable {stream : CodedStream}

/-! ## Zero bytes of fields -/

theorem zero_notMem_elim {α : Type*} {write : α → Bytes} {fits : α → Prop} {value : Option α}
    (same : ∀ present ∈ value, (0 ∉ write present ↔ fits present)) :
    0 ∉ value.elim [] write ↔ ∀ present ∈ value, fits present := by
  cases value with
  | none => simp
  | some present => simpa using same present rfl

theorem zero_notMem_flatMap {α : Type*} {write : α → Bytes} {fits : α → Prop} {values : List α}
    (same : ∀ value ∈ values, (0 ∉ write value ↔ fits value)) :
    0 ∉ values.flatMap write ↔ ∀ value ∈ values, fits value := by
  rw [List.mem_flatMap, not_exists]
  apply forall_congr'
  intro value
  rw [not_and]
  exact forall_congr' (same value)

/-- Of the numbers in an optional field only zero has a zero byte. -/
theorem zero_notMem_uint {α : Type*} {tag : UInt32} (positive : tag ≠ 0) (number : α → UInt64)
    (value : Option α) : 0 ∉ value.elim [] (fun present => writeUint stream tag (number present)) ↔
      ∀ present ∈ value, number present ≠ 0 :=
  zero_notMem_elim fun present _ => (zero_mem_writeUint positive (number present)).not

theorem zero_notMem_writeBytes {tag : UInt32} (positive : tag ≠ 0) {content : Bytes}
    (bound : content.length < 2 ^ 31) :
    0 ∉ writeBytes stream tag content.length content ↔ Text content := by
  rw [zero_mem_writeBytes positive bound, not_or]
  rfl

theorem zero_notMem_text {tag : UInt32} (positive : tag ≠ 0) {value : Option Bytes}
    (bound : ∀ present ∈ value, present.length < 2 ^ 31) :
    0 ∉ value.elim [] (fun present => writeBytes stream tag present.length present) ↔
      ∀ present ∈ value, Text present :=
  zero_notMem_elim fun present member => zero_notMem_writeBytes positive (bound present member)

theorem zero_notMem_texts {tag : UInt32} (positive : tag ≠ 0) {values : List Bytes}
    (bound : ∀ value ∈ values, value.length < 2 ^ 31) :
    0 ∉ values.flatMap (fun value => writeBytes stream tag value.length value) ↔
      ∀ value ∈ values, Text value :=
  zero_notMem_flatMap fun value member => zero_notMem_writeBytes positive (bound value member)

theorem zero_notMem_fixed32 {tag : UInt32} (positive : tag ≠ 0) (value : Option Int32) :
    0 ∉ value.elim [] (fun present => writeFixed32 stream tag present) ↔
      ∀ present ∈ value, 0 ∉ LittleEndian.encode present :=
  zero_notMem_elim fun present _ => (zero_mem_writeFixed32 positive present).not

theorem forall_mem_ne_iff {α : Type*} {value : Option α} {present : α} :
    (∀ other ∈ value, other ≠ present) ↔ value ≠ some present := by
  cases value <;> simp

theorem writeUint_ne_nil {tag : UInt32} (value : UInt64) : writeUint stream tag value ≠ [] :=
  List.append_ne_nil_of_left_ne_nil (stream.write_ne_nil _) _

theorem writeBytes_ne_nil {tag : UInt32} (length : ℕ) (content : Bytes) :
    writeBytes stream tag length content ≠ [] :=
  List.append_ne_nil_of_left_ne_nil
    (List.append_ne_nil_of_left_ne_nil (stream.write_ne_nil _) _) _

theorem writeFixed32_ne_nil {tag : UInt32} (value : Int32) : writeFixed32 stream tag value ≠ [] :=
  List.append_ne_nil_of_left_ne_nil (stream.write_ne_nil _) _

theorem elim_eq_nil {α : Type*} {write : α → Bytes} (written : ∀ value, write value ≠ [])
    (value : Option α) : value.elim [] write = [] ↔ value = none := by
  cases value with
  | none => simp
  | some present => simpa using written present

@[simp] theorem clusteAction_number_ne_zero (value : ClusteAction) : value.number ≠ 0 := by
  cases value <;> decide

@[simp] theorem responseClusterAction_number_ne_zero (value : ResponseClusterAction) :
    value.number ≠ 0 := by
  cases value <;> decide

@[simp] theorem clientClusterAction_number_ne_zero (value : ClientClusterAction) :
    value.number ≠ 0 := by
  cases value <;> decide

theorem centerStatus_number_ne_zero (value : CenterStatus) : value.number ≠ 0 ↔ value ≠ .looking := by
  cases value <;> decide

theorem centerAction_number_ne_zero (value : CenterAction) : value.number ≠ 0 ↔ value ≠ .inquiry := by
  cases value <;> decide

theorem uint32_toUInt64_ne_zero (value : UInt32) : value.toUInt64 ≠ 0 ↔ value ≠ 0 := by
  rw [not_iff_not, ← UInt64.toNat_inj, ← UInt32.toNat_inj]
  rfl

theorem int32_toUInt64_ne_zero (value : Int32) : value.toInt64.toUInt64 ≠ 0 ↔ value ≠ 0 := by
  rw [not_iff_not]
  constructor
  · intro zero
    rw [← toInt32_toUInt64 value, zero]
    rfl
  · rintro rfl
    rfl

/-! ## Zero bytes of messages -/

namespace RpcClusterServer

theorem serializeWithCachedSizes_eq_nil (message : RpcClusterServer) :
    message.serializeWithCachedSizes stream = [] ↔ message = {} := by
  obtain ⟨clusterAction, clusterServerAddr, load, cpuUsed, connectionNum⟩ := message
  simp only [serializeWithCachedSizes, List.append_eq_nil_iff, mk.injEq,
    elim_eq_nil fun _ => writeUint_ne_nil _, elim_eq_nil fun _ => writeBytes_ne_nil _ _,
    elim_eq_nil fun _ => writeFixed32_ne_nil _, and_assoc]

theorem nulFree_iff {message : RpcClusterServer} (bound : message.byteSize stream < 2 ^ 31) :
    0 ∉ message.serializeWithCachedSizes stream ↔ message.NulFree := by
  rw [serializeWithCachedSizes]
  simp only [List.mem_append, not_or]
  rw [zero_notMem_uint (by decide), zero_notMem_text (by decide) (clusterServerAddr_lt bound),
    zero_notMem_uint (by decide), zero_notMem_fixed32 (by decide), zero_notMem_uint (by decide)]
  simp only [uint32_toUInt64_ne_zero, int32_toUInt64_ne_zero]
  constructor
  · rintro ⟨⟨⟨⟨_, addr⟩, load⟩, cpu⟩, connections⟩
    exact ⟨addr, load, cpu, connections⟩
  · rintro ⟨addr, load, cpu, connections⟩
    exact ⟨⟨⟨⟨fun value _ => clusteAction_number_ne_zero value, addr⟩, load⟩, cpu⟩, connections⟩

/-- A server inside another message, behind its size. -/
theorem zero_notMem_add {tag : UInt32} (positive : tag ≠ 0) {message : RpcClusterServer}
    (bound : message.byteSize stream < 2 ^ 31) :
    0 ∉ writeBytes stream tag (message.byteSize stream) (message.serializeWithCachedSizes stream) ↔
      message ≠ {} ∧ message.NulFree := by
  rw [← nulFree_iff bound, ne_eq, ← @serializeWithCachedSizes_eq_nil stream message,
    ← message.length_serializeWithCachedSizes]
  rw [← message.length_serializeWithCachedSizes] at bound
  exact zero_notMem_writeBytes positive bound

end RpcClusterServer

namespace LoadBalancerMetaData

theorem serializeWithCachedSizes_eq_nil (message : LoadBalancerMetaData) :
    message.serializeWithCachedSizes stream = [] ↔ message = {} := by
  obtain ⟨vid, serverAddr⟩ := message
  simp only [serializeWithCachedSizes, List.append_eq_nil_iff, mk.injEq,
    elim_eq_nil fun _ => writeUint_ne_nil _, elim_eq_nil fun _ => writeBytes_ne_nil _ _]

theorem nulFree_iff {message : LoadBalancerMetaData} (bound : message.byteSize stream < 2 ^ 31) :
    0 ∉ message.serializeWithCachedSizes stream ↔ message.NulFree := by
  rw [serializeWithCachedSizes]
  simp only [List.mem_append, not_or]
  rw [zero_notMem_uint (by decide), zero_notMem_text (by decide) (serverAddr_lt bound)]
  simp only [uint32_toUInt64_ne_zero]
  exact ⟨fun clean => ⟨clean.1, clean.2⟩, fun free => ⟨free.vid, free.serverAddr⟩⟩

/-- An entry inside another message, behind its size. -/
theorem zero_notMem_add {tag : UInt32} (positive : tag ≠ 0) {message : LoadBalancerMetaData}
    (bound : message.byteSize stream < 2 ^ 31) :
    0 ∉ writeBytes stream tag (message.byteSize stream) (message.serializeWithCachedSizes stream) ↔
      message ≠ {} ∧ message.NulFree := by
  rw [← nulFree_iff bound, ne_eq, ← @serializeWithCachedSizes_eq_nil stream message,
    ← message.length_serializeWithCachedSizes]
  rw [← message.length_serializeWithCachedSizes] at bound
  exact zero_notMem_writeBytes positive bound

end LoadBalancerMetaData

theorem CentersProto.nulFree_iff {message : CentersProto} (bound : message.byteSize stream < 2 ^ 31) :
    0 ∉ message.serializeWithCachedSizes stream ↔ message.NulFree := by
  have servers := zero_notMem_flatMap fun value member =>
    @RpcClusterServer.zero_notMem_add stream 66 (by decide) value (serverInfosList_lt bound value member)
  have results := zero_notMem_flatMap fun value member =>
    @LoadBalancerMetaData.zero_notMem_add stream 74 (by decide) value (lbResult_lt bound value member)
  rw [serializeWithCachedSizes]
  simp only [List.mem_append, not_or]
  rw [zero_notMem_text (by decide) (fromCenterAddr_lt bound), zero_notMem_uint (by decide),
    zero_notMem_uint (by decide), zero_notMem_uint (by decide), zero_notMem_uint (by decide),
    zero_notMem_uint (by decide), zero_notMem_text (by decide) (leaderCenter_lt bound), servers,
    results]
  simp only [centerStatus_number_ne_zero, centerAction_number_ne_zero, forall_mem_ne_iff]
  constructor
  · rintro ⟨⟨⟨⟨⟨⟨⟨⟨sender, status⟩, action⟩, start⟩, lcStart⟩, clock⟩, leader⟩, servers⟩, results⟩
    exact ⟨sender, status, action, start, lcStart, clock, leader, servers, results⟩
  · rintro ⟨sender, status, action, start, lcStart, clock, leader, servers, results⟩
    exact ⟨⟨⟨⟨⟨⟨⟨⟨sender, status⟩, action⟩, start⟩, lcStart⟩, clock⟩, leader⟩, servers⟩, results⟩

theorem ClientWithCenter.nulFree_iff {message : ClientWithCenter}
    (bound : message.byteSize stream < 2 ^ 31) :
    0 ∉ message.serializeWithCachedSizes stream ↔ message.NulFree := by
  rw [serializeWithCachedSizes]
  simp only [List.mem_append, not_or]
  rw [zero_notMem_text (by decide) (fromAddr_lt bound), zero_notMem_uint (by decide),
    zero_notMem_texts (by decide) (shouldCommunicateCenter_lt bound),
    zero_notMem_texts (by decide) (clusterServerList_lt bound)]
  constructor
  · rintro ⟨⟨⟨sender, _⟩, centers⟩, servers⟩
    exact ⟨sender, centers, servers⟩
  · rintro ⟨sender, centers, servers⟩
    exact ⟨⟨⟨sender, fun value _ => clientClusterAction_number_ne_zero value⟩, centers⟩, servers⟩

theorem CenterResponseCluster.nulFree_iff {message : CenterResponseCluster}
    (bound : message.byteSize stream < 2 ^ 31) :
    0 ∉ message.serializeWithCachedSizes stream ↔ message.NulFree := by
  rw [serializeWithCachedSizes, List.mem_append, not_or, zero_notMem_uint (by decide),
    zero_notMem_texts (by decide) (shouldReporterCenter_lt bound)]
  exact and_iff_right fun value _ => responseClusterAction_number_ne_zero value

theorem Message.nulFree_iff {message : Message} {info : Bytes}
    (made : message.serializeToString stream = some info) : 0 ∉ info ↔ message.NulFree := by
  obtain ⟨bound, same⟩ := Option.ite_none_right_eq_some.mp made
  cases same
  cases message with
  | centers message => exact CentersProto.nulFree_iff bound
  | client message => exact ClientWithCenter.nulFree_iff bound
  | cluster message => exact RpcClusterServer.nulFree_iff bound
  | response message => exact CenterResponseCluster.nulFree_iff bound
  | metaData message => exact LoadBalancerMetaData.nulFree_iff bound

/-- A message is parsed as it was written. -/
theorem Message.parseFromString_whole {message into : Message} {info : Bytes}
    (made : message.serializeToString stream = some info) (same : message.clear = into.clear) :
    into.parseFromString stream info = some message := by
  rw [parseFromString, ← same, ← List.append_nil info,
    mergeFromString_append made (mergeFrom_clear message), mergeFromString_nil]

/-- A message that ends at its first zero byte is not parsed. -/
theorem Message.parseFromString_cut {message into : Message} {info : Bytes}
    (made : message.serializeToString stream = some info) (same : message.clear = into.clear)
    (cut : 0 ∈ info) : into.parseFromString stream (CString.ofBuffer info) = none := by
  obtain ⟨bound, written⟩ := Option.ite_none_right_eq_some.mp made
  cases written
  rw [parseFromString, ← same]
  cases message with
  | centers message =>
    simp only [clear, mergeFromString, CaseTable.mergeFromCodedStream_eq_parse]
    exact congrArg (Option.map centers) ((CentersProto.absorbs bound).refused cut {})
  | client message =>
    simp only [clear, mergeFromString, CaseTable.mergeFromCodedStream_eq_parse]
    exact congrArg (Option.map client) ((ClientWithCenter.absorbs bound).refused cut {})
  | cluster message =>
    simp only [clear, mergeFromString, CaseTable.mergeFromCodedStream_eq_parse]
    exact congrArg (Option.map cluster) ((RpcClusterServer.absorbs bound).refused cut {})
  | response message =>
    simp only [clear, mergeFromString, CaseTable.mergeFromCodedStream_eq_parse]
    exact congrArg (Option.map response) ((CenterResponseCluster.absorbs bound).refused cut {})
  | metaData message =>
    simp only [clear, mergeFromString, CaseTable.mergeFromCodedStream_eq_parse]
    exact congrArg (Option.map metaData) ((LoadBalancerMetaData.absorbs bound).refused cut {})

end Pb

/-! ## Messages on a connection -/

/-- A string inside the limits arrives as it was sent. -/
theorem carried_framable {transferId : Int32} {info : Bytes} (positive : 0 < transferId)
    (framable : Framable info) : carried transferId info = some ⟨transferId, info, 0, []⟩ := by
  have valid : ¬ transferId < 0 := Int32.not_lt.mpr (Int32.le_of_lt positive)
  rw [carried, rpcSend_framable false valid framable, Option.bind_some,
    ← List.append_nil (wholeBlocks _), rpcRecv_framable false [] valid framable,
    endCode_mul_neg_one (Int32.ne_of_lt positive).symm]
  rfl

/-- A string in one block arrives up to its first NUL. -/
theorem carried_short {transferId : Int32} {info : Bytes} (positive : 0 < transferId)
    (nonempty : info ≠ []) (short : info.length < 511) :
    carried transferId info = some ⟨transferId, CString.ofBuffer info, 0, []⟩ := by
  have valid : ¬ transferId < 0 := Int32.not_lt.mpr (Int32.le_of_lt positive)
  have received := rpcRecv_block false (endCode transferId) [] [] (Nat.lt_succ_of_lt short)
  rw [carried, rpcSend_short allSent positive nonempty short, Option.bind_some, allSent, if_pos rfl,
    wholeBlocks, List.map_singleton]
  rw [received, if_pos (endCode_neg valid), endCode_mul_neg_one (Int32.ne_of_lt positive).symm]
  rfl

/-- A string without a remainder of a block has no end for its receiver, who waits for more. -/
theorem carried_full {transferId : Int32} {info : Bytes} (positive : 0 < transferId)
    (full : info.length % 511 = 0) : carried transferId info = none := by
  have valid : ¬ transferId < 0 := Int32.not_lt.mpr (Int32.le_of_lt positive)
  rw [carried]
  cases sending : rpcSend allSent transferId info false with
  | none => rfl
  | some sent =>
    obtain ⟨pieces, _, ⟨_, blocks⟩ | ⟨last, length, nonempty, _⟩⟩ := rpcSend_shape valid sending
    · rw [Option.bind_some, blocks, ← List.append_nil (wholeBlocks _), rpcRecv_full]
      rfl
    · omega

/-- A message without zero bytes arrives as it was written. -/
theorem carried_nulFree {stream : CodedStream} {message into : Pb.Message} {info : Bytes}
    {transferId : Int32} (made : message.serializeToString stream = some info)
    (same : message.clear = into.clear) (positive : 0 < transferId)
    (remainder : info.length % 511 ≠ 0) (free : message.NulFree) :
    carried transferId info = some ⟨transferId, info, 0, []⟩ ∧
      into.parseFromString stream info = some message := by
  have bound := (Pb.Message.serializeToString_eq_some made).2.2
  have framable : Framable info := ⟨(Pb.Message.nulFree_iff made).mpr free, remainder, by omega⟩
  exact ⟨carried_framable positive framable, Pb.Message.parseFromString_whole made same⟩

/-- A message in one block that has a zero byte arrives as a text that is not parsed. -/
theorem carried_cut {stream : CodedStream} {message into : Pb.Message} {info : Bytes}
    {transferId : Int32} (made : message.serializeToString stream = some info)
    (same : message.clear = into.clear) (positive : 0 < transferId) (short : info.length < 511)
    (cut : ¬ message.NulFree) :
    ∃ text, carried transferId info = some ⟨transferId, text, 0, []⟩ ∧
      into.parseFromString stream text = none := by
  have zero : 0 ∈ info := not_not.mp ((Pb.Message.nulFree_iff made).not.mpr cut)
  exact ⟨CString.ofBuffer info, carried_short positive (List.ne_nil_of_mem zero) short,
    Pb.Message.parseFromString_cut made same zero⟩

/-- A message of any class in one block is received, and parsed as it was written if no field has a zero
byte, and not at all otherwise. -/
theorem carried_of_short {stream : CodedStream} {message into : Pb.Message} {transferId : Int32}
    (same : message.clear = into.clear) (positive : 0 < transferId)
    (sized : 0 < message.byteSize stream) (short : message.byteSize stream < 511) :
    ∃ info text, message.serializeToString stream = some info ∧
      carried transferId info = some ⟨transferId, text, 0, []⟩ ∧
      (message.NulFree → into.parseFromString stream text = some message) ∧
      (¬ message.NulFree → into.parseFromString stream text = none) := by
  have made : message.serializeToString stream = some (message.serializeWithCachedSizes stream) :=
    if_pos (Nat.lt_trans short (by decide))
  have length := (Pb.Message.serializeToString_eq_some made).2.1
  by_cases free : message.NulFree
  · have remainder : (message.serializeWithCachedSizes stream).length % 511 ≠ 0 := by
      rw [length, Nat.mod_eq_of_lt short]
      omega
    obtain ⟨arrived, parsed⟩ := carried_nulFree made same positive remainder free
    exact ⟨_, _, made, arrived, fun _ => parsed, fun cut => absurd free cut⟩
  · obtain ⟨text, arrived, parsed⟩ := carried_cut made same positive (length ▸ short) free
    exact ⟨_, _, made, arrived, fun free' => absurd free' free, fun _ => parsed⟩

/-- A message of any class that is sent alone arrives as it was written, if no field of it is written
with a zero byte and the receiver sees its end. It is received and not parsed if some field is and
it fits one block. Without a remainder of a block behind the full ones nothing is received. -/
theorem Pb.Message.carried_iff {stream : CodedStream} {message into : Pb.Message} {info : Bytes}
    {transferId : Int32} (made : message.serializeToString stream = some info)
    (same : message.clear = into.clear) (positive : 0 < transferId) :
    (info.length % 511 = 0 → carried transferId info = none) ∧
      (info.length % 511 ≠ 0 → message.NulFree →
        carried transferId info = some ⟨transferId, info, 0, []⟩ ∧
          into.parseFromString stream info = some message) ∧
      (info.length < 511 → ¬ message.NulFree →
        ∃ text, carried transferId info = some ⟨transferId, text, 0, []⟩ ∧
          into.parseFromString stream text = none) :=
  ⟨carried_full positive, carried_nulFree made same positive, carried_cut made same positive⟩

/-- A message that says only that its sender is looking is received as one byte, which is refused. -/
theorem Pb.Message.carried_iff_looking :
    ∃ text, carried 100 [16, 0] = some ⟨100, text, 0, []⟩ ∧
      (Pb.Message.centers {}).parseFromString .base128 text = none :=
  (@Pb.Message.carried_iff .base128 (.centers { centerStatus := some .looking }) (.centers {}) _ 100
    (by decide) rfl (by decide)).2.2 (by decide) fun free => free.centerStatus rfl

/-! ## Messages of an election -/

section Election

variable {stream : CodedStream}

/-- A text under the id of the protocol between centers is parsed as a message of a center. -/
theorem ofReceived_center (text : Bytes) :
    Incoming.ofReceived stream ⟨center2Center, text, 0, []⟩ =
      .center (((Pb.CentersProto.table stream).mergeFromCodedStream stream {} text).map
        Pb.CentersProto.content) := rfl

/-- A short message with the address of its sender is found by the receiver if no field has a zero
byte, and as a malformed one otherwise. -/
theorem ofSent_of_short {message : Pb.CentersProto} {sender : Bytes}
    (named : message.fromCenterAddr = some sender) (short : message.byteSize stream < 511) :
    (message.NulFree → Incoming.ofSent stream message = some (.center (some message.content))) ∧
      (¬ message.NulFree → Incoming.ofSent stream message = some (.center none)) := by
  have sized : 0 < message.byteSize stream := by
    rw [Pb.CentersProto.byteSize, named, Option.elim_some, Pb.bytesSize]
    omega
  obtain ⟨info, text, made, arrived, whole, cut⟩ := @carried_of_short stream (.centers message)
    (.centers {}) center2Center rfl (by decide) sized short
  rw [Incoming.ofSent, made, Option.bind_some, arrived, Option.map_some, ofReceived_center]
  constructor
  · intro free
    obtain ⟨found, merged, same⟩ := Option.map_eq_some_iff.mp (whole free)
    cases same
    rw [merged, Option.map_some]
  · intro zero
    rw [Option.map_eq_none_iff.mp (cut zero), Option.map_none]

theorem uintSize_le (value : UInt64) : Pb.uintSize stream value ≤ 11 := by
  have bound := stream.size_le value
  rw [Pb.uintSize]
  omega

theorem bytesSize_le (length : ℕ) : Pb.bytesSize stream length ≤ length + 11 := by
  have bound := stream.size_le (UInt64.ofNat length)
  rw [Pb.bytesSize]
  omega

theorem elim_uintSize_le {α : Type*} (number : α → UInt64) (value : Option α) :
    value.elim 0 (fun present => Pb.uintSize stream (number present)) ≤ 11 := by
  cases value with
  | none => exact Nat.zero_le 11
  | some present => exact uintSize_le (number present)

theorem elim_bytesSize_le (value : Option Bytes) :
    value.elim 0 (fun present => Pb.bytesSize stream present.length) ≤
      (value.getD []).length + 11 := by
  cases value with
  | none => exact Nat.zero_le _
  | some present => exact bytesSize_le present.length

/-- A message without lists is not much longer than its two addresses. -/
theorem byteSize_lt {message : Pb.CentersProto} (servers : message.serverInfosList = [])
    (results : message.lbResult = [])
    (short : (message.fromCenterAddr.getD []).length + (message.leaderCenter.getD []).length ≤ 400) :
    message.byteSize stream < 511 := by
  have sender := @elim_bytesSize_le stream message.fromCenterAddr
  have leader := @elim_bytesSize_le stream message.leaderCenter
  have status := @elim_uintSize_le stream _ CenterStatus.number message.centerStatus
  have action := @elim_uintSize_le stream _ CenterAction.number message.centerAction
  have start := @elim_uintSize_le stream _ id message.startTime
  have lcStart := @elim_uintSize_le stream _ id message.lcStartTime
  have clock := @elim_uintSize_le stream _ id message.logicalClock
  rw [Pb.CentersProto.byteSize, servers, results, List.map_nil, List.map_nil, List.sum_nil]
  simp only [id] at start lcStart clock
  omega

/-- A message of a center that says that it is looking is malformed for its receiver, and so is one
with the action of an inquiry. -/
theorem ofSent_unheard {message : Pb.CentersProto} {sender : Bytes}
    (named : message.fromCenterAddr = some sender) (servers : message.serverInfosList = [])
    (results : message.lbResult = [])
    (short : sender.length + (message.leaderCenter.getD []).length ≤ 400)
    (silent : message.centerStatus = some .looking ∨ message.centerAction = some .inquiry) :
    Incoming.ofSent stream message = some (.center none) := by
  have small : message.byteSize stream < 511 := byteSize_lt servers results (by rwa [named])
  apply (ofSent_of_short named small).2
  intro free
  rcases silent with looking | inquiry
  · exact free.centerStatus looking
  · exact free.centerAction inquiry

/-- An address is written without a zero byte. -/
theorem text_inetNtoa (address : UInt8 × UInt8 × UInt8 × UInt8) : Pb.Text (inetNtoa address) := by
  refine ⟨?_, zero_notMem_inetNtoa address⟩
  rw [inetNtoa]
  simp

/-! ### The messages that a center sends -/

/-- The fields that a center sets say what its message of the election says, here for an inquiry. -/
theorem content_inquiry (center : RpcCenter) :
    (Pb.CentersProto.inquiry center).content = center.inquiryProto := rfl

theorem content_inquiryAnswer (center : RpcCenter) :
    (Pb.CentersProto.inquiryAnswer center).content = center.inquiryAnswer := rfl

theorem content_proposal (center : RpcCenter) :
    (Pb.CentersProto.proposal center).content = center.proposal := rfl

theorem content_confirm (center : RpcCenter) :
    (Pb.CentersProto.confirm center).content = center.confirmProto := rfl

/-- What a message of the election says tells which fields a center sets for it. -/
theorem ofElection_inquiryProto (center : RpcCenter) :
    Pb.CentersProto.ofElection center.inquiryProto = .inquiry center := rfl

theorem ofElection_proposal (center : RpcCenter) :
    Pb.CentersProto.ofElection center.proposal = .proposal center := rfl

theorem ofElection_confirmProto (center : RpcCenter) :
    Pb.CentersProto.ofElection center.confirmProto = .confirm center := rfl

/-- What the receivers find of the messages that a center sends to other centers. Its proposals, its
inquiries and its answers to inquiries are malformed for them, whatever its state. It is heard as
the leader from its first round on if it was not started at time zero, and its refusals are heard. -/
theorem ofSent_election {center : RpcCenter}
    (dotted : ∃ address, center.localAddress = inetNtoa address)
    (short : center.leaderInfos.leaderCenter.length < leaderNameSize) :
    Incoming.ofSent stream (.proposal center) = some (.center none) ∧
      Incoming.ofSent stream (.inquiry center) = some (.center none) ∧
      Incoming.ofSent stream (.inquiryAnswer center) = some (.center none) ∧
      Incoming.ofSent stream (.confirm center) = some (.center
        (if center.startTime = 0 ∨ center.logicalClock = 0 then none else some center.confirmProto)) ∧
      Incoming.ofSent stream (.refusal center) = some (.center (some
        { fromCenterAddr := center.localAddress, centerAction := .refused })) := by
  obtain ⟨address, dotted⟩ := dotted
  have addrLength : center.localAddress.length ≤ 15 := dotted ▸ inetNtoa_length_le address
  have text : Pb.Text center.localAddress := dotted ▸ text_inetNtoa address
  rw [leaderNameSize] at short
  have named (value : Bytes) (member : value ∈ some center.localAddress) : Pb.Text value :=
    Option.mem_some.mp member ▸ text
  refine ⟨?_, ?_, ?_, ?_, ?_⟩
  · apply @ofSent_unheard stream _ center.localAddress rfl rfl rfl
    · change center.localAddress.length + center.leaderInfos.leaderCenter.length ≤ 400
      omega
    · exact .inl rfl
  · apply @ofSent_unheard stream _ center.localAddress rfl rfl rfl
    · change center.localAddress.length + 0 ≤ 400
      omega
    · exact .inr rfl
  · apply @ofSent_unheard stream _ center.localAddress rfl rfl rfl
    · change center.localAddress.length + center.leaderInfos.leaderCenter.length ≤ 400
      omega
    · exact .inr rfl
  · have small : (Pb.CentersProto.confirm center).byteSize stream < 511 := by
      apply byteSize_lt rfl rfl
      change center.localAddress.length + center.localAddress.length ≤ 400
      omega
    obtain ⟨heard, unheard⟩ := ofSent_of_short rfl small
    split
    · next zero =>
      apply unheard
      intro free
      rcases zero with start | clock
      · exact free.startTime (congrArg some start)
      · exact free.logicalClock (congrArg some clock)
    · next positive =>
      obtain ⟨start, clock⟩ := not_or.mp positive
      have startSome := (Option.some_injective _).ne start
      have status : some CenterStatus.leading ≠ some .looking := by decide
      have action : some CenterAction.leaderConfirm ≠ some .inquiry := by decide
      exact heard ⟨named, status, action, startSome, startSome, (Option.some_injective _).ne clock,
        named, nofun, nofun⟩
  · have small : (Pb.CentersProto.refusal center).byteSize stream < 511 := by
      apply byteSize_lt rfl rfl
      change center.localAddress.length + 0 ≤ 400
      omega
    have action : some CenterAction.refused ≠ some .inquiry := by decide
    exact (ofSent_of_short rfl small).1
      ⟨named, nofun, action, nofun, nofun, nofun, nofun, nofun, nofun⟩

/-- A center that was started at one and proposes itself in its first round is not heard. -/
theorem ofSent_election_first :
    Incoming.ofSent .base128 (.proposal
      (RpcCenter.initRpcCenter (inetNtoa (10, 0, 0, 1)) 1 100 []).increaseLogicalClock) =
        some (.center none) :=
  (@ofSent_election .base128
    (RpcCenter.initRpcCenter (inetNtoa (10, 0, 0, 1)) 1 100 []).increaseLogicalClock
    ⟨(10, 0, 0, 1), rfl⟩ (by decide)).1

end Election

end LibEvRpc
