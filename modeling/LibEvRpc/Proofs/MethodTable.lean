import LibEvRpc.Proofs.Framing
import LibEvRpc.Server.RpcServer

/-! # The table of methods

After any sequence of registrations the table holds, under each hash, the entry that was
registered last with that hash. A call id survives framing except for the hash 0, which is sent
as 1, so a call reaches its method exactly when the hash is not 0 and was not registered again.
-/

namespace LibEvRpc

variable {Service Method Message : Type}

/-- The entries made for a list of services, in the order of their registration. -/
def registered (runtime : Runtime Service Method Message) (services : List Service) :
    List (RpcMethod Service Method Message) :=
  services.flatMap fun service => (runtime.methods service).map (runtime.rpcMethod service)

/-- The full name an entry was registered for. -/
def RpcMethod.fullName (runtime : Runtime Service Method Message)
    (rpcMethod : RpcMethod Service Method Message) : Bytes :=
  runtime.fullName rpcMethod.method

theorem registeServices_eq_foldl (runtime : Runtime Service Method Message)
    (services : List Service) :
    registeServices runtime services = (registered runtime services).foldl (registeMethod runtime) ∅ := by
  rw [registeServices, registered, List.foldl_flatMap]
  congr 1
  funext table service
  rw [registeService, List.foldl_map]

/-- Registering a method sets the entry of its hash and no other. -/
theorem lookup_registeMethod (runtime : Runtime Service Method Message)
    (table : HashMap Service Method Message) (rpcMethod : RpcMethod Service Method Message)
    (id : UInt32) :
    (registeMethod runtime table rpcMethod).lookup id =
      if rpcMethod.hashCode runtime = id then some rpcMethod else table.lookup id := by
  rw [registeMethod]
  split
  · next present =>
    split
    · next same =>
      obtain ⟨old, found⟩ := Option.isSome_iff_exists.mp (AList.lookup_isSome.mpr present)
      rw [← same, AList.lookup_modify_self, found, Option.map_some]
    · next different => exact AList.lookup_modify_ne (Ne.symm different)
  · next absent =>
    split
    · next same =>
      rw [← same, AList.lookup_insertNew_self, AList.lookup_eq_none.mpr absent, Option.getD_none]
    · next different => exact AList.lookup_insertNew_ne (Ne.symm different)

/-- The table holds the last registration of every hash. -/
theorem lookup_registeServices (runtime : Runtime Service Method Message)
    (services : List Service) (id : UInt32) :
    (registeServices runtime services).lookup id =
      (registered runtime services).reverse.find? fun rpcMethod =>
        rpcMethod.hashCode runtime = id := by
  rw [registeServices_eq_foldl,
    AList.lookup_foldl_of_step (fun table rpcMethod => lookup_registeMethod runtime table rpcMethod id),
    AList.lookup_empty, Option.or_none]
  exact Option.map_id'

/-- Whatever is found was registered under the id it is found by. -/
theorem registered_of_lookup {runtime : Runtime Service Method Message} {services : List Service}
    {id : UInt32} {rpcMethod : RpcMethod Service Method Message}
    (found : (registeServices runtime services).lookup id = some rpcMethod) :
    rpcMethod ∈ registered runtime services ∧ rpcMethod.hashCode runtime = id := by
  rw [lookup_registeServices] at found
  have hash := List.find?_some found
  exact ⟨List.mem_reverse.mp (List.mem_of_find?_eq_some found), of_decide_eq_true hash⟩

/-- No id with the top bit set is in the table, in particular none that was negative. -/
theorem lookup_registeServices_of_neg (runtime : Runtime Service Method Message)
    (services : List Service) {id : UInt32} (high : 2 ^ 31 ≤ id.toNat) :
    (registeServices runtime services).lookup id = none := by
  cases found : (registeServices runtime services).lookup id with
  | none => rfl
  | some rpcMethod =>
    have bound := bkdrHash_lt (runtime.fullName rpcMethod.method)
    have hash := (registered_of_lookup found).2
    rw [RpcMethod.hashCode] at hash
    rw [hash] at bound
    omega

/-- Under its own hash a method is found exactly when the hash was not registered again. -/
theorem lookup_hashCode_iff {runtime : Runtime Service Method Message} {services : List Service}
    {before after : List (RpcMethod Service Method Message)}
    {rpcMethod : RpcMethod Service Method Message}
    (distinct : ((registered runtime services).map (RpcMethod.fullName runtime)).Nodup)
    (order : registered runtime services = before ++ rpcMethod :: after) :
    (registeServices runtime services).lookup (rpcMethod.hashCode runtime) = some rpcMethod ↔
      ∀ later ∈ after, later.hashCode runtime ≠ rpcMethod.hashCode runtime := by
  rw [lookup_registeServices, order, List.reverse_append, List.reverse_cons, List.append_assoc,
    List.find?_append]
  constructor
  · intro found later member same
    cases first : after.reverse.find? fun other =>
        other.hashCode runtime = rpcMethod.hashCode runtime with
    | none =>
      have absent := List.find?_eq_none.mp first later (List.mem_reverse.mpr member)
      exact absent (decide_eq_true same)
    | some other =>
      rw [first, Option.some_or, Option.some.injEq] at found
      subst found
      have again : other ∈ after := List.mem_reverse.mp (List.mem_of_find?_eq_some first)
      rw [order, List.map_append, List.map_cons] at distinct
      have fresh := (List.nodup_cons.mp (List.nodup_append.mp distinct).2.1).1
      exact fresh (List.mem_map_of_mem again)
  · intro last
    have none : (after.reverse.find? fun other =>
        other.hashCode runtime = rpcMethod.hashCode runtime) = none := by
      apply List.find?_eq_none.mpr
      intro other member same
      exact last other (List.mem_reverse.mp member) (of_decide_eq_true same)
    rw [none, Option.none_or, List.singleton_append]
    exact List.find?_cons_of_pos (decide_eq_true rfl)

/-! ## The id on the connection -/

private theorem toUInt32_toInt32 (hash : UInt32) : hash.toInt32.toUInt32 = hash := by simp

private theorem toInt32_eq_zero_iff {hash : UInt32} : hash.toInt32 = 0 ↔ hash = 0 := by
  constructor
  · intro zero
    rw [← toUInt32_toInt32 hash, zero]
    rfl
  · rintro rfl
    rfl

/-- The id that is received for a method: its hash, with 0 renumbered to 1. -/
def receivedId (hashCode : UInt32) : UInt32 := if hashCode = 0 then 1 else hashCode

theorem received_hashCode (name : Bytes) {payload : Bytes} (framable : Framable payload) :
    ∃ sent received, rpcSend allSent (bkdrHash name).toInt32 payload false = some sent ∧
      rpcRecv false (wholeBlocks sent.blocks) [] = some received ∧
      received.transferId.toUInt32 = receivedId (bkdrHash name) ∧ received.info = payload := by
  have valid := bkdrHash_toInt32_nonneg name
  have received := rpcRecv_framable false [] valid framable
  rw [List.append_nil] at received
  refine ⟨_, _, rpcSend_framable false valid framable, received, ?_, rfl⟩
  by_cases zero : bkdrHash name = 0
  · rw [zero]
    rfl
  · have nonzero : (bkdrHash name).toInt32 ≠ 0 := fun same => zero (toInt32_eq_zero_iff.mp same)
    rw [receivedId, if_neg zero, ← toUInt32_toInt32 (bkdrHash name)]
    exact congrArg Int32.toUInt32 (endCode_mul_neg_one nonzero)

/-- The id sent for a registered method is received with its payload, and leads to the method
exactly when its hash is not 0 and no method registered later has the same hash. -/
theorem callId_leads_to_method_iff {runtime : Runtime Service Method Message}
    {services : List Service} {before after : List (RpcMethod Service Method Message)}
    {rpcMethod : RpcMethod Service Method Message} {payload : Bytes}
    (distinct : ((registered runtime services).map (RpcMethod.fullName runtime)).Nodup)
    (order : registered runtime services = before ++ rpcMethod :: after)
    (framable : Framable payload) :
    ∃ sent received,
      rpcSend allSent (bkdrHash (rpcMethod.fullName runtime)).toInt32 payload false = some sent ∧
      rpcRecv false (wholeBlocks sent.blocks) [] = some received ∧ received.info = payload ∧
      ((registeServices runtime services).lookup received.transferId.toUInt32 = some rpcMethod ↔
        bkdrHash (rpcMethod.fullName runtime) ≠ 0 ∧
          ∀ later ∈ after, bkdrHash (later.fullName runtime) ≠
            bkdrHash (rpcMethod.fullName runtime)) := by
  obtain ⟨sent, received, sending, receiving, id, info⟩ :=
    received_hashCode (rpcMethod.fullName runtime) framable
  refine ⟨sent, received, sending, receiving, info, ?_⟩
  rw [id]
  constructor
  · intro found
    have hash : bkdrHash (rpcMethod.fullName runtime) =
        receivedId (bkdrHash (rpcMethod.fullName runtime)) := (registered_of_lookup found).2
    have nonzero : bkdrHash (rpcMethod.fullName runtime) ≠ 0 := by
      intro zero
      rw [zero] at hash
      exact absurd hash (by decide)
    refine ⟨nonzero, (lookup_hashCode_iff distinct order).mp ?_⟩
    rw [← hash] at found
    exact found
  · rintro ⟨nonzero, last⟩
    rw [receivedId, if_neg nonzero]
    exact (lookup_hashCode_iff distinct order).mpr last

/-! ## An echo service -/

/-- Messages with one short text field, under the field number 1. -/
def parseText : Bytes → Option Bytes
  | [] => some []
  | 10 :: count :: text => if text.length = count.toNat ∧ count < 128 then some text else none
  | _ => none

def serializeText (text : Bytes) : Option Bytes :=
  if text.length < 128 then some (10 :: UInt8.ofNat text.length :: text) else none

/-- A service is the list of the full names of its methods, and each answers with its request. -/
def echoRuntime : Runtime (List Bytes) Bytes Bytes where
  methods service := service
  fullName method := method
  requestPrototype _ _ := []
  responsePrototype _ _ := []
  new _ := []
  parseFromString _ info := parseText info
  serializeToString text := serializeText text
  callMethod _ _ request response := request.getD response
  serializeToString_length text info success := by
    rw [serializeText] at success
    split at success
    · next short =>
      cases success
      simp only [List.length_cons]
      omega
    · contradiction

def echoFaqcfe : Bytes := [69, 99, 104, 111, 46, 70, 97, 113, 99, 102, 101]

def echoYoohyn : Bytes := [69, 99, 104, 111, 46, 89, 111, 111, 104, 121, 110]

def echoDoiuoar : Bytes := [69, 99, 104, 111, 46, 68, 111, 105, 117, 111, 97, 114]

/-- Two names with the same hash: the call of the first one does not find its method. And a name
with the hash 0: its call finds nothing. -/
theorem callId_collision :
    (∃ sent received,
      rpcSend allSent (bkdrHash echoFaqcfe).toInt32 [10, 2, 104, 105] false = some sent ∧
      rpcRecv false (wholeBlocks sent.blocks) [] = some received ∧
      (registeServices echoRuntime [[echoFaqcfe, echoYoohyn]]).lookup
        received.transferId.toUInt32 ≠
          some (echoRuntime.rpcMethod [echoFaqcfe, echoYoohyn] echoFaqcfe)) ∧
    ∃ sent received,
      rpcSend allSent (bkdrHash echoDoiuoar).toInt32 [10, 2, 104, 105] false = some sent ∧
      rpcRecv false (wholeBlocks sent.blocks) [] = some received ∧
      (registeServices echoRuntime [[echoDoiuoar]]).lookup received.transferId.toUInt32 = none := by
  have framable : Framable [10, 2, 104, 105] := by decide
  constructor
  · obtain ⟨sent, received, sending, receiving, id, _⟩ := received_hashCode echoFaqcfe framable
    refine ⟨sent, received, sending, receiving, ?_⟩
    rw [id]
    decide
  · obtain ⟨sent, received, sending, receiving, id, _⟩ := received_hashCode echoDoiuoar framable
    refine ⟨sent, received, sending, receiving, ?_⟩
    rw [id]
    decide

theorem callId_leads_to_echo :
    ∃ sent received, rpcSend allSent (bkdrHash echoFaqcfe).toInt32 [10, 2, 104, 105] false = some sent ∧
      rpcRecv false (wholeBlocks sent.blocks) [] = some received ∧
      received.info = [10, 2, 104, 105] ∧
      ((registeServices echoRuntime [[echoFaqcfe, echoDoiuoar]]).lookup
        received.transferId.toUInt32 = some (echoRuntime.rpcMethod [echoFaqcfe, echoDoiuoar] echoFaqcfe) ↔
        bkdrHash echoFaqcfe ≠ 0 ∧ ∀ later ∈ [echoRuntime.rpcMethod [echoFaqcfe, echoDoiuoar] echoDoiuoar],
          bkdrHash (later.fullName echoRuntime) ≠ bkdrHash echoFaqcfe) :=
  @callId_leads_to_method_iff _ _ _ echoRuntime [[echoFaqcfe, echoDoiuoar]] []
    [echoRuntime.rpcMethod [echoFaqcfe, echoDoiuoar] echoDoiuoar]
    (echoRuntime.rpcMethod [echoFaqcfe, echoDoiuoar] echoFaqcfe) [10, 2, 104, 105]
    (by decide) rfl (by decide)

end LibEvRpc
