import LibEvRpc.Client.AsyncThreads
import LibEvRpc.Proofs.AsyncCalls

/-! # The limit and the threads of asynchronous calls

The limit is compared with the methods in a table that only grows, not with the calls that are
outstanding, and a call that is turned away leaves no trace. A thread that `GetAsyncResponse` joined is
joined again by the destructor.
-/

namespace LibEvRpc

open AsyncChannel (sampleChannel faqcfe)

/-- `CallMethod` opens a connection to the server of the channel. -/
def Channel.Reaches (channel : Channel) (connects : List Int32) : Prop :=
  channel.centerClientHeartbeat = false ∧ channel.addr.isSome ∧ channel.port.isSome ∧
    ∃ connectFd, connectLoop channel.tryTime connects = some connectFd ∧ ¬ connectFd < 0

/-- A channel that reaches its server passes the first test of `CallMethod`. -/
theorem Channel.Reaches.addressed {channel : Channel} {connects : List Int32}
    (reaches : channel.Reaches connects) :
    ¬ (!channel.centerClientHeartbeat && (channel.addr.isNone || channel.port.isNone)) := by
  obtain ⟨_, addr, port, _⟩ := reaches
  simp [Option.isNone_eq_false_iff.mpr addr, Option.isNone_eq_false_iff.mpr port]

/-- A call without a connection changes nothing; with one it is up to `AsyncRpcCall`. -/
theorem callMethodAsync_cases {channel : Channel} {connects : List Int32} {tid : UInt64}
    {controller : Bool} {methodClientName : Bytes} {called : AsyncCalled}
    (success : channel.callMethodAsync connects tid controller methodClientName = some called) :
    (¬ channel.Reaches connects ∧ ∃ failures, called = ⟨channel, none, false, failures, []⟩) ∨
      (channel.Reaches connects ∧ ∃ connectFd, called =
        ⟨(channel.asyncRpcCall tid methodClientName).2, some connectFd,
          !(channel.asyncRpcCall tid methodClientName).1, [], []⟩) := by
  rw [Channel.callMethodAsync] at success
  split at success
  · next unaddressed =>
    cases success
    exact .inl ⟨fun reaches => reaches.addressed unaddressed, [], rfl⟩
  · next addressed =>
    split at success
    · contradiction
    · next single =>
      have single := Bool.eq_false_iff.mpr single
      obtain ⟨connectFd, connected, rfl⟩ := Option.map_eq_some_iff.mp success
      dsimp only
      split
      · next failed =>
        left
        refine ⟨?_, _, rfl⟩
        rintro ⟨_, _, _, other, again, opened⟩
        cases connected.symm.trans again
        exact opened failed
      · next opened =>
        rw [single, Bool.not_false, Bool.true_and, Bool.or_eq_true, not_or, Option.isNone_iff_eq_none,
          Option.isNone_iff_eq_none] at addressed
        refine .inr ⟨⟨single, ?_, ?_, connectFd, connected, opened⟩, connectFd, rfl⟩
        · exact Option.isSome_iff_ne_none.mpr addressed.1
        · exact Option.isSome_iff_ne_none.mpr addressed.2

/-- The call is that of a channel which is in asynchronous mode. -/
theorem callMethod_eq_callMethodAsync {Service Method Message : Type}
    (runtime : Runtime Service Method Message) {channel : Channel}
    (async : channel.isChannelAsyncCall = true) (connects : List Int32) (send : ℕ → Bool)
    (events : List RecvEvent) (tid : UInt64) (controller : Bool) (rpcParams : RpcCallParams Message) :
    channel.callMethod runtime connects send events tid controller rpcParams =
      (channel.callMethodAsync connects tid controller rpcParams.methodClientName).map fun called =>
        ⟨called.channel, called.failures, none⟩ := by
  rw [Channel.callMethod, Channel.callMethodAsync]
  dsimp only
  split
  · rfl
  · split
    · rfl
    · rw [Option.map_map]
      cases connectLoop channel.tryTime connects with
      | none => rfl
      | some connectFd =>
        rw [Option.bind_some, Option.map_some, Function.comp_apply]
        split
        · rfl
        · rfl

/-- A limit that is not negative is reached when the table has as many methods. -/
theorem limitReached_iff {channel : Channel} (nonneg : 0 ≤ channel.callLimit) :
    channel.LimitReached ↔ channel.callLimit.toInt ≤ channel.callTids.keys.length := by
  have size : channel.callTids.keys.length ≤ 2 ^ 32 := by
    have nodup : (channel.callTids.keys.map UInt32.toNat).Nodup :=
      List.Nodup.map (fun _ _ same => UInt32.toNat_inj.mp same) channel.callTids.keys_nodup
    have inside : channel.callTids.keys.map UInt32.toNat ⊆ List.range (2 ^ 32) := by
      intro key member
      obtain ⟨hash, _, rfl⟩ := List.mem_map.mp member
      exact List.mem_range.mpr hash.toNat_lt
    have bound := (nodup.subperm inside).length_le
    rwa [List.length_map, List.length_range] at bound
  have limit : channel.callLimit.toInt64.toUInt64.toNat = channel.callLimit.toNatClampNeg := by
    have wide : 0 ≤ channel.callLimit.toInt64 := by
      rw [Int64.le_iff_toInt_le, Int32.toInt_toInt64]
      exact Int32.le_iff_toInt_le.mp nonneg
    rw [Int64.toNat_toUInt64_of_le wide, Int32.toNatClampNeg_toInt64]
  have unwrapped : channel.callTids.keys.length < UInt64.size :=
    Nat.lt_of_le_of_lt size (by decide)
  rw [Channel.LimitReached, UInt64.le_iff_toNat_le, limit, UInt64.toNat_ofNat_of_lt' unwrapped]
  have amount := Int32.cast_toNatClampNeg channel.callLimit nonneg
  omega

theorem asyncRpcCall_dropped {channel : Channel} (limit : channel.LimitReached) (tid : UInt64)
    (methodClientName : Bytes) : channel.asyncRpcCall tid methodClientName = (false, channel) :=
  if_pos limit

/-- A started call adds its thread and keeps the rest. -/
theorem asyncRpcCall_threads {channel : Channel} (free : ¬ channel.LimitReached) (tid : UInt64)
    (methodClientName : Bytes) :
    (channel.asyncRpcCall tid methodClientName).1 = true ∧
      (channel.asyncRpcCall tid methodClientName).2.threadIds = channel.threadIds ++ [tid] ∧
      (channel.asyncRpcCall tid methodClientName).2.callLimit = channel.callLimit := by
  rw [Channel.asyncRpcCall, if_neg free]
  exact ⟨rfl, rfl, rfl⟩

namespace AsyncThreads

/-! ## Threads that are joined -/

/-- Each thread that was created is joined exactly once, by `GetAsyncResponse` or by the destructor. -/
def JoinsOnce (state : AsyncThreads) : Prop := (state.joined ++ state.destroy).Perm state.created

/-- `GetAsyncResponse` finds a thread to join. -/
def Collects (state : AsyncThreads) : Action → Prop
  | .callMethod _ _ _ _ => False
  | .getAsyncResponse methodName => AsyncChannel.waiting state.channel (bkdrHash methodName) ≠ []

/-- The destructor joins the threads that were created. -/
theorem destroy_step {state next : AsyncThreads} {action : Action}
    (success : state.step action = some next) (all : state.destroy = state.created) :
    next.destroy = next.created := by
  cases action with
  | callMethod connects tid controller methodClientName =>
    obtain ⟨called, calling, rfl⟩ := Option.map_eq_some_iff.mp success
    rcases callMethodAsync_cases calling with ⟨_, failures, rfl⟩ | ⟨_, connectFd, rfl⟩
    · exact all
    · by_cases limit : state.channel.LimitReached
      · rw [asyncRpcCall_dropped limit]
        exact all
      · obtain ⟨started, threads, _⟩ := asyncRpcCall_threads limit tid methodClientName
        change (state.channel.asyncRpcCall tid methodClientName).2.threadIds = _
        rw [threads, started]
        exact congrArg (· ++ [tid]) all
  | getAsyncResponse methodName =>
    cases success
    rw [getAsyncResponse]
    dsimp only
    split
    · exact all
    · exact all

/-- A call adds a joined thread exactly when it collects one. -/
theorem joined_step {state next : AsyncThreads} {action : Action}
    (success : state.step action = some next) :
    next.joined = [] ↔ state.joined = [] ∧ ¬ state.Collects action := by
  cases action with
  | callMethod connects tid controller methodClientName =>
    obtain ⟨called, _, rfl⟩ := Option.map_eq_some_iff.mp success
    exact ⟨fun none_joined => ⟨none_joined, id⟩, And.left⟩
  | getAsyncResponse methodName =>
    cases success
    rw [getAsyncResponse, Collects, AsyncChannel.waiting]
    dsimp only
    split
    · next empty => simp [empty]
    · next curTid rest found => simp [found]

instance (state : AsyncThreads) (action : Action) : Decidable (state.Collects action) :=
  match action with
  | .callMethod _ _ _ _ => isFalse id
  | .getAsyncResponse methodName =>
      inferInstanceAs (Decidable (AsyncChannel.waiting state.channel (bkdrHash methodName) ≠ []))

/-- Two calls, and a response of a third method is asked for. -/
def noneCollected : List Action :=
  [.callMethod [5] 101 true faqcfe, .callMethod [6] 102 true [65], .getAsyncResponse [66]]

private theorem noneCollected_kept :
    (noneCollected.foldlM (Run.guarded step fun state action => ¬ state.Collects action)
      (init sampleChannel)).isSome := by
  decide +kernel

/-- Two calls, of which the response of the first one is taken. -/
def oneCollected : List Action :=
  [.callMethod [5] 101 true faqcfe, .callMethod [6] 102 true faqcfe, .getAsyncResponse faqcfe]

private theorem oneCollected_isSome : (oneCollected.foldlM step (init sampleChannel)).isSome := by
  decide +kernel

/-- The calls that were started and not yet collected. -/
def outstanding (state : AsyncThreads) : ℤ := state.created.length - state.joined.length

/-- No more calls are outstanding than the limit allows. -/
def WithinLimit (state : AsyncThreads) : Prop := state.outstanding ≤ state.channel.callLimit.toInt

/-- A call that the limit turns away is reported on its controller, if it has one, and its connection is
closed. -/
def ReportsRefusal (state : AsyncThreads) (action : Action) : Prop :=
  ∀ connects tid controller methodClientName called,
    action = .callMethod connects tid controller methodClientName →
    state.channel.callMethodAsync connects tid controller methodClientName = some called →
    called.turnedAway → (controller → called.failures ≠ []) ∧
      ∃ connectFd ∈ called.connectFd, connectFd ∈ called.closed

/-- A call that opens a connection finds fewer calls outstanding, and fewer methods in the table, than
the limit. -/
def HasRoom (state : AsyncThreads) : Action → Prop
  | .callMethod connects _ _ _ => state.channel.Reaches connects →
      state.outstanding < state.channel.callLimit.toInt ∧
        (state.channel.callTids.keys.length : ℤ) < state.channel.callLimit.toInt
  | .getAsyncResponse _ => True

/-- The limit is never changed. -/
theorem callLimit_step {state next : AsyncThreads} {action : Action}
    (success : state.step action = some next) : next.channel.callLimit = state.channel.callLimit := by
  cases action with
  | callMethod connects tid controller methodClientName =>
    obtain ⟨called, calling, rfl⟩ := Option.map_eq_some_iff.mp success
    rcases callMethodAsync_cases calling with ⟨_, failures, rfl⟩ | ⟨_, connectFd, rfl⟩
    · rfl
    · by_cases limit : state.channel.LimitReached
      · rw [asyncRpcCall_dropped limit]
      · exact (asyncRpcCall_threads limit tid methodClientName).2.2
  | getAsyncResponse methodName =>
    cases success
    rw [getAsyncResponse]
    dsimp only
    split
    · rfl
    · rfl

/-- Within the limit a step keeps to it and reports a refusal exactly when its call has room. -/
theorem keeps_iff_hasRoom {state next : AsyncThreads} {action : Action} (within : state.WithinLimit)
    (nonneg : 0 ≤ state.channel.callLimit) (success : state.step action = some next) :
    next.WithinLimit ∧ state.ReportsRefusal action ↔ state.HasRoom action := by
  have same := callLimit_step success
  cases action with
  | callMethod connects tid controller methodClientName =>
    obtain ⟨called, calling, rfl⟩ := Option.map_eq_some_iff.mp success
    have reports : state.ReportsRefusal (.callMethod connects tid controller methodClientName) ↔
        (called.turnedAway → (controller → called.failures ≠ []) ∧
          ∃ connectFd ∈ called.connectFd, connectFd ∈ called.closed) := by
      constructor
      · intro reported
        exact reported connects tid controller methodClientName called rfl calling
      · intro reported _ _ _ _ _ shape again
        cases shape
        cases calling.symm.trans again
        exact reported
    rw [reports, WithinLimit, HasRoom, same, outstanding, outstanding]
    rw [WithinLimit, outstanding] at within
    rcases callMethodAsync_cases calling with ⟨unreached, failures, rfl⟩ | ⟨reached, connectFd, rfl⟩
    · simpa [unreached] using within
    · have full := limitReached_iff nonneg
      by_cases limit : state.channel.LimitReached
      · have many := full.mp limit
        simp only [asyncRpcCall_dropped limit]
        refine iff_of_false ?_ fun room => ?_
        · rintro ⟨_, reported⟩
          obtain ⟨_, _, _, closed⟩ := reported rfl
          exact absurd closed List.not_mem_nil
        · exact absurd (room reached).2 (by omega)
      · obtain ⟨started, _, _⟩ := asyncRpcCall_threads limit tid methodClientName
        have few := mt full.mpr limit
        simp only [started, Bool.not_true, Bool.not_false, Option.isSome_some, Bool.and_self, if_true,
          List.length_append, List.length_singleton, Bool.false_eq_true, false_imp_iff, and_true]
        push_cast
        constructor
        · intro kept _
          omega
        · intro room
          have inside := (room reached).1
          omega
  | getAsyncResponse methodName =>
    refine iff_of_true ⟨?_, fun _ _ _ _ _ shape => nomatch shape⟩ trivial
    rw [WithinLimit, same]
    cases success
    rw [getAsyncResponse]
    rw [WithinLimit, outstanding] at within
    rw [outstanding]
    dsimp only
    split
    · exact within
    · rw [List.length_append, List.length_singleton]
      push_cast
      omega

def narrowChannel : Channel := { sampleChannel with callLimit := 2 }

instance (channel : Channel) (connects : List Int32) : Decidable (channel.Reaches connects) :=
  decidable_of_iff (channel.centerClientHeartbeat = false ∧ channel.addr.isSome ∧ channel.port.isSome ∧
    ∃ connectFd ∈ connectLoop channel.tryTime connects, ¬ connectFd < 0) Iff.rfl

instance (state : AsyncThreads) (action : Action) : Decidable (state.HasRoom action) :=
  match action with
  | .callMethod connects _ _ _ => inferInstanceAs (Decidable (state.channel.Reaches connects → _ ∧ _))
  | .getAsyncResponse _ => isTrue trivial

/-- Two calls of one method, and a call of another behind the response of the first one. -/
def collectedInTime : List Action :=
  [.callMethod [5] 101 true faqcfe, .callMethod [6] 102 true faqcfe, .getAsyncResponse faqcfe,
    .callMethod [7] 103 true [65]]

private theorem collectedInTime_kept :
    (collectedInTime.foldlM (Run.guarded step HasRoom) (init narrowChannel)).isSome := by
  decide +kernel

def fourCalls : List Action :=
  [.callMethod [5] 101 true faqcfe, .callMethod [6] 102 true faqcfe, .callMethod [7] 103 true faqcfe,
    .callMethod [8] 104 true [65]]

private theorem fourCalls_isSome : (fourCalls.foldlM step (init narrowChannel)).isSome := by
  decide +kernel

private theorem fifthCall_isSome :
    (((fourCalls.foldlM step (init narrowChannel)).get fourCalls_isSome).channel.callMethodAsync [9] 105
      true [65]).isSome := by decide +kernel

end AsyncThreads

end LibEvRpc
