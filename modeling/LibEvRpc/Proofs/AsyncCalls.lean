import LibEvRpc.Client.AsyncChannel
import Mathlib.Data.List.TakeDrop

/-! # Responses of asynchronous calls

The responses of a method are taken in the order of its calls, as long as every thread has read
`connect_fd_` for the last time before the next call overwrites it, no two methods with one hash are
called, and no thread has deleted its parameters before it is stored. Then each thread talks to its own
connection, and the threads of a method wait in the order of its calls.
-/

namespace LibEvRpc

/-- The thread of a call has still to read `connect_fd_`. -/
def CallPhase.ReadsConnectFd : CallPhase → Prop
  | .created | .sending _ | .sent => True
  | .dropped | .receiving _ | .received _ | .stored | .ended | .joined => False

instance : DecidablePred CallPhase.ReadsConnectFd := fun phase =>
  match phase with
  | .created | .sending _ | .sent => isTrue trivial
  | .dropped | .receiving _ | .received _ | .stored | .ended | .joined => isFalse id

namespace AsyncChannel

/-! ## The calls of a method -/

/-- The calls whose names pass a test, in order. -/
def callsWith (names : List Bytes) (test : Bytes → Bool) : List ℕ :=
  (List.range names.length).filter fun call => names[call]?.any test

/-- The response to a call on its own connection. -/
def own (call : ℕ) : AsyncResponse := ⟨call, call⟩

theorem mem_callsWith {names : List Bytes} {test : Bytes → Bool} {call : ℕ} :
    call ∈ callsWith names test ↔ ∃ name, names[call]? = some name ∧ test name := by
  rw [callsWith, List.mem_filter, List.mem_range, Option.any_eq_true]
  constructor
  · exact And.right
  · rintro ⟨name, found, passes⟩
    exact ⟨(List.getElem?_eq_some_iff.mp found).1, name, found, passes⟩

theorem callsWith_concat (names : List Bytes) (name : Bytes) (test : Bytes → Bool) :
    callsWith (names ++ [name]) test =
      callsWith names test ++ if test name then [names.length] else [] := by
  rw [callsWith, callsWith, List.length_append, List.length_singleton, List.range_succ,
    List.filter_append]
  congr 1
  · apply List.filter_congr
    intro call member
    rw [List.getElem?_append_left (List.mem_range.mp member)]
  · cases passes : test name <;> simp [passes]

theorem callsWith_append (names more : List Bytes) (test : Bytes → Bool) :
    callsWith names test <+: callsWith (names ++ more) test := by
  induction more using List.reverseRecOn with
  | nil => rw [List.append_nil]
  | append_singleton more name ih =>
    rw [← List.append_assoc, callsWith_concat]
    exact ih.trans (List.prefix_append _ _)

/-- A stricter test picks from the calls that pass the other one. -/
theorem filter_callsWith {names : List Bytes} {strict test : Bytes → Bool}
    (weaker : ∀ name, strict name → test name) :
    (callsWith names test).filter (fun call => names[call]?.any strict) = callsWith names strict := by
  rw [callsWith, callsWith, List.filter_filter]
  apply List.filter_congr
  intro call _
  cases names[call]? with
  | none => rfl
  | some name =>
    cases passes : strict name with
    | false => simp [passes]
    | true => simp [passes, weaker name passes]

/-- Calls that come first in the weaker test and pass the stricter one come first there. -/
theorem prefix_callsWith {names : List Bytes} {strict test : Bytes → Bool} {calls : List ℕ}
    (weaker : ∀ name, strict name → test name) (front : calls <+: callsWith names test)
    (pass : ∀ call ∈ calls, names[call]?.any strict) : calls <+: callsWith names strict := by
  obtain ⟨rest, shape⟩ := front
  rw [← filter_callsWith weaker, ← shape, List.filter_append, List.filter_eq_self.mpr pass]
  exact List.prefix_append _ _

/-! ## The table of waiting threads -/

/-- The threads that wait under a hash. -/
def waiting (channel : Channel) (hash : UInt32) : List UInt64 := (channel.callTids.lookup hash).getD []

/-- A thread is stored behind those of its hash. -/
theorem waiting_storeTid (channel : Channel) (tid : UInt64) (methodClientName : Bytes)
    (hash : UInt32) : waiting (channel.storeTid tid methodClientName) hash =
      waiting channel hash ++ if bkdrHash methodClientName = hash then [tid] else [] := by
  rw [Channel.storeTid]
  dsimp only [waiting]
  split
  · next present =>
    obtain ⟨tids, found⟩ := Option.isSome_iff_exists.mp (AList.lookup_isSome.mpr present)
    split
    · next same => rw [← same, AList.lookup_modify_self, found]; rfl
    · next differ => rw [AList.lookup_modify_ne fun same => differ same.symm, List.append_nil]
  · next absent =>
    split
    · next same => rw [← same, AList.lookup_insertNew_self, AList.lookup_eq_none.mpr absent]; rfl
    · next differ => rw [AList.lookup_insertNew_ne fun same => differ same.symm, List.append_nil]

/-! ## The invariant of a run -/

/-- The calls of a hash whose threads were stored, in order. -/
def storedWith (state : AsyncChannel) (stored : ℕ) (hash : UInt32) : List ℕ :=
  callsWith (state.names.take stored) fun name => bkdrHash name = hash

/-- The responses that were taken under a hash. -/
def taken (state : AsyncChannel) (hash : UInt32) : List (Bytes × AsyncResponse) :=
  state.gets.filter fun get => bkdrHash get.1 = hash

/-- The thread of a call talks to the connection of its call. -/
def OnOwnConnection (state : AsyncChannel) (call : ℕ) : CallPhase → Prop
  | .created | .sent => call + 1 = state.names.length ∧ state.table state.connectFd = some call
  | .sending fd => call + 1 = state.names.length ∧ fd = state.connectFd ∧ state.table fd = some call
  | .receiving fd => state.table fd = some call
  | .received response => response = own call
  | .stored | .ended => state.callResults (state.tid call) = some (own call)
  | .dropped | .joined => True

/-- The calls up to a number were started and the others dropped; the threads of the started ones were
stored, but for one that the calling thread is about to store. The calls of one hash were joined, and
their responses taken, in their order. -/
structure Inv (state : AsyncChannel) (started stored : ℕ) : Prop where
  undeleted : state.readsDeleted = false
  bound : started ≤ state.names.length
  caller : state.storing = none ∧ stored = started ∨
    state.storing = some stored ∧ started = stored + 1 ∧ state.names.length = started
  limit : started < state.names.length → state.channel.LimitReached
  dropped : ∀ call, state.phase call = .dropped ↔ started ≤ call
  queue : ∀ hash, waiting state.channel hash =
    ((state.storedWith stored hash).drop (state.taken hash).length).map state.tid
  got : ∀ hash, (state.taken hash).map Prod.snd =
    ((state.storedWith stored hash).take (state.taken hash).length).map own
  named : ∀ get ∈ state.gets, ∀ call ∈ (state.storedWith stored (bkdrHash get.1)).take
    (state.taken (bkdrHash get.1)).length, state.names[call]? = some get.1
  unjoined : ∀ hash, ∀ call ∈ (state.storedWith stored hash).drop (state.taken hash).length,
    state.phase call ≠ .joined
  unstored : ∀ call, stored ≤ call → state.phase call ≠ .joined
  tids : ∀ first < started, ∀ second < started, state.phase first ≠ .joined →
    state.phase second ≠ .joined → state.tid first = state.tid second → first = second
  threads : ∀ call, state.OnOwnConnection call (state.phase call)
  requests : ∀ conn, ∀ call ∈ state.requests conn, call = conn
  responses : ∀ conn, ∀ call ∈ state.responses conn, call = conn

/-- What the calling thread keeps to: a call comes behind the last read of `connect_fd_` by every
thread, a thread is stored before it deletes its parameters, and a response is taken for a method with
whose hash no other method was called. -/
def KeepsCalls (state : AsyncChannel) : Action → Prop
  | .callMethod _ _ _ => ∀ call < state.names.length, ¬ (state.phase call).ReadsConnectFd
  | .storeTid => ∀ call ∈ state.storing, state.phase call ≠ .ended
  | .getAsyncResponse methodName => ∀ name ∈ state.names, bkdrHash name = bkdrHash methodName →
      name = methodName
  | .rpcSend _ | .send _ | .answer _ | .rpcRecv _ | .recv _ | .store _ | .delete _ => True

instance (state : AsyncChannel) (action : Action) : Decidable (state.KeepsCalls action) :=
  match action with
  | .callMethod _ _ _ =>
      inferInstanceAs (Decidable (∀ call < state.names.length, ¬ (state.phase call).ReadsConnectFd))
  | .storeTid => inferInstanceAs (Decidable (∀ call ∈ state.storing, state.phase call ≠ .ended))
  | .getAsyncResponse methodName =>
      inferInstanceAs (Decidable (∀ name ∈ state.names, bkdrHash name = bkdrHash methodName →
        name = methodName))
  | .rpcSend _ | .send _ | .answer _ | .rpcRecv _ | .recv _ | .store _ | .delete _ => isTrue trivial

/-- The responses that a method got are those of its first calls, each from its own connection. -/
def Answered (state : AsyncChannel) : Prop :=
  ∀ methodName, ((state.gets.filter fun get => get.1 = methodName).map Prod.snd) <+:
    (callsWith state.names fun name => name = methodName).map own

/-- A response that was taken stands for a call of its name. -/
theorem Inv.exists_call {state : AsyncChannel} {started stored : ℕ} (inv : state.Inv started stored)
    {get : Bytes × AsyncResponse} (listed : get ∈ state.gets) :
    ∃ call ∈ (state.storedWith stored (bkdrHash get.1)).take (state.taken (bkdrHash get.1)).length,
      state.names[call]? = some get.1 := by
  have member : get ∈ state.taken (bkdrHash get.1) :=
    List.mem_filter.mpr ⟨listed, decide_eq_true rfl⟩
  have lengths := congrArg List.length (inv.got (bkdrHash get.1))
  rw [List.length_map, List.length_map] at lengths
  obtain ⟨call, taken⟩ := List.exists_mem_of_length_pos (lengths ▸ List.length_pos_of_mem member)
  exact ⟨call, taken, inv.named get listed call taken⟩

/-- What was taken under one hash was taken for one name. -/
theorem Inv.one_name {state : AsyncChannel} {started stored : ℕ} (inv : state.Inv started stored)
    {first second : Bytes × AsyncResponse} (one : first ∈ state.gets) (two : second ∈ state.gets)
    (same : bkdrHash first.1 = bkdrHash second.1) : first.1 = second.1 := by
  obtain ⟨call, member, named⟩ := inv.exists_call one
  rw [inv.named second two call (same ▸ member)] at named
  exact (Option.some.inj named).symm

theorem Inv.answered {state : AsyncChannel} {started stored : ℕ} (inv : state.Inv started stored) :
    state.Answered := by
  intro methodName
  cases shape : state.gets.filter fun get => get.1 = methodName with
  | nil => exact List.nil_prefix
  | cons get rest =>
    have member : get ∈ state.gets.filter fun get => get.1 = methodName := shape ▸ List.mem_cons_self
    obtain ⟨listed, same⟩ := List.mem_filter.mp member
    have isName : get.1 = methodName := of_decide_eq_true same
    have whole : state.gets.filter (fun get => get.1 = methodName) =
        state.taken (bkdrHash methodName) := by
      apply List.filter_congr
      intro other otherListed
      rw [decide_eq_decide]
      constructor
      · exact congrArg bkdrHash
      · intro hash
        exact (inv.one_name otherListed listed (hash.trans (congrArg bkdrHash isName.symm))).trans isName
    rw [← shape, whole, inv.got]
    apply List.IsPrefix.map
    refine @prefix_callsWith _ (fun name => name = methodName)
      (fun name => bkdrHash name = bkdrHash methodName) _ ?_ ?_ ?_
    · intro name passes
      simp [of_decide_eq_true passes]
    · have all := callsWith_append (state.names.take stored) (state.names.drop stored)
        fun name => bkdrHash name = bkdrHash methodName
      rw [List.take_append_drop] at all
      exact (List.take_prefix _ _).trans all
    · intro call taken
      rw [← isName] at taken
      rw [inv.named get listed call taken]
      simp [isName]

/-- A call that was not dropped was started. -/
theorem Inv.alive {state : AsyncChannel} {started stored call : ℕ} (inv : state.Inv started stored)
    (notDropped : state.phase call ≠ .dropped) : call < started := by
  by_contra late
  exact notDropped ((inv.dropped call).mpr (Nat.le_of_not_lt late))

/-- Two threads that were started and not joined have different ids. -/
theorem Inv.tid_ne {state : AsyncChannel} {started stored first second : ℕ}
    (inv : state.Inv started stored) (differ : first ≠ second)
    (firstAlive : state.phase first ≠ .dropped) (firstUnjoined : state.phase first ≠ .joined)
    (secondAlive : state.phase second ≠ .dropped) (secondUnjoined : state.phase second ≠ .joined) :
    state.tid first ≠ state.tid second := fun same =>
  differ (inv.tids first (inv.alive firstAlive) second (inv.alive secondAlive) firstUnjoined
    secondUnjoined same)

theorem inv_init (channel : Channel) : (init channel).Inv 0 0 where
  undeleted := rfl
  caller := .inl ⟨rfl, rfl⟩
  bound := Nat.le_refl 0
  limit contradictory := absurd contradictory (Nat.lt_irrefl 0)
  dropped call := ⟨fun _ => Nat.zero_le call, fun _ => rfl⟩
  queue _ := rfl
  got _ := rfl
  named _ member := absurd member List.not_mem_nil
  unjoined _ _ member := absurd member List.not_mem_nil
  unstored _ _ := CallPhase.noConfusion
  tids first bound := absurd bound (Nat.not_lt_zero first)
  threads _ := trivial
  requests _ _ member := absurd member List.not_mem_nil
  responses _ _ member := absurd member List.not_mem_nil

/-! ## Steps of the threads and of the server -/

@[simp] theorem setPhase_self (state : AsyncChannel) (call : ℕ) (phase : CallPhase) :
    (state.setPhase call phase).phase call = phase := Function.update_self ..

theorem setPhase_ne {state : AsyncChannel} {call other : ℕ} (differ : other ≠ call)
    (phase : CallPhase) : (state.setPhase call phase).phase other = state.phase other :=
  Function.update_of_ne differ ..

theorem onOwnConnection_setPhase (state : AsyncChannel) (call other : ℕ) (next phase : CallPhase) :
    (state.setPhase call next).OnOwnConnection other phase = state.OnOwnConnection other phase := by
  cases phase <;> rfl

/-- On every connection there are only messages of its own call. -/
private theorem own_update {queues : ℕ → List ℕ} {conn : ℕ} {queue : List ℕ}
    (rest : ∀ other, ∀ call ∈ queues other, call = other) (here : ∀ call ∈ queue, call = conn) :
    ∀ other, ∀ call ∈ Function.update queues conn queue other, call = other := by
  intro other call member
  rcases eq_or_ne other conn with rfl | differ
  · rw [Function.update_self] at member
    exact here call member
  · rw [Function.update_of_ne differ] at member
    exact rest other call member

def withConnections (state : AsyncChannel) (callResults : UInt64 → Option AsyncResponse)
    (table : Int32 → Option ℕ) (requests responses : ℕ → List ℕ) : AsyncChannel :=
  { state with callResults, table, requests, responses }

/-- A thread goes on without being joined, and the other threads keep their connections. -/
theorem Inv.threadStep {state : AsyncChannel} {started stored call : ℕ} {phase : CallPhase}
    {callResults : UInt64 → Option AsyncResponse} {table : Int32 → Option ℕ}
    {requests responses : ℕ → List ℕ} (inv : state.Inv started stored)
    (alive : state.phase call ≠ .dropped) (before : state.phase call ≠ .joined)
    (notDropped : phase ≠ .dropped) (notJoined : phase ≠ .joined)
    (others : ∀ other, other ≠ call → state.phase other ≠ .joined → state.phase other ≠ .dropped →
      state.OnOwnConnection other (state.phase other) →
        (state.withConnections callResults table requests responses).OnOwnConnection other
          (state.phase other))
    (thread : (state.withConnections callResults table requests responses).OnOwnConnection call phase)
    (ownRequests : ∀ conn, ∀ call ∈ requests conn, call = conn)
    (ownResponses : ∀ conn, ∀ call ∈ responses conn, call = conn) :
    ((state.withConnections callResults table requests responses).setPhase call phase).Inv
      started stored where
  undeleted := inv.undeleted
  bound := inv.bound
  caller := inv.caller
  limit := inv.limit
  dropped other := by
    rcases eq_or_ne other call with rfl | differ
    · rw [setPhase_self]
      exact iff_of_false notDropped fun late => alive ((inv.dropped other).mpr late)
    · rw [setPhase_ne differ]
      exact inv.dropped other
  queue := inv.queue
  got := inv.got
  named := inv.named
  unjoined hash other member := by
    rcases eq_or_ne other call with rfl | differ
    · rw [setPhase_self]
      exact notJoined
    · rw [setPhase_ne differ]
      exact inv.unjoined hash other member
  unstored other late := by
    rcases eq_or_ne other call with rfl | differ
    · rw [setPhase_self]
      exact notJoined
    · rw [setPhase_ne differ]
      exact inv.unstored other late
  tids first firstBound second secondBound firstAlive secondAlive same := by
    refine inv.tids first firstBound second secondBound ?_ ?_ same
    · rcases eq_or_ne first call with rfl | differ
      · exact before
      · rwa [setPhase_ne differ] at firstAlive
    · rcases eq_or_ne second call with rfl | differ
      · exact before
      · rwa [setPhase_ne differ] at secondAlive
  threads other := by
    rcases eq_or_ne other call with rfl | differ
    · rw [setPhase_self, onOwnConnection_setPhase]
      exact thread
    · rw [setPhase_ne differ, onOwnConnection_setPhase]
      change (state.withConnections callResults table requests responses).OnOwnConnection other
        (state.phase other)
      by_cases joined : state.phase other = .joined
      · rw [joined]
        trivial
      · by_cases dropped : state.phase other = .dropped
        · rw [dropped]
          trivial
        · exact others other differ joined dropped (inv.threads other)
  requests := ownRequests
  responses := ownResponses

theorem Inv.rpcSend {state : AsyncChannel} {started stored call : ℕ} (inv : state.Inv started stored)
    (created : state.phase call = .created) :
    (state.setPhase call (.sending state.connectFd)).Inv started stored := by
  have own := inv.threads call
  rw [created] at own
  apply inv.threadStep (by simp [created]) (by simp [created]) (by simp) (by simp)
    (fun _ _ _ _ here => here) _ inv.requests inv.responses
  exact ⟨own.1, rfl, own.2⟩

theorem Inv.send {state next : AsyncChannel} {started stored call : ℕ} (inv : state.Inv started stored)
    (success : state.advance (.send call) = some next) : next.Inv started stored := by
  rw [advance] at success
  split at success
  · next fd sending =>
    obtain ⟨conn, found, rfl⟩ := Option.map_eq_some_iff.mp success
    obtain ⟨last, rfl, here⟩ := sending ▸ inv.threads call
    cases found.symm.trans here
    refine @Inv.threadStep state started stored call .sent _ _ _ _ inv (by simp [sending])
      (by simp [sending]) (by simp) (by simp) (fun _ _ _ _ here => here) ⟨last, here⟩ ?_ inv.responses
    apply own_update inv.requests
    intro request member
    rcases List.mem_append.mp member with old | new
    · exact inv.requests call request old
    · exact List.mem_singleton.mp new
  · contradiction

theorem Inv.answer {state next : AsyncChannel} {started stored conn : ℕ} (inv : state.Inv started stored)
    (success : state.advance (.answer conn) = some next) : next.Inv started stored := by
  rw [advance] at success
  split at success
  · contradiction
  · next call rest shape =>
    cases success
    refine ⟨inv.undeleted, inv.bound, inv.caller, inv.limit, inv.dropped, inv.queue, inv.got, inv.named,
      inv.unjoined, inv.unstored, inv.tids, inv.threads, ?_, ?_⟩
    · apply own_update inv.requests
      exact fun request member => inv.requests conn request (shape ▸ List.mem_cons_of_mem call member)
    · apply own_update inv.responses
      intro response member
      rcases List.mem_append.mp member with old | new
      · exact inv.responses conn response old
      · rw [List.mem_singleton.mp new]
        exact inv.requests conn call (shape ▸ List.mem_cons_self)

theorem Inv.rpcRecv {state : AsyncChannel} {started stored call : ℕ} (inv : state.Inv started stored)
    (sent : state.phase call = .sent) :
    (state.setPhase call (.receiving state.connectFd)).Inv started stored := by
  have own := inv.threads call
  rw [sent] at own
  exact inv.threadStep (by simp [sent]) (by simp [sent]) (by simp) (by simp)
    (fun _ _ _ _ here => here) own.2 inv.requests inv.responses

theorem Inv.recv {state next : AsyncChannel} {started stored call : ℕ} (inv : state.Inv started stored)
    (success : state.advance (.recv call) = some next) : next.Inv started stored := by
  rw [advance] at success
  split at success
  · next fd receiving =>
    obtain ⟨conn, found, received⟩ := Option.bind_eq_some_iff.mp success
    split at received
    · contradiction
    · next answered rest shape =>
      cases received
      have thread := inv.threads call
      rw [receiving] at thread
      have here : state.table fd = some call := thread
      cases found.symm.trans here
      have same := inv.responses call answered (shape ▸ List.mem_cons_self)
      refine inv.threadStep (by simp [receiving]) (by simp [receiving]) (by simp) (by simp) ?_
        (congrArg (AsyncResponse.mk · call) same) inv.requests ?_
      · -- the descriptor of another call is another one
        intro other differ _ _ own
        have open' {otherFd : Int32} (stands : state.table otherFd = some other) :
            Function.update state.table fd none otherFd = some other := by
          rw [Function.update_of_ne, stands]
          rintro rfl
          exact differ (Option.some.inj (stands.symm.trans here))
        cases phase : state.phase other with
        | dropped | joined => trivial
        | created | sent =>
          rw [phase] at own
          exact ⟨own.1, open' own.2⟩
        | sending _ =>
          rw [phase] at own
          exact ⟨own.1, own.2.1, open' own.2.2⟩
        | receiving _ =>
          rw [phase] at own
          exact open' own
        | received _ | stored | ended =>
          rw [phase] at own
          exact own
      · apply own_update inv.responses
        intro response member
        exact inv.responses call response (shape ▸ List.mem_cons_of_mem answered member)
  · contradiction

theorem Inv.store {state next : AsyncChannel} {started stored call : ℕ} (inv : state.Inv started stored)
    (success : state.advance (.store call) = some next) : next.Inv started stored := by
  rw [advance] at success
  split at success
  · next response received =>
    cases success
    have thread := inv.threads call
    rw [received] at thread
    have same : response = own call := thread
    refine inv.threadStep (by simp [received]) (by simp [received]) (by simp) (by simp) ?_ ?_
      inv.requests inv.responses
    · -- the thread of another call has another id
      intro other differ notJoined notDropped own
      have otherTid : state.tid other ≠ state.tid call :=
        inv.tid_ne differ notDropped notJoined (by simp [received]) (by simp [received])
      cases phase : state.phase other with
      | stored | ended =>
        rw [phase] at own
        change Function.update state.callResults (state.tid call) (some response) (state.tid other) = _
        rw [Function.update_of_ne otherTid]
        exact own
      | _ =>
        rw [phase] at own
        exact own
    · change Function.update state.callResults (state.tid call) (some response) (state.tid call) = _
      rw [Function.update_self, same]
  · contradiction

theorem Inv.delete {state : AsyncChannel} {started stored call : ℕ} (inv : state.Inv started stored)
    (done : state.phase call = .stored) : (state.setPhase call .ended).Inv started stored := by
  have own := inv.threads call
  rw [done] at own
  exact inv.threadStep (by simp [done]) (by simp [done]) (by simp) (by simp)
    (fun _ _ _ _ here => here) own inv.requests inv.responses

/-! ## Steps of the calling thread -/

theorem storedWith_of_le {state next : AsyncChannel} {stored : ℕ} {name : Bytes}
    (bound : stored ≤ state.names.length) (names : next.names = state.names ++ [name])
    (hash : UInt32) : next.storedWith stored hash = state.storedWith stored hash := by
  rw [storedWith, storedWith, names, List.take_append_of_le_length bound]

/-- One more thread was stored. -/
theorem storedWith_succ {state : AsyncChannel} {stored : ℕ} {name : Bytes}
    (found : state.names[stored]? = some name) (hash : UInt32) :
    state.storedWith (stored + 1) hash =
      state.storedWith stored hash ++ if bkdrHash name = hash then [stored] else [] := by
  obtain ⟨bound, _⟩ := List.getElem?_eq_some_iff.mp found
  rw [storedWith, storedWith, List.take_add_one, found, Option.toList_some, callsWith_concat,
    List.length_take_of_le bound.le]
  simp only [decide_eq_true_iff]

theorem lt_of_mem_storedWith {state : AsyncChannel} {stored call : ℕ} {hash : UInt32}
    (member : call ∈ state.storedWith stored hash) : call < stored := by
  obtain ⟨name, found, _⟩ := mem_callsWith.mp member
  have bound := (List.getElem?_eq_some_iff.mp found).1
  rw [List.length_take] at bound
  omega

theorem nodup_storedWith (state : AsyncChannel) (stored : ℕ) (hash : UInt32) :
    (state.storedWith stored hash).Nodup := List.nodup_range.filter _

/-- A call has one hash. -/
theorem hash_unique {state : AsyncChannel} {stored call : ℕ} {first second : UInt32}
    (one : call ∈ state.storedWith stored first) (two : call ∈ state.storedWith stored second) :
    first = second := by
  obtain ⟨name, found, hash⟩ := mem_callsWith.mp one
  obtain ⟨other, again, otherHash⟩ := mem_callsWith.mp two
  cases found.symm.trans again
  exact (of_decide_eq_true hash).symm.trans (of_decide_eq_true otherHash)

/-- No thread has the id of a new one. -/
theorem threadOf_eq_none {state : AsyncChannel} {tid : UInt64} (fresh : state.threadOf tid = none)
    {call : ℕ} (bound : call < state.names.length) (alive : state.phase call ≠ .dropped)
    (unjoined : state.phase call ≠ .joined) : state.tid call ≠ tid := by
  intro same
  have absent := List.find?_eq_none.mp fresh call (List.mem_range.mpr bound)
  simp [same, alive, unjoined] at absent

/-- The number of calls that the threads of a hash wait in front of does not exceed them. -/
theorem Inv.taken_le {state : AsyncChannel} {started stored : ℕ} (inv : state.Inv started stored)
    (hash : UInt32) : (state.taken hash).length ≤ (state.storedWith stored hash).length := by
  have lengths := congrArg List.length (inv.got hash)
  rw [List.length_map, List.length_map, List.length_take] at lengths
  omega

/-- The threads that were stored were started. -/
theorem Inv.stored_le_started {state : AsyncChannel} {started stored : ℕ}
    (inv : state.Inv started stored) : stored ≤ started := by
  rcases inv.caller with ⟨_, same⟩ | ⟨_, same, _⟩
  · omega
  · omega

theorem Inv.stored_le {state : AsyncChannel} {started stored : ℕ} (inv : state.Inv started stored) :
    stored ≤ state.names.length := inv.stored_le_started.trans inv.bound

/-- Between its calls the calling thread has stored the threads of all that were started. -/
theorem Inv.stored_eq {state : AsyncChannel} {started stored : ℕ} (inv : state.Inv started stored)
    (idle : state.storing = none) : stored = started := by
  rcases inv.caller with ⟨_, same⟩ | ⟨busy, _⟩
  · exact same
  · exact absurd (busy.symm.trans idle) (Option.some_ne_none _)

/-- The state behind a new connection, with the phase of its call and the thread to be stored. -/
def opened (state : AsyncChannel) (fd : Int32) (tid : UInt64) (methodClientName : Bytes)
    (phase : CallPhase) (storing : Option ℕ) : AsyncChannel :=
  { state with
    connectFd := fd
    names := state.names ++ [methodClientName]
    storing
    tid := Function.update state.tid state.names.length tid
    phase := Function.update state.phase state.names.length phase
    table := Function.update state.table fd (some state.names.length) }

section Opened

variable {state : AsyncChannel} {fd : Int32} {tid : UInt64} {methodClientName : Bytes}
  {phase : CallPhase} {storing : Option ℕ} {started stored : ℕ}

theorem opened_phase_self : (state.opened fd tid methodClientName phase storing).phase
    state.names.length = phase := Function.update_self ..

theorem opened_phase_of_ne {call : ℕ} (differ : call ≠ state.names.length) :
    (state.opened fd tid methodClientName phase storing).phase call = state.phase call :=
  Function.update_of_ne differ ..

theorem opened_phase_of_lt {call : ℕ} (bound : call < state.names.length) :
    (state.opened fd tid methodClientName phase storing).phase call = state.phase call :=
  opened_phase_of_ne (Nat.ne_of_lt bound)

theorem opened_tid_of_lt {call : ℕ} (bound : call < state.names.length) :
    (state.opened fd tid methodClientName phase storing).tid call = state.tid call :=
  Function.update_of_ne (Nat.ne_of_lt bound) ..

theorem opened_names_of_lt {call : ℕ} (bound : call < state.names.length) :
    (state.opened fd tid methodClientName phase storing).names[call]? = state.names[call]? :=
  List.getElem?_append_left bound

theorem opened_names_length : (state.opened fd tid methodClientName phase storing).names.length =
    state.names.length + 1 := by
  rw [opened, List.length_append, List.length_singleton]

/-- Behind a call that keeps to the rule the earlier threads talk to their connections. -/
theorem Inv.opened_threads (inv : state.Inv started stored)
    (kept : state.KeepsCalls (.callMethod fd tid methodClientName)) (closed : state.table fd = none)
    (own : (state.opened fd tid methodClientName phase storing).OnOwnConnection
      state.names.length phase) (call : ℕ) :
    (state.opened fd tid methodClientName phase storing).OnOwnConnection call
      ((state.opened fd tid methodClientName phase storing).phase call) := by
  rcases eq_or_ne call state.names.length with rfl | differ
  · rw [opened_phase_self]
    exact own
  · have thread := inv.threads call
    have late (reads : (state.phase call).ReadsConnectFd) (alive : state.phase call ≠ .dropped) :
        False := kept call (Nat.lt_of_lt_of_le (inv.alive alive) inv.bound) reads
    rw [opened_phase_of_ne differ]
    cases shape : state.phase call with
    | dropped | joined => trivial
    | created | sending _ | sent =>
      rw [shape] at late
      exact (late trivial (by simp)).elim
    | receiving other =>
      rw [shape] at thread
      change Function.update state.table fd (some state.names.length) other = some call
      rw [Function.update_of_ne]
      · exact thread
      · rintro rfl
        exact Option.some_ne_none _ (Eq.trans (Eq.symm thread) closed)
    | received response =>
      rw [shape] at thread
      exact thread
    | stored | ended =>
      rw [shape] at thread
      change state.callResults (Function.update state.tid state.names.length tid call) = _
      rw [Function.update_of_ne differ]
      exact thread

/-- A new connection changes nothing for the threads that were stored. What is left is to be shown of
its own call. -/
theorem Inv.opened {after : ℕ} (inv : state.Inv started stored)
    (kept : state.KeepsCalls (.callMethod fd tid methodClientName)) (closed : state.table fd = none)
    (bound : after ≤ state.names.length + 1)
    (caller : storing = none ∧ stored = after ∨
      storing = some stored ∧ after = stored + 1 ∧ state.names.length + 1 = after)
    (limit : after < state.names.length + 1 → state.channel.LimitReached)
    (dropped : ∀ call,
      (state.opened fd tid methodClientName phase storing).phase call = .dropped ↔ after ≤ call)
    (unjoined : phase ≠ .joined)
    (tids : ∀ first < after, ∀ second < after,
      (state.opened fd tid methodClientName phase storing).phase first ≠ .joined →
      (state.opened fd tid methodClientName phase storing).phase second ≠ .joined →
      (state.opened fd tid methodClientName phase storing).tid first =
        (state.opened fd tid methodClientName phase storing).tid second → first = second)
    (own : (state.opened fd tid methodClientName phase storing).OnOwnConnection
      state.names.length phase) :
    (state.opened fd tid methodClientName phase storing).Inv after stored := by
  have calls := @storedWith_of_le state (state.opened fd tid methodClientName phase storing) stored
    methodClientName inv.stored_le rfl
  have below {call : ℕ} {hash : UInt32} (member : call ∈ state.storedWith stored hash) :
      call < state.names.length := Nat.lt_of_lt_of_le (lt_of_mem_storedWith member) inv.stored_le
  refine ⟨inv.undeleted, ?_, ?_, ?_, dropped, ?_, ?_, ?_, ?_, ?_, tids,
    inv.opened_threads kept closed own, inv.requests, inv.responses⟩
  · rw [opened_names_length]
    exact bound
  · rw [opened_names_length]
    exact caller
  · rw [opened_names_length]
    exact limit
  · intro hash
    rw [calls]
    refine (inv.queue hash).trans (List.map_congr_left fun call member => ?_)
    exact (opened_tid_of_lt (below (List.mem_of_mem_drop member))).symm
  · intro hash
    rw [calls]
    exact inv.got hash
  · intro get listed call member
    rw [calls] at member
    rw [opened_names_of_lt (below (List.mem_of_mem_take member))]
    exact inv.named get listed call member
  · intro hash call member
    rw [calls] at member
    rw [opened_phase_of_lt (below (List.mem_of_mem_drop member))]
    exact inv.unjoined hash call member
  · intro call late
    rcases eq_or_ne call state.names.length with rfl | differ
    · rw [opened_phase_self]
      exact unjoined
    · rw [opened_phase_of_ne differ]
      exact inv.unstored call late

/-- A call that the limit drops only opens its connection. -/
theorem Inv.opened_dropped (inv : state.Inv started stored) (idle : state.storing = none)
    (kept : state.KeepsCalls (.callMethod fd tid methodClientName)) (closed : state.table fd = none)
    (limit : state.channel.LimitReached) :
    (state.opened fd tid methodClientName .dropped none).Inv started stored := by
  apply inv.opened kept closed (Nat.le_succ_of_le inv.bound) (.inl ⟨rfl, inv.stored_eq idle⟩)
    (fun _ => limit)
  case dropped =>
    intro call
    rcases eq_or_ne call state.names.length with rfl | differ
    · rw [opened_phase_self]
      exact iff_of_true rfl inv.bound
    · rw [opened_phase_of_ne differ]
      exact inv.dropped call
  case unjoined => simp
  case tids =>
    intro first firstBound second secondBound
    have one := Nat.lt_of_lt_of_le firstBound inv.bound
    have two := Nat.lt_of_lt_of_le secondBound inv.bound
    rw [opened_phase_of_lt one, opened_phase_of_lt two, opened_tid_of_lt one, opened_tid_of_lt two]
    exact inv.tids first firstBound second secondBound
  case own => trivial

/-- A call that is started is the one to be stored. -/
theorem Inv.opened_started (inv : state.Inv state.names.length state.names.length)
    (kept : state.KeepsCalls (.callMethod fd tid methodClientName)) (closed : state.table fd = none)
    (fresh : state.threadOf tid = none) :
    (state.opened fd tid methodClientName .created (some state.names.length)).Inv
      (state.names.length + 1) state.names.length := by
  have alive {call : ℕ} (bound : call < state.names.length) : state.phase call ≠ .dropped := by
    rw [ne_eq, inv.dropped]
    omega
  apply inv.opened kept closed le_rfl (.inr ⟨rfl, rfl, rfl⟩) (fun short => absurd short (by omega))
  case dropped =>
    intro call
    rcases Nat.lt_trichotomy call state.names.length with below | rfl | above
    · rw [opened_phase_of_lt below]
      exact iff_of_false (alive below) (by omega)
    · rw [opened_phase_self]
      exact iff_of_false (by simp) (by omega)
    · rw [opened_phase_of_ne (Nat.ne_of_gt above)]
      exact iff_of_true ((inv.dropped call).mpr (by omega)) (by omega)
  case unjoined => simp
  case tids =>
    -- the new thread has an id of its own
    set next := state.opened fd tid methodClientName .created (some state.names.length)
    have newTid : next.tid state.names.length = tid := Function.update_self ..
    have other {call : ℕ} (bound : call < state.names.length) (unjoined : next.phase call ≠ .joined) :
        next.tid call ≠ tid := by
      rw [opened_phase_of_lt bound] at unjoined
      rw [opened_tid_of_lt bound]
      exact threadOf_eq_none fresh bound (alive bound) unjoined
    intro first firstBound second secondBound firstUnjoined secondUnjoined same
    rcases Nat.lt_succ_iff_lt_or_eq.mp firstBound with one | rfl
    · rcases Nat.lt_succ_iff_lt_or_eq.mp secondBound with two | rfl
      · rw [opened_phase_of_lt one] at firstUnjoined
        rw [opened_phase_of_lt two] at secondUnjoined
        rw [opened_tid_of_lt one, opened_tid_of_lt two] at same
        exact inv.tids first one second two firstUnjoined secondUnjoined same
      · exact absurd (same.trans newTid) (other one firstUnjoined)
    · rcases Nat.lt_succ_iff_lt_or_eq.mp secondBound with two | rfl
      · exact absurd (same.symm.trans newTid) (other two secondUnjoined)
      · rfl
  case own => exact ⟨opened_names_length.symm, Function.update_self ..⟩

end Opened

theorem Inv.callMethod {state next : AsyncChannel} {started stored : ℕ} {fd : Int32} {tid : UInt64}
    {methodClientName : Bytes} (inv : state.Inv started stored)
    (kept : state.KeepsCalls (.callMethod fd tid methodClientName))
    (success : state.callMethod fd tid methodClientName = some next) :
    ∃ started stored, next.Inv started stored := by
  obtain ⟨⟨idle, _, _, _, _, closed, fresh⟩, success⟩ := Option.ite_none_right_eq_some.mp success
  rw [Option.some.injEq] at success
  subst success
  by_cases limit : state.channel.LimitReached
  · simp only [if_pos limit]
    exact ⟨started, stored, inv.opened_dropped idle kept closed limit⟩
  · have all : started = state.names.length := by
      by_contra differ
      exact limit (inv.limit (Nat.lt_of_le_of_ne inv.bound differ))
    obtain rfl := inv.stored_eq idle
    subst all
    simp only [if_neg limit]
    exact ⟨_, _, inv.opened_started kept closed fresh⟩

/-- A thread that has not deleted its parameters is stored behind those of its hash. -/
theorem Inv.storeTid {state next : AsyncChannel} {started stored : ℕ} (inv : state.Inv started stored)
    (kept : state.KeepsCalls .storeTid) (success : state.storeTid = some next) :
    ∃ started stored, next.Inv started stored := by
  obtain ⟨call, storing, success⟩ := Option.bind_eq_some_iff.mp success
  obtain ⟨name, found, rfl⟩ := Option.map_eq_some_iff.mp success
  rw [if_neg (kept call storing)]
  obtain ⟨idle, _⟩ | ⟨busy, rfl, all⟩ := inv.caller
  · exact absurd (storing.symm.trans idle) (Option.some_ne_none _)
  obtain rfl := Option.some.inj (storing.symm.trans busy)
  have calls := storedWith_succ found
  refine ⟨call + 1, call + 1, inv.undeleted, inv.bound, .inl ⟨rfl, rfl⟩,
    fun short => absurd all (Nat.ne_of_gt short), inv.dropped, ?_, ?_, ?_, ?_, ?_, inv.tids,
    inv.threads, inv.requests, inv.responses⟩
  · intro hash
    refine (waiting_storeTid _ _ _ hash).trans ?_
    change _ = ((state.storedWith (call + 1) hash).drop (state.taken hash).length).map state.tid
    rw [calls, List.drop_append_of_le_length (inv.taken_le hash), List.map_append, inv.queue]
    congr 1
    split
    · rfl
    · rfl
  · intro hash
    change _ = ((state.storedWith (call + 1) hash).take (state.taken hash).length).map own
    rw [calls, List.take_append_of_le_length (inv.taken_le hash)]
    exact inv.got hash
  · intro get listed second member
    change second ∈ (state.storedWith (call + 1) (bkdrHash get.1)).take
      (state.taken (bkdrHash get.1)).length at member
    rw [calls, List.take_append_of_le_length (inv.taken_le _)] at member
    exact inv.named get listed second member
  · intro hash second member
    change second ∈ (state.storedWith (call + 1) hash).drop (state.taken hash).length at member
    rw [calls, List.drop_append_of_le_length (inv.taken_le hash)] at member
    rcases List.mem_append.mp member with old | new
    · exact inv.unjoined hash second old
    · split at new
      · rw [List.mem_singleton.mp new]
        exact inv.unstored call le_rfl
      · contradiction
  · exact fun second late => inv.unstored second (Nat.le_of_succ_le late)

/-- The state behind a response that was taken from the thread of a call. -/
def took (state : AsyncChannel) (methodName : Bytes) (call : ℕ) : AsyncChannel :=
  { { state with channel := { state.channel with
        callTids := state.channel.callTids.modify (bkdrHash methodName) List.tail } }.setPhase
      call .joined with
    callResults := Function.update state.callResults (state.tid call) none
    gets := state.gets ++ [(methodName, own call)] }

section Took

variable {state : AsyncChannel} {started stored call : ℕ} {methodName : Bytes} {calls : List ℕ}

/-- The first of the threads that wait under a hash is that of the first call not taken. -/
theorem Inv.front {hash : UInt32} {curTid : UInt64} {rest : List UInt64} (inv : state.Inv started stored)
    (threads : waiting state.channel hash = curTid :: rest) :
    ∃ call calls, (state.storedWith stored hash).drop (state.taken hash).length = call :: calls ∧
      state.tid call = curTid := by
  rw [inv.queue] at threads
  obtain ⟨call, calls, shape, first, _⟩ := List.map_eq_cons_iff.mp threads
  exact ⟨call, calls, shape, first⟩

/-- The thread with the id of a started call that was not joined is its thread. -/
theorem Inv.threadOf_unique {found : ℕ} (inv : state.Inv started stored) (bound : call < started)
    (unjoined : state.phase call ≠ .joined) (same : state.threadOf (state.tid call) = some found) :
    found = call := by
  have meets := List.find?_some same
  obtain ⟨tids, alive, foundUnjoined⟩ := of_decide_eq_true meets
  exact inv.tids found (inv.alive alive) call bound foundUnjoined unjoined tids

/-- A response is the one that the first call not taken got on its own connection. -/
theorem Inv.getAsyncResponse_cases {next : AsyncChannel} (inv : state.Inv started stored)
    (success : state.getAsyncResponse methodName = some next) :
    next = state ∨ ∃ call calls,
      (state.storedWith stored (bkdrHash methodName)).drop
        (state.taken (bkdrHash methodName)).length = call :: calls ∧
      state.phase call = .ended ∧ next = state.took methodName call := by
  simp only [AsyncChannel.getAsyncResponse] at success
  split at success
  · contradiction
  · next idle =>
    split at success
    · exact .inl (Option.some.inj success).symm
    · next curTid rest threads =>
      obtain ⟨call, calls, shape, rfl⟩ := inv.front threads
      obtain ⟨found, joins, success⟩ := Option.bind_eq_some_iff.mp success
      have member : call ∈ (state.storedWith stored (bkdrHash methodName)).drop
          (state.taken (bkdrHash methodName)).length := shape ▸ List.mem_cons_self
      have early : call < started :=
        (lt_of_mem_storedWith (List.mem_of_mem_drop member)).trans_le inv.stored_le_started
      obtain rfl := inv.threadOf_unique early (inv.unjoined _ call member) joins
      split at success
      · next ended =>
        have result := inv.threads found
        rw [ended] at result
        have result : state.callResults (state.tid found) = some (own found) := result
        refine .inr ⟨found, calls, shape, ended, ?_⟩
        split at success
        · next absent => exact absurd (result.symm.trans absent) (Option.some_ne_none _)
        · next response present =>
          obtain rfl := Option.some.inj (result.symm.trans present)
          exact (Option.some.inj success).symm
      · contradiction

theorem took_taken (hash : UInt32) : (state.took methodName call).taken hash =
    state.taken hash ++ if bkdrHash methodName = hash then [(methodName, own call)] else [] := by
  change (state.gets ++ [(methodName, own call)]).filter _ = _
  rw [List.filter_append]
  congr 1
  simp [List.filter_cons]

theorem waiting_took (hash : UInt32) : waiting (state.took methodName call).channel hash =
    if bkdrHash methodName = hash then (waiting state.channel hash).tail
    else waiting state.channel hash := by
  change ((state.channel.callTids.modify (bkdrHash methodName) List.tail).lookup hash).getD [] = _
  split
  · next same =>
    rw [← same, AList.lookup_modify_self, waiting]
    cases state.channel.callTids.lookup (bkdrHash methodName) <;> rfl
  · next differ =>
    rw [AList.lookup_modify_ne fun same => differ same.symm]
    rfl

/-- A name that a response was taken for was called. -/
theorem Inv.called (inv : state.Inv started stored) {get : Bytes × AsyncResponse}
    (listed : get ∈ state.gets) : get.1 ∈ state.names := by
  obtain ⟨call, _, named⟩ := inv.exists_call listed
  exact List.mem_of_getElem? named

theorem took_phase_self : (state.took methodName call).phase call = .joined := setPhase_self ..

theorem took_phase_ne {other : ℕ} (differ : other ≠ call) :
    (state.took methodName call).phase other = state.phase other := setPhase_ne differ ..

theorem took_storedWith (hash : UInt32) :
    (state.took methodName call).storedWith stored hash = state.storedWith stored hash := rfl

/-- One more call of its hash was taken. -/
theorem took_taken_length : ((state.took methodName call).taken (bkdrHash methodName)).length =
    (state.taken (bkdrHash methodName)).length + 1 := by
  rw [took_taken, if_pos rfl, List.length_append, List.length_singleton]

theorem took_taken_ne {hash : UInt32} (differ : bkdrHash methodName ≠ hash) :
    (state.took methodName call).taken hash = state.taken hash := by
  rw [took_taken, if_neg differ, List.append_nil]

variable (shape : (state.storedWith stored (bkdrHash methodName)).drop
  (state.taken (bkdrHash methodName)).length = call :: calls)

include shape

/-- The calls that wait behind the one that was taken. -/
theorem took_later : (state.storedWith stored (bkdrHash methodName)).drop
    ((state.took methodName call).taken (bkdrHash methodName)).length = calls := by
  rw [took_taken_length, ← List.drop_drop, shape]
  rfl

/-- The calls that were taken end with the last one. -/
theorem took_first : (state.storedWith stored (bkdrHash methodName)).take
    ((state.took methodName call).taken (bkdrHash methodName)).length =
      (state.storedWith stored (bkdrHash methodName)).take
        (state.taken (bkdrHash methodName)).length ++ [call] := by
  rw [took_taken_length, List.take_add, shape]
  rfl

/-- The call that was taken does not wait any more. -/
theorem took_ne {hash : UInt32} {second : ℕ} (member : second ∈ (state.storedWith stored hash).drop
    ((state.took methodName call).taken hash).length) : second ≠ call := by
  rintro rfl
  rcases eq_or_ne (bkdrHash methodName) hash with rfl | differ
  · rw [took_later shape] at member
    have nodup := (nodup_storedWith state stored (bkdrHash methodName)).sublist
      (List.drop_sublist (state.taken (bkdrHash methodName)).length _)
    rw [shape] at nodup
    exact (List.nodup_cons.mp nodup).1 member
  · have here : second ∈ state.storedWith stored (bkdrHash methodName) :=
      List.mem_of_mem_drop (shape ▸ List.mem_cons_self)
    exact differ (hash_unique here (List.mem_of_mem_drop member))

theorem Inv.took_unjoined (inv : state.Inv started stored) {hash : UInt32} {second : ℕ}
    (member : second ∈ (state.storedWith stored hash).drop
      ((state.took methodName call).taken hash).length) :
    (state.took methodName call).phase second ≠ .joined := by
  rw [took_phase_ne (took_ne shape member)]
  rcases eq_or_ne (bkdrHash methodName) hash with rfl | differ
  · rw [took_later shape] at member
    exact inv.unjoined _ second (shape ▸ List.mem_cons_of_mem call member)
  · rw [took_taken_ne differ] at member
    exact inv.unjoined hash second member

omit shape

/-- What was taken under one hash has the name of its calls. -/
theorem Inv.took_named (inv : state.Inv started stored)
    (kept : state.KeepsCalls (.getAsyncResponse methodName)) {get : Bytes × AsyncResponse}
    (listed : get ∈ (state.took methodName call).gets) {second : ℕ}
    (member : second ∈ (state.storedWith stored (bkdrHash get.1)).take
      ((state.took methodName call).taken (bkdrHash get.1)).length) :
    state.names[second]? = some get.1 := by
  rcases eq_or_ne (bkdrHash methodName) (bkdrHash get.1) with hit | differ
  · have isName : get.1 = methodName := by
      rcases List.mem_append.mp listed with old | new
      · exact kept get.1 (inv.called old) hit.symm
      · rw [List.mem_singleton.mp new]
    rw [isName]
    obtain ⟨name, found, hash⟩ := mem_callsWith.mp (List.mem_of_mem_take member)
    have inNames : state.names[second]? = some name := by
      rw [← found]
      refine (List.getElem?_take_of_lt ?_).symm
      exact lt_of_mem_storedWith (List.mem_of_mem_take member)
    rw [← kept name (List.mem_of_getElem? inNames) ((of_decide_eq_true hash).trans hit.symm)]
    exact inNames
  · rw [took_taken_ne differ] at member
    rcases List.mem_append.mp listed with old | new
    · exact inv.named get old second member
    · rw [List.mem_singleton.mp new] at differ
      exact absurd rfl differ

/-- The result that is taken is that of the call alone. -/
theorem Inv.took_threads (inv : state.Inv started stored) (ended : state.phase call = .ended)
    (second : ℕ) : (state.took methodName call).OnOwnConnection second
      ((state.took methodName call).phase second) := by
  rcases eq_or_ne second call with rfl | differ
  · rw [took_phase_self]
    trivial
  · have thread := inv.threads second
    rw [took_phase_ne differ]
    have otherTid (alive : state.phase second ≠ .dropped) (unjoined : state.phase second ≠ .joined) :
        state.tid second ≠ state.tid call :=
      inv.tid_ne differ alive unjoined (by simp [ended]) (by simp [ended])
    cases phase : state.phase second with
    | stored | ended =>
      rw [phase] at thread otherTid
      change Function.update state.callResults (state.tid call) none (state.tid second) = _
      rw [Function.update_of_ne (otherTid (by simp) (by simp))]
      exact thread
    | _ =>
      rw [phase] at thread
      exact thread

theorem Inv.took (inv : state.Inv started stored)
    (kept : state.KeepsCalls (.getAsyncResponse methodName))
    (shape : (state.storedWith stored (bkdrHash methodName)).drop
      (state.taken (bkdrHash methodName)).length = call :: calls)
    (ended : state.phase call = .ended) : (state.took methodName call).Inv started stored := by
  refine ⟨inv.undeleted, inv.bound, inv.caller, ?_, ?_, ?_, ?_,
    fun _ listed _ => inv.took_named kept listed, fun _ _ => inv.took_unjoined shape, ?_, ?_,
    inv.took_threads ended, inv.requests, inv.responses⟩
  · intro short
    have limit := inv.limit short
    rw [Channel.LimitReached] at limit ⊢
    change _ ≤ UInt64.ofNat (state.channel.callTids.modify _ _).keys.length
    rwa [AList.keys_modify]
  · intro second
    rcases eq_or_ne second call with rfl | differ
    · rw [took_phase_self]
      refine iff_of_false (by simp) fun late => ?_
      rw [(inv.dropped second).mpr late] at ended
      contradiction
    · rw [took_phase_ne differ]
      exact inv.dropped second
  · intro hash
    rw [waiting_took, took_storedWith]
    split
    · next hit =>
      subst hit
      rw [took_later shape, inv.queue, shape]
      rfl
    · next differ =>
      rw [took_taken_ne differ]
      exact inv.queue hash
  · intro hash
    rw [took_storedWith]
    rcases eq_or_ne (bkdrHash methodName) hash with rfl | differ
    · rw [took_first shape, took_taken, if_pos rfl, List.map_append, inv.got, List.map_append]
      rfl
    · rw [took_taken_ne differ]
      exact inv.got hash
  · intro second late
    have early : call < stored :=
      lt_of_mem_storedWith (List.mem_of_mem_drop (shape ▸ List.mem_cons_self))
    rw [took_phase_ne (Nat.ne_of_gt (Nat.lt_of_lt_of_le early late))]
    exact inv.unstored second late
  · intro one oneBound two twoBound oneUnjoined twoUnjoined
    have unjoined {second : ℕ} (alive : (state.took methodName call).phase second ≠ .joined) :
        state.phase second ≠ .joined := by
      rcases eq_or_ne second call with rfl | differ
      · exact absurd took_phase_self alive
      · rwa [← took_phase_ne differ]
    exact inv.tids one oneBound two twoBound (unjoined oneUnjoined) (unjoined twoUnjoined)

end Took

theorem Inv.getAsyncResponse {state next : AsyncChannel} {started stored : ℕ} {methodName : Bytes}
    (inv : state.Inv started stored) (kept : state.KeepsCalls (.getAsyncResponse methodName))
    (success : state.getAsyncResponse methodName = some next) : next.Inv started stored := by
  obtain rfl | ⟨call, calls, shape, ended, rfl⟩ := inv.getAsyncResponse_cases success
  · exact inv
  · exact inv.took kept shape ended

/-! ## Runs -/

/-- A step that keeps to the rules keeps the invariant. -/
theorem inv_step {state next : AsyncChannel} {action : Action}
    (inv : ∃ started stored, state.Inv started stored) (kept : state.KeepsCalls action)
    (success : state.step action = some next) : ∃ started stored, next.Inv started stored := by
  obtain ⟨started, stored, inv⟩ := inv
  rw [step, inv.undeleted, if_neg Bool.false_ne_true] at success
  cases action with
  | callMethod fd tid methodClientName => exact inv.callMethod kept success
  | storeTid => exact inv.storeTid kept success
  | rpcSend call =>
    obtain ⟨created, same⟩ := Option.ite_none_right_eq_some.mp success
    cases same
    exact ⟨started, stored, inv.rpcSend created⟩
  | send call => exact ⟨started, stored, inv.send success⟩
  | answer conn => exact ⟨started, stored, inv.answer success⟩
  | rpcRecv call =>
    obtain ⟨sent, same⟩ := Option.ite_none_right_eq_some.mp success
    cases same
    exact ⟨started, stored, inv.rpcRecv sent⟩
  | recv call => exact ⟨started, stored, inv.recv success⟩
  | store call => exact ⟨started, stored, inv.store success⟩
  | delete call =>
    obtain ⟨done, same⟩ := Option.ite_none_right_eq_some.mp success
    cases same
    exact ⟨started, stored, inv.delete done⟩
  | getAsyncResponse methodName => exact ⟨started, stored, inv.getAsyncResponse kept success⟩

/-- In a run whose calls and responses keep to the rules, a method gets the responses of its calls in
their order, each from the connection of the call, and nothing that was deleted is read. -/
theorem responses_follow_calls {channel : Channel} {actions : List Action} {final : AsyncChannel}
    (run : Run step (init channel) actions final)
    (kept : Throughout step (init channel) (fun _ => KeepsCalls) actions) :
    final.Answered ∧ final.readsDeleted = false := by
  have inv : ∃ started stored, final.Inv started stored := by
    refine @Run.invariant _ _ _ _ (fun _ => KeepsCalls)
      (fun _ state => ∃ started stored, state.Inv started stored) _ _ run ⟨0, 0, inv_init channel⟩ ?_
      kept
    intro before state action next
    exact inv_step
  obtain ⟨started, stored, inv⟩ := inv
  exact ⟨inv.answered, inv.undeleted⟩

/-- A channel to the server `10.0.1.7`, port `9999`, with the default limit. -/
def sampleChannel : Channel where
  addr := some [49, 48, 46, 48, 46, 49, 46, 55]
  port := some [57, 57, 57, 57]
  isChannelAsyncCall := false
  callLimit := 100
  tryTime := 1
  centerClientHeartbeat := false
  errorInfo := ""
  threadIds := []
  callTids := ∅

def faqcfe : Bytes := [70, 97, 113, 99, 102, 101]

def yoohyn : Bytes := [89, 111, 111, 104, 121, 110]

/-- The thread of a call sends, its server answers, and the thread begins to receive. -/
def exchange (call : ℕ) : List Action := [.rpcSend call, .send call, .answer call, .rpcRecv call]

/-- The thread of a call receives its response, stores it and ends. -/
def finish (call : ℕ) : List Action := [.recv call, .store call, .delete call]

/-- Two calls of one method whose threads read `connect_fd_` in time. -/
def inTurn : List Action :=
  [.callMethod 5 101 faqcfe, .storeTid] ++ exchange 0 ++ [.callMethod 6 102 faqcfe, .storeTid] ++
    exchange 1 ++ finish 1 ++ finish 0 ++ [.getAsyncResponse faqcfe, .getAsyncResponse faqcfe]

private theorem inTurn_kept :
    (inTurn.foldlM (Run.guarded step KeepsCalls) (init sampleChannel)).isSome := by
  decide +kernel

/-- Both responses of the calls in turn are those of their calls. -/
theorem responses_follow_calls_sample :
    ∃ final, Run step (init sampleChannel) inTurn final ∧
      final.gets = [(faqcfe, ⟨0, 0⟩), (faqcfe, ⟨1, 1⟩)] ∧ final.Answered ∧
      final.readsDeleted = false := by
  obtain ⟨run, kept⟩ := (Run.of_isSome inTurn_kept).of_guarded
  exact ⟨_, run, by decide +kernel, responses_follow_calls run kept⟩

/-- The second call opens its connection between the two reads of the first thread. -/
def overwritten : List Action :=
  [.callMethod 5 101 faqcfe, .storeTid, .rpcSend 0, .send 0, .answer 0, .callMethod 6 102 faqcfe,
    .storeTid, .rpcSend 1, .send 1, .answer 1, .rpcRecv 0] ++ finish 0 ++ [.getAsyncResponse faqcfe]

/-- Two calls of methods whose names have one hash. -/
def sharedHash : List Action :=
  [.callMethod 5 101 faqcfe, .storeTid] ++ exchange 0 ++ [.callMethod 6 102 yoohyn, .storeTid] ++
    exchange 1 ++ finish 0 ++ finish 1 ++ [.getAsyncResponse yoohyn, .getAsyncResponse faqcfe]

/-- A thread ends before the calling thread has stored it. -/
def endsFirst : List Action :=
  [.callMethod 5 101 faqcfe] ++ exchange 0 ++ finish 0 ++ [.storeTid]

private theorem overwritten_runs : (overwritten.foldlM step (init sampleChannel)).isSome := by
  decide +kernel

private theorem sharedHash_runs : (sharedHash.foldlM step (init sampleChannel)).isSome := by
  decide +kernel

private theorem endsFirst_runs : (endsFirst.foldlM step (init sampleChannel)).isSome := by
  decide +kernel

/-- The first call of a method gets the response of the second one, or one of another method; or the
name of a call is read behind its end. -/
theorem responses_exchanged :
    (∃ final, Run step (init sampleChannel) overwritten final ∧ final.gets = [(faqcfe, ⟨1, 1⟩)] ∧
        ¬ final.Answered) ∧
      (∃ final, Run step (init sampleChannel) sharedHash final ∧
        final.gets = [(yoohyn, ⟨0, 0⟩), (faqcfe, ⟨1, 1⟩)] ∧ ¬ final.Answered) ∧
      ∃ final, Run step (init sampleChannel) endsFirst final ∧ final.readsDeleted = true := by
  refine ⟨⟨_, Run.of_isSome overwritten_runs, ?_, fun answered => ?_⟩,
    ⟨_, Run.of_isSome sharedHash_runs, ?_, fun answered => ?_⟩, ⟨_, Run.of_isSome endsFirst_runs, ?_⟩⟩
  · decide +kernel
  · exact absurd (answered faqcfe) (by decide +kernel)
  · decide +kernel
  · exact absurd (answered faqcfe) (by decide +kernel)
  · decide +kernel

end AsyncChannel

end LibEvRpc
