import LibEvRpc.Proofs.MethodTable

/-! # Serving one connection

What a caller may expect of `rpcProcessor` is stated on the trace of its actions. Every branch
that fails keeps to it. The branch that found and parsed a call does not: behind the block both
variables are still null, so the method is read through a null pointer before the service is
called.
-/

namespace LibEvRpc

variable {Service Method Message : Type}

namespace ServerAction

/-- How often an action closes a descriptor. -/
def closes (fd : Int32) : ServerAction Service Method Message → ℕ
  | .close closed => if closed = fd then 1 else 0
  | .rpcSend used _ sent => if used = fd then sent.closes else 0
  | _ => 0

def invocation? : ServerAction Service Method Message →
    Option (RpcMethod Service Method Message × Option Message)
  | .callMethod rpcMethod request => some (rpcMethod, request)
  | _ => none

def response? (fd : Int32) : ServerAction Service Method Message → Option Bytes
  | .rpcSend used info _ => if used = fd then some info else none
  | _ => none

/-- An action that uses a null method or hands a null request to a service. -/
def usesNull : ServerAction Service Method Message → Bool
  | .nullDereference => true
  | .callMethod _ none => true
  | _ => false

end ServerAction

/-- The id is registered, for this method, and the payload parses as this request of it. -/
structure Callable (runtime : Runtime Service Method Message)
    (table : HashMap Service Method Message) (received : Received)
    (rpcMethod : RpcMethod Service Method Message) (request : Message) : Prop where
  found : table.lookup received.transferId.toUInt32 = some rpcMethod
  parsed : runtime.parseFromString (runtime.new rpcMethod.request) received.info = some request

/-- What the actions for a received call must be. -/
structure Served (runtime : Runtime Service Method Message)
    (table : HashMap Service Method Message) (eventFd : Int32) (received : Received)
    (actions : List (ServerAction Service Method Message)) : Prop where
  called : ∀ rpcMethod request, Callable runtime table received rpcMethod request →
    actions.filterMap ServerAction.invocation? = [(rpcMethod, some request)] ∧
      ∀ info, runtime.serializeToString (runtime.callMethod rpcMethod.service rpcMethod.method
        (some request) (runtime.new rpcMethod.response)) = some info →
          actions.filterMap (ServerAction.response? eventFd) = [info]
  refused : (¬ ∃ rpcMethod request, Callable runtime table received rpcMethod request) →
    actions.filterMap ServerAction.invocation? = []
  closed : (actions.map (ServerAction.closes eventFd)).sum = 1
  nonNull : ∀ action ∈ actions, ¬ action.usesNull

/-- A call that cannot be made is answered by closing the connection, as it should be. -/
theorem served_close {runtime : Runtime Service Method Message}
    {table : HashMap Service Method Message} (eventFd : Int32) {received : Received}
    (uncallable : ¬ ∃ rpcMethod request, Callable runtime table received rpcMethod request) :
    Served runtime table eventFd received [.close eventFd] where
  called rpcMethod request callable := absurd ⟨rpcMethod, request, callable⟩ uncallable
  refused _ := rfl
  closed := by simp [ServerAction.closes]
  nonNull action member := by
    cases List.mem_singleton.mp member
    exact Bool.false_ne_true

/-- A failed receive hands over an id that no method has. -/
theorem uncallable_errorRecv (runtime : Runtime Service Method Message) (services : List Service)
    {received : Received} (failed : received.transferId = errorRecv) :
    ¬ ∃ rpcMethod request,
      Callable runtime (registeServices runtime services) received rpcMethod request := by
  rintro ⟨rpcMethod, _, found, _⟩
  have high : 2 ^ 31 ≤ received.transferId.toUInt32.toNat := by
    rw [failed]
    decide
  rw [lookup_registeServices_of_neg runtime services high] at found
  contradiction

/-- Behind the block that finds the method: a call that can be made reads a null method, every
other one closes the connection. -/
theorem findAndCall_cases (runtime : Runtime Service Method Message)
    (server : RpcServer Service Method Message) (send : ℕ → Bool) (eventFd : Int32)
    (received : Received) :
    (∃ rpcMethod request, Callable runtime server.methodHashmap received rpcMethod request) ∧
        findAndCall runtime server send eventFd received.transferId received.info =
          some [.nullDereference] ∨
      (¬ ∃ rpcMethod request, Callable runtime server.methodHashmap received rpcMethod request) ∧
        findAndCall runtime server send eventFd received.transferId received.info =
          some [.close eventFd] := by
  rw [findAndCall]
  cases found : server.methodHashmap.lookup received.transferId.toUInt32 with
  | none =>
    refine .inr ⟨?_, rfl⟩
    rintro ⟨rpcMethod, _, other, _⟩
    rw [found] at other
    contradiction
  | some rpcMethod =>
    cases parsed : runtime.parseFromString (runtime.new rpcMethod.request) received.info with
    | none =>
      refine .inr ⟨?_, by simp only [parsed]⟩
      rintro ⟨_, _, same, other⟩
      rw [found] at same
      cases same
      rw [parsed] at other
      contradiction
    | some request =>
      refine .inl ⟨⟨rpcMethod, request, found, parsed⟩, ?_⟩
      simp only [parsed]
      rfl

/-- Whatever its connection brings, `RpcProcessor` reads a null method or closes the connection, and
sends nothing. -/
theorem rpcProcessor_cases {runtime : Runtime Service Method Message}
    {server : RpcServer Service Method Message} {send : ℕ → Bool} {eventFd : Int32}
    {events : List RecvEvent} {actions : List (ServerAction Service Method Message)}
    (success : rpcProcessor runtime server send eventFd events = some actions) :
    actions = [.nullDereference] ∨ actions = [.close eventFd] := by
  have found (received : Received)
      (success : findAndCall runtime server send eventFd received.transferId received.info =
        some actions) : actions = [.nullDereference] ∨ actions = [.close eventFd] := by
    obtain ⟨_, crash⟩ | ⟨_, closes⟩ := findAndCall_cases runtime server send eventFd received
    · exact .inl (Option.some_injective _ (success.symm.trans crash))
    · exact .inr (Option.some_injective _ (success.symm.trans closes))
  rw [rpcProcessor] at success
  split at success
  · exact found ⟨-1, [], 0, []⟩ success
  · obtain ⟨received, _, success⟩ := Option.bind_eq_some_iff.mp success
    split at success
    · exact .inr (Option.some_injective _ success.symm)
    · exact found received success

/-- Every received call is answered, and as it should be exactly when it cannot be made. -/
theorem rpcProcessor_served_iff (runtime : Runtime Service Method Message)
    (services : List Service) (send : ℕ → Bool) (eventFd : Int32) {events : List RecvEvent}
    {received : Received} (handed : rpcRecv false events [] = some received) :
    ∃ actions,
      rpcProcessor runtime ⟨registeServices runtime services, false, false⟩ send eventFd events =
        some actions ∧
      (Served runtime (registeServices runtime services) eventFd received actions ↔
        ¬ ∃ rpcMethod request,
          Callable runtime (registeServices runtime services) received rpcMethod request) := by
  rw [rpcProcessor, if_neg Bool.false_ne_true, handed, Option.bind_some]
  by_cases failed : received.transferId = errorRecv
  · have uncallable := uncallable_errorRecv runtime services failed
    rw [if_pos failed]
    exact ⟨_, rfl, fun _ => uncallable, fun _ => served_close eventFd uncallable⟩
  · rw [if_neg failed]
    obtain ⟨callable, trace⟩ | ⟨uncallable, trace⟩ := findAndCall_cases runtime
      ⟨registeServices runtime services, false, false⟩ send eventFd received
    · refine ⟨_, trace, fun served => ?_, fun uncallable => absurd callable uncallable⟩
      exact absurd rfl (served.nonNull _ List.mem_cons_self)
    · exact ⟨_, trace, fun _ => uncallable, fun _ => served_close eventFd uncallable⟩

/-- The echo service is not called: the connection of a well-formed call stays open behind a null
dereference. -/
theorem rpcProcessor_echo_unserved :
    ∃ received actions,
      rpcRecv false [.data (MetaData.make (bkdrHash echoFaqcfe).toInt32.neg [10, 2, 104, 105]).chunk] [] =
        some received ∧
      rpcProcessor echoRuntime ⟨registeServices echoRuntime [[echoFaqcfe]], false, false⟩ allSent 5
        [.data (MetaData.make (bkdrHash echoFaqcfe).toInt32.neg [10, 2, 104, 105]).chunk] =
          some actions ∧
      Callable echoRuntime (registeServices echoRuntime [[echoFaqcfe]]) received
        (echoRuntime.rpcMethod [echoFaqcfe] echoFaqcfe) [104, 105] ∧
      ¬ Served echoRuntime (registeServices echoRuntime [[echoFaqcfe]]) 5 received actions := by
  have handed := rpcRecv_block false (bkdrHash echoFaqcfe).toInt32.neg [] []
    (show [10, 2, 104, 105].length < bodySize by decide)
  rw [if_pos (by decide)] at handed
  refine ⟨_, [.nullDereference], handed, ?_, ⟨by decide, by decide⟩, fun served => ?_⟩
  · rw [rpcProcessor, if_neg Bool.false_ne_true, handed]
    rfl
  · exact absurd rfl (served.nonNull _ List.mem_cons_self)

/-- A block whose id is that of no method is closed at once. -/
theorem rpcProcessor_unknown_served :
    ∃ received actions,
      rpcRecv false [.data (MetaData.make (-7) [10, 2, 104, 105]).chunk] [] = some received ∧
      rpcProcessor echoRuntime ⟨registeServices echoRuntime [[echoFaqcfe]], false, false⟩ allSent 5
        [.data (MetaData.make (-7) [10, 2, 104, 105]).chunk] = some actions ∧
      Served echoRuntime (registeServices echoRuntime [[echoFaqcfe]]) 5 received actions := by
  have handed := rpcRecv_block false (-7) [] [] (show [10, 2, 104, 105].length < bodySize by decide)
  rw [if_pos (by decide)] at handed
  obtain ⟨actions, success, served⟩ :=
    rpcProcessor_served_iff echoRuntime [[echoFaqcfe]] allSent 5 handed
  refine ⟨_, actions, handed, success, served.mpr ?_⟩
  rintro ⟨rpcMethod, _, found, _⟩
  have absent : (registeServices echoRuntime [[echoFaqcfe]]).lookup 7 = none := by decide +kernel
  exact absurd (found.symm.trans absent) (Option.some_ne_none _)

end LibEvRpc
