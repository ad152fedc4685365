import LibEvRpc.Proofs.ThreadPool
import Mathlib.Data.List.Count

/-! # Notifications that cannot be written

`DispatchRpcCall` reports a call as dispatched although its notification could not be written. The
queue of the worker is then longer than its notifications by one, and stays so.
-/

namespace LibEvRpc

namespace LibevThreadPool

/-- The calls whose notifications could not be written. -/
def unwritable : List PipeAction → List ℕ
  | [] => []
  | .succeeds _ :: rest => unwritable rest
  | .writeFails call :: rest => call :: unwritable rest

theorem mem_unwritable {actions : List PipeAction} {call : ℕ} :
    call ∈ unwritable actions ↔ .writeFails call ∈ actions := by
  induction actions with
  | nil => exact iff_of_false List.not_mem_nil List.not_mem_nil
  | cons action rest ih =>
    cases action with
    | succeeds action => rw [unwritable, ih, List.mem_cons, or_iff_right (by simp)]
    | writeFails other => rw [unwritable, List.mem_cons, ih, List.mem_cons, PipeAction.writeFails.injEq]

theorem unwritable_append (first second : List PipeAction) :
    unwritable (first ++ second) = unwritable first ++ unwritable second := by
  induction first with
  | nil => rfl
  | cons action rest ih =>
    cases action with
    | succeeds action => exact ih
    | writeFails call => exact congrArg (call :: ·) ih

/-- No dispatch is between its push to a worker and its write, and the worker is not between its read
and its pop. -/
def AtRest (pool : LibevThreadPool) (thread : ℕ) : Prop :=
  pool.unwritten thread = 0 ∧ (pool.libevThreads thread).phase ≠ .woken

/-- What `DispatchRpcCall` promises for its results: a queue is as long as there are unread
notifications, a call reported as dispatched is taken when nothing is left to read, a rejected one
is in no queue, and a call whose notification cannot be written is rejected. -/
structure Notifies (pool : LibevThreadPool) (unwritable : List ℕ) : Prop where
  matched : ∀ thread, pool.AtRest thread →
    (pool.libevThreads thread).newRequestQueue.length = (pool.libevThreads thread).notified
  dispatched : ∀ thread call, pool.calls[call]? = some (.returned thread) → pool.AtRest thread →
    (pool.libevThreads thread).notified = 0 → call ∈ pool.taken thread
  rejected : ∀ call, pool.calls[call]? = some .failed →
    ∀ thread, call ∉ (pool.libevThreads thread).queued
  refused : ∀ call ∈ unwritable, pool.calls[call]? = some .failed

/-- The notifications that are missing for a worker. -/
def missing (pool : LibevThreadPool) (unwritable : List ℕ) (thread : ℕ) : ℕ :=
  unwritable.countP fun call => pool.calls[call]? = some (.returned thread)

/-! ## The balance of a worker -/

/-- Of the calls in a worker's queue each has a notification that is unread, still to be written, just
read or missing. -/
def Balanced (pool : LibevThreadPool) (missing : ℕ → ℕ) : Prop :=
  ∀ thread, (pool.libevThreads thread).newRequestQueue.length =
    (pool.libevThreads thread).notified + pool.unwritten thread +
      (if (pool.libevThreads thread).phase = .woken then 1 else 0) + missing thread

theorem Balanced.setCall {pool : LibevThreadPool} {missing : ℕ → ℕ} {call : ℕ} {old new : Dispatch}
    (balanced : pool.Balanced missing) (found : pool.calls[call]? = some old)
    (pushed : ∀ thread, old = .pushed thread ↔ new = .pushed thread) :
    (pool.setCall call new).Balanced missing := by
  intro thread
  have count := unwritten_setCall found new thread
  simp only [pushed thread] at count
  rw [Nat.add_right_cancel count]
  exact balanced thread

theorem Balanced.setThread {pool : LibevThreadPool} {missing : ℕ → ℕ} {thread : ℕ}
    {state : LibevThread} (balanced : pool.Balanced missing)
    (own : state.newRequestQueue.length = state.notified + pool.unwritten thread +
      (if state.phase = .woken then 1 else 0) + missing thread) :
    (pool.setThread thread state).Balanced missing := by
  intro other
  rcases eq_or_ne other thread with rfl | differ
  · rw [setThread_self]
    exact own
  · rw [setThread_ne differ]
    exact balanced other

/-- A worker and a dispatch go on together. -/
theorem Balanced.setThread_setCall {pool : LibevThreadPool} {missing : ℕ → ℕ} {call thread : ℕ}
    {old new : Dispatch} {state : LibevThread} (balanced : pool.Balanced missing)
    (found : pool.calls[call]? = some old)
    (others : ∀ other, other ≠ thread → (old = .pushed other ↔ new = .pushed other))
    (own : state.newRequestQueue.length = state.notified + (pool.setCall call new).unwritten thread +
      (if state.phase = .woken then 1 else 0) + missing thread) :
    ((pool.setThread thread state).setCall call new).Balanced missing := by
  intro other
  rcases eq_or_ne other thread with rfl | differ
  · change ((pool.setThread other state).libevThreads other).newRequestQueue.length =
      ((pool.setThread other state).libevThreads other).notified +
        (pool.setCall call new).unwritten other +
        (if ((pool.setThread other state).libevThreads other).phase = .woken then 1 else 0) +
        missing other
    rw [setThread_self]
    exact own
  · have count := unwritten_setCall found new other
    simp only [others other differ] at count
    change ((pool.setThread thread state).libevThreads other).newRequestQueue.length =
      ((pool.setThread thread state).libevThreads other).notified +
        (pool.setCall call new).unwritten other +
        (if ((pool.setThread thread state).libevThreads other).phase = .woken then 1 else 0) +
        missing other
    rw [setThread_ne differ, Nat.add_right_cancel count]
    exact balanced other

theorem Balanced.rqItemPush {pool : LibevThreadPool} {missing : ℕ → ℕ} {call item thread : ℕ}
    (balanced : pool.Balanced missing) (found : pool.calls[call]? = some (.stored item thread)) :
    (pool.rqItemPush call item thread).Balanced missing := by
  apply balanced.setThread_setCall found
  · intro other differ
    simpa using differ.symm
  · have count := unwritten_setCall found (.pushed thread) thread
    rw [if_neg (by simp), if_pos rfl] at count
    have own := balanced thread
    rw [List.length_append, List.length_singleton]
    dsimp only
    omega

theorem Balanced.write {pool : LibevThreadPool} {missing : ℕ → ℕ} {call thread : ℕ}
    (balanced : pool.Balanced missing) (found : pool.calls[call]? = some (.pushed thread)) :
    (pool.write call thread).Balanced missing := by
  apply balanced.setThread_setCall found
  · intro other differ
    simpa using differ.symm
  · have count := unwritten_setCall found (.returned thread) thread
    rw [if_pos rfl, if_neg (by simp)] at count
    have own := balanced thread
    dsimp only
    omega

/-- A step keeps the balance of every worker. -/
theorem Balanced.step {pool next : LibevThreadPool} {missing : ℕ → ℕ} {action : Action}
    (balanced : pool.Balanced missing) (success : pool.step action = some next) :
    next.Balanced missing := by
  cases stepped_of_step success with
  | dispatchRpcCall =>
    intro thread
    have same : (pool.calls ++ [Dispatch.starting]).count (.pushed thread) = pool.unwritten thread := by
      rw [List.count_append, List.count_cons_of_ne (by simp), List.count_nil, Nat.add_zero, unwritten]
    change _ = _ + (pool.calls ++ [Dispatch.starting]).count (.pushed thread) + _ + _
    rw [same]
    exact balanced thread
  | rqItemNew found =>
    rw [LibevThreadPool.rqItemNew]
    split
    · exact Balanced.setCall balanced found (by simp)
    · exact balanced.setCall found (by simp)
  | malloc found =>
    rw [LibevThreadPool.malloc]
    split
    · exact Balanced.setCall balanced found (by simp)
    · exact balanced.setCall found (by simp)
  | pick found => exact balanced.setCall found (by simp)
  | store found => exact Balanced.setCall balanced found (by simp)
  | rqItemPush found => exact balanced.rqItemPush found
  | write found => exact balanced.write found
  | @read thread waiting notified =>
    apply balanced.setThread
    have own := balanced thread
    rw [waiting, if_neg (by simp)] at own
    dsimp only
    rw [if_pos rfl]
    omega
  | @rqItemPop thread woken =>
    apply balanced.setThread
    have own := balanced thread
    rw [woken, if_pos rfl] at own
    dsimp only
    rw [if_neg (by simp), List.length_tail]
    omega
  | execute popped =>
    apply balanced.setThread
    rw [balanced _, popped]
    rfl
  | complete executing =>
    apply balanced.setThread
    rw [balanced _, executing]
    rfl
  | rqItemFree freeing =>
    apply Balanced.setThread balanced
    rw [balanced _, freeing]
    rfl

theorem getElem?_setCall_of_returned {pool : LibevThreadPool} {call other thread : ℕ}
    {old new : Dispatch} (found : pool.calls[call]? = some old) (running : old ≠ .returned thread)
    (returned : pool.calls[other]? = some (.returned thread)) :
    (pool.setCall call new).calls[other]? = some (.returned thread) := by
  rw [getElem?_setCall found, if_neg, returned]
  rintro rfl
  exact running (Option.some.inj (found.symm.trans returned))

/-- A call that was reported as dispatched stays so. -/
theorem returned_step {pool next : LibevThreadPool} {action : Action} {call thread : ℕ}
    (success : pool.step action = some next)
    (returned : pool.calls[call]? = some (.returned thread)) :
    next.calls[call]? = some (.returned thread) := by
  cases stepped_of_step success with
  | dispatchRpcCall =>
    exact List.getElem?_append_left (List.getElem?_eq_some_iff.mp returned).1 ▸ returned
  | rqItemNew found =>
    rw [LibevThreadPool.rqItemNew]
    split
    · exact getElem?_setCall_of_returned found (by simp) returned
    · exact getElem?_setCall_of_returned found (by simp) returned
  | malloc found =>
    rw [LibevThreadPool.malloc]
    split
    · exact getElem?_setCall_of_returned found (by simp) returned
    · exact getElem?_setCall_of_returned found (by simp) returned
  | pick found => exact getElem?_setCall_of_returned found (by simp) returned
  | store found => exact getElem?_setCall_of_returned found (by simp) returned
  | rqItemPush found => exact getElem?_setCall_of_returned found (by simp) returned
  | write found => exact getElem?_setCall_of_returned found (by simp) returned
  | read | rqItemPop | execute | complete | rqItemFree => exact returned

/-! ## Notifications that could not be written -/

/-- A call whose notification could not be written is a new one among those. -/
theorem not_mem_of_pushed {pool : LibevThreadPool} {lost : List ℕ} {call target : ℕ}
    (returned : ∀ other ∈ lost, ∃ thread, pool.calls[other]? = some (.returned thread))
    (found : pool.calls[call]? = some (.pushed target)) : call ∉ lost := by
  intro member
  obtain ⟨thread, here⟩ := returned call member
  cases found.symm.trans here

/-- A step of the pool leaves the notifications that are missing. -/
theorem missing_of_step {pool next : LibevThreadPool} {action : Action} {lost : List ℕ}
    (returned : ∀ call ∈ lost, ∃ thread, pool.calls[call]? = some (.returned thread))
    (success : pool.step action = some next) : next.missing lost = pool.missing lost := by
  funext thread
  apply List.countP_congr
  intro call member
  obtain ⟨target, here⟩ := returned call member
  rw [here, returned_step success here]

/-- A failed write makes one more missing, that of its call. -/
theorem missing_of_writeFails {pool : LibevThreadPool} {lost : List ℕ} {call target : ℕ}
    (returned : ∀ other ∈ lost, ∃ thread, pool.calls[other]? = some (.returned thread))
    (found : pool.calls[call]? = some (.pushed target)) (thread : ℕ) :
    (pool.setCall call (.returned target)).missing (lost ++ [call]) thread =
      pool.missing lost thread + if target = thread then 1 else 0 := by
  have lookup := getElem?_setCall found (.returned target)
  have fresh := not_mem_of_pushed returned found
  rw [missing, List.countP_append]
  congr 1
  · apply List.countP_congr
    intro other member
    rw [lookup, if_neg]
    rintro rfl
    exact fresh member
  · rw [List.countP_singleton, lookup, if_pos rfl]
    simp

/-- Behind a failed write the balance holds with the one that is missing. -/
theorem Balanced.writeFails {pool : LibevThreadPool} {lost : List ℕ} {call target : ℕ}
    (balanced : pool.Balanced (pool.missing lost))
    (returned : ∀ other ∈ lost, ∃ thread, pool.calls[other]? = some (.returned thread))
    (found : pool.calls[call]? = some (.pushed target)) :
    (pool.setCall call (.returned target)).Balanced
      ((pool.setCall call (.returned target)).missing (lost ++ [call])) := by
  intro thread
  have count := unwritten_setCall found (.returned target) thread
  have own := balanced thread
  have unlike : Dispatch.returned target ≠ .pushed thread := by simp
  rw [if_neg unlike] at count
  rw [missing_of_writeFails returned found]
  change (pool.libevThreads thread).newRequestQueue.length =
    (pool.libevThreads thread).notified + (pool.setCall call (.returned target)).unwritten thread +
      (if (pool.libevThreads thread).phase = .woken then 1 else 0) + _
  simp only [Dispatch.pushed.injEq] at count
  omega

/-! ## Runs -/

/-- Behind every run the calls whose notifications could not be written are reported as dispatched, and
their notifications are missing in the balance of their workers. -/
theorem balanced_run {numThreads : ℕ} {threadId : ℕ → UInt64} {actions : List PipeAction}
    {final : LibevThreadPool} (run : Run pipeStep (start numThreads threadId) actions final) :
    (∀ call ∈ unwritable actions, ∃ thread, final.calls[call]? = some (.returned thread)) ∧
      final.Balanced (final.missing (unwritable actions)) := by
  induction run with
  | nil =>
    refine ⟨fun call member => absurd member List.not_mem_nil, fun thread => ?_⟩
    simp [start, unwritten, missing, unwritable]
  | @snoc actions pool next action run success ih =>
    obtain ⟨returned, balanced⟩ := ih
    rw [unwritable_append]
    cases action with
    | succeeds action =>
      rw [unwritable, unwritable, List.append_nil, missing_of_step returned success]
      refine ⟨fun call member => ?_, balanced.step success⟩
      obtain ⟨target, here⟩ := returned call member
      exact ⟨target, returned_step success here⟩
    | writeFails call =>
      rw [pipeStep] at success
      split at success
      · next target found =>
        cases success
        have lookup := getElem?_setCall found (.returned target)
        refine ⟨fun other member => ?_, balanced.writeFails returned found⟩
        rcases List.mem_append.mp member with earlier | here
        · obtain ⟨thread, there⟩ := returned other earlier
          exact ⟨thread, getElem?_setCall_of_returned found (by simp) there⟩
        · rw [List.mem_singleton.mp here, lookup, if_pos rfl]
          exact ⟨target, rfl⟩
      · contradiction

/-- A run in which every write succeeds. -/
theorem run_of_unwritable_eq_nil {initial final : LibevThreadPool} {actions : List PipeAction}
    (run : Run pipeStep initial actions final) (succeed : unwritable actions = []) :
    ∃ actions, Run step initial actions final := by
  induction run with
  | nil => exact ⟨[], .nil⟩
  | @snoc actions pool next action run success ih =>
    rw [unwritable_append, List.append_eq_nil_iff] at succeed
    obtain ⟨earlier, run⟩ := ih succeed.1
    cases action with
    | succeeds action => exact ⟨earlier ++ [action], .snoc run success⟩
    | writeFails call => exact absurd succeed.2 (List.cons_ne_nil _ _)

/-- A worker at rest has as many queued calls as notifications, except for those that are missing. -/
theorem queue_length_of_atRest {numThreads : ℕ} {threadId : ℕ → UInt64} {actions : List PipeAction}
    {final : LibevThreadPool} (run : Run pipeStep (start numThreads threadId) actions final)
    {thread : ℕ} (rest : final.AtRest thread) :
    (final.libevThreads thread).newRequestQueue.length =
      (final.libevThreads thread).notified + final.missing (unwritable actions) thread := by
  have own := (balanced_run run).2 thread
  rw [rest.1, if_neg rest.2] at own
  omega

/-- Behind every run, whatever the order of the steps, the results of `DispatchRpcCall` mean what they
promise if and only if no write to a pipe has failed. -/
theorem notifies_iff (numThreads : ℕ) (threadId : ℕ → UInt64) (actions : List PipeAction)
    (final : LibevThreadPool) (run : Run pipeStep (start numThreads threadId) actions final) :
    final.Notifies (unwritable actions) ↔ ∀ call, .writeFails call ∉ actions := by
  constructor
  · intro notifies call failed
    have member := mem_unwritable.mpr failed
    obtain ⟨thread, returned⟩ := (balanced_run run).1 call member
    cases returned.symm.trans (notifies.refused call member)
  · intro succeed
    have none_failed : unwritable actions = [] :=
      List.eq_nil_iff_forall_not_mem.mpr fun call member => succeed call (mem_unwritable.mp member)
    obtain ⟨_, stepped⟩ := run_of_unwritable_eq_nil run none_failed
    obtain ⟨place, inv⟩ := inv_run stepped
    refine ⟨?_, ?_, ?_, ?_⟩
    · intro thread rest
      rw [queue_length_of_atRest run rest, none_failed]
      rfl
    · intro thread call returned rest read
      exact inv.mem_taken returned read rest.1 rest.2
    · intro call failed thread member
      obtain ⟨dispatch, found, target⟩ := (inv.queued thread call).mp member
      cases failed.symm.trans found
      contradiction
    · intro call member
      rw [none_failed] at member
      exact absurd member List.not_mem_nil

/-- The write for the first call fails, that for the second one does not. -/
def oneUnwritable : List PipeAction :=
  [.dispatchRpcCall, .rqItemNew 0, .malloc 0 true, .pick 0, .store 0, .rqItemPush 0].map .succeeds ++
    [.writeFails 0] ++
    [.dispatchRpcCall, .rqItemNew 1, .pick 1, .store 1, .rqItemPush 1, .write 1].map .succeeds

private theorem oneUnwritable_isSome :
    (oneUnwritable.foldlM pipeStep (start 1 fun _ => 101)).isSome := by decide

theorem notifies_iff_sample : ∃ final, Run pipeStep (start 1 fun _ => 101) oneUnwritable final ∧
    (final.Notifies (unwritable oneUnwritable) ↔ ∀ call, .writeFails call ∉ oneUnwritable) :=
  ⟨_, Run.of_isSome oneUnwritable_isSome, notifies_iff 1 _ _ _ (Run.of_isSome oneUnwritable_isSome)⟩

/-- Both calls are reported as dispatched and queued, with one notification for the two. -/
theorem unwritable_reported : ∃ final, Run pipeStep (start 1 fun _ => 101) oneUnwritable final ∧
    final.calls[0]? = some (.returned 0) ∧ (final.libevThreads 0).newRequestQueue = [0, 1] ∧
    (final.libevThreads 0).notified = 1 ∧ ¬ final.Notifies (unwritable oneUnwritable) := by
  refine ⟨_, Run.of_isSome oneUnwritable_isSome, by decide, by decide, by decide, fun notifies => ?_⟩
  have refused := notifies.refused 0 (by decide)
  exact absurd refused (by decide)

end LibevThreadPool

end LibEvRpc
