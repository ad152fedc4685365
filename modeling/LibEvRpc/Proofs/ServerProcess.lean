import LibEvRpc.Proofs.DispatchOrder
import LibEvRpc.Proofs.Processor
import LibEvRpc.Proofs.ThreadPool
import LibEvRpc.Server.ServerProcess

/-! # Every connection of a server is closed once

A descriptor goes from the event loop to a call of the pool and to the worker that makes it, each of
which has it for itself. So nothing closes a descriptor that was given to a later connection, no
connection is closed twice, and every one is closed when the threads come to rest.
-/

namespace LibEvRpc

namespace LibevThreadPool

variable {pool next : LibevThreadPool} {action : Action}

/-! ## Steps that make no call -/

/-- A step that begins and ends no call and no dispatch. -/
structure Internal (pool next : LibevThreadPool) : Prop where
  length : next.calls.length = pool.calls.length
  failed : ∀ call : ℕ, next.calls[call]? = some Dispatch.failed ↔ pool.calls[call]? = some .failed
  executed : ∀ thread, (next.libevThreads thread).executed = (pool.libevThreads thread).executed
  executing : ∀ thread item, (next.libevThreads thread).phase = .executing item ↔
    (pool.libevThreads thread).phase = .executing item

/-- A dispatch goes on, and does not fail. -/
theorem Internal.setCall {call : ℕ} {old new : Dispatch} (found : pool.calls[call]? = some old)
    (before : old ≠ .failed) (after : new ≠ .failed) (calls : next.calls = pool.calls.set call new)
    (executed : ∀ thread, (next.libevThreads thread).executed = (pool.libevThreads thread).executed)
    (executing : ∀ thread item, (next.libevThreads thread).phase = .executing item ↔
      (pool.libevThreads thread).phase = .executing item) : Internal pool next where
  length := by rw [calls, List.length_set]
  failed other := by
    have lookup := getElem?_setCall found new other
    rw [LibevThreadPool.setCall] at lookup
    rw [calls, lookup]
    split
    · next same =>
      rw [same, found]
      simp [before, after]
    · rfl
  executed := executed
  executing := executing

/-- A worker goes on between its calls. -/
theorem Internal.setThread {thread : ℕ} {state : LibevThread} (calls : next.calls = pool.calls)
    (threads : next.libevThreads = Function.update pool.libevThreads thread state)
    (same : state.executed = (pool.libevThreads thread).executed)
    (before : ∀ item, (pool.libevThreads thread).phase ≠ .executing item)
    (after : ∀ item, state.phase ≠ .executing item) : Internal pool next where
  length := by rw [calls]
  failed _ := by rw [calls]
  executed other := by
    rw [threads]
    rcases eq_or_ne other thread with rfl | differ
    · rw [Function.update_self, same]
    · rw [Function.update_of_ne differ]
  executing other item := by
    rw [threads]
    rcases eq_or_ne other thread with rfl | differ
    · rw [Function.update_self]
      exact iff_of_false (after item) (before item)
    · rw [Function.update_of_ne differ]

/-- A dispatch goes on, and gives something to a worker without a change of what it makes. -/
theorem Internal.give {call thread : ℕ} {old new : Dispatch} {state : LibevThread}
    (found : pool.calls[call]? = some old) (before : old ≠ .failed) (after : new ≠ .failed)
    (calls : next.calls = pool.calls.set call new)
    (threads : next.libevThreads = Function.update pool.libevThreads thread state)
    (executed : state.executed = (pool.libevThreads thread).executed)
    (phase : state.phase = (pool.libevThreads thread).phase) : Internal pool next := by
  have same (other : ℕ) : (next.libevThreads other).executed = (pool.libevThreads other).executed ∧
      (next.libevThreads other).phase = (pool.libevThreads other).phase := by
    rw [threads]
    rcases eq_or_ne other thread with rfl | differ
    · rw [Function.update_self]
      exact ⟨executed, phase⟩
    · rw [Function.update_of_ne differ]
      exact ⟨rfl, rfl⟩
  exact .setCall found before after calls (fun other => (same other).1)
    fun other item => by rw [(same other).2]

/-- The steps that begin or end a call or a dispatch. -/
def Action.External : Action → Prop
  | .dispatchRpcCall | .malloc _ false | .execute _ | .complete _ => True
  | _ => False

theorem internal_step (internal : ¬ action.External) (success : pool.step action = some next) :
    Internal pool next := by
  cases stepped_of_step success with
  | dispatchRpcCall | execute _ | complete _ => exact absurd trivial internal
  | @rqItemNew call found =>
    rw [rqItemNew]
    split
    · exact .setCall found (by simp) (by simp) rfl (fun _ => rfl) fun _ _ => Iff.rfl
    · exact .setCall found (by simp) (by simp) rfl (fun _ => rfl) fun _ _ => Iff.rfl
  | @malloc call allocates found =>
    cases allocates with
    | false => exact absurd trivial internal
    | true => exact .setCall found (by simp) (by simp) rfl (fun _ => rfl) fun _ _ => Iff.rfl
  | pick found => exact .setCall found (by simp) (by simp) rfl (fun _ => rfl) fun _ _ => Iff.rfl
  | store found => exact .setCall found (by simp) (by simp) rfl (fun _ => rfl) fun _ _ => Iff.rfl
  | rqItemPush found => exact .give found (by simp) (by simp) rfl rfl rfl rfl
  | write found => exact .give found (by simp) (by simp) rfl rfl rfl rfl
  | read waiting notified =>
    exact .setThread rfl rfl rfl (fun item => by simp [waiting]) fun item => by simp
  | rqItemPop woken =>
    exact .setThread rfl rfl rfl (fun item => by simp [woken]) fun item => by simp
  | rqItemFree freeing =>
    exact .setThread rfl rfl rfl (fun item => by simp [freeing]) fun item => by simp

/-- A call is queued for one worker. -/
theorem Inv.thread_unique {place : ℕ → Place} (inv : pool.Inv place) {call first second : ℕ}
    (one : call ∈ (pool.libevThreads first).executed)
    (other : call ∈ (pool.libevThreads second).queued) : first = second := by
  have queued : call ∈ (pool.libevThreads first).queued := by
    rw [(inv.workers first).log]
    exact List.mem_append_left _ one
  obtain ⟨dispatch, found, target⟩ := (inv.queued first call).mp queued
  obtain ⟨_, again, otherTarget⟩ := (inv.queued second call).mp other
  cases found.symm.trans again
  exact Option.some_injective _ (target.symm.trans otherTarget)

end LibevThreadPool

namespace DispatchThread

variable {thread next : DispatchThread}

/-- Every started watcher is in the list of one descriptor, that of its item. -/
structure Listed (thread : DispatchThread) : Prop where
  items : (thread.anfds.map Prod.snd).Nodup
  own : ∀ entry ∈ thread.anfds, entry.1 = (thread.eio entry.2).2

/-- A connection is accepted with an item that is not started. -/
theorem Listed.watch {cfd : Int32} (listed : thread.Listed) (idle : ¬ thread.Started thread.newEio.1)
    (success : thread.watch cfd = some next) :
    next.Listed ∧ next.watched = thread.watched ++ [(thread.accepted, cfd)] := by
  obtain ⟨eio, anfds, _⟩ := watch_spec success
  have others {entry : Int32 × ℕ} (member : entry ∈ thread.anfds) :
      next.eio entry.2 = thread.eio entry.2 := by
    rw [eio]
    apply Function.update_of_ne
    intro same
    exact idle (same ▸ List.mem_map_of_mem member)
  have own : next.eio thread.newEio.1 = (thread.accepted, cfd) := by
    rw [eio, Function.update_self]
  refine ⟨⟨?_, ?_⟩, ?_⟩
  · rw [anfds, List.map_append]
    refine List.nodup_append.mpr ⟨listed.items, List.nodup_singleton _, ?_⟩
    rintro item old _ new rfl
    rw [List.mem_singleton.mp new] at old
    exact idle old
  · intro entry member
    rw [anfds] at member
    rcases List.mem_append.mp member with old | new
    · rw [others old]
      exact listed.own entry old
    · rw [List.mem_singleton.mp new, own]
  · rw [watched, anfds, List.map_append, List.map_singleton, own]
    congr 1
    exact List.map_congr_left fun entry member => others member

/-- A callback ends the watch of its connection. -/
theorem Listed.processCb {item : ℕ} (listed : thread.Listed)
    (success : thread.processCb item = some next) :
    next.Listed ∧ next.accepted = thread.accepted ∧
      thread.watched.Perm (thread.eio item :: next.watched) := by
  obtain ⟨started, _⟩ := processCb_spec success
  rw [DispatchThread.processCb, if_pos started] at success
  obtain ⟨_, _, _, rfl⟩ := freeFirst_eq_some_iff.mp success
  obtain ⟨entry, member, rfl⟩ := List.mem_map.mp started
  have taken : ((thread.eio entry.2).2, entry.2) ∈ thread.anfds := by
    rw [← listed.own entry member]
    exact member
  refine ⟨⟨listed.items.sublist (List.erase_sublist.map Prod.snd), fun other left =>
    listed.own other (List.mem_of_mem_erase left)⟩, rfl, ?_⟩
  exact (List.perm_cons_erase taken).map fun entry => thread.eio entry.2

end DispatchThread

namespace ServerProcess

open LibevThreadPool

variable {Service Method Message : Type} {runtime : Runtime Service Method Message}
  {server : RpcServer Service Method Message} {process next : ServerProcess}

/-! ## Where a connection is -/

/-- The connections that a close was made for. -/
def closed (process : ServerProcess) : List ℕ := process.closings.map Prod.fst

/-- The connections whose descriptors were given to the pool. -/
def handed (process : ServerProcess) : List ℕ := process.params.map Prod.snd

/-- A call is over: there was no item for it, or a worker has made it. -/
def Over (pool : LibevThreadPool) (running : ℕ → Option ℕ) (call : ℕ) : Prop :=
  pool.calls[call]? = some .failed ∨
    ∃ thread, call ∈ (pool.libevThreads thread).executed ∧ running thread ≠ some call

structure Calls (process : ServerProcess) : Prop where
  pool : ∃ place, process.pool.Inv place
  length : process.params.length = process.pool.calls.length
  running : ∀ thread call, process.running thread = some call →
    ∃ item before, (process.pool.libevThreads thread).phase = .executing item ∧
      (process.pool.libevThreads thread).executed = before ++ [call]
  busy : ∀ thread item, (process.pool.libevThreads thread).phase = .executing item →
    process.running thread ≠ none

/-- The connections that the event loop watches are open. -/
structure Watching (process : ServerProcess) : Prop where
  listed : process.dispatch.Listed
  apart : (process.dispatch.watched.map Prod.fst).Nodup
  opened : ∀ watcher ∈ process.dispatch.watched, watcher.1 < process.dispatch.accepted ∧
    watcher.1 ∉ process.handed ∧ process.owner watcher.2 = some watcher.1

/-- The connections that the pool has are open until their call is over, and then closed. -/
structure Closings (process : ServerProcess) : Prop where
  finished : ∀ (call : ℕ) param, process.params[call]? = some param →
    (param.2 ∈ process.closed ↔ Over process.pool process.running call)
  handed : ∀ connection ∈ process.closed, connection ∈ process.handed
  once : process.closed.Nodup
  own : ∀ closing ∈ process.closings, closing.2 = some closing.1
  opened : ∀ param ∈ process.params, param.2 ∉ process.closed → process.owner param.1 = some param.2

/-- Every connection is watched, or was given to the pool once. -/
structure Inv (process : ServerProcess) : Prop where
  calls : process.Calls
  watching : process.Watching
  closings : process.Closings
  accepted : ∀ connection ∈ process.handed, connection < process.dispatch.accepted
  once : process.handed.Nodup
  everyone : ∀ connection < process.dispatch.accepted, connection ∈ process.handed ∨
    connection ∈ process.dispatch.watched.map Prod.fst

theorem inv_start (numThreads : ℕ) (threadId : ℕ → UInt64) : (start numThreads threadId).Inv where
  calls := ⟨⟨_, LibevThreadPool.inv_start numThreads threadId⟩, rfl, fun _ _ some => by contradiction,
    fun _ _ executing => by contradiction⟩
  watching := ⟨⟨List.nodup_nil, fun _ member => by contradiction⟩, List.nodup_nil,
    fun _ member => by contradiction⟩
  closings := ⟨fun _ _ found => by simp [start] at found, fun _ member => by contradiction,
    List.nodup_nil, fun _ member => by contradiction, fun _ member => by contradiction⟩
  accepted _ member := by contradiction
  once := List.nodup_nil
  everyone _ bound := by contradiction

/-- A call that a worker began or made was dispatched to it. -/
theorem Calls.dispatched (calls : process.Calls) {thread call : ℕ}
    (made : call ∈ (process.pool.libevThreads thread).executed) :
    ∃ dispatch, process.pool.calls[call]? = some dispatch ∧ dispatch.target? = some thread := by
  obtain ⟨place, inv⟩ := calls.pool
  apply (inv.queued thread call).mp
  rw [(inv.workers thread).log]
  exact List.mem_append_left _ made

/-! ## The event loop -/

/-- A descriptor that was not open is given to a connection, and no other one changes its owner. -/
theorem owner_kept {cfd fd : Int32} {connection other : ℕ} (unused : process.owner cfd = none)
    (owned : process.owner fd = some connection) :
    Function.update process.owner cfd (some other) fd = some connection := by
  rw [Function.update_of_ne, owned]
  rintro rfl
  cases unused.symm.trans owned

theorem acceptCb_spec {cfd : Int32} (success : process.acceptCb cfd = some next) :
    process.owner cfd = none ∧ ∃ dispatch, process.dispatch.watch cfd = some dispatch ∧
      next = { process with
        dispatch
        owner := Function.update process.owner cfd (some process.dispatch.accepted) } := by
  rw [ServerProcess.acceptCb] at success
  split at success
  · next unused =>
    obtain ⟨dispatch, watching, rfl⟩ := Option.map_eq_some_iff.mp success
    exact ⟨unused.2, dispatch, watching, rfl⟩
  · contradiction

/-- An accepted connection is not given an item whose watcher is started. -/
def HandsOutIdle (process : ServerProcess) : Action → Prop
  | .acceptCb _ => ¬ process.dispatch.Started process.dispatch.newEio.1
  | .processCb _ | .pool _ | .execute _ | .complete _ _ _ => True

instance (process : ServerProcess) : (action : Action) → Decidable (process.HandsOutIdle action)
  | .acceptCb _ => inferInstanceAs (Decidable (¬ process.dispatch.Started process.dispatch.newEio.1))
  | .processCb _ | .pool _ | .execute _ | .complete _ _ _ => .isTrue trivial

theorem Inv.watching_acceptCb {cfd : Int32} (inv : process.Inv)
    (idle : process.HandsOutIdle (.acceptCb cfd)) (success : process.acceptCb cfd = some next) :
    next.Watching := by
  obtain ⟨unused, dispatch, accepting, rfl⟩ := acceptCb_spec success
  obtain ⟨_, _, accepted, _⟩ := DispatchThread.watch_spec accepting
  obtain ⟨listed, watched⟩ := inv.watching.listed.watch idle accepting
  refine ⟨listed, ?_, ?_⟩
  · rw [watched, List.map_append]
    refine List.nodup_append.mpr ⟨inv.watching.apart, List.nodup_singleton _, ?_⟩
    rintro connection old _ new rfl
    obtain ⟨watcher, member, same⟩ := List.mem_map.mp old
    have bound := (inv.watching.opened watcher member).1
    rw [same, List.mem_singleton.mp new] at bound
    exact Nat.lt_irrefl _ bound
  · intro watcher member
    dsimp only at member ⊢
    rw [accepted]
    rw [watched] at member
    rcases List.mem_append.mp member with old | new
    · obtain ⟨bound, waits, owned⟩ := inv.watching.opened watcher old
      exact ⟨Nat.lt_succ_of_lt bound, waits, owner_kept unused owned⟩
    · rw [List.mem_singleton.mp new]
      refine ⟨Nat.lt_succ_self _, fun given => ?_, Function.update_self ..⟩
      exact Nat.lt_irrefl _ (inv.accepted _ given)

theorem Inv.acceptCb {cfd : Int32} (inv : process.Inv) (idle : process.HandsOutIdle (.acceptCb cfd))
    (success : process.acceptCb cfd = some next) : next.Inv := by
  have watching := inv.watching_acceptCb idle success
  obtain ⟨unused, dispatch, accepting, rfl⟩ := acceptCb_spec success
  obtain ⟨_, _, accepted, _⟩ := DispatchThread.watch_spec accepting
  obtain ⟨_, watched⟩ := inv.watching.listed.watch idle accepting
  have closings := inv.closings
  refine ⟨⟨inv.calls.pool, inv.calls.length, inv.calls.running, inv.calls.busy⟩, watching,
    ⟨closings.finished, closings.handed, closings.once, closings.own, ?_⟩, ?_, inv.once, ?_⟩
  · intro param member waits
    exact owner_kept unused (closings.opened param member waits)
  · intro connection member
    dsimp only
    rw [accepted]
    exact Nat.lt_succ_of_lt (inv.accepted connection member)
  · intro connection bound
    dsimp only at bound ⊢
    rw [accepted] at bound
    rw [watched, List.map_append, List.mem_append]
    rcases Nat.lt_succ_iff_lt_or_eq.mp bound with before | rfl
    · exact (inv.everyone connection before).imp_right .inl
    · exact .inr (.inr List.mem_cons_self)

theorem processCb_spec {item : ℕ} (success : process.processCb item = some next) :
    ∃ dispatch, process.dispatch.processCb item = some dispatch ∧
      next = { process with
        dispatch
        pool := { process.pool with calls := process.pool.calls ++ [.starting] }
        params := process.params ++ [(process.dispatch.eio item).swap] } := by
  obtain ⟨dispatch, processing, success⟩ := Option.bind_eq_some_iff.mp success
  obtain ⟨pool, dispatching, rfl⟩ := Option.map_eq_some_iff.mp success
  cases dispatching
  exact ⟨dispatch, processing, rfl⟩

/-- The connections of the pool after one more was given to it. -/
theorem mem_handed_append {params : List (Int32 × ℕ)} {watcher : ℕ × Int32} {number : ℕ} :
    number ∈ (params ++ [watcher.swap]).map Prod.snd ↔
      number ∈ params.map Prod.snd ∨ number = watcher.1 := by
  rw [List.map_append, List.mem_append, List.map_singleton, List.mem_singleton]
  rfl

theorem Inv.watching_processCb {item : ℕ} (inv : process.Inv)
    (success : process.processCb item = some next) : next.Watching := by
  obtain ⟨dispatch, processing, rfl⟩ := processCb_spec success
  obtain ⟨listed, accepted, moved⟩ := inv.watching.listed.processCb processing
  have apart := (moved.map Prod.fst).nodup_iff.mp inv.watching.apart
  rw [List.map_cons, List.nodup_cons] at apart
  refine ⟨listed, apart.2, fun watcher member => ?_⟩
  obtain ⟨bound, waits, owned⟩ := inv.watching.opened watcher (moved.mem_iff.mpr (.tail _ member))
  refine ⟨bound.trans_eq accepted.symm, ?_, owned⟩
  refine mem_handed_append.not.mpr (not_or.mpr ⟨waits, fun same => apart.1 ?_⟩)
  rw [← same]
  exact List.mem_map_of_mem member

/-- The parameters of a call are those it had, or of the connection that was just given to the pool. -/
theorem Calls.lookup (calls : process.Calls) {last : Int32 × ℕ} {call : ℕ} {param : Int32 × ℕ}
    (found : (process.params ++ [last])[call]? = some param) :
    process.params[call]? = some param ∧ call < process.pool.calls.length ∨
      call = process.pool.calls.length ∧ param = last := by
  rw [← calls.length]
  rcases Nat.lt_trichotomy call process.params.length with inside | rfl | outside
  · rw [List.getElem?_append_left inside] at found
    exact .inl ⟨found, inside⟩
  · rw [List.getElem?_concat_length] at found
    exact .inr ⟨rfl, (Option.some_injective _ found).symm⟩
  · rw [List.getElem?_eq_none (by rw [List.length_append, List.length_singleton]; omega)] at found
    contradiction

theorem Inv.closings_processCb {item : ℕ} (inv : process.Inv)
    (success : process.processCb item = some next) : next.Closings := by
  obtain ⟨dispatch, processing, rfl⟩ := processCb_spec success
  obtain ⟨_, _, moved⟩ := inv.watching.listed.processCb processing
  obtain ⟨_, waits, owned⟩ := inv.watching.opened _ (moved.mem_iff.mpr List.mem_cons_self)
  refine ⟨?_, ?_, inv.closings.once, inv.closings.own, ?_⟩
  · intro call param found
    rcases inv.calls.lookup found with ⟨before, small⟩ | ⟨rfl, rfl⟩
    · have same : (process.pool.calls ++ [Dispatch.starting])[call]? = process.pool.calls[call]? :=
        List.getElem?_append_left small
      refine (inv.closings.finished call param before).trans ?_
      rw [Over, Over, same]
    · refine iff_of_false (fun member => waits (inv.closings.handed _ member)) ?_
      rintro (failed | ⟨thread, made, _⟩)
      · rw [List.getElem?_concat_length] at failed
        contradiction
      · obtain ⟨_, found, _⟩ := inv.calls.dispatched made
        rw [List.getElem?_eq_none le_rfl] at found
        contradiction
  · intro number member
    exact mem_handed_append.mpr (.inl (inv.closings.handed number member))
  · intro param member open_
    rcases List.mem_append.mp member with before | last
    · exact inv.closings.opened param before open_
    · rw [List.mem_singleton.mp last]
      exact owned

theorem Inv.processCb {item : ℕ} (inv : process.Inv) (success : process.processCb item = some next) :
    next.Inv := by
  have watching := inv.watching_processCb success
  have closings := inv.closings_processCb success
  obtain ⟨dispatch, processing, rfl⟩ := processCb_spec success
  obtain ⟨_, accepted, moved⟩ := inv.watching.listed.processCb processing
  obtain ⟨bound, waits, _⟩ := inv.watching.opened _ (moved.mem_iff.mpr List.mem_cons_self)
  obtain ⟨place, poolInv⟩ := inv.calls.pool
  have poolNext := inv_step poolInv (show process.pool.step .dispatchRpcCall = some _ from rfl)
  refine ⟨⟨poolNext, ?_, inv.calls.running, inv.calls.busy⟩, watching, closings, ?_, ?_, ?_⟩
  · rw [List.length_append, List.length_append, inv.calls.length]
    rfl
  · intro number member
    dsimp only
    rw [accepted]
    rcases mem_handed_append.mp member with given | rfl
    · exact inv.accepted number given
    · exact bound
  · rw [handed, List.map_append, List.map_singleton]
    refine List.nodup_append.mpr ⟨inv.once, List.nodup_singleton _, ?_⟩
    intro number given last member
    rw [List.mem_singleton.mp member]
    rintro rfl
    exact waits given
  · intro number small
    dsimp only at small ⊢
    rw [accepted] at small
    rw [ServerProcess.handed, mem_handed_append, or_assoc]
    refine (inv.everyone number small).imp_right fun watched => ?_
    have taken := (moved.map Prod.fst).mem_iff.mp watched
    rwa [List.map_cons, List.mem_cons] at taken

/-! ## The pool -/

/-- A step of the pool that makes and ends no call. -/
theorem Inv.internal {pool : LibevThreadPool} (inv : process.Inv) (poolInv : ∃ place, pool.Inv place)
    (internal : Internal process.pool pool) : ({ process with pool } : ServerProcess).Inv := by
  have finished (call : ℕ) : Over pool process.running call ↔ Over process.pool process.running call := by
    rw [Over, Over, internal.failed]
    simp only [internal.executed]
  refine ⟨⟨poolInv, inv.calls.length.trans internal.length.symm, ?_, ?_⟩,
    ⟨inv.watching.listed, inv.watching.apart, inv.watching.opened⟩, ⟨?_, inv.closings.handed,
      inv.closings.once, inv.closings.own, inv.closings.opened⟩, inv.accepted, inv.once, inv.everyone⟩
  · intro thread call running
    obtain ⟨item, before, executing, made⟩ := inv.calls.running thread call running
    exact ⟨item, before, (internal.executing thread item).mpr executing,
      (internal.executed thread).trans made⟩
  · intro thread item executing
    exact inv.calls.busy thread item ((internal.executing thread item).mp executing)
  · intro call param found
    exact (inv.closings.finished call param found).trans (finished call).symm

/-- A call that was not over ends with the close of its connection. -/
theorem Inv.close {pool : LibevThreadPool} {running : ℕ → Option ℕ} {call : ℕ} {param : Int32 × ℕ}
    (inv : process.Inv) (found : process.params[call]? = some param)
    (calls : ({ process with pool, running } : ServerProcess).Calls)
    (pending : ¬ Over process.pool process.running call)
    (finished : ∀ other, Over pool running other ↔ Over process.pool process.running other ∨ other = call) :
    (({ process with pool, running } : ServerProcess).close param.2 param.1).Inv := by
  have member := List.mem_of_getElem? found
  have given : param.2 ∈ process.handed := List.mem_map_of_mem member
  have unclosed : param.2 ∉ process.closed := (inv.closings.finished call param found).not.mpr pending
  have owned := inv.closings.opened param member unclosed
  have closed : (({ process with pool, running } : ServerProcess).close param.2 param.1).closed =
      process.closed ++ [param.2] := List.map_append
  refine ⟨⟨calls.pool, calls.length, calls.running, calls.busy⟩, ⟨inv.watching.listed,
    inv.watching.apart, ?_⟩, ⟨?_, ?_, ?_, ?_, ?_⟩, inv.accepted, inv.once, inv.everyone⟩
  · intro watcher watched
    obtain ⟨bound, waits, owner⟩ := inv.watching.opened watcher watched
    refine ⟨bound, waits, ?_⟩
    change Function.update process.owner param.1 none watcher.2 = _
    rw [Function.update_of_ne, owner]
    intro same
    rw [same] at owner
    rw [Option.some_injective _ (owner.symm.trans owned)] at waits
    exact waits given
  · intro other otherParam otherFound
    have same : otherParam.2 = param.2 ↔ other = call := by
      constructor
      · intro same
        have bound : other < process.handed.length := by
          rw [handed, List.length_map]
          exact (List.getElem?_eq_some_iff.mp otherFound).1
        apply (List.getElem?_inj bound inv.once).mp
        change process.params[other]? = _ at otherFound
        rw [handed, List.getElem?_map, List.getElem?_map, otherFound, found]
        exact congrArg some same
      · rintro rfl
        cases found.symm.trans otherFound
        rfl
    rw [closed, List.mem_append, List.mem_singleton, same, inv.closings.finished other otherParam otherFound]
    exact (finished other).symm
  · intro connection ended
    rw [closed] at ended
    rcases List.mem_append.mp ended with before | last
    · exact inv.closings.handed connection before
    · rw [List.mem_singleton.mp last]
      exact given
  · rw [closed]
    refine List.nodup_append.mpr ⟨inv.closings.once, List.nodup_singleton _, ?_⟩
    intro connection before last ended
    rw [List.mem_singleton.mp ended]
    rintro rfl
    exact unclosed before
  · intro closing ended
    rcases List.mem_append.mp ended with before | last
    · exact inv.closings.own closing before
    · rw [List.mem_singleton.mp last]
      exact owned
  · intro otherParam otherMember open_
    rw [closed, List.mem_append, List.mem_singleton, not_or] at open_
    have owner := inv.closings.opened otherParam otherMember open_.1
    change Function.update process.owner param.1 none otherParam.1 = _
    rw [Function.update_of_ne, owner]
    intro same
    rw [same] at owner
    exact open_.2 (Option.some_injective _ (owner.symm.trans owned))

theorem Inv.poolStep {action : LibevThreadPool.Action} (inv : process.Inv)
    (success : process.poolStep action = some next) : next.Inv := by
  obtain ⟨place, poolInv⟩ := inv.calls.pool
  by_cases external : action.External
  · cases action with
    | malloc call allocates =>
      cases allocates with
      | true => contradiction
      | false =>
        obtain ⟨param, found, success⟩ := Option.bind_eq_some_iff.mp success
        obtain ⟨pool, failing, rfl⟩ := Option.map_eq_some_iff.mp success
        have poolNext := inv_step poolInv failing
        cases stepped_of_step failing with
        | malloc mallocing =>
          have lookup := getElem?_setCall mallocing .failed
          refine inv.close found ⟨poolNext, ?_, inv.calls.running, inv.calls.busy⟩ ?_ fun other => ?_
          · exact inv.calls.length.trans (List.length_set ..).symm
          · rintro (failed | ⟨thread, made, _⟩)
            · rw [mallocing] at failed
              contradiction
            · obtain ⟨dispatch, same, target⟩ := inv.calls.dispatched made
              cases mallocing.symm.trans same
              contradiction
          · change (process.pool.setCall call .failed).calls[other]? = _ ∨ _ ↔ _
            rw [lookup, Over]
            by_cases same : other = call
            · rw [if_pos same]
              exact iff_of_true (.inl rfl) (.inr same)
            · rw [if_neg same, or_iff_left same]
              rfl
    | dispatchRpcCall | execute thread | complete thread => contradiction
    | rqItemNew _ | pick _ | store _ | rqItemPush _ | write _ | read _ | rqItemPop _ | rqItemFree _ =>
      contradiction
  · have success : (process.pool.step action).map (fun pool => { process with pool }) = some next := by
      cases action with
      | malloc call allocates =>
        cases allocates with
        | true => exact success
        | false => exact absurd trivial external
      | dispatchRpcCall | execute thread | complete thread => exact absurd trivial external
      | rqItemNew _ | pick _ | store _ | rqItemPush _ | write _ | read _ | rqItemPop _ | rqItemFree _ =>
        exact success
    obtain ⟨pool, stepped, rfl⟩ := Option.map_eq_some_iff.mp success
    exact inv.internal (inv_step poolInv stepped) (internal_step external stepped)

/-! ## The workers -/

/-- A worker goes on to a call, or to none. -/
theorem Calls.setThread (calls : process.Calls) {thread : ℕ} {state : LibevThread} (value : Option ℕ)
    (poolInv : ∃ place, (process.pool.setThread thread state).Inv place)
    (running : ∀ call, value = some call → ∃ item before, state.phase = .executing item ∧
      state.executed = before ++ [call])
    (busy : ∀ item, state.phase = .executing item → value ≠ none) :
    ({ process with
        pool := process.pool.setThread thread state
        running := Function.update process.running thread value } : ServerProcess).Calls := by
  refine ⟨poolInv, calls.length, ?_, ?_⟩
  · intro other call runs
    dsimp only at runs ⊢
    rcases eq_or_ne other thread with rfl | differ
    · rw [Function.update_self] at runs
      rw [setThread_self]
      exact running call runs
    · rw [Function.update_of_ne differ] at runs
      rw [setThread_ne differ]
      exact calls.running other call runs
  · intro other item executing
    dsimp only at executing ⊢
    rcases eq_or_ne other thread with rfl | differ
    · rw [setThread_self] at executing
      rw [Function.update_self]
      exact busy item executing
    · rw [setThread_ne differ] at executing
      rw [Function.update_of_ne differ]
      exact calls.busy other item executing

/-- The calls that are over, by what one worker has made and what the others have. -/
theorem over_iff (pool : LibevThreadPool) (running : ℕ → Option ℕ) (thread call : ℕ) :
    Over pool running call ↔ pool.calls[call]? = some .failed ∨
      (call ∈ (pool.libevThreads thread).executed ∧ running thread ≠ some call) ∨
        ∃ other, other ≠ thread ∧ call ∈ (pool.libevThreads other).executed ∧
          running other ≠ some call := by
  apply or_congr Iff.rfl
  constructor
  · rintro ⟨other, made, ended⟩
    rcases eq_or_ne other thread with rfl | differ
    · exact .inl ⟨made, ended⟩
    · exact .inr ⟨other, differ, made, ended⟩
  · rintro (ended | ⟨other, _, ended⟩)
    · exact ⟨thread, ended⟩
    · exact ⟨other, ended⟩

theorem over_setThread {pool : LibevThreadPool} {running : ℕ → Option ℕ} {call thread : ℕ}
    {state : LibevThread} {value : Option ℕ} :
    Over (pool.setThread thread state) (Function.update running thread value) call ↔
      pool.calls[call]? = some .failed ∨ (call ∈ state.executed ∧ value ≠ some call) ∨
        ∃ other, other ≠ thread ∧ call ∈ (pool.libevThreads other).executed ∧
          running other ≠ some call := by
  rw [over_iff _ _ thread, setThread_self, Function.update_self]
  apply or_congr Iff.rfl
  apply or_congr Iff.rfl
  apply exists_congr
  intro other
  apply and_congr_right
  intro differ
  rw [setThread_ne differ, Function.update_of_ne differ]

theorem Inv.execute {thread : ℕ} (inv : process.Inv) (success : process.execute thread = some next) :
    next.Inv := by
  rw [ServerProcess.execute] at success
  split at success
  case h_2 => contradiction
  case h_1 item popped =>
  obtain ⟨pool, executing, rfl⟩ := Option.map_eq_some_iff.mp success
  obtain ⟨place, poolInv⟩ := inv.calls.pool
  have poolNext := inv_step poolInv executing
  rw [LibevThreadPool.step, popped] at executing
  cases executing
  have idle (call : ℕ) : process.running thread ≠ some call := by
    intro running
    obtain ⟨_, _, phase, _⟩ := inv.calls.running thread call running
    cases popped.symm.trans phase
  have fresh : process.pool.param item ∉ (process.pool.libevThreads thread).executed := by
    have nodup := poolInv.queuedNodup thread
    rw [(poolInv.workers thread).log, popped] at nodup
    intro made
    exact List.disjoint_of_nodup_append nodup made List.mem_cons_self
  have calls := inv.calls.setThread (some (process.pool.param item)) poolNext
    (fun call same => ⟨item, _, rfl, congrArg (_ ++ [·]) (Option.some_injective _ same)⟩)
    fun _ _ => Option.some_ne_none _
  -- the call that the worker begins is in its log and not over
  have finished (call : ℕ) : Over (process.pool.execute thread item)
      (Function.update process.running thread (some (process.pool.param item))) call ↔
        Over process.pool process.running call := by
    rw [over_iff process.pool _ thread]
    refine over_setThread.trans (or_congr Iff.rfl (or_congr ?_ Iff.rfl))
    rw [List.mem_append, List.mem_singleton]
    constructor
    · rintro ⟨made | rfl, ended⟩
      · exact ⟨made, idle call⟩
      · contradiction
    · rintro ⟨made, _⟩
      refine ⟨.inl made, fun same => fresh ?_⟩
      rw [Option.some_injective _ same]
      exact made
  exact ⟨calls, ⟨inv.watching.listed, inv.watching.apart, inv.watching.opened⟩,
    ⟨fun call param found => (inv.closings.finished call param found).trans (finished call).symm,
      inv.closings.handed, inv.closings.once, inv.closings.own, inv.closings.opened⟩,
    inv.accepted, inv.once, inv.everyone⟩

/-- `RpcProcessor` closes its descriptor, unless it ends the process. -/
theorem closedFds_rpcProcessor {send : ℕ → Bool} {eventFd : Int32} {events : List RecvEvent}
    {actions : List (ServerAction Service Method Message)}
    (success : rpcProcessor runtime server send eventFd events = some actions)
    (alive : ¬ actions.any ServerAction.crashes) :
    actions.flatMap ServerAction.closedFds = [eventFd] := by
  rcases rpcProcessor_cases success with rfl | rfl
  · exact absurd rfl alive
  · rfl

theorem Inv.complete {thread : ℕ} {events : List RecvEvent} {send : ℕ → Bool} (inv : process.Inv)
    (success : complete runtime server process thread events send = some next) : next.Inv := by
  obtain ⟨call, running, success⟩ := Option.bind_eq_some_iff.mp success
  obtain ⟨param, found, success⟩ := Option.bind_eq_some_iff.mp success
  obtain ⟨actions, processed, success⟩ := Option.bind_eq_some_iff.mp success
  split at success
  case isTrue => contradiction
  case isFalse alive =>
  obtain ⟨pool, completing, rfl⟩ := Option.map_eq_some_iff.mp success
  rw [closedFds_rpcProcessor processed alive, List.foldl_cons, List.foldl_nil]
  obtain ⟨item, before, executing, made⟩ := inv.calls.running thread call running
  obtain ⟨place, poolInv⟩ := inv.calls.pool
  have poolNext := inv_step poolInv completing
  rw [LibevThreadPool.step, executing] at completing
  cases completing
  have last : call ∈ (process.pool.libevThreads thread).executed := by
    rw [made]
    exact List.mem_append_right _ (List.mem_singleton_self _)
  have calls := inv.calls.setThread none poolNext (fun _ some => by contradiction)
    fun _ executing => by contradiction
  refine inv.close found calls ?_ fun number => ?_
  · rintro (failed | ⟨other, again, ended⟩)
    · obtain ⟨dispatch, same, target⟩ := inv.calls.dispatched last
      cases failed.symm.trans same
      contradiction
    · have queued : call ∈ (process.pool.libevThreads thread).queued := by
        rw [(poolInv.workers thread).log]
        exact List.mem_append_left _ last
      rw [poolInv.thread_unique again queued] at ended
      exact ended running
  · rw [over_iff process.pool _ thread, running, or_assoc, or_right_comm]
    refine over_setThread.trans (or_congr Iff.rfl (or_congr ?_ Iff.rfl))
    constructor
    · rintro ⟨again, _⟩
      rcases eq_or_ne call number with same | different
      · exact .inr same.symm
      · exact .inl ⟨again, (Option.some_injective _).ne different⟩
    · rintro (⟨again, _⟩ | rfl)
      · exact ⟨again, (Option.some_ne_none _).symm⟩
      · exact ⟨last, (Option.some_ne_none _).symm⟩

/-! ## Runs -/

theorem Inv.step {action : Action} (inv : process.Inv) (idle : process.HandsOutIdle action)
    (success : step runtime server process action = some next) : next.Inv := by
  cases action with
  | acceptCb cfd => exact inv.acceptCb idle success
  | processCb item => exact inv.processCb success
  | pool action => exact inv.poolStep success
  | execute thread => exact inv.execute success
  | complete thread events send => exact inv.complete success

/-- No watcher is started, every dispatch has returned, and every worker waits with nothing to read. -/
structure AtRest (process : ServerProcess) : Prop where
  unwatched : process.dispatch.anfds = []
  returned : ∀ dispatch ∈ process.pool.calls, dispatch = .failed ∨ ∃ thread, dispatch = .returned thread
  waiting : ∀ thread, (process.pool.libevThreads thread).phase = .waiting
  unnotified : ∀ thread, (process.pool.libevThreads thread).notified = 0

/-- At rest every call is over. -/
theorem Inv.over_of_atRest (inv : process.Inv) (rest : process.AtRest) {call : ℕ}
    (bound : call < process.pool.calls.length) : Over process.pool process.running call := by
  have found := List.getElem?_eq_getElem bound
  rcases rest.returned _ (List.getElem_mem bound) with failed | ⟨thread, returned⟩
  · rw [failed] at found
    exact .inl found
  · rw [returned] at found
    obtain ⟨place, poolInv⟩ := inv.calls.pool
    have unwritten : process.pool.unwritten thread = 0 := by
      rw [LibevThreadPool.unwritten, List.count_eq_zero]
      intro member
      rcases rest.returned _ member with same | ⟨_, same⟩
      · contradiction
      · contradiction
    have count := (poolInv.workers thread).count
    rw [rest.unnotified, unwritten, rest.waiting, if_neg (by simp)] at count
    have queued : call ∈ (process.pool.libevThreads thread).queued :=
      (poolInv.queued thread call).mpr ⟨_, found, rfl⟩
    rw [(poolInv.workers thread).log, rest.waiting, List.eq_nil_of_length_eq_zero count] at queued
    refine .inr ⟨thread, by simpa [WorkerPhase.toMake] using queued, fun running => ?_⟩
    obtain ⟨item, _, executing, _⟩ := inv.calls.running thread call running
    rw [rest.waiting] at executing
    contradiction

def echoServer : RpcServer (List Bytes) Bytes Bytes :=
  ⟨registeServices echoRuntime [[echoFaqcfe]], false, false⟩

/-- A connection for which there is no item, and one that gets its descriptor and is made. -/
def reusedDescriptor : List Action :=
  [.acceptCb 5, .processCb 0, .pool (.rqItemNew 0), .pool (.malloc 0 false), .acceptCb 5, .processCb 0,
    .pool (.rqItemNew 1), .pool (.malloc 1 true), .pool (.pick 1), .pool (.store 1),
    .pool (.rqItemPush 1), .pool (.write 1), .pool (.read 0), .pool (.rqItemPop 0), .execute 0,
    .complete 0 [.eof] allSent, .pool (.rqItemFree 0)]

private theorem reusedDescriptor_done :
    (reusedDescriptor.foldlM (Run.guarded (step echoRuntime echoServer) HandsOutIdle)
      (start 1 fun _ => 101)).isSome := by
  decide +kernel

/-- The connection accepted second is called back first, and the next one gets the item of the first:
it is closed twice, and the first connection never. -/
example :
    ([.acceptCb 5, .acceptCb 6, .processCb 1, .pool (.rqItemNew 0), .pool (.malloc 0 false),
        .acceptCb 6, .processCb 0, .pool (.rqItemNew 1), .pool (.malloc 1 false), .processCb 0,
        .pool (.rqItemNew 2), .pool (.malloc 2 false)].foldlM (step echoRuntime echoServer)
      (start 1 fun _ => 101)).map closings = some [(1, some 1), (2, some 2), (2, none)] := by
  decide +kernel

end ServerProcess

end LibEvRpc
