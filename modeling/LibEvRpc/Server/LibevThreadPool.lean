import LibEvRpc.ToMathlib.Run
import Mathlib.Logic.Function.Basic

/-! # The pool of worker threads

`DispatchRpcCall` puts a call into the queue of the next worker and writes a `c` to its pipe; the
event loop of the worker reads the `c`, pops the call and makes it. Calls are dispatched from any
number of threads, and every access to something shared is a step of its own: a locked block, a read
or a write of `current_thread_`, of a pipe, of a version. Items are allocated 64 at a time and
numbered in the order of their addresses, and calls are numbered in the order in which their dispatch
begins. `pthread_create` succeeds.
-/

namespace LibEvRpc

abbrev itemPerAlloc : ℕ := 64

/-- Where `LibevProcessor` of a worker is. A popped item is null if the queue was empty. -/
inductive WorkerPhase where
  | waiting
  | woken
  | popped (item : Option ℕ)
  | executing (item : ℕ)
  | freeing (item : ℕ)
deriving DecidableEq

/-- `LIBEV_THREAD`, with the unread bytes of its pipe, the calls that were pushed to its queue and
those that it made. -/
structure LibevThread where
  threadId : UInt64
  runningVersion : Int64
  newRequestQueue : List ℕ
  notified : ℕ
  phase : WorkerPhase
  queued : List ℕ
  executed : List ℕ

/-- Where a `DispatchRpcCall` is. -/
inductive Dispatch where
  | starting
  | mallocing
  | holding (item : ℕ)
  | picked (item : ℕ) (thread : ℕ)
  | stored (item : ℕ) (thread : ℕ)
  | pushed (thread : ℕ)
  | returned (thread : ℕ)
  | failed
deriving DecidableEq

/-- `LibevThreadPool`, with the call in every item and the calls that are dispatched. -/
structure LibevThreadPool where
  numThreads : ℕ
  currentThread : Int
  libevThreads : ℕ → LibevThread
  rqiFreelist : List ℕ
  allocated : ℕ
  param : ℕ → ℕ
  calls : List Dispatch

namespace LibevThreadPool

/-- The constructor and `Start`, with the ids that the system gives to the threads. -/
def start (numThreads : ℕ) (threadId : ℕ → UInt64) : LibevThreadPool where
  numThreads
  currentThread := -1
  libevThreads thread := ⟨threadId thread, 0, [], 0, .waiting, [], []⟩
  rqiFreelist := []
  allocated := 0
  param _ := 0
  calls := []

/-! ## Dispatch and execution -/

/-- A step of one thread of a process with a pool. -/
inductive Action where
  | dispatchRpcCall
  | rqItemNew (call : ℕ)
  | malloc (call : ℕ) (success : Bool)
  | pick (call : ℕ)
  | store (call : ℕ)
  | rqItemPush (call : ℕ)
  | write (call : ℕ)
  | read (thread : ℕ)
  | rqItemPop (thread : ℕ)
  | execute (thread : ℕ)
  | complete (thread : ℕ)
  | rqItemFree (thread : ℕ)
deriving DecidableEq

def setCall (pool : LibevThreadPool) (call : ℕ) (dispatch : Dispatch) : LibevThreadPool :=
  { pool with calls := pool.calls.set call dispatch }

def setThread (pool : LibevThreadPool) (thread : ℕ) (state : LibevThread) : LibevThreadPool :=
  { pool with libevThreads := Function.update pool.libevThreads thread state }

@[simp] theorem setThread_self (pool : LibevThreadPool) (thread : ℕ) (state : LibevThread) :
    (pool.setThread thread state).libevThreads thread = state := Function.update_self ..

theorem setThread_ne {pool : LibevThreadPool} {thread other : ℕ} (differ : other ≠ thread)
    (state : LibevThread) : (pool.setThread thread state).libevThreads other = pool.libevThreads other :=
  Function.update_of_ne differ ..

/-- The first locked block of `RQItemNew`. -/
def rqItemNew (pool : LibevThreadPool) (call : ℕ) : LibevThreadPool :=
  match pool.rqiFreelist with
  | item :: rest => { pool with rqiFreelist := rest }.setCall call (.holding item)
  | [] => pool.setCall call .mallocing

/-- The rest of `RQItemNew`: the first new item is taken, the others go to the front of the free
list. The loop also writes in front of the first item, which is no part of an item. -/
def malloc (pool : LibevThreadPool) (call : ℕ) (success : Bool) : LibevThreadPool :=
  if success then
    { pool with
      allocated := pool.allocated + itemPerAlloc
      rqiFreelist := List.range' (pool.allocated + 1) (itemPerAlloc - 1) ++ pool.rqiFreelist }.setCall
        call (.holding pool.allocated)
  else pool.setCall call .failed

def rqItemPush (pool : LibevThreadPool) (call item thread : ℕ) : LibevThreadPool :=
  let state := pool.libevThreads thread
  (pool.setThread thread { state with
    newRequestQueue := state.newRequestQueue ++ [item], queued := state.queued ++ [call] }).setCall
      call (.pushed thread)

/-- The write to the pipe of a worker. -/
def write (pool : LibevThreadPool) (call thread : ℕ) : LibevThreadPool :=
  let state := pool.libevThreads thread
  (pool.setThread thread { state with notified := state.notified + 1 }).setCall call (.returned thread)

def rqItemPop (pool : LibevThreadPool) (thread : ℕ) : LibevThreadPool :=
  let state := pool.libevThreads thread
  pool.setThread thread { state with
    newRequestQueue := state.newRequestQueue.tail, phase := .popped state.newRequestQueue.head? }

/-- The call of the processor of an item. -/
def execute (pool : LibevThreadPool) (thread item : ℕ) : LibevThreadPool :=
  let state := pool.libevThreads thread
  pool.setThread thread { state with
    phase := .executing item, executed := state.executed ++ [pool.param item] }

/-- The increase of `running_version`. -/
def complete (pool : LibevThreadPool) (thread item : ℕ) : LibevThreadPool :=
  let state := pool.libevThreads thread
  pool.setThread thread { state with
    phase := .freeing item, runningVersion := state.runningVersion + 1 }

def rqItemFree (pool : LibevThreadPool) (thread item : ℕ) : LibevThreadPool :=
  { pool with rqiFreelist := item :: pool.rqiFreelist }.setThread thread
    { pool.libevThreads thread with phase := .waiting }

/-- The pool behind a step. A call through a null item and a remainder by zero have no result. -/
def step (pool : LibevThreadPool) : Action → Option LibevThreadPool
  | .dispatchRpcCall => some { pool with calls := pool.calls ++ [.starting] }
  | .rqItemNew call =>
      match pool.calls[call]? with
      | some .starting => some (pool.rqItemNew call)
      | _ => none
  | .malloc call success =>
      match pool.calls[call]? with
      | some .mallocing => some (pool.malloc call success)
      | _ => none
  | .pick call =>
      match pool.calls[call]? with
      | some (.holding item) =>
          if pool.numThreads = 0 then none
          else
            let curTid := ((pool.currentThread + 1) % pool.numThreads).toNat
            some (pool.setCall call (.picked item curTid))
      | _ => none
  | .store call =>
      match pool.calls[call]? with
      | some (.picked item curTid) =>
          some ({ pool with
            currentThread := curTid
            param := Function.update pool.param item call }.setCall call (.stored item curTid))
      | _ => none
  | .rqItemPush call =>
      match pool.calls[call]? with
      | some (.stored item thread) => some (pool.rqItemPush call item thread)
      | _ => none
  | .write call =>
      match pool.calls[call]? with
      | some (.pushed thread) => some (pool.write call thread)
      | _ => none
  | .read thread =>
      let state := pool.libevThreads thread
      if state.phase = .waiting ∧ 0 < state.notified then
        some (pool.setThread thread { state with phase := .woken, notified := state.notified - 1 })
      else none
  | .rqItemPop thread =>
      if (pool.libevThreads thread).phase = .woken then some (pool.rqItemPop thread) else none
  | .execute thread =>
      match (pool.libevThreads thread).phase with
      | .popped (some item) => some (pool.execute thread item)
      | _ => none
  | .complete thread =>
      match (pool.libevThreads thread).phase with
      | .executing item => some (pool.complete thread item)
      | _ => none
  | .rqItemFree thread =>
      match (pool.libevThreads thread).phase with
      | .freeing item => some (pool.rqItemFree thread item)
      | _ => none

/-! ## Writes that fail -/

/-- A step of a process in which the write to a pipe can fail. -/
inductive PipeAction where
  | succeeds (action : Action)
  | writeFails (call : ℕ)
deriving DecidableEq

/-- The pool behind a step. `DispatchRpcCall` prints an error for a write that fails and returns true
all the same. -/
def pipeStep (pool : LibevThreadPool) : PipeAction → Option LibevThreadPool
  | .succeeds action => pool.step action
  | .writeFails call =>
      match pool.calls[call]? with
      | some (.pushed thread) => some (pool.setCall call (.returned thread))
      | _ => none

/-! ## Restarting a worker -/

/-- A pool behind `RestartThread`, with the worker that was replaced and the id that was cancelled. -/
structure Restarted where
  pool : LibevThreadPool
  replaced : Option (ℕ × UInt64)

/-- The search of `RestartThread`: without a worker of that id the index stays zero. -/
def restartIndex (pool : LibevThreadPool) (threadId : UInt64) : ℕ :=
  ((List.range pool.numThreads).find? fun i => (pool.libevThreads i).threadId = threadId).getD 0

/-- `RestartThread`, with the id of the new thread. A worker outside the array has no result. -/
def restartThread (pool : LibevThreadPool) (threadId : UInt64) (runningVersion : Int64)
    (created : UInt64) : Option Restarted :=
  let index := pool.restartIndex threadId
  if index < pool.numThreads then
    let curThread := pool.libevThreads index
    if curThread.runningVersion > runningVersion then some ⟨pool, none⟩
    else some ⟨pool.setThread index { curThread with threadId := created }, some (index, threadId)⟩
  else none

end LibevThreadPool

end LibEvRpc
