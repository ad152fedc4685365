import Mathlib.Tactic.Common

/-! # Threads

A `Thread` remembers whether it was started in a flag that the end of its `Run` does not clear.
What the system calls answer is a parameter, also for `pthread_kill` on the id of a thread that
was never created or has ended.
-/

namespace LibEvRpc

/-- The answers of the thread calls of the system. -/
structure Platform where
  createOk : Bool
  cancelOk : Bool
  killUnstarted : Bool
  killEnded : Bool
deriving DecidableEq

/-- What became of the thread behind `tid_`. -/
inductive Life where
  | unstarted
  | running
  | ended
deriving DecidableEq

structure Thread where
  threadRunning : Bool
  life : Life
deriving DecidableEq

namespace Thread

def new : Thread := ⟨false, .unstarted⟩

def start (platform : Platform) (thread : Thread) : Bool × Thread :=
  if thread.threadRunning then (true, thread)
  else if platform.createOk then (true, ⟨true, .running⟩)
  else (false, thread)

/-- Starting leaves the thread object as it is exactly when it was started or cannot be. -/
theorem start_snd_eq_self_iff {platform : Platform} {thread : Thread} :
    (thread.start platform).2 = thread ↔ thread.threadRunning ∨ ¬ platform.createOk := by
  obtain ⟨threadRunning, life⟩ := thread
  cases threadRunning with
  | true => simp [start]
  | false => cases created : platform.createOk <;> simp [start, created]

def isAlive (platform : Platform) (thread : Thread) : Bool :=
  match thread.life with
  | .running => true
  | .unstarted => platform.killUnstarted
  | .ended => platform.killEnded

/-- `Stop`, called from another thread. -/
def stop (platform : Platform) (thread : Thread) : Bool × Thread :=
  if !thread.isAlive platform || !thread.threadRunning then (true, thread)
  else if platform.cancelOk then (true, ⟨false, .ended⟩)
  else (false, thread)

/-- `Stop`, called by the thread itself, and whether the thread runs on behind it. The cancellation
takes effect at once, so the flag is not cleared. -/
def stopSelf (platform : Platform) (thread : Thread) : Bool × Thread :=
  if !thread.isAlive platform || !thread.threadRunning then (true, thread)
  else if platform.cancelOk then (false, { thread with life := .ended })
  else (true, thread)

/-! ## Actions on one thread object -/

/-- What happens to a thread object: `Start`, `Stop` by another thread, which reads whether
`pthread_kill` knows a thread that is not running, `Stop` by the thread itself, and the end of its
`Run`. -/
inductive Action where
  | start
  | stop (known : Bool)
  | stopSelf
  | finish
deriving DecidableEq

/-- A system that creates and cancels threads. -/
def succeeding (known : Bool) : Platform := ⟨true, true, known, known⟩

/-- One action; only a running thread stops itself or ends. -/
def step (thread : Thread) : Action → Option Thread
  | .start => some (thread.start (succeeding true)).2
  | .stop known => some (thread.stop (succeeding known)).2
  | .stopSelf => if thread.life = .running then some (thread.stopSelf (succeeding true)).2 else none
  | .finish => if thread.life = .running then some { thread with life := .ended } else none

end Thread

end LibEvRpc
