import LibEvRpc.ToMathlib.Run
import Mathlib.Logic.Function.Basic

/-! # Items for the watchers of connections

`DispatchThread` and `CenterServerThread` keep the watcher of a connection in an item. Items are
allocated four at a time; one is taken from the free list for an accepted connection and put at the
end of the use list, and the end of a callback moves the item at the front of the use list to the free
list. Items are numbered in the order of their addresses, connections in the order of acceptance.

The event loop keeps, for every descriptor, the watchers that were started for it, and calls back for
any of them. A watcher that is initialised while it is started is afterwards in the lists of both
descriptors, and `ev_io_stop` takes it out of that of the new one. The free list of
`CenterServerThread`, which its constructor does not set, is taken as empty.
-/

namespace LibEvRpc

abbrev eiPerAlloc : ℕ := 4

/-- The lists of a `DispatchThread` or `CenterServerThread`, the connection and the descriptor that the
watcher of an item was initialised for, and the lists of the event loop. `waiting` records the accepted
connections whose callback was not called yet, in the order of acceptance. -/
structure DispatchThread where
  allocated : ℕ
  eioFreelist : List ℕ
  eioUselist : List ℕ
  eio : ℕ → ℕ × Int32
  anfds : List (Int32 × ℕ)
  accepted : ℕ
  waiting : List (ℕ × Int32)

namespace DispatchThread

def init : DispatchThread where
  allocated := 0
  eioFreelist := []
  eioUselist := []
  eio _ := (0, 0)
  anfds := []
  accepted := 0
  waiting := []

/-- `NewEIO` and `NewCEIO`. The loop also writes in front of the first item, which is no part of an
item. -/
def newEio (thread : DispatchThread) : ℕ × DispatchThread :=
  match thread.eioFreelist with
  | item :: rest => (item, { thread with eioFreelist := rest })
  | [] =>
      (thread.allocated, { thread with
        allocated := thread.allocated + eiPerAlloc
        eioFreelist := List.range' (thread.allocated + 1) (eiPerAlloc - 1) })

/-- `FreeEIO` and `FreeCEIO` -/
def freeEio (thread : DispatchThread) (item : ℕ) : DispatchThread :=
  { thread with eioFreelist := item :: thread.eioFreelist }

/-- `PushEIO` and `PushCEIO` -/
def pushEio (thread : DispatchThread) (item : ℕ) : DispatchThread :=
  { thread with eioUselist := thread.eioUselist ++ [item] }

/-- `PopEIO` and `PopCEIO` -/
def popEio (thread : DispatchThread) : Option ℕ × DispatchThread :=
  (thread.eioUselist.head?, { thread with eioUselist := thread.eioUselist.tail })

/-- The event loop has the watcher of an item in a list. -/
def Started (thread : DispatchThread) (item : ℕ) : Prop := item ∈ thread.anfds.map Prod.snd

instance (thread : DispatchThread) (item : ℕ) : Decidable (thread.Started item) :=
  inferInstanceAs (Decidable (item ∈ thread.anfds.map Prod.snd))

/-- `AcceptCb` behind `Accept`. The event loop does not start a watcher twice for one descriptor. -/
def watch (thread : DispatchThread) (cfd : Int32) : Option DispatchThread :=
  let (item, handed) := thread.newEio
  if (cfd, item) ∈ thread.anfds then none
  else some { handed.pushEio item with
    eio := Function.update thread.eio item (thread.accepted, cfd)
    anfds := thread.anfds ++ [(cfd, item)]
    accepted := thread.accepted + 1
    waiting := thread.waiting ++ [(thread.accepted, cfd)] }

/-- `ev_io_stop` of the watcher of an item. -/
def evIoStop (thread : DispatchThread) (item : ℕ) : DispatchThread :=
  { thread with
    anfds := thread.anfds.erase ((thread.eio item).2, item)
    waiting := thread.waiting.erase (thread.eio item) }

/-- The end of `ProcessCb` and of `Processor`. Without an item to free there is no result. -/
def freeFirst (thread : DispatchThread) : Option DispatchThread :=
  let (ei, thread) := thread.popEio
  ei.map thread.freeEio

inductive Action where
  | acceptCb (cfd : Int32)
  | processCb (item : ℕ)
deriving DecidableEq

/-- `AcceptCb` of a connection. Its descriptor is not one of a connection that waits. -/
def acceptCb (thread : DispatchThread) (cfd : Int32) : Option DispatchThread :=
  if 0 ≤ cfd ∧ cfd ∉ thread.waiting.map Prod.snd then thread.watch cfd else none

/-- `ProcessCb` and `Processor` of the watcher of an item. -/
def processCb (thread : DispatchThread) (item : ℕ) : Option DispatchThread :=
  if thread.Started item then (thread.evIoStop item).freeFirst else none

def step (thread : DispatchThread) : Action → Option DispatchThread
  | .acceptCb cfd => thread.acceptCb cfd
  | .processCb item => thread.processCb item

end DispatchThread

end LibEvRpc
