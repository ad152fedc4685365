import LibEvRpc.Server.LibevThreadPool

/-! # The request items of the pool

The free list and the queues of the workers are linked through the `next` fields of their items. Every
locked block is a step, and so is the code between two of them. Any number of dispatches and
processors run at the same time, also for one worker. Items are numbered in the order of their
addresses, 64 in an allocation. The writes that `processor` and `param` of an item get are not part of
this module.
-/

namespace LibEvRpc

structure RQ where
  head : Option ℕ
  tail : Option ℕ
deriving DecidableEq

namespace RequestItems

/-- Where a `DispatchRpcCall` is: `linking` between the two locked blocks of `RQItemNew`, `pushing`
before that of `RQItemPush`. -/
inductive DispatchPhase where
  | starting
  | mallocing
  | linking (rqItem : ℕ)
  | holding (rqItem : ℕ)
  | pushing (rqItem : ℕ) (thread : ℕ)
  | pushed
  | failed
deriving DecidableEq

/-- Where a `LibevProcessor` is. A popped item is null if the queue was empty. -/
inductive ProcessorPhase where
  | woken
  | popped (item : Option ℕ)
  | executing (item : ℕ)
  | freeing (item : ℕ)
  | ended
deriving DecidableEq

/-- A result of `RQItemNew` or an argument of `RQItemFree`. -/
inductive Handover where
  | handedOut (rqItem : ℕ)
  | freed (rqItem : ℕ)
deriving DecidableEq

end RequestItems

open RequestItems in
/-- The items of a `LibevThreadPool` with their lists, the dispatches and the processors with the
workers they belong to, and the items that were handed out and freed so far. -/
structure RequestItems where
  next : ℕ → Option ℕ
  rqiFreelist : Option ℕ
  allocated : ℕ
  newRequestQueue : ℕ → RQ
  dispatches : List DispatchPhase
  processors : List (ℕ × ProcessorPhase)
  handovers : List Handover

namespace RequestItems

/-- The lists behind `Start`. -/
def init : RequestItems where
  next _ := none
  rqiFreelist := none
  allocated := 0
  newRequestQueue _ := ⟨none, none⟩
  dispatches := []
  processors := []
  handovers := []

inductive Action where
  | dispatchRpcCall
  | rqItemNew (call : ℕ)
  | malloc (call : ℕ) (success : Bool)
  | link (call : ℕ)
  | clearNext (call : ℕ) (thread : ℕ)
  | rqItemPush (call : ℕ)
  | libevProcessor (thread : ℕ)
  | rqItemPop (index : ℕ)
  | execute (index : ℕ)
  | retrieveDataAction (index : ℕ)
  | complete (index : ℕ)
  | rqItemFree (index : ℕ)
deriving DecidableEq

def setDispatch (items : RequestItems) (call : ℕ) (phase : DispatchPhase) : RequestItems :=
  { items with dispatches := items.dispatches.set call phase }

def setProcessor (items : RequestItems) (index thread : ℕ) (phase : ProcessorPhase) : RequestItems :=
  { items with processors := items.processors.set index (thread, phase) }

/-- The first locked block of `RQItemNew`. -/
def rqItemNew (items : RequestItems) (call : ℕ) : RequestItems :=
  match items.rqiFreelist with
  | none => items.setDispatch call .mallocing
  | some rqItem =>
      { items with
        rqiFreelist := items.next rqItem
        handovers := items.handovers ++ [Handover.handedOut rqItem] }.setDispatch call (.holding rqItem)

/-- The `next` fields behind the loop of `RQItemNew` over the new items. Its write in front of the first
one hits no item. -/
def linked (next : ℕ → Option ℕ) (rqItem item : ℕ) : Option ℕ :=
  if rqItem ≤ item ∧ item < rqItem + itemPerAlloc then
    if item = rqItem + (itemPerAlloc - 1) then none else some (item + 1)
  else next item

/-- The allocation in `RQItemNew`, with its loop. -/
def malloc (items : RequestItems) (call : ℕ) (success : Bool) : RequestItems :=
  if success then
    { items with
      allocated := items.allocated + itemPerAlloc
      next := linked items.next items.allocated }.setDispatch call (.linking items.allocated)
  else items.setDispatch call .failed

/-- The second locked block of `RQItemNew`. -/
def link (items : RequestItems) (call rqItem : ℕ) : RequestItems :=
  { items with
    next := Function.update items.next (rqItem + (itemPerAlloc - 1)) items.rqiFreelist
    rqiFreelist := some (rqItem + 1)
    handovers := items.handovers ++ [Handover.handedOut rqItem] }.setDispatch call (.holding rqItem)

/-- The start of `RQItemPush`. -/
def clearNext (items : RequestItems) (call rqItem thread : ℕ) : RequestItems :=
  { items with next := Function.update items.next rqItem none }.setDispatch call
    (.pushing rqItem thread)

/-- The locked block of `RQItemPush`. -/
def rqItemPush (items : RequestItems) (call rqItem thread : ℕ) : RequestItems :=
  let queue := items.newRequestQueue thread
  let (head, next) :=
    match queue.tail with
    | none => (some rqItem, items.next)
    | some tail => (queue.head, Function.update items.next tail (some rqItem))
  { items with
    next
    newRequestQueue :=
      Function.update items.newRequestQueue thread ⟨head, some rqItem⟩ }.setDispatch call .pushed

def rqItemPop (items : RequestItems) (index thread : ℕ) : RequestItems :=
  let queue := items.newRequestQueue thread
  match queue.head with
  | none => items.setProcessor index thread (.popped none)
  | some rqItem =>
      let head := items.next rqItem
      let tail := if head.isNone then none else queue.tail
      { items with
        newRequestQueue := Function.update items.newRequestQueue thread ⟨head, tail⟩ }.setProcessor
          index thread (.popped (some rqItem))

/-- `RQItemFree` of the item of a processor. -/
def rqItemFree (items : RequestItems) (index thread rqItem : ℕ) : RequestItems :=
  { items with
    next := Function.update items.next rqItem items.rqiFreelist
    rqiFreelist := some rqItem
    handovers := items.handovers ++ [Handover.freed rqItem] }.setProcessor index thread .ended

/-- The items behind a step. `RetrieveDataAction` frees the item of a processor that is cancelled in its
call; a call through a null item has no result. -/
def step (items : RequestItems) : Action → Option RequestItems
  | .dispatchRpcCall => some { items with dispatches := items.dispatches ++ [.starting] }
  | .rqItemNew call =>
      match items.dispatches[call]? with
      | some .starting => some (items.rqItemNew call)
      | _ => none
  | .malloc call success =>
      match items.dispatches[call]? with
      | some .mallocing => some (items.malloc call success)
      | _ => none
  | .link call =>
      match items.dispatches[call]? with
      | some (.linking rqItem) => some (items.link call rqItem)
      | _ => none
  | .clearNext call thread =>
      match items.dispatches[call]? with
      | some (.holding rqItem) => some (items.clearNext call rqItem thread)
      | _ => none
  | .rqItemPush call =>
      match items.dispatches[call]? with
      | some (.pushing rqItem thread) => some (items.rqItemPush call rqItem thread)
      | _ => none
  | .libevProcessor thread =>
      some { items with processors := items.processors ++ [(thread, .woken)] }
  | .rqItemPop index =>
      match items.processors[index]? with
      | some (thread, .woken) => some (items.rqItemPop index thread)
      | _ => none
  | .execute index =>
      match items.processors[index]? with
      | some (thread, .popped (some item)) => some (items.setProcessor index thread (.executing item))
      | _ => none
  | .retrieveDataAction index =>
      match items.processors[index]? with
      | some (thread, .executing item) => some (items.rqItemFree index thread item)
      | _ => none
  | .complete index =>
      match items.processors[index]? with
      | some (thread, .executing item) => some (items.setProcessor index thread (.freeing item))
      | _ => none
  | .rqItemFree index =>
      match items.processors[index]? with
      | some (thread, .freeing item) => some (items.rqItemFree index thread item)
      | _ => none

end RequestItems

end LibEvRpc
