import LibEvRpc.Center.Protocol
import LibEvRpc.ToMathlib.LinkedQueue
import LibEvRpc.ToMathlib.Run

/-! # The linked queues

Five pairs of functions push and pop the items of a queue. They are written out each for its own
items, but for what an item holds they are the same. Two of them copy a message into a new item; the
other three queue an item as it is. A pair runs under the mutex of its queue or on one thread. What
items hold for requests and watchers is left open.
-/

namespace LibEvRpc

open LinkedList (Queue)

/-- What an `ElectionItem` or a `FollowerItem` holds. -/
structure MessageItem where
  connFd : Int32
  centersProto : CentersProto
deriving DecidableEq

namespace LinkedQueues

variable {β : Type}

/-! ## Requests -/

def rqItemPush (reqQueue : Queue ℕ β) (rqItem : ℕ) : Bool × Queue ℕ β :=
  (true, reqQueue.push rqItem (reqQueue.content rqItem))

def rqItemPop (reqQueue : Queue ℕ β) : Option ℕ × Queue ℕ β := reqQueue.pop

/-! ## Messages to the election thread -/

/-- `PushElectionMessage`, with the item that `new` returns. -/
def pushElectionMessage (electionQ : Queue ℕ MessageItem) (ei : ℕ) (fd : Int32)
    (centersProto : CentersProto) : Bool × Queue ℕ MessageItem :=
  (true, electionQ.push ei ⟨fd, centersProto⟩)

def popElectionMessage (electionQ : Queue ℕ MessageItem) : Option ℕ × Queue ℕ MessageItem :=
  electionQ.pop

/-! ## Messages to the leader thread -/

/-- `PushFollowerMessage`, with the item that `new` returns. -/
def pushFollowerMessage (followerQ : Queue ℕ MessageItem) (fi : ℕ) (fd : Int32)
    (centersProto : CentersProto) : Bool × Queue ℕ MessageItem :=
  (true, followerQ.push fi ⟨fd, centersProto⟩)

def popFollowerMessage (followerQ : Queue ℕ MessageItem) : Option ℕ × Queue ℕ MessageItem :=
  followerQ.pop

/-! ## Watchers -/

def pushEio (eq : Queue ℕ β) (eioItem : ℕ) : Queue ℕ β := eq.push eioItem (eq.content eioItem)

def popEio (eq : Queue ℕ β) : Option ℕ × Queue ℕ β := eq.pop

def pushCeio (eq : Queue ℕ β) (eioItem : ℕ) : Queue ℕ β := eq.push eioItem (eq.content eioItem)

def popCeio (eq : Queue ℕ β) : Option ℕ × Queue ℕ β := eq.pop

/-! ## Histories of a queue -/

/-- What happens to a queue and its items: a push with its further arguments, a pop, and a write of the
fields of an item that is not in the queue. -/
inductive Action (ι β : Type) where
  | push (item : ℕ) (argument : ι)
  | pop
  | reuse (item : ℕ) (next : Option ℕ) (content : β)

/-- A queue, and the items that were pushed and not yet popped with what they held then. -/
structure History (β : Type) where
  queue : Queue ℕ β
  queued : List (ℕ × β)

namespace History

def init (next : ℕ → Option ℕ) (content : ℕ → β) : History β := ⟨⟨next, content, none, none⟩, []⟩

/-- One action with a pair of functions on the queue, where the further arguments of a push tell what the
item holds from then on. A queued item is neither pushed again nor written. -/
def step {ι : Type} (push : Queue ℕ β → ℕ → ι → Queue ℕ β) (pop : Queue ℕ β → Option ℕ × Queue ℕ β)
    (filled : β → ι → β) (history : History β) : Action ι β → Option (History β)
  | .push item argument =>
      if item ∈ history.queued.map Prod.fst then none
      else some ⟨push history.queue item argument,
        history.queued ++ [(item, filled (history.queue.content item) argument)]⟩
  | .pop => some ⟨(pop history.queue).2, history.queued.tail⟩
  | .reuse item next content =>
      if item ∈ history.queued.map Prod.fst then none
      else some { history with queue := history.queue.write item next content }

end History

end LinkedQueues

end LibEvRpc
