import LibEvRpc.Server.LinkedQueues
import LibEvRpc.Server.DispatchThread
import LibEvRpc.Server.RequestItems
import LibEvRpc.Center.Descriptors

/-! # The linked queues are lists

A queue represents the list of the items that were pushed and not yet popped, whatever the links of
the others are. The models that work with such a list in place of the links take the same steps.
-/

namespace LibEvRpc

open LinkedList (Chain Queue)

namespace LinkedQueues

variable {ι β : Type}

/-- From an empty queue over any memory a pair of functions works on a list: what is linked from the
first pointer are the items that were pushed and not yet popped, in that order and with what they
held, the second pointer is to the last of them, both are null for the empty list only, and then a pop
returns null, while otherwise it returns the first item. -/
def IsFifo (push : Queue ℕ β → ℕ → ι → Queue ℕ β) (pop : Queue ℕ β → Option ℕ × Queue ℕ β)
    (filled : β → ι → β) : Prop :=
  ∀ (next : ℕ → Option ℕ) (content : ℕ → β) (actions : List (Action ι β)) (final : History β),
    Run (History.step push pop filled) (.init next content) actions final →
      Chain final.queue.next final.queue.head (final.queued.map Prod.fst) ∧
      (∀ entry ∈ final.queued, final.queue.content entry.1 = entry.2) ∧
      final.queue.tail = (final.queued.map Prod.fst).getLast? ∧
      (final.queue.head = none ↔ final.queue.tail = none) ∧
      (pop final.queue).1 = (final.queued.map Prod.fst).head? ∧
      ((pop final.queue).1 = none ↔ final.queued = [])

/-- The queue represents the list of what was pushed and not yet popped. -/
def History.Kept (history : History β) : Prop := history.queue.Represents history.queued

/-- Every action keeps the queue and its list together. -/
theorem kept_of_step {filled : β → ι → β} {history after : History β} {action : Action ι β}
    (holds : history.Kept)
    (success : history.step (fun queue item argument =>
      queue.push item (filled (queue.content item) argument)) Queue.pop filled action = some after) :
    after.Kept := by
  cases action with
  | push item argument =>
    obtain ⟨outside, same⟩ := Option.ite_none_left_eq_some.mp success
    cases same
    exact holds.push outside _
  | pop =>
    cases success
    exact holds.pop
  | reuse item next content =>
    obtain ⟨outside, same⟩ := Option.ite_none_left_eq_some.mp success
    cases same
    exact holds.write outside next content

theorem isFifo_of_push (filled : β → ι → β) :
    IsFifo (fun queue item argument => queue.push item (filled (queue.content item) argument))
      Queue.pop filled := by
  intro next content actions final run
  have holds : final.Kept :=
    run.invariant_of_step (Queue.represents_nil next content) fun _ _ _ => kept_of_step
  refine ⟨holds.chain, holds.content, holds.last, holds.head_eq_none_iff_tail, holds.pop_fst, ?_⟩
  rw [holds.pop_fst, List.head?_eq_none_iff, List.map_eq_nil_iff]

/-- Each of the five pairs works on a list, for every sequence of pushes of items that are not queued,
pops and reuses of the other items. -/
theorem isFifo :
    IsFifo (fun (queue : Queue ℕ β) item (_ : Unit) => (rqItemPush queue item).2) rqItemPop
      (fun content _ => content) ∧
    IsFifo (fun queue item (message : MessageItem) =>
        (pushElectionMessage queue item message.connFd message.centersProto).2) popElectionMessage
      (fun _ message => message) ∧
    IsFifo (fun queue item (message : MessageItem) =>
        (pushFollowerMessage queue item message.connFd message.centersProto).2) popFollowerMessage
      (fun _ message => message) ∧
    IsFifo (fun (queue : Queue ℕ β) item (_ : Unit) => pushEio queue item) popEio
      (fun content _ => content) ∧
    IsFifo (fun (queue : Queue ℕ β) item (_ : Unit) => pushCeio queue item) popCeio
      (fun content _ => content) :=
  ⟨isFifo_of_push fun content _ => content, isFifo_of_push fun _ message => message,
    isFifo_of_push fun _ message => message, isFifo_of_push fun content _ => content,
    isFifo_of_push fun content _ => content⟩

/-! ## The queues of the other models -/

/-- The queue of a worker in the model of the pool, where items hold nothing. -/
def workerQueue (items : RequestItems) (thread : ℕ) : Queue ℕ Unit where
  next := items.next
  content _ := ()
  head := (items.newRequestQueue thread).head
  tail := (items.newRequestQueue thread).tail

/-- The two steps that the pool takes for `RQItemPush` are that push on the queue of the worker. -/
theorem workerQueue_rqItemPush (items : RequestItems) (call rqItem thread : ℕ) :
    workerQueue ((items.clearNext call rqItem thread).rqItemPush call rqItem thread) thread =
      (rqItemPush (workerQueue items thread) rqItem).2 := by
  cases last : (items.newRequestQueue thread).tail with
  | none | some =>
    simp [workerQueue, RequestItems.rqItemPush, RequestItems.clearNext, RequestItems.setDispatch,
      rqItemPush, Queue.push, Queue.write, last]

/-- The step that the pool takes for `RQItemPop` is that pop on the queue of the worker. -/
theorem workerQueue_rqItemPop (items : RequestItems) (index thread : ℕ) :
    workerQueue (items.rqItemPop index thread) thread = (rqItemPop (workerQueue items thread)).2 := by
  cases first : (items.newRequestQueue thread).head with
  | none =>
    simp [workerQueue, RequestItems.rqItemPop, RequestItems.setProcessor, rqItemPop, Queue.pop, first]
  | some item =>
    cases second : items.next item with
    | none | some =>
      simp [workerQueue, RequestItems.rqItemPop, RequestItems.setProcessor, rqItemPop, Queue.pop,
        first, second]

/-- `PushEIO` on the links is the push of the use list. -/
theorem pushEio_eioUselist {queue : Queue ℕ β} {entries : List (ℕ × β)} {thread : DispatchThread}
    {item : ℕ} (holds : queue.Represents entries) (items : entries.map Prod.fst = thread.eioUselist)
    (unused : item ∉ thread.eioUselist) :
    ∃ after, (pushEio queue item).Represents after ∧
      after.map Prod.fst = (thread.pushEio item).eioUselist := by
  refine ⟨_, holds.push (items ▸ unused) _, ?_⟩
  rw [List.map_append, items]
  rfl

/-- `PopEIO` on the links is the pop of the use list. -/
theorem popEio_eioUselist {queue : Queue ℕ β} {entries : List (ℕ × β)} {thread : DispatchThread}
    (holds : queue.Represents entries) (items : entries.map Prod.fst = thread.eioUselist) :
    (popEio queue).1 = thread.popEio.1 ∧
      ∃ after, (popEio queue).2.Represents after ∧
        after.map Prod.fst = thread.popEio.2.eioUselist := by
  refine ⟨?_, _, holds.pop, ?_⟩
  · rw [popEio, holds.pop_fst, items]
    rfl
  · rw [List.map_tail, items]
    rfl

/-- `PushElectionMessage` on the links is the push of the queue of messages. -/
theorem pushElectionMessage_items {queue : Queue ℕ MessageItem} {entries : List (ℕ × MessageItem)}
    {messages : MessageQueue MessageItem} {item : ℕ} (message : MessageItem)
    (holds : queue.Represents entries) (same : messages.items = some (entries.map Prod.snd))
    (fresh : item ∉ entries.map Prod.fst) :
    ∃ after, (pushElectionMessage queue item message.connFd message.centersProto).2.Represents after ∧
      messages.push message = some ⟨some (after.map Prod.snd)⟩ := by
  refine ⟨_, holds.push fresh _, ?_⟩
  rw [MessageQueue.push, same, List.map_append]
  rfl

/-- `PopElectionMessage` on the links is the pop of the queue of messages. -/
theorem popElectionMessage_items {queue : Queue ℕ MessageItem} {entries : List (ℕ × MessageItem)}
    {messages : MessageQueue MessageItem} (holds : queue.Represents entries)
    (same : messages.items = some (entries.map Prod.snd)) :
    ∃ after, (popElectionMessage queue).2.Represents after ∧
      messages.pop = some ((popElectionMessage queue).1.map queue.content,
        ⟨some (after.map Prod.snd)⟩) := by
  refine ⟨_, holds.pop, ?_⟩
  have first : (popElectionMessage queue).1.map queue.content = (entries.map Prod.snd).head? := by
    rw [popElectionMessage, holds.pop_fst]
    have held := holds.content
    cases entries with
    | nil => rfl
    | cons entry rest => exact congrArg some (held entry List.mem_cons_self)
  rw [first, MessageQueue.pop, same, List.map_tail]
  rfl

end LinkedQueues

end LibEvRpc
