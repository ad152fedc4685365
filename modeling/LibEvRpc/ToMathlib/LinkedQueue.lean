import LibEvRpc.ToMathlib.LinkedList

/-! # Queues through the `next` fields of their items

A queue is a pointer to its first item and one to its last item over a memory of items, each with a
link and with what it holds. It represents the list of the items that are met from the first one, as
long as the last pointer is to the end of that list. Pushing appends to the list and popping takes
its front away; items outside the list may be written in between.
-/

namespace LinkedList

/-- The fields of all items with the pointers to the first and to the last one in the queue. -/
structure Queue (α β : Type*) where
  next : α → Option α
  content : α → β
  head : Option α
  tail : Option α

namespace Queue

variable {α β : Type*} {queue : Queue α β} {entries : List (α × β)} {item : α}

/-- Takes the first item away, which keeps its fields. Without a second one the queue is empty. -/
def pop (queue : Queue α β) : Option α × Queue α β :=
  match queue.head with
  | none => (none, queue)
  | some item =>
      match queue.next item with
      | none => (some item, { queue with head := none, tail := none })
      | some second => (some item, { queue with head := some second })

/-- The queue has the given items in their order, with what they hold. -/
structure Represents (queue : Queue α β) (entries : List (α × β)) : Prop where
  chain : Chain queue.next queue.head (entries.map Prod.fst)
  last : queue.tail = (entries.map Prod.fst).getLast?
  content : ∀ entry ∈ entries, queue.content entry.1 = entry.2

theorem represents_nil (next : α → Option α) (content : α → β) :
    Represents ⟨next, content, none, none⟩ [] :=
  ⟨rfl, rfl, fun _ member => absurd member List.not_mem_nil⟩

/-- The pointer to the first item is that of the list. -/
theorem Represents.head_eq (holds : queue.Represents entries) :
    queue.head = (entries.map Prod.fst).head? := by
  have chain := holds.chain
  cases entries with
  | nil => exact chain
  | cons entry rest => exact chain.1

/-- Both pointers are null for the empty list only. -/
theorem Represents.head_eq_none_iff_tail (holds : queue.Represents entries) :
    queue.head = none ↔ queue.tail = none := by
  rw [holds.head_eq, holds.last, List.head?_eq_none_iff, List.getLast?_eq_none_iff]

/-- A pop returns the first item of the list. -/
theorem Represents.pop_fst (holds : queue.Represents entries) :
    queue.pop.1 = (entries.map Prod.fst).head? := by
  rw [← holds.head_eq]
  obtain ⟨next, content, head, tail⟩ := queue
  cases head with
  | none => rfl
  | some item => cases link : next item <;> simp [Queue.pop, link]

/-- A pop leaves the rest of the list. -/
theorem Represents.pop (holds : queue.Represents entries) : queue.pop.2.Represents entries.tail := by
  obtain ⟨next, content, head, tail⟩ := queue
  obtain ⟨chain, last, held⟩ := holds
  cases entries with
  | nil =>
    obtain rfl : head = none := chain
    exact ⟨rfl, last, held⟩
  | cons entry rest =>
    obtain ⟨first, chain⟩ := chain
    obtain rfl : head = some entry.1 := first
    have heldRest : ∀ later ∈ rest, content later.1 = later.2 :=
      fun later member => held later (List.mem_cons_of_mem _ member)
    cases rest with
    | nil =>
      have ending : next entry.1 = none := chain
      simp only [Queue.pop, ending]
      exact represents_nil next content
    | cons second rest =>
      have follows : next entry.1 = some second.1 := chain.1
      simp only [Queue.pop, follows]
      refine ⟨⟨rfl, chain.2⟩, ?_, heldRest⟩
      rw [List.tail_cons]
      rw [List.map_cons, List.map_cons, List.getLast?_cons_cons] at last
      exact last

variable [DecidableEq α]

def write (queue : Queue α β) (item : α) (next : Option α) (content : β) : Queue α β :=
  { queue with
    next := Function.update queue.next item next
    content := Function.update queue.content item content }

/-- Puts an item at the end, with what it holds. Its link is cleared first. -/
def push (queue : Queue α β) (item : α) (content : β) : Queue α β :=
  let queue := queue.write item none content
  match queue.tail with
  | none => { queue with head := some item, tail := some item }
  | some last => { queue with next := Function.update queue.next last (some item), tail := some item }

/-- The fields of an item outside the list may change. -/
theorem Represents.write (holds : queue.Represents entries) (outside : item ∉ entries.map Prod.fst)
    (next : Option α) (content : β) : (queue.write item next content).Represents entries := by
  refine ⟨holds.chain.update_of_notMem outside, holds.last, fun entry member => ?_⟩
  have differ : entry.1 ≠ item := by
    rintro rfl
    exact outside (List.mem_map_of_mem member)
  change Function.update queue.content item content entry.1 = entry.2
  rw [Function.update_of_ne differ]
  exact holds.content entry member

/-- A push of an item outside the list appends it. -/
theorem Represents.push (holds : queue.Represents entries) (outside : item ∉ entries.map Prod.fst)
    (content : β) : (queue.push item content).Represents (entries ++ [(item, content)]) := by
  have written := holds.write outside none content
  have cleared : (queue.write item none content).next item = none := Function.update_self _ _ _
  have filled : (queue.write item none content).content item = content := Function.update_self _ _ _
  have held : ∀ entry ∈ entries ++ [(item, content)],
      (queue.write item none content).content entry.1 = entry.2 := by
    intro entry member
    rcases List.mem_append.mp member with earlier | new
    · exact written.content entry earlier
    · rw [List.mem_singleton.mp new]
      exact filled
  have ends : some item = ((entries ++ [(item, content)]).map Prod.fst).getLast? := by
    rw [List.map_append]
    exact (List.getLast?_concat).symm
  rcases List.eq_nil_or_concat entries with rfl | ⟨front, last, rfl⟩
  · -- the queue is empty, so the item becomes the first one as well
    have empty : (queue.write item none content).tail = none := written.last
    simp only [Queue.push, empty]
    exact ⟨⟨rfl, cleared⟩, ends, held⟩
  · rw [List.concat_eq_append, List.map_append] at outside
    have atEnd : (queue.write item none content).tail = some last.1 := by
      rw [written.last, List.concat_eq_append, List.map_append]
      exact List.getLast?_concat
    have chain := written.chain
    rw [List.concat_eq_append, List.map_append] at chain
    simp only [Queue.push, atEnd]
    refine ⟨?_, ends, held⟩
    have longer := chain.concat outside cleared
    simpa using longer

end Queue

end LinkedList
