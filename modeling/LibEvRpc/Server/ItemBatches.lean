import LibEvRpc.ToMathlib.LinkedList
import Mathlib.Data.List.Range

/-! # Batches of items

Three functions take an item from a free list. When the list is empty they allocate a batch of items,
link them in a loop, return the first one and put the others in front of the free list. Items are known
by their addresses, counted in items, so the place in front of a batch has an address as well. Every
write of a `next` field is recorded.
-/

namespace LibEvRpc

/-- The `next` fields, the free list and the addresses whose field a call wrote. -/
structure ItemBatches where
  next : ℤ → Option ℤ
  freelist : Option ℤ
  written : List ℤ

namespace ItemBatches

def write (items : ItemBatches) (item : ℤ) (next : Option ℤ) : ItemBatches :=
  { items with next := Function.update items.next item next, written := items.written ++ [item] }

/-- The loop over a batch. Its index starts at 0, and it assigns to the field before that index. -/
def linkLoop (items : ItemBatches) (batch : ℤ) (count : ℕ) : ItemBatches :=
  (List.range count).foldl
    (fun items (i : ℕ) => items.write (batch + i - 1) (some (batch + i))) items

/-- The loop, and the null behind the last item. -/
def linkBatch (items : ItemBatches) (batch : ℤ) (count : ℕ) : ItemBatches :=
  (items.linkLoop batch count).write (batch + count - 1) none

/-- The batch is put in front of the free list, but for its first item. -/
def prependBatch (items : ItemBatches) (batch : ℤ) (count : ℕ) : ItemBatches :=
  { items.write (batch + count - 1) items.freelist with freelist := some (batch + 1) }

/-- What the three functions share: the result of `malloc` for a batch of a given size, and what other
threads make of the fields and of the free list between the two locked blocks. -/
def newItem (items : ItemBatches) (perAlloc : ℕ) (malloc : Option ℤ)
    (meanwhile : (ℤ → Option ℤ) × Option ℤ → (ℤ → Option ℤ) × Option ℤ) : Option ℤ × ItemBatches :=
  match items.freelist with
  | some item => (some item, { items with freelist := items.next item })
  | none =>
      match malloc with
      | none => (none, items)
      | some batch =>
          let linked := items.linkBatch batch perAlloc
          let (next, freelist) := meanwhile (linked.next, linked.freelist)
          (some batch, { linked with next, freelist }.prependBatch batch perAlloc)

def rqItemNew (items : ItemBatches) (itemPerAlloc : ℕ) (malloc : Option ℤ)
    (meanwhile : (ℤ → Option ℤ) × Option ℤ → (ℤ → Option ℤ) × Option ℤ) : Option ℤ × ItemBatches :=
  items.newItem itemPerAlloc malloc meanwhile

/-- `NewEIO`, which runs on one thread. -/
def newEio (items : ItemBatches) (eiPerAlloc : ℕ) (malloc : Option ℤ) : Option ℤ × ItemBatches :=
  items.newItem eiPerAlloc malloc id

/-- `NewCEIO`, which runs on one thread. -/
def newCeio (items : ItemBatches) (eiPerAlloc : ℕ) (malloc : Option ℤ) : Option ℤ × ItemBatches :=
  items.newItem eiPerAlloc malloc id

end ItemBatches

end LibEvRpc
