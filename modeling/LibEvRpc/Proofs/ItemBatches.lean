import LibEvRpc.Server.ItemBatches
import LibEvRpc.Server.RequestItems
import Mathlib.Tactic.Linarith

/-! # The writes of an allocation

The loop over a batch assigns to the field in front of its index from index 0 on, so it writes in front
of the batch whatever its size. But for that the items are linked as they should be, unless the
batch has one item only: the free list then starts behind it.
-/

namespace LibEvRpc

open LinkedList

namespace ItemBatches

/-- What the allocation of a batch should do: it writes fields of the batch only, returns its first item
and puts the others, in order, in front of the free list. -/
def AllocatesBatch (count : ℕ) (batch : ℤ) (previous : List ℤ) (call : Option ℤ × ItemBatches) :
    Prop :=
  (∀ item ∈ call.2.written, batch ≤ item ∧ item < batch + count) ∧
  call.1 = some batch ∧
  Chain call.2.next call.2.freelist
    ((List.range (count - 1)).map (fun i : ℕ => batch + (i + 1)) ++ previous)

/-- The loop links each place to the next one, from the place in front of the batch on. -/
theorem linkLoop_next (items : ItemBatches) (batch : ℤ) (count : ℕ) (item : ℤ) :
    (items.linkLoop batch count).next item =
      if batch - 1 ≤ item ∧ item < batch + count - 1 then some (item + 1) else items.next item := by
  induction count with
  | zero => rw [if_neg (by omega)]; rfl
  | succ count ih =>
    rw [linkLoop, List.range_succ, List.foldl_append]
    change Function.update (items.linkLoop batch count).next (batch + count - 1)
      (some (batch + count)) item = _
    rcases eq_or_ne item (batch + count - 1) with rfl | differ
    · rw [Function.update_self, if_pos (by omega), sub_add_cancel]
    · rw [Function.update_of_ne differ, ih]
      apply if_congr (by omega) rfl rfl

theorem linkLoop_written (items : ItemBatches) (batch : ℤ) (count : ℕ) :
    (items.linkLoop batch count).written =
      items.written ++ (List.range count).map fun i : ℕ => batch + i - 1 := by
  induction count with
  | zero => exact (List.append_nil _).symm
  | succ count ih =>
    rw [linkLoop, List.range_succ, List.foldl_append, List.map_append, ← List.append_assoc, ← ih]
    rfl

theorem linkBatch_freelist (items : ItemBatches) (batch : ℤ) (count : ℕ) :
    (items.linkBatch batch count).freelist = items.freelist := by
  change (items.linkLoop batch count).freelist = items.freelist
  induction count with
  | zero => rfl
  | succ count ih =>
    rw [linkLoop, List.range_succ, List.foldl_append]
    exact ih

/-- Before the batch is put in front of the free list all of it is linked, up to null. -/
theorem linkBatch_next (items : ItemBatches) (batch : ℤ) (count : ℕ) (item : ℤ) :
    (items.linkBatch batch count).next item =
      if item = batch + count - 1 then none
      else if batch - 1 ≤ item ∧ item < batch + count - 1 then some (item + 1)
      else items.next item := by
  rcases eq_or_ne item (batch + count - 1) with rfl | differ
  · rw [if_pos rfl]
    exact Function.update_self _ _ _
  · rw [if_neg differ, ← linkLoop_next]
    exact Function.update_of_ne differ _ _

/-- An allocation writes the field in front of the batch: with the first pass of the loop, or behind it
if there is none. -/
theorem front_mem_written (next : ℤ → Option ℤ) (batch : ℤ) (count : ℕ)
    (meanwhile : (ℤ → Option ℤ) × Option ℤ → (ℤ → Option ℤ) × Option ℤ) :
    batch - 1 ∈ (newItem ⟨next, none, []⟩ count (some batch) meanwhile).2.written := by
  change batch - 1 ∈ ((linkLoop ⟨next, none, []⟩ batch count).written ++ [batch + count - 1]) ++
    [batch + count - 1]
  rw [linkLoop_written]
  cases count with
  | zero => simp
  | succ count =>
    apply List.mem_append_left _ (List.mem_append_left _ (List.mem_append_right _ _))
    exact List.mem_map.mpr ⟨0, List.mem_range.mpr (by omega), by simp⟩

theorem not_allocatesBatch_newItem (next : ℤ → Option ℤ) (batch : ℤ) (count : ℕ) (previous : List ℤ)
    (meanwhile : (ℤ → Option ℤ) × Option ℤ → (ℤ → Option ℤ) × Option ℤ) :
    ¬ AllocatesBatch count batch previous (newItem ⟨next, none, []⟩ count (some batch) meanwhile) := by
  rintro ⟨inside, -, -⟩
  have front := inside _ (front_mem_written next batch count meanwhile)
  omega

/-- None of the three functions ever allocates a batch as it should: for every size of a batch, every
previous free list and every memory it writes in front of the batch. -/
theorem not_allocatesBatch (next : ℤ → Option ℤ) (batch : ℤ) (count : ℕ) (previous : List ℤ)
    (meanwhile : (ℤ → Option ℤ) × Option ℤ → (ℤ → Option ℤ) × Option ℤ) :
    ¬ AllocatesBatch count batch previous
        (rqItemNew ⟨next, none, []⟩ count (some batch) meanwhile) ∧
    ¬ AllocatesBatch count batch previous (newEio ⟨next, none, []⟩ count (some batch)) ∧
    ¬ AllocatesBatch count batch previous (newCeio ⟨next, none, []⟩ count (some batch)) :=
  ⟨not_allocatesBatch_newItem _ _ _ _ _, not_allocatesBatch_newItem _ _ _ _ _,
    not_allocatesBatch_newItem _ _ _ _ _⟩

/-- A batch of four items at the addresses 8 to 11: the field at 7 is written. -/
theorem not_allocatesBatch_four :
    ¬ AllocatesBatch 4 8 [] (newEio ⟨fun _ => none, none, []⟩ 4 (some 8)) := by
  rintro ⟨inside, -, -⟩
  have front := inside 7 (by decide)
  omega

/-- With two items or more the rest is as it should be, if the other threads leave the new items alone
and these are not in the list they leave. -/
theorem newItem_chain {next fields : ℤ → Option ℤ} {batch : ℤ} {count : ℕ} {freelist : Option ℤ}
    {previous : List ℤ} {meanwhile : (ℤ → Option ℤ) × Option ℤ → (ℤ → Option ℤ) × Option ℤ}
    (several : 2 ≤ count)
    (left : meanwhile ((linkBatch ⟨next, none, []⟩ batch count).next, none) = (fields, freelist))
    (untouched : ∀ i < count, fields (batch + i) =
      (linkBatch ⟨next, none, []⟩ batch count).next (batch + i))
    (chain : Chain fields freelist previous) (outside : batch + count - 1 ∉ previous) :
    (newItem ⟨next, none, []⟩ count (some batch) meanwhile).1 = some batch ∧
      Chain (newItem ⟨next, none, []⟩ count (some batch) meanwhile).2.next
        (newItem ⟨next, none, []⟩ count (some batch) meanwhile).2.freelist
        ((List.range (count - 1)).map (fun i : ℕ => batch + (i + 1)) ++ previous) := by
  have returned : newItem ⟨next, none, []⟩ count (some batch) meanwhile =
      (some batch, prependBatch ⟨fields, freelist, (linkBatch ⟨next, none, []⟩ batch count).written⟩
        batch count) := by
    simp only [newItem, linkBatch_freelist, left]
  rw [returned]
  refine ⟨rfl, ?_⟩
  obtain ⟨more, rfl⟩ : ∃ more, count = more + 2 := ⟨count - 2, by omega⟩
  change Chain (Function.update fields (batch + (more + 2 : ℕ) - 1) freelist) (some (batch + 1))
    ((List.range (more + 1)).map (fun i : ℕ => batch + (i + 1)) ++ previous)
  have lastItem : batch + ((more + 2 : ℕ) : ℤ) - 1 = batch + ((more : ℤ) + 1) := by omega
  rw [lastItem] at outside ⊢
  have links : ∀ i < more, Function.update fields (batch + ((more : ℤ) + 1)) freelist
      (batch + ((i : ℤ) + 1)) = some (batch + (((i + 1 : ℕ) : ℤ) + 1)) := by
    intro i bound
    have kept := untouched (i + 1) (by omega)
    rw [linkBatch_next, if_neg (by omega), if_pos (by omega)] at kept
    rw [Function.update_of_ne (by omega), ← Int.natCast_succ, kept]
    congr 1
    omega
  have ends : Chain (Function.update fields (batch + ((more : ℤ) + 1)) freelist)
      (Function.update fields (batch + ((more : ℤ) + 1)) freelist (batch + ((more : ℤ) + 1)))
      previous := by
    rw [Function.update_self]
    exact chain.update_of_notMem outside
  exact @chain_map_range ℤ _ _ (fun i : ℕ => batch + ((i : ℤ) + 1)) more links ends

/-- With one item the free list starts behind the batch, at what is no item of it. -/
theorem not_chain_newItem_one {next : ℤ → Option ℤ} {batch : ℤ} {previous : List ℤ}
    (meanwhile : (ℤ → Option ℤ) × Option ℤ → (ℤ → Option ℤ) × Option ℤ)
    (outside : batch + 1 ∉ previous) :
    ¬ Chain (newItem ⟨next, none, []⟩ 1 (some batch) meanwhile).2.next
      (newItem ⟨next, none, []⟩ 1 (some batch) meanwhile).2.freelist previous := by
  intro chain
  obtain ⟨rest, shape, -⟩ := chain_some.mp (show Chain _ (some (batch + 1)) previous from chain)
  exact outside (shape ▸ List.mem_cons_self)

/-- The links that the model of the pool gives a batch are those of the loop, but in front of it. -/
theorem linkBatch_linked {next : ℕ → Option ℕ} {fields : ℤ → Option ℤ} {rqItem item : ℕ}
    (same : fields item = (next item).map Nat.cast) (inside : item + 1 ≠ rqItem) :
    (linkBatch ⟨fields, none, []⟩ rqItem itemPerAlloc).next item =
      (RequestItems.linked next rqItem item).map Nat.cast := by
  have several : itemPerAlloc = 64 := rfl
  rw [linkBatch_next, RequestItems.linked]
  by_cases here : rqItem ≤ item ∧ item < rqItem + itemPerAlloc
  · rw [if_pos here]
    by_cases last : item = rqItem + (itemPerAlloc - 1)
    · rw [if_pos (by omega), if_pos last]
      rfl
    · rw [if_neg (by omega), if_pos (by omega), if_neg last]
      rfl
  · rw [if_neg here, if_neg (by omega), if_neg (by omega)]
    exact same

end ItemBatches

end LibEvRpc
