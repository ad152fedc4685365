import LibEvRpc.ToMathlib.LinkedList
import LibEvRpc.Server.RequestItems

/-! # Owners of request items

Every allocated item is in the free list, in one queue, with one dispatch or with one processor, in any
interleaving. A list is only written at items that it or the writing thread owns, so the others stay
what they are.
-/

namespace LibEvRpc

namespace RequestItems

open LinkedList

/-! ## Items handed out and freed -/

/-- An item was handed out and not freed since. -/
def Lent (handovers : List Handover) (rqItem : ℕ) : Prop :=
  ∃ before after, handovers = before ++ .handedOut rqItem :: after ∧ .freed rqItem ∉ after

/-- Between two times that an item is handed out it is freed. -/
def Alternates (handovers : List Handover) : Prop :=
  ∀ before between after rqItem,
    handovers = before ++ .handedOut rqItem :: (between ++ .handedOut rqItem :: after) →
      .freed rqItem ∈ between

theorem not_lent_nil (rqItem : ℕ) : ¬ Lent [] rqItem := by
  rintro ⟨before, after, shape, _⟩
  exact absurd shape (by simp)

theorem lent_of_concat {handovers : List Handover} {handover : Handover} {rqItem : ℕ}
    (lent : Lent (handovers ++ [handover]) rqItem) (other : handover ≠ .handedOut rqItem) :
    Lent handovers rqItem ∧ handover ≠ .freed rqItem := by
  obtain ⟨before, after, shape, unfreed⟩ := lent
  rcases List.eq_nil_or_concat after with rfl | ⟨after, last, rfl⟩
  · obtain ⟨_, same⟩ := List.append_inj' shape rfl
    exact absurd (List.cons.inj same).1 other
  · rw [List.concat_eq_append, ← List.cons_append, ← List.append_assoc] at shape
    obtain ⟨rfl, same⟩ := List.append_inj' shape rfl
    cases same
    rw [List.concat_eq_append, List.mem_append, not_or, List.mem_singleton] at unfreed
    exact ⟨⟨before, after, rfl, unfreed.1⟩, fun freed => unfreed.2 freed.symm⟩

theorem alternates_nil : Alternates [] := by
  intro before between after rqItem shape
  exact absurd shape (by simp)

/-- The next handover may be any but one of an item that was handed out already. -/
theorem Alternates.concat {handovers : List Handover} {handover : Handover}
    (alternates : Alternates handovers)
    (unlent : ∀ rqItem, handover = .handedOut rqItem → ¬ Lent handovers rqItem) :
    Alternates (handovers ++ [handover]) := by
  intro before between after rqItem shape
  rcases List.eq_nil_or_concat after with rfl | ⟨after, last, rfl⟩
  · rw [← List.cons_append, ← List.append_assoc] at shape
    obtain ⟨rfl, same⟩ := List.append_inj' shape rfl
    cases same
    by_contra unfreed
    exact unlent rqItem rfl ⟨before, between, rfl, unfreed⟩
  · rw [List.concat_eq_append, ← List.cons_append, ← List.append_assoc, ← List.cons_append,
      ← List.append_assoc] at shape
    have earlier := (List.append_inj' shape rfl).1
    rw [List.append_assoc, List.cons_append] at earlier
    exact alternates before between after rqItem earlier

/-! ## Owners -/

inductive Owner where
  | freeList
  | queue (thread : ℕ)
  | dispatcher (call : ℕ)
  | worker (index : ℕ)

def DispatchPhase.items : DispatchPhase → List ℕ
  | .linking rqItem => List.range' rqItem itemPerAlloc
  | .holding rqItem | .pushing rqItem _ => [rqItem]
  | .starting | .mallocing | .pushed | .failed => []

def ProcessorPhase.items : ProcessorPhase → List ℕ
  | .popped item => item.toList
  | .executing item | .freeing item => [item]
  | .woken | .ended => []

/-- An item is met in a list, or in the hands of a dispatch or a processor. -/
def Owns (items : RequestItems) : Owner → ℕ → Prop
  | .freeList, rqItem => Met items.next items.rqiFreelist rqItem
  | .queue thread, rqItem => Met items.next (items.newRequestQueue thread).head rqItem
  | .dispatcher call, rqItem => ∃ phase, items.dispatches[call]? = some phase ∧ rqItem ∈ phase.items
  | .worker index, rqItem =>
      ∃ thread phase, items.processors[index]? = some (thread, phase) ∧ rqItem ∈ phase.items

/-- What the lists and the handovers guarantee. -/
structure Separated (items : RequestItems) : Prop where
  oneOwner : ∀ rqItem first second, items.Owns first rqItem → items.Owns second rqItem → first = second
  allocated : ∀ rqItem owner, items.Owns owner rqItem → rqItem < items.allocated
  freeList : ∃ list, Chain items.next items.rqiFreelist list ∧ list.Nodup
  queues : ∀ thread, ∃ list, Chain items.next (items.newRequestQueue thread).head list ∧ list.Nodup
  alternates : Alternates items.handovers

/-- A dispatch and its items: new ones are linked and were never handed out, and the one to be pushed
has no next item. -/
structure DispatchInv (items : RequestItems) (owner : ℕ → Option Owner) (call : ℕ)
    (phase : DispatchPhase) : Prop where
  own : ∀ rqItem ∈ phase.items, owner rqItem = some (.dispatcher call)
  links : ∀ rqItem, phase = .linking rqItem →
    ∀ item, rqItem ≤ item → item < rqItem + (itemPerAlloc - 1) → items.next item = some (item + 1)
  unlent : ∀ rqItem, phase = .linking rqItem → ∀ item ∈ phase.items, ¬ Lent items.handovers item
  cleared : ∀ rqItem thread, phase = .pushing rqItem thread → items.next rqItem = none

def OwnerInv (items : RequestItems) (owner : ℕ → Option Owner) : Owner → Prop
  | .freeList => ∃ list, Chain items.next items.rqiFreelist list ∧
      ∀ item ∈ list, owner item = some .freeList ∧ ¬ Lent items.handovers item
  | .queue thread => ∃ list, Chain items.next (items.newRequestQueue thread).head list ∧
      (items.newRequestQueue thread).tail = list.getLast? ∧
      ∀ item ∈ list, owner item = some (.queue thread)
  | .dispatcher call => ∀ phase, items.dispatches[call]? = some phase → items.DispatchInv owner call phase
  | .worker index => ∀ thread phase, items.processors[index]? = some (thread, phase) →
      ∀ item ∈ phase.items, owner item = some (.worker index)

/-- Every item has at most one owner, and those that are not allocated have none. -/
structure Inv (items : RequestItems) (owner : ℕ → Option Owner) : Prop where
  fresh : ∀ item, items.allocated ≤ item → owner item = none ∧ ¬ Lent items.handovers item
  owners : ∀ one, items.OwnerInv owner one
  alternates : Alternates items.handovers

/-! ## Steps of others -/

/-- The data of an owner apart from its items. -/
def Untouched (items after : RequestItems) : Owner → Prop
  | .freeList => after.rqiFreelist = items.rqiFreelist
  | .queue thread => after.newRequestQueue thread = items.newRequestQueue thread
  | .dispatcher call => after.dispatches[call]? = items.dispatches[call]?
  | .worker index => after.processors[index]? = items.processors[index]?

/-- A step leaves an owner and its items alone. -/
structure Kept (items : RequestItems) (owner : ℕ → Option Owner) (after : RequestItems)
    (newOwner : ℕ → Option Owner) (one : Owner) : Prop where
  untouched : Untouched items after one
  own : ∀ item, owner item = some one → newOwner item = some one
  next : ∀ item, owner item = some one → after.next item = items.next item
  lent : ∀ item, owner item = some one → Lent after.handovers item → Lent items.handovers item

/-- A dispatch is left alone. -/
theorem DispatchInv.kept {items after : RequestItems} {owner newOwner : ℕ → Option Owner} {call : ℕ}
    {phase : DispatchPhase} (inv : items.DispatchInv owner call phase)
    (kept : Kept items owner after newOwner (.dispatcher call)) :
    after.DispatchInv newOwner call phase where
  own rqItem member := kept.own rqItem (inv.own rqItem member)
  links rqItem linking item lower upper := by
    have member : item ∈ phase.items := by
      rw [linking, DispatchPhase.items, List.mem_range'_1]
      omega
    rw [kept.next item (inv.own item member), inv.links rqItem linking item lower upper]
  unlent rqItem linking item member lent :=
    inv.unlent rqItem linking item member (kept.lent item (inv.own item member) lent)
  cleared rqItem thread pushing := by
    have member : rqItem ∈ phase.items := by
      rw [pushing]
      exact List.mem_singleton_self rqItem
    rw [kept.next rqItem (inv.own rqItem member), inv.cleared rqItem thread pushing]

theorem OwnerInv.kept {items after : RequestItems} {owner newOwner : ℕ → Option Owner} {one : Owner}
    (inv : items.OwnerInv owner one) (kept : Kept items owner after newOwner one) :
    after.OwnerInv newOwner one := by
  cases one with
  | freeList =>
    obtain ⟨list, chain, own⟩ := inv
    refine ⟨list, ?_, fun item member => ?_⟩
    · rw [kept.untouched]
      exact chain.congr fun item member => kept.next item (own item member).1
    · exact ⟨kept.own item (own item member).1,
        fun lent => (own item member).2 (kept.lent item (own item member).1 lent)⟩
  | queue thread =>
    obtain ⟨list, chain, tail, own⟩ := inv
    have same : after.newRequestQueue thread = items.newRequestQueue thread := kept.untouched
    refine ⟨list, ?_, ?_, fun item member => kept.own item (own item member)⟩
    · rw [same]
      exact chain.congr fun item member => kept.next item (own item member)
    · rw [same]
      exact tail
  | dispatcher call =>
    intro phase found
    rw [kept.untouched] at found
    exact (inv phase found).kept kept
  | worker index =>
    intro thread phase found item member
    rw [kept.untouched] at found
    exact kept.own item (inv thread phase found item member)

/-- A step touches some owners and leaves the others alone. -/
theorem Inv.of_kept {items after : RequestItems} {owner newOwner : ℕ → Option Owner}
    (inv : items.Inv owner) (touched : Owner → Prop)
    (fresh : ∀ item, after.allocated ≤ item → newOwner item = none ∧ ¬ Lent after.handovers item)
    (own : ∀ one, touched one → after.OwnerInv newOwner one)
    (kept : ∀ one, ¬ touched one → Kept items owner after newOwner one)
    (alternates : Alternates after.handovers) : after.Inv newOwner where
  fresh := fresh
  owners one := by
    by_cases involved : touched one
    · exact own one involved
    · exact (inv.owners one).kept (kept one involved)
  alternates := alternates

theorem untouched_setDispatch {items after : RequestItems} {call : ℕ} {phase : DispatchPhase}
    {one : Owner} (untouched : Untouched items after one) (other : one ≠ .dispatcher call) :
    Untouched items (after.setDispatch call phase) one := by
  cases one with
  | freeList => exact untouched
  | queue thread => exact untouched
  | worker index => exact untouched
  | dispatcher another =>
    have differ : call ≠ another := fun same => other (by rw [same])
    exact (List.getElem?_set_ne differ).trans untouched

theorem untouched_setProcessor {items after : RequestItems} {index thread : ℕ}
    {phase : ProcessorPhase} {one : Owner} (untouched : Untouched items after one)
    (other : one ≠ .worker index) : Untouched items (after.setProcessor index thread phase) one := by
  cases one with
  | freeList => exact untouched
  | queue thread => exact untouched
  | dispatcher call => exact untouched
  | worker another =>
    have differ : index ≠ another := fun same => other (by rw [same])
    exact (List.getElem?_set_ne differ).trans untouched

theorem phase_of_setDispatch {items : RequestItems} {call : ℕ} {old phase new : DispatchPhase}
    (found : items.dispatches[call]? = some old)
    (here : (items.setDispatch call phase).dispatches[call]? = some new) : new = phase := by
  have bound : call < items.dispatches.length := (List.getElem?_eq_some_iff.mp found).1
  rw [setDispatch, List.getElem?_set_self bound] at here
  exact (Option.some.inj here).symm

theorem phase_of_setProcessor {items : RequestItems} {index thread otherThread : ℕ}
    {old : ℕ × ProcessorPhase} {phase new : ProcessorPhase} (found : items.processors[index]? = some old)
    (here : (items.setProcessor index thread phase).processors[index]? = some (otherThread, new)) :
    new = phase := by
  have bound : index < items.processors.length := (List.getElem?_eq_some_iff.mp found).1
  rw [setProcessor, List.getElem?_set_self bound] at here
  exact (Prod.mk.inj (Option.some.inj here)).2.symm

/-- A dispatch goes on without items. -/
theorem Inv.setDispatch {items : RequestItems} {owner : ℕ → Option Owner} {call : ℕ}
    {old phase : DispatchPhase} (inv : items.Inv owner) (found : items.dispatches[call]? = some old)
    (empty : phase.items = []) (unpushed : ∀ rqItem thread, phase ≠ .pushing rqItem thread)
    (unlinked : ∀ rqItem, phase ≠ .linking rqItem) : (items.setDispatch call phase).Inv owner := by
  refine inv.of_kept (· = .dispatcher call) inv.fresh ?_ ?_ inv.alternates
  · rintro _ rfl new here
    rw [phase_of_setDispatch found here]
    refine ⟨?_, ?_, ?_, ?_⟩
    · rw [empty]
      exact fun _ member => absurd member List.not_mem_nil
    · exact fun rqItem linking => absurd linking (unlinked rqItem)
    · exact fun rqItem linking => absurd linking (unlinked rqItem)
    · exact fun rqItem thread pushing => absurd pushing (unpushed rqItem thread)
  · intro one other
    exact ⟨untouched_setDispatch (by cases one <;> rfl) other, fun _ own => own, fun _ _ => rfl,
      fun _ _ lent => lent⟩

/-- An item that has an owner is allocated. -/
theorem Inv.lt_allocated {items : RequestItems} {owner : ℕ → Option Owner} (inv : items.Inv owner)
    {item : ℕ} {one : Owner} (here : owner item = some one) : item < items.allocated := by
  by_contra bound
  rw [(inv.fresh item (Nat.le_of_not_lt bound)).1] at here
  contradiction

/-- One item goes from its owner to another one, and only these two are touched. -/
theorem Inv.move {items after : RequestItems} {owner : ℕ → Option Owner} {moved : ℕ}
    {source : Owner} (inv : items.Inv owner) (here : owner moved = some source) (target : Owner)
    (allocated : after.allocated = items.allocated)
    (left : after.OwnerInv (Function.update owner moved (some target)) source)
    (taken : after.OwnerInv (Function.update owner moved (some target)) target)
    (untouched : ∀ one, one ≠ source → one ≠ target → Untouched items after one)
    (next : ∀ item one, owner item = some one → one ≠ source → one ≠ target →
      after.next item = items.next item)
    (lent : ∀ item, item ≠ moved → Lent after.handovers item → Lent items.handovers item)
    (alternates : Alternates after.handovers) :
    after.Inv (Function.update owner moved (some target)) := by
  refine inv.of_kept (fun one => one = source ∨ one = target) ?_ ?_ ?_ alternates
  · intro item bound
    rw [allocated] at bound
    have below := inv.lt_allocated here
    have differ : item ≠ moved := by omega
    obtain ⟨free, never⟩ := inv.fresh item bound
    exact ⟨by rw [Function.update_of_ne differ, free], fun again => never (lent item differ again)⟩
  · rintro _ (rfl | rfl)
    · exact left
    · exact taken
  · intro one other
    rw [not_or] at other
    have differ {item : ℕ} (there : owner item = some one) : item ≠ moved := by
      rintro rfl
      exact other.1 (Option.some.inj (there.symm.trans here))
    refine ⟨untouched one other.1 other.2, ?_, ?_, ?_⟩
    · intro item there
      rw [Function.update_of_ne (differ there), there]
    · exact fun item there => next item one there other.1 other.2
    · exact fun item there => lent item (differ there)

theorem lent_of_handedOut {handovers : List Handover} {rqItem item : ℕ} (differ : item ≠ rqItem)
    (lent : Lent (handovers ++ [Handover.handedOut rqItem]) item) : Lent handovers item :=
  (lent_of_concat lent (by simpa using differ.symm)).1

theorem lent_of_freed {handovers : List Handover} {rqItem item : ℕ}
    (lent : Lent (handovers ++ [Handover.freed rqItem]) item) : item ≠ rqItem ∧ Lent handovers item := by
  obtain ⟨lent, other⟩ := lent_of_concat lent (by simp)
  exact ⟨fun same => other (by rw [same]), lent⟩

/-- The first item of the free list is handed out. -/
theorem Inv.rqItemNew {items : RequestItems} {owner : ℕ → Option Owner} {call : ℕ}
    (inv : items.Inv owner) (found : items.dispatches[call]? = some .starting) :
    ∃ newOwner, (items.rqItemNew call).Inv newOwner := by
  obtain ⟨list, chain, own⟩ := inv.owners .freeList
  rw [RequestItems.rqItemNew]
  split
  · exact ⟨owner, inv.setDispatch found rfl (by simp) (by simp)⟩
  · next rqItem head =>
    rw [head] at chain
    have distinct := chain.nodup
    obtain ⟨rest, rfl, behind⟩ := chain_some.mp chain
    obtain ⟨wasFree, unlent⟩ := own rqItem List.mem_cons_self
    refine ⟨_, inv.move wasFree (.dispatcher call) rfl ?_ ?_ ?_ (fun _ _ _ _ _ => rfl)
      (fun _ differ => lent_of_handedOut differ) ?_⟩
    · refine ⟨rest, behind, fun item member => ?_⟩
      have differ : item ≠ rqItem := by
        rintro rfl
        exact (List.nodup_cons.mp distinct).1 member
      obtain ⟨free, never⟩ := own item (List.mem_cons_of_mem _ member)
      exact ⟨by rw [Function.update_of_ne differ, free],
        fun lent => never (lent_of_handedOut differ lent)⟩
    · intro phase here
      obtain rfl := phase_of_setDispatch found here
      refine ⟨?_, by simp, by simp, by simp⟩
      intro item member
      rw [List.mem_singleton.mp member, Function.update_self]
    · intro one notFree other
      refine untouched_setDispatch ?_ other
      cases one with
      | freeList => exact absurd rfl notFree
      | queue thread => rfl
      | dispatcher another => rfl
      | worker index => rfl
    · apply inv.alternates.concat
      intro other same
      cases same
      exact unlent

/-- New items are with the dispatch that allocated them. -/
theorem Inv.malloc {items : RequestItems} {owner : ℕ → Option Owner} {call : ℕ} (inv : items.Inv owner)
    (found : items.dispatches[call]? = some .mallocing) (success : Bool) :
    ∃ newOwner, (items.malloc call success).Inv newOwner := by
  rw [RequestItems.malloc]
  split
  · refine ⟨fun item => if item < items.allocated then owner item
        else if item < items.allocated + itemPerAlloc then some (.dispatcher call) else none,
      inv.of_kept (· = .dispatcher call) ?_ ?_ ?_ inv.alternates⟩
    · intro item bound
      change items.allocated + itemPerAlloc ≤ item at bound
      refine ⟨?_, (inv.fresh item (by omega)).2⟩
      rw [if_neg (by omega), if_neg (by omega)]
    · rintro _ rfl phase here
      obtain rfl := phase_of_setDispatch found here
      refine ⟨?_, ?_, ?_, by simp⟩
      · intro item member
        rw [DispatchPhase.items, List.mem_range'_1] at member
        rw [if_neg (by omega), if_pos (by omega)]
      · intro rqItem linking item lower upper
        cases linking
        change linked items.next items.allocated item = some (item + 1)
        rw [linked, if_pos (by omega), if_neg (by omega)]
      · intro rqItem linking item member
        rw [DispatchPhase.items, List.mem_range'_1] at member
        exact (inv.fresh item member.1).2
    · intro one other
      refine ⟨untouched_setDispatch (by cases one <;> rfl) other, ?_, ?_, fun _ _ lent => lent⟩
      · intro item here
        rw [if_pos (inv.lt_allocated here), here]
      · intro item here
        have bound := inv.lt_allocated here
        change linked items.next items.allocated item = items.next item
        rw [linked, if_neg (by omega)]
  · exact ⟨owner, inv.setDispatch found rfl (by simp) (by simp)⟩

/-- The first new item is handed out, the others go to the front of the free list. -/
theorem Inv.link {items : RequestItems} {owner : ℕ → Option Owner} {call rqItem : ℕ}
    (inv : items.Inv owner) (found : items.dispatches[call]? = some (.linking rqItem)) :
    ∃ newOwner, (items.link call rqItem).Inv newOwner := by
  obtain ⟨list, chain, own⟩ := inv.owners .freeList
  have dispatch := inv.owners (.dispatcher call) _ found
  have batch : ∀ item, rqItem ≤ item → item < rqItem + itemPerAlloc →
      owner item = some (.dispatcher call) ∧ ¬ Lent items.handovers item := by
    intro item lower upper
    have member : item ∈ (DispatchPhase.linking rqItem).items := List.mem_range'_1.mpr ⟨lower, upper⟩
    exact ⟨dispatch.own item member, dispatch.unlent rqItem rfl item member⟩
  have several : itemPerAlloc = 64 := rfl
  have outside : ∀ item one, owner item = some one → one ≠ .dispatcher call →
      ¬ (rqItem ≤ item ∧ item < rqItem + itemPerAlloc) := by
    rintro item one here other ⟨lower, upper⟩
    exact other (Option.some.inj (here.symm.trans (batch item lower upper).1))
  refine ⟨fun item => if rqItem < item ∧ item < rqItem + itemPerAlloc then some .freeList
      else owner item,
    inv.of_kept (fun one => one = .freeList ∨ one = .dispatcher call) ?_ ?_ ?_ ?_⟩
  · intro item bound
    obtain ⟨free, never⟩ := inv.fresh item bound
    have beyond : ¬ (rqItem ≤ item ∧ item < rqItem + itemPerAlloc) := by
      rintro ⟨lower, upper⟩
      rw [(batch item lower upper).1] at free
      contradiction
    exact ⟨by rw [if_neg (by omega), free],
      fun lent => never (lent_of_handedOut (by omega) lent)⟩
  · rintro _ (rfl | rfl)
    · refine ⟨List.range' (rqItem + 1) (itemPerAlloc - 1) ++ list, ?_, ?_⟩
      · refine chain_range' (?_ : ∀ item, _ → item < rqItem + 1 + (itemPerAlloc - 2) → _) ?_
        · intro item lower upper
          have last : item ≠ rqItem + (itemPerAlloc - 1) := by omega
          exact (Function.update_of_ne last ..).trans
            (dispatch.links rqItem rfl item (by omega) (by omega))
        · change Chain (Function.update items.next (rqItem + (itemPerAlloc - 1)) items.rqiFreelist)
            (Function.update items.next (rqItem + (itemPerAlloc - 1)) items.rqiFreelist
              (rqItem + 1 + (itemPerAlloc - 2))) list
          rw [show rqItem + 1 + (itemPerAlloc - 2) = rqItem + (itemPerAlloc - 1) by omega,
            Function.update_self]
          apply chain.update_of_notMem
          intro member
          exact outside _ _ (own _ member).1 (by simp) ⟨by omega, by omega⟩
      · intro item member
        rcases List.mem_append.mp member with new | old
        · rw [List.mem_range'_1] at new
          refine ⟨if_pos (by omega), fun lent => ?_⟩
          exact (batch item (by omega) (by omega)).2 (lent_of_handedOut (by omega) lent)
        · obtain ⟨free, never⟩ := own item old
          have beyond := outside item _ free (by simp)
          exact ⟨(if_neg (by omega)).trans free,
            fun lent => never (lent_of_handedOut (by omega) lent)⟩
    · intro phase here
      obtain rfl := phase_of_setDispatch found here
      refine ⟨?_, by simp, by simp, by simp⟩
      intro item member
      rw [List.mem_singleton.mp member]
      exact (if_neg (by omega)).trans (batch rqItem (Nat.le_refl rqItem) (by omega)).1
  · intro one other
    rw [not_or] at other
    refine ⟨untouched_setDispatch ?_ other.2, ?_, ?_, ?_⟩
    · cases one with
      | freeList => exact absurd rfl other.1
      | queue thread => rfl
      | dispatcher another => rfl
      | worker index => rfl
    · intro item here
      have beyond := outside item one here other.2
      rw [if_neg (by omega), here]
    · intro item here
      have beyond := outside item one here other.2
      exact Function.update_of_ne (by omega) ..
    · intro item here
      have beyond := outside item one here other.2
      exact lent_of_handedOut (by omega)
  · apply inv.alternates.concat
    intro other same
    cases same
    exact (batch rqItem (Nat.le_refl rqItem) (by omega)).2

/-- The item to be pushed has no next item any more. -/
theorem Inv.clearNext {items : RequestItems} {owner : ℕ → Option Owner} {call rqItem : ℕ}
    (inv : items.Inv owner) (found : items.dispatches[call]? = some (.holding rqItem)) (thread : ℕ) :
    (items.clearNext call rqItem thread).Inv owner := by
  have here : owner rqItem = some (.dispatcher call) :=
    (inv.owners (.dispatcher call) _ found).own rqItem (List.mem_singleton_self rqItem)
  refine inv.of_kept (· = .dispatcher call) inv.fresh ?_ ?_ inv.alternates
  · rintro _ rfl phase there
    obtain rfl := phase_of_setDispatch found there
    refine ⟨?_, by simp, by simp, ?_⟩
    · intro item member
      rw [List.mem_singleton.mp member, here]
    · intro item target same
      cases same
      exact Function.update_self ..
  · intro one other
    refine ⟨untouched_setDispatch (by cases one <;> rfl) other, fun _ own => own, ?_,
      fun _ _ lent => lent⟩
    intro item there
    apply Function.update_of_ne
    rintro rfl
    exact other (Option.some.inj (there.symm.trans here))

/-- The item of a dispatch goes to the end of a queue. -/
theorem Inv.rqItemPush {items : RequestItems} {owner : ℕ → Option Owner} {call rqItem thread : ℕ}
    (inv : items.Inv owner) (found : items.dispatches[call]? = some (.pushing rqItem thread)) :
    ∃ newOwner, (items.rqItemPush call rqItem thread).Inv newOwner := by
  have dispatch := inv.owners (.dispatcher call) _ found
  have here : owner rqItem = some (.dispatcher call) :=
    dispatch.own rqItem (List.mem_singleton_self rqItem)
  have cleared := dispatch.cleared rqItem thread rfl
  obtain ⟨list, chain, tail, own⟩ := inv.owners (.queue thread)
  have outside : rqItem ∉ list := by
    intro member
    cases here.symm.trans (own rqItem member)
  refine ⟨_, inv.move here (.queue thread) rfl ?_ ?_ ?_ ?_ (fun _ _ lent => lent)
    inv.alternates⟩
  · intro phase there
    obtain rfl := phase_of_setDispatch found there
    exact ⟨fun _ member => absurd member List.not_mem_nil, by simp, by simp, by simp⟩
  · refine ⟨list ++ [rqItem], ?_, ?_, ?_⟩
    · rw [RequestItems.rqItemPush]
      change Chain _ (Function.update items.newRequestQueue thread _ thread).head _
      rw [Function.update_self]
      rcases List.eq_nil_or_concat list with rfl | ⟨front, last, rfl⟩
      · rw [List.getLast?_nil] at tail
        rw [tail]
        exact ⟨rfl, cleared.symm ▸ rfl⟩
      · rw [List.concat_eq_append] at chain outside tail ⊢
        rw [List.getLast?_append, List.getLast?_singleton, Option.some_or] at tail
        rw [tail, List.append_assoc]
        exact chain.concat outside cleared
    · change (Function.update items.newRequestQueue thread _ thread).tail = _
      rw [Function.update_self, List.getLast?_append, List.getLast?_singleton, Option.some_or]
    · intro item member
      rcases List.mem_append.mp member with old | new
      · have differ : item ≠ rqItem := by
          rintro rfl
          exact outside old
        rw [Function.update_of_ne differ, own item old]
      · rw [List.mem_singleton.mp new, Function.update_self]
  · intro one other notQueue
    refine untouched_setDispatch ?_ other
    cases one with
    | freeList => rfl
    | queue another => exact Function.update_of_ne (fun same => notQueue (by rw [same])) ..
    | dispatcher another => rfl
    | worker index => rfl
  · intro item one there _ notQueue
    rw [RequestItems.rqItemPush]
    cases last : (items.newRequestQueue thread).tail with
    | none => rfl
    | some target =>
      apply Function.update_of_ne
      rintro rfl
      rw [last] at tail
      have queued := own item (List.mem_of_getLast? tail.symm)
      exact notQueue (Option.some.inj (there.symm.trans queued))

/-- A processor goes on with the items it has. -/
theorem Inv.setProcessor {items : RequestItems} {owner : ℕ → Option Owner} {index thread : ℕ}
    {old : ProcessorPhase} (inv : items.Inv owner)
    (found : items.processors[index]? = some (thread, old)) {phase : ProcessorPhase}
    (same : ∀ item ∈ phase.items, item ∈ old.items) :
    (items.setProcessor index thread phase).Inv owner := by
  refine inv.of_kept (· = .worker index) inv.fresh ?_ ?_ inv.alternates
  · rintro _ rfl another new there item member
    obtain rfl := phase_of_setProcessor found there
    exact inv.owners (.worker index) thread old found item (same item member)
  · intro one other
    exact ⟨untouched_setProcessor (by cases one <;> rfl) other, fun _ own => own, fun _ _ => rfl,
      fun _ _ lent => lent⟩

/-- The first item of a queue goes to the processor. -/
theorem Inv.rqItemPop {items : RequestItems} {owner : ℕ → Option Owner} {index thread : ℕ}
    (inv : items.Inv owner) (found : items.processors[index]? = some (thread, .woken)) :
    ∃ newOwner, (items.rqItemPop index thread).Inv newOwner := by
  obtain ⟨list, chain, tail, own⟩ := inv.owners (.queue thread)
  rw [RequestItems.rqItemPop]
  dsimp only
  split
  · exact ⟨owner, inv.setProcessor found fun _ member => absurd member List.not_mem_nil⟩
  · next rqItem head =>
    rw [head] at chain
    have distinct := chain.nodup
    obtain ⟨rest, rfl, behind⟩ := chain_some.mp chain
    have here := own rqItem List.mem_cons_self
    refine ⟨_, inv.move here (.worker index) rfl ?_ ?_ ?_ (fun _ _ _ _ _ => rfl)
      (fun _ _ lent => lent) inv.alternates⟩
    · refine ⟨rest, ?_, ?_, fun item member => ?_⟩
      · change Chain items.next (Function.update items.newRequestQueue thread _ thread).head rest
        rw [Function.update_self]
        exact behind
      · change (Function.update items.newRequestQueue thread _ thread).tail = _
        rw [Function.update_self]
        dsimp only
        rw [tail]
        cases rest with
        | nil =>
          rw [show items.next rqItem = none from behind]
          rfl
        | cons following more =>
          rw [behind.1, if_neg (by simp), List.getLast?_cons_cons]
      · have differ : item ≠ rqItem := by
          rintro rfl
          exact (List.nodup_cons.mp distinct).1 member
        rw [Function.update_of_ne differ, own item (List.mem_cons_of_mem _ member)]
    · intro another phase there item member
      obtain rfl := phase_of_setProcessor found there
      rw [List.mem_singleton.mp member, Function.update_self]
    · intro one notQueue other
      refine untouched_setProcessor ?_ other
      cases one with
      | freeList => rfl
      | queue another => exact Function.update_of_ne (fun same => notQueue (by rw [same])) ..
      | dispatcher call => rfl
      | worker another => rfl

/-- The item of a processor goes back to the free list. -/
theorem Inv.rqItemFree {items : RequestItems} {owner : ℕ → Option Owner} {index thread rqItem : ℕ}
    {old : ProcessorPhase} (inv : items.Inv owner)
    (found : items.processors[index]? = some (thread, old)) (held : rqItem ∈ old.items) :
    ∃ newOwner, (items.rqItemFree index thread rqItem).Inv newOwner := by
  have here : owner rqItem = some (.worker index) :=
    inv.owners (.worker index) thread old found rqItem held
  obtain ⟨list, chain, own⟩ := inv.owners .freeList
  have outside : rqItem ∉ list := by
    intro member
    cases here.symm.trans (own rqItem member).1
  refine ⟨_, inv.move here .freeList rfl ?_ ?_ ?_ ?_
    (fun _ _ lent => (lent_of_freed lent).2) ?_⟩
  · intro another phase there item member
    obtain rfl := phase_of_setProcessor found there
    exact absurd member List.not_mem_nil
  · refine ⟨rqItem :: list, chain.push outside, fun item member => ?_⟩
    rcases List.mem_cons.mp member with rfl | old
    · exact ⟨Function.update_self .., fun lent => (lent_of_freed lent).1 rfl⟩
    · have differ : item ≠ rqItem := by
        rintro rfl
        exact outside old
      obtain ⟨free, never⟩ := own item old
      exact ⟨by rw [Function.update_of_ne differ, free], fun lent => never (lent_of_freed lent).2⟩
  · intro one other notFree
    refine untouched_setProcessor ?_ other
    cases one with
    | freeList => exact absurd rfl notFree
    | queue another => rfl
    | dispatcher call => rfl
    | worker another => rfl
  · intro item one there other _
    apply Function.update_of_ne
    rintro rfl
    exact other (Option.some.inj (there.symm.trans here))
  · exact inv.alternates.concat fun item same => nomatch same

/-! ## Runs -/

theorem inv_init : init.Inv fun _ => none where
  fresh item _ := ⟨rfl, not_lent_nil item⟩
  owners one := by
    cases one with
    | freeList => exact ⟨[], rfl, fun _ member => absurd member List.not_mem_nil⟩
    | queue thread => exact ⟨[], rfl, rfl, fun _ member => absurd member List.not_mem_nil⟩
    | dispatcher call =>
      intro phase found
      exact absurd found (by simp [init])
    | worker index =>
      intro thread phase found
      exact absurd found (by simp [init])
  alternates := alternates_nil

private theorem getElem?_concat_of_ne {α : Type} {l : List α} {index : ℕ} (differ : index ≠ l.length)
    (last : α) : (l ++ [last])[index]? = l[index]? := by
  rcases Nat.lt_or_gt_of_ne differ with inside | beyond
  · exact List.getElem?_append_left inside
  · rw [List.getElem?_eq_none (by rw [List.length_append, List.length_singleton]; omega),
      List.getElem?_eq_none (by omega)]

/-- A dispatch begins. -/
theorem Inv.dispatchRpcCall {items : RequestItems} {owner : ℕ → Option Owner} (inv : items.Inv owner) :
    ({ items with dispatches := items.dispatches ++ [.starting] } : RequestItems).Inv owner := by
  refine inv.of_kept (· = .dispatcher items.dispatches.length) inv.fresh ?_ ?_ inv.alternates
  · rintro _ rfl phase there
    rw [List.getElem?_concat_length] at there
    cases there
    exact ⟨fun _ member => absurd member List.not_mem_nil, by simp, by simp, by simp⟩
  · intro one other
    refine ⟨?_, fun _ own => own, fun _ _ => rfl, fun _ _ lent => lent⟩
    cases one with
    | freeList => rfl
    | queue thread => rfl
    | worker index => rfl
    | dispatcher call =>
      have differ : call ≠ items.dispatches.length := fun same => other (by rw [same])
      exact getElem?_concat_of_ne differ _

/-- A worker is called back. -/
theorem Inv.libevProcessor {items : RequestItems} {owner : ℕ → Option Owner} (inv : items.Inv owner)
    (thread : ℕ) :
    ({ items with processors := items.processors ++ [(thread, .woken)] } : RequestItems).Inv owner := by
  refine inv.of_kept (· = .worker items.processors.length) inv.fresh ?_ ?_ inv.alternates
  · rintro _ rfl another phase there
    rw [List.getElem?_concat_length] at there
    cases there
    exact fun _ member => absurd member List.not_mem_nil
  · intro one other
    refine ⟨?_, fun _ own => own, fun _ _ => rfl, fun _ _ lent => lent⟩
    cases one with
    | freeList => rfl
    | queue thread => rfl
    | dispatcher call => rfl
    | worker index =>
      have differ : index ≠ items.processors.length := fun same => other (by rw [same])
      exact getElem?_concat_of_ne differ _

theorem inv_step {items next : RequestItems} {action : Action} {owner : ℕ → Option Owner}
    (inv : items.Inv owner) (success : items.step action = some next) :
    ∃ newOwner, next.Inv newOwner := by
  cases action with
  | dispatchRpcCall =>
    cases success
    exact ⟨owner, inv.dispatchRpcCall⟩
  | rqItemNew call =>
    rw [step] at success
    split at success
    · next found =>
      cases success
      exact inv.rqItemNew found
    · contradiction
  | malloc call allocates =>
    rw [step] at success
    split at success
    · next found =>
      cases success
      exact inv.malloc found allocates
    · contradiction
  | link call =>
    rw [step] at success
    split at success
    · next rqItem found =>
      cases success
      exact inv.link found
    · contradiction
  | clearNext call thread =>
    rw [step] at success
    split at success
    · next rqItem found =>
      cases success
      exact ⟨owner, inv.clearNext found thread⟩
    · contradiction
  | rqItemPush call =>
    rw [step] at success
    split at success
    · next rqItem thread found =>
      cases success
      exact inv.rqItemPush found
    · contradiction
  | libevProcessor thread =>
    cases success
    exact ⟨owner, inv.libevProcessor thread⟩
  | rqItemPop index =>
    rw [step] at success
    split at success
    · next thread found =>
      cases success
      exact inv.rqItemPop found
    · contradiction
  | execute index =>
    rw [step] at success
    split at success
    · next thread item found =>
      cases success
      exact ⟨owner, inv.setProcessor found fun _ member => member⟩
    · contradiction
  | retrieveDataAction index =>
    rw [step] at success
    split at success
    · next thread item found =>
      cases success
      exact inv.rqItemFree found (List.mem_singleton_self item)
    · contradiction
  | complete index =>
    rw [step] at success
    split at success
    · next thread item found =>
      cases success
      exact ⟨owner, inv.setProcessor found fun _ member => member⟩
    · contradiction
  | rqItemFree index =>
    rw [step] at success
    split at success
    · next thread item found =>
      cases success
      exact inv.rqItemFree found (List.mem_singleton_self item)
    · contradiction

theorem inv_run {actions : List Action} {final : RequestItems} (run : Run step init actions final) :
    ∃ owner, final.Inv owner := by
  induction run with
  | nil => exact ⟨_, inv_init⟩
  | snoc run success ih =>
    obtain ⟨owner, inv⟩ := ih
    exact inv_step inv success

/-- An item is only met where its owner is. -/
theorem Inv.owner_of_owns {items : RequestItems} {owner : ℕ → Option Owner} (inv : items.Inv owner)
    {one : Owner} {rqItem : ℕ} (owns : items.Owns one rqItem) : owner rqItem = some one := by
  have holds := inv.owners one
  cases one with
  | freeList =>
    obtain ⟨list, chain, own⟩ := holds
    exact (own rqItem (chain.met_iff.mp owns)).1
  | queue thread =>
    obtain ⟨list, chain, _, own⟩ := holds
    exact own rqItem (chain.met_iff.mp owns)
  | dispatcher call =>
    obtain ⟨phase, found, member⟩ := owns
    exact (holds phase found).own rqItem member
  | worker index =>
    obtain ⟨thread, phase, found, member⟩ := owns
    exact holds thread phase found rqItem member

/-- In every interleaving an item has at most one owner, the lists end without a repetition, and an item
that is handed out twice is freed in between. -/
theorem separated (actions : List Action) (final : RequestItems)
    (run : Run step init actions final) : final.Separated := by
  obtain ⟨owner, inv⟩ := inv_run run
  refine ⟨?_, ?_, ?_, ?_, inv.alternates⟩
  · intro rqItem first second one other
    exact Option.some.inj ((inv.owner_of_owns one).symm.trans (inv.owner_of_owns other))
  · intro rqItem one owns
    exact inv.lt_allocated (inv.owner_of_owns owns)
  · obtain ⟨list, chain, _⟩ := inv.owners .freeList
    exact ⟨list, chain, chain.nodup⟩
  · intro thread
    obtain ⟨list, chain, _⟩ := inv.owners (.queue thread)
    exact ⟨list, chain, chain.nodup⟩

/-- Two dispatches allocate at the same time; the processor of one of their calls is cancelled, and its
item is handed out again. -/
def twoDispatches : List Action :=
  [.dispatchRpcCall, .dispatchRpcCall, .rqItemNew 0, .rqItemNew 1, .malloc 0 true, .malloc 1 true,
    .link 1, .link 0, .clearNext 0 0, .clearNext 1 0, .rqItemPush 1, .rqItemPush 0, .libevProcessor 0,
    .rqItemPop 0, .execute 0, .retrieveDataAction 0, .dispatchRpcCall, .rqItemNew 2]

private theorem twoDispatches_isSome : (twoDispatches.foldlM step init).isSome := by decide

theorem separated_sample : ∃ final, Run step init twoDispatches final ∧ final.Separated :=
  ⟨_, Run.of_isSome twoDispatches_isSome,
    separated twoDispatches _ (Run.of_isSome twoDispatches_isSome)⟩

end RequestItems

end LibEvRpc
