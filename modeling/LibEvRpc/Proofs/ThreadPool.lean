import LibEvRpc.Server.LibevThreadPool
import Mathlib.Data.List.Nodup

/-! # Delivery of calls to the pool of workers

An item is in one place at a time, so a queued call is not overwritten. A worker's untaken calls are
as many as its notifications that are unread, still to be written or just read; so it finds a call
whenever it is woken, and makes its calls in the order of the pushes. That is the order of dispatch: a
call is pushed before the next one of its dispatcher begins.
-/

namespace LibEvRpc

namespace LibevThreadPool

/-! ## Places of items -/

inductive Place where
  | fresh
  | free
  | call (call : ℕ)
  | queued (thread : ℕ)
  | taken (thread : ℕ)

end LibevThreadPool

def Dispatch.item? : Dispatch → Option ℕ
  | .holding item | .picked item _ | .stored item _ => some item
  | .starting | .mallocing | .pushed _ | .returned _ | .failed => none

/-- The worker to whose queue a dispatch has pushed its call. -/
def Dispatch.target? : Dispatch → Option ℕ
  | .pushed thread | .returned thread => some thread
  | .starting | .mallocing | .holding _ | .picked _ _ | .stored _ _ | .failed => none

def WorkerPhase.item? : WorkerPhase → Option ℕ
  | .popped item => item
  | .executing item | .freeing item => some item
  | .waiting | .woken => none

/-- The item whose call a worker has taken and not made. -/
def WorkerPhase.toMake : WorkerPhase → List ℕ
  | .popped item => item.toList
  | .waiting | .woken | .executing _ | .freeing _ => []

namespace LibevThreadPool

/-- The notifications of a worker that are still to be written. -/
def unwritten (pool : LibevThreadPool) (thread : ℕ) : ℕ := pool.calls.count (.pushed thread)

/-- The items and the calls of one worker, with the number of its notifications that are still to be
written. -/
structure WorkerInv (place : ℕ → Place) (param : ℕ → ℕ) (unwritten thread : ℕ) (state : LibevThread) :
    Prop where
  queue : ∀ item ∈ state.newRequestQueue, place item = .queued thread
  queueNodup : state.newRequestQueue.Nodup
  taken : ∀ item, state.phase.item? = some item → place item = .taken thread
  log : state.queued = state.executed ++ (state.phase.toMake ++ state.newRequestQueue).map param
  count : state.newRequestQueue.length =
    state.notified + unwritten + if state.phase = .woken then 1 else 0
  nonNull : state.phase ≠ .popped none

/-- The free items, those of the dispatches and the workers. -/
structure Inv (pool : LibevThreadPool) (place : ℕ → Place) : Prop where
  fresh : ∀ item, pool.allocated ≤ item → place item = .fresh
  free : ∀ item ∈ pool.rqiFreelist, place item = .free
  freeNodup : pool.rqiFreelist.Nodup
  held : ∀ call dispatch item, pool.calls[call]? = some dispatch → dispatch.item? = some item →
    place item = .call call
  stored : ∀ call item thread, pool.calls[call]? = some (.stored item thread) → pool.param item = call
  workers : ∀ thread, WorkerInv place pool.param (pool.unwritten thread) thread (pool.libevThreads thread)
  queued : ∀ thread call, call ∈ (pool.libevThreads thread).queued ↔
    ∃ dispatch, pool.calls[call]? = some dispatch ∧ dispatch.target? = some thread
  queuedNodup : ∀ thread, (pool.libevThreads thread).queued.Nodup

/-- An item of a worker is in no other place. -/
theorem WorkerInv.congr {place newPlace : ℕ → Place} {param newParam : ℕ → ℕ} {unwritten thread : ℕ}
    {state : LibevThread} (inv : WorkerInv place param unwritten thread state)
    (places : ∀ item, place item = .queued thread ∨ place item = .taken thread →
      newPlace item = place item ∧ newParam item = param item) :
    WorkerInv newPlace newParam unwritten thread state where
  queue item member := (places item (.inl (inv.queue item member))).1.trans (inv.queue item member)
  queueNodup := inv.queueNodup
  taken item held := (places item (.inr (inv.taken item held))).1.trans (inv.taken item held)
  log := by
    rw [inv.log, List.append_cancel_left_eq]
    apply List.map_congr_left
    intro item member
    refine (places item ?_).2.symm
    rcases List.mem_append.mp member with held | queued
    · right
      apply inv.taken
      cases phase : state.phase with
      | popped popped =>
        rw [phase, WorkerPhase.toMake, Option.mem_toList] at held
        exact held
      | waiting => rw [phase] at held; contradiction
      | woken => rw [phase] at held; contradiction
      | executing _ => rw [phase] at held; contradiction
      | freeing _ => rw [phase] at held; contradiction
    · exact .inl (inv.queue item queued)
  count := inv.count
  nonNull := inv.nonNull

theorem inv_start (numThreads : ℕ) (threadId : ℕ → UInt64) :
    (start numThreads threadId).Inv fun _ => .fresh where
  fresh _ _ := rfl
  free _ member := absurd member List.not_mem_nil
  freeNodup := List.nodup_nil
  held _ _ _ found := by simp [start] at found
  stored _ _ _ found := by simp [start] at found
  workers thread := by
    refine ⟨?_, List.nodup_nil, ?_, rfl, rfl, ?_⟩
    · exact fun _ member => absurd member List.not_mem_nil
    · intro item held
      contradiction
    · intro null
      contradiction
  queued thread call := by simp [start]
  queuedNodup _ := List.nodup_nil

theorem WorkerInv.update {place : ℕ → Place} {param : ℕ → ℕ} {unwritten thread item : ℕ}
    {state : LibevThread} (inv : WorkerInv place param unwritten thread state) (next : Place)
    (notQueued : place item ≠ .queued thread) (notTaken : place item ≠ .taken thread) :
    WorkerInv (Function.update place item next) param unwritten thread state := by
  apply inv.congr
  intro other here
  refine ⟨Function.update_of_ne ?_ .., rfl⟩
  rintro rfl
  exact here.elim notQueued notTaken

private theorem nodup_concat {α : Type} {l : List α} {a : α} (nodup : l.Nodup) (absent : a ∉ l) :
    (l ++ [a]).Nodup :=
  List.nodup_append.mpr ⟨nodup, List.nodup_singleton a, fun _ member _ new same =>
    absent (List.mem_singleton.mp new ▸ same ▸ member)⟩

/-- A call is pushed to the queue of a worker, and its notification is still to be written. -/
theorem WorkerInv.push {place : ℕ → Place} {param : ℕ → ℕ} {unwritten thread item call : ℕ}
    {state : LibevThread} (inv : WorkerInv place param unwritten thread state)
    (notQueued : place item ≠ .queued thread) (notTaken : place item ≠ .taken thread)
    (stored : param item = call) :
    WorkerInv (Function.update place item (.queued thread)) param (unwritten + 1) thread
      { state with
        newRequestQueue := state.newRequestQueue ++ [item], queued := state.queued ++ [call] } := by
  have moved := inv.update (.queued thread) notQueued notTaken
  refine ⟨?_, ?_, moved.taken, ?_, ?_, inv.nonNull⟩
  · intro other member
    rcases List.mem_append.mp member with old | new
    · exact moved.queue other old
    · rw [List.mem_singleton.mp new]
      exact Function.update_self ..
  · exact nodup_concat inv.queueNodup fun member => notQueued (inv.queue item member)
  · rw [inv.log]
    simp [stored]
  · rw [List.length_append, inv.count, List.length_singleton]
    dsimp only
    omega

/-! ## Steps of a dispatch -/

theorem getElem?_setCall {pool : LibevThreadPool} {call : ℕ} {old : Dispatch}
    (found : pool.calls[call]? = some old) (new : Dispatch) (other : ℕ) :
    (pool.setCall call new).calls[other]? = if other = call then some new else pool.calls[other]? := by
  have bound : call < pool.calls.length := (List.getElem?_eq_some_iff.mp found).1
  rw [setCall, List.getElem?_set]
  rcases eq_or_ne other call with rfl | differ
  · rw [if_pos rfl, if_pos rfl, if_pos bound]
  · rw [if_neg differ.symm, if_neg differ]

theorem unwritten_setCall {pool : LibevThreadPool} {call : ℕ} {old : Dispatch}
    (found : pool.calls[call]? = some old) (new : Dispatch) (thread : ℕ) :
    (pool.setCall call new).unwritten thread + (if old = .pushed thread then 1 else 0) =
      pool.unwritten thread + if new = .pushed thread then 1 else 0 := by
  obtain ⟨bound, here⟩ := List.getElem?_eq_some_iff.mp found
  have member : old = .pushed thread → 1 ≤ pool.calls.count (.pushed thread) := by
    intro same
    exact List.one_le_count_iff.mpr (same ▸ here ▸ List.getElem_mem bound)
  rw [unwritten, unwritten, setCall, List.count_set bound, here]
  simp only [beq_iff_eq]
  split
  · next same =>
    have positive := member same
    omega
  · omega

/-- A dispatch that neither gets an item nor pushes or writes. -/
theorem Inv.setCall {pool : LibevThreadPool} {place : ℕ → Place} {call : ℕ} {old new : Dispatch}
    (inv : pool.Inv place) (found : pool.calls[call]? = some old)
    (item : ∀ item, new.item? = some item → old.item? = some item)
    (target : new.target? = old.target?)
    (stored : ∀ item thread, new = .stored item thread → pool.param item = call)
    (pushed : ∀ thread, old = .pushed thread ↔ new = .pushed thread) :
    (pool.setCall call new).Inv place where
  fresh := inv.fresh
  free := inv.free
  freeNodup := inv.freeNodup
  held other dispatch held here has := by
    rw [getElem?_setCall found] at here
    split at here
    · next same =>
      cases here
      rw [same]
      exact inv.held call old held found (item held has)
    · exact inv.held other dispatch held here has
  stored other held thread here := by
    rw [getElem?_setCall found] at here
    split at here
    · next same => rw [same]; exact stored held thread (Option.some.inj here)
    · exact inv.stored other held thread here
  workers thread := by
    have count := unwritten_setCall found new thread
    simp only [pushed thread] at count
    rw [Nat.add_right_cancel count]
    exact inv.workers thread
  queued thread other := by
    rw [getElem?_setCall found]
    change other ∈ (pool.libevThreads thread).queued ↔ _
    rw [inv.queued]
    split
    · next same => simp [same, found, target]
    · rfl
  queuedNodup := inv.queuedNodup

theorem Inv.dispatchRpcCall {pool : LibevThreadPool} {place : ℕ → Place} (inv : pool.Inv place) :
    ({ pool with calls := pool.calls ++ [.starting] } : LibevThreadPool).Inv place := by
  have found {call : ℕ} {dispatch : Dispatch}
      (here : (pool.calls ++ [.starting])[call]? = some dispatch) :
      pool.calls[call]? = some dispatch ∨ dispatch = .starting := by
    rw [List.getElem?_append] at here
    split at here
    · exact .inl here
    · exact .inr (by simpa using List.mem_of_getElem? here)
  refine ⟨inv.fresh, inv.free, inv.freeNodup, ?_, ?_, ?_, ?_, inv.queuedNodup⟩
  · intro call dispatch item here has
    rcases found here with earlier | rfl
    · exact inv.held call dispatch item earlier has
    · contradiction
  · intro call item thread here
    rcases found here with earlier | same
    · exact inv.stored call item thread earlier
    · contradiction
  · intro thread
    have same : ({ pool with calls := pool.calls ++ [.starting] } : LibevThreadPool).unwritten thread =
        pool.unwritten thread := by
      simp [unwritten]
    rw [same]
    exact inv.workers thread
  · intro thread call
    rw [show ({ pool with calls := pool.calls ++ [.starting] } : LibevThreadPool).libevThreads =
      pool.libevThreads from rfl, inv.queued]
    constructor
    · rintro ⟨dispatch, here, targets⟩
      exact ⟨dispatch, List.getElem?_append_left (List.getElem?_eq_some_iff.mp here).1 ▸ here, targets⟩
    · rintro ⟨dispatch, here, targets⟩
      rcases found here with earlier | rfl
      · exact ⟨dispatch, earlier, targets⟩
      · contradiction

/-- A dispatch gets an item that was free or new. -/
theorem Inv.hold {pool : LibevThreadPool} {place newPlace : ℕ → Place} {call item allocated : ℕ}
    {old : Dispatch} {freelist : List ℕ} (inv : pool.Inv place) (found : pool.calls[call]? = some old)
    (target : old.target? = none)
    (fresh : ∀ item, allocated ≤ item → newPlace item = .fresh)
    (free : ∀ item ∈ freelist, newPlace item = .free) (freeNodup : freelist.Nodup)
    (held : newPlace item = .call call)
    (kept : ∀ item, place item ≠ .fresh → place item ≠ .free → newPlace item = place item) :
    ({ pool with allocated, rqiFreelist := freelist }.setCall call (.holding item)).Inv newPlace := by
  have lookup := @getElem?_setCall { pool with allocated, rqiFreelist := freelist } call old found
    (.holding item)
  refine ⟨fresh, free, freeNodup, ?_, ?_, ?_, ?_, inv.queuedNodup⟩
  · intro other dispatch heldItem here has
    rw [lookup] at here
    split at here
    · next same =>
      cases here
      cases has
      rw [same]
      exact held
    · have earlier := inv.held other dispatch heldItem here has
      rw [kept heldItem (by rw [earlier]; simp) (by rw [earlier]; simp), earlier]
  · intro other heldItem thread here
    rw [lookup] at here
    split at here
    · cases here
    · exact inv.stored other heldItem thread here
  · intro thread
    have count := unwritten_setCall found (.holding item) thread
    have notPushed : old ≠ .pushed thread := by
      rintro rfl
      contradiction
    rw [if_neg notPushed, if_neg (by simp)] at count
    change WorkerInv newPlace pool.param ((pool.setCall call (.holding item)).unwritten thread) thread _
    rw [Nat.add_right_cancel count]
    apply (inv.workers thread).congr
    intro other here
    refine ⟨kept other ?_ ?_, rfl⟩
    · rcases here with here | here <;> simp [here]
    · rcases here with here | here <;> simp [here]
  · intro thread other
    rw [lookup]
    change other ∈ (pool.libevThreads thread).queued ↔ _
    rw [inv.queued]
    split
    · next same =>
      have none : (Dispatch.holding item).target? = none := rfl
      simp [same, found, target, none]
    · rfl

theorem Inv.rqItemNew {pool : LibevThreadPool} {place : ℕ → Place} {call : ℕ} (inv : pool.Inv place)
    (found : pool.calls[call]? = some .starting) : ∃ newPlace, (pool.rqItemNew call).Inv newPlace := by
  rw [LibevThreadPool.rqItemNew]
  split
  · next item rest shape =>
    have nodup := inv.freeNodup
    rw [shape, List.nodup_cons] at nodup
    have here : place item = .free := inv.free item (shape ▸ List.mem_cons_self)
    refine ⟨Function.update place item (.call call), inv.hold found rfl ?_ ?_ nodup.2 ?_ ?_⟩
    · intro other bound
      have new := inv.fresh other bound
      rw [Function.update_of_ne, new]
      rintro rfl
      rw [new] at here
      contradiction
    · intro other member
      rw [Function.update_of_ne]
      · exact inv.free other (shape ▸ List.mem_cons_of_mem item member)
      · rintro rfl
        exact nodup.1 member
    · exact Function.update_self ..
    · intro other _ notFree
      apply Function.update_of_ne
      rintro rfl
      exact notFree here
  · exact ⟨place, inv.setCall found (by simp [Dispatch.item?]) rfl (by simp) (by simp)⟩

theorem Inv.malloc {pool : LibevThreadPool} {place : ℕ → Place} {call : ℕ} (inv : pool.Inv place)
    (found : pool.calls[call]? = some .mallocing) (success : Bool) :
    ∃ newPlace, (pool.malloc call success).Inv newPlace := by
  rw [LibevThreadPool.malloc]
  split
  · -- the first new item is held, the others are free
    have block {item : ℕ} : item ∈ List.range' (pool.allocated + 1) (itemPerAlloc - 1) ↔
        pool.allocated < item ∧ item < pool.allocated + 64 := by
      rw [List.mem_range'_1]
      change pool.allocated + 1 ≤ item ∧ item < pool.allocated + 1 + 63 ↔ _
      omega
    refine ⟨fun item =>
      if item = pool.allocated then .call call
      else if item ∈ List.range' (pool.allocated + 1) (itemPerAlloc - 1) then .free
      else place item, inv.hold found rfl ?_ ?_ ?_ ?_ ?_⟩
    · intro item bound
      change pool.allocated + 64 ≤ item at bound
      rw [if_neg (by omega), if_neg (by rw [block]; omega)]
      exact inv.fresh item (by omega)
    · intro item member
      rcases List.mem_append.mp member with new | old
      · rw [if_neg (by rw [block] at new; omega), if_pos new]
      · have here := inv.free item old
        have below : item < pool.allocated := by
          by_contra above
          rw [inv.fresh item (by omega)] at here
          contradiction
        rw [if_neg (by omega), if_neg (by rw [block]; omega), here]
    · refine List.nodup_append.mpr ⟨List.nodup_range', inv.freeNodup, ?_⟩
      rintro item new _ old rfl
      rw [block] at new
      have here := inv.free item old
      rw [inv.fresh item (by omega)] at here
      contradiction
    · exact if_pos rfl
    · intro item notFresh _
      have below : item < pool.allocated := by
        by_contra above
        exact notFresh (inv.fresh item (by omega))
      rw [if_neg (by omega), if_neg (by rw [block]; omega)]
  · exact ⟨place, inv.setCall found (by simp [Dispatch.item?]) rfl (by simp) (by simp)⟩

theorem Inv.store {pool : LibevThreadPool} {place : ℕ → Place} {call item curTid : ℕ}
    (inv : pool.Inv place) (found : pool.calls[call]? = some (.picked item curTid)) :
    ({ pool with
      currentThread := curTid
      param := Function.update pool.param item call }.setCall call (.stored item curTid)).Inv place := by
  have here : place item = .call call := inv.held call _ item found rfl
  have renewed : ({ pool with
      currentThread := curTid
      param := Function.update pool.param item call } : LibevThreadPool).Inv place := by
    refine ⟨inv.fresh, inv.free, inv.freeNodup, inv.held, ?_, ?_, inv.queued, inv.queuedNodup⟩
    · intro other otherItem thread stored
      have there := inv.held other _ otherItem stored rfl
      change Function.update pool.param item call otherItem = other
      rw [Function.update_of_ne]
      · exact inv.stored other otherItem thread stored
      · rintro rfl
        rw [here] at there
        cases there
        rw [found] at stored
        cases stored
    · intro thread
      apply (inv.workers thread).congr
      intro other there
      refine ⟨rfl, Function.update_of_ne ?_ ..⟩
      rintro rfl
      rw [here] at there
      rcases there with there | there <;> contradiction
  apply renewed.setCall found
  · exact fun _ has => has
  · rfl
  · intro otherItem thread same
    cases same
    exact Function.update_self ..
  · simp

theorem Inv.rqItemPush {pool : LibevThreadPool} {place : ℕ → Place} {call item thread : ℕ}
    (inv : pool.Inv place) (found : pool.calls[call]? = some (.stored item thread)) :
    (pool.rqItemPush call item thread).Inv (Function.update place item (.queued thread)) := by
  have here : place item = .call call := inv.held call _ item found rfl
  have elsewhere {other : ℕ} (differ : place other ≠ .call call) :
      Function.update place item (.queued thread) other = place other := by
    apply Function.update_of_ne
    rintro rfl
    exact differ here
  have lookup := getElem?_setCall found (.pushed thread)
  have notQueued : call ∉ (pool.libevThreads thread).queued := by
    rw [inv.queued, found]
    rintro ⟨dispatch, same, targets⟩
    cases same
    contradiction
  refine ⟨?_, ?_, inv.freeNodup, ?_, ?_, ?_, ?_, ?_⟩
  · intro other bound
    rw [elsewhere (by rw [inv.fresh other bound]; simp), inv.fresh other bound]
  · intro other member
    rw [elsewhere (by rw [inv.free other member]; simp), inv.free other member]
  · intro other dispatch heldItem there has
    change (pool.setCall call (.pushed thread)).calls[other]? = some dispatch at there
    rw [lookup] at there
    split at there
    · cases there
      contradiction
    · next differ =>
      have earlier := inv.held other dispatch heldItem there has
      rw [elsewhere (by rw [earlier]; simpa using differ), earlier]
  · intro other heldItem target there
    change (pool.setCall call (.pushed thread)).calls[other]? = _ at there
    rw [lookup] at there
    split at there
    · cases there
    · exact inv.stored other heldItem target there
  · intro other
    have count := unwritten_setCall found (.pushed thread) other
    rw [if_neg (by simp)] at count
    have own := inv.workers other
    rcases eq_or_ne other thread with rfl | differ
    · rw [if_pos rfl] at count
      change WorkerInv _ pool.param ((pool.setCall call (.pushed other)).unwritten other) other
        ((pool.setThread other _).libevThreads other)
      rw [setThread_self, show (pool.setCall call (.pushed other)).unwritten other = _ from count]
      exact own.push (by rw [here]; simp) (by rw [here]; simp) (inv.stored call item other found)
    · rw [if_neg (by simpa using differ.symm)] at count
      change WorkerInv _ pool.param ((pool.setCall call (.pushed thread)).unwritten other) other
        ((pool.setThread thread _).libevThreads other)
      rw [setThread_ne differ, Nat.add_right_cancel count]
      exact own.update _ (by rw [here]; simp) (by rw [here]; simp)
  · intro other pushed
    change pushed ∈ ((pool.setThread thread _).libevThreads other).queued ↔
      ∃ dispatch, (pool.setCall call (.pushed thread)).calls[pushed]? = some dispatch ∧ _
    rw [lookup]
    rcases eq_or_ne other thread with rfl | differ
    · rw [setThread_self, List.mem_append, List.mem_singleton, inv.queued]
      split
      · next same => simp [same, Dispatch.target?]
      · next differ => simp [differ]
    · rw [setThread_ne differ, inv.queued]
      split
      · next same =>
        rw [same, found]
        simp [Dispatch.target?, differ.symm]
      · rfl
  · intro other
    change ((pool.setThread thread _).libevThreads other).queued.Nodup
    rcases eq_or_ne other thread with rfl | differ
    · rw [setThread_self]
      exact nodup_concat (inv.queuedNodup other) notQueued
    · rw [setThread_ne differ]
      exact inv.queuedNodup other

theorem Inv.write {pool : LibevThreadPool} {place : ℕ → Place} {call thread : ℕ}
    (inv : pool.Inv place) (found : pool.calls[call]? = some (.pushed thread)) :
    (pool.write call thread).Inv place := by
  have lookup := getElem?_setCall found (.returned thread)
  have same (other : ℕ) : ((pool.write call thread).libevThreads other).queued =
      (pool.libevThreads other).queued := by
    change ((pool.setThread thread _).libevThreads other).queued = _
    rcases eq_or_ne other thread with rfl | differ
    · rw [setThread_self]
    · rw [setThread_ne differ]
  refine ⟨inv.fresh, inv.free, inv.freeNodup, ?_, ?_, ?_, ?_, ?_⟩
  · intro other dispatch item there has
    change (pool.setCall call (.returned thread)).calls[other]? = some dispatch at there
    rw [lookup] at there
    split at there
    · cases there
      contradiction
    · exact inv.held other dispatch item there has
  · intro other item target there
    change (pool.setCall call (.returned thread)).calls[other]? = _ at there
    rw [lookup] at there
    split at there
    · cases there
    · exact inv.stored other item target there
  · intro other
    have count := unwritten_setCall found (.returned thread) other
    rw [if_neg (c := Dispatch.returned thread = .pushed other) (by simp)] at count
    change WorkerInv place pool.param ((pool.setCall call (.returned thread)).unwritten other) other
      ((pool.setThread thread _).libevThreads other)
    have own := inv.workers other
    rcases eq_or_ne other thread with rfl | differ
    · rw [if_pos rfl] at count
      rw [setThread_self]
      refine ⟨own.queue, own.queueNodup, own.taken, own.log, ?_, own.nonNull⟩
      rw [own.count]
      dsimp only
      omega
    · rw [if_neg (by simpa using differ.symm)] at count
      rw [setThread_ne differ, Nat.add_right_cancel count]
      exact own
  · intro other pushed
    rw [same, inv.queued]
    change _ ↔ ∃ dispatch, (pool.setCall call (.returned thread)).calls[pushed]? = some dispatch ∧ _
    rw [lookup]
    split
    · next same => simp [same, found, Dispatch.target?]
    · rfl
  · intro other
    rw [same]
    exact inv.queuedNodup other

/-! ## Steps of a worker -/

/-- A worker goes on, and the places of its own items may change. -/
theorem Inv.setThread {pool : LibevThreadPool} {place newPlace : ℕ → Place} {thread : ℕ}
    {state : LibevThread} (inv : pool.Inv place)
    (kept : ∀ item, place item ≠ .queued thread → place item ≠ .taken thread →
      newPlace item = place item)
    (own : WorkerInv newPlace pool.param (pool.unwritten thread) thread state)
    (queued : state.queued = (pool.libevThreads thread).queued) :
    (pool.setThread thread state).Inv newPlace := by
  have same (other : ℕ) : ((pool.setThread thread state).libevThreads other).queued =
      (pool.libevThreads other).queued := by
    rcases eq_or_ne other thread with rfl | differ
    · rw [setThread_self, queued]
    · rw [setThread_ne differ]
  refine ⟨?_, ?_, inv.freeNodup, ?_, inv.stored, ?_, ?_, ?_⟩
  · intro item bound
    have here := inv.fresh item bound
    rw [kept item (by simp [here]) (by simp [here]), here]
  · intro item member
    have here := inv.free item member
    rw [kept item (by simp [here]) (by simp [here]), here]
  · intro call dispatch item found has
    have here := inv.held call dispatch item found has
    rw [kept item (by simp [here]) (by simp [here]), here]
  · intro other
    rcases eq_or_ne other thread with rfl | differ
    · rw [setThread_self]
      exact own
    · rw [setThread_ne differ]
      apply (inv.workers other).congr
      intro item here
      refine ⟨kept item ?_ ?_, rfl⟩
      · rcases here with here | here <;> simp [here, differ]
      · rcases here with here | here <;> simp [here, differ]
  · intro other call
    rw [same]
    exact inv.queued other call
  · intro other
    rw [same]
    exact inv.queuedNodup other

theorem Inv.read {pool : LibevThreadPool} {place : ℕ → Place} {thread : ℕ} (inv : pool.Inv place)
    (waiting : (pool.libevThreads thread).phase = .waiting)
    (notified : 0 < (pool.libevThreads thread).notified) :
    (pool.setThread thread { pool.libevThreads thread with
      phase := .woken, notified := (pool.libevThreads thread).notified - 1 }).Inv place := by
  have own := inv.workers thread
  refine inv.setThread (fun _ _ _ => rfl) ⟨own.queue, own.queueNodup, ?_, ?_, ?_, ?_⟩ rfl
  · intro item held
    contradiction
  · rw [own.log, waiting]
    rfl
  · rw [own.count, waiting]
    simp only [if_pos, reduceCtorEq, if_false]
    omega
  · intro null
    contradiction

theorem Inv.rqItemPop {pool : LibevThreadPool} {place : ℕ → Place} {thread : ℕ} (inv : pool.Inv place)
    (woken : (pool.libevThreads thread).phase = .woken) :
    ∃ newPlace, (pool.rqItemPop thread).Inv newPlace := by
  have own := inv.workers thread
  rw [LibevThreadPool.rqItemPop]
  cases shape : (pool.libevThreads thread).newRequestQueue with
  | nil =>
    -- the notification that woke the worker stands for a call
    have count := own.count
    rw [shape, woken, if_pos rfl, List.length_nil] at count
    omega
  | cons item rest =>
    have nodup := own.queueNodup
    rw [shape, List.nodup_cons] at nodup
    have here := own.queue item (shape ▸ List.mem_cons_self)
    refine ⟨Function.update place item (.taken thread), inv.setThread ?_ ⟨?_, nodup.2, ?_, ?_, ?_, ?_⟩ rfl⟩
    · intro other notQueued _
      apply Function.update_of_ne
      rintro rfl
      exact notQueued here
    · intro other member
      rw [Function.update_of_ne]
      · exact own.queue other (shape ▸ List.mem_cons_of_mem item member)
      · rintro rfl
        exact nodup.1 member
    · intro other held
      cases held
      exact Function.update_self ..
    · rw [own.log, woken, shape]
      rfl
    · have count := own.count
      rw [shape, woken, if_pos rfl, List.length_cons] at count
      simp only [List.tail_cons, reduceCtorEq, if_false]
      omega
    · simp

theorem Inv.execute {pool : LibevThreadPool} {place : ℕ → Place} {thread item : ℕ}
    (inv : pool.Inv place) (popped : (pool.libevThreads thread).phase = .popped (some item)) :
    (pool.execute thread item).Inv place := by
  have own := inv.workers thread
  refine inv.setThread (fun _ _ _ => rfl) ⟨own.queue, own.queueNodup, ?_, ?_, ?_, by simp⟩ rfl
  · intro other held
    exact own.taken other (popped ▸ held)
  · rw [own.log, popped]
    simp [WorkerPhase.toMake]
  · rw [own.count, popped]
    rfl

theorem Inv.complete {pool : LibevThreadPool} {place : ℕ → Place} {thread item : ℕ}
    (inv : pool.Inv place) (executing : (pool.libevThreads thread).phase = .executing item) :
    (pool.complete thread item).Inv place := by
  have own := inv.workers thread
  refine inv.setThread (fun _ _ _ => rfl) ⟨own.queue, own.queueNodup, ?_, ?_, ?_, by simp⟩ rfl
  · intro other held
    exact own.taken other (executing ▸ held)
  · rw [own.log, executing]
    rfl
  · rw [own.count, executing]
    rfl

theorem Inv.rqItemFree {pool : LibevThreadPool} {place : ℕ → Place} {thread item : ℕ}
    (inv : pool.Inv place) (freeing : (pool.libevThreads thread).phase = .freeing item) :
    (pool.rqItemFree thread item).Inv (Function.update place item .free) := by
  have own := inv.workers thread
  have here : place item = .taken thread := own.taken item (freeing ▸ rfl)
  have waits : (pool.setThread thread { pool.libevThreads thread with phase := .waiting }).Inv
      (Function.update place item .free) := by
    refine inv.setThread ?_ ⟨?_, own.queueNodup, ?_, ?_, ?_, by simp⟩ rfl
    · intro other _ notTaken
      apply Function.update_of_ne
      rintro rfl
      exact notTaken here
    · intro other member
      have there := own.queue other member
      rw [Function.update_of_ne, there]
      rintro rfl
      rw [here] at there
      contradiction
    · intro other held
      contradiction
    · rw [own.log, freeing]
      rfl
    · rw [own.count, freeing]
      rfl
  refine ⟨waits.fresh, ?_, ?_, waits.held, waits.stored, waits.workers, waits.queued, waits.queuedNodup⟩
  · intro other member
    rcases List.mem_cons.mp member with rfl | old
    · exact Function.update_self ..
    · exact waits.free other old
  · refine List.nodup_cons.mpr ⟨fun member => ?_, inv.freeNodup⟩
    rw [inv.free item member] at here
    contradiction

/-! ## Runs -/

/-- What a step does, with the phase of the dispatch or the worker that it needs. -/
inductive Stepped (pool : LibevThreadPool) : Action → LibevThreadPool → Prop
  | dispatchRpcCall : Stepped pool .dispatchRpcCall { pool with calls := pool.calls ++ [.starting] }
  | rqItemNew {call : ℕ} (found : pool.calls[call]? = some .starting) :
      Stepped pool (.rqItemNew call) (pool.rqItemNew call)
  | malloc {call : ℕ} {success : Bool} (found : pool.calls[call]? = some .mallocing) :
      Stepped pool (.malloc call success) (pool.malloc call success)
  | pick {call item curTid : ℕ} (found : pool.calls[call]? = some (.holding item)) :
      Stepped pool (.pick call) (pool.setCall call (.picked item curTid))
  | store {call item curTid : ℕ} (found : pool.calls[call]? = some (.picked item curTid)) :
      Stepped pool (.store call) ({ pool with
        currentThread := curTid
        param := Function.update pool.param item call }.setCall call (.stored item curTid))
  | rqItemPush {call item thread : ℕ} (found : pool.calls[call]? = some (.stored item thread)) :
      Stepped pool (.rqItemPush call) (pool.rqItemPush call item thread)
  | write {call thread : ℕ} (found : pool.calls[call]? = some (.pushed thread)) :
      Stepped pool (.write call) (pool.write call thread)
  | read {thread : ℕ} (waiting : (pool.libevThreads thread).phase = .waiting)
      (notified : 0 < (pool.libevThreads thread).notified) :
      Stepped pool (.read thread) (pool.setThread thread { pool.libevThreads thread with
        phase := .woken, notified := (pool.libevThreads thread).notified - 1 })
  | rqItemPop {thread : ℕ} (woken : (pool.libevThreads thread).phase = .woken) :
      Stepped pool (.rqItemPop thread) (pool.rqItemPop thread)
  | execute {thread item : ℕ} (popped : (pool.libevThreads thread).phase = .popped (some item)) :
      Stepped pool (.execute thread) (pool.execute thread item)
  | complete {thread item : ℕ} (executing : (pool.libevThreads thread).phase = .executing item) :
      Stepped pool (.complete thread) (pool.complete thread item)
  | rqItemFree {thread item : ℕ} (freeing : (pool.libevThreads thread).phase = .freeing item) :
      Stepped pool (.rqItemFree thread) (pool.rqItemFree thread item)

theorem stepped_of_step {pool next : LibevThreadPool} {action : Action}
    (success : pool.step action = some next) : pool.Stepped action next := by
  cases action with
  | dispatchRpcCall =>
    cases success
    exact .dispatchRpcCall
  | rqItemNew call =>
    rw [step] at success
    split at success
    · next found => cases success; exact .rqItemNew found
    · contradiction
  | malloc call allocates =>
    rw [step] at success
    split at success
    · next found => cases success; exact .malloc found
    · contradiction
  | pick call =>
    rw [step] at success
    split at success
    · next item found =>
      split at success
      · contradiction
      · cases success
        exact .pick found
    · contradiction
  | store call =>
    rw [step] at success
    split at success
    · next item curTid found => cases success; exact .store found
    · contradiction
  | rqItemPush call =>
    rw [step] at success
    split at success
    · next item thread found => cases success; exact .rqItemPush found
    · contradiction
  | write call =>
    rw [step] at success
    split at success
    · next thread found => cases success; exact .write found
    · contradiction
  | read thread =>
    rw [step] at success
    split at success
    · next ready => cases success; exact .read ready.1 ready.2
    · contradiction
  | rqItemPop thread =>
    rw [step] at success
    split at success
    · next woken => cases success; exact .rqItemPop woken
    · contradiction
  | execute thread =>
    rw [step] at success
    split at success
    · next item popped => cases success; exact .execute popped
    · contradiction
  | complete thread =>
    rw [step] at success
    split at success
    · next item executing => cases success; exact .complete executing
    · contradiction
  | rqItemFree thread =>
    rw [step] at success
    split at success
    · next item freeing => cases success; exact .rqItemFree freeing
    · contradiction

theorem inv_step {pool next : LibevThreadPool} {action : Action} {place : ℕ → Place}
    (inv : pool.Inv place) (success : pool.step action = some next) :
    ∃ newPlace, next.Inv newPlace := by
  cases stepped_of_step success with
  | dispatchRpcCall => exact ⟨place, inv.dispatchRpcCall⟩
  | rqItemNew found => exact inv.rqItemNew found
  | malloc found => exact inv.malloc found _
  | pick found =>
    exact ⟨place, inv.setCall found (fun _ has => has) rfl (by simp) (by simp)⟩
  | store found => exact ⟨place, inv.store found⟩
  | rqItemPush found => exact ⟨_, inv.rqItemPush found⟩
  | write found => exact ⟨place, inv.write found⟩
  | read waiting notified => exact ⟨place, inv.read waiting notified⟩
  | rqItemPop woken => exact inv.rqItemPop woken
  | execute popped => exact ⟨place, inv.execute popped⟩
  | complete executing => exact ⟨place, inv.complete executing⟩
  | rqItemFree freeing => exact ⟨_, inv.rqItemFree freeing⟩

theorem inv_run {numThreads : ℕ} {threadId : ℕ → UInt64} {actions : List Action}
    {final : LibevThreadPool} (run : Run step (start numThreads threadId) actions final) :
    ∃ place, final.Inv place := by
  induction run with
  | nil => exact ⟨_, inv_start numThreads threadId⟩
  | snoc run success ih =>
    obtain ⟨place, inv⟩ := ih
    exact inv_step inv success

/-- The calls that a worker made or has taken to make. -/
def taken (pool : LibevThreadPool) (thread : ℕ) : List ℕ :=
  let state := pool.libevThreads thread
  state.executed ++ state.phase.toMake.map pool.param

/-- A worker without a notification on its way has taken every call that was dispatched to it. -/
theorem Inv.mem_taken {pool : LibevThreadPool} {place : ℕ → Place} (inv : pool.Inv place)
    {thread call : ℕ} (returned : pool.calls[call]? = some (.returned thread))
    (unread : (pool.libevThreads thread).notified = 0) (written : pool.unwritten thread = 0)
    (asleep : (pool.libevThreads thread).phase ≠ .woken) : call ∈ pool.taken thread := by
  have count := (inv.workers thread).count
  rw [unread, written, if_neg asleep] at count
  have queued : call ∈ (pool.libevThreads thread).queued :=
    (inv.queued thread call).mpr ⟨_, returned, rfl⟩
  rwa [(inv.workers thread).log, List.eq_nil_of_length_eq_zero count, List.append_nil] at queued

/-- What a pool guarantees for the calls that are dispatched to it. -/
structure Delivered (pool : LibevThreadPool) : Prop where
  once : ∀ thread, (pool.libevThreads thread).executed.Nodup
  ownQueue : ∀ thread, ∀ call ∈ (pool.libevThreads thread).executed,
    ∃ dispatch, pool.calls[call]? = some dispatch ∧ dispatch.target? = some thread
  inOrder : ∀ thread, (pool.libevThreads thread).executed <+: (pool.libevThreads thread).queued
  nonNull : ∀ thread, (pool.libevThreads thread).phase ≠ .popped none
  untaken : ∀ thread, (pool.libevThreads thread).newRequestQueue.length =
    (pool.libevThreads thread).notified + pool.unwritten thread +
      if (pool.libevThreads thread).phase = .woken then 1 else 0
  allTaken : ∀ thread call, pool.calls[call]? = some (.returned thread) →
    (pool.libevThreads thread).notified = 0 → pool.unwritten thread = 0 →
      (pool.libevThreads thread).phase ≠ .woken → call ∈ pool.taken thread

private theorem queued_update {threads : ℕ → LibevThread} {changed : ℕ} {state : LibevThread}
    (own : (threads changed).queued <+: state.queued) (thread : ℕ) :
    (threads thread).queued <+: (Function.update threads changed state thread).queued := by
  rcases eq_or_ne thread changed with rfl | differ
  · rwa [Function.update_self]
  · have same := Function.update_of_ne differ state threads
    exact same.symm ▸ List.prefix_refl _

/-- What was pushed to a worker only grows at its end. -/
theorem queued_step {pool next : LibevThreadPool} {action : Action}
    (success : pool.step action = some next) (thread : ℕ) :
    (pool.libevThreads thread).queued <+: (next.libevThreads thread).queued := by
  cases stepped_of_step success with
  | dispatchRpcCall | pick | store => exact List.prefix_rfl
  | @rqItemNew call =>
    rw [LibevThreadPool.rqItemNew]
    split
    · exact List.prefix_rfl
    · exact List.prefix_rfl
  | @malloc call allocates =>
    rw [LibevThreadPool.malloc]
    split
    · exact List.prefix_rfl
    · exact List.prefix_rfl
  | rqItemPush =>
    refine queued_update ?_ thread
    exact List.prefix_append _ _
  | write | read | rqItemPop | execute | complete | rqItemFree =>
    refine queued_update ?_ thread
    exact List.prefix_rfl

theorem queued_run {start earlier final : LibevThreadPool} {before actions : List Action}
    (run : Run step start actions final) (front : before <+: actions)
    (reached : Run step start before earlier) (thread : ℕ) :
    (earlier.libevThreads thread).queued <+: (final.libevThreads thread).queued := by
  induction run with
  | nil =>
    obtain rfl := List.prefix_nil.mp front
    obtain rfl := reached.eq_of_nil
    exact List.prefix_rfl
  | snoc shorter success ih =>
    rcases List.prefix_concat_iff.mp front with rfl | front
    · obtain rfl := reached.unique (shorter.snoc success)
      exact List.prefix_rfl
    · exact (ih front).trans (queued_step success thread)

/-- A worker makes a call that was pushed before the dispatch of another one began, before that. -/
def InDispatchOrder (earlier later : LibevThreadPool) : Prop :=
  ∀ thread first second dispatch,
    earlier.calls[first]? = some dispatch → dispatch.target? = some thread →
      earlier.calls.length ≤ second → second ∈ (later.libevThreads thread).executed →
        [first, second].Sublist (later.libevThreads thread).executed

/-- Whatever the order of the steps, each call is made at most once, by the worker it was queued for and
in the order of the queue, which is that of the dispatches; a woken worker finds a call; and the calls
in a queue are as many as the notifications of its worker that are unread, still to be written or just
read. -/
theorem delivered (numThreads : ℕ) (threadId : ℕ → UInt64) {actions : List Action}
    {final : LibevThreadPool} (run : Run step (start numThreads threadId) actions final) :
    final.Delivered ∧ ∀ before earlier, before <+: actions →
      Run step (start numThreads threadId) before earlier → InDispatchOrder earlier final := by
  obtain ⟨place, inv⟩ := inv_run run
  have inOrder (thread : ℕ) :
      (final.libevThreads thread).executed <+: (final.libevThreads thread).queued :=
    ⟨_, (inv.workers thread).log.symm⟩
  refine ⟨⟨?_, ?_, inOrder, fun thread => (inv.workers thread).nonNull,
    fun thread => (inv.workers thread).count, ?_⟩, ?_⟩
  · intro thread
    exact (inv.queuedNodup thread).sublist (inOrder thread).sublist
  · intro thread call made
    exact (inv.queued thread call).mp ((inOrder thread).subset made)
  · intro thread call returned unread written asleep
    exact inv.mem_taken returned unread written asleep
  · intro before earlier front reached thread first second dispatch found pushed late made
    obtain ⟨_, earlierInv⟩ := inv_run reached
    have queued := (earlierInv.queued thread first).mpr ⟨dispatch, found, pushed⟩
    have absent : second ∉ (earlier.libevThreads thread).queued := by
      intro member
      obtain ⟨_, begun, _⟩ := (earlierInv.queued thread second).mp member
      exact absurd (List.getElem?_eq_some_iff.mp begun).1 (Nat.not_lt.mpr late)
    -- the calls that were made go beyond those that were queued then
    rcases List.prefix_or_prefix_of_prefix (inOrder thread) (queued_run run front reached thread) with
      short | ⟨rest, shape⟩
    · exact absurd (short.subset made) absent
    · rw [← shape] at made ⊢
      have behind := (List.mem_append.mp made).resolve_left absent
      exact (List.singleton_sublist.mpr queued).append (List.singleton_sublist.mpr behind)

/-- One call is dispatched to one worker, which reads the notification. -/
def sampleDispatch : List Action :=
  [.dispatchRpcCall, .rqItemNew 0, .malloc 0 true, .pick 0, .store 0, .rqItemPush 0, .write 0, .read 0]

/-- The worker pops the call that it was woken for and makes it. -/
def worked : List Action := [.rqItemPop 0, .execute 0, .complete 0, .rqItemFree 0]

/-- A second call is dispatched while the worker makes the first one, and made behind it. -/
def sampleCalls : List Action :=
  sampleDispatch ++ [.dispatchRpcCall, .rqItemNew 1, .pick 1, .store 1, .rqItemPush 1] ++ worked ++
    [.write 1, .read 0] ++ worked

private theorem sampleCalls_isSome : (sampleCalls.foldlM step (start 1 fun _ => 101)).isSome := by
  decide +kernel

theorem delivered_sample : ∃ final, Run step (start 1 fun _ => 101) sampleCalls final ∧
    (final.libevThreads 0).executed = [0, 1] ∧ final.Delivered ∧
    ∀ before earlier, before <+: sampleCalls → Run step (start 1 fun _ => 101) before earlier →
      InDispatchOrder earlier final :=
  ⟨_, Run.of_isSome sampleCalls_isSome, by decide +kernel,
    delivered 1 _ (Run.of_isSome sampleCalls_isSome)⟩

private theorem sampleDispatch_isSome :
    (sampleDispatch.foldlM step (start 1 fun _ => 101)).isSome := by decide

/-- No notification is unread, and the dispatched call is still in the queue. -/
theorem notified_call_queued : ∃ final, Run step (start 1 fun _ => 101) sampleDispatch final ∧
    (∀ thread < final.numThreads, (final.libevThreads thread).notified = 0) ∧
    final.calls[0]? = some (.returned 0) ∧ 0 ∉ final.taken 0 ∧
    (final.libevThreads 0).newRequestQueue = [0] :=
  ⟨_, Run.of_isSome sampleDispatch_isSome, by decide, by decide, by decide, by decide⟩

end LibevThreadPool

end LibEvRpc
