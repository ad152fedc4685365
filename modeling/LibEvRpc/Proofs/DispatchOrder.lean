import LibEvRpc.Server.DispatchThread
import Mathlib.Data.List.Nodup

/-! # Which item a callback frees

The use list is a queue, so the end of a callback frees the item of the connection that was accepted
first. That is the item of the callback as long as the connections become readable in the order they
were accepted in; the first callback out of this order frees an item whose watcher is started.
-/

namespace LibEvRpc

namespace DispatchThread

/-- No item on the free list is started, nor the next one that is handed out. -/
def NoneStarted (thread : DispatchThread) : Prop :=
  (∀ item ∈ thread.eioFreelist, ¬ thread.Started item) ∧ ¬ thread.Started thread.newEio.1

/-- A step frees the item of its callback, and leaves no free item started. -/
def FreesOwn (thread : DispatchThread) (action : Action) : Prop :=
  ∀ next, thread.step action = some next →
    (∀ item, action = .processCb item → next.eioFreelist = item :: thread.eioFreelist) ∧
      next.NoneStarted

/-- The watcher of an item is that of the connection which waits longest. -/
def Longest (thread : DispatchThread) (item : ℕ) : Prop :=
  thread.waiting.head? = some (thread.eio item)

/-- A callback is that of the connection which waits longest. -/
def InOrder (thread : DispatchThread) : Action → Prop
  | .acceptCb _ => True
  | .processCb item => thread.Longest item

/-- The connections and descriptors that the started watchers are for. -/
def watched (thread : DispatchThread) : List (ℕ × Int32) :=
  thread.anfds.map fun entry => thread.eio entry.2

/-- The state of runs in order, in which the callbacks of the first items in use were called and have
not ended: the other items in use are started, each for a connection that waits. -/
structure Orderly (thread : DispatchThread) (called : ℕ) : Prop where
  listed : thread.anfds =
    (thread.eioUselist.drop called).map fun item => ((thread.eio item).2, item)
  waits : thread.waiting = (thread.eioUselist.drop called).map thread.eio
  nodup : (thread.eioUselist ++ thread.eioFreelist).Nodup
  allocated : ∀ item ∈ thread.eioUselist ++ thread.eioFreelist, item < thread.allocated
  distinct : (thread.waiting.map Prod.fst).Nodup
  accepted : ∀ watcher ∈ thread.waiting, watcher.1 < thread.accepted

theorem orderly_init : init.Orderly 0 where
  listed := rfl
  waits := rfl
  nodup := List.nodup_nil
  allocated _ member := absurd member List.not_mem_nil
  distinct := List.nodup_nil
  accepted _ member := absurd member List.not_mem_nil

section

variable {thread next : DispatchThread} {called item : ℕ}

theorem Orderly.started_iff (orderly : thread.Orderly called) :
    thread.Started item ↔ item ∈ thread.eioUselist.drop called := by
  rw [Started, orderly.listed, List.map_map]
  exact Iff.of_eq (congrArg (item ∈ ·) (List.map_id _))

/-- The watchers that are started are those of the connections that wait. -/
theorem Orderly.watched_eq (orderly : thread.Orderly called) : thread.watched = thread.waiting := by
  rw [watched, orderly.listed, orderly.waits, List.map_map]
  rfl

theorem Orderly.mem_eioUselist (orderly : thread.Orderly called) (started : thread.Started item) :
    item ∈ thread.eioUselist :=
  List.mem_of_mem_drop (orderly.started_iff.mp started)

/-- The item that is handed out is not in use. -/
theorem Orderly.newEio_not_mem (orderly : thread.Orderly called) :
    thread.newEio.1 ∉ thread.eioUselist := by
  rw [newEio]
  split
  · next item rest free =>
    intro used
    refine (List.nodup_append.mp orderly.nodup).2.2 item used item ?_ rfl
    rw [free]
    exact List.mem_cons_self
  · intro used
    exact Nat.lt_irrefl _ (orderly.allocated _ (List.mem_append_left _ used))

theorem Orderly.not_started_newEio (orderly : thread.Orderly called) :
    ¬ thread.Started thread.newEio.1 :=
  fun started => orderly.newEio_not_mem (orderly.mem_eioUselist started)

theorem Orderly.noneStarted (orderly : thread.Orderly called) : thread.NoneStarted := by
  refine ⟨fun item free started => ?_, orderly.not_started_newEio⟩
  exact (List.nodup_append.mp orderly.nodup).2.2 item (orderly.mem_eioUselist started) item free rfl

/-- The hand-out of an item leaves the use list alone. -/
theorem newEio_eioUselist (thread : DispatchThread) :
    thread.newEio.2.eioUselist = thread.eioUselist := by
  rw [newEio]
  split
  · rfl
  · rfl

/-- The item that is handed out is in no list, and has its own memory. -/
theorem Orderly.newEio_lists (orderly : thread.Orderly called) :
    ((thread.eioUselist ++ [thread.newEio.1]) ++ thread.newEio.2.eioFreelist).Nodup ∧
      ∀ item ∈ (thread.eioUselist ++ [thread.newEio.1]) ++ thread.newEio.2.eioFreelist,
        item < thread.newEio.2.allocated := by
  rw [newEio]
  split
  · next item rest free =>
    have same : thread.eioUselist ++ [item] ++ rest = thread.eioUselist ++ thread.eioFreelist := by
      rw [free, List.append_assoc]
      rfl
    dsimp only
    rw [same]
    exact ⟨orderly.nodup, orderly.allocated⟩
  · next free =>
    have nodup := orderly.nodup
    have bound := orderly.allocated
    rw [free, List.append_nil] at nodup bound
    have batch : thread.eioUselist ++ [thread.allocated] ++
        List.range' (thread.allocated + 1) (eiPerAlloc - 1) =
          thread.eioUselist ++ List.range' thread.allocated eiPerAlloc := by
      rw [List.append_assoc]
      rfl
    dsimp only
    rw [batch]
    constructor
    · apply List.nodup_append.mpr
      refine ⟨nodup, List.nodup_range', ?_⟩
      rintro item used _ new rfl
      have small := bound item used
      have large := (List.mem_range'_1.mp new).1
      omega
    · intro item member
      rcases List.mem_append.mp member with used | new
      · exact Nat.lt_add_right _ (bound item used)
      · exact (List.mem_range'_1.mp new).2

/-- What the acceptance of a connection changes: the item that is handed out is started for it and goes
to the end of the use list. -/
theorem watch_spec {cfd : Int32} (success : thread.watch cfd = some next) :
    next.eio = Function.update thread.eio thread.newEio.1 (thread.accepted, cfd) ∧
      next.anfds = thread.anfds ++ [(cfd, thread.newEio.1)] ∧
      next.accepted = thread.accepted + 1 ∧
      next.waiting = thread.waiting ++ [(thread.accepted, cfd)] ∧
      next.eioUselist = thread.eioUselist ++ [thread.newEio.1] ∧
      next.eioFreelist = thread.newEio.2.eioFreelist ∧
      next.allocated = thread.newEio.2.allocated := by
  rw [watch] at success
  dsimp only at success
  split at success
  · contradiction
  · cases success
    exact ⟨rfl, rfl, rfl, rfl, congrArg (· ++ [thread.newEio.1]) thread.newEio_eioUselist, rfl, rfl⟩

theorem Orderly.watch {cfd : Int32} (orderly : thread.Orderly 0)
    (success : thread.watch cfd = some next) : next.Orderly 0 := by
  obtain ⟨eio, anfds, accepted, waiting, uses, free, allocated⟩ := watch_spec success
  obtain ⟨nodup, bound⟩ := orderly.newEio_lists
  have others {item : ℕ} (used : item ∈ thread.eioUselist) : next.eio item = thread.eio item := by
    rw [eio]
    apply Function.update_of_ne
    rintro rfl
    exact orderly.newEio_not_mem used
  have own : next.eio thread.newEio.1 = (thread.accepted, cfd) := by
    rw [eio, Function.update_self]
  constructor
  case listed =>
    rw [uses, List.drop_zero, List.map_append, List.map_singleton, own, anfds, orderly.listed]
    congr 1
    apply List.map_congr_left
    intro item used
    rw [others used]
  case waits =>
    rw [uses, List.drop_zero, List.map_append, List.map_singleton, own, waiting, orderly.waits]
    congr 1
    apply List.map_congr_left
    intro item used
    rw [others used]
  case nodup =>
    rw [uses, free]
    exact nodup
  case allocated =>
    rw [uses, free, allocated]
    exact bound
  case distinct =>
    rw [waiting, List.map_append]
    refine List.nodup_append.mpr ⟨orderly.distinct, List.nodup_singleton _, ?_⟩
    rintro number old _ new rfl
    obtain ⟨watcher, waits, same⟩ := List.mem_map.mp old
    have small := orderly.accepted watcher waits
    rw [same, List.mem_singleton.mp new] at small
    exact Nat.lt_irrefl _ small
  case accepted =>
    intro watcher member
    rw [accepted]
    rw [waiting] at member
    rcases List.mem_append.mp member with old | new
    · exact Nat.lt_succ_of_lt (orderly.accepted watcher old)
    · rw [List.mem_singleton.mp new]
      exact Nat.lt_succ_self _

/-- An item is that of the connection which waits longest exactly when it is at the front of the use
list. -/
theorem Orderly.longest_iff (orderly : thread.Orderly 0) (started : thread.Started item) :
    thread.Longest item ↔ thread.eioUselist.head? = some item := by
  have used : item ∈ thread.eioUselist := orderly.mem_eioUselist started
  have distinct : (thread.eioUselist.map thread.eio).Nodup := by
    have nodup := orderly.distinct
    rw [orderly.waits] at nodup
    exact nodup.of_map
  rw [Longest, orderly.waits, List.drop_zero, List.head?_map, Option.map_eq_some_iff]
  constructor
  · rintro ⟨first, front, same⟩
    rw [front]
    exact congrArg some (List.inj_on_of_nodup_map distinct (List.mem_of_mem_head? front) used same)
  · intro front
    exact ⟨item, front, rfl⟩

/-- The callback of the connection which waits longest begins. -/
theorem Orderly.evIoStop (orderly : thread.Orderly 0)
    (front : thread.eioUselist.head? = some item) : (thread.evIoStop item).Orderly 1 := by
  obtain ⟨rest, uses⟩ := List.head?_eq_some_iff.mp front
  have listed := orderly.listed
  have waits := orderly.waits
  rw [uses, List.drop_zero, List.map_cons] at listed waits
  have stopped : (thread.evIoStop item).waiting = rest.map thread.eio := by
    rw [DispatchThread.evIoStop, waits, List.erase_cons_head]
  have shorter : (thread.evIoStop item).waiting.Sublist thread.waiting := List.erase_sublist
  constructor
  case listed =>
    rw [DispatchThread.evIoStop, listed, List.erase_cons_head, uses, List.drop_one, List.tail_cons]
  case waits =>
    rw [stopped, DispatchThread.evIoStop, uses, List.drop_one, List.tail_cons]
  case nodup => exact orderly.nodup
  case allocated => exact orderly.allocated
  case distinct => exact orderly.distinct.sublist (shorter.map Prod.fst)
  case accepted => exact fun watcher member => orderly.accepted watcher (shorter.subset member)

/-- The end of a callback frees the item at the front of the use list. -/
theorem freeFirst_eq_some_iff :
    thread.freeFirst = some next ↔ ∃ item rest, thread.eioUselist = item :: rest ∧
      next = { thread with eioUselist := rest, eioFreelist := item :: thread.eioFreelist } := by
  rw [freeFirst, popEio]
  cases uses : thread.eioUselist with
  | nil => simp
  | cons item rest =>
    constructor
    · intro freed
      cases freed
      exact ⟨item, rest, rfl, rfl⟩
    · rintro ⟨_, _, same, rfl⟩
      cases same
      rfl

theorem Orderly.freeFirst (orderly : thread.Orderly 1) (success : thread.freeFirst = some next) :
    next.Orderly 0 := by
  obtain ⟨item, rest, uses, rfl⟩ := freeFirst_eq_some_iff.mp success
  have listed := orderly.listed
  have waits := orderly.waits
  rw [uses] at listed waits
  have moved : (rest ++ item :: thread.eioFreelist).Perm
      (thread.eioUselist ++ thread.eioFreelist) := by
    rw [uses]
    exact List.perm_middle
  exact ⟨listed, waits, moved.nodup_iff.mpr orderly.nodup,
    fun other member => orderly.allocated other (moved.mem_iff.mp member), orderly.distinct,
    orderly.accepted⟩

/-- A callback frees the item at the front of the use list. -/
theorem processCb_spec (success : thread.processCb item = some next) :
    thread.Started item ∧ ∃ first, thread.eioUselist.head? = some first ∧
      next.eioFreelist = first :: thread.eioFreelist := by
  rw [processCb] at success
  split at success
  case isFalse => contradiction
  case isTrue started =>
    obtain ⟨first, rest, uses, rfl⟩ := freeFirst_eq_some_iff.mp success
    refine ⟨started, first, ?_, rfl⟩
    change thread.eioUselist = first :: rest at uses
    rw [uses, List.head?_cons]

theorem Orderly.step {action : Action} (orderly : thread.Orderly 0) (inOrder : thread.InOrder action)
    (success : thread.step action = some next) : next.Orderly 0 := by
  cases action with
  | acceptCb cfd =>
    rw [DispatchThread.step, acceptCb] at success
    split at success
    · exact orderly.watch success
    · contradiction
  | processCb item =>
    obtain ⟨started, _⟩ := processCb_spec success
    rw [DispatchThread.step, processCb, if_pos started] at success
    exact (orderly.evIoStop ((orderly.longest_iff started).mp inOrder)).freeFirst success

theorem Orderly.freesOwn_iff {action : Action} (orderly : thread.Orderly 0)
    (success : thread.step action = some next) :
    thread.FreesOwn action ↔ thread.InOrder action := by
  constructor
  · intro frees
    cases action with
    | acceptCb cfd => trivial
    | processCb item =>
      obtain ⟨started, first, front, freed⟩ := processCb_spec success
      have own := (frees next success).1 item rfl
      rw [freed, List.cons.injEq] at own
      rw [own.1] at front
      exact (orderly.longest_iff started).mpr front
  · intro inOrder other again
    refine ⟨?_, (orderly.step inOrder again).noneStarted⟩
    rintro item rfl
    obtain ⟨started, first, front, freed⟩ := processCb_spec again
    rw [(orderly.longest_iff started).mp inOrder] at front
    cases front
    exact freed

end

/-- In a run, every callback frees its own item and no free item is ever started, exactly when every
callback is that of the connection which waits longest. -/
theorem freesOwn_iff_inOrder {actions : List Action} {final : DispatchThread}
    (run : Run step init actions final) :
    Throughout step init (fun _ => FreesOwn) actions ↔
      Throughout step init (fun _ => InOrder) actions := by
  apply @Run.throughout_congr_of_invariant _ _ _ _ _ _ (fun _ thread => thread.Orderly 0) _ _ run orderly_init
  · exact fun _ _ _ _ orderly success => orderly.freesOwn_iff success
  · exact fun _ _ _ _ orderly inOrder success => orderly.step inOrder success

def twoConnections (item : ℕ) : List Action := [.acceptCb 5, .acceptCb 6, .processCb item]

/-- The first connection becomes readable first. -/
theorem freesOwn_iff_inOrder_sample : Throughout step init (fun _ => FreesOwn) (twoConnections 0) := by
  have accepted : Throughout step init (fun _ => InOrder) [.acceptCb 5, .acceptCb 6] := by
    intro before action thread front _
    have listed := front.subset (List.mem_append_right _ (List.mem_singleton.mpr rfl))
    obtain rfl | rfl := List.mem_pair.mp listed
    · trivial
    · trivial
  have reached : Run step init [.acceptCb 5, .acceptCb 6] _ := .of_foldlM rfl
  exact (freesOwn_iff_inOrder (.of_foldlM rfl)).mpr (reached.throughout_snoc.mpr ⟨accepted, rfl⟩)

/-- The second connection becomes readable first, and the item of the first one is freed. -/
theorem second_connection_first :
    ∃ final, Run step init (twoConnections 1) final ∧ 0 ∈ final.eioFreelist ∧
      (5, 0) ∈ final.anfds ∧ ¬ Throughout step init (fun _ => FreesOwn) (twoConnections 1) := by
  refine ⟨_, .of_foldlM rfl, List.mem_cons_self, List.mem_cons_self, fun frees => ?_⟩
  have last := frees [.acceptCb 5, .acceptCb 6] (.processCb 1) _ List.prefix_rfl (.of_foldlM rfl)
  have same := (last _ rfl).1 1 rfl
  contradiction

end DispatchThread

end LibEvRpc
