import LibEvRpc.Server.ConnectionTimerManager
import LibEvRpc.ToMathlib.Run

/-! # Which timer of a connection gets into the pool

The buffer and the pool keep the first timer of a key, and a delete is applied to both, whenever it
was made. So the pool ends with the first timer that was inserted behind the crawl that applied the
last delete of the key, and with none if a delete came in front of that crawl. This is the last call
for the key exactly when no two of its calls meet in one crawl.
-/

namespace LibEvRpc

open Std.ExtTreeMap

/-! ## The pool -/

def timerAt (buckets : ℕ → Option TimerMap) (key : Bytes) : Option ConnectionTimer :=
  (buckets (generateBucketNum key)).bind fun map => map[key]?

/-- The change of one bucket, seen from a key. -/
theorem timerAt_update (buckets : ℕ → Option TimerMap) (index : ℕ) (bucket : Option TimerMap)
    (key : Bytes) : timerAt (Function.update buckets index bucket) key =
      if generateBucketNum key = index then bucket.bind fun map => map[key]?
      else timerAt buckets key := by
  rw [timerAt, Function.update_apply]
  split
  · rfl
  · rfl

namespace ConnectionTimerManager

theorem timerAt_eraseTimer (buckets : ℕ → Option TimerMap) (erased key : Bytes) :
    timerAt (eraseTimer buckets erased) key =
      if key = erased then none else timerAt buckets key := by
  rw [eraseTimer, timerAt_update]
  by_cases same : key = erased
  · subst same
    rw [if_pos rfl, if_pos rfl]
    cases buckets (generateBucketNum key) with
    | none => rfl
    | some map => exact getElem?_erase_self
  · rw [if_neg same]
    split
    · next bucket =>
      rw [timerAt, bucket]
      cases buckets (generateBucketNum erased) with
      | none => rfl
      | some map =>
        change (map.erase erased)[key]? = map[key]?
        rw [getElem?_erase, if_neg]
        rw [Std.LawfulEqCmp.compare_eq_iff_eq]
        exact Ne.symm same
    · rfl

theorem timerAt_insertTimer (buckets : ℕ → Option TimerMap) (entry : Bytes × ConnectionTimer)
    (key : Bytes) : timerAt (insertTimer buckets entry) key =
      (timerAt buckets key).or (if entry.1 = key then some entry.2 else none) := by
  rw [insertTimer, timerAt_update]
  have found (map : Option TimerMap) : ((map.getD ∅).insertIfNew entry.1 entry.2)[key]? =
      (map.bind fun map => map[key]?).or (if entry.1 = key then some entry.2 else none) := by
    rw [getElem?_insertIfNew_eq]
    cases map with
    | none => rw [Option.getD_none, getElem?_empty, Option.bind_none]
    | some map => rfl
  split
  · next bucket =>
    rw [timerAt, bucket]
    exact found _
  · next bucket =>
    have different : entry.1 ≠ key := by
      rintro rfl
      exact bucket rfl
    rw [if_neg different, Option.or_none]

theorem timerAt_eraseTimers (keys : List Bytes) (buckets : ℕ → Option TimerMap) (key : Bytes) :
    timerAt (keys.foldl eraseTimer buckets) key =
      if key ∈ keys then none else timerAt buckets key := by
  induction keys generalizing buckets with
  | nil => rw [List.foldl_nil, if_neg List.not_mem_nil]
  | cons erased keys ih =>
    rw [List.foldl_cons, ih, timerAt_eraseTimer]
    by_cases same : key = erased
    · simp [same]
    · simp [same]

theorem timerAt_insertTimers (entries : List (Bytes × ConnectionTimer))
    (buckets : ℕ → Option TimerMap) (key : Bytes) :
    timerAt (entries.foldl insertTimer buckets) key =
      (timerAt buckets key).or ((entries.find? fun entry => entry.1 = key).map Prod.snd) := by
  induction entries generalizing buckets with
  | nil => simp
  | cons entry entries ih =>
    rw [List.foldl_cons, ih, timerAt_insertTimer, Option.or_assoc]
    by_cases same : entry.1 = key
    · simp [same]
    · simp [same]

theorem getElem?_eraseKeys (keys : List Bytes) (map : TimerMap) (key : Bytes) :
    (keys.foldl (fun map key => map.erase key) map)[key]? =
      if key ∈ keys then none else map[key]? := by
  induction keys generalizing map with
  | nil => rw [List.foldl_nil, if_neg List.not_mem_nil]
  | cons erased keys ih =>
    rw [List.foldl_cons, ih, getElem?_erase]
    simp only [Std.LawfulEqCmp.compare_eq_iff_eq]
    by_cases same : erased = key
    · simp [same]
    · simp [same, Ne.symm same]

/-- The pool behind the buffer of a worker: a key that was to be deleted is gone, and every other one
has the timer of the pool, or else that of the buffer. -/
theorem timerAt_taken (keys : List Bytes) (map : TimerMap) (buckets : ℕ → Option TimerMap)
    (key : Bytes) :
    timerAt ((keys.foldl (fun map key => map.erase key) map).toList.foldl insertTimer
      (keys.foldl eraseTimer buckets)) key =
      if key ∈ keys then none else (timerAt buckets key).or map[key]? := by
  rw [timerAt_insertTimers, find?_toList, timerAt_eraseTimers, getElem?_eraseKeys]
  split
  · rfl
  · rfl

/-! ## The log of a key -/

/-- Where the calls for a key got: whether a delete is in the list, whether the crawler took one, and
the timers that were inserted since the last delete was applied, in the pool and in the buffer. -/
structure KeyLog where
  listed : Bool
  taken : Bool
  merged : List ConnectionTimer
  buffered : List ConnectionTimer

namespace KeyLog

/-- No call was made for the key. -/
def empty : KeyLog := ⟨false, false, [], []⟩

/-- The log behind an action. Only the buffer of the worker counts. -/
def record (refreshInterval : Int) (bufIndex : ℕ) (key : Bytes) (log : KeyLog) : BufAction → KeyLog
  | .insert now ipAddr fd version threadId =>
      if generateTimerKey ipAddr fd = key then
        { log with buffered := log.buffered ++
            [(init refreshInterval).newTimer now ipAddr fd version threadId] }
      else log
  | .delete ipAddr fd => if generateTimerKey ipAddr fd = key then { log with listed := true } else log
  | .takeDelList index =>
      if index = bufIndex then { log with taken := log.listed, listed := false } else log
  | .takeBuf index =>
      if index = bufIndex then
        { log with
          taken := false
          merged := if log.taken then [] else log.merged ++ log.buffered
          buffered := [] }
      else log

end KeyLog

def keyLog (refreshInterval : Int) (bufIndex : ℕ) (key : Bytes) (actions : List BufAction) : KeyLog :=
  actions.foldl (KeyLog.record refreshInterval bufIndex key) KeyLog.empty

def lastCall (refreshInterval : Int) (key : Bytes) (actions : List BufAction) :
    Option ConnectionTimer :=
  actions.foldl (fun last action => match action with
    | .insert now ipAddr fd version threadId =>
        if generateTimerKey ipAddr fd = key then
          some ((init refreshInterval).newTimer now ipAddr fd version threadId)
        else last
    | .delete ipAddr fd => if generateTimerKey ipAddr fd = key then none else last
    | .takeDelList _ | .takeBuf _ => last) none

theorem keyLog_snoc (refreshInterval : Int) (bufIndex : ℕ) (key : Bytes) (actions : List BufAction)
    (action : BufAction) : keyLog refreshInterval bufIndex key (actions ++ [action]) =
      (keyLog refreshInterval bufIndex key actions).record refreshInterval bufIndex key action := by
  rw [keyLog, List.foldl_append]
  rfl

/-- The crawler takes the list of a key with it. -/
def Crawl.has (crawl : Crawl) (bufIndex : ℕ) (key : Bytes) : Prop :=
  ∃ ilp, crawl = .taken bufIndex ilp ∧ key ∈ ilp.getD []

/-- The buffers and the pool hold what the log of a key says. -/
structure Logged (bufIndex : ℕ) (key : Bytes) (log : KeyLog) (state : Crawled) : Prop where
  listed : ∀ buf, state.manager.workerBufs[bufIndex]? = some buf →
    (key ∈ buf.connectionDelList.getD [] ↔ log.listed)
  taken : state.crawl.has bufIndex key ↔ log.taken
  buffered : ∀ buf, state.manager.workerBufs[bufIndex]? = some buf →
    (buf.connectionBuf.getD ∅)[key]? = log.buffered.head?
  merged : timerAt state.manager.connectionPoolBuckets key = log.merged.head?

/-- The workers with another index have made no call. -/
structure Alone (refreshInterval : Int) (workers bufIndex : ℕ) (state : Crawled) : Prop where
  interval : state.manager.refreshInterval = refreshInterval
  workers : state.manager.workerBufs.length = workers
  bufs : ∀ (index : ℕ) (buf : WorkerBuf), index ≠ bufIndex →
    state.manager.workerBufs[index]? = some buf →
      buf.connectionBuf.getD ∅ = ∅ ∧ buf.connectionDelList.getD [] = []
  crawl : ∀ index ilp, index ≠ bufIndex → state.crawl = .taken index ilp → ilp.getD [] = []

theorem modify_eq_some_iff {bufs : List WorkerBuf} {index : ℕ} {change : WorkerBuf → WorkerBuf}
    {after : WorkerBuf} :
    (bufs.modify index change)[index]? = some after ↔
      ∃ buf, bufs[index]? = some buf ∧ change buf = after := by
  rw [List.getElem?_modify_eq, Option.map_eq_map, Option.map_eq_some_iff]

/-! ## One step of the crawler or of the worker -/

section Steps

variable {refreshInterval : Int} {workers bufIndex : ℕ} {state next : Crawled}

/-- A call changes the buffer of the worker. -/
private theorem call_eq {change : WorkerBuf → WorkerBuf}
    (success : (state.manager.modifyBuf bufIndex change).map (fun manager =>
      ({ state with manager } : Crawled)) = some next) :
    next = { state with manager := { state.manager with
      workerBufs := state.manager.workerBufs.modify bufIndex change } } := by
  obtain ⟨manager, modified, rfl⟩ := Option.map_eq_some_iff.mp success
  rw [modifyBuf] at modified
  split at modified
  · cases modified
    rfl
  · contradiction

private theorem alone_call {change : WorkerBuf → WorkerBuf}
    (alone : Alone refreshInterval workers bufIndex state) :
    Alone refreshInterval workers bufIndex { state with manager := { state.manager with
      workerBufs := state.manager.workerBufs.modify bufIndex change } } where
  interval := alone.interval
  workers := (List.length_modify _ _ _).trans alone.workers
  bufs index buf other found := by
    rw [List.getElem?_modify_ne _ _ (Ne.symm other)] at found
    exact alone.bufs index buf other found
  crawl := alone.crawl

/-- The crawler has nothing yet, and takes a list. -/
private theorem takeDelList_eq {index : ℕ}
    (success : bufStep bufIndex state (.takeDelList index) = some next) :
    state.crawl = .next index ∧ ∃ buf, state.manager.workerBufs[index]? = some buf ∧
      next = ⟨{ state.manager with
        workerBufs := state.manager.workerBufs.modify index fun buf =>
          { buf with connectionDelList := none } }, .taken index buf.connectionDelList⟩ := by
  rw [bufStep] at success
  split at success
  case isFalse => contradiction
  case isTrue position =>
    obtain ⟨⟨manager, crawl⟩, taking, rfl⟩ := Option.map_eq_some_iff.mp success
    obtain ⟨buf, found, same⟩ := Option.map_eq_some_iff.mp taking
    cases same
    exact ⟨position, buf, found, rfl⟩

/-- The crawler has a list, takes the buffer, and then has nothing. -/
private theorem takeBuf_eq {index : ℕ}
    (success : bufStep bufIndex state (.takeBuf index) = some next) :
    ∃ ilp buf crawl, state.crawl = .taken index ilp ∧
      state.manager.workerBufs[index]? = some buf ∧
      next = ⟨{ state.manager with
        workerBufs := state.manager.workerBufs.modify index fun buf =>
          { buf with connectionBuf := none }
        connectionPoolBuckets :=
          ((ilp.getD []).foldl (fun map key => map.erase key)
            (buf.connectionBuf.getD ∅)).toList.foldl insertTimer
              ((ilp.getD []).foldl eraseTimer state.manager.connectionPoolBuckets) },
        .next crawl⟩ := by
  rw [bufStep] at success
  split at success
  case h_1 => contradiction
  case h_2 current ilp position =>
    split at success
    case isFalse => contradiction
    case isTrue same =>
      subst same
      obtain ⟨⟨manager, crawl⟩, taking, rfl⟩ := Option.map_eq_some_iff.mp success
      obtain ⟨buf, found, same⟩ := Option.map_eq_some_iff.mp taking
      cases same
      dsimp only
      split
      · exact ⟨ilp, buf, 0, position, found, rfl⟩
      · exact ⟨ilp, buf, current + 1, position, found, rfl⟩

/-- Emptying a part of one buffer leaves the buffers of the other workers empty. -/
private theorem Alone.bufs_modify {index : ℕ} {change : WorkerBuf → WorkerBuf}
    (alone : Alone refreshInterval workers bufIndex state)
    (keeps : ∀ buf, buf.connectionBuf.getD ∅ = ∅ ∧ buf.connectionDelList.getD [] = [] →
      (change buf).connectionBuf.getD ∅ = ∅ ∧ (change buf).connectionDelList.getD [] = []) :
    ∀ (other : ℕ) (after : WorkerBuf), other ≠ bufIndex →
      (state.manager.workerBufs.modify index change)[other]? = some after →
        after.connectionBuf.getD ∅ = ∅ ∧ after.connectionDelList.getD [] = [] := by
  intro other after different present
  by_cases same : other = index
  · subst same
    obtain ⟨before, old, rfl⟩ := modify_eq_some_iff.mp present
    exact keeps before (alone.bufs other before different old)
  · rw [List.getElem?_modify_ne _ _ (Ne.symm same)] at present
    exact alone.bufs other after different present

private theorem alone_takeDelList {index : ℕ}
    (alone : Alone refreshInterval workers bufIndex state)
    (success : bufStep bufIndex state (.takeDelList index) = some next) :
    Alone refreshInterval workers bufIndex next := by
  obtain ⟨position, buf, found, rfl⟩ := takeDelList_eq success
  constructor
  case interval => exact alone.interval
  case workers => exact (List.length_modify _ _ _).trans alone.workers
  case bufs => exact alone.bufs_modify fun buf empty => ⟨empty.1, rfl⟩
  case crawl =>
    intro other ilp different taken
    cases taken
    exact (alone.bufs _ buf different found).2

private theorem alone_takeBuf {index : ℕ} (alone : Alone refreshInterval workers bufIndex state)
    (success : bufStep bufIndex state (.takeBuf index) = some next) :
    Alone refreshInterval workers bufIndex next := by
  obtain ⟨ilp, buf, crawl, position, found, rfl⟩ := takeBuf_eq success
  constructor
  case interval => exact alone.interval
  case workers => exact (List.length_modify _ _ _).trans alone.workers
  case bufs => exact alone.bufs_modify fun buf empty => ⟨rfl, empty.2⟩
  case crawl =>
    intro other ilp different taken
    contradiction

theorem alone_step {action : BufAction} (alone : Alone refreshInterval workers bufIndex state)
    (success : bufStep bufIndex state action = some next) :
    Alone refreshInterval workers bufIndex next := by
  cases action with
  | insert now ipAddr fd version threadId =>
    rw [call_eq success]
    exact alone_call alone
  | delete ipAddr fd =>
    rw [call_eq success]
    exact alone_call alone
  | takeDelList index => exact alone_takeDelList alone success
  | takeBuf index => exact alone_takeBuf alone success

variable {key : Bytes} {log : KeyLog}

private theorem logged_insert {now : Int} {ipAddr : Bytes} {fd : Int32} {version : Int64}
    {threadId : UInt64} (alone : Alone refreshInterval workers bufIndex state)
    (logged : Logged bufIndex key log state)
    (success : bufStep bufIndex state (.insert now ipAddr fd version threadId) = some next) :
    Logged bufIndex key
      (log.record refreshInterval bufIndex key (.insert now ipAddr fd version threadId)) next := by
  rw [call_eq success, KeyLog.record]
  have timer : state.manager.newTimer now ipAddr fd version threadId =
      (init refreshInterval).newTimer now ipAddr fd version threadId := by
    rw [newTimer, newTimer, alone.interval]
    rfl
  constructor
  case listed =>
    intro after present
    obtain ⟨buf, found, rfl⟩ := modify_eq_some_iff.mp present
    exact (logged.listed buf found).trans (by split <;> rfl)
  case taken => exact logged.taken.trans (by split <;> rfl)
  case merged => exact logged.merged.trans (by split <;> rfl)
  case buffered =>
    intro after present
    obtain ⟨buf, found, rfl⟩ := modify_eq_some_iff.mp present
    have old := logged.buffered buf found
    change ((buf.connectionBuf.getD ∅).insertIfNew _ _)[key]? = _
    rw [getElem?_insertIfNew_eq _ (generateTimerKey ipAddr fd, _), old, timer]
    split
    · simp
    · simp

private theorem logged_delete {ipAddr : Bytes} {fd : Int32} (logged : Logged bufIndex key log state)
    (success : bufStep bufIndex state (.delete ipAddr fd) = some next) :
    Logged bufIndex key (log.record refreshInterval bufIndex key (.delete ipAddr fd)) next := by
  rw [call_eq success, KeyLog.record]
  constructor
  case listed =>
    intro after present
    obtain ⟨buf, found, rfl⟩ := modify_eq_some_iff.mp present
    have old := logged.listed buf found
    change key ∈ buf.connectionDelList.getD [] ++ [generateTimerKey ipAddr fd] ↔ _
    rw [List.mem_append, List.mem_singleton, old]
    split
    · next same => simp [same]
    · next different => simp [Ne.symm different]
  case taken => exact logged.taken.trans (by split <;> rfl)
  case merged => exact logged.merged.trans (by split <;> rfl)
  case buffered =>
    intro after present
    obtain ⟨buf, found, rfl⟩ := modify_eq_some_iff.mp present
    exact (logged.buffered buf found).trans (by split <;> rfl)

private theorem logged_takeDelList {index : ℕ}
    (logged : Logged bufIndex key log state)
    (success : bufStep bufIndex state (.takeDelList index) = some next) :
    Logged bufIndex key (log.record refreshInterval bufIndex key (.takeDelList index)) next := by
  obtain ⟨position, buf, found, rfl⟩ := takeDelList_eq success
  rw [KeyLog.record]
  split
  · next own =>
    subst own
    constructor
    case listed =>
      intro after present
      obtain ⟨before, _, rfl⟩ := modify_eq_some_iff.mp present
      simp
    case taken =>
      rw [← logged.listed buf found]
      constructor
      · rintro ⟨ilp, same, member⟩
        cases same
        exact member
      · exact fun member => ⟨_, rfl, member⟩
    case merged => exact logged.merged
    case buffered =>
      intro after present
      obtain ⟨before, old, rfl⟩ := modify_eq_some_iff.mp present
      exact logged.buffered before old
  · next other =>
    constructor
    case listed =>
      intro after present
      rw [List.getElem?_modify_ne _ _ other] at present
      exact logged.listed after present
    case taken =>
      rw [← logged.taken]
      constructor
      · rintro ⟨ilp, same, _⟩
        cases same
        exact absurd rfl other
      · rintro ⟨ilp, same, _⟩
        rw [position] at same
        contradiction
    case merged => exact logged.merged
    case buffered =>
      intro after present
      rw [List.getElem?_modify_ne _ _ other] at present
      exact logged.buffered after present

private theorem not_next_has (index : ℕ) : ¬ (Crawl.next index).has bufIndex key := by
  rintro ⟨_, same, _⟩
  contradiction

private theorem logged_takeBuf {index : ℕ} (alone : Alone refreshInterval workers bufIndex state)
    (logged : Logged bufIndex key log state)
    (success : bufStep bufIndex state (.takeBuf index) = some next) :
    Logged bufIndex key (log.record refreshInterval bufIndex key (.takeBuf index)) next := by
  obtain ⟨ilp, buf, crawl, position, found, rfl⟩ := takeBuf_eq success
  rw [KeyLog.record]
  split
  · next own =>
    subst own
    have has : key ∈ ilp.getD [] ↔ log.taken := by
      rw [← logged.taken]
      constructor
      · exact fun member => ⟨ilp, position, member⟩
      · rintro ⟨_, same, member⟩
        rw [position] at same
        cases same
        exact member
    constructor
    case listed =>
      intro after present
      obtain ⟨before, old, rfl⟩ := modify_eq_some_iff.mp present
      exact logged.listed before old
    case taken => exact iff_of_false (not_next_has _) Bool.false_ne_true
    case merged =>
      refine (timerAt_taken _ _ _ _).trans ?_
      rw [logged.buffered buf found, logged.merged]
      by_cases taken : log.taken
      · rw [if_pos (has.mpr taken), if_pos taken]
        rfl
      · rw [if_neg fun member => taken (has.mp member), if_neg taken, List.head?_append]
    case buffered =>
      intro after present
      obtain ⟨before, old, rfl⟩ := modify_eq_some_iff.mp present
      exact getElem?_empty
  · next other =>
    obtain ⟨empty, _⟩ := alone.bufs index buf other found
    have none := alone.crawl index ilp other position
    constructor
    case listed =>
      intro after present
      rw [List.getElem?_modify_ne _ _ other] at present
      exact logged.listed after present
    case taken =>
      refine iff_of_false (not_next_has _) ?_
      rw [← logged.taken]
      rintro ⟨_, same, _⟩
      rw [position] at same
      cases same
      exact other rfl
    case merged =>
      refine (timerAt_taken _ _ _ _).trans ?_
      rw [none, if_neg List.not_mem_nil, empty, getElem?_empty, Option.or_none]
      exact logged.merged
    case buffered =>
      intro after present
      rw [List.getElem?_modify_ne _ _ other] at present
      exact logged.buffered after present

theorem logged_step {action : BufAction} (alone : Alone refreshInterval workers bufIndex state)
    (logged : Logged bufIndex key log state)
    (success : bufStep bufIndex state action = some next) :
    Logged bufIndex key (log.record refreshInterval bufIndex key action) next := by
  cases action with
  | insert now ipAddr fd version threadId => exact logged_insert alone logged success
  | delete ipAddr fd => exact logged_delete logged success
  | takeDelList index => exact logged_takeDelList logged success
  | takeBuf index => exact logged_takeBuf alone logged success

end Steps

/-! ## Runs -/

private theorem start_manager (refreshInterval : Int) (workers : ℕ) :
    (Crawled.start refreshInterval workers).manager =
      { init refreshInterval with
        workerBufs := List.replicate workers ⟨some ∅, some []⟩
        running := decide (workers ≠ 0) } := by
  rw [Crawled.start]
  induction workers with
  | zero => rfl
  | succ workers ih =>
    rw [Function.iterate_succ_apply']
    dsimp only at ih ⊢
    rw [ih, initTimerBuf, List.replicate_succ', decide_eq_true (Nat.succ_ne_zero workers)]

theorem alone_start (refreshInterval : Int) (workers bufIndex : ℕ) :
    Alone refreshInterval workers bufIndex (Crawled.start refreshInterval workers) where
  interval := by
    rw [start_manager]
    rfl
  workers := by rw [start_manager, List.length_replicate]
  bufs index buf _ found := by
    rw [start_manager, List.getElem?_replicate] at found
    split at found
    · cases found
      exact ⟨rfl, rfl⟩
    · contradiction
  crawl index ilp _ taken := by contradiction

theorem logged_start (refreshInterval : Int) (workers bufIndex : ℕ) (key : Bytes) :
    Logged bufIndex key KeyLog.empty (Crawled.start refreshInterval workers) := by
  have fresh (buf : WorkerBuf)
      (found : (Crawled.start refreshInterval workers).manager.workerBufs[bufIndex]? = some buf) :
      buf = ⟨some ∅, some []⟩ := by
    rw [start_manager, List.getElem?_replicate] at found
    split at found
    · exact (Option.some.inj found).symm
    · contradiction
  constructor
  case listed =>
    intro buf found
    rw [fresh buf found]
    exact iff_of_false List.not_mem_nil Bool.false_ne_true
  case taken =>
    refine iff_of_false ?_ Bool.false_ne_true
    rintro ⟨_, same, _⟩
    contradiction
  case buffered =>
    intro buf found
    rw [fresh buf found]
    exact getElem?_empty
  case merged =>
    rw [start_manager]
    rfl

/-- The buffers and the pool behind a run hold what the logs say. -/
theorem logged_run {refreshInterval : Int} {workers bufIndex : ℕ} {actions : List BufAction}
    {state : Crawled}
    (run : Run (bufStep bufIndex) (Crawled.start refreshInterval workers) actions state) :
    Alone refreshInterval workers bufIndex state ∧
      ∀ key, Logged bufIndex key (keyLog refreshInterval bufIndex key actions) state := by
  induction run with
  | nil => exact ⟨alone_start _ _ _, logged_start _ _ _⟩
  | snoc run success ih =>
    obtain ⟨alone, logged⟩ := ih
    refine ⟨alone_step alone success, fun key => ?_⟩
    rw [keyLog_snoc]
    exact logged_step alone (logged key) success

private theorem record_other {refreshInterval : Int} {bufIndex index : ℕ} {key : Bytes}
    (other : index ≠ bufIndex) (log : KeyLog) :
    ([.takeDelList index, .takeBuf index] : List BufAction).foldl
      (KeyLog.record refreshInterval bufIndex key) log = log := by
  simp only [List.foldl_cons, List.foldl_nil, KeyLog.record, if_neg other]

/-- A crawl applies the delete of a key, or else moves its timers to the pool. -/
theorem record_crawl {refreshInterval : Int} {workers bufIndex : ℕ} {key : Bytes}
    (worker : bufIndex < workers) (log : KeyLog) :
    (crawlActions workers).foldl (KeyLog.record refreshInterval bufIndex key) log =
      ⟨false, false, if log.listed then [] else log.merged ++ log.buffered, []⟩ := by
  have below (count : ℕ) (bound : count ≤ bufIndex) : (crawlActions count).foldl
      (KeyLog.record refreshInterval bufIndex key) log = log := by
    induction count with
    | zero => rfl
    | succ count ih =>
      rw [crawlActions, List.range_succ, List.flatMap_append, List.foldl_append, ← crawlActions,
        ih (by omega), List.flatMap_singleton]
      exact record_other (by omega) log
  induction workers with
  | zero => contradiction
  | succ workers ih =>
    rw [crawlActions, List.range_succ, List.flatMap_append, List.foldl_append, ← crawlActions,
      List.flatMap_singleton]
    by_cases last : bufIndex = workers
    · subst last
      rw [below bufIndex le_rfl]
      simp only [List.foldl_cons, List.foldl_nil, KeyLog.record, ↓reduceIte]
    · rw [ih (by omega)]
      exact record_other (Ne.symm last) _

/-- What the pool holds for a key behind a crawl. -/
theorem timerAt_crawled {refreshInterval : Int} {workers bufIndex : ℕ} {actions : List BufAction}
    {final : Crawled} (worker : bufIndex < workers)
    (run : Run (bufStep bufIndex) (Crawled.start refreshInterval workers)
      (actions ++ crawlActions workers) final) (key : Bytes) :
    timerAt final.manager.connectionPoolBuckets key =
      if (keyLog refreshInterval bufIndex key actions).listed then none
      else ((keyLog refreshInterval bufIndex key actions).merged ++
        (keyLog refreshInterval bufIndex key actions).buffered).head? := by
  rw [((logged_run run).2 key).merged, keyLog, List.foldl_append, record_crawl worker]
  split
  · next listed => rw [if_pos (by exact listed)]; rfl
  · next unlisted => rw [if_neg (by exact unlisted)]; rfl

/-! ## The last call -/

/-- The crawler takes a list only if it has none. -/
private theorem not_taken {refreshInterval : Int} {workers bufIndex index : ℕ} {key : Bytes}
    {actions : List BufAction} {state next : Crawled}
    (run : Run (bufStep bufIndex) (Crawled.start refreshInterval workers) actions state)
    (success : bufStep bufIndex state (.takeDelList index) = some next) :
    ¬ (keyLog refreshInterval bufIndex key actions).taken := by
  rw [← ((logged_run run).2 key).taken]
  rintro ⟨ilp, taken, _⟩
  have position := (takeDelList_eq success).1
  rw [taken] at position
  contradiction

/-- A key whose last call is no insert has a delete ahead, or no timer. -/
theorem log_of_lastCall_none {refreshInterval : Int} {workers bufIndex : ℕ} {key : Bytes}
    {actions : List BufAction} {state : Crawled}
    (run : Run (bufStep bufIndex) (Crawled.start refreshInterval workers) actions state)
    (none : lastCall refreshInterval key actions = none) :
    let log := keyLog refreshInterval bufIndex key actions
    log.listed ∨ log.taken ∨ log.merged = [] ∧ log.buffered = [] := by
  induction run with
  | nil => exact .inr (.inr ⟨rfl, rfl⟩)
  | @snoc actions state next action run success ih =>
    rw [lastCall, List.foldl_append, ← lastCall] at none
    rw [keyLog_snoc]
    cases action with
    | insert now ipAddr fd version threadId =>
      simp only [List.foldl_cons, List.foldl_nil] at none
      split at none
      · contradiction
      · next other =>
        simp only [KeyLog.record, if_neg other]
        exact ih none
    | delete ipAddr fd =>
      simp only [List.foldl_cons, List.foldl_nil] at none
      split at none
      · next own =>
        simp only [KeyLog.record, if_pos own]
        exact .inl trivial
      · next other =>
        simp only [KeyLog.record, if_neg other]
        exact ih none
    | takeDelList index =>
      simp only [KeyLog.record]
      split
      · rcases ih none with listed | taken | absent
        · exact .inr (.inl listed)
        · exact absurd taken (not_taken run success)
        · exact .inr (.inr absent)
      · exact ih none
    | takeBuf index =>
      simp only [KeyLog.record]
      split
      · rcases ih none with listed | taken | absent
        · exact .inl listed
        · exact .inr (.inr ⟨if_pos taken, rfl⟩)
        · refine .inr (.inr ⟨?_, rfl⟩)
          rw [absent.1, absent.2]
          split <;> rfl
      · exact ih none

/-- The pool has the timer of the last call for every key, and no other one. -/
def LastCallWins (refreshInterval : Int) (actions : List BufAction) (state : Crawled) : Prop :=
  ∀ key, timerAt state.manager.connectionPoolBuckets key = lastCall refreshInterval key actions

/-- For every key whose last call is an insert, the last delete was applied, and the first timer
that was inserted behind it is that of the last call. -/
def FirstIsLast (refreshInterval : Int) (bufIndex : ℕ) (actions : List BufAction) : Prop :=
  ∀ key timer, lastCall refreshInterval key actions = some timer →
    let log := keyLog refreshInterval bufIndex key actions
    ¬ log.listed ∧ (log.merged ++ log.buffered).head? = some timer

/-- Behind a crawl the last call for every key has won exactly when the first timer inserted behind
the last delete that was applied is that of the last call. -/
theorem lastCallWins_iff {refreshInterval : Int} {workers bufIndex : ℕ} {actions : List BufAction}
    {final : Crawled} (worker : bufIndex < workers)
    (run : Run (bufStep bufIndex) (Crawled.start refreshInterval workers)
      (actions ++ crawlActions workers) final) :
    LastCallWins refreshInterval actions final ↔ FirstIsLast refreshInterval bufIndex actions := by
  have crawled := timerAt_crawled worker run
  constructor
  · intro wins key timer last
    have found := (crawled key).symm.trans ((wins key).trans last)
    split at found
    · contradiction
    · next unlisted => exact ⟨unlisted, found⟩
  · intro first key
    rw [crawled key]
    cases last : lastCall refreshInterval key actions with
    | some timer =>
      obtain ⟨unlisted, found⟩ := first key timer last
      rw [if_neg unlisted, found]
    | none =>
      obtain ⟨state, earlier⟩ := run.of_prefix (List.prefix_append actions (crawlActions workers))
      have begins : actions ++ [.takeDelList 0] <+: actions ++ crawlActions workers := by
        obtain ⟨count, rfl⟩ := Nat.exists_eq_add_of_lt worker
        rw [crawlActions, List.range_succ_eq_map]
        exact ⟨_, List.append_assoc _ _ _⟩
      obtain ⟨next, success⟩ := run.step_of_prefix begins earlier
      rcases log_of_lastCall_none earlier last with listed | taken | absent
      · rw [if_pos listed]
      · exact absurd taken (not_taken earlier success)
      · rw [absent.1, absent.2, List.nil_append, List.head?_nil, ite_self]

/-- A connection of 10.0.0.1 with descriptor 5. -/
def firstConnection : BufAction := .insert 100 (inetNtoa (10, 0, 0, 1)) 5 0 1

/-- The connection is crawled, then it is closed; behind the crawl of its delete the descriptor is that
of the next connection. -/
def reopenedConnection : List BufAction :=
  [firstConnection, .takeDelList 0, .takeBuf 0, .delete (inetNtoa (10, 0, 0, 1)) 5, .takeDelList 0,
    .takeBuf 0, .insert 101 (inetNtoa (10, 0, 0, 1)) 5 1 1]

/-- The second connection of the key has won behind the next crawl. -/
theorem lastCallWins_iff_sample :
    ∃ final, Run (bufStep 0) (Crawled.start 30 1) (reopenedConnection ++ crawlActions 1) final ∧
      LastCallWins 30 reopenedConnection final := by
  have run : Run (bufStep 0) (Crawled.start 30 1) (reopenedConnection ++ crawlActions 1) _ :=
    .of_foldlM rfl
  refine ⟨_, run, (lastCallWins_iff (by decide) run).mpr ?_⟩
  intro key timer last
  by_cases own : generateTimerKey (inetNtoa (10, 0, 0, 1)) 5 = key
  · subst own
    exact ⟨by decide, last⟩
  · simp only [lastCall, reopenedConnection, firstConnection, List.foldl_cons, List.foldl_nil,
      if_neg own] at last
    contradiction

/-- The connection is closed, and the descriptor is that of the next one, before a crawl. -/
def reusedDescriptor : List BufAction :=
  [firstConnection, .delete (inetNtoa (10, 0, 0, 1)) 5, .insert 101 (inetNtoa (10, 0, 0, 1)) 5 1 1]

/-- The delete of the first connection is applied to the second one as well. -/
theorem reused_descriptor_lost :
    ∃ final, Run (bufStep 0) (Crawled.start 30 1) (reusedDescriptor ++ crawlActions 1) final ∧
      ¬ LastCallWins 30 reusedDescriptor final := by
  have run : Run (bufStep 0) (Crawled.start 30 1) (reusedDescriptor ++ crawlActions 1) _ :=
    .of_foldlM rfl
  refine ⟨_, run, fun wins => ?_⟩
  have kept := wins (generateTimerKey (inetNtoa (10, 0, 0, 1)) 5)
  rw [timerAt_crawled (by decide) run, if_pos (by decide)] at kept
  exact absurd kept (by decide)

end ConnectionTimerManager

end LibEvRpc
