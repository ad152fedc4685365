import LibEvRpc.Util.RpcUtil
import LibEvRpc.ToMathlib.InsertAll
import Mathlib.Logic.Function.Iterate

/-! # Connection timers

Every worker has a buffer for the timers of its connections and a list of the connections it has to
delete. The crawler takes both, one buffer after the other, into a pool of 60 buckets, of which the
thread visits one per turn: it refreshes the clients that sent a heartbeat and restarts workers. No
entry of a map is null. A reference to an entry that was erased reads anything.
-/

namespace LibEvRpc

abbrev bucketsSize : ℕ := 60

/-- `ConnectionTimer`, without the start time that nothing sets. -/
structure ConnectionTimer where
  expireTime : Int
  fd : Int32
  runningVersion : Int64
  threadId : UInt64
  clientAddr : Bytes
deriving DecidableEq

/-- `CT_MAP` and `CT_HASH_MAP` -/
abbrev TimerMap := Std.ExtTreeMap Bytes ConnectionTimer compare

/-- The elements of one worker in `connection_buf_ptr_` and `connection_del_list_ptr_`, null while
the crawler has what they held. -/
structure WorkerBuf where
  connectionBuf : Option TimerMap
  connectionDelList : Option (List Bytes)

/-- `ConnectionTimerManager` behind its constructor. -/
structure ConnectionTimerManager where
  workerBufs : List WorkerBuf
  connectionPoolBuckets : ℕ → Option TimerMap
  refreshClientList : Option (List Bytes)
  refreshInterval : Int
  running : Bool

/-- `std::to_string` -/
def toDecimal (value : Int32) : Bytes :=
  let digits := (Nat.toDigits 10 value.toInt.natAbs).map fun digit => UInt8.ofNat digit.toNat
  if value < 0 then 45 :: digits else digits

def generateTimerKey (ipAddr : Bytes) (fd : Int32) : Bytes := ipAddr ++ [95] ++ toDecimal fd

def generateBucketNum (oriKey : Bytes) : ℕ := (bkdrHash oriKey).toNat % bucketsSize

namespace ConnectionTimerManager

def init (refreshInterval : Int) : ConnectionTimerManager where
  workerBufs := []
  connectionPoolBuckets _ := none
  refreshClientList := some []
  refreshInterval
  running := false

/-! ## Calls of the workers -/

/-- `InitTimerBuf`, which returns the index of the new buffer. -/
def initTimerBuf (manager : ConnectionTimerManager) : ℕ × ConnectionTimerManager :=
  (manager.workerBufs.length,
    { manager with
      workerBufs := manager.workerBufs ++ [⟨some ∅, some []⟩]
      running := true })

/-- The timer `InsertConnectionTimer` makes. -/
def newTimer (manager : ConnectionTimerManager) (now : Int) (ipAddr : Bytes) (fd : Int32)
    (version : Int64) (threadId : UInt64) : ConnectionTimer :=
  ⟨now + manager.refreshInterval, fd, version, threadId, ipAddr⟩

/-- Change the buffers of a worker. Without the worker there is no result. -/
def modifyBuf (manager : ConnectionTimerManager) (bufIndex : ℕ) (change : WorkerBuf → WorkerBuf) :
    Option ConnectionTimerManager :=
  if bufIndex < manager.workerBufs.length then
    some { manager with workerBufs := manager.workerBufs.modify bufIndex change }
  else none

/-- `InsertConnectionTimer`: a key that is buffered keeps its timer. -/
def insertConnectionTimer (manager : ConnectionTimerManager) (now : Int) (ipAddr : Bytes)
    (fd : Int32) (bufIndex : ℕ) (version : Int64) (threadId : UInt64) :
    Option ConnectionTimerManager :=
  let timer := manager.newTimer now ipAddr fd version threadId
  manager.modifyBuf bufIndex fun buf => { buf with
    connectionBuf := some ((buf.connectionBuf.getD ∅).insertIfNew (generateTimerKey ipAddr fd) timer) }

def deleteConnectionTimer (manager : ConnectionTimerManager) (ipAddr : Bytes) (fd : Int32)
    (bufIndex : ℕ) : Option ConnectionTimerManager :=
  manager.modifyBuf bufIndex fun buf => { buf with
    connectionDelList := some (buf.connectionDelList.getD [] ++ [generateTimerKey ipAddr fd]) }

def insertRefreshConnectionInfo (manager : ConnectionTimerManager) (ipAddr : Bytes) :
    ConnectionTimerManager :=
  { manager with refreshClientList := some (ipAddr :: manager.refreshClientList.getD []) }

/-! ## The crawler -/

def eraseTimer (buckets : ℕ → Option TimerMap) (key : Bytes) : ℕ → Option TimerMap :=
  Function.update buckets (generateBucketNum key)
    ((buckets (generateBucketNum key)).map fun map => map.erase key)

/-- The pool with a timer, unless its key is there. -/
def insertTimer (buckets : ℕ → Option TimerMap) (entry : Bytes × ConnectionTimer) :
    ℕ → Option TimerMap :=
  Function.update buckets (generateBucketNum entry.1)
    (some (((buckets (generateBucketNum entry.1)).getD ∅).insertIfNew entry.1 entry.2))

/-- How far `ConnectionBufCrawler` got. -/
inductive Crawl where
  | next (bufIndex : ℕ)
  | taken (bufIndex : ℕ) (ilp : Option (List Bytes))
deriving DecidableEq

/-- The crawler takes the list of deleted connections of a worker. -/
def takeDelList (manager : ConnectionTimerManager) (bufIndex : ℕ) :
    Option (ConnectionTimerManager × Crawl) :=
  manager.workerBufs[bufIndex]?.map fun buf =>
    ({ manager with
        workerBufs := manager.workerBufs.modify bufIndex fun buf =>
          { buf with connectionDelList := none } },
      .taken bufIndex buf.connectionDelList)

/-- The crawler takes the buffer of a worker and moves what is not deleted to the pool. -/
def takeBuf (manager : ConnectionTimerManager) (bufIndex : ℕ) (ilp : Option (List Bytes)) :
    Option (ConnectionTimerManager × Crawl) :=
  manager.workerBufs[bufIndex]?.map fun buf =>
    let delKeys := ilp.getD []
    let localCtm := delKeys.foldl (fun map key => map.erase key) (buf.connectionBuf.getD ∅)
    let buckets := delKeys.foldl eraseTimer manager.connectionPoolBuckets
    ({ manager with
        workerBufs := manager.workerBufs.modify bufIndex fun buf =>
          { buf with connectionBuf := none }
        connectionPoolBuckets := localCtm.toList.foldl insertTimer buckets },
      .next (bufIndex + 1))

/-- One iteration of `ConnectionBufCrawler`. -/
def crawlBuf (manager : ConnectionTimerManager) (bufIndex : ℕ) : Option ConnectionTimerManager :=
  (manager.takeDelList bufIndex).bind fun
    | (manager, .taken index ilp) => (manager.takeBuf index ilp).map Prod.fst
    | (_, .next _) => none

/-- `ConnectionBufCrawler` without concurrent calls. -/
def connectionBufCrawler (manager : ConnectionTimerManager) : Option ConnectionTimerManager :=
  (List.range manager.workerBufs.length).foldlM crawlBuf manager

/-! ## One worker and the crawler -/

/-- A call of a worker, or one half of an iteration of the crawler. -/
inductive BufAction where
  | insert (now : Int) (ipAddr : Bytes) (fd : Int32) (version : Int64) (threadId : UInt64)
  | delete (ipAddr : Bytes) (fd : Int32)
  | takeDelList (index : ℕ)
  | takeBuf (index : ℕ)
deriving DecidableEq

/-- The manager between the calls of a worker and those of the crawler. -/
structure Crawled where
  manager : ConnectionTimerManager
  crawl : Crawl

/-- Every worker has its buffer, and the crawler begins. -/
def Crawled.start (refreshInterval : Int) (workers : ℕ) : Crawled where
  manager := (fun manager => manager.initTimerBuf.2)^[workers] (init refreshInterval)
  crawl := .next 0

/-- One call of `ConnectionBufCrawler`. -/
def crawlActions (workers : ℕ) : List BufAction :=
  (List.range workers).flatMap fun index => [.takeDelList index, .takeBuf index]

/-- The state behind an action, where the calls are those of the worker with an index. Behind the last
buffer the crawler starts again. -/
def bufStep (bufIndex : ℕ) (state : Crawled) : BufAction → Option Crawled
  | .insert now ipAddr fd version threadId =>
      (state.manager.insertConnectionTimer now ipAddr fd bufIndex version threadId).map fun manager =>
        { state with manager }
  | .delete ipAddr fd =>
      (state.manager.deleteConnectionTimer ipAddr fd bufIndex).map fun manager =>
        { state with manager }
  | .takeDelList index =>
      if state.crawl = .next index then
        (state.manager.takeDelList index).map fun (manager, crawl) => ⟨manager, crawl⟩
      else none
  | .takeBuf index =>
      match state.crawl with
      | .next _ => none
      | .taken current ilp =>
          if current = index then
            (state.manager.takeBuf index ilp).map fun (manager, crawl) =>
              ⟨manager, if index + 1 = manager.workerBufs.length then .next 0 else crawl⟩
          else none

end ConnectionTimerManager

/-! ## The wheel -/

/-- How far `Run` got in a turn. -/
inductive TimerWheel.Phase where
  | crawling (crawl : ConnectionTimerManager.Crawl)
  | refreshing (refreshSet : Option (List Bytes)) (keys : List Bytes)
  | testing (refreshSet : Option (List Bytes)) (key : Bytes) (keys : List Bytes)
deriving DecidableEq

/-- The manager with its thread and the clock. The visited buckets and the calls of
`RestartWorkerThread` are kept for the record. -/
structure TimerWheel where
  manager : ConnectionTimerManager
  bucketIndex : ℕ
  phase : TimerWheel.Phase
  now : Int
  visited : ℕ
  restarts : List (UInt64 × Int64)

namespace TimerWheel

/-- `Run` begins. -/
def init (manager : ConnectionTimerManager) (now : Int) : TimerWheel where
  manager
  bucketIndex := 0
  phase := .crawling (.next 0)
  now
  visited := 0
  restarts := []

/-- What can happen next. The thread comes with what a reference to an erased timer reads. -/
inductive Event where
  | tick (seconds : ℕ)
  | initTimerBuf
  | insertConnectionTimer (ipAddr : Bytes) (fd : Int32) (bufIndex : ℕ) (version : Int64)
      (threadId : UInt64)
  | deleteConnectionTimer (ipAddr : Bytes) (fd : Int32) (bufIndex : ℕ)
  | insertRefreshConnectionInfo (ipAddr : Bytes)
  | run (stale : UInt64 × Int64)

/-- `spliter_location` of a key: the place of the first separator. -/
def spliterLocation (key : Bytes) : Int32 :=
  match key.idxOf? 95 with
  | none => -1
  | some location => Int32.ofNat location

/-- The part of a key in front of the separator, if there is one. -/
def keyAddr? (key : Bytes) : Option Bytes :=
  if spliterLocation key < 0 then none
  else some (key.take (spliterLocation key).toNatClampNeg)

def advance (wheel : TimerWheel) : TimerWheel :=
  { wheel with
    bucketIndex := (wheel.bucketIndex + 1) % bucketsSize
    phase := .crawling (.next 0)
    visited := wheel.visited + 1 }

def modifyBucket (wheel : TimerWheel) (change : TimerMap → TimerMap) : ConnectionTimerManager :=
  { wheel.manager with
    connectionPoolBuckets := Function.update wheel.manager.connectionPoolBuckets wheel.bucketIndex
      ((wheel.manager.connectionPoolBuckets wheel.bucketIndex).map change) }

/-- The visit of a bucket begins: the set of clients to refresh is taken, unless there is no
timer. -/
def visit (wheel : TimerWheel) : TimerWheel :=
  match wheel.manager.connectionPoolBuckets wheel.bucketIndex with
  | none => wheel.advance
  | some ctm =>
      if ctm.isEmpty then wheel.advance
      else { wheel with
        manager := { wheel.manager with refreshClientList := none }
        phase := .refreshing wheel.manager.refreshClientList ctm.keys }

/-- The timer of a key is refreshed if its client is in the set. A key without an address is erased
and then used, which has no result. -/
def refresh (wheel : TimerWheel) (refreshSet : Option (List Bytes)) (key : Bytes) :
    Option ConnectionTimerManager :=
  match refreshSet with
  | none => some wheel.manager
  | some clients =>
      (keyAddr? key).map fun clientAddr =>
        if clientAddr ∈ clients then
          wheel.modifyBucket fun ctm => ctm.modify key fun timer =>
            { timer with expireTime := wheel.now + wheel.manager.refreshInterval }
        else wheel.manager

/-- The timer of a key is tested. Its worker is restarted behind its end, so thread and version are
read from an erased timer. -/
def test (wheel : TimerWheel) (stale : UInt64 × Int64) (key : Bytes) : Option TimerWheel :=
  ((wheel.manager.connectionPoolBuckets wheel.bucketIndex).bind fun ctm => ctm[key]?).map fun timer =>
    if timer.expireTime > wheel.now then
      { wheel with
        manager := wheel.modifyBucket fun ctm => ctm.erase key
        restarts := wheel.restarts ++ [stale] }
    else wheel

/-- One step of `Run`, which ends unless a buffer was made. -/
def run (wheel : TimerWheel) (stale : UInt64 × Int64) : Option TimerWheel :=
  match wheel.phase with
  | .crawling (.next index) =>
      if index = 0 ∧ !wheel.manager.running then none
      else
        match wheel.manager.takeDelList index with
        | some (manager, crawl) => some { wheel with manager, phase := .crawling crawl }
        | none => some wheel.visit
  | .crawling (.taken index ilp) =>
      (wheel.manager.takeBuf index ilp).map fun (manager, crawl) =>
        { wheel with manager, phase := .crawling crawl }
  | .refreshing _ [] => some wheel.advance
  | .refreshing refreshSet (key :: keys) =>
      (wheel.refresh refreshSet key).map fun manager =>
        { wheel with manager, phase := .testing refreshSet key keys }
  | .testing refreshSet key keys =>
      (wheel.test stale key).map fun wheel => { wheel with phase := .refreshing refreshSet keys }

def step (wheel : TimerWheel) : Event → Option TimerWheel
  | .tick seconds => some { wheel with now := wheel.now + seconds }
  | .initTimerBuf => some { wheel with manager := wheel.manager.initTimerBuf.2 }
  | .insertConnectionTimer ipAddr fd bufIndex version threadId =>
      (wheel.manager.insertConnectionTimer wheel.now ipAddr fd bufIndex version threadId).map
        fun manager => { wheel with manager }
  | .deleteConnectionTimer ipAddr fd bufIndex =>
      (wheel.manager.deleteConnectionTimer ipAddr fd bufIndex).map fun manager =>
        { wheel with manager }
  | .insertRefreshConnectionInfo ipAddr =>
      some { wheel with manager := wheel.manager.insertRefreshConnectionInfo ipAddr }
  | .run stale => wheel.run stale

end TimerWheel

end LibEvRpc
