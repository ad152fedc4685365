import LibEvRpc.Proofs.TimerPool

/-! # What a turn of the wheel does to timers

The test for the end of a timer is inverted: it ends a timer that is not due and keeps one that is,
so no test is right. The clients that sent a heartbeat are handed over to the visit of one bucket, so
a heartbeat reaches the timers of a client only if they all lie there.
-/

namespace LibEvRpc

open ConnectionTimerManager
open Std.ExtTreeMap

namespace TimerWheel

/-! ## Timeouts -/

def tested? (wheel : TimerWheel) : Event → Option (Bytes × ConnectionTimer)
  | .run _ =>
      match wheel.phase with
      | .testing _ key _ =>
          ((wheel.manager.connectionPoolBuckets wheel.bucketIndex).bind fun ctm => ctm[key]?).map
            fun timer => (key, timer)
      | .crawling _ | .refreshing _ _ => none
  | _ => none

def InBucket (wheel : TimerWheel) (index : ℕ) (key : Bytes) : Prop :=
  ∃ ctm, wheel.manager.connectionPoolBuckets index = some ctm ∧ key ∈ ctm

/-- A step restarts a worker and removes the timer it tests only if the timer is due, and then it does
both, once and for the thread and the version of the timer. -/
structure TimeoutSafe (wheel : TimerWheel) (event : Event) (next : TimerWheel) : Prop where
  restarted : next.restarts ≠ wheel.restarts →
    ∃ key timer, wheel.tested? event = some (key, timer) ∧ timer.expireTime ≤ wheel.now
  removed : ∀ key timer, wheel.tested? event = some (key, timer) →
    ¬ next.InBucket wheel.bucketIndex key → timer.expireTime ≤ wheel.now
  due : ∀ key timer, wheel.tested? event = some (key, timer) → timer.expireTime ≤ wheel.now →
    ¬ next.InBucket wheel.bucketIndex key ∧
      next.restarts = wheel.restarts ++ [(timer.threadId, timer.runningVersion)]

theorem tested?_eq_some_iff {wheel : TimerWheel} {event : Event} {key : Bytes}
    {timer : ConnectionTimer} :
    wheel.tested? event = some (key, timer) ↔
      ∃ stale set keys, event = .run stale ∧ wheel.phase = .testing set key keys ∧
        ((wheel.manager.connectionPoolBuckets wheel.bucketIndex).bind fun ctm => ctm[key]?) =
          some timer := by
  rw [tested?.eq_def]
  constructor
  · intro tested
    split at tested
    · next stale =>
      split at tested
      · next set other keys phase =>
        obtain ⟨found, lookup, same⟩ := Option.map_eq_some_iff.mp tested
        cases same
        exact ⟨stale, set, keys, rfl, phase, lookup⟩
      · contradiction
      · contradiction
    · contradiction
  · rintro ⟨stale, set, keys, rfl, phase, lookup⟩
    dsimp only
    rw [phase]
    dsimp only
    rw [lookup, Option.map_some]

/-- A step changes the pool, the phase and the clock, or goes on to the next bucket, or tests a
timer. -/
theorem step_cases {wheel next : TimerWheel} {event : Event}
    (success : wheel.step event = some next) :
    (∃ manager phase now, next = { wheel with manager, phase, now }) ∨ next = wheel.advance ∨
      ∃ stale set key keys tested, event = .run stale ∧ wheel.phase = .testing set key keys ∧
        wheel.test stale key = some tested ∧ next = { tested with phase := .refreshing set keys } := by
  cases event with
  | tick seconds | initTimerBuf | insertRefreshConnectionInfo ipAddr =>
    cases success
    exact .inl ⟨_, _, _, rfl⟩
  | insertConnectionTimer ipAddr fd bufIndex version threadId
  | deleteConnectionTimer ipAddr fd bufIndex =>
    obtain ⟨manager, _, rfl⟩ := Option.map_eq_some_iff.mp success
    exact .inl ⟨_, _, _, rfl⟩
  | run stale =>
    rw [step, run] at success
    split at success
    · split at success
      · contradiction
      · split at success
        · cases success
          exact .inl ⟨_, _, _, rfl⟩
        · cases success
          rw [visit]
          split
          · exact .inr (.inl rfl)
          · split
            · exact .inr (.inl rfl)
            · exact .inl ⟨_, _, _, rfl⟩
    · obtain ⟨_, _, rfl⟩ := Option.map_eq_some_iff.mp success
      exact .inl ⟨_, _, _, rfl⟩
    · cases success
      exact .inr (.inl rfl)
    · obtain ⟨_, _, rfl⟩ := Option.map_eq_some_iff.mp success
      exact .inl ⟨_, _, _, rfl⟩
    · next set key keys phase =>
      obtain ⟨tested, testing, rfl⟩ := Option.map_eq_some_iff.mp success
      exact .inr (.inr ⟨stale, set, key, keys, tested, rfl, phase, testing, rfl⟩)

/-- Only a test restarts a worker. -/
theorem restarts_of_not_tested {wheel next : TimerWheel} {event : Event}
    (untested : wheel.tested? event = none) (success : wheel.step event = some next) :
    next.restarts = wheel.restarts := by
  obtain ⟨_, _, _, rfl⟩ | rfl | ⟨stale, set, key, keys, tested, rfl, phase, testing, rfl⟩ :=
    step_cases success
  · rfl
  · rfl
  · obtain ⟨timer, found, _⟩ := Option.map_eq_some_iff.mp testing
    rw [tested?_eq_some_iff.mpr ⟨stale, set, keys, rfl, phase, found⟩] at untested
    contradiction

/-- No test is right: it removes a timer that is not due, and keeps one that is. -/
theorem not_timeoutSafe {wheel next : TimerWheel} {event : Event} {key : Bytes}
    {timer : ConnectionTimer} (tested : wheel.tested? event = some (key, timer))
    (success : wheel.step event = some next) : ¬ wheel.TimeoutSafe event next := by
  intro safe
  obtain ⟨stale, set, keys, rfl, phase, lookup⟩ := tested?_eq_some_iff.mp tested
  obtain ⟨ctm, bucket, found⟩ := Option.bind_eq_some_iff.mp lookup
  rw [step, run, phase] at success
  dsimp only at success
  rw [test, lookup] at success
  by_cases early : timer.expireTime > wheel.now
  · rw [Option.map_some, if_pos early, Option.map_some, Option.some.injEq] at success
    subst success
    have gone : ¬ InBucket { wheel with
        manager := wheel.modifyBucket fun ctm => ctm.erase key
        restarts := wheel.restarts ++ [stale]
        phase := .refreshing set keys } wheel.bucketIndex key := by
      rintro ⟨after, present, member⟩
      dsimp only [modifyBucket] at present
      rw [Function.update_self, bucket, Option.map_some, Option.some.injEq] at present
      subst present
      exact (mem_erase.mp member).1 Std.ReflCmp.compare_self
    exact absurd (safe.removed key timer tested gone) (not_le_of_gt early)
  · rw [Option.map_some, if_neg early, Option.map_some, Option.some.injEq] at success
    subst success
    have kept := (safe.due key timer tested (not_lt.mp early)).1
    refine kept ⟨ctm, bucket, ?_⟩
    rw [mem_iff_isSome_getElem?, found]
    rfl

/-- A step is safe exactly when it tests no timer. -/
theorem timeoutSafe_iff {wheel next : TimerWheel} {event : Event}
    (success : wheel.step event = some next) :
    wheel.TimeoutSafe event next ↔ wheel.tested? event = none := by
  constructor
  · intro safe
    cases tested : wheel.tested? event with
    | none => rfl
    | some entry => exact absurd safe (not_timeoutSafe tested success)
  · intro untested
    constructor
    case restarted => exact fun changed => absurd (restarts_of_not_tested untested success) changed
    case removed =>
      intro key timer tested
      rw [untested] at tested
      contradiction
    case due =>
      intro key timer tested
      rw [untested] at tested
      contradiction

/-- In a run every step is safe exactly when none of them tests a timer. -/
theorem run_timeoutSafe_iff {manager : ConnectionTimerManager} {now : Int} {events : List Event}
    {final : TimerWheel} (run : Run step (init manager now) events final) :
    Throughout step (init manager now)
      (fun _ wheel event => ∀ next, wheel.step event = some next → wheel.TimeoutSafe event next)
      events ↔
    Throughout step (init manager now) (fun _ wheel event => wheel.tested? event = none) events := by
  apply run.throughout_congr
  intro _ wheel event next success
  constructor
  · exact fun safe => (timeoutSafe_iff success).mp (safe next success)
  · exact fun untested next success => (timeoutSafe_iff success).mpr untested

/-- A connection of the first bucket is closed before the crawl, and another one is moved to bucket 36;
the first two buckets are visited. -/
def closedBeforeCrawl : List Event :=
  [.initTimerBuf, .insertConnectionTimer (inetNtoa (10, 0, 0, 1)) 9 0 0 1,
    .insertConnectionTimer (inetNtoa (10, 0, 0, 1)) 10 0 0 1,
    .deleteConnectionTimer (inetNtoa (10, 0, 0, 1)) 9 0, .run (7, 7), .run (7, 7), .run (7, 7), .tick 1,
    .run (7, 7), .run (7, 7), .run (7, 7)]

/-- The visits of two buckets without a timer restart nothing. -/
theorem run_timeoutSafe_iff_sample :
    ∃ final, Run step (init (ConnectionTimerManager.init 30) 100) closedBeforeCrawl final ∧
      final.visited = 2 ∧
      Throughout step (init (ConnectionTimerManager.init 30) 100)
        (fun _ wheel event => ∀ next, wheel.step event = some next → wheel.TimeoutSafe event next)
        closedBeforeCrawl := by
  have untested : Run.along step (fun wheel => (wheel.tested? (.run (7, 7))).isNone)
      (init (ConnectionTimerManager.init 30) 100) closedBeforeCrawl := by decide +kernel
  have run := @Run.of_isSome _ _ step (init (ConnectionTimerManager.init 30) 100) closedBeforeCrawl
    (by decide +kernel)
  refine ⟨_, run, by decide +kernel, (run_timeoutSafe_iff run).mpr ?_⟩
  intro before event wheel front reached
  have here := Run.of_along .nil untested List.nil_prefix
    ((List.prefix_append before [event]).trans front) reached
  cases event with
  | run stale => exact Option.isNone_iff_eq_none.mp here
  | tick | initTimerBuf | insertConnectionTimer | deleteConnectionTimer
  | insertRefreshConnectionInfo => rfl

/-- A connection of 10.0.0.1 that lies in the first bucket. -/
def oneConnection : List Event :=
  [.initTimerBuf, .insertConnectionTimer (inetNtoa (10, 0, 0, 1)) 9 0 0 1,
    .run (7, 7), .run (7, 7), .run (7, 7), .run (7, 7), .run (7, 7)]

/-- The worker of a connection is restarted 30 seconds before the connection times out. -/
theorem live_connection_restarted :
    ∃ final, Run step (init (ConnectionTimerManager.init 30) 100) oneConnection final ∧
      final.restarts = [(7, 7)] ∧
      ¬ Throughout step (init (ConnectionTimerManager.init 30) 100)
        (fun _ wheel event => ∀ next, wheel.step event = some next → wheel.TimeoutSafe event next)
        oneConnection := by
  refine ⟨_, .of_foldlM rfl, rfl, fun safe => ?_⟩
  have last := safe oneConnection.dropLast (.run (7, 7)) _ ⟨[], rfl⟩ (.of_foldlM rfl) _ rfl
  exact @not_timeoutSafe _ _ _ (generateTimerKey (inetNtoa (10, 0, 0, 1)) 9)
    ⟨130, 9, 0, 1, inetNtoa (10, 0, 0, 1)⟩ rfl rfl last

/-! ## Heartbeats -/

/-- The set of clients with which the thread refreshes in this turn. -/
def Phase.refreshSet : Phase → Option (List Bytes)
  | .crawling _ => none
  | .refreshing set _ | .testing set _ _ => set

/-- The keys that the thread has still to refresh in this turn. -/
def Phase.ahead : Phase → List Bytes
  | .crawling _ => []
  | .refreshing _ keys | .testing _ _ keys => keys

def begun (wheel : TimerWheel) : ℕ :=
  match wheel.phase with
  | .crawling _ => wheel.visited
  | .refreshing _ _ | .testing _ _ _ => wheel.visited + 1

def timer? (wheel : TimerWheel) (key : Bytes) : Option ConnectionTimer :=
  timerAt wheel.manager.connectionPoolBuckets key

/-- A heartbeat of a client arrives, one of its timers is in the pool then and stays there. -/
structure Stays (start : TimerWheel) (events before : List Event) (arrival : TimerWheel)
    (ipAddr key : Bytes) : Prop where
  arrives : before ++ [.insertRefreshConnectionInfo ipAddr] <+: events
  reached : Run step start before arrival
  client : ∃ timer, arrival.timer? key = some timer ∧ timer.clientAddr = ipAddr
  stays : ∀ middle wheel, before ++ [.insertRefreshConnectionInfo ipAddr] <+: middle →
    middle <+: events → Run step start middle wheel → (wheel.timer? key).isSome

/-- Behind a full turn of the wheel a timer that stayed expires no earlier than the interval behind the
heartbeat. -/
def HeartbeatsKept (start : TimerWheel) (events : List Event) (final : TimerWheel) : Prop :=
  ∀ before arrival ipAddr key, Stays start events before arrival ipAddr key →
    arrival.begun + bucketsSize ≤ final.visited →
      ∃ timer, final.timer? key = some timer ∧
        arrival.now + arrival.manager.refreshInterval ≤ timer.expireTime

/-- A step begins the visit of a bucket with timers, and takes the clients to refresh. -/
def Takes (wheel : TimerWheel) (event : Event) (clients : List Bytes) : Prop :=
  ∃ stale index ctm, event = .run stale ∧ wheel.phase = .crawling (.next index) ∧
    wheel.manager.takeDelList index = none ∧
    wheel.manager.connectionPoolBuckets wheel.bucketIndex = some ctm ∧ ¬ ctm.isEmpty ∧
    wheel.manager.refreshClientList = some clients

/-- When the clients are taken, every timer of theirs that waits since a heartbeat, and would expire
too early, lies in the bucket that is visited, and its key leads back to the client. -/
def TakenTogether (start : TimerWheel) (events : List Event) (wheel : TimerWheel) (event : Event) :
    Prop :=
  ∀ clients, wheel.Takes event clients → ∀ before arrival ipAddr key timer,
    Stays start events before arrival ipAddr key → ipAddr ∈ clients →
      wheel.timer? key = some timer →
      timer.expireTime < arrival.now + arrival.manager.refreshInterval →
        generateBucketNum key = wheel.bucketIndex ∧ keyAddr? key = some ipAddr

/-- A visit that begins behind the heartbeat has not come to the bucket of a key. -/
def Unvisited (arrival : TimerWheel) (key : Bytes) (visits : ℕ) : Prop :=
  ∀ visit, arrival.begun ≤ visit → visit < visits → visit % bucketsSize ≠ generateBucketNum key

/-- The heartbeat was not taken, and the bucket of the key not visited. -/
structure Waiting (arrival : TimerWheel) (ipAddr key : Bytes) (wheel : TimerWheel) : Prop where
  listed : ∃ clients, wheel.manager.refreshClientList = some clients ∧ ipAddr ∈ clients
  unvisited : Unvisited arrival key wheel.begun

/-- The heartbeat was taken by the visit of the bucket of the key, which it will refresh. -/
structure Refreshing (arrival : TimerWheel) (ipAddr key : Bytes) (wheel : TimerWheel) : Prop where
  taken : ∃ clients, wheel.phase.refreshSet = some clients ∧ ipAddr ∈ clients
  ahead : key ∈ wheel.phase.ahead
  bucket : generateBucketNum key = wheel.bucketIndex
  client : keyAddr? key = some ipAddr
  unvisited : Unvisited arrival key wheel.visited

/-- Where a heartbeat got with a timer that stays in the pool. -/
structure Tracked (arrival : TimerWheel) (ipAddr key : Bytes) (wheel : TimerWheel) : Prop where
  later : arrival.now ≤ wheel.now
  interval : wheel.manager.refreshInterval = arrival.manager.refreshInterval
  index : wheel.bucketIndex = wheel.visited % bucketsSize
  timer : ∃ timer, wheel.timer? key = some timer ∧
    (arrival.now + arrival.manager.refreshInterval ≤ timer.expireTime ∨
      Waiting arrival ipAddr key wheel ∨ Refreshing arrival ipAddr key wheel)

theorem generateBucketNum_lt (key : Bytes) : generateBucketNum key < bucketsSize :=
  Nat.mod_lt _ (by decide)

/-- A full turn comes to every bucket. -/
theorem Unvisited.lt {arrival : TimerWheel} {key : Bytes} {visits : ℕ}
    (unvisited : Unvisited arrival key visits) : visits < arrival.begun + bucketsSize := by
  by_contra turned
  have bound : generateBucketNum key < 60 := generateBucketNum_lt key
  have bucket : (arrival.begun + (generateBucketNum key + 60 - arrival.begun % 60) % 60) % 60 =
      generateBucketNum key := by omega
  refine unvisited _ (Nat.le_add_right _ _) ?_ bucket
  change ¬ visits < arrival.begun + 60 at turned
  omega

theorem Tracked.kept {arrival wheel : TimerWheel} {ipAddr key : Bytes}
    (tracked : Tracked arrival ipAddr key wheel)
    (turned : arrival.begun + bucketsSize ≤ wheel.visited) :
    ∃ timer, wheel.timer? key = some timer ∧
      arrival.now + arrival.manager.refreshInterval ≤ timer.expireTime := by
  obtain ⟨timer, found, safe | waiting | refreshing⟩ := tracked.timer
  · exact ⟨timer, found, safe⟩
  · have early := waiting.unvisited.lt
    have behind : wheel.visited ≤ wheel.begun := by
      rw [begun]
      split <;> omega
    omega
  · have early := refreshing.unvisited.lt
    omega

/-- A bucket without the key is none that the key belongs to. -/
theorem ne_bucketIndex {wheel : TimerWheel} {key : Bytes} {timer : ConnectionTimer}
    (found : wheel.timer? key = some timer)
    (empty : ∀ ctm, wheel.manager.connectionPoolBuckets wheel.bucketIndex = some ctm →
      ctm.isEmpty) : wheel.bucketIndex ≠ generateBucketNum key := by
  intro same
  obtain ⟨ctm, bucket, stored⟩ := Option.bind_eq_some_iff.mp found
  have gone := isEmpty_iff.mp (empty ctm (same ▸ bucket))
  rw [gone, getElem?_empty] at stored
  contradiction

theorem Unvisited.succ {arrival : TimerWheel} {key : Bytes} {visits : ℕ}
    (unvisited : Unvisited arrival key visits)
    (other : visits % bucketsSize ≠ generateBucketNum key) :
    Unvisited arrival key (visits + 1) := by
  intro visit begins before
  rcases Nat.lt_succ_iff_lt_or_eq.mp before with earlier | rfl
  · exact unvisited visit begins earlier
  · exact other

/-- The change of the visited bucket, seen from a key. -/
theorem timerAt_modifyBucket (wheel : TimerWheel) (change : TimerMap → TimerMap) (key : Bytes) :
    timerAt (wheel.modifyBucket change).connectionPoolBuckets key =
      if generateBucketNum key = wheel.bucketIndex then
        (wheel.manager.connectionPoolBuckets wheel.bucketIndex).bind fun ctm => (change ctm)[key]?
      else wheel.timer? key := by
  rw [modifyBucket, timerAt_update, Option.bind_map]
  rfl

def refreshed (wheel : TimerWheel) (timer : ConnectionTimer) : ConnectionTimer :=
  { timer with expireTime := wheel.now + wheel.manager.refreshInterval }

/-- A refresh leaves a timer alone, or gives it a new end. -/
theorem timerAt_refresh {wheel : TimerWheel} {set : Option (List Bytes)} {visited key : Bytes}
    {manager : ConnectionTimerManager} (success : wheel.refresh set visited = some manager) :
    timerAt manager.connectionPoolBuckets key = wheel.timer? key ∨
      timerAt manager.connectionPoolBuckets key = (wheel.timer? key).map wheel.refreshed := by
  rw [refresh.eq_def] at success
  split at success
  · cases success
    exact .inl rfl
  · obtain ⟨clientAddr, _, rfl⟩ := Option.map_eq_some_iff.mp success
    split
    · rw [timerAt_modifyBucket]
      split
      · next bucket =>
        rw [timer?, timerAt, bucket]
        cases wheel.manager.connectionPoolBuckets wheel.bucketIndex with
        | none => exact .inl rfl
        | some ctm =>
          simp only [Option.bind_some]
          rw [getElem?_modify]
          split
          · next same =>
            rw [Std.LawfulEqCmp.compare_eq_iff_eq] at same
            rw [same]
            exact .inr rfl
          · exact .inl rfl
      · exact .inl rfl
    · exact .inl rfl

/-- The timer of a client in the set is refreshed by the visit of its bucket. -/
theorem timerAt_refresh_own {wheel : TimerWheel} {clients : List Bytes} {ipAddr key : Bytes}
    {manager : ConnectionTimerManager} (success : wheel.refresh (some clients) key = some manager)
    (bucket : generateBucketNum key = wheel.bucketIndex) (client : keyAddr? key = some ipAddr)
    (taken : ipAddr ∈ clients) :
    timerAt manager.connectionPoolBuckets key = (wheel.timer? key).map wheel.refreshed := by
  rw [refresh, client, Option.map_some, if_pos taken, Option.some.injEq] at success
  rw [← success, timerAt_modifyBucket, if_pos bucket, timer?, timerAt, bucket]
  cases wheel.manager.connectionPoolBuckets wheel.bucketIndex with
  | none => rfl
  | some ctm => exact getElem?_modify_self

/-- A test leaves a timer alone, or ends it. -/
theorem timer?_test {wheel next : TimerWheel} {stale : UInt64 × Int64} {tested key : Bytes}
    (success : wheel.test stale tested = some next) (stays : (next.timer? key).isSome) :
    next.timer? key = wheel.timer? key := by
  obtain ⟨timer, _, rfl⟩ := Option.map_eq_some_iff.mp success
  split at stays
  · next early =>
    rw [if_pos early]
    change (timerAt (wheel.modifyBucket fun ctm => ctm.erase tested).connectionPoolBuckets
      key).isSome at stays
    change timerAt (wheel.modifyBucket fun ctm => ctm.erase tested).connectionPoolBuckets key = _
    rw [timerAt_modifyBucket] at stays ⊢
    split
    · next bucket =>
      rw [if_pos bucket] at stays
      rw [timer?, timerAt, bucket]
      cases found : wheel.manager.connectionPoolBuckets wheel.bucketIndex with
      | none => rfl
      | some ctm =>
        rw [found] at stays
        simp only [Option.bind_some] at stays ⊢
        rw [getElem?_erase] at stays ⊢
        split
        · next same =>
          rw [if_pos same] at stays
          contradiction
        · rfl
    · rfl
  · next late => rw [if_neg late]

theorem bucketIndex_advance {wheel : TimerWheel}
    (index : wheel.bucketIndex = wheel.visited % bucketsSize) :
    wheel.advance.bucketIndex = wheel.advance.visited % bucketsSize := by
  change (wheel.bucketIndex + 1) % 60 = (wheel.visited + 1) % 60
  change wheel.bucketIndex = wheel.visited % 60 at index
  omega

section Tracking

variable {arrival wheel next : TimerWheel} {ipAddr key : Bytes}

/-- A step that leaves the timer of the key alone. -/
private theorem Tracked.of_timer?_eq (tracked : Tracked arrival ipAddr key wheel)
    (later : wheel.now ≤ next.now)
    (interval : next.manager.refreshInterval = wheel.manager.refreshInterval)
    (index : next.bucketIndex = next.visited % bucketsSize)
    (same : next.timer? key = wheel.timer? key)
    (waiting : Waiting arrival ipAddr key wheel → Waiting arrival ipAddr key next)
    (refreshing : Refreshing arrival ipAddr key wheel → Refreshing arrival ipAddr key next) :
    Tracked arrival ipAddr key next where
  later := tracked.later.trans later
  interval := interval.trans tracked.interval
  index := index
  timer := by
    obtain ⟨timer, found, progress⟩ := tracked.timer
    exact ⟨timer, same.trans found, progress.imp_right (Or.imp waiting refreshing)⟩

/-- A step between the visits that leaves the pool and the set alone. -/
private theorem tracked_crawling {manager : ConnectionTimerManager} {before after : Crawl}
    (tracked : Tracked arrival ipAddr key wheel) (phase : wheel.phase = .crawling before)
    (interval : manager.refreshInterval = wheel.manager.refreshInterval)
    (list : manager.refreshClientList = wheel.manager.refreshClientList)
    (same : timerAt manager.connectionPoolBuckets key = wheel.timer? key) :
    Tracked arrival ipAddr key { wheel with manager, phase := .crawling after } := by
  refine tracked.of_timer?_eq le_rfl interval tracked.index same ?_ ?_
  · intro waiting
    refine ⟨list ▸ waiting.listed, ?_⟩
    have unvisited := waiting.unvisited
    rw [begun, phase] at unvisited
    exact unvisited
  · intro refreshing
    have ahead := refreshing.ahead
    rw [phase] at ahead
    contradiction

/-- The visit of an empty bucket, or the end of a visit. -/
private theorem tracked_advance (tracked : Tracked arrival ipAddr key wheel)
    (ahead : wheel.phase.ahead = []) (unvisited : Waiting arrival ipAddr key wheel →
      Unvisited arrival key (wheel.visited + 1)) : Tracked arrival ipAddr key wheel.advance := by
  refine tracked.of_timer?_eq le_rfl rfl (bucketIndex_advance tracked.index) rfl ?_ ?_
  · exact fun waiting => ⟨waiting.listed, unvisited waiting⟩
  · intro refreshing
    have listed := refreshing.ahead
    rw [ahead] at listed
    contradiction

private theorem tracked_visit {crawl : Crawl} (tracked : Tracked arrival ipAddr key wheel)
    (phase : wheel.phase = .crawling crawl)
    (together : ∀ clients ctm, wheel.manager.connectionPoolBuckets wheel.bucketIndex = some ctm →
      ¬ ctm.isEmpty → wheel.manager.refreshClientList = some clients → ipAddr ∈ clients →
        ∀ timer, wheel.timer? key = some timer →
          timer.expireTime < arrival.now + arrival.manager.refreshInterval →
            generateBucketNum key = wheel.bucketIndex ∧ keyAddr? key = some ipAddr) :
    Tracked arrival ipAddr key wheel.visit := by
  obtain ⟨timer, found, progress⟩ := tracked.timer
  have begins : wheel.begun = wheel.visited := by rw [begun, phase]
  have passes (empty : ∀ ctm, wheel.manager.connectionPoolBuckets wheel.bucketIndex = some ctm →
      ctm.isEmpty) : Tracked arrival ipAddr key wheel.advance := by
    apply tracked_advance tracked
    · rw [phase]
      rfl
    · intro waiting
      apply (begins ▸ waiting.unvisited).succ
      rw [← tracked.index]
      exact ne_bucketIndex found empty
  rw [visit]
  split
  · next none =>
    apply passes
    intro ctm bucket
    rw [none] at bucket
    contradiction
  · next ctm bucket =>
    split
    · next empty =>
      apply passes
      intro other again
      rw [bucket, Option.some.injEq] at again
      exact again ▸ empty
    · next nonempty =>
      refine ⟨tracked.later, tracked.interval, tracked.index, timer, found, ?_⟩
      rcases progress with safe | waiting | refreshing
      · exact .inl safe
      · obtain ⟨clients, list, taken⟩ := waiting.listed
        by_cases early : timer.expireTime < arrival.now + arrival.manager.refreshInterval
        · obtain ⟨place, client⟩ := together clients ctm bucket nonempty list taken timer found early
          refine .inr (.inr ⟨⟨clients, list, taken⟩, ?_, place, client, begins ▸ waiting.unvisited⟩)
          obtain ⟨other, again, stored⟩ := Option.bind_eq_some_iff.mp found
          rw [place, bucket, Option.some.injEq] at again
          apply mem_keys.mpr
          rw [mem_iff_isSome_getElem?, again, stored]
          rfl
        · exact .inl (not_lt.mp early)
      · have ahead := refreshing.ahead
        rw [phase] at ahead
        contradiction

theorem refresh_manager {set : Option (List Bytes)} {visited : Bytes}
    {manager : ConnectionTimerManager} (success : wheel.refresh set visited = some manager) :
    manager.refreshInterval = wheel.manager.refreshInterval ∧
      manager.refreshClientList = wheel.manager.refreshClientList := by
  rw [refresh.eq_def] at success
  split at success
  · cases success
    exact ⟨rfl, rfl⟩
  · obtain ⟨clientAddr, _, rfl⟩ := Option.map_eq_some_iff.mp success
    split <;> exact ⟨rfl, rfl⟩

private theorem tracked_refresh {set : Option (List Bytes)} {visited : Bytes} {keys : List Bytes}
    {manager : ConnectionTimerManager} (tracked : Tracked arrival ipAddr key wheel)
    (phase : wheel.phase = .refreshing set (visited :: keys))
    (success : wheel.refresh set visited = some manager) :
    Tracked arrival ipAddr key { wheel with manager, phase := .testing set visited keys } := by
  obtain ⟨interval, list⟩ := refresh_manager success
  obtain ⟨timer, found, progress⟩ := tracked.timer
  have bound : arrival.now + arrival.manager.refreshInterval ≤ (wheel.refreshed timer).expireTime := by
    have later := tracked.later
    change _ ≤ wheel.now + wheel.manager.refreshInterval
    rw [tracked.interval]
    omega
  refine ⟨tracked.later, interval.trans tracked.interval, tracked.index, ?_⟩
  have safe (renewed : timerAt manager.connectionPoolBuckets key =
      (wheel.timer? key).map wheel.refreshed) : ∃ timer,
        timerAt manager.connectionPoolBuckets key = some timer ∧
          arrival.now + arrival.manager.refreshInterval ≤ timer.expireTime :=
    ⟨wheel.refreshed timer, by rw [renewed, found, Option.map_some], bound⟩
  rcases timerAt_refresh success with same | renewed
  · rcases progress with early | waiting | refreshing
    · exact ⟨timer, same.trans found, .inl early⟩
    · refine ⟨timer, same.trans found, .inr (.inl ⟨list ▸ waiting.listed, ?_⟩)⟩
      have unvisited := waiting.unvisited
      rw [begun, phase] at unvisited
      exact unvisited
    · obtain ⟨⟨clients, taken, member⟩, ahead, place, client, unvisited⟩ := refreshing
      rw [phase] at taken ahead
      change set = some clients at taken
      subst taken
      rcases List.mem_cons.mp ahead with rfl | behind
      · obtain ⟨other, renewed, late⟩ := safe (timerAt_refresh_own success place client member)
        exact ⟨other, renewed, .inl late⟩
      · exact ⟨timer, same.trans found,
          .inr (.inr ⟨⟨clients, rfl, member⟩, behind, place, client, unvisited⟩)⟩
  · obtain ⟨other, renewed, late⟩ := safe renewed
    exact ⟨other, renewed, .inl late⟩

private theorem tracked_test {stale : UInt64 × Int64} {set : Option (List Bytes)} {visited : Bytes}
    {keys : List Bytes} (tracked : Tracked arrival ipAddr key wheel)
    (phase : wheel.phase = .testing set visited keys)
    (success : wheel.test stale visited = some next) (stays : (next.timer? key).isSome) :
    Tracked arrival ipAddr key { next with phase := .refreshing set keys } := by
  have same := timer?_test success stays
  obtain ⟨timer, _, rfl⟩ := Option.map_eq_some_iff.mp success
  refine tracked.of_timer?_eq ?_ ?_ ?_ same ?_ ?_
  · split <;> exact le_rfl
  · split <;> rfl
  · split <;> exact tracked.index
  · rintro ⟨listed, unvisited⟩
    rw [begun, phase] at unvisited
    split
    · exact ⟨listed, unvisited⟩
    · exact ⟨listed, unvisited⟩
  · rintro ⟨taken, ahead, place, client, unvisited⟩
    rw [phase] at taken ahead
    split
    · exact ⟨taken, ahead, place, client, unvisited⟩
    · exact ⟨taken, ahead, place, client, unvisited⟩

/-- The crawler moves a buffer to the pool. -/
private theorem tracked_takeBuf {index : ℕ} {ilp : Option (List Bytes)} {crawl : Crawl}
    {manager : ConnectionTimerManager} (tracked : Tracked arrival ipAddr key wheel)
    (phase : wheel.phase = .crawling (.taken index ilp))
    (success : wheel.manager.takeBuf index ilp = some (manager, crawl))
    (stays : (timerAt manager.connectionPoolBuckets key).isSome) :
    Tracked arrival ipAddr key { wheel with manager, phase := .crawling crawl } := by
  obtain ⟨buf, _, same⟩ := Option.map_eq_some_iff.mp success
  cases same
  refine tracked_crawling tracked phase rfl rfl ?_
  obtain ⟨timer, found, _⟩ := tracked.timer
  change timerAt wheel.manager.connectionPoolBuckets key = some timer at found
  dsimp only at stays ⊢
  rw [timerAt_taken, found] at stays
  rw [timerAt_taken, found, timer?, found]
  split
  · next deleted =>
    rw [if_pos deleted] at stays
    contradiction
  · rfl

/-- A step of the thread. -/
private theorem tracked_runStep {stale : UInt64 × Int64} (tracked : Tracked arrival ipAddr key wheel)
    (stays : (next.timer? key).isSome)
    (together : ∀ clients, wheel.Takes (.run stale) clients → ipAddr ∈ clients →
      ∀ timer, wheel.timer? key = some timer →
        timer.expireTime < arrival.now + arrival.manager.refreshInterval →
          generateBucketNum key = wheel.bucketIndex ∧ keyAddr? key = some ipAddr)
    (success : wheel.run stale = some next) : Tracked arrival ipAddr key next := by
  rw [run] at success
  split at success
  · next index phase =>
    split at success
    · contradiction
    · split at success
      · next manager crawl taking =>
        cases success
        obtain ⟨buf, _, same⟩ := Option.map_eq_some_iff.mp taking
        cases same
        exact tracked_crawling tracked phase rfl rfl rfl
      · next crawled =>
        cases success
        apply tracked_visit tracked phase
        intro clients ctm bucket nonempty list
        exact together clients ⟨stale, index, ctm, rfl, phase, crawled, bucket, nonempty, list⟩
  · next index ilp phase =>
    obtain ⟨⟨manager, crawl⟩, taking, rfl⟩ := Option.map_eq_some_iff.mp success
    exact tracked_takeBuf tracked phase taking stays
  · next set phase =>
    cases success
    apply tracked_advance tracked
    · rw [phase]
      rfl
    · intro waiting
      have unvisited := waiting.unvisited
      rw [begun, phase] at unvisited
      exact unvisited
  · next set visited keys phase =>
    obtain ⟨manager, refreshing, rfl⟩ := Option.map_eq_some_iff.mp success
    exact tracked_refresh tracked phase refreshing
  · next set visited keys phase =>
    obtain ⟨tested, testing, rfl⟩ := Option.map_eq_some_iff.mp success
    exact tracked_test tracked phase testing stays

/-- A call of another thread, or the clock. -/
private theorem tracked_call {manager : ConnectionTimerManager} {now : Int}
    (tracked : Tracked arrival ipAddr key wheel) (later : wheel.now ≤ now)
    (interval : manager.refreshInterval = wheel.manager.refreshInterval)
    (pool : manager.connectionPoolBuckets = wheel.manager.connectionPoolBuckets)
    (listed : (∃ clients, wheel.manager.refreshClientList = some clients ∧ ipAddr ∈ clients) →
      ∃ clients, manager.refreshClientList = some clients ∧ ipAddr ∈ clients) :
    Tracked arrival ipAddr key { wheel with manager, now } := by
  refine tracked.of_timer?_eq later interval tracked.index ?_ ?_ ?_
  · exact congrArg (timerAt · key) pool
  · exact fun waiting => ⟨listed waiting.listed, waiting.unvisited⟩
  · intro refreshing
    exact ⟨refreshing.taken, refreshing.ahead, refreshing.bucket, refreshing.client,
      refreshing.unvisited⟩

/-- A call of a worker. -/
private theorem tracked_modifyBuf {bufIndex : ℕ} {change : WorkerBuf → WorkerBuf}
    (tracked : Tracked arrival ipAddr key wheel)
    (success : (wheel.manager.modifyBuf bufIndex change).map (fun manager =>
      ({ wheel with manager } : TimerWheel)) = some next) : Tracked arrival ipAddr key next := by
  obtain ⟨manager, modified, rfl⟩ := Option.map_eq_some_iff.mp success
  rw [modifyBuf] at modified
  split at modified
  · cases modified
    exact tracked_call tracked le_rfl rfl rfl id
  · contradiction

/-- A step that keeps the timer in the pool. -/
theorem tracked_step {event : Event} (tracked : Tracked arrival ipAddr key wheel)
    (stays : (next.timer? key).isSome)
    (together : ∀ clients, wheel.Takes event clients → ipAddr ∈ clients →
      ∀ timer, wheel.timer? key = some timer →
        timer.expireTime < arrival.now + arrival.manager.refreshInterval →
          generateBucketNum key = wheel.bucketIndex ∧ keyAddr? key = some ipAddr)
    (success : wheel.step event = some next) : Tracked arrival ipAddr key next := by
  cases event with
  | tick seconds =>
    cases success
    have later : wheel.now ≤ wheel.now + seconds := by omega
    exact tracked_call tracked later rfl rfl id
  | initTimerBuf =>
    cases success
    exact tracked_call tracked le_rfl rfl rfl id
  | insertConnectionTimer addr fd bufIndex version threadId => exact tracked_modifyBuf tracked success
  | deleteConnectionTimer addr fd bufIndex => exact tracked_modifyBuf tracked success
  | insertRefreshConnectionInfo addr =>
    cases success
    refine tracked_call tracked le_rfl rfl rfl ?_
    rintro ⟨clients, list, member⟩
    refine ⟨_, rfl, ?_⟩
    rw [list]
    exact List.mem_cons_of_mem _ member
  | run stale => exact tracked_runStep tracked stays together success

end Tracking

/-- The bucket is that of the number of visits. -/
theorem bucketIndex_step {wheel next : TimerWheel} {event : Event}
    (index : wheel.bucketIndex = wheel.visited % bucketsSize)
    (success : wheel.step event = some next) : next.bucketIndex = next.visited % bucketsSize := by
  obtain ⟨_, _, _, rfl⟩ | rfl | ⟨stale, set, key, keys, tested, rfl, _, testing, rfl⟩ :=
    step_cases success
  · exact index
  · exact bucketIndex_advance index
  · obtain ⟨timer, _, rfl⟩ := Option.map_eq_some_iff.mp testing
    split <;> exact index

variable {manager : ConnectionTimerManager} {now : Int}

/-- The heartbeat arrives. -/
private theorem tracked_arrival {before : List Event} {arrival next : TimerWheel}
    {ipAddr key : Bytes} (run : Run step (init manager now) before arrival)
    (client : ∃ timer, arrival.timer? key = some timer ∧ timer.clientAddr = ipAddr)
    (success : arrival.step (.insertRefreshConnectionInfo ipAddr) = some next) :
    Tracked arrival ipAddr key next := by
  have index : arrival.bucketIndex = arrival.visited % bucketsSize :=
    @Run.invariant_of_step _ _ _ _ (fun wheel => wheel.bucketIndex = wheel.visited % bucketsSize) _ _
      run rfl fun _ _ _ => bucketIndex_step
  obtain ⟨timer, found, _⟩ := client
  cases success
  refine ⟨le_rfl, rfl, index, timer, found, .inr (.inl ⟨⟨_, rfl, List.mem_cons_self⟩, ?_⟩)⟩
  intro visit begins before
  exact absurd begins (not_le_of_gt before)

/-- Where a heartbeat got at the end of a run that takes clients only together with their timers. -/
theorem tracked_run {events before : List Event} {arrival final : TimerWheel} {ipAddr key : Bytes}
    (run : Run step (init manager now) events final)
    (met : Throughout step (init manager now) (TakenTogether (init manager now)) events)
    (stays : Stays (init manager now) events before arrival ipAddr key) :
    Tracked arrival ipAddr key final := by
  induction run with
  | nil =>
    exact absurd (List.prefix_nil.mp stays.arrives)
      (List.append_ne_nil_of_right_ne_nil _ (List.cons_ne_nil _ _))
  | @snoc events wheel next event run success ih =>
    obtain ⟨earlier, together⟩ := run.throughout_snoc.mp met
    rcases List.prefix_concat_iff.mp stays.arrives with whole | shorter
    · obtain ⟨rfl, same⟩ := List.append_inj' whole rfl
      cases same
      rw [run.unique stays.reached] at success
      exact tracked_arrival stays.reached stays.client success
    · have stayed : Stays (init manager now) events before arrival ipAddr key :=
        ⟨shorter, stays.reached, stays.client, fun middle state front inside =>
          stays.stays middle state front (inside.trans (List.prefix_append _ _))⟩
      have present := stays.stays _ _ stays.arrives List.prefix_rfl (.snoc run success)
      apply tracked_step (ih earlier stayed) present _ success
      intro clients takes member timer found early
      exact together clients takes before arrival ipAddr key timer stayed member found early

/-- In a run that takes clients only together with their timers, a full turn behind a heartbeat no
timer of the client that stayed expires earlier than the interval behind the heartbeat. -/
theorem heartbeatsKept {events : List Event} {final : TimerWheel}
    (run : Run step (init manager now) events final)
    (met : Throughout step (init manager now) (TakenTogether (init manager now)) events) :
    HeartbeatsKept (init manager now) events final := by
  intro before arrival ipAddr key stays turned
  exact (tracked_run run met stays).kept turned

/-- No client but one waits, and its timers, all there are, lie in the bucket that is visited. -/
def oneClient (ipAddr : Bytes) (wheel : TimerWheel) : Bool :=
  wheel.manager.refreshClientList.all fun clients =>
    clients.all (· = ipAddr) && (List.range bucketsSize).all fun index =>
      (wheel.manager.connectionPoolBuckets index).all fun ctm =>
        index = wheel.bucketIndex && ctm.keys.all fun key => keyAddr? key = some ipAddr

theorem takenTogether_of_oneClient {start wheel : TimerWheel} {ipAddr : Bytes} {events : List Event}
    {event : Event} (one : oneClient ipAddr wheel) : TakenTogether start events wheel event := by
  rintro clients ⟨_, _, _, _, _, _, _, _, list⟩ _ _ client key timer _ member found _
  rw [oneClient, list, Option.all_some, Bool.and_eq_true, List.all_eq_true, List.all_eq_true] at one
  obtain ⟨ctm, bucket, stored⟩ := Option.bind_eq_some_iff.mp found
  have place := one.2 _ (List.mem_range.mpr (generateBucketNum_lt key))
  rw [bucket, Option.all_some, Bool.and_eq_true, List.all_eq_true] at place
  refine ⟨of_decide_eq_true place.1, ?_⟩
  rw [of_decide_eq_true (one.1 client member)]
  refine of_decide_eq_true (place.2 key (mem_keys.mpr ?_))
  rw [mem_iff_isSome_getElem?, stored]
  rfl

/-- A manager at 100 whose timers run for 30 seconds. -/
def sampleWheel : TimerWheel := init (ConnectionTimerManager.init 30) 100

/-- A connection of 10.0.0.1, its heartbeat, and the visit of its bucket up to the refresh. -/
def oneHeartbeat : List Event :=
  [.initTimerBuf, .insertConnectionTimer (inetNtoa (10, 0, 0, 1)) 9 0 0 1, .tick 20,
    .run (7, 7), .run (7, 7), .insertRefreshConnectionInfo (inetNtoa (10, 0, 0, 1)),
    .run (7, 7), .run (7, 7)]

/-- The visits of all buckets, where the first timer tested is due. -/
def longTurn : List Event := .tick 30 :: List.replicate 179 (.run (7, 7))

private theorem longTurn_done : ((oneHeartbeat ++ longTurn).foldlM step sampleWheel).isSome := by
  decide +kernel

/-- The connection that was refreshed is there behind the turn. -/
theorem heartbeatsKept_sample :
    ∃ final, Run step sampleWheel (oneHeartbeat ++ longTurn) final ∧
      HeartbeatsKept sampleWheel (oneHeartbeat ++ longTurn) final ∧ final.visited = 60 ∧
      (final.timer? (generateTimerKey (inetNtoa (10, 0, 0, 1)) 9)).map (·.expireTime) =
        some 150 := by
  have tested : Run.along step (oneClient (inetNtoa (10, 0, 0, 1))) sampleWheel
      (oneHeartbeat ++ longTurn) := by decide +kernel
  refine ⟨_, .of_isSome longTurn_done, heartbeatsKept (.of_isSome longTurn_done) ?_, ?_, ?_⟩
  · intro before event wheel front reached
    exact takenTogether_of_oneClient (Run.of_along .nil tested List.nil_prefix
      ((List.prefix_append before [event]).trans front) reached)
  · decide +kernel
  · decide +kernel

/-- Two connections of 10.0.0.3 in the first two buckets; both are over at 140. -/
def twoBuckets : List Event :=
  [.initTimerBuf, .insertConnectionTimer (inetNtoa (10, 0, 0, 3)) 16 0 0 1,
    .insertConnectionTimer (inetNtoa (10, 0, 0, 3)) 17 0 0 1, .run (7, 7), .run (7, 7), .tick 40]

/-- The heartbeat at 140. -/
def heartbeat : Event := .insertRefreshConnectionInfo (inetNtoa (10, 0, 0, 3))

/-- The turn of the wheel behind the heartbeat. -/
def turn : List Event := List.replicate 184 (.run (7, 7))

def secondKey : Bytes := generateTimerKey (inetNtoa (10, 0, 0, 3)) 17

private theorem arrived : (twoBuckets.foldlM step sampleWheel).isSome := by decide +kernel

private theorem beaten : ((twoBuckets ++ [heartbeat]).foldlM step sampleWheel).isSome := by
  decide +kernel

private theorem turned : ((twoBuckets ++ [heartbeat] ++ turn).foldlM step sampleWheel).isSome := by
  decide +kernel

private theorem stays_second :
    Stays sampleWheel (twoBuckets ++ [heartbeat] ++ turn) twoBuckets
      ((twoBuckets.foldlM step sampleWheel).get arrived) (inetNtoa (10, 0, 0, 3)) secondKey := by
  refine ⟨List.prefix_append _ _, .of_isSome arrived, ?_, ?_⟩
  · exact ⟨⟨130, 17, 0, 1, inetNtoa (10, 0, 0, 3)⟩, by decide +kernel, rfl⟩
  · intro middle wheel front inside passed
    apply @Run.of_along _ _ _ _ (fun wheel => (wheel.timer? secondKey).isSome) _ turn _ _ _
      (.of_isSome beaten) _ front inside passed
    decide +kernel

/-- The heartbeat is lost for the second connection. -/
theorem second_bucket_missed :
    ∃ final, Run step sampleWheel (twoBuckets ++ [heartbeat] ++ turn) final ∧
      ¬ HeartbeatsKept sampleWheel (twoBuckets ++ [heartbeat] ++ turn) final := by
  refine ⟨_, .of_isSome turned, fun kept => ?_⟩
  obtain ⟨timer, found, late⟩ := kept _ _ _ _ stays_second (by decide +kernel)
  have early : (((twoBuckets ++ [heartbeat] ++ turn).foldlM step sampleWheel).get turned).timer?
      secondKey = some ⟨130, 17, 0, 1, inetNtoa (10, 0, 0, 3)⟩ := by decide +kernel
  rw [early, Option.some.injEq] at found
  subst found
  exact absurd late (by decide +kernel)

end TimerWheel

end LibEvRpc
