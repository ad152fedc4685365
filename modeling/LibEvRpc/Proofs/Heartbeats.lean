import LibEvRpc.Proofs.Framing
import LibEvRpc.Proofs.TimerWheel
import LibEvRpc.Server.RpcHeartbeat

/-! # What becomes of the heartbeats

A ping fits one datagram, so whatever the network does an address that reaches the manager is that of a
client that pinged. But the thread that shall receive them ends when its socket is ready, so none does:
no timer is ever refreshed, and one that is due stays until its connection is deleted.
-/

namespace List

variable {α : Type*}

/-- What holds of the items, changed or not, holds behind a change of one of them. -/
theorem forall_mem_modify {property : α → Prop} {change : α → α} {items : List α} (index : ℕ)
    (all : ∀ item ∈ items, property item)
    (changed : ∀ item, property item → property (change item)) :
    ∀ item ∈ items.modify index change, property item := by
  intro item member
  obtain ⟨place, found⟩ := mem_iff_getElem?.mp member
  rw [getElem?_modify, Option.map_eq_map] at found
  obtain ⟨before, present, rfl⟩ := Option.map_eq_some_iff.mp found
  have holds := all before (mem_of_getElem? present)
  split
  · exact changed before holds
  · exact holds

end List

namespace LibEvRpc

open ConnectionTimerManager
open Std.ExtTreeMap

namespace TimerWheel

variable {wheel next : TimerWheel} {event : Event}

/-! ## A wheel without heartbeats -/

/-- What a step of `Run` can do. -/
theorem run_cases {stale : UInt64 × Int64} (success : wheel.run stale = some next) :
    (∃ index buf, wheel.phase = .crawling (.next index) ∧ wheel.manager.workerBufs[index]? = some buf ∧
        next = { wheel with
          manager := { wheel.manager with
            workerBufs := wheel.manager.workerBufs.modify index fun buf =>
              { buf with connectionDelList := none } }
          phase := .crawling (.taken index buf.connectionDelList) }) ∨
      (∃ index, wheel.phase = .crawling (.next index) ∧ next = wheel.visit) ∨
      (∃ index ilp manager crawl, wheel.phase = .crawling (.taken index ilp) ∧
        wheel.manager.takeBuf index ilp = some (manager, crawl) ∧
          next = { wheel with manager, phase := .crawling crawl }) ∨
      (∃ set, wheel.phase = .refreshing set [] ∧ next = wheel.advance) ∨
      (∃ set key keys manager, wheel.phase = .refreshing set (key :: keys) ∧
        wheel.refresh set key = some manager ∧
          next = { wheel with manager, phase := .testing set key keys }) ∨
      ∃ set key keys tested, wheel.phase = .testing set key keys ∧ wheel.test stale key = some tested ∧
        next = { tested with phase := .refreshing set keys } := by
  rw [run] at success
  split at success
  · next index phase =>
    split at success
    · contradiction
    · split at success
      · next manager crawl taking =>
        cases success
        obtain ⟨buf, found, same⟩ := Option.map_eq_some_iff.mp taking
        cases same
        exact .inl ⟨index, buf, phase, found, rfl⟩
      · cases success
        exact .inr (.inl ⟨index, phase, rfl⟩)
  · next index ilp phase =>
    obtain ⟨⟨manager, crawl⟩, taking, rfl⟩ := Option.map_eq_some_iff.mp success
    exact .inr (.inr (.inl ⟨index, ilp, manager, crawl, phase, taking, rfl⟩))
  · next set phase =>
    cases success
    exact .inr (.inr (.inr (.inl ⟨set, phase, rfl⟩)))
  · next set key keys phase =>
    obtain ⟨manager, refreshing, rfl⟩ := Option.map_eq_some_iff.mp success
    exact .inr (.inr (.inr (.inr (.inl ⟨set, key, keys, manager, phase, refreshing, rfl⟩))))
  · next set key keys phase =>
    obtain ⟨tested, testing, rfl⟩ := Option.map_eq_some_iff.mp success
    exact .inr (.inr (.inr (.inr (.inr ⟨set, key, keys, tested, phase, testing, rfl⟩))))

/-- The clients to refresh, taken or not, have a property. -/
structure Listed (property : Bytes → Prop) (wheel : TimerWheel) : Prop where
  list : ∀ addr ∈ wheel.manager.refreshClientList.getD [], property addr
  set : ∀ addr ∈ wheel.phase.refreshSet.getD [], property addr

def Unrefreshed (wheel : TimerWheel) : Prop := wheel.Listed fun _ => False

/-- Without a client to refresh nothing is. -/
theorem refresh_empty {set : Option (List Bytes)} {key : Bytes} {manager : ConnectionTimerManager}
    (empty : ∀ addr ∈ set.getD [], False) (success : wheel.refresh set key = some manager) :
    manager = wheel.manager := by
  rw [refresh.eq_def] at success
  split at success
  · cases success
    rfl
  · obtain ⟨clientAddr, _, rfl⟩ := Option.map_eq_some_iff.mp success
    exact if_neg fun member => empty clientAddr member

/-- A test changes the pool only. -/
theorem test_cases {stale : UInt64 × Int64} {key : Bytes} (success : wheel.test stale key = some next) :
    next = wheel ∨ ∃ timer restarts, wheel.now < timer.expireTime ∧
      ((wheel.manager.connectionPoolBuckets wheel.bucketIndex).bind fun ctm => ctm[key]?) = some timer ∧
      next = { wheel with manager := wheel.modifyBucket fun ctm => ctm.erase key, restarts } := by
  obtain ⟨timer, found, rfl⟩ := Option.map_eq_some_iff.mp success
  split
  · next early => exact .inr ⟨timer, _, early, found, rfl⟩
  · exact .inl rfl

/-- A visit takes the clients to refresh, or goes on. -/
theorem visit_cases (wheel : TimerWheel) : wheel.visit = wheel.advance ∨ ∃ keys, wheel.visit = { wheel with
    manager := { wheel.manager with refreshClientList := none }
    phase := .refreshing wheel.manager.refreshClientList keys } := by
  rw [visit]
  split
  · exact .inl rfl
  · split
    · exact .inl rfl
    · exact .inr ⟨_, rfl⟩

/-- A call of a worker changes its buffers only. -/
theorem modifyBuf_cases {bufIndex : ℕ} {change : WorkerBuf → WorkerBuf}
    (success : (wheel.manager.modifyBuf bufIndex change).map (fun manager =>
      ({ wheel with manager } : TimerWheel)) = some next) :
    next = { wheel with manager := { wheel.manager with
      workerBufs := wheel.manager.workerBufs.modify bufIndex change } } := by
  obtain ⟨manager, modified, rfl⟩ := Option.map_eq_some_iff.mp success
  rw [modifyBuf] at modified
  split at modified
  · cases modified
    rfl
  · contradiction

variable {property : Bytes → Prop}

theorem listed_run {stale : UInt64 × Int64} (listed : wheel.Listed property)
    (success : wheel.run stale = some next) : next.Listed property := by
  obtain ⟨index, buf, _, _, rfl⟩ | ⟨index, _, rfl⟩ | ⟨index, ilp, manager, crawl, _, taking, rfl⟩ |
    ⟨set, _, rfl⟩ | ⟨set, key, keys, manager, phase, refreshing, rfl⟩ |
    ⟨set, key, keys, tested, phase, testing, rfl⟩ := run_cases success
  · exact ⟨listed.list, List.forall_mem_nil _⟩
  · obtain same | ⟨keys, same⟩ := wheel.visit_cases
    · rw [same]
      exact ⟨listed.list, List.forall_mem_nil _⟩
    · rw [same]
      exact ⟨List.forall_mem_nil _, listed.list⟩
  · obtain ⟨buf, _, same⟩ := Option.map_eq_some_iff.mp taking
    cases same
    exact ⟨listed.list, List.forall_mem_nil _⟩
  · exact ⟨listed.list, List.forall_mem_nil _⟩
  · have set := listed.set
    have list := listed.list
    rw [phase] at set
    rw [← (refresh_manager refreshing).2] at list
    exact ⟨list, set⟩
  · have set := listed.set
    rw [phase] at set
    obtain rfl | ⟨timer, restarts, _, _, rfl⟩ := test_cases testing
    · exact ⟨listed.list, set⟩
    · exact ⟨listed.list, set⟩

/-- Only a heartbeat gives a client to refresh. -/
theorem listed_step (listed : wheel.Listed property)
    (quiet : HeartbeatSystem.isHeartbeat event = false) (success : wheel.step event = some next) :
    next.Listed property := by
  cases event with
  | tick seconds | initTimerBuf =>
    cases success
    exact ⟨listed.list, listed.set⟩
  | insertConnectionTimer ipAddr fd bufIndex version threadId
  | deleteConnectionTimer ipAddr fd bufIndex =>
    rw [modifyBuf_cases success]
    exact ⟨listed.list, listed.set⟩
  | insertRefreshConnectionInfo ipAddr => contradiction
  | run stale => exact listed_run listed success

/-! ## Where timers come from -/

def Makes (wheel : TimerWheel) (event : Event) (key : Bytes) (timer : ConnectionTimer) : Prop :=
  ∃ ipAddr fd bufIndex version threadId,
    event = .insertConnectionTimer ipAddr fd bufIndex version threadId ∧
      key = generateTimerKey ipAddr fd ∧
      timer = wheel.manager.newTimer wheel.now ipAddr fd version threadId

/-- The timers in the buffers and in the pool have a property. -/
structure Timers (made : Bytes → ConnectionTimer → Prop) (wheel : TimerWheel) : Prop where
  buffered : ∀ buf ∈ wheel.manager.workerBufs, ∀ key timer,
    (buf.connectionBuf.getD ∅)[key]? = some timer → made key timer
  pooled : ∀ key timer, wheel.timer? key = some timer → made key timer

variable {made : Bytes → ConnectionTimer → Prop}

theorem timers_run {stale : UInt64 × Int64} (unrefreshed : wheel.Unrefreshed)
    (timers : wheel.Timers made) (success : wheel.run stale = some next) : next.Timers made := by
  obtain ⟨index, buf, _, _, rfl⟩ | ⟨index, _, rfl⟩ | ⟨index, ilp, manager, crawl, _, taking, rfl⟩ |
    ⟨set, _, rfl⟩ | ⟨set, key, keys, manager, phase, refreshing, rfl⟩ |
    ⟨set, key, keys, tested, _, testing, rfl⟩ := run_cases success
  · exact ⟨List.forall_mem_modify index timers.buffered fun _ kept => kept, timers.pooled⟩
  · obtain same | ⟨keys, same⟩ := wheel.visit_cases
    · rw [same]
      exact ⟨timers.buffered, timers.pooled⟩
    · rw [same]
      exact ⟨timers.buffered, timers.pooled⟩
  · obtain ⟨buf, found, same⟩ := Option.map_eq_some_iff.mp taking
    cases same
    refine ⟨List.forall_mem_modify index timers.buffered fun buf _ key timer none => ?_,
      fun key timer pooled => ?_⟩
    · rw [Option.getD_none, getElem?_empty] at none
      contradiction
    · rw [timer?, timerAt_taken] at pooled
      split at pooled
      · contradiction
      · rcases Option.or_eq_some_iff.mp pooled with before | ⟨_, moved⟩
        · exact timers.pooled key timer before
        · exact timers.buffered buf (List.mem_of_getElem? found) key timer moved
  · exact ⟨timers.buffered, timers.pooled⟩
  · have set := unrefreshed.set
    rw [phase] at set
    rw [refresh_empty set refreshing]
    exact ⟨timers.buffered, timers.pooled⟩
  · refine ⟨?_, fun other timer pooled => ?_⟩
    · obtain rfl | ⟨timer, restarts, _, _, rfl⟩ := test_cases testing
      · exact timers.buffered
      · exact timers.buffered
    · change tested.timer? other = some timer at pooled
      rw [timer?_test testing (pooled ▸ rfl)] at pooled
      exact timers.pooled other timer pooled

/-- Without heartbeats a step leaves timers as they were made. -/
theorem timers_step (unrefreshed : wheel.Unrefreshed) (timers : wheel.Timers made)
    (makes : ∀ key timer, wheel.Makes event key timer → made key timer)
    (quiet : HeartbeatSystem.isHeartbeat event = false) (success : wheel.step event = some next) :
    next.Timers made := by
  cases event with
  | tick seconds =>
    cases success
    exact ⟨timers.buffered, timers.pooled⟩
  | initTimerBuf =>
    cases success
    refine ⟨List.forall_mem_append.mpr ⟨timers.buffered, ?_⟩, timers.pooled⟩
    rintro buf member key timer found
    rw [List.mem_singleton.mp member, Option.getD_some, getElem?_empty] at found
    contradiction
  | insertConnectionTimer ipAddr fd bufIndex version threadId =>
    rw [modifyBuf_cases success]
    refine ⟨List.forall_mem_modify bufIndex timers.buffered fun buf kept key timer found => ?_,
      timers.pooled⟩
    rw [Option.getD_some, getElem?_insertIfNew_eq _ (generateTimerKey ipAddr fd, _)] at found
    rcases Option.or_eq_some_iff.mp found with before | ⟨_, inserted⟩
    · exact kept key timer before
    · obtain ⟨same, inserted⟩ := Option.ite_none_right_eq_some.mp inserted
      cases inserted
      exact makes key _ ⟨ipAddr, fd, bufIndex, version, threadId, rfl, same.symm, rfl⟩
  | deleteConnectionTimer ipAddr fd bufIndex =>
    rw [modifyBuf_cases success]
    exact ⟨List.forall_mem_modify bufIndex timers.buffered fun _ kept => kept, timers.pooled⟩
  | insertRefreshConnectionInfo ipAddr => contradiction
  | run stale => exact timers_run unrefreshed timers success

/-! ## Timers that are due -/

def Deletes (event : Event) (key : Bytes) : Prop :=
  ∃ ipAddr fd bufIndex, event = .deleteConnectionTimer ipAddr fd bufIndex ∧
    key = generateTimerKey ipAddr fd

/-- A timer of the pool is due, and nobody waits to delete it. -/
structure Overdue (key : Bytes) (timer : ConnectionTimer) (wheel : TimerWheel) : Prop where
  pooled : wheel.timer? key = some timer
  due : timer.expireTime ≤ wheel.now
  unlisted : ∀ buf ∈ wheel.manager.workerBufs, key ∉ buf.connectionDelList.getD []
  untaken : ∀ index ilp, wheel.phase = .crawling (.taken index ilp) → key ∉ ilp.getD []

variable {key : Bytes} {timer : ConnectionTimer}

/-- A test leaves a timer that is due. -/
theorem timer?_test_due {stale : UInt64 × Int64} {tested : Bytes}
    (success : wheel.test stale tested = some next) (pooled : wheel.timer? key = some timer)
    (due : timer.expireTime ≤ wheel.now) : next.timer? key = some timer := by
  obtain rfl | ⟨other, restarts, early, found, rfl⟩ := test_cases success
  · exact pooled
  · change timerAt (wheel.modifyBucket fun ctm => ctm.erase tested).connectionPoolBuckets key = _
    rw [timerAt_modifyBucket]
    split
    · next bucket =>
      rw [timer?, timerAt, bucket] at pooled
      obtain ⟨ctm, visited, stored⟩ := Option.bind_eq_some_iff.mp pooled
      rw [visited, Option.bind_some] at found ⊢
      rw [getElem?_erase]
      split
      · next same =>
        rw [Std.LawfulEqCmp.compare_eq_iff_eq] at same
        subst same
        cases found.symm.trans stored
        omega
      · exact stored
    · exact pooled

/-- Behind the crawler no list is taken. -/
theorem untaken_advance (wheel : TimerWheel) (index : ℕ) (ilp : Option (List Bytes)) :
    wheel.advance.phase ≠ .crawling (.taken index ilp) := by
  rintro ⟨⟩

theorem overdue_run {stale : UInt64 × Int64} (unrefreshed : wheel.Unrefreshed)
    (overdue : Overdue key timer wheel) (success : wheel.run stale = some next) :
    Overdue key timer next := by
  obtain ⟨index, buf, _, found, rfl⟩ | ⟨index, _, rfl⟩ | ⟨index, ilp, manager, crawl, phase, taking, rfl⟩ |
    ⟨set, _, rfl⟩ | ⟨set, key, keys, manager, phase, refreshing, rfl⟩ |
    ⟨set, key, keys, tested, _, testing, rfl⟩ := run_cases success
  · refine ⟨overdue.pooled, overdue.due, ?_, ?_⟩
    · exact List.forall_mem_modify index overdue.unlisted fun _ _ => List.not_mem_nil
    · rintro _ _ ⟨⟩
      exact overdue.unlisted buf (List.mem_of_getElem? found)
  · obtain same | ⟨keys, same⟩ := wheel.visit_cases
    · rw [same]
      exact ⟨overdue.pooled, overdue.due, overdue.unlisted,
        fun index ilp taken => absurd taken (wheel.untaken_advance index ilp)⟩
    · rw [same]
      exact ⟨overdue.pooled, overdue.due, overdue.unlisted, fun _ _ taken => by contradiction⟩
  · obtain ⟨buf, found, same⟩ := Option.map_eq_some_iff.mp taking
    cases same
    refine ⟨?_, overdue.due, ?_, by rintro _ _ ⟨⟩⟩
    · have pooled : timerAt wheel.manager.connectionPoolBuckets key = some timer := overdue.pooled
      rw [timer?, timerAt_taken, if_neg (overdue.untaken index ilp phase), pooled, Option.some_or]
    · exact List.forall_mem_modify index overdue.unlisted fun _ kept => kept
  · exact ⟨overdue.pooled, overdue.due, overdue.unlisted,
      fun index ilp taken => absurd taken (wheel.untaken_advance index ilp)⟩
  · have set := unrefreshed.set
    rw [phase] at set
    rw [refresh_empty set refreshing]
    exact ⟨overdue.pooled, overdue.due, overdue.unlisted, fun _ _ taken => by contradiction⟩
  · have pooled := timer?_test_due testing overdue.pooled overdue.due
    obtain rfl | ⟨_, restarts, _, _, rfl⟩ := test_cases testing
    · exact ⟨pooled, overdue.due, overdue.unlisted, fun _ _ taken => by contradiction⟩
    · exact ⟨pooled, overdue.due, overdue.unlisted, fun _ _ taken => by contradiction⟩

/-- Without heartbeats a timer that is due stays until its connection is deleted. -/
theorem overdue_step (unrefreshed : wheel.Unrefreshed) (overdue : Overdue key timer wheel)
    (kept : ¬ Deletes event key) (quiet : HeartbeatSystem.isHeartbeat event = false)
    (success : wheel.step event = some next) : Overdue key timer next := by
  cases event with
  | tick seconds =>
    cases success
    have due := overdue.due
    refine ⟨overdue.pooled, ?_, overdue.unlisted, overdue.untaken⟩
    change timer.expireTime ≤ wheel.now + seconds
    omega
  | initTimerBuf =>
    cases success
    refine ⟨overdue.pooled, overdue.due, ?_, overdue.untaken⟩
    exact List.forall_mem_append.mpr ⟨overdue.unlisted, List.forall_mem_singleton.mpr List.not_mem_nil⟩
  | insertConnectionTimer ipAddr fd bufIndex version threadId =>
    rw [modifyBuf_cases success]
    exact ⟨overdue.pooled, overdue.due,
      List.forall_mem_modify bufIndex overdue.unlisted fun _ kept => kept, overdue.untaken⟩
  | deleteConnectionTimer ipAddr fd bufIndex =>
    rw [modifyBuf_cases success]
    refine ⟨overdue.pooled, overdue.due, ?_, overdue.untaken⟩
    refine List.forall_mem_modify bufIndex overdue.unlisted fun buf unlisted listed => ?_
    rw [Option.getD_some] at listed
    rcases List.mem_append.mp listed with before | deleted
    · exact unlisted before
    · exact kept ⟨ipAddr, fd, bufIndex, rfl, List.mem_singleton.mp deleted⟩
  | insertRefreshConnectionInfo ipAddr => contradiction
  | run stale => exact overdue_run unrefreshed overdue success

end TimerWheel

namespace HeartbeatSystem

open TimerWheel (Makes Timers Listed Unrefreshed Overdue Deletes)

variable {system next start : HeartbeatSystem} {action : Action} {actions : List Action} {null : Bool}

/-! ## Nothing is refreshed -/

/-- The thread of the server was not started, or has returned, and no client is to be refreshed. -/
structure Quiet (null : Bool) (system : HeartbeatSystem) : Prop where
  server : system.server = .new null ∨ system.server.phase = .returned
  unrefreshed : system.wheel.Unrefreshed

theorem quiet_init (refreshInterval now : Int) (null : Bool) (clients : List RpcHeartbeatClient) :
    Quiet null (init refreshInterval now null clients) where
  server := .inl rfl
  unrefreshed := ⟨List.forall_mem_nil _, List.forall_mem_nil _⟩

/-- A new server whose socket is ready returns, and so does one without a loop. -/
theorem returned_of_run {serverFd : Int32} {server : RpcHeartbeatServer}
    (success : (RpcHeartbeatServer.new null).run serverFd = some server) : server.phase = .returned := by
  rw [RpcHeartbeatServer.run, RpcHeartbeatServer.initHeartbeatServer] at success
  by_cases failed : serverFd < 0
  · rw [if_pos failed, RpcHeartbeatServer.new] at success
    cases null with
    | false => contradiction
    | true =>
      cases success
      rfl
  · rw [if_neg failed] at success
    cases success
    rfl

/-- What a step does to the timers, and to the thread of the server. -/
theorem step_cases (quiet : Quiet null system) (success : system.step action = some next) :
    (next.wheel = system.wheel ∧ (next.server = system.server ∨ next.server.phase = .returned)) ∨
      ∃ event, action = .timer event ∧ isHeartbeat event = false ∧
        system.wheel.step event = some next.wheel ∧ next.server = system.server := by
  cases action with
  | timer event =>
    rw [step] at success
    split at success
    · contradiction
    · next other =>
      obtain ⟨wheel, stepped, rfl⟩ := Option.map_eq_some_iff.mp success
      exact .inr ⟨event, rfl, Bool.eq_false_iff.mpr other, stepped, rfl⟩
  | server serverFd =>
    rw [step] at success
    split at success
    · next created =>
      obtain ⟨server, started, rfl⟩ := Option.map_eq_some_iff.mp success
      rcases quiet.server with fresh | returned
      · rw [fresh] at started
        exact .inl ⟨rfl, .inr (returned_of_run started)⟩
      · rw [returned] at created
        contradiction
    · contradiction
  | client index connectFd =>
    obtain ⟨client, _, started⟩ := Option.bind_eq_some_iff.mp success
    split at started
    · cases started
      exact .inl ⟨rfl, .inl rfl⟩
    · contradiction
  | ping index sendto =>
    obtain ⟨client, _, pinged⟩ := Option.bind_eq_some_iff.mp success
    split at pinged
    · obtain ⟨blocks, _, rfl⟩ := Option.map_eq_some_iff.mp pinged
      exact .inl ⟨rfl, .inl rfl⟩
    · contradiction
  | arrive index =>
    obtain ⟨block, _, rfl⟩ := Option.map_eq_some_iff.mp success
    exact .inl ⟨rfl, .inl rfl⟩
  | lose index | fail =>
    cases success
    exact .inl ⟨rfl, .inl rfl⟩
  | readable error =>
    rw [step] at success
    rcases quiet.server with fresh | returned
    · rw [fresh] at success
      contradiction
    · rw [returned] at success
      contradiction

theorem quiet_step (quiet : Quiet null system) (success : system.step action = some next) :
    Quiet null next := by
  obtain ⟨wheel, server⟩ | ⟨event, _, other, stepped, server⟩ := step_cases quiet success
  · refine ⟨?_, wheel ▸ quiet.unrefreshed⟩
    rcases server with same | returned
    · exact same ▸ quiet.server
    · exact .inr returned
  · exact ⟨server ▸ quiet.server, TimerWheel.listed_step quiet.unrefreshed other stepped⟩

theorem quiet_run {refreshInterval now : Int} {clients : List RpcHeartbeatClient}
    (run : Run step (init refreshInterval now null clients) actions system) : Quiet null system :=
  run.invariant_of_step (quiet_init refreshInterval now null clients)
    fun _ _ _ quiet success => quiet_step quiet success

/-- Some action of a run made a timer. -/
def Origin (start : HeartbeatSystem) (actions : List Action) (key : Bytes) (timer : ConnectionTimer) :
    Prop :=
  Sometimes step start (fun system action =>
    ∃ event, action = .timer event ∧ system.wheel.Makes event key timer) actions

/-- In a run of the manager the thread that shall receive heartbeats never comes to its loop, and every
timer of the pool is as an insertion made it: none was refreshed. -/
theorem run_unrefreshed {refreshInterval now : Int} {clients : List RpcHeartbeatClient}
    {final : HeartbeatSystem} (run : Run step (init refreshInterval now null clients) actions final) :
    (∀ serverFd, final.server.phase ≠ .looping serverFd) ∧
      ∀ key timer, final.wheel.timer? key = some timer →
        Origin (init refreshInterval now null clients) actions key timer := by
  constructor
  · intro serverFd looping
    rcases (quiet_run run).server with fresh | returned
    · rw [fresh] at looping
      contradiction
    · rw [returned] at looping
      contradiction
  · suffices timers : final.wheel.Timers (Origin (init refreshInterval now null clients) actions) from
      timers.pooled
    induction run with
    | nil =>
      exact ⟨List.forall_mem_nil _, fun key timer pooled => by contradiction⟩
    | @snoc actions system next action run success ih =>
      have later (key : Bytes) (timer : ConnectionTimer)
          (origin : Origin (init refreshInterval now null clients) actions key timer) :
          Origin (init refreshInterval now null clients) (actions ++ [action]) key timer :=
        run.sometimes_snoc.mpr (.inl origin)
      have kept : system.wheel.Timers
          (Origin (init refreshInterval now null clients) (actions ++ [action])) :=
        ⟨fun buf member key timer found => later key timer (ih.buffered buf member key timer found),
          fun key timer pooled => later key timer (ih.pooled key timer pooled)⟩
      have quiet := quiet_run run
      obtain ⟨wheel, _⟩ | ⟨event, rfl, other, stepped, _⟩ := step_cases quiet success
      · rw [wheel]
        exact kept
      · exact TimerWheel.timers_step quiet.unrefreshed kept
          (fun key timer makes => run.sometimes_snoc.mpr (.inr ⟨event, rfl, makes⟩)) other stepped

/-- A client that is not started. -/
def sampleClient : RpcHeartbeatClient :=
  ⟨some (inetNtoa (10, 0, 0, 9)), some [], inetNtoa (10, 0, 0, 1), .created⟩

/-- A connection of a client that pings, up to the pool, and the thread of the server. -/
def onePing : List Action :=
  [.timer .initTimerBuf, .timer (.insertConnectionTimer (inetNtoa (10, 0, 0, 1)) 9 0 0 1), .client 0 4,
    .ping 0 allSent, .arrive 0, .server 5, .timer (.tick 40), .timer (.run (7, 7)), .timer (.run (7, 7))]

private theorem onePing_done : (onePing.foldlM step (init 30 100 false [sampleClient])).isSome := by
  decide +kernel

/-- The timer of this connection in the pool is as it was made. -/
theorem run_unrefreshed_sample :
    ∃ final, Run step (init 30 100 false [sampleClient]) onePing final ∧
      Origin (init 30 100 false [sampleClient]) onePing (generateTimerKey (inetNtoa (10, 0, 0, 1)) 9)
        ⟨130, 9, 0, 1, inetNtoa (10, 0, 0, 1)⟩ :=
  ⟨_, .of_isSome onePing_done, (run_unrefreshed (.of_isSome onePing_done)).2 _ _ (by decide +kernel)⟩

/-- A timer of the pool that is due stays there until its connection is deleted, whatever its client and
the network do. -/
theorem run_overdue {refreshInterval now : Int} {clients : List RpcHeartbeatClient}
    {reached final : HeartbeatSystem} {more : List Action} {key : Bytes} {timer : ConnectionTimer}
    (run : Run step (init refreshInterval now null clients) actions reached)
    (overdue : Overdue key timer reached.wheel) (later : Run step reached more final)
    (kept : ∀ event, Action.timer event ∈ more → ¬ Deletes event key) :
    Overdue key timer final.wheel := by
  suffices both : Quiet null final ∧ Overdue key timer final.wheel from both.2
  induction later with
  | nil => exact ⟨quiet_run run, overdue⟩
  | @snoc more system next action later success ih =>
    obtain ⟨quiet, still⟩ := ih fun event member => kept event (List.mem_append_left _ member)
    refine ⟨quiet_step quiet success, ?_⟩
    obtain ⟨wheel, _⟩ | ⟨event, rfl, other, stepped, _⟩ := step_cases quiet success
    · rw [wheel]
      exact still
    · have spared := kept event (List.mem_append_right _ (List.mem_singleton_self _))
      exact TimerWheel.overdue_step quiet.unrefreshed still spared other stepped

def afterPing : HeartbeatSystem := (onePing.foldlM step (init 30 100 false [sampleClient])).get onePing_done

/-- The ping arrives again, and the thread visits the first bucket. -/
def lateVisit : List Action :=
  [.timer (.tick 100), .arrive 0, .timer (.run (7, 7)), .timer (.run (7, 7)), .timer (.run (7, 7))]

private theorem lateVisit_done : (lateVisit.foldlM step afterPing).isSome := by decide +kernel

/-- The connection stays, 110 seconds too long. -/
theorem run_overdue_sample :
    ∃ final, Run step afterPing lateVisit final ∧
      Overdue (generateTimerKey (inetNtoa (10, 0, 0, 1)) 9) ⟨130, 9, 0, 1, inetNtoa (10, 0, 0, 1)⟩
        final.wheel := by
  have phase : afterPing.wheel.phase = .crawling (.next 1) := by decide +kernel
  refine ⟨_, .of_isSome lateVisit_done, run_overdue (.of_isSome onePing_done) ⟨?_, ?_, ?_, ?_⟩
    (.of_isSome lateVisit_done) ?_⟩
  · decide +kernel
  · decide +kernel
  · decide +kernel
  · intro index ilp taken
    rw [← afterPing, phase] at taken
    cases TimerWheel.Phase.crawling.inj taken
  · rintro event member ⟨ipAddr, fd, bufIndex, rfl, _⟩
    simp [lateVisit] at member

/-! ## Whose heartbeats there are -/

def pingBlock (addr : Bytes) : MetaData := .make (endCode 1) addr

/-- The ping of a dotted address is one datagram, or none. -/
theorem ping_eq {client : RpcHeartbeatClient} {address : UInt8 × UInt8 × UInt8 × UInt8}
    (dotted : client.localAddress = inetNtoa address) (sendto : ℕ → Bool) :
    client.ping sendto = some (if sendto 0 then [pingBlock (inetNtoa address)] else []) := by
  have length := inetNtoa_length_le address
  have nonempty : inetNtoa address ≠ [] := by
    rw [inetNtoa]
    simp
  rw [RpcHeartbeatClient.ping, rpcSendTo, dotted,
    rpcSend_short sendto (by decide) nonempty (by omega), Option.map_some]
  cases sendto 0 <;> rfl

/-- The processor gives the address of a ping to the manager. -/
theorem heartBeatProcessor_ping (manager : ConnectionTimerManager) (socket : List RecvEvent)
    (address : UInt8 × UInt8 × UInt8 × UInt8) :
    heartBeatProcessor false manager (.data (pingBlock (inetNtoa address)).chunk :: socket) =
      some (manager.insertRefreshConnectionInfo (inetNtoa address), socket) := by
  have length := inetNtoa_length_le address
  have short : (inetNtoa address).length < bodySize := by
    rw [bodySize]
    omega
  rw [heartBeatProcessor, if_neg Bool.false_ne_true, rpcRecvFrom, pingBlock,
    rpcRecv_block false (endCode 1) [] socket short, ofBuffer_inetNtoa]
  rfl

/-- Some action of a run pings from an address. -/
def Pings (start : HeartbeatSystem) (actions : List Action) (addr : Bytes) : Prop :=
  Sometimes step start (fun system action => ∃ index sendto client, action = .ping index sendto ∧
    system.clients[index]? = some client ∧ client.localAddress = addr) actions

/-- The addresses of the clients are dotted, and what is under way, at the socket and at the manager
is from pings, up to errors at the socket. -/
structure Pinged (pings : Bytes → Prop) (system : HeartbeatSystem) : Prop where
  dotted : ∀ client ∈ system.clients, ∃ address, client.localAddress = inetNtoa address
  flight : ∀ block ∈ system.flight, ∃ address, pings (inetNtoa address) ∧
    block = pingBlock (inetNtoa address)
  socket : ∀ event ∈ system.socket, event = .error ∨
    ∃ address, pings (inetNtoa address) ∧ event = .data (pingBlock (inetNtoa address)).chunk
  listed : system.wheel.Listed fun addr => addr = [] ∨ pings addr

variable {pings : Bytes → Prop}

theorem Pinged.imp {more : Bytes → Prop} (pinged : Pinged pings system)
    (later : ∀ addr, pings addr → more addr) : Pinged more system where
  dotted := pinged.dotted
  flight block member := by
    obtain ⟨address, sent, same⟩ := pinged.flight block member
    exact ⟨address, later _ sent, same⟩
  socket event member := by
    obtain error | ⟨address, sent, same⟩ := pinged.socket event member
    · exact .inl error
    · exact .inr ⟨address, later _ sent, same⟩
  listed := ⟨fun addr member => (pinged.listed.list addr member).imp_right (later addr),
    fun addr member => (pinged.listed.set addr member).imp_right (later addr)⟩

/-- A step of the processor inserts what the first event at the socket brings. -/
theorem pinged_readable {error : Bool} {manager : ConnectionTimerManager} {socket : List RecvEvent}
    (pinged : Pinged pings system)
    (success : heartBeatProcessor error system.wheel.manager system.socket = some (manager, socket)) :
    Pinged pings { system with wheel := { system.wheel with manager }, socket } := by
  cases error with
  | true =>
    cases success
    exact pinged
  | false =>
    have listed {addr : Bytes} (known : addr = [] ∨ pings addr) : TimerWheel.Listed
        (fun addr => addr = [] ∨ pings addr) { system.wheel with
          manager := system.wheel.manager.insertRefreshConnectionInfo addr } :=
      ⟨List.forall_mem_cons.mpr ⟨known, pinged.listed.list⟩, pinged.listed.set⟩
    have events := pinged.socket
    cases shape : system.socket with
    | nil =>
      rw [shape] at success
      contradiction
    | cons event rest =>
      rw [shape] at success events
      obtain ⟨first, others⟩ := List.forall_mem_cons.mp events
      obtain rfl | ⟨address, sent, rfl⟩ := first
      · cases success
        exact ⟨pinged.dotted, pinged.flight, others, listed (.inl rfl)⟩
      · rw [heartBeatProcessor_ping] at success
        cases success
        exact ⟨pinged.dotted, pinged.flight, others, listed (.inr sent)⟩

/-- A step keeps to the pings before it and its own. -/
theorem pinged_step (pinged : Pinged pings system)
    (own : ∀ index sendto client, action = .ping index sendto → system.clients[index]? = some client →
      pings client.localAddress)
    (success : system.step action = some next) : Pinged pings next := by
  cases action with
  | timer event =>
    rw [step] at success
    split at success
    · contradiction
    · next other =>
      obtain ⟨wheel, stepped, rfl⟩ := Option.map_eq_some_iff.mp success
      exact ⟨pinged.dotted, pinged.flight, pinged.socket,
        TimerWheel.listed_step pinged.listed (Bool.eq_false_iff.mpr other) stepped⟩
  | server serverFd =>
    rw [step] at success
    split at success
    · obtain ⟨server, _, rfl⟩ := Option.map_eq_some_iff.mp success
      exact ⟨pinged.dotted, pinged.flight, pinged.socket, pinged.listed⟩
    · contradiction
  | client index connectFd =>
    obtain ⟨client, found, started⟩ := Option.bind_eq_some_iff.mp success
    split at started
    · cases started
      refine ⟨fun other member => ?_, pinged.flight, pinged.socket, pinged.listed⟩
      rcases List.mem_or_eq_of_mem_set member with before | rfl
      · exact pinged.dotted other before
      · exact pinged.dotted client (List.mem_of_getElem? found)
    · contradiction
  | ping index sendto =>
    obtain ⟨client, found, sending⟩ := Option.bind_eq_some_iff.mp success
    split at sending
    · obtain ⟨blocks, made, rfl⟩ := Option.map_eq_some_iff.mp sending
      obtain ⟨address, dotted⟩ := pinged.dotted client (List.mem_of_getElem? found)
      rw [ping_eq dotted] at made
      cases made
      refine ⟨pinged.dotted, List.forall_mem_append.mpr ⟨pinged.flight, ?_⟩, pinged.socket, pinged.listed⟩
      intro block member
      split at member
      · exact ⟨address, dotted ▸ own index sendto client rfl found, List.mem_singleton.mp member⟩
      · contradiction
    · contradiction
  | arrive index =>
    obtain ⟨block, found, rfl⟩ := Option.map_eq_some_iff.mp success
    refine ⟨pinged.dotted, pinged.flight, List.forall_mem_append.mpr ⟨pinged.socket, ?_⟩, pinged.listed⟩
    obtain ⟨address, sent, rfl⟩ := pinged.flight block (List.mem_of_getElem? found)
    exact List.forall_mem_singleton.mpr (.inr ⟨address, sent, rfl⟩)
  | lose index =>
    cases success
    exact ⟨pinged.dotted, fun block member => pinged.flight block (List.mem_of_mem_eraseIdx member),
      pinged.socket, pinged.listed⟩
  | fail =>
    cases success
    exact ⟨pinged.dotted, pinged.flight,
      List.forall_mem_append.mpr ⟨pinged.socket, List.forall_mem_singleton.mpr (.inl rfl)⟩, pinged.listed⟩
  | readable error =>
    rw [step] at success
    split at success
    · obtain ⟨⟨manager, socket⟩, processed, rfl⟩ := Option.map_eq_some_iff.mp success
      exact pinged_readable pinged processed
    · contradiction
    · contradiction

/-- Whatever the network does to the datagrams of clients with dotted addresses, and whatever the
threads do, every address that the manager has to refresh is that of a client that pinged, or is empty
behind an error at the socket. -/
theorem run_pinged {final : HeartbeatSystem}
    (dotted : ∀ client ∈ start.clients, ∃ address, client.localAddress = inetNtoa address)
    (flight : start.flight = []) (socket : start.socket = []) (unrefreshed : start.wheel.Unrefreshed)
    (run : Run step start actions final) :
    final.wheel.Listed fun addr => addr = [] ∨ Pings start actions addr := by
  suffices pinged : Pinged (Pings start actions) final from pinged.listed
  induction run with
  | nil =>
    refine ⟨dotted, ?_, ?_, fun addr member => (unrefreshed.list addr member).elim,
      fun addr member => (unrefreshed.set addr member).elim⟩
    · rw [flight]
      exact List.forall_mem_nil _
    · rw [socket]
      exact List.forall_mem_nil _
  | @snoc actions system next action run success ih =>
    apply pinged_step (ih.imp fun addr sent => run.sometimes_snoc.mpr (.inl sent)) ?_ success
    rintro index sendto client rfl found
    exact run.sometimes_snoc.mpr (.inr ⟨index, sendto, client, rfl, found, rfl⟩)

def loopingServer : HeartbeatSystem :=
  { init 30 100 false [sampleClient] with server := ⟨.loop 5, .looping 5⟩ }

def twoArrivals : List Action :=
  [.client 0 4, .ping 0 allSent, .arrive 0, .arrive 0, .lose 0, .readable false, .readable false]

private theorem twoArrivals_done : (twoArrivals.foldlM step loopingServer).isSome := by decide +kernel

/-- Both are from the client that pinged. -/
theorem run_pinged_sample :
    ∃ final, Run step loopingServer twoArrivals final ∧
      final.wheel.manager.refreshClientList =
        some [inetNtoa (10, 0, 0, 1), inetNtoa (10, 0, 0, 1)] ∧
      final.wheel.Listed fun addr => addr = [] ∨ Pings loopingServer twoArrivals addr :=
  ⟨_, .of_isSome twoArrivals_done, by decide +kernel, run_pinged
    (List.forall_mem_singleton.mpr ⟨(10, 0, 0, 1), rfl⟩) rfl rfl
    ⟨List.forall_mem_nil _, List.forall_mem_nil _⟩ (.of_isSome twoArrivals_done)⟩

end HeartbeatSystem

end LibEvRpc
