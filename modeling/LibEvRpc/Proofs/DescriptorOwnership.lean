import LibEvRpc.Center.Descriptors
import LibEvRpc.Proofs.CallbackSteps
import LibEvRpc.Proofs.CenterSteps
import LibEvRpc.Proofs.DispatchOrder

/-! # Who closes a connection

The server thread closes every connection behind its callback. `CenterProcessor` has branches that
close it as well, and a thread that processes a queued message closes the connection of the message
twice more, by a number that may be that of a later connection by then. A callback out of the order of
acceptance frees the item of another connection, whose watcher the next one then takes over. Runs
without these steps keep an open descriptor for every connection that waits for the end of its
callback, and for no other one.
-/

namespace LibEvRpc

open RpcCenter

/-! ## Closing in `CenterProcessor` -/

def RouteEffect.closed? : RouteEffect → Option Int32
  | .close fd => some fd
  | .sent _ _ | .pushElectionMessage _ _ | .pushFollowerMessage _ _ => none

namespace BufferedCenter

/-- The message of a callback has `CenterProcessor` close the connection: it is not received, it is
that of a client, or the answer to it is not sent. -/
def closes (state : BufferedCenter) (answering : Answering) : Incoming → Bool
  | .failed => true
  | .center (some received) =>
      !Cluster.isElection received.centerAction && state.center.centerStatus ≠ .leading &&
        answering.serializes && !answering.sends
  | .client cwcProto => cwcProto.isSome
  | .cluster received =>
      !answering.sends && (!centerIsReady state.center || received.any fun rpcClusterServer =>
        rpcClusterServer.clusterAction = .register && answering.serializes)
  | .center none | .other => false

theorem closed?_sendReply (sends : Bool) (fd : Int32) (reply : Reply) (needClosed : Bool) :
    (sendReply sends fd reply needClosed).filterMap RouteEffect.closed? =
      if sends && !needClosed then [] else [fd] := by
  cases sends with
  | false => rfl
  | true => cases needClosed <;> rfl

private theorem closed?_center (answering : Answering) (state : BufferedCenter) (connFd : Int32)
    (received : CentersProto) :
    (processCenterRequest answering state connFd received).effects.filterMap RouteEffect.closed? =
      if state.closes answering (.center (some received)) then [connFd] else [] := by
  rw [processCenterRequest_effects, closes]
  cases election : Cluster.isElection received.centerAction with
  | true => rfl
  | false =>
    obtain ⟨serializes, sends⟩ := answering
    by_cases leading : state.center.centerStatus = .leading
    · simp [leading, RouteEffect.closed?]
    · cases serializes with
      | false => simp [leading]
      | true => cases sends <;> simp [leading, closed?_sendReply]

private theorem closed?_client {answering : Answering} {state : BufferedCenter} {connFd : Int32}
    {cwcProto : ClientWithCenter} {routed : Routed}
    (success : processClientRequest answering state connFd cwcProto = some routed) :
    routed.effects.filterMap RouteEffect.closed? = [connFd] := by
  obtain ⟨_, response, effects⟩ := processClientRequest_spec success
  rw [effects]
  split
  · exact (closed?_sendReply _ _ _ _).trans (by simp)
  · rfl

private theorem closed?_cluster {answering : Answering} {state : BufferedCenter} {connFd : Int32}
    {rpcClusterServer : RpcClusterServer} {routed : Routed} (ready : centerIsReady state.center)
    (success : processClusterRequest answering state connFd rpcClusterServer = some routed) :
    routed.effects.filterMap RouteEffect.closed? =
      if state.closes answering (.cluster (some rpcClusterServer)) then [connFd] else [] := by
  rw [closes, ready]
  obtain ⟨action, _, effects⟩ | ⟨action, _, crc, effects⟩ := processClusterRequest_spec success
  · simp [action, effects]
  · obtain ⟨serializes, sends⟩ := answering
    rw [effects]
    cases serializes with
    | false => simp
    | true => cases sends <;> simp [action, closed?_sendReply]

/-- `CenterProcessor` closes its connection once or not at all. -/
theorem closed?_centerProcessor {answering : Answering} {state : BufferedCenter} {connFd : Int32}
    {incoming : Incoming} {routed : Routed}
    (success : state.centerProcessor answering connFd incoming = some routed) :
    routed.effects.filterMap RouteEffect.closed? =
      if state.closes answering incoming then [connFd] else [] := by
  obtain ⟨rfl, rfl⟩ | ⟨silent, rfl⟩ | ⟨received, rfl, rfl⟩ | ⟨cwcProto, rfl, request⟩ |
    ⟨received, rfl, notReady, rfl⟩ | ⟨server, rfl, ready, request⟩ := centerProcessor_cases success
  · rfl
  · obtain rfl | rfl | rfl | ⟨rfl, ready⟩ := silent
    · rfl
    · rfl
    · rfl
    · simp [closes, ready]
  · exact closed?_center _ _ _ _
  · exact closed?_client request
  · rw [closes, notReady, closed?_sendReply]
    cases answering.sends <;> rfl
  · exact closed?_cluster ready request

end BufferedCenter

/-! ## The proposal that ends the election thread -/

namespace RpcCenter

/-- A proposal that makes the center the leader, whose election thread then cancels itself. -/
structure EndsElection (outside : Outside) (center : RpcCenter) (centersProto : CentersProto) :
    Prop where
  action : centersProto.centerAction = .proposal
  accepted : center.leaderPredicate centersProto = .accept
  enough : ∀ recorded, recordSender center.otherCenters centersProto = some recorded →
    center.Enough (countVote recorded centersProto).2
  own : CString.ofBuffer centersProto.leaderCenter = CString.ofBuffer center.localAddress
  started : (center.leaderThread.start outside.toPlatform).1
  cancelled : (center.electionThread.stopSelf outside.toPlatform).1 = false

private theorem electionDone_continues_iff (outside : Outside) (center : RpcCenter)
    (centersProto : CentersProto) :
    (electionDone outside center centersProto).continues = false ↔
      CString.ofBuffer centersProto.leaderCenter = CString.ofBuffer center.localAddress ∧
        (center.leaderThread.start outside.toPlatform).1 = true ∧
        (center.electionThread.stopSelf outside.toPlatform).1 = false := by
  rw [electionDone]
  dsimp only
  split
  · next own =>
    change CString.ofBuffer centersProto.leaderCenter = CString.ofBuffer center.localAddress at own
    split
    · next started =>
      change (center.leaderThread.start outside.toPlatform).1 = true at started
      dsimp only
      simp only [own, started, true_and]
      rfl
    · next failed =>
      change ¬ (center.leaderThread.start outside.toPlatform).1 = true at failed
      simp [failed]
  · next other =>
    change ¬ CString.ofBuffer centersProto.leaderCenter = CString.ofBuffer center.localAddress at other
    split <;> simp [other]

private theorem electionDone_calls (outside : Outside) (center : RpcCenter)
    (centersProto : CentersProto) (conn : ℕ) :
    (electionDone outside center centersProto).effects.filterMap (CenterServer.processedCall? conn) =
      [] := by
  rw [electionDone]
  dsimp only
  split
  · split
    · dsimp only
      split <;> rfl
    · rfl
  · split <;> rfl

private theorem updateOCStatus_continues_iff {outside : Outside} {center : RpcCenter}
    {centersProto : CentersProto} {updated : Updated}
    (action : centersProto.centerAction = .proposal)
    (accepted : center.leaderPredicate centersProto = .accept)
    (success : center.updateOCStatus outside centersProto = some updated) :
    (updated.continues = false ↔ center.EndsElection outside centersProto) ∧
      ∀ conn, updated.effects.filterMap (CenterServer.processedCall? conn) = [] := by
  obtain ⟨recorded, recording, rfl⟩ := updateOCStatus_eq_some (not_lt_of_accept accepted) success
  split
  · next enough =>
    refine ⟨?_, electionDone_calls _ _ _⟩
    rw [electionDone_continues_iff]
    constructor
    · rintro ⟨own, started, cancelled⟩
      refine ⟨action, accepted, fun other again => ?_, own, started, cancelled⟩
      rw [recording, Option.some.injEq] at again
      exact again ▸ enough
    · intro ends
      exact ⟨ends.own, ends.started, ends.cancelled⟩
  · next few =>
    refine ⟨⟨fun contradictory => by contradiction, fun ends => ?_⟩, fun _ => rfl⟩
    exact absurd (ends.enough recorded recording) few

/-- The only message behind which the thread does not go on is such a proposal. Nothing is sent on its
connection, and it is not closed. -/
theorem processCenterData_continues_iff {outside : Outside} {center : RpcCenter} {fd : Int32}
    {centersProto : CentersProto} {processed : Processed}
    (success : center.processCenterData outside fd centersProto = some processed) :
    (processed.continues = false ↔ center.EndsElection outside centersProto) ∧
      (processed.continues = false →
        ∀ conn, processed.effects.filterMap (CenterServer.processedCall? conn) = []) := by
  have others (other : processed.continues = true) (not : ¬ center.EndsElection outside centersProto) :
      (processed.continues = false ↔ center.EndsElection outside centersProto) ∧
        (processed.continues = false →
          ∀ conn, processed.effects.filterMap (CenterServer.processedCall? conn) = []) := by
    rw [other]
    exact ⟨⟨fun contradictory => by contradiction, fun ends => absurd ends not⟩,
      fun contradictory => by contradiction⟩
  by_cases proposal : centersProto.centerAction = .proposal
  · rw [processCenterData, proposal] at success
    dsimp only at success
    split at success
    · next accepted =>
      obtain ⟨updated, updating, rfl⟩ := Option.map_eq_some_iff.mp success
      obtain ⟨ends, calls⟩ := updateOCStatus_continues_iff proposal accepted updating
      rw [← ends]
      split
      · next continues => simp [continues]
      · next stopped => exact ⟨by simp [stopped], fun _ => calls⟩
    · next refused =>
      cases success
      exact others rfl fun ends => refused ends.accepted
  · refine others ?_ fun ends => proposal ends.action
    rw [processCenterData] at success
    cases action : centersProto.centerAction with
    | proposal => exact absurd action proposal
    | inquiry | followerPing =>
      rw [action] at success
      cases success
      rw [respond]
      split <;> rfl
    | leaderConfirm | leaderPingResponse | accept | refused | centerReporter =>
      rw [action] at success
      cases success
      rfl

end RpcCenter

/-! ## Ownership -/

namespace ConnectionCall

def conn : ConnectionCall → ℕ
  | .rpcSend conn _ | .close conn _ => conn
  | .pushElectionMessage item | .pushFollowerMessage item => item.conn

/-- The connection a call closes, with its descriptor. -/
def close? : ConnectionCall → Option (ℕ × Int32)
  | .close conn fd => some (conn, fd)
  | .rpcSend _ _ | .pushElectionMessage _ | .pushFollowerMessage _ => none

/-- A call that sends a message of `ProcessCenterData`. -/
def isSend : ConnectionCall → Bool
  | .rpcSend _ _ => true
  | .close _ _ | .pushElectionMessage _ | .pushFollowerMessage _ => false

end ConnectionCall

namespace CenterServer

/-- The calls of `close` that were made for a connection or that reached it. -/
def closesOf (server : CenterServer) (conn : ℕ) : List MadeCall :=
  server.closes.filter fun call => call.conn = conn ∨ call.reached = some conn

/-- The calls that the threads have still to make. -/
def callsLeft (server : CenterServer) : List ConnectionCall :=
  server.callback.getD [] ++ server.election.getD [] ++ server.leader.getD []

def queued (server : CenterServer) : List QueuedMessage :=
  server.electionQ.items.getD [] ++ server.followerQ.items.getD []

/-- There is no callback, no call and no message left for a connection. -/
structure Settled (server : CenterServer) (conn : ℕ) : Prop where
  accepted : conn < server.items.accepted
  unwatched : ∀ watcher ∈ server.items.watched, watcher.1 ≠ conn
  called : ∀ call ∈ server.callsLeft, call.conn ≠ conn
  processed : ∀ item ∈ server.queued, item.conn ≠ conn

/-- Every answer reached the connection of its message, and every connection is closed once, by a
call made for it. -/
structure Owned (server : CenterServer) : Prop where
  answered : ∀ call ∈ server.sends, call.reached = some call.conn
  once : ∀ conn, (server.closesOf conn).length ≤ 1
  closed : ∀ conn, server.Settled conn → server.closesOf conn = [⟨conn, some conn⟩]

/-- A step after which every connection has one call of `close` ahead: the callback is that of the
connection which waits longest, and `CenterProcessor` leaves it open; and no message is processed but a
proposal that ends the thread. -/
def ClosesOnce (server : CenterServer) : Action → Prop
  | .processor item answering incoming =>
      server.items.Longest item ∧ server.buffered.closes answering incoming = false
  | .electionRun outside => ∀ item ∈ (server.electionQ.items.getD []).head?,
      server.buffered.center.EndsElection outside item.centersProto
  | _ => True

/-- The connections that wait for their callback or for its end, with their descriptors. -/
def waiting (server : CenterServer) : List (ℕ × Int32) :=
  server.items.waiting ++ (server.callback.getD []).filterMap ConnectionCall.close?

/-- The callbacks that have begun and not ended. -/
def called (server : CenterServer) : ℕ := if server.callback = none then 0 else 1

/-- The state of runs that close every connection once: exactly the waiting connections are open. -/
structure Orderly (server : CenterServer) : Prop where
  items : server.items.Orderly server.called
  leaderIdle : server.leaderRunning = false
  electionCalls : server.election.getD [] = []
  leaderCalls : server.leader.getD [] = []
  callbackSends : ∀ call ∈ server.callback.getD [], ¬ call.isSend
  nodup : (server.waiting.map Prod.fst).Nodup
  accepted : ∀ conn fd, (conn, fd) ∈ server.waiting → conn < server.items.accepted
  table : ∀ conn fd, server.table fd = some conn ↔ (conn, fd) ∈ server.waiting
  sends : server.sends = []
  closes : ∀ conn, server.closesOf conn =
    if conn < server.items.accepted ∧ conn ∉ server.waiting.map Prod.fst then [⟨conn, some conn⟩]
    else []

theorem Orderly.owned {server : CenterServer} (orderly : server.Orderly) : server.Owned where
  answered call member := by
    rw [orderly.sends] at member
    contradiction
  once conn := by
    rw [orderly.closes]
    split
    · exact le_rfl
    · exact Nat.zero_le _
  closed conn settled := by
    rw [orderly.closes, if_pos]
    refine ⟨settled.accepted, fun waits => ?_⟩
    obtain ⟨⟨_, fd⟩, member, rfl⟩ := List.mem_map.mp waits
    rcases List.mem_append.mp member with watched | closing
    · rw [← orderly.items.watched_eq] at watched
      exact settled.unwatched _ watched rfl
    · obtain ⟨call, left, found⟩ := List.mem_filterMap.mp closing
      have first : call ∈ server.callsLeft := List.mem_append_left _ (List.mem_append_left _ left)
      cases call with
      | close conn fd =>
        cases found
        exact settled.called _ first rfl
      | rpcSend _ _ => contradiction
      | pushElectionMessage _ => contradiction
      | pushFollowerMessage _ => contradiction

theorem orderly_init (buffered : BufferedCenter) : (init buffered).Orderly where
  items := DispatchThread.orderly_init
  leaderIdle := rfl
  electionCalls := rfl
  leaderCalls := rfl
  callbackSends _ member := absurd member List.not_mem_nil
  nodup := List.nodup_nil
  accepted _ _ member := absurd member List.not_mem_nil
  table conn fd := by simp [init, waiting, DispatchThread.init]
  sends := rfl
  closes conn := by simp [init, closesOf, DispatchThread.init]

/-- Steps that close and accept no connection. -/
theorem Orderly.of_perm {before after : CenterServer} (orderly : before.Orderly)
    (leaderIdle : after.leaderRunning = before.leaderRunning)
    (electionCalls : after.election.getD [] = []) (leaderCalls : after.leader.getD [] = [])
    (items : after.items.Orderly after.called)
    (callbackSends : ∀ call ∈ after.callback.getD [], ¬ call.isSend)
    (waiting : after.waiting.Perm before.waiting)
    (accepted : after.items.accepted = before.items.accepted) (table : after.table = before.table)
    (sends : after.sends = before.sends) (closes : after.closes = before.closes) :
    after.Orderly where
  items := items
  leaderIdle := leaderIdle.trans orderly.leaderIdle
  electionCalls := electionCalls
  leaderCalls := leaderCalls
  callbackSends := callbackSends
  nodup := (waiting.map Prod.fst).nodup_iff.mpr orderly.nodup
  accepted conn fd member := accepted ▸ orderly.accepted conn fd (waiting.mem_iff.mp member)
  table conn fd := by rw [table, waiting.mem_iff, orderly.table]
  sends := sends.trans orderly.sends
  closes conn := by
    rw [closesOf, closes, accepted]
    refine (orderly.closes conn).trans (if_congr ?_ rfl rfl)
    rw [(waiting.map Prod.fst).mem_iff]

theorem getD_ite_none {α : Type} {calls : Option (List α)} (idle : calls.getD [] = [])
    (kept : Prop) [Decidable kept] : (if kept then calls else none).getD [] = [] := by
  split
  · exact idle
  · rfl

/-- The center behind a step, when the threads have no calls left. -/
theorem Orderly.withCenter {server : CenterServer} (orderly : server.Orderly) (center : RpcCenter) :
    (server.withCenter center).Orderly :=
  orderly.of_perm rfl (getD_ite_none orderly.electionCalls _) (getD_ite_none orderly.leaderCalls _)
    orderly.items orderly.callbackSends (.refl _) rfl rfl rfl rfl

/-- Between two callbacks the connections that wait are those whose callback was not called. -/
theorem waiting_eq {server : CenterServer} (idle : server.callback = none) :
    server.waiting = server.items.waiting := by
  rw [waiting, idle]
  exact List.append_nil _

theorem Orderly.idle {server : CenterServer} (orderly : server.Orderly)
    (idle : server.callback = none) : server.items.Orderly 0 := by
  have items := orderly.items
  rwa [called, if_pos idle] at items

theorem orderly_accept {server after : CenterServer} {fd : Int32} (orderly : server.Orderly)
    (success : server.accept fd = some after) : after.Orderly := by
  rw [accept] at success
  split at success
  case isFalse => contradiction
  case isTrue enabled =>
    obtain ⟨idle, _, free⟩ := enabled
    obtain ⟨items, watching, rfl⟩ := Option.map_eq_some_iff.mp success
    have ordered := (orderly.idle idle).watch watching
    obtain ⟨_, _, accepted, waits, _⟩ := DispatchThread.watch_spec watching
    have waited := @waiting_eq { server with
      items, table := Function.update server.table fd (some server.items.accepted) } idle
    have added : CenterServer.waiting { server with
        items, table := Function.update server.table fd (some server.items.accepted) } =
          server.waiting ++ [(server.items.accepted, fd)] := by
      rw [waited, waits, waiting_eq idle]
    constructor
    case items =>
      rw [called, if_pos idle]
      exact ordered
    case leaderIdle => exact orderly.leaderIdle
    case electionCalls => exact orderly.electionCalls
    case leaderCalls => exact orderly.leaderCalls
    case callbackSends => exact orderly.callbackSends
    case sends => exact orderly.sends
    case nodup =>
      rw [waited]
      exact ordered.distinct
    case accepted =>
      intro conn other member
      rw [waited] at member
      exact ordered.accepted _ member
    case table =>
      intro conn other
      rw [added, List.mem_append, List.mem_singleton, ← orderly.table]
      by_cases same : other = fd
      · subst same
        simp [free, eq_comm]
      · simp [same]
    case closes =>
      intro conn
      rw [added, List.map_append]
      refine (orderly.closes conn).trans (if_congr ?_ rfl rfl)
      by_cases new : conn = server.items.accepted
      · simp [new]
      · have range : conn < items.accepted ↔ conn < server.items.accepted := by omega
        simp [new, range]

theorem close?_routedCalls (conn : ℕ) (effects : List RouteEffect) :
    (effects.filterMap (routedCall? conn)).filterMap ConnectionCall.close? =
      (effects.filterMap RouteEffect.closed?).map (conn, ·) := by
  rw [List.filterMap_filterMap, List.map_filterMap]
  congr 1
  funext effect
  cases effect <;> rfl

theorem not_isSend_of_routedCall {conn : ℕ} {effects : List RouteEffect} {call : ConnectionCall}
    (member : call ∈ effects.filterMap (routedCall? conn)) : ¬ call.isSend := by
  obtain ⟨effect, _, same⟩ := List.mem_filterMap.mp member
  cases effect with
  | sent => contradiction
  | close | pushElectionMessage | pushFollowerMessage =>
    cases same
    exact Bool.false_ne_true

/-- A callback moves its connection from the watchers to the calls. -/
theorem orderly_processor {server after : CenterServer} {item : ℕ} {answering : Answering}
    {incoming : Incoming} (orderly : server.Orderly)
    (kept : server.ClosesOnce (.processor item answering incoming))
    (success : server.processor item answering incoming = some after) : after.Orderly := by
  rw [processor] at success
  split at success
  case isFalse => contradiction
  case isTrue enabled =>
    obtain ⟨idle, started⟩ := enabled
    obtain ⟨longest, open_⟩ := kept
    obtain ⟨routed, routing, rfl⟩ := Option.map_eq_some_iff.mp success
    have closed := BufferedCenter.closed?_centerProcessor routing
    rw [open_, if_neg Bool.false_ne_true] at closed
    have ordered := orderly.idle idle
    have front := (ordered.longest_iff started).mp longest
    refine orderly.of_perm rfl orderly.electionCalls orderly.leaderCalls (ordered.evIoStop front) ?_ ?_
      rfl rfl rfl rfl
    · intro call member
      rcases List.mem_append.mp member with routed | last
      · exact not_isSend_of_routedCall routed
      · cases List.mem_singleton.mp last
        exact Bool.false_ne_true
    · have moved := List.perm_cons_erase (List.mem_of_mem_head? longest)
      rw [waiting_eq idle, waiting, Option.getD_some, List.filterMap_append, close?_routedCalls, closed]
      exact List.perm_append_comm.trans moved.symm

theorem closesOf_close (server : CenterServer) (conn : ℕ) (fd : Int32) (other : ℕ) :
    (server.close conn fd).closesOf other = server.closesOf other ++
      if conn = other ∨ server.table fd = some other then [⟨conn, server.table fd⟩] else [] := by
  rw [closesOf, close, List.filter_append, closesOf]
  congr 1
  rw [List.filter_singleton, Bool.cond_decide]

/-- A callback closes its connection, which it is made for. -/
theorem orderly_close {server : CenterServer} {conn : ℕ} {fd : Int32} {rest : List ConnectionCall}
    (orderly : server.Orderly) (callback : server.callback = some (.close conn fd :: rest)) :
    ({ server.close conn fd with callback := some rest } : CenterServer).Orderly := by
  have moved : server.waiting.Perm ((conn, fd) :: (server.items.waiting ++
      rest.filterMap ConnectionCall.close?)) := by
    rw [waiting, callback]
    exact List.perm_middle
  have open_ : server.table fd = some conn :=
    (orderly.table conn fd).mpr (moved.mem_iff.mpr List.mem_cons_self)
  have nodup := (moved.map Prod.fst).nodup_iff.mp orderly.nodup
  rw [List.map_cons, List.nodup_cons] at nodup
  obtain ⟨apart, nodup⟩ := nodup
  have callbackSends := orderly.callbackSends
  have items := orderly.items
  rw [callback] at callbackSends
  rw [called, callback] at items
  constructor
  case items => exact items
  case leaderIdle => exact orderly.leaderIdle
  case electionCalls => exact orderly.electionCalls
  case leaderCalls => exact orderly.leaderCalls
  case callbackSends => exact fun call member => callbackSends call (List.mem_cons_of_mem _ member)
  case nodup => exact nodup
  case accepted =>
    exact fun other number member =>
      orderly.accepted other number (moved.mem_iff.mpr (List.mem_cons_of_mem _ member))
  case table =>
    intro other number
    change Function.update server.table fd none number = some other ↔
      (other, number) ∈ server.items.waiting ++ rest.filterMap ConnectionCall.close?
    by_cases same : number = fd
    · subst same
      rw [Function.update_self]
      constructor
      · exact fun contradictory => by contradiction
      · intro member
        have owner := (orderly.table other number).mpr (moved.mem_iff.mpr (List.mem_cons_of_mem _ member))
        rw [open_, Option.some.injEq] at owner
        exact absurd (List.mem_map.mpr ⟨_, member, owner.symm⟩) apart
    · rw [Function.update_of_ne same, orderly.table, moved.mem_iff, List.mem_cons]
      simp [same]
  case sends => exact orderly.sends
  case closes =>
    intro other
    change (server.close conn fd).closesOf other = if other < server.items.accepted ∧
      other ∉ (server.items.waiting ++ rest.filterMap ConnectionCall.close?).map Prod.fst then _ else _
    rw [closesOf_close, orderly.closes, open_]
    by_cases same : other = conn
    · subst same
      have waits : other ∈ server.waiting.map Prod.fst :=
        List.mem_map.mpr ⟨_, moved.mem_iff.mpr List.mem_cons_self, rfl⟩
      have range := orderly.accepted other fd (moved.mem_iff.mpr List.mem_cons_self)
      rw [if_neg fun done => done.2 waits, if_pos (.inl rfl), if_pos ⟨range, apart⟩]
      rfl
    · have moved_iff := (moved.map Prod.fst).mem_iff (a := other)
      rw [List.map_cons, List.mem_cons, or_iff_right same] at moved_iff
      rw [if_neg (not_or.mpr ⟨Ne.symm same, fun reached => same (Option.some.inj reached).symm⟩),
        List.append_nil]
      exact if_congr (by rw [moved_iff]) rfl rfl

theorem orderly_callbackCall {server after : CenterServer} (orderly : server.Orderly)
    (success : server.step .callbackCall = some after) : after.Orderly := by
  rw [step] at success
  cases callback : server.callback with
  | none =>
    rw [callback] at success
    contradiction
  | some calls =>
    have items := orderly.items
    have callbackSends := orderly.callbackSends
    rw [called, callback] at items
    rw [callback] at success callbackSends
    cases calls with
    | nil => contradiction
    | cons call rest =>
      obtain ⟨made, making, rfl⟩ := Option.map_eq_some_iff.mp success
      cases call with
      | rpcSend conn fd => exact absurd rfl (callbackSends _ List.mem_cons_self)
      | pushElectionMessage item | pushFollowerMessage item =>
        obtain ⟨queue, _, rfl⟩ := Option.map_eq_some_iff.mp making
        refine orderly.of_perm rfl orderly.electionCalls orderly.leaderCalls items
          (fun later member => callbackSends later (List.mem_cons_of_mem _ member)) ?_ rfl rfl rfl rfl
        rw [waiting, waiting, callback]
        exact .refl _
      | close conn fd =>
        cases making
        exact orderly_close orderly callback

/-- The end of a callback frees the item of its connection. -/
theorem orderly_callbackEnd {server after : CenterServer} (orderly : server.Orderly)
    (success : server.callbackEnd = some after) : after.Orderly := by
  rw [callbackEnd] at success
  split at success
  case isFalse => contradiction
  case isTrue ending =>
    obtain ⟨items, freeing, rfl⟩ := Option.map_eq_some_iff.mp success
    have ordered := orderly.items
    rw [called, ending] at ordered
    obtain ⟨_, _, _, rfl⟩ := DispatchThread.freeFirst_eq_some_iff.mp freeing
    refine orderly.of_perm rfl orderly.electionCalls orderly.leaderCalls (ordered.freeFirst freeing)
      (fun _ member => absurd member List.not_mem_nil) ?_ rfl rfl rfl rfl
    rw [waiting, waiting, ending]
    exact .refl _

/-- An iteration of the election thread under the condition ends the thread without a call. -/
theorem orderly_electionRun {server after : CenterServer} {outside : Outside}
    (orderly : server.Orderly) (kept : server.ClosesOnce (.electionRun outside))
    (success : server.electionRun outside = some after) : after.Orderly := by
  rw [electionRun] at success
  split at success
  · cases success
    exact orderly
  · next item electionQ enabled popped =>
    obtain ⟨processed, processing, rfl⟩ := Option.map_eq_some_iff.mp success
    obtain ⟨items, queue, same⟩ := Option.map_eq_some_iff.mp popped
    have first : items.head? = some item := congrArg Prod.fst same
    have ends := kept item (by rw [queue]; exact first)
    obtain ⟨continues, calls⟩ := processCenterData_continues_iff processing
    have stopped := continues.mpr ends
    refine Orderly.withCenter ?_ _
    refine orderly.of_perm rfl ?_ orderly.leaderCalls orderly.items orderly.callbackSends (.refl _) rfl
      rfl rfl rfl
    rw [iterationCalls, calls stopped, stopped]
    rfl
  · contradiction

theorem orderly_leaderRun {server after : CenterServer} {outside : Outside}
    (orderly : server.Orderly) (success : server.leaderRun outside = some after) : after.Orderly := by
  rw [leaderRun, orderly.leaderIdle] at success
  split at success
  · cases success
    refine Orderly.withCenter ?_ _
    exact orderly.of_perm orderly.leaderIdle.symm orderly.electionCalls orderly.leaderCalls
      orderly.items orderly.callbackSends (.refl _) rfl rfl rfl rfl
  · contradiction

/-- A step under the condition. -/
theorem orderly_step {server after : CenterServer} {action : Action} (orderly : server.Orderly)
    (kept : server.ClosesOnce action) (success : server.step action = some after) :
    after.Orderly := by
  cases action with
  | accept fd => exact orderly_accept orderly success
  | processor item answering incoming => exact orderly_processor orderly kept success
  | callbackCall => exact orderly_callbackCall orderly success
  | callbackEnd => exact orderly_callbackEnd orderly success
  | electionEnter =>
    rw [step] at success
    split at success
    · cases success
      exact orderly.of_perm rfl rfl orderly.leaderCalls orderly.items orderly.callbackSends (.refl _)
        rfl rfl rfl rfl
    · contradiction
  | electionRun outside => exact orderly_electionRun orderly kept success
  | electionCall sends =>
    rw [step, orderly.electionCalls] at success
    contradiction
  | leaderEnter =>
    rw [step] at success
    split at success
    · cases success
      exact orderly.of_perm rfl orderly.electionCalls rfl orderly.items orderly.callbackSends (.refl _)
        rfl rfl rfl rfl
    · contradiction
  | leaderRun outside => exact orderly_leaderRun orderly success
  | leaderCall sends =>
    rw [step, orderly.leaderCalls] at success
    contradiction

/-- A center of three whose election thread runs. -/
def sampleElecting : BufferedCenter :=
  ⟨{ sampleCenter with electionThread := ⟨true, .running⟩ }, []⟩

/-- An inquiry, and two messages that are not well-formed, on three connections: two wait together, and
the third one gets the descriptor and the item of the first. -/
def inOrderActions : List Action :=
  [.electionEnter, .electionRun sampleOutside, .accept 5, .accept 6,
    .processor 0 ⟨true, true⟩ (.center (some sampleCenter.inquiryProto)), .callbackCall, .callbackCall,
    .callbackEnd, .accept 5, .processor 1 ⟨true, true⟩ (.center none), .callbackCall, .callbackEnd,
    .processor 0 ⟨true, true⟩ (.center none), .callbackCall, .callbackEnd]

/-- A test of the condition, by which no message is processed at all. -/
def closesOnce? (server : CenterServer) : Action → Bool
  | .processor item answering incoming =>
      server.items.waiting.head? = some (server.items.eio item) &&
        !server.buffered.closes answering incoming
  | .electionRun _ => (server.electionQ.items.getD []).isEmpty
  | .accept _ | .callbackCall | .callbackEnd | .electionEnter | .electionCall _ | .leaderEnter
  | .leaderRun _ | .leaderCall _ => true

theorem closesOnce_of_closesOnce? {server : CenterServer} {action : Action}
    (tested : server.closesOnce? action) : server.ClosesOnce action := by
  cases action with
  | processor item answering incoming =>
    obtain ⟨front, closes⟩ := Bool.and_eq_true_iff.mp tested
    have longest : server.items.waiting.head? = some (server.items.eio item) := of_decide_eq_true front
    exact ⟨longest, (Bool.not_eq_true' _).mp closes⟩
  | electionRun outside =>
    intro item front
    rw [List.isEmpty_iff.mp tested] at front
    contradiction
  | accept | callbackCall | callbackEnd | electionEnter | electionCall | leaderEnter | leaderRun
  | leaderCall => trivial

private theorem inOrderActions_done :
    (inOrderActions.foldlM (Run.guarded step fun server action => server.closesOnce? action)
      (init sampleElecting)).isSome := by
  decide +kernel

/-- The connection accepted second is called back first, and the next one gets the item of the first:
it is closed twice, and the first connection never. -/
example :
    ([.accept 5, .accept 6, .processor 1 ⟨true, true⟩ (.center none), .callbackCall, .callbackEnd,
        .accept 7, .processor 0 ⟨true, true⟩ (.center none), .callbackCall, .callbackEnd,
        .processor 0 ⟨true, true⟩ .failed, .callbackCall, .callbackCall, .callbackEnd].foldlM step
      (init sampleElecting)).map closes =
        some [⟨1, some 1⟩, ⟨2, some 2⟩, ⟨2, none⟩, ⟨2, none⟩] := by
  decide +kernel

/-- An inquiry is answered behind the end of its callback, when its descriptor was given to the next
connection. -/
def staleActions : List Action :=
  [.accept 5, .processor 0 ⟨true, true⟩ (.center (some sampleCenter.inquiryProto)), .callbackCall,
    .callbackCall, .callbackEnd, .accept 5, .electionEnter, .electionRun sampleOutside,
    .electionCall true]

end CenterServer

end LibEvRpc
