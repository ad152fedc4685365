import LibEvRpc.Center.CenterProcessor
import LibEvRpc.Server.DispatchThread

/-! # The connections of a center

The server thread keeps an item for every connection it accepted, and in the callback of its watcher
calls `CenterProcessor`, closes the connection and frees an item; what `CenterProcessor` queues is
processed by the election thread and by the leader thread. A connection is known by its place in the
order of acceptance, and a table says which one a descriptor stands for: a number that was closed may
be given to a later connection. The calls a thread makes in one callback or iteration are made one at
a time, so those of the other threads can come between. Every call is recorded with the connection it
was made for and the one it reached.
-/

namespace LibEvRpc

/-- The queue of `ElectionThread` or of `LeaderThread`, if it is not null. -/
structure MessageQueue (α : Type) where
  items : Option (List α)

namespace MessageQueue

variable {α : Type}

def new : MessageQueue α := ⟨some []⟩

/-- The first lines of `Run`. -/
def enter (queue : MessageQueue α) : MessageQueue α := ⟨some (queue.items.getD [])⟩

/-- `PushElectionMessage` and `PushFollowerMessage` -/
def push (queue : MessageQueue α) (item : α) : Option (MessageQueue α) :=
  queue.items.map fun items => ⟨some (items ++ [item])⟩

theorem push_eq_some_iff {queue pushed : MessageQueue α} {item : α} :
    queue.push item = some pushed ↔
      ∃ items, queue.items = some items ∧ pushed = ⟨some (items ++ [item])⟩ := by
  rw [push, Option.map_eq_some_iff]
  simp only [eq_comm]

/-- `PopElectionMessage` and `PopFollowerMessage` -/
def pop (queue : MessageQueue α) : Option (Option α × MessageQueue α) :=
  queue.items.map fun items => (items.head?, ⟨some items.tail⟩)

def destory : MessageQueue α := ⟨none⟩

end MessageQueue

/-- A message with the connection it arrived on. -/
structure QueuedMessage where
  conn : ℕ
  connFd : Int32
  centersProto : CentersProto
deriving DecidableEq

/-- A call that a thread has still to make for a connection. -/
inductive ConnectionCall where
  | rpcSend (conn : ℕ) (fd : Int32)
  | close (conn : ℕ) (fd : Int32)
  | pushElectionMessage (item : QueuedMessage)
  | pushFollowerMessage (item : QueuedMessage)
deriving DecidableEq

/-- A call that was made, with the connection its descriptor stood for. -/
structure MadeCall where
  conn : ℕ
  reached : Option ℕ
deriving DecidableEq

/-- The server thread, the election thread and the leader thread of a center. The server thread is in
a callback, and another one in the loop of its `Run`, if it has a list of calls. The answers of
`CenterProcessor` are not recorded. -/
structure CenterServer where
  buffered : BufferedCenter
  table : Int32 → Option ℕ
  items : DispatchThread
  callback : Option (List ConnectionCall)
  electionQ : MessageQueue QueuedMessage
  election : Option (List ConnectionCall)
  followerQ : MessageQueue QueuedMessage
  leader : Option (List ConnectionCall)
  leaderRunning : Bool
  sends : List MadeCall
  closes : List MadeCall

namespace CenterServer

/-- The constructors: `running_` of `LeaderThread` is cleared. -/
def init (buffered : BufferedCenter) : CenterServer where
  buffered
  table _ := none
  items := .init
  callback := none
  electionQ := MessageQueue.new
  election := none
  followerQ := MessageQueue.new
  leader := none
  leaderRunning := false
  sends := []
  closes := []

/-- What can happen next. A call that sends may succeed or fail. -/
inductive Action where
  | accept (fd : Int32)
  | processor (item : ℕ) (answering : Answering) (incoming : Incoming)
  | callbackCall
  | callbackEnd
  | electionEnter
  | electionRun (outside : Outside)
  | electionCall (sends : Bool)
  | leaderEnter
  | leaderRun (outside : Outside)
  | leaderCall (sends : Bool)

/-- The call behind an effect of `CenterProcessor`. -/
def routedCall? (conn : ℕ) : RouteEffect → Option ConnectionCall
  | .sent _ _ => none
  | .close fd => some (.close conn fd)
  | .pushElectionMessage connFd centersProto => some (.pushElectionMessage ⟨conn, connFd, centersProto⟩)
  | .pushFollowerMessage connFd centersProto => some (.pushFollowerMessage ⟨conn, connFd, centersProto⟩)

/-- The call behind an effect of `ProcessCenterData`. A broadcast uses connections of its own. -/
def processedCall? (conn : ℕ) : Effect → Option ConnectionCall
  | .rpcSend fd _ _ => some (.rpcSend conn fd)
  | .broadcast _ _ => none
  | .close fd => some (.close conn fd)

/-- The center behind a step. A thread that was cancelled is not in its loop. -/
def withCenter (server : CenterServer) (center : RpcCenter) : CenterServer :=
  { server with
    buffered := { server.buffered with center }
    election := if center.electionThread.life = .running then server.election else none
    leader := if center.leaderThread.life = .running then server.leader else none }

def close (server : CenterServer) (conn : ℕ) (fd : Int32) : CenterServer :=
  { server with
    table := Function.update server.table fd none
    closes := server.closes ++ [⟨conn, server.table fd⟩] }

/-- A call is made. A send that fails closes the descriptor, and one on a closed descriptor fails. -/
def makeCall (server : CenterServer) (sends : Bool) : ConnectionCall → Option CenterServer
  | .rpcSend conn fd =>
      let sent := { server with sends := server.sends ++ [⟨conn, server.table fd⟩] }
      if !sends then some (sent.close conn fd)
      else if (server.table fd).isSome then some sent else none
  | .close conn fd => some (server.close conn fd)
  | .pushElectionMessage item =>
      (server.electionQ.push item).map fun electionQ => { server with electionQ }
  | .pushFollowerMessage item =>
      (server.followerQ.push item).map fun followerQ => { server with followerQ }

/-- `AcceptCb` with the descriptor that the system gives to the connection. -/
def accept (server : CenterServer) (fd : Int32) : Option CenterServer :=
  if server.callback = none ∧ 0 ≤ fd ∧ server.table fd = none then
    (server.items.watch fd).map fun items =>
      { server with
        items
        table := Function.update server.table fd (some server.items.accepted) }
  else none

/-- `Processor` of the watcher of an item, up to its calls. The watcher is stopped behind them, which
the event loop does not see before the end. -/
def processor (server : CenterServer) (item : ℕ) (answering : Answering) (incoming : Incoming) :
    Option CenterServer :=
  if server.callback = none ∧ server.items.Started item then
    let watcher := server.items.eio item
    (server.buffered.centerProcessor answering watcher.2 incoming).map fun routed =>
      { server with
        buffered := routed.state
        items := server.items.evIoStop item
        callback := some (routed.effects.filterMap (routedCall? watcher.1) ++
          [.close watcher.1 watcher.2]) }
  else none

/-- The end of `Processor`. -/
def callbackEnd (server : CenterServer) : Option CenterServer :=
  if server.callback = some [] then
    server.items.freeFirst.map fun items => { server with items, callback := none }
  else none

/-- The calls of an iteration: those of `ProcessCenterData`, and the `close` of `Run` if the thread
gets there. -/
def iterationCalls (item : QueuedMessage) (processed : RpcCenter.Processed) : List ConnectionCall :=
  processed.effects.filterMap (processedCall? item.conn) ++
    if processed.continues then [.close item.conn item.connFd] else []

/-- One iteration of `ElectionThread::Run`, up to its calls. -/
def electionRun (server : CenterServer) (outside : Outside) : Option CenterServer :=
  match server.election, server.electionQ.pop with
  | some [], some (none, _) => some server
  | some [], some (some item, electionQ) =>
      (server.buffered.center.processCenterData outside item.connFd item.centersProto).map
        fun processed =>
          { server with electionQ, election := some (iterationCalls item processed) }.withCenter
            processed.center
  | _, _ => none

/-- One iteration of `LeaderThread::Run`, up to its calls, or its end. -/
def leaderRun (server : CenterServer) (outside : Outside) : Option CenterServer :=
  match server.leader, server.followerQ.pop with
  | some [], some (popped, followerQ) =>
      if !server.leaderRunning then
        let center := server.buffered.center
        some ({ server with followerQ := MessageQueue.destory }.withCenter
          { center with leaderThread := { center.leaderThread with life := .ended } })
      else
        match popped with
        | none => some server
        | some item =>
            (server.buffered.center.processCenterData outside item.connFd item.centersProto).map
              fun processed =>
                { server with followerQ, leader := some (iterationCalls item processed) }.withCenter
                  processed.center
  | _, _ => none

/-- The next call of a callback or iteration is made. -/
def callNext (server : CenterServer) (sends : Bool) (calls : List ConnectionCall)
    (put : CenterServer → List ConnectionCall → CenterServer) : Option CenterServer :=
  match calls with
  | [] => none
  | call :: rest => (server.makeCall sends call).map fun server => put server rest

def step (server : CenterServer) : Action → Option CenterServer
  | .accept fd => server.accept fd
  | .processor item answering incoming => server.processor item answering incoming
  | .callbackCall =>
      server.callNext true (server.callback.getD []) fun server calls =>
        { server with callback := some calls }
  | .callbackEnd => server.callbackEnd
  | .electionEnter =>
      if server.buffered.center.electionThread.life = .running ∧ server.election = none then
        some { server with electionQ := server.electionQ.enter, election := some [] }
      else none
  | .electionRun outside => server.electionRun outside
  | .electionCall sends =>
      server.callNext sends (server.election.getD []) fun server calls =>
        { server with election := some calls }
  | .leaderEnter =>
      if server.buffered.center.leaderThread.life = .running ∧ server.leader = none then
        some { server with followerQ := server.followerQ.enter, leader := some [] }
      else none
  | .leaderRun outside => server.leaderRun outside
  | .leaderCall sends =>
      server.callNext sends (server.leader.getD []) fun server calls =>
        { server with leader := some calls }

end CenterServer

end LibEvRpc
