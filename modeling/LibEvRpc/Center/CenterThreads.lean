import LibEvRpc.Center.Descriptors

/-! # The threads of a center

The functions that start and stop the election thread of a center, and the leader thread with the
calls that other threads make to its queue.
-/

namespace LibEvRpc

namespace RpcCenter

/-! ## The election thread -/

/-- `FastLeaderElection`, with the response of every center to the inquiry. -/
def fastLeaderElection (outside : Outside) (center : RpcCenter)
    (response : Bytes → Option CentersProto) : RpcCenter × List Effect :=
  (center.inquiryCenters outside response).proposalLeaderElection outside

def startFastLeaderElection (outside : Outside) (center : RpcCenter)
    (response : Bytes → Option CentersProto) : Bool × RpcCenter × List Effect :=
  let (started, center) := center.startElectionThread outside.toPlatform
  if started then (true, center.fastLeaderElection outside response) else (false, center, [])

def stopCenter (platform : Platform) (center : RpcCenter) : RpcCenter :=
  { center with
    electionThread := (center.electionThread.stop platform).2
    reporterThread := (center.reporterThread.stop platform).2
    centerServerThread := (center.centerServerThread.stop platform).2 }

/-- The end of `ElectionThread::Run`. -/
def electionRunEnds (center : RpcCenter) : RpcCenter :=
  { center with
    fastleaderElectionRunning := false
    electionThread := { center.electionThread with life := .ended } }

/-- An operation on the election thread and on the flag that an election is running. -/
inductive Operation where
  | startFastLeaderElection (outside : Outside) (response : Bytes → Option CentersProto)
  | updateOCStatus (outside : Outside) (centersProto : CentersProto)
  | stopCenter (platform : Platform)
  | electionRunEnds

/-- What an operation returns, and the center behind it. Votes are counted by the election thread,
so `UpdateOCStatus` runs only while that thread does. -/
def operate (center : RpcCenter) : Operation → Option (Bool × RpcCenter)
  | .startFastLeaderElection outside response =>
      let (ret, center, _) := center.startFastLeaderElection outside response
      some (ret, center)
  | .updateOCStatus outside centersProto =>
      if center.electionThread.life = .running then
        (center.updateOCStatus outside centersProto).map fun updated => (updated.ret, updated.center)
      else none
  | .stopCenter platform => some (true, center.stopCenter platform)
  | .electionRunEnds =>
      if center.electionThread.life = .running then some (true, center.electionRunEnds) else none

def operated (center : RpcCenter) (operation : Operation) : Option RpcCenter :=
  (center.operate operation).map Prod.snd

end RpcCenter

/-! ## The leader thread -/

/-- Where `LeaderThread::Run` is. -/
inductive LeaderPhase where
  | outside
  | testing
  | popping
  | processing (item : QueuedMessage)
deriving DecidableEq

/-- A center and its leader thread with the queue, the messages that were pushed and those that were
popped. A read or write through a null queue is remembered. -/
structure LeaderQueue where
  center : RpcCenter
  followerQ : MessageQueue QueuedMessage
  running : Bool
  phase : LeaderPhase
  pushed : List QueuedMessage
  popped : List QueuedMessage
  nullAccess : Bool

namespace LeaderQueue

/-- The constructor of `LeaderThread`, in a center whose leader thread was never started. -/
def init (center : RpcCenter) : LeaderQueue where
  center := { center with leaderThread := Thread.new }
  followerQ := MessageQueue.new
  running := false
  phase := .outside
  pushed := []
  popped := []
  nullAccess := false

/-- What can happen next while the center stays the leader. -/
inductive Action where
  | updateOCStatus (outside : Outside) (centersProto : CentersProto)
  | pushFollowerMessage (item : QueuedMessage)
  | enter
  | test
  | pop
  | process (outside : Outside)

def pushFollowerMessage (state : LeaderQueue) (item : QueuedMessage) : LeaderQueue :=
  let state := { state with pushed := state.pushed ++ [item] }
  match state.followerQ.push item with
  | none => { state with nullAccess := true }
  | some followerQ => { state with followerQ }

/-- `PopFollowerMessage` in `Run`: without a message the thread sleeps and tests `running_` again. -/
def popFollowerMessage (state : LeaderQueue) : LeaderQueue :=
  match state.followerQ.pop with
  | none => { state with nullAccess := true }
  | some (none, _) => { state with phase := .testing }
  | some (some item, followerQ) =>
      { state with followerQ, phase := .processing item, popped := state.popped ++ [item] }

/-- The test of `running_` in `Run`, and its end. -/
def test (state : LeaderQueue) : LeaderQueue :=
  if state.running then { state with phase := .popping }
  else { state with
    center := { state.center with leaderThread := { state.center.leaderThread with life := .ended } }
    followerQ := MessageQueue.destory
    phase := .outside }

def step (state : LeaderQueue) : Action → Option LeaderQueue
  | .updateOCStatus outside centersProto =>
      (state.center.updateOCStatus outside centersProto).bind fun updated =>
        if updated.center.centerStatus = .leading then some { state with center := updated.center }
        else none
  | .pushFollowerMessage item =>
      if state.center.centerStatus = .leading then some (state.pushFollowerMessage item) else none
  | .enter =>
      if state.center.leaderThread.life = .running ∧ state.phase = .outside then
        some { state with followerQ := state.followerQ.enter, phase := .testing }
      else none
  | .test => if state.phase = .testing then some state.test else none
  | .pop => if state.phase = .popping then some state.popFollowerMessage else none
  | .process outside =>
      match state.phase with
      | .processing item =>
          (state.center.processCenterData outside item.connFd item.centersProto).bind fun processed =>
            if processed.center.centerStatus = .leading then
              some { state with center := processed.center, phase := .testing }
            else none
      | .outside | .testing | .popping => none

end LeaderQueue

end LibEvRpc
