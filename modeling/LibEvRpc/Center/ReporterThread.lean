import LibEvRpc.Util.RpcUtil

/-! # The reporter of a follower

`ReporterThread::Run` connects to the leader and reports to it, once per turn. When ten reports have
failed it only tries to connect again, and after three failures in a row it starts an election and
ends. What the network answers in a turn is a parameter, as is the flag the loop tests.
-/

namespace LibEvRpc

/-- What the outside gives to a turn: the flag, the results of the two calls of `TcpConnect`, and that
of `ReporterProcessor`. Results of calls that are not made are not read. -/
structure ReporterOutside where
  reporterRunning : Bool
  connFd : Int32
  reported : Bool
  reconnFd : Int32
deriving DecidableEq

/-- What a turn did: the result of its report and of its new connection, if it made them, whether it
called `StartFastLeaderElection`, and the descriptor it closed. -/
structure ReporterTurn where
  report : Option Bool
  reconnect : Option Int32
  startsElection : Bool
  closed : Int32
deriving DecidableEq

/-- The loop of `Run`, with its two counters. -/
def reporterLoop (failedCnt retryTime : Int) : List ReporterOutside → List ReporterTurn
  | [] => []
  | outside :: rest =>
      if !outside.reporterRunning then []
      else
        let report := if failedCnt > 0 then some outside.reported else none
        let failedCnt := if report = some false then failedCnt - 1 else failedCnt
        if failedCnt ≤ 0 then
          let (failedCnt, retryTime) :=
            if outside.reconnFd < 0 then (failedCnt, retryTime - 1) else (10, 3)
          if retryTime ≤ 0 then [⟨report, some outside.reconnFd, true, outside.reconnFd⟩]
          else ⟨report, some outside.reconnFd, false, outside.reconnFd⟩ ::
            reporterLoop failedCnt retryTime rest
        else ⟨report, none, false, outside.connFd⟩ :: reporterLoop failedCnt retryTime rest

/-- `Run`, which does nothing before `StartReporter`. -/
def reporterRun (reporterRunning : Bool) (outsides : List ReporterOutside) : List ReporterTurn :=
  if !reporterRunning then [] else reporterLoop 10 3 outsides

end LibEvRpc
