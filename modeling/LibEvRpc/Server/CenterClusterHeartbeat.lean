import LibEvRpc.Center.Protocol
import LibEvRpc.Config.ConfigParser

/-! # The heartbeat of a server to the centers

The thread reads the file of centers, registers the server with one of them and gets the centers it
shall report to. It then pings one of these in rounds, picks another one when it cannot connect, and
registers again when that has happened too often. What the file, the random numbers and the network
give is a parameter. An index outside a list, a null port and a counter that overflows have no result.
-/

namespace LibEvRpc

/-- `CenterClusterHeartbeat`, with the parser of its configuration file. -/
structure CenterClusterHeartbeat where
  config : ConfigParser
  centerAddrs : List Bytes
  reporterCenterAddrs : List Bytes
  running : Bool
  centerPort : Option Bytes
deriving DecidableEq

namespace CenterClusterHeartbeat

def new (config : ConfigParser) : CenterClusterHeartbeat := ⟨config, [], [], false, none⟩

def centerPortKey : Bytes := [114, 112, 99, 95, 99, 101, 110, 116, 101, 114, 58, 112, 111, 114, 116]

def defaultCenterPort : Bytes := [56, 56, 57, 57]

def shouldReinitKey : Bytes :=
  [114, 112, 99, 95, 99, 101, 110, 116, 101, 114, 58, 115, 104, 111, 117, 108, 100, 95, 114, 101, 105,
    110, 105, 116]

def registerMessage (localAddr : Bytes) : RpcClusterServer :=
  { clusterAction := .register, clusterServerAddr := localAddr }

/-- What the outside gives to `InitCenterClusterHB`: the lines of the file, if it is there, a random
number, the results of the calls, and the string that is received as a message, if it is one. -/
structure InitOutside where
  lines : Option (List Bytes)
  localAddr : Bytes
  rand : ℕ
  tcpConnect : Bytes → Int32
  serializes : Bool
  sendRet : Int32
  recvRet : Int32
  received : Option CenterResponseCluster

/-- The address at a random place of a list. -/
def pick (addrs : List Bytes) (rand : ℕ) : Option Bytes := addrs[rand % addrs.length]?

def initCenterClusterHB (outside : InitOutside) (heartbeat : CenterClusterHeartbeat) :
    Option (Bool × CenterClusterHeartbeat) :=
  match outside.lines with
  | none => some (false, heartbeat)
  | some lines =>
      (heartbeat.config.iniGetString centerPortKey (some defaultCenterPort)).bind fun centerPort =>
        let heartbeat := { heartbeat with
          centerPort := some centerPort
          centerAddrs := heartbeat.centerAddrs ++
            lines.filter fun line => CString.ofBuffer line ≠ CString.ofBuffer outside.localAddr }
        if heartbeat.centerAddrs = [] then some (false, heartbeat)
        else
          (pick heartbeat.centerAddrs outside.rand).map fun addr =>
            if outside.tcpConnect addr ≤ 0 then (false, heartbeat)
            else if !outside.serializes then (false, heartbeat)
            else if outside.sendRet ≠ 0 then (false, heartbeat)
            else if outside.recvRet < 0 then (false, heartbeat)
            else
              match outside.received with
              | none => (false, heartbeat)
              | some crcProto =>
                  (true, { heartbeat with
                    reporterCenterAddrs := heartbeat.reporterCenterAddrs ++ crcProto.shouldReporterCenter
                    running := true })

end CenterClusterHeartbeat

inductive ClusterThread.Phase where
  | unstarted
  | looping
  | ended
deriving DecidableEq

/-- The thread with the variables of `Run`. The centers that it tried to ping, how often it failed to
connect, and how often it registered again are kept for the record. -/
structure ClusterThread where
  heartbeat : CenterClusterHeartbeat
  phase : ClusterThread.Phase
  rcaSize : ℕ
  randomIndex : ℕ
  shouldReinit : Int32
  reinitCnt : Int32
  pinged : List Bytes
  failures : ℕ
  reinits : ℕ
deriving DecidableEq

namespace ClusterThread

open CenterClusterHeartbeat

def init (config : ConfigParser) : ClusterThread :=
  ⟨.new config, .unstarted, 0, 0, 0, 0, [], 0, 0⟩

structure Round where
  sysinfo : Int32
  serializes : Bool
  tcpConnect : Bytes → Int32

/-- A step of the thread: `Run` up to its loop, or a round of the loop. A round comes with what the
outside gives if it registers again, and with a random number. -/
inductive Action where
  | start (outside : InitOutside) (rand : ℕ)
  | round (round : Round) (reinit : InitOutside) (rand : ℕ)

/-- `Run` up to its loop. -/
def start (thread : ClusterThread) (outside : InitOutside) (rand : ℕ) : Option ClusterThread :=
  (initCenterClusterHB outside thread.heartbeat).bind fun (ret, heartbeat) =>
    let thread := { thread with heartbeat }
    if !ret then some { thread with phase := .ended }
    else if heartbeat.reporterCenterAddrs = [] then some { thread with phase := .ended }
    else
      (heartbeat.config.iniGetInt shouldReinitKey 10).map fun shouldReinit =>
        { thread with
          phase := .looping
          rcaSize := heartbeat.reporterCenterAddrs.length
          randomIndex := rand % heartbeat.reporterCenterAddrs.length
          shouldReinit
          reinitCnt := 0 }

/-- The part of a round behind a connection that failed. -/
def reconnect (thread : ClusterThread) (reinit : InitOutside) (rand : ℕ) : Option ClusterThread :=
  if thread.reinitCnt = Int32.maxValue then none
  else
    let thread := { thread with
      reinitCnt := thread.reinitCnt + 1
      randomIndex := rand % thread.rcaSize
      failures := thread.failures + 1 }
    if thread.reinitCnt > thread.shouldReinit then
      (initCenterClusterHB reinit thread.heartbeat).map fun (_, heartbeat) =>
        { thread with heartbeat, reinitCnt := 0, reinits := thread.reinits + 1 }
    else some thread

def runRound (thread : ClusterThread) (round : Round) (reinit : InitOutside) (rand : ℕ) :
    Option ClusterThread :=
  if round.sysinfo < 0 then some thread
  else if !round.serializes then some thread
  else
    thread.heartbeat.reporterCenterAddrs[thread.randomIndex]?.bind fun addr =>
      let thread := { thread with pinged := thread.pinged ++ [addr] }
      if round.tcpConnect addr < 0 then thread.reconnect reinit rand else some thread

def step (thread : ClusterThread) : Action → Option ClusterThread
  | .start outside rand => if thread.phase = .unstarted then thread.start outside rand else none
  | .round round reinit rand =>
      if thread.phase = .looping ∧ thread.heartbeat.running then thread.runRound round reinit rand
      else none

end ClusterThread

end LibEvRpc
