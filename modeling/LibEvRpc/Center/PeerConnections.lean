import LibEvRpc.Center.Inquiry
import LibEvRpc.Client.CenterClientHeartbeat

/-! # The descriptors of outgoing connections

`InquiryCenters` and `BroadcastInfo` connect to one peer after the other, and `CenterClientHeartbeat`
to one center in each round. `RpcSend` closes the descriptor when it fails and `RpcRecv` when it is
asked to; the callers close it as well or go on without. Every visit to a peer has the result of
`TcpConnect` and the descriptors closed before the next one. A visit has no result while `RpcRecv`
waits, nor when a copy or a scan leaves its buffer.
-/

namespace LibEvRpc

def center2Client : Int32 := 101

/-- What one connection meets: the result of `TcpConnect`, the outcomes of the calls of `send` and of
`recv`, and what the received string parses to. -/
structure Connection (α : Type) where
  connFd : Int32
  send : ℕ → Bool
  events : List RecvEvent
  parse : Bytes → Option α

/-- A result of `TcpConnect` and what was closed before the next one. -/
structure Visit where
  connFd : Int32
  closed : List Int32
deriving DecidableEq

/-- A descriptor that was obtained is closed once. -/
def Visit.ClosedOnce (visit : Visit) : Prop :=
  0 ≤ visit.connFd → visit.closed.count visit.connFd = 1

instance : DecidablePred Visit.ClosedOnce := fun _ => inferInstanceAs (Decidable (_ → _))

/-- Closes a descriptor some number of times. -/
def Visit.close (visit : Visit) (times : ℕ) : Visit :=
  { visit with closed := visit.closed ++ List.replicate times visit.connFd }

namespace RpcCenter

/-- One iteration of the loop of `InquiryCenters`. -/
def inquireVisit (inquiryStr : Bytes) (connections : Bytes → Connection CentersProto)
    (state : RpcCenter × List Visit) (addr : Bytes) : Option (RpcCenter × List Visit) :=
  let (center, visits) := state
  if !center.inquired addr then some (center, visits)
  else
    let connection := connections addr
    let visit : Visit := ⟨connection.connFd, []⟩
    if connection.connFd ≤ 0 then some (center, visits ++ [visit])
    else
      (rpcSend connection.send center2Center inquiryStr false).bind fun sent =>
        let visit := visit.close sent.closes
        if sent.ret < 0 then some (center, visits ++ [visit])
        else
          (rpcRecv false connection.events []).bind fun received =>
            let visit := visit.close received.closes
            if received.transferId < 0 then some (center, visits ++ [visit])
            else
              match connection.parse received.info with
              | none => some (center, visits ++ [visit.close 1])
              | some responseProto =>
                  some (center.inquiryResponse addr responseProto, visits ++ [visit.close 1])

/-- `InquiryCenters` in an order of the table, with what the message is serialized to. -/
def inquireVisits (center : RpcCenter) (serialize : CentersProto → Option Bytes)
    (connections : Bytes → Connection CentersProto) (order : List Bytes) :
    Option (Bool × RpcCenter × List Visit) :=
  match serialize center.inquiryProto with
  | none => some (false, center, [])
  | some inquiryStr =>
      (order.foldlM (inquireVisit inquiryStr connections) (center, [])).map fun state => (true, state)

/-- One iteration of the loop of `BroadcastInfo`. -/
def broadcastVisit (bcInfo : Bytes) (connections : Bytes → Connection CentersProto)
    (visits : List Visit) (addr : Bytes) : Option (List Visit) :=
  let connection := connections addr
  let visit : Visit := ⟨connection.connFd, []⟩
  if connection.connFd ≤ 0 then some (visits ++ [visit])
  else
    (rpcSend connection.send center2Center bcInfo false).map fun sent =>
      visits ++ [(visit.close sent.closes).close 1]

/-- `BroadcastInfo` in an order of the table. -/
def broadcastVisits (bcInfo : Bytes) (connections : Bytes → Connection CentersProto)
    (order : List Bytes) : Option (Bool × List Visit) :=
  (order.foldlM (broadcastVisit bcInfo connections) []).map fun visits => (true, visits)

end RpcCenter

namespace CenterClientHeartbeat

/-- What one round of `Run` meets: what its request is serialized to, and the connection. -/
structure VisitingRound where
  cwcStr : Option Bytes
  connection : Connection ClientWithCenter

/-- One round of `Run`. A result of `RpcRecv` that is not negative keeps the string from being parsed. -/
def visitRound (state : CenterClientHeartbeat × List Visit) (round : VisitingRound) :
    Option (CenterClientHeartbeat × List Visit) :=
  let (client, visits) := state
  match round.cwcStr with
  | none => some (client, visits)
  | some cwcStr =>
      let connection := round.connection
      let visit : Visit := ⟨connection.connFd, []⟩
      if connection.connFd ≤ 0 then some (client, visits ++ [visit.close 1])
      else
        (rpcSend connection.send center2Client cwcStr false).bind fun sent =>
          let visit := visit.close sent.closes
          if sent.ret < 0 then some (client, visits ++ [visit.close 1])
          else
            (rpcRecv true connection.events []).bind fun received =>
              let visit := visit.close received.closes
              if (0 : Int32) ≤ received.transferId then
                some (client.updateAddrs {}, visits ++ [visit.close 1])
              else
                match connection.parse received.info with
                | none => some (client, visits ++ [visit.close 1])
                | some cwcResponseProto =>
                    some (client.updateAddrs cwcResponseProto, visits ++ [visit.close 1])

/-- The loop of `Run` over some rounds. -/
def visitRounds (client : CenterClientHeartbeat) (rounds : List VisitingRound) :
    Option (CenterClientHeartbeat × List Visit) :=
  rounds.foldlM visitRound (client, [])

end CenterClientHeartbeat

/-- A loop over connections with all it meets. -/
inductive PeerLoop where
  | inquiryCenters (center : RpcCenter) (serialize : CentersProto → Option Bytes)
      (connections : Bytes → Connection CentersProto) (order : List Bytes)
  | broadcastInfo (bcInfo : Bytes) (connections : Bytes → Connection CentersProto)
      (order : List Bytes)
  | heartbeat (client : CenterClientHeartbeat) (rounds : List CenterClientHeartbeat.VisitingRound)

/-- The visits of a loop that comes to its end. -/
def PeerLoop.visits : PeerLoop → Option (List Visit)
  | .inquiryCenters center serialize connections order =>
      (center.inquireVisits serialize connections order).map fun result => result.2.2
  | .broadcastInfo bcInfo connections order =>
      (RpcCenter.broadcastVisits bcInfo connections order).map fun result => result.2
  | .heartbeat client rounds => (client.visitRounds rounds).map fun result => result.2

end LibEvRpc
