import LibEvRpc.Util.Communication

/-! # Connecting to a server

`tcpConnect` tries the resolved addresses in order. What the system calls answer for an address is a
parameter; the descriptors of the addresses are told apart by their positions, since the numbers
are used again.
-/

namespace LibEvRpc

/-- What `select` finds when it waits for a connection in progress: `ready` also when the connection
failed in the meantime. -/
inductive Awaited where
  | expired
  | failed
  | ready (established : Bool)
deriving DecidableEq

inductive Connecting where
  | established
  | failed
  | inProgress (awaited : Awaited)
deriving DecidableEq

/-- The answers of the system calls for one address. Those that are not asked for are not read. -/
structure AddrInfo where
  socket : Int32
  noDelaySet : Bool
  connect : Connecting
deriving DecidableEq

/-- The addresses of `getaddrinfo`, which are at least one. -/
structure Resolved where
  first : AddrInfo
  next : List AddrInfo
deriving DecidableEq

abbrev Resolved.addresses (resolved : Resolved) : List AddrInfo := resolved.first :: resolved.next

/-- The answers of `fcntl` and `ioctl` on an open descriptor. -/
structure ModeAnswers where
  getFlags : Bool
  setFlags : Bool
  ioctl : Bool
deriving DecidableEq

/-- `NonBlockMode`. No call succeeds on a negative descriptor. -/
def nonBlockMode (answers : ModeAnswers) (sock : Int32) : Bool :=
  if sock < 0 || !answers.getFlags then false else answers.setFlags || answers.ioctl

/-- What the loop of `TcpConnect` leaves: `sockfd`, the position of `res` unless it is null, and the
positions whose descriptors it opened and closed. -/
structure TcpLoop where
  sockfd : Int32
  res : Option ℕ
  opened : List ℕ
  closed : List ℕ
deriving DecidableEq

namespace TcpLoop

/-- A descriptor opened for the address at a position. -/
def opening (loop : TcpLoop) (sockfd : Int32) (position : ℕ) : TcpLoop :=
  { loop with sockfd, opened := loop.opened ++ [position] }

/-- That descriptor closed, with `sockfd` still holding its number. -/
def closing (loop : TcpLoop) (position : ℕ) : TcpLoop :=
  { loop with closed := loop.closed ++ [position] }

end TcpLoop

/-- `FD_SETSIZE`: the numbers that a set of descriptors has room for. -/
def fdSetSize : Int32 := 1024

/-- The loop of `TcpConnect` from the address at a position on. It has no result when `FD_SET` is called
with a number that the set has no room for. -/
def tcpLoop (connOvertime : Int32) (loop : TcpLoop) (position : ℕ) : List AddrInfo → Option TcpLoop
  | [] => some loop
  | address :: next =>
      if address.socket < 0 then
        tcpLoop connOvertime { loop with sockfd := address.socket } (position + 1) next
      else
        let loop := loop.opening address.socket position
        -- `continue` leaves the descriptor open
        if !address.noDelaySet then tcpLoop connOvertime loop (position + 1) next
        else match address.connect with
          | .established => some { loop with res := some position }
          | .failed => tcpLoop connOvertime (loop.closing position) (position + 1) next
          | .inProgress awaited =>
              if connOvertime ≤ 0 then
                tcpLoop connOvertime (loop.closing position) (position + 1) next
              else if fdSetSize ≤ address.socket then none
              else match awaited with
                | .expired => some { loop with sockfd := tcpConnTimeout, res := some position }
                | .ready _ => some { loop with res := some position }
                | .failed => tcpLoop connOvertime (loop.closing position) (position + 1) next

/-- What one call of `TcpConnect` did: its result, and the positions whose descriptors it opened and
closed. -/
structure TcpConnected where
  ret : Int32
  opened : List ℕ
  closed : List ℕ
deriving DecidableEq

/-- The part of `TcpConnect` after the loop. -/
def TcpLoop.connected (connOvertime : Int32) (mode : ModeAnswers) (loop : TcpLoop) : TcpConnected :=
  if 0 < connOvertime && !nonBlockMode mode loop.sockfd then ⟨-1, loop.opened, loop.closed⟩
  else if loop.res.isNone then ⟨-1, loop.opened, loop.closed⟩
  else ⟨loop.sockfd, loop.opened, loop.closed⟩

/-- `TcpConnect`. The mode answers are those of its last call of `NonBlockMode`. -/
def tcpConnect (connOvertime : Int32) (resolved : Option Resolved) (mode : ModeAnswers) :
    Option TcpConnected :=
  match resolved with
  | none => some ⟨-1, [], []⟩
  | some resolved =>
      (tcpLoop connOvertime ⟨0, none, [], []⟩ 0 resolved.addresses).map
        (TcpLoop.connected connOvertime mode)

/-- The descriptors that are still open. -/
def TcpConnected.leftOpen (connected : TcpConnected) : List ℕ :=
  connected.opened.filter fun position => position ∉ connected.closed

end LibEvRpc
