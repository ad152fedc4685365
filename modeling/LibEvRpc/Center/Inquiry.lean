import LibEvRpc.Center.RpcCenter

/-! # The inquiry phase, with its connections

`InquiryCenters` in the order in which the table is iterated, which the hash of the table decides.
What a peer does with the connection is a parameter; the calls that are made on connections are
returned. A send that fails closes its descriptor itself.
-/

namespace LibEvRpc

/-- What becomes of an inquiry on a connection. -/
inductive Exchange where
  | sendFails
  | recvFails
  | malformed
  | response (responseProto : CentersProto)
deriving DecidableEq

/-- A peer as `TcpConnect` finds it: the descriptor, or an error up to zero, and the exchange. -/
structure Peer where
  connFd : Int32
  exchange : Exchange
deriving DecidableEq

def Peer.accepts (peer : Peer) : Prop := ¬ peer.connFd ≤ 0

instance (peer : Peer) : Decidable peer.accepts := inferInstanceAs (Decidable (¬ _))

/-- The response of a peer, if a well-formed one is received. -/
def Peer.responseProto (peer : Peer) : Option CentersProto :=
  if peer.connFd ≤ 0 then none
  else match peer.exchange with
    | .response responseProto => some responseProto
    | .sendFails | .recvFails | .malformed => none

/-- A call of `InquiryCenters` on the connection to a center. -/
inductive InquiryCall where
  | tcpConnect (addr : Bytes)
  | rpcSend (addr : Bytes) (fd : Int32) (info : CentersProto)
  | close (addr : Bytes) (fd : Int32)
deriving DecidableEq

namespace RpcCenter

/-- What the loop of `InquiryCenters` has come to. -/
structure Inquiring where
  center : RpcCenter
  calls : List InquiryCall

/-- One iteration of the loop of `InquiryCenters`. -/
def inquireCenter (inquiry : CentersProto) (peers : Bytes → Peer) (state : Inquiring)
    (addr : Bytes) : Inquiring :=
  if !state.center.inquired addr then state
  else
    let peer := peers addr
    let calls := state.calls ++ [.tcpConnect addr]
    if peer.connFd ≤ 0 then { state with calls }
    else
      let calls := calls ++ [.rpcSend addr peer.connFd inquiry]
      match peer.exchange with
      | .sendFails => { state with calls := calls ++ [.close addr peer.connFd] }
      | .recvFails => { state with calls }
      | .malformed => { state with calls := calls ++ [.close addr peer.connFd] }
      | .response responseProto =>
          { center := state.center.inquiryResponse addr responseProto
            calls := calls ++ [.close addr peer.connFd] }

/-- `InquiryCenters` in an order of the table. -/
def inquireInOrder (outside : Outside) (center : RpcCenter) (peers : Bytes → Peer)
    (order : List Bytes) : Bool × Inquiring :=
  if outside.serializes center.inquiryProto then
    (true, order.foldl (inquireCenter center.inquiryProto peers) ⟨center, []⟩)
  else (false, ⟨center, []⟩)

/-- Without its calls, an iteration is one on the response. -/
theorem inquireCenter_center (inquiry : CentersProto) (peers : Bytes → Peer) (state : Inquiring)
    (addr : Bytes) :
    (inquireCenter inquiry peers state addr).center =
      if state.center.inquired addr then
        match (peers addr).responseProto with
        | none => state.center
        | some responseProto => state.center.inquiryResponse addr responseProto
      else state.center := by
  rw [inquireCenter, Peer.responseProto]
  cases state.center.inquired addr with
  | false => rfl
  | true =>
    by_cases failed : (peers addr).connFd ≤ 0
    · simp only [failed, Bool.not_true, Bool.false_eq_true, ↓reduceIte]
    · cases exchange : (peers addr).exchange with
      | sendFails | recvFails | malformed | response =>
        simp only [failed, exchange, Bool.not_true, Bool.false_eq_true, ↓reduceIte]

/-- In the order of the keys, an inquiry is one on the responses. -/
theorem inquireInOrder_keys (outside : Outside) (center : RpcCenter) (peers : Bytes → Peer) :
    (center.inquireInOrder outside peers center.otherCenters.keys).2.center =
      center.inquiryCenters outside fun addr => (peers addr).responseProto := by
  rw [inquireInOrder, inquiryCenters]
  split
  · exact (@List.foldl_hom _ _ Bytes Inquiring.center (inquireCenter center.inquiryProto peers) _ _
      ⟨center, []⟩ fun state addr => (inquireCenter_center _ peers state addr).symm).symm
  · rfl

end RpcCenter

end LibEvRpc
