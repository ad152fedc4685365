import LibEvRpc.ToMathlib.CString
import LibEvRpc.ToMathlib.LittleEndian

/-! # Framed messages on a connection

`rpcSend` cuts a string into `MetaData` blocks of at most 511 bytes and marks the last one by a
negative code; `rpcRecv` takes one `recv` result after the other as a block and stops at the
first negative code. All counters and codes are the 32-bit integers of the source, and a copy
or scan that would leave its buffer has no result. A call of `send` transmits a whole block or
fails; the outcome of the k-th call is a parameter.
-/

namespace LibEvRpc

/-- A byte string, with any content. -/
abbrev Bytes := List UInt8

-- A constant, so that no definition carries a proof of its own of it.
instance : LawfulBEq Bytes := inferInstance

abbrev bodySize : ℕ := 512

/-- `MetaSize`, the size of a block in memory. -/
abbrev metaSize : ℕ := 516

def errorRecv : Int32 := -200

def tcpConnTimeout : Int32 := -999

/-- A cleared buffer after some bytes were copied to its start. -/
def zeroFill (size : ℕ) (content : Bytes) : Bytes :=
  content.take size ++ List.replicate (size - content.length) 0

@[simp] theorem zeroFill_length (size : ℕ) (content : Bytes) :
    (zeroFill size content).length = size := by
  simp only [zeroFill, List.length_append, List.length_take, List.length_replicate]
  omega

theorem zeroFill_of_length_eq {size : ℕ} {content : Bytes} (full : content.length = size) :
    zeroFill size content = content := by
  rw [zeroFill, List.take_of_length_le full.le, full, Nat.sub_self, List.replicate_zero,
    List.append_nil]

/-- Content shorter than the buffer is followed by a NUL inside the buffer. -/
theorem zeroFill_of_length_lt {size : ℕ} {content : Bytes} (short : content.length < size) :
    zeroFill size content = content ++ 0 :: List.replicate (size - content.length - 1) 0 := by
  rw [zeroFill, List.take_of_length_le short.le,
    show size - content.length = size - content.length - 1 + 1 by omega, List.replicate_succ]
  rfl

theorem zeroFill_getElem (size : ℕ) (content : Bytes) (index : ℕ)
    (bound : index < (zeroFill size content).length) :
    (zeroFill size content)[index] = content[index]?.getD 0 := by
  rw [zeroFill_length] at bound
  simp only [zeroFill, List.getElem_append, List.length_take, List.getElem_take,
    List.getElem_replicate]
  split
  · next inside => rw [List.getElem?_eq_getElem (by omega), Option.getD_some]
  · next outside => rw [List.getElem?_eq_none (by omega), Option.getD_none]

/-- Cutting a cleared buffer cuts its content. -/
theorem zeroFill_take_zeroFill (size count : ℕ) (content : Bytes) :
    zeroFill size ((zeroFill size content).take count) = zeroFill size (content.take count) := by
  apply List.ext_getElem
  · simp
  · intro index _ bound
    rw [zeroFill_length] at bound
    simp only [zeroFill_getElem, List.getElem?_take]
    split
    · rw [List.getElem?_eq_getElem (by simpa using bound), Option.getD_some, zeroFill_getElem]
    · rfl

theorem zeroFill_append (front : Bytes) (size : ℕ) (content : Bytes) :
    zeroFill (front.length + size) (front ++ content) = front ++ zeroFill size content := by
  simp only [zeroFill, List.length_append, List.take_length_add_append, List.append_assoc]
  rw [show front.length + size - (front.length + content.length) = size - content.length by omega]

/-- One block: its code and its body of exactly `bodySize` bytes. -/
@[ext] structure MetaData where
  hCode : Int32
  body : Bytes
  body_length : body.length = bodySize
deriving DecidableEq

namespace MetaData

/-- A cleared block with a code and some content copied to the front of its body. -/
def make (hCode : Int32) (content : Bytes) : MetaData where
  hCode
  body := zeroFill bodySize content
  body_length := zeroFill_length _ _

/-- The memory image of a block. -/
def bytes (block : MetaData) : Bytes := LittleEndian.encode block.hCode ++ block.body

/-- The block seen in a cleared receive buffer after some bytes were stored at its start. -/
def ofReceived (received : Bytes) : MetaData where
  hCode := LittleEndian.decode (zeroFill metaSize received)
  body := (zeroFill metaSize received).drop 4
  body_length := by rw [List.length_drop, zeroFill_length]; rfl

@[simp] theorem bytes_length (block : MetaData) : block.bytes.length = metaSize := by
  rw [bytes, List.length_append, LittleEndian.encode_length, block.body_length]
  rfl

/-- A block that arrives whole is seen unchanged. -/
@[simp] theorem ofReceived_bytes (block : MetaData) : ofReceived block.bytes = block := by
  have whole : zeroFill metaSize block.bytes = block.bytes :=
    zeroFill_of_length_eq block.bytes_length
  simp only [ofReceived, whole]
  simp only [bytes, LittleEndian.decode_encode_append,
    List.drop_left' (LittleEndian.encode_length _)]

/-- The front of a block, code included, is seen as a block with the front of its content. -/
theorem ofReceived_take (hCode : Int32) (content : Bytes) (count : ℕ) :
    ofReceived ((make hCode content).bytes.take (4 + count)) = make hCode (content.take count) := by
  have front : (make hCode content).bytes.take (4 + count) =
      LittleEndian.encode hCode ++ (zeroFill bodySize content).take count := by
    rw [← LittleEndian.encode_length hCode]
    exact List.take_length_add_append count
  have buffer : zeroFill metaSize ((make hCode content).bytes.take (4 + count)) =
      LittleEndian.encode hCode ++ zeroFill bodySize (content.take count) := by
    rw [front, ← zeroFill_take_zeroFill]
    exact zeroFill_append (LittleEndian.encode hCode) bodySize _
  apply MetaData.ext
  · change LittleEndian.decode (zeroFill metaSize _) = hCode
    rw [buffer, LittleEndian.decode_encode_append]
  · change (zeroFill metaSize _).drop 4 = zeroFill bodySize (content.take count)
    rw [buffer, List.drop_left' (LittleEndian.encode_length _)]

@[simp] theorem make_hCode (hCode : Int32) (content : Bytes) : (make hCode content).hCode = hCode :=
  rfl

/-- The string in a block made from short content is the string in that content. -/
theorem strlen?_make (hCode : Int32) {content : Bytes} (short : content.length < bodySize) :
    CString.strlen? (make hCode content).body = some (CString.ofBuffer content).length := by
  change CString.strlen? (zeroFill bodySize content) = _
  rw [zeroFill_of_length_lt short, CString.strlen?_append_zero]

theorem ofBuffer_make (hCode : Int32) {content : Bytes} (short : content.length < bodySize) :
    CString.ofBuffer (make hCode content).body = CString.ofBuffer content := by
  change CString.ofBuffer (zeroFill bodySize content) = _
  rw [zeroFill_of_length_lt short, CString.ofBuffer_append_zero]

end MetaData

/-! ## Sending -/

/-- A copy of `count` bytes out of a string, undefined when it would leave the string. -/
def memcpy? (source : Bytes) (offset : Int32) (count : ℕ) : Option Bytes :=
  if 0 ≤ offset ∧ offset.toNatClampNeg + count ≤ source.length then
    some ((source.drop offset.toNatClampNeg).take count)
  else none

/-- The `i`-th block of the loop of `RpcSend`: 511 bytes under the code `i`. -/
def fullBlock? (info : Bytes) (i : ℕ) : Option MetaData :=
  (memcpy? info (Int32.ofNat i * 511) 511).map (MetaData.make (Int32.ofNat i))

/-- The block after the loop, with the remaining bytes and the negated transfer id. -/
def lastBlock? (transferId : Int32) (info : Bytes) (blockNum : Int32) : Option MetaData :=
  (memcpy? info ((blockNum - 1) * 511) (info.length % 511)).map (MetaData.make (-1 * transferId))

/-- What one call of `RpcSend` did: the blocks it transmitted, how often it closed the
descriptor, and its result. -/
structure Sent where
  blocks : List MetaData
  closes : ℕ
  ret : Int32
deriving DecidableEq

/-- The sending loop over the given indices. It stops at the first `send` that fails. -/
def sendLoop (send : ℕ → Bool) (info : Bytes) :
    List ℕ → List MetaData → Option (List MetaData × Bool)
  | [], sent => some (sent, true)
  | i :: rest, sent =>
      (fullBlock? info i).bind fun block =>
        if send sent.length then sendLoop send info rest (sent ++ [block]) else some (sent, false)

/-- `RpcSend`. There is no result when a copy would leave the string. -/
def rpcSend (send : ℕ → Bool) (transferId : Int32) (info : Bytes) (needClosed : Bool) :
    Option Sent :=
  if transferId < 0 then some ⟨[], 0, -1⟩
  else
    let transferId := if transferId = 0 then 1 else transferId
    let blockNum := Int32.ofNat (info.length / 511 + 1)
    (sendLoop send info (List.range (blockNum - 1).toNatClampNeg) []).bind fun (sent, ok) =>
      if ok then
        if info.length % 511 ≠ 0 then
          (lastBlock? transferId info blockNum).bind fun block =>
            if send sent.length then some ⟨sent ++ [block], needClosed.toNat, 0⟩
            else some ⟨sent, 1, -1⟩
        else some ⟨sent, needClosed.toNat, 0⟩
      else some ⟨sent, 1, -1⟩

/-- Every `send` succeeds. -/
def allSent : ℕ → Bool := fun _ => true

/-! ## Receiving -/

/-- The bytes one successful `recv` of at most `metaSize` bytes returns. -/
structure Chunk where
  bytes : Bytes
  nonempty : 0 < bytes.length
  bounded : bytes.length ≤ metaSize
deriving DecidableEq

/-- A whole block as the result of one `recv`. -/
def MetaData.chunk (block : MetaData) : Chunk where
  bytes := block.bytes
  nonempty := by simp
  bounded := by simp

inductive RecvEvent where
  | data (chunk : Chunk)
  | eof
  | again
  | error
deriving DecidableEq

/-- What one call of `RpcRecv` returned, with the receive outcomes it left to later calls. -/
structure Received where
  transferId : Int32
  info : Bytes
  closes : ℕ
  rest : List RecvEvent
deriving DecidableEq

/-- `RpcRecv` on the outcomes of its successive `recv` calls, appending to the given string. It
has no result while it waits for more outcomes, nor when `strlen` leaves the block. -/
def rpcRecv (needClosed : Bool) : List RecvEvent → Bytes → Option Received
  | [], _ => none
  | .again :: rest, info => rpcRecv needClosed rest info
  | .error :: rest, info => some ⟨errorRecv, info, needClosed.toNat, rest⟩
  | .eof :: rest, info => some ⟨0, info, needClosed.toNat, rest⟩
  | .data chunk :: rest, info =>
      let block := MetaData.ofReceived chunk.bytes
      (CString.strlen? block.body).bind fun length =>
        let info := info ++ block.body.take length
        if block.hCode < 0 then some ⟨block.hCode * -1, info, needClosed.toNat, rest⟩
        else rpcRecv needClosed rest info

/-- Receive outcomes in which every `recv` returns exactly one whole block. -/
def wholeBlocks (blocks : List MetaData) : List RecvEvent := blocks.map fun block => .data block.chunk

/-! ## Datagrams -/

/-- `RpcSendTo`, which is `RpcSend` with the id one and calls of `sendto`. -/
def rpcSendTo (sendto : ℕ → Bool) (info : Bytes) (needClosed : Bool) : Option Sent :=
  rpcSend sendto 1 info needClosed

/-- `RpcRecvFrom`, the loop of `RpcRecv` on calls of `recvfrom`, which give one datagram each. -/
def rpcRecvFrom (needClosed : Bool) (events : List RecvEvent) (info : Bytes) : Option Received :=
  rpcRecv needClosed events info

end LibEvRpc
