import LibEvRpc.Util.Communication

/-! # What a peer can make `RpcRecv` do

A peer decides the bytes of every block. The scan of a body stays inside it exactly when the block
was not received whole or holds a NUL behind its code, and the negation of the code that ends a
message is positive unless the code is the least one.
-/

namespace LibEvRpc

/-- The block that is seen behind one `recv`. -/
def Chunk.block (chunk : Chunk) : MetaData := MetaData.ofReceived chunk.bytes

/-- The results of `recv` that the iterations of one call look at as blocks: up to the first one with a
negative code. -/
def takenChunks : List RecvEvent → List Chunk
  | [] => []
  | .again :: rest => takenChunks rest
  | .error :: _ => []
  | .eof :: _ => []
  | .data chunk :: rest => chunk :: if chunk.block.hCode < 0 then [] else takenChunks rest

/-- How the loop of a call ends, unless it waits for more. -/
inductive LoopEnd where
  | failed
  | eof
  | block (chunk : Chunk)

def loopEnd : List RecvEvent → Option LoopEnd
  | [] => none
  | .again :: rest => loopEnd rest
  | .error :: _ => some .failed
  | .eof :: _ => some .eof
  | .data chunk :: rest => if chunk.block.hCode < 0 then some (.block chunk) else loopEnd rest

/-- The result tells how the loop ended. -/
def ResultOf (transferId : Int32) : LoopEnd → Prop
  | .failed => transferId = errorRecv
  | .eof => transferId = 0
  | .block _ => 0 < transferId

/-- Every iteration of a call finds the end of the string in the body, and the result of the call is the
one its end has. -/
def SafelyReceived (events : List RecvEvent) : Prop :=
  (∀ chunk ∈ takenChunks events, ∃ length, CString.strlen? chunk.block.body = some length ∧
      length < bodySize) ∧
    ∀ needClosed info received, rpcRecv needClosed events info = some received →
      ∃ loopEnded, loopEnd events = some loopEnded ∧ ResultOf received.transferId loopEnded

/-- Whole blocks hold a NUL behind their code, and no code is the least one. -/
def WellFormed (chunk : Chunk) : Prop :=
  (chunk.bytes.length = metaSize → 0 ∈ chunk.bytes.drop 4) ∧ chunk.bytes.take 4 ≠ [0, 0, 0, 128]

instance (chunk : Chunk) : Decidable (WellFormed chunk) := inferInstanceAs (Decidable (_ ∧ _))

/-! ## One block -/

/-- A scan that finds the end of the string finds it inside the buffer. -/
theorem strlen?_inside_iff {buffer : Bytes} :
    (∃ length, CString.strlen? buffer = some length ∧ length < buffer.length) ↔ 0 ∈ buffer := by
  rw [CString.strlen?]
  split
  · next member =>
    refine ⟨fun _ => member, fun _ => ⟨_, rfl, ?_⟩⟩
    apply lt_of_le_of_ne (CString.ofBuffer_length_le buffer)
    intro whole
    have same := (List.takeWhile_prefix _).eq_of_length whole
    exact CString.ofBuffer_eq_self_iff.mp same member
  · next absent =>
    constructor
    · rintro ⟨_, contradictory, _⟩
      contradiction
    · exact fun member => absurd member absent

/-- Only a block that was received whole can lack a NUL. -/
theorem Chunk.zero_mem_body_iff (chunk : Chunk) :
    0 ∈ chunk.block.body ↔ (chunk.bytes.length = metaSize → 0 ∈ chunk.bytes.drop 4) := by
  change 0 ∈ (zeroFill metaSize chunk.bytes).drop 4 ↔ _
  by_cases whole : chunk.bytes.length = metaSize
  · rw [zeroFill_of_length_eq whole]
    exact ⟨fun member _ => member, fun found => found whole⟩
  · have short : chunk.bytes.length < metaSize := lt_of_le_of_ne chunk.bounded whole
    refine ⟨fun _ contradictory => absurd contradictory whole, fun _ => ?_⟩
    -- the last byte of the buffer was never written
    have last : (zeroFill metaSize chunk.bytes)[515]? = some 0 := by
      rw [List.getElem?_eq_getElem (by rw [zeroFill_length]; decide), zeroFill_getElem,
        List.getElem?_eq_none (by simp only [metaSize] at short; omega), Option.getD_none]
    apply List.mem_of_getElem? (i := 511)
    rw [List.getElem?_drop]
    exact last

private theorem take_zeroFill {size count : ℕ} {content : Bytes} (inside : count ≤ content.length)
    (fits : content.length ≤ size) : (zeroFill size content).take count = content.take count := by
  rw [zeroFill, List.take_of_length_le fits, List.take_append_of_le_length inside]

/-- The code of a block is the least one exactly when its four bytes say so. -/
theorem Chunk.hCode_eq_minValue_iff (chunk : Chunk) :
    chunk.block.hCode = Int32.minValue ↔ chunk.bytes.take 4 = [0, 0, 0, 128] := by
  change LittleEndian.decode (zeroFill metaSize chunk.bytes) = Int32.minValue ↔ _
  have stored := @LittleEndian.encode_decode (zeroFill metaSize chunk.bytes)
    (by rw [zeroFill_length]; decide)
  have least : LittleEndian.encode Int32.minValue = [0, 0, 0, 128] := by decide
  constructor
  · intro same
    rw [same, least] at stored
    have long : 4 ≤ chunk.bytes.length := by
      by_contra short
      have top : (zeroFill metaSize chunk.bytes)[3]? = some 128 := by
        rw [← List.getElem?_take_of_lt (show 3 < 4 by decide), ← stored]
        rfl
      rw [List.getElem?_eq_getElem (by rw [zeroFill_length]; decide), zeroFill_getElem,
        List.getElem?_eq_none (by omega), Option.getD_none] at top
      exact absurd top (by decide)
    rw [stored, take_zeroFill long chunk.bounded]
  · intro same
    have long : 4 ≤ chunk.bytes.length := by
      have count := congrArg List.length same
      rw [List.length_take] at count
      change min 4 chunk.bytes.length = 4 at count
      omega
    rw [take_zeroFill long chunk.bounded, same, ← least] at stored
    have decoded := congrArg LittleEndian.decode stored
    rwa [LittleEndian.decode_encode, LittleEndian.decode_encode] at decoded

/-- The negation of a negative code is positive unless it is the least one. -/
theorem zero_lt_neg_iff {code : Int32} (negative : code < 0) :
    0 < code * -1 ↔ code ≠ Int32.minValue := by
  have low := code.le_toInt
  have high := Int32.lt_iff_toInt_lt.mp negative
  have least : code = Int32.minValue ↔ code.toInt = -2 ^ 31 := Int32.toInt_inj.symm
  have one : (-1 : Int32).toInt = -1 := by decide
  rw [ne_eq, least, Int32.lt_iff_toInt_lt, Int32.toInt_mul, one, Int.bmod_def]
  simp only [Int32.toInt_zero] at high ⊢
  split
  · omega
  · omega

/-! ## One call -/

/-- A call that is over has the result of how its loop ended, and the code of an ending block
negated. -/
theorem rpcRecv_loopEnd {needClosed : Bool} {events : List RecvEvent} {info : Bytes}
    {received : Received} (success : rpcRecv needClosed events info = some received) :
    ∃ loopEnded, loopEnd events = some loopEnded ∧
      received.transferId = match loopEnded with
        | .failed => errorRecv
        | .eof => 0
        | .block chunk => chunk.block.hCode * -1 := by
  induction events generalizing info with
  | nil => contradiction
  | cons event rest ih =>
    cases event with
    | again => exact ih success
    | error =>
      cases success
      exact ⟨.failed, rfl, rfl⟩
    | eof =>
      cases success
      exact ⟨.eof, rfl, rfl⟩
    | data chunk =>
      obtain ⟨length, _, success⟩ := Option.bind_eq_some_iff.mp success
      rw [loopEnd]
      change (if chunk.block.hCode < 0 then _ else _) = _ at success
      split at success
      · next negative =>
        cases success
        rw [if_pos negative]
        exact ⟨.block chunk, rfl, rfl⟩
      · next nonneg =>
        rw [if_neg nonneg]
        exact ih success

/-- The ending block is one that was taken, and its code is negative. -/
theorem loopEnd_block {events : List RecvEvent} {chunk : Chunk}
    (ended : loopEnd events = some (.block chunk)) :
    chunk ∈ takenChunks events ∧ chunk.block.hCode < 0 := by
  induction events with
  | nil => contradiction
  | cons event rest ih =>
    cases event with
    | again => exact ih ended
    | error | eof => cases ended
    | data other =>
      rw [loopEnd] at ended
      rw [takenChunks]
      split at ended
      · next negative =>
        cases ended
        exact ⟨List.mem_cons_self, negative⟩
      · next nonneg =>
        obtain ⟨taken, negative⟩ := ih ended
        rw [if_neg nonneg]
        exact ⟨List.mem_cons_of_mem _ taken, negative⟩

/-- A call whose blocks all hold a NUL is over when its loop is. -/
theorem rpcRecv_isSome {events : List RecvEvent} (needClosed : Bool) (info : Bytes)
    (terminated : ∀ chunk ∈ takenChunks events, 0 ∈ chunk.block.body)
    (ended : (loopEnd events).isSome) : (rpcRecv needClosed events info).isSome := by
  induction events generalizing info with
  | nil => contradiction
  | cons event rest ih =>
    cases event with
    | again => exact ih info terminated ended
    | error | eof => rfl
    | data chunk =>
      obtain ⟨length, found, _⟩ := strlen?_inside_iff.mpr (terminated chunk List.mem_cons_self)
      have scanned : CString.strlen? (MetaData.ofReceived chunk.bytes).body = some length := found
      rw [rpcRecv, scanned, Option.bind_some]
      rw [takenChunks] at terminated
      rw [loopEnd] at ended
      change (if chunk.block.hCode < 0 then _ else _ : Option Received).isSome
      split
      · rfl
      · next nonneg =>
        rw [if_neg nonneg] at ended terminated
        exact ih _ (fun other member => terminated other (List.mem_cons_of_mem _ member)) ended

/-- A call closes the descriptor exactly when it is asked to, however it ends. -/
theorem rpcRecv_closes {needClosed : Bool} {events : List RecvEvent} {info : Bytes}
    {received : Received} (success : rpcRecv needClosed events info = some received) :
    received.closes = needClosed.toNat := by
  induction events generalizing info with
  | nil => contradiction
  | cons event rest ih =>
    cases event with
    | again => exact ih success
    | error | eof =>
      cases success
      rfl
    | data chunk =>
      obtain ⟨length, _, success⟩ := Option.bind_eq_some_iff.mp success
      dsimp only at success
      split at success
      · cases success
        rfl
      · exact ih success

/-- The loop of a call fails, or ends with a block whose code has no negation. -/
def RecvFails (events : List RecvEvent) : Prop :=
  loopEnd events = some .failed ∨
    ∃ chunk, loopEnd events = some (.block chunk) ∧ chunk.bytes.take 4 = [0, 0, 0, 128]

theorem rpcRecv_neg_iff {needClosed : Bool} {events : List RecvEvent} {info : Bytes}
    {received : Received} (success : rpcRecv needClosed events info = some received) :
    received.transferId < 0 ↔ RecvFails events := by
  obtain ⟨loopEnded, ended, value⟩ := rpcRecv_loopEnd success
  rw [RecvFails, ended, value]
  cases loopEnded with
  | failed => exact iff_of_true (by decide) (.inl rfl)
  | eof =>
    refine iff_of_false (by decide) ?_
    rintro (same | ⟨chunk, same, -⟩)
    · cases same
    · cases same
  | block chunk =>
    have positive := zero_lt_neg_iff (loopEnd_block ended).2
    constructor
    · intro negative
      refine .inr ⟨chunk, rfl, chunk.hCode_eq_minValue_iff.mp ?_⟩
      by_contra differ
      exact Int32.lt_irrefl (Int32.lt_trans negative (positive.mpr differ))
    · rintro (same | ⟨other, same, least⟩)
      · cases same
      · cases same
        change chunk.block.hCode * -1 < 0
        rw [chunk.hCode_eq_minValue_iff.mpr least]
        decide

/-- A block with a negative code ends the call. -/
theorem loopEnd_of_negative {events : List RecvEvent} {chunk : Chunk}
    (taken : chunk ∈ takenChunks events) (negative : chunk.block.hCode < 0) :
    loopEnd events = some (.block chunk) := by
  induction events with
  | nil => contradiction
  | cons event rest ih =>
    cases event with
    | again => exact ih taken
    | error | eof => contradiction
    | data other =>
      rw [takenChunks] at taken
      rw [loopEnd]
      rcases List.mem_cons.mp taken with rfl | later
      · rw [if_pos negative]
      · split at later
        · contradiction
        · next nonneg =>
          rw [if_neg nonneg]
          exact ih later

/-- A call reads inside the blocks of a peer, and its result tells how it ended, exactly when the
results of `recv` it takes are well-formed. -/
theorem safelyReceived_iff (events : List RecvEvent) :
    SafelyReceived events ↔ ∀ chunk ∈ takenChunks events, WellFormed chunk := by
  have inside (chunk : Chunk) : (∃ length, CString.strlen? chunk.block.body = some length ∧
      length < bodySize) ↔ (chunk.bytes.length = metaSize → 0 ∈ chunk.bytes.drop 4) := by
    rw [← chunk.zero_mem_body_iff, ← strlen?_inside_iff, chunk.block.body_length]
  constructor
  · rintro ⟨terminated, results⟩ chunk taken
    refine ⟨(inside chunk).mp (terminated chunk taken), fun least => ?_⟩
    have code := chunk.hCode_eq_minValue_iff.mpr least
    have negative : chunk.block.hCode < 0 := by
      rw [code]
      decide
    have ended := loopEnd_of_negative taken negative
    obtain ⟨received, success⟩ := Option.isSome_iff_exists.mp (rpcRecv_isSome false []
      (fun other member => other.zero_mem_body_iff.mpr ((inside other).mp (terminated other member)))
      (ended ▸ rfl))
    obtain ⟨loopEnded, again, result⟩ := results false [] received success
    obtain ⟨alsoEnded, sameEnd, value⟩ := rpcRecv_loopEnd success
    rw [ended, Option.some.injEq] at again sameEnd
    subst again sameEnd
    rw [ResultOf, value] at result
    exact (zero_lt_neg_iff negative).mp result code
  · intro wellFormed
    refine ⟨fun chunk taken => (inside chunk).mpr (wellFormed chunk taken).1, ?_⟩
    intro needClosed info received success
    obtain ⟨loopEnded, ended, value⟩ := rpcRecv_loopEnd success
    refine ⟨loopEnded, ended, ?_⟩
    cases loopEnded with
    | failed | eof => exact value
    | block chunk =>
      obtain ⟨taken, negative⟩ := loopEnd_block ended
      rw [ResultOf, value, zero_lt_neg_iff negative]
      exact fun code => (wellFormed chunk taken).2 (chunk.hCode_eq_minValue_iff.mp code)

/-- A block whose body is one byte over and over, under some code. -/
def filledChunk (hCode : Int32) (byte : UInt8) : Chunk :=
  MetaData.chunk ⟨hCode, List.replicate bodySize byte, List.length_replicate⟩

theorem filledChunk_block (hCode : Int32) (byte : UInt8) :
    (filledChunk hCode byte).block = ⟨hCode, List.replicate bodySize byte, List.length_replicate⟩ :=
  MetaData.ofReceived_bytes _

/-- The scan of the body of a block without a NUL leaves it, here under the code of id 100. -/
theorem unterminated_not_safelyReceived : ¬ SafelyReceived [.data (filledChunk (-100) 65)] := by
  intro safe
  have inside := safe.1 (filledChunk (-100) 65) List.mem_cons_self
  rw [filledChunk_block] at inside
  obtain ⟨length, found, _⟩ := inside
  have absent : (0 : UInt8) ∉ List.replicate bodySize 65 := fun member =>
    absurd (List.eq_of_mem_replicate member) (by decide)
  rw [CString.strlen?, if_neg absent] at found
  contradiction

end LibEvRpc
