import LibEvRpc.Util.TcpConnect
import Mathlib.Tactic.Linarith

/-! # Which descriptor `TcpConnect` returns

A wait that ends is taken for a connection, a wait that expires becomes the result -1 in the last mode
change, an address whose option cannot be set keeps its descriptor, and a descriptor that is too large
for `select` is waited for. On all other outcomes the result is what it should be.
-/

namespace LibEvRpc

namespace AddrInfo

/-- The result of `connect` at an address, if it is called. -/
def connecting (address : AddrInfo) : Option Connecting :=
  if address.socket < 0 || !address.noDelaySet then none else some address.connect

def Established (address : AddrInfo) : Prop :=
  address.connecting = some .established ∨ address.connecting = some (.inProgress (.ready true))

def Expires (address : AddrInfo) : Prop := address.connecting = some (.inProgress .expired)

/-- The connection to an address is waited for with a descriptor that has no room in a set. -/
def Overflows (address : AddrInfo) : Prop :=
  fdSetSize ≤ address.socket ∧ ∃ awaited, address.connecting = some (.inProgress awaited)

/-- The loop leaves at an address. -/
def Ends (address : AddrInfo) : Prop :=
  address.Established ∨ address.Expires ∨
    address.connecting = some (.inProgress (.ready false))

instance (address : AddrInfo) : Decidable address.Established :=
  inferInstanceAs (Decidable (_ ∨ _))

instance (address : AddrInfo) : Decidable address.Expires :=
  inferInstanceAs (Decidable (_ = _))

instance (address : AddrInfo) : Decidable address.Ends := inferInstanceAs (Decidable (_ ∨ _))

/-- The option of an address can be set, its descriptor can be waited for, and if the loop leaves
there, then with a connection whose mode can be changed back. -/
def Handled (mode : ModeAnswers) (address : AddrInfo) : Prop :=
  (0 ≤ address.socket → address.noDelaySet) ∧ ¬ address.Overflows ∧
    (address.Ends → address.Established ∧ nonBlockMode mode address.socket)

end AddrInfo

/-- The result `TcpConnect` should have from a position on, and the position of its descriptor. -/
def expectedConnect (position : ℕ) : List AddrInfo → Int32 × Option ℕ
  | [] => (-1, none)
  | address :: next =>
      if address.Established then (address.socket, some position)
      else if address.Expires then (tcpConnTimeout, none)
      else expectedConnect (position + 1) next

/-- A call has the result it should have, and only the descriptor it returns is still open. -/
def Meets (called : Option TcpConnected) (expected : Int32 × Option ℕ) : Prop :=
  ∃ connected, called = some connected ∧ connected.ret = expected.1 ∧
    connected.leftOpen = expected.2.toList

theorem meets_some {connected : TcpConnected} {expected : Int32 × Option ℕ} :
    Meets (some connected) expected ↔
      connected.ret = expected.1 ∧ connected.leftOpen = expected.2.toList := by
  simp [Meets]

/-- Every address up to the one where the loop leaves has a property. -/
def Tried (property : AddrInfo → Prop) (addresses : List AddrInfo) : Prop :=
  ∀ before address after, addresses = before ++ address :: after →
    (∀ earlier ∈ before, ¬ earlier.Ends) → property address

theorem tried_nil (property : AddrInfo → Prop) : Tried property [] := by
  intro before address after parts
  exact absurd parts (by simp)

theorem tried_cons (property : AddrInfo → Prop) (address : AddrInfo) (next : List AddrInfo) :
    Tried property (address :: next) ↔
      property address ∧ (¬ address.Ends → Tried property next) := by
  constructor
  · intro tried
    refine ⟨tried [] address next rfl (by simp), ?_⟩
    intro goesOn before later after parts earlier
    refine tried (address :: before) later after (by rw [parts, List.cons_append]) ?_
    intro tested member
    rcases List.mem_cons.mp member with rfl | member
    · exact goesOn
    · exact earlier tested member
  · rintro ⟨here, rest⟩ before later after parts earlier
    cases before with
    | nil =>
      cases parts
      exact here
    | cons head before =>
      obtain ⟨rfl, rest'⟩ := List.cons.inj parts
      exact rest (earlier address List.mem_cons_self) before later after rest' fun tested member =>
        earlier tested (List.mem_cons_of_mem _ member)

/-! ## Descriptors left open -/

/-- The loop has only used positions before this one. -/
structure TcpLoop.Before (loop : TcpLoop) (position : ℕ) : Prop where
  opened : ∀ used ∈ loop.opened, used < position
  closed : ∀ used ∈ loop.closed, used < position
  res : loop.res = none

namespace TcpLoop

def leftOpen (loop : TcpLoop) : List ℕ :=
  loop.opened.filter fun position => position ∉ loop.closed

@[simp] theorem leftOpen_connected (connOvertime : Int32) (mode : ModeAnswers) (loop : TcpLoop) :
    (loop.connected connOvertime mode).leftOpen = loop.leftOpen := by
  rw [connected]
  split
  · rfl
  · split
    · rfl
    · rfl

/-- A descriptor stays open until it is closed. -/
theorem leftOpen_opening {loop : TcpLoop} {position : ℕ} (before : loop.Before position)
    (sockfd : Int32) : (loop.opening sockfd position).leftOpen = loop.leftOpen ++ [position] := by
  have fresh : position ∉ loop.closed := fun member => lt_irrefl _ (before.closed position member)
  change List.filter (fun used => used ∉ loop.closed) (loop.opened ++ [position]) = _
  rw [List.filter_append, List.filter_cons_of_pos (by simpa using fresh), List.filter_nil, leftOpen]

theorem leftOpen_closing {loop : TcpLoop} {position : ℕ} (before : loop.Before position)
    (sockfd : Int32) :
    ((loop.opening sockfd position).closing position).leftOpen = loop.leftOpen := by
  have kept : ∀ used ∈ loop.opened,
      (decide (used ∉ loop.closed ++ [position])) = decide (used ∉ loop.closed) := by
    intro used member
    have earlier := before.opened used member
    rw [decide_eq_decide, List.mem_append, List.mem_singleton, not_or, and_iff_left (by omega)]
  change List.filter (fun used => used ∉ loop.closed ++ [position]) (loop.opened ++ [position]) = _
  rw [List.filter_append, List.filter_congr kept, List.filter_cons_of_neg (by simp),
    List.filter_nil, List.append_nil, leftOpen]

theorem Before.sockfd {loop : TcpLoop} {position : ℕ} (before : loop.Before position)
    (sockfd : Int32) : ({ loop with sockfd } : TcpLoop).Before (position + 1) where
  opened used member := Nat.lt_succ_of_lt (before.opened used member)
  closed used member := Nat.lt_succ_of_lt (before.closed used member)
  res := before.res

theorem Before.opening {loop : TcpLoop} {position : ℕ} (before : loop.Before position)
    (sockfd : Int32) : (loop.opening sockfd position).Before (position + 1) where
  opened used member := by
    rcases List.mem_append.mp member with earlier | here
    · exact Nat.lt_succ_of_lt (before.opened used earlier)
    · rw [List.mem_singleton.mp here]
      exact Nat.lt_succ_self position
  closed used member := Nat.lt_succ_of_lt (before.closed used member)
  res := before.res

theorem Before.closing {loop : TcpLoop} {position : ℕ} (before : loop.Before position)
    (sockfd : Int32) : ((loop.opening sockfd position).closing position).Before (position + 1) where
  opened := (before.opening sockfd).opened
  closed used member := by
    rcases List.mem_append.mp member with earlier | here
    · exact Nat.lt_succ_of_lt (before.closed used earlier)
    · rw [List.mem_singleton.mp here]
      exact Nat.lt_succ_self position
  res := before.res

end TcpLoop

/-! ## One address -/

/-- What the loop does at one address: it goes on, with the descriptor unopened, left open or closed,
it leaves, or it waits for a descriptor that is too large. -/
theorem tcpLoop_cons {connOvertime : Int32} (waits : 0 < connOvertime) (loop : TcpLoop)
    (position : ℕ) (address : AddrInfo) (next : List AddrInfo) :
    (address.socket < 0 ∧ ¬ address.Overflows ∧ ¬ address.Ends ∧
      tcpLoop connOvertime loop position (address :: next) =
        tcpLoop connOvertime { loop with sockfd := address.socket } (position + 1) next) ∨
    (0 ≤ address.socket ∧ address.noDelaySet = false ∧
      tcpLoop connOvertime loop position (address :: next) =
        tcpLoop connOvertime (loop.opening address.socket position) (position + 1) next) ∨
    (address.noDelaySet ∧ ¬ address.Overflows ∧ ¬ address.Ends ∧
      tcpLoop connOvertime loop position (address :: next) =
        tcpLoop connOvertime ((loop.opening address.socket position).closing position)
          (position + 1) next) ∨
    (0 ≤ address.socket ∧ address.noDelaySet ∧ ¬ address.Overflows ∧ address.Ends ∧
      tcpLoop connOvertime loop position (address :: next) =
        some { loop.opening address.socket position with
          sockfd := if address.Expires then tcpConnTimeout else address.socket
          res := some position }) ∨
    (address.Overflows ∧ tcpLoop connOvertime loop position (address :: next) = none) := by
  obtain ⟨sockfd, noDelaySet, connect⟩ := address
  have waits : ¬ connOvertime ≤ 0 := Int32.not_le.mpr waits
  by_cases failed : sockfd < 0
  · left
    simp [tcpLoop, failed, AddrInfo.Overflows, AddrInfo.Ends, AddrInfo.Established, AddrInfo.Expires,
      AddrInfo.connecting]
  · right
    have opened := Int32.not_lt.mp failed
    cases noDelaySet with
    | false =>
      left
      simp [tcpLoop, failed, opened]
    | true =>
      right
      rcases connect with _ | _ | awaited
      · simp [tcpLoop, failed, opened, AddrInfo.Overflows, AddrInfo.Ends, AddrInfo.Established,
          AddrInfo.Expires, AddrInfo.connecting, TcpLoop.opening]
      · simp [tcpLoop, failed, opened, AddrInfo.Overflows, AddrInfo.Ends, AddrInfo.Established,
          AddrInfo.Expires, AddrInfo.connecting]
      · by_cases large : fdSetSize ≤ sockfd
        · simp [tcpLoop, failed, waits, large, AddrInfo.Overflows, AddrInfo.connecting]
        · rcases awaited with _ | _ | established
          · simp [tcpLoop, failed, opened, waits, large, AddrInfo.Overflows, AddrInfo.Ends,
              AddrInfo.Established, AddrInfo.Expires, AddrInfo.connecting]
          · simp [tcpLoop, failed, opened, waits, large, AddrInfo.Overflows, AddrInfo.Ends,
              AddrInfo.Established, AddrInfo.Expires, AddrInfo.connecting]
          · cases established <;>
              simp [tcpLoop, failed, opened, waits, large, AddrInfo.Overflows, AddrInfo.Ends,
                AddrInfo.Established, AddrInfo.Expires, AddrInfo.connecting, TcpLoop.opening]

/-! ## All addresses -/

/-- What is open before the loop is open after it. -/
theorem leftOpen_tcpLoop {connOvertime : Int32} (waits : 0 < connOvertime)
    (addresses : List AddrInfo) {loop after : TcpLoop} {position remaining : ℕ}
    (before : loop.Before position) (left : remaining ∈ loop.leftOpen)
    (success : tcpLoop connOvertime loop position addresses = some after) :
    remaining ∈ after.leftOpen := by
  induction addresses generalizing loop position with
  | nil =>
    cases success
    exact left
  | cons address next goOn =>
    have kept : remaining ∈ (loop.opening address.socket position).leftOpen := by
      rw [TcpLoop.leftOpen_opening before]
      exact List.mem_append_left _ left
    rcases tcpLoop_cons waits loop position address next with
      ⟨_, _, _, step⟩ | ⟨_, _, step⟩ | ⟨_, _, _, step⟩ | ⟨_, _, _, _, step⟩ | ⟨_, step⟩
    · rw [step] at success
      exact goOn (before.sockfd address.socket) left success
    · rw [step] at success
      exact goOn (before.opening _) kept success
    · rw [step] at success
      exact goOn (before.closing _) (by rwa [TcpLoop.leftOpen_closing before]) success
    · cases step.symm.trans success
      exact kept
    · cases step.symm.trans success

/-- The descriptor to return is that of an address from the position on. -/
theorem expectedConnect_position (addresses : List AddrInfo) {position returned : ℕ}
    (member : returned ∈ (expectedConnect position addresses).2) : position ≤ returned := by
  induction addresses generalizing position with
  | nil => simp [expectedConnect] at member
  | cons address next goOn =>
    rw [expectedConnect] at member
    split at member
    · rw [Option.mem_some_iff] at member
      exact member.le
    · split at member
      · simp at member
      · exact Nat.le_of_succ_le (goOn member)

/-- An address at which the loop goes on is passed over. -/
theorem expectedConnect_of_stays {address : AddrInfo} (stays : ¬ address.Ends) (position : ℕ)
    (next : List AddrInfo) :
    expectedConnect position (address :: next) = expectedConnect (position + 1) next := by
  rw [expectedConnect, if_neg fun established => stays (.inl established),
    if_neg fun expires => stays (.inr (.inl expires))]

theorem not_ends_of_unset {address : AddrInfo} (unset : address.noDelaySet = false) :
    ¬ address.Ends := by
  have uncalled : address.connecting = none := by simp [AddrInfo.connecting, unset]
  simp [AddrInfo.Ends, AddrInfo.Established, AddrInfo.Expires, uncalled]

/-- Leaving at an address gives the result it should have exactly with an established connection and its
mode changed back. -/
theorem meets_of_left {connOvertime : Int32} (waits : 0 < connOvertime) (mode : ModeAnswers)
    {loop : TcpLoop} {position : ℕ} (before : loop.Before position) (closed : loop.leftOpen = [])
    {address : AddrInfo} (opened : 0 ≤ address.socket) (next : List AddrInfo) :
    Meets (some (TcpLoop.connected connOvertime mode { loop.opening address.socket position with
        sockfd := if address.Expires then tcpConnTimeout else address.socket
        res := some position })) (expectedConnect position (address :: next)) ↔
      address.Established ∧ nonBlockMode mode address.socket := by
  have remaining : TcpLoop.leftOpen { loop.opening address.socket position with
      sockfd := if address.Expires then tcpConnTimeout else address.socket
      res := some position } = [position] := by
    have opening := TcpLoop.leftOpen_opening before address.socket
    rwa [closed, List.nil_append] at opening
  rw [meets_some, TcpLoop.leftOpen_connected, remaining]
  by_cases established : address.Established
  · have stays : ¬ address.Expires := by
      rcases established with first | second
      · simp [AddrInfo.Expires, first]
      · simp [AddrInfo.Expires, second]
    rw [expectedConnect, if_pos established, if_neg stays, TcpLoop.connected]
    by_cases changed : nonBlockMode mode address.socket
    · simp [changed, established]
    · have minus : (-1 : Int32) ≠ address.socket := by
        intro same
        rw [← same] at opened
        exact absurd opened (by decide)
      simp [changed, waits, minus]
  · refine iff_of_false ?_ fun both => established both.1
    rintro ⟨_, only⟩
    have member : position ∈ (expectedConnect position (address :: next)).2 := by
      apply Option.mem_toList.mp
      rw [← only]
      exact List.mem_singleton_self position
    rw [expectedConnect, if_neg established] at member
    split at member
    · simp at member
    · exact absurd (expectedConnect_position next member) (by omega)

/-- A descriptor left open before the loop is never closed. -/
theorem not_meets_of_leftOpen {connOvertime : Int32} (waits : 0 < connOvertime)
    (mode : ModeAnswers) (addresses : List AddrInfo) {loop : TcpLoop} {position remaining : ℕ}
    (before : loop.Before position) (left : remaining ∈ loop.leftOpen) {expected : Int32 × Option ℕ}
    (later : remaining ∉ expected.2) :
    ¬ Meets ((tcpLoop connOvertime loop position addresses).map (TcpLoop.connected connOvertime mode))
      expected := by
  rintro ⟨connected, success, _, closed⟩
  obtain ⟨after, looped, rfl⟩ := Option.map_eq_some_iff.mp success
  have still := leftOpen_tcpLoop waits addresses before left looped
  rw [TcpLoop.leftOpen_connected] at closed
  rw [closed] at still
  exact later (Option.mem_toList.mp still)

/-- From a state without open descriptors the rest of the loop gives the result it should have if and
only if every address it tries is handled. -/
theorem tcpLoop_meets_iff {connOvertime : Int32} (waits : 0 < connOvertime) (mode : ModeAnswers)
    (addresses : List AddrInfo) {loop : TcpLoop} {position : ℕ} (before : loop.Before position)
    (closed : loop.leftOpen = []) :
    Meets ((tcpLoop connOvertime loop position addresses).map (TcpLoop.connected connOvertime mode))
        (expectedConnect position addresses) ↔
      Tried (AddrInfo.Handled mode) addresses := by
  induction addresses generalizing loop position with
  | nil =>
    refine iff_of_true (meets_some.mpr ⟨?_, ?_⟩) (tried_nil _)
    · change (loop.connected connOvertime mode).ret = -1
      rw [TcpLoop.connected, before.res]
      split
      · rfl
      · rfl
    · change (loop.connected connOvertime mode).leftOpen = []
      rw [TcpLoop.leftOpen_connected, closed]
  | cons address next goOn =>
    rw [tried_cons]
    rcases tcpLoop_cons waits loop position address next with
      ⟨failed, fits, stays, step⟩ | ⟨opened, unset, step⟩ | ⟨isSet, fits, stays, step⟩ |
      ⟨opened, isSet, fits, ends, step⟩ | ⟨overflows, step⟩
    · have handled : address.Handled mode :=
        ⟨fun opened => absurd failed (Int32.not_lt.mpr opened), fits, fun ends => absurd ends stays⟩
      rw [step, expectedConnect_of_stays stays, goOn (before.sockfd address.socket) closed]
      exact ⟨fun tried => ⟨handled, fun _ => tried⟩, fun tried => tried.2 stays⟩
    · -- the descriptor of this address stays open
      refine iff_of_false ?_ fun tried => ?_
      · have remaining : position ∈ (loop.opening address.socket position).leftOpen := by
          rw [TcpLoop.leftOpen_opening before]
          exact List.mem_append_right _ (List.mem_singleton_self _)
        rw [step]
        apply not_meets_of_leftOpen waits mode next (before.opening _) remaining
        intro member
        rw [expectedConnect_of_stays (not_ends_of_unset unset)] at member
        have later := expectedConnect_position next member
        omega
      · rw [tried.1.1 opened] at unset
        contradiction
    · have handled : address.Handled mode := ⟨fun _ => isSet, fits, fun ends => absurd ends stays⟩
      rw [step, expectedConnect_of_stays stays, goOn (before.closing _)
        (by rw [TcpLoop.leftOpen_closing before, closed])]
      exact ⟨fun tried => ⟨handled, fun _ => tried⟩, fun tried => tried.2 stays⟩
    · rw [step, Option.map_some, meets_of_left waits mode before closed opened]
      constructor
      · intro established
        exact ⟨⟨fun _ => isSet, fits, fun _ => established⟩, fun stays => absurd ends stays⟩
      · intro tried
        exact tried.1.2.2 ends
    · rw [step]
      refine iff_of_false ?_ fun tried => tried.1.2.1 overflows
      rintro ⟨_, success, _⟩
      contradiction

/-- With a time limit `TcpConnect` returns what it should and leaves nothing else open if and only if
every address it tries has its option set and no descriptor to wait for that is too large, and the loop
leaves, if at all, with an established connection whose mode is changed back. -/
theorem tcpConnect_meets_iff (connOvertime : Int32) (waits : 0 < connOvertime) (resolved : Resolved)
    (mode : ModeAnswers) :
    Meets (tcpConnect connOvertime (some resolved) mode) (expectedConnect 0 resolved.addresses) ↔
      Tried (AddrInfo.Handled mode) resolved.addresses :=
  tcpLoop_meets_iff waits mode resolved.addresses
    ⟨fun _ member => absurd member List.not_mem_nil, fun _ member => absurd member List.not_mem_nil,
      rfl⟩ rfl

/-- The first address gets no socket, the second one refuses the connection, and the third one is
connected after a wait. -/
theorem tcpConnect_meets_sample :
    Meets (tcpConnect 1000 (some ⟨⟨-1, true, .failed⟩,
      [⟨5, true, .failed⟩, ⟨5, true, .inProgress (.ready true)⟩]⟩) ⟨true, true, true⟩) (5, some 2) := by
  apply (tcpConnect_meets_iff 1000 (by decide) ⟨⟨-1, true, .failed⟩,
    [⟨5, true, .failed⟩, ⟨5, true, .inProgress (.ready true)⟩]⟩ ⟨true, true, true⟩).mpr
  have fits {address : AddrInfo} (small : address.socket < fdSetSize) : ¬ address.Overflows :=
    fun overflows => absurd small (Int32.not_lt.mpr overflows.1)
  rw [Resolved.addresses, tried_cons, tried_cons, tried_cons]
  refine ⟨⟨by decide, fits (by decide), by decide⟩, fun _ => ?_⟩
  refine ⟨⟨by decide, fits (by decide), by decide⟩, fun _ => ?_⟩
  exact ⟨⟨by decide, fits (by decide), by decide⟩, fun _ => tried_nil _⟩

/-- A connection that is refused while `select` waits for it is returned as an established one, and a
descriptor that is too large is waited for. -/
theorem tcpConnect_refused :
    tcpConnect 1000 (some ⟨⟨5, true, .inProgress (.ready false)⟩, []⟩) ⟨true, true, true⟩ =
        some ⟨5, [0], []⟩ ∧
      ¬ Meets (tcpConnect 1000 (some ⟨⟨5, true, .inProgress (.ready false)⟩, []⟩) ⟨true, true, true⟩)
        (expectedConnect 0 [⟨5, true, .inProgress (.ready false)⟩]) ∧
      ¬ Meets (tcpConnect 1000 (some ⟨⟨1024, true, .inProgress (.ready true)⟩, []⟩) ⟨true, true, true⟩)
        (expectedConnect 0 [⟨1024, true, .inProgress (.ready true)⟩]) := by
  refine ⟨by decide, ?_, ?_⟩
  · rintro ⟨connected, success, ret, _⟩
    cases success
    exact absurd ret (by decide)
  · rintro ⟨connected, success, _⟩
    contradiction

end LibEvRpc
