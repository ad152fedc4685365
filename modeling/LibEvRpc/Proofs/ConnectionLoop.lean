import LibEvRpc.Client.Channel
import LibEvRpc.Proofs.TcpConnect

/-! # The connection loop of a channel

`TcpConnect` never returns the timeout code, since the mode of that code's descriptor cannot be
changed. So the loop makes a single attempt whatever its budget is.
-/

namespace LibEvRpc

/-- What one call of `TcpConnect` meets. -/
structure ConnectAttempt where
  resolved : Option Resolved
  mode : ModeAnswers

namespace ConnectAttempt

/-- The result of the attempt, if it has one. -/
def ret (connOvertime : Int32) (attempt : ConnectAttempt) : Option Int32 :=
  (tcpConnect connOvertime attempt.resolved attempt.mode).map TcpConnected.ret

/-- The wait of the attempt for its connection expires. -/
def timedOut (connOvertime : Int32) (attempt : ConnectAttempt) : Bool :=
  0 < connOvertime && attempt.resolved.any fun resolved =>
    (resolved.addresses.find? (·.Ends)).any (·.Expires)

/-- The attempt waits for no descriptor that has no room in a set. -/
def Fits (connOvertime : Int32) (attempt : ConnectAttempt) : Prop :=
  0 < connOvertime → ∀ resolved ∈ attempt.resolved, Tried (¬ ·.Overflows) resolved.addresses

end ConnectAttempt

/-- The loop of `CallMethod` ends after a number of attempts, and not before. -/
def EndsAfter (tryTime : Int32) (results : ℕ → Option Int32) (count : ℕ) : Prop :=
  (((List.range count).mapM results).bind (connectLoop tryTime)).isSome ∧
    ∀ fewer < count, ((List.range fewer).mapM results).bind (connectLoop tryTime) = none

/-- The smaller one of the budget and one more than the attempts at the start that time out. -/
def expectedAttempts (connOvertime tryTime : Int32) (attempts : ℕ → ConnectAttempt) : ℕ :=
  min tryTime.toNatClampNeg
    (1 + (((List.range tryTime.toNatClampNeg).map attempts).takeWhile
      (·.timedOut connOvertime)).length)

/-! ## One attempt -/

theorem not_overflows_of_unset {address : AddrInfo} (unset : address.noDelaySet = false) :
    ¬ address.Overflows := by
  rintro ⟨_, awaited, called⟩
  simp [AddrInfo.connecting, unset] at called

/-- With a time limit the loop of `TcpConnect` has a result exactly when it waits for no descriptor that
is too large. -/
theorem tcpLoop_isSome_iff {connOvertime : Int32} (waits : 0 < connOvertime)
    (addresses : List AddrInfo) (loop : TcpLoop) (position : ℕ) :
    (tcpLoop connOvertime loop position addresses).isSome ↔ Tried (¬ ·.Overflows) addresses := by
  induction addresses generalizing loop position with
  | nil => exact iff_of_true rfl (tried_nil _)
  | cons address next goOn =>
    rw [tried_cons]
    rcases tcpLoop_cons waits loop position address next with
      ⟨_, fits, stays, step⟩ | ⟨_, unset, step⟩ | ⟨_, fits, stays, step⟩ | ⟨_, _, fits, ends, step⟩ |
      ⟨overflows, step⟩
    · rw [step, goOn]
      exact ⟨fun tried => ⟨fits, fun _ => tried⟩, fun tried => tried.2 stays⟩
    · rw [step, goOn]
      exact ⟨fun tried => ⟨not_overflows_of_unset unset, fun _ => tried⟩,
        fun tried => tried.2 (not_ends_of_unset unset)⟩
    · rw [step, goOn]
      exact ⟨fun tried => ⟨fits, fun _ => tried⟩, fun tried => tried.2 stays⟩
    · rw [step]
      exact iff_of_true rfl ⟨fits, fun stays => absurd ends stays⟩
    · rw [step]
      exact iff_of_false Bool.false_ne_true fun tried => tried.1 overflows

/-- Without a time limit the loop of `TcpConnect` has a result, and leaves with an open descriptor. -/
theorem tcpLoop_unlimited {connOvertime : Int32} (unlimited : ¬ 0 < connOvertime)
    (addresses : List AddrInfo) (loop : TcpLoop) (position : ℕ) (running : loop.res = none) :
    ∃ after, tcpLoop connOvertime loop position addresses = some after ∧
      (after.res.isSome → 0 ≤ after.sockfd) := by
  have unlimited := Int32.not_lt.mp unlimited
  induction addresses generalizing loop position with
  | nil => exact ⟨loop, rfl, by simp [running]⟩
  | cons address next goOn =>
    rw [tcpLoop]
    split
    · exact goOn _ _ running
    · next opened =>
      dsimp only
      split
      · exact goOn _ _ running
      · cases address.connect with
        | established => exact ⟨_, rfl, fun _ => Int32.not_lt.mp opened⟩
        | failed => exact goOn _ _ running
        | inProgress awaited =>
          dsimp only
          exact goOn _ _ running

/-- An attempt has a result exactly when it waits for no descriptor that is too large. -/
theorem ConnectAttempt.ret_isSome_iff (connOvertime : Int32) (attempt : ConnectAttempt) :
    (attempt.ret connOvertime).isSome ↔ attempt.Fits connOvertime := by
  obtain ⟨resolved, mode⟩ := attempt
  cases resolved with
  | none => exact iff_of_true rfl fun _ _ absent => by contradiction
  | some resolved =>
    rw [ret, tcpConnect, Option.isSome_map, Option.isSome_map, Fits]
    by_cases waits : 0 < connOvertime
    · simp only [tcpLoop_isSome_iff waits, waits, true_imp_iff, Option.mem_def, Option.some.injEq,
        forall_eq']
    · obtain ⟨_, success, _⟩ := tcpLoop_unlimited waits resolved.addresses ⟨0, none, [], []⟩ 0 rfl
      rw [success]
      exact iff_of_true rfl fun limited => absurd limited waits

/-- The timeout code is never returned. -/
theorem tcpConnect_ne_timeout {connOvertime : Int32} {resolved : Option Resolved}
    {mode : ModeAnswers} {connected : TcpConnected}
    (success : tcpConnect connOvertime resolved mode = some connected) :
    connected.ret ≠ tcpConnTimeout := by
  cases resolved with
  | none =>
    cases success
    exact (by decide : (-1 : Int32) ≠ tcpConnTimeout)
  | some resolved =>
    obtain ⟨after, looped, rfl⟩ := Option.map_eq_some_iff.mp success
    rw [TcpLoop.connected]
    split
    · exact (by decide : (-1 : Int32) ≠ tcpConnTimeout)
    · next changed =>
      split
      · exact (by decide : (-1 : Int32) ≠ tcpConnTimeout)
      · next left =>
        have isOpen : 0 ≤ after.sockfd := by
          by_cases waits : 0 < connOvertime
          · apply Int32.not_lt.mp
            intro failed
            simp [waits, nonBlockMode, failed] at changed
          · obtain ⟨_, again, opened⟩ :=
              tcpLoop_unlimited waits resolved.addresses ⟨0, none, [], []⟩ 0 rfl
            cases looped.symm.trans again
            exact opened (by simpa [Option.isSome_iff_ne_none] using left)
        intro same
        dsimp only at same
        rw [same] at isOpen
        exact absurd isOpen (by decide)

/-! ## The loop of the channel -/

/-- The loop ends after its first attempt, if that has a result. -/
theorem connectLoop_endsAfter_one {connOvertime : Int32} (tryTime : Int32)
    {attempts : ℕ → ConnectAttempt} (fits : ((attempts 0).ret connOvertime).isSome) :
    EndsAfter tryTime (fun attempt => (attempts attempt).ret connOvertime) 1 := by
  obtain ⟨first, returned⟩ := Option.isSome_iff_exists.mp fits
  obtain ⟨connected, success, rfl⟩ := Option.map_eq_some_iff.mp returned
  constructor
  · have left : tcpConnTimeout ≠ connected.ret := (tcpConnect_ne_timeout success).symm
    simp [List.range_succ, connectLoop, returned, left]
  · intro fewer less
    obtain rfl : fewer = 0 := by omega
    rfl

/-- The loop does not end if its first attempt has no result. -/
theorem not_endsAfter_of_undefined {tryTime : Int32} {results : ℕ → Option Int32}
    (undefined : results 0 = none) (count : ℕ) : ¬ EndsAfter tryTime results count := by
  rintro ⟨ends, _⟩
  cases count with
  | zero => contradiction
  | succ count =>
    rw [List.range_succ_eq_map, List.mapM_cons, undefined] at ends
    contradiction

/-- A loop ends after one number of attempts only. -/
theorem EndsAfter.unique {tryTime : Int32} {results : ℕ → Option Int32} {first second : ℕ}
    (one : EndsAfter tryTime results first) (other : EndsAfter tryTime results second) :
    first = second := by
  rcases Nat.lt_trichotomy first second with less | same | more
  · rw [EndsAfter, other.2 first less] at one
    exact absurd one.1 Bool.false_ne_true
  · exact same
  · rw [EndsAfter, one.2 second more] at other
    exact absurd other.1 Bool.false_ne_true

/-- The loop makes the attempts it should if and only if its first attempt waits for no descriptor that
is too large, and does not time out unless the budget is one. -/
theorem connectLoop_endsAfter_iff (connOvertime tryTime : Int32) (budget : 1 ≤ tryTime)
    (attempts : ℕ → ConnectAttempt) :
    EndsAfter tryTime (fun attempt => (attempts attempt).ret connOvertime)
        (expectedAttempts connOvertime tryTime attempts) ↔
      (attempts 0).Fits connOvertime ∧
        (tryTime = 1 ∨ (attempts 0).timedOut connOvertime = false) := by
  rw [← ConnectAttempt.ret_isSome_iff]
  cases returned : (attempts 0).ret connOvertime with
  | none =>
    exact iff_of_false (not_endsAfter_of_undefined returned _) fun both => Bool.false_ne_true both.1
  | some first =>
    rw [Option.isSome_some, eq_self, true_and]
    have single := @connectLoop_endsAfter_one connOvertime tryTime attempts (returned ▸ rfl)
    have one : EndsAfter tryTime (fun attempt => (attempts attempt).ret connOvertime)
        (expectedAttempts connOvertime tryTime attempts) ↔
          expectedAttempts connOvertime tryTime attempts = 1 :=
      ⟨fun ends => ends.unique single, fun same => by rwa [same]⟩
    rw [one, expectedAttempts]
    have positive : 1 ≤ tryTime.toInt := Int32.le_iff_toInt_le.mp budget
    obtain ⟨more, amount⟩ : ∃ more, tryTime.toInt = ((more + 1 : ℕ) : Int) :=
      ⟨tryTime.toInt.toNat - 1, by omega⟩
    have budgetOne : tryTime = 1 ↔ more = 0 := by
      rw [← Int32.toInt_inj, amount]
      change ((more + 1 : ℕ) : Int) = 1 ↔ more = 0
      omega
    have amount : tryTime.toNatClampNeg = more + 1 := by
      rw [← Int32.toNat_toInt, amount, Int.toNat_natCast]
    rw [amount, budgetOne, List.range_succ_eq_map, List.map_cons, List.takeWhile_cons]
    cases (attempts 0).timedOut connOvertime with
    | false => simp
    | true => simp; omega

/-- A first attempt that is refused, then connections after a wait. -/
def refusedOnce (attempt : ℕ) : ConnectAttempt :=
  ⟨some ⟨⟨5, true, if attempt = 0 then .failed else .inProgress (.ready true)⟩, []⟩, ⟨true, true, true⟩⟩

/-- With a budget of three a first attempt that is refused is the only one. -/
theorem connectLoop_endsAfter_sample :
    EndsAfter 3 (fun attempt => (refusedOnce attempt).ret 1000)
      (expectedAttempts 1000 3 refusedOnce) := by
  refine (connectLoop_endsAfter_iff 1000 3 (by decide) refusedOnce).mpr ⟨?_, .inr (by decide)⟩
  exact (ConnectAttempt.ret_isSome_iff 1000 (refusedOnce 0)).mp (by decide)

/-- A first attempt whose wait expires, then connections. -/
def expiredOnce (attempt : ℕ) : ConnectAttempt :=
  ⟨some ⟨⟨5, true, if attempt = 0 then .inProgress .expired else .established⟩, []⟩, ⟨true, true, true⟩⟩

/-- A budget of two allows a second attempt after a wait that expires, but none is made. -/
theorem connectLoop_no_retry :
    expectedAttempts 1000 2 expiredOnce = 2 ∧
      ¬ EndsAfter 2 (fun attempt => (expiredOnce attempt).ret 1000) 2 := by
  refine ⟨by decide, fun ends => ?_⟩
  exact absurd (ends.2 1 (by decide)) (by decide)

end LibEvRpc
