import LibEvRpc.Proofs.CenterSteps
import LibEvRpc.ToMathlib.Run

/-! # The logical clock

A center should carry the largest round it has seen. No message moves its clock: neither an answer
to an inquiry nor a processed message stores the clock it carries, so the clock follows exactly as
long as no message is ahead of it. Then it stays above every message as long as the local rounds do
not wrap around.
-/

namespace LibEvRpc

namespace RpcCenter

/-- The election message an event handles. -/
def Event.message? : Event → Option CentersProto
  | .process _ _ centersProto =>
      if centersProto.centerAction = .inquiry ∨ centersProto.centerAction = .proposal ∨
        centersProto.centerAction = .leaderConfirm then some centersProto else none
  | .inquiryResponse _ responseProto => some responseProto
  | .proposalLeaderElection _ => none

/-- Behind an election message the clock is the larger one of its value before and the message's. -/
def ClockFollows (_ : List Event) (center : RpcCenter) (event : Event) : Prop :=
  ∀ next centersProto, center.step event = some next → event.message? = some centersProto →
    next.logicalClock = max center.logicalClock centersProto.logicalClock

def NotAhead (_ : List Event) (center : RpcCenter) (event : Event) : Prop :=
  ∀ centersProto, event.message? = some centersProto →
    centersProto.logicalClock ≤ center.logicalClock

/-- No local round starts at the largest clock. -/
def NoWrap (_ : List Event) (center : RpcCenter) (event : Event) : Prop :=
  ∀ outside, event = .proposalLeaderElection outside → center.logicalClock ≠ UInt64.ofNat (2 ^ 64 - 1)

theorem processCenterData_logicalClock {outside : Outside} {center : RpcCenter} {fd : Int32}
    {centersProto : CentersProto} {processed : Processed}
    (success : center.processCenterData outside fd centersProto = some processed) :
    processed.center.logicalClock = center.logicalClock := by
  rcases processCenterData_cases success with ⟨_, _, recorded, _, result⟩ | ⟨round, _⟩
  · rw [result, (voted_sameRound outside center recorded centersProto).logicalClock]
  · exact round.logicalClock

theorem inquiryResponse_logicalClock (center : RpcCenter) (addr : Bytes)
    (responseProto : CentersProto) :
    (center.inquiryResponse addr responseProto).logicalClock = center.logicalClock := by
  rw [inquiryResponse]
  split <;> rfl

theorem proposalLeaderElection_center (outside : Outside) (center : RpcCenter) :
    (center.proposalLeaderElection outside).1 = center.increaseLogicalClock := by
  rw [proposalLeaderElection]
  split <;> rfl

/-- The clock behind an event: moved by a local round and nothing else. -/
theorem step_logicalClock {center next : RpcCenter} {event : Event}
    (success : center.step event = some next) :
    (∃ outside, event = .proposalLeaderElection outside ∧
      next.logicalClock = center.logicalClock + 1) ∨
    (∀ outside, event ≠ .proposalLeaderElection outside) ∧
      next.logicalClock = center.logicalClock := by
  cases event with
  | process outside fd centersProto =>
    obtain ⟨processed, processing, rfl⟩ := Option.map_eq_some_iff.mp success
    exact .inr ⟨fun _ => Event.noConfusion, processCenterData_logicalClock processing⟩
  | inquiryResponse addr responseProto =>
    cases success
    exact .inr ⟨fun _ => Event.noConfusion, inquiryResponse_logicalClock center addr responseProto⟩
  | proposalLeaderElection outside =>
    cases success
    refine .inl ⟨outside, rfl, ?_⟩
    rw [proposalLeaderElection_center]
    rfl

private theorem eq_max_left_iff {own received : UInt64} : own = max own received ↔ received ≤ own := by
  change own = (if own ≤ received then received else own) ↔ received ≤ own
  split
  · next below =>
    constructor
    · rintro rfl
      exact UInt64.le_refl _
    · exact UInt64.le_antisymm below
  · next above => exact ⟨fun _ => UInt64.le_of_lt (UInt64.not_le.mp above), fun _ => rfl⟩

/-- One step: the clock follows a message exactly when the message is not ahead. -/
theorem clockFollows_iff_notAhead (before : List Event) {center next : RpcCenter} {event : Event}
    (success : center.step event = some next) :
    ClockFollows before center event ↔ NotAhead before center event := by
  constructor
  · intro follows centersProto handled
    have clock := follows next centersProto success handled
    rcases step_logicalClock success with ⟨outside, rfl, _⟩ | ⟨_, same⟩
    · contradiction
    · rw [same] at clock
      exact eq_max_left_iff.mp clock
  · intro notAhead other centersProto again handled
    rw [success, Option.some.injEq] at again
    have bound := notAhead centersProto handled
    rcases step_logicalClock success with ⟨outside, rfl, _⟩ | ⟨_, same⟩
    · contradiction
    · rw [← again, same]
      exact eq_max_left_iff.mpr bound

/-- The clock is not below any message handled so far. -/
def AboveAll (events : List Event) (center : RpcCenter) : Prop :=
  ∀ event ∈ events, ∀ centersProto, event.message? = some centersProto →
    centersProto.logicalClock ≤ center.logicalClock

theorem aboveAll_step {before : List Event} {center next : RpcCenter} {event : Event}
    (above : AboveAll before center)
    (condition : NotAhead before center event ∧ NoWrap before center event)
    (success : center.step event = some next) : AboveAll (before ++ [event]) next := by
  have grows : center.logicalClock ≤ next.logicalClock := by
    rcases step_logicalClock success with ⟨outside, same, moved⟩ | ⟨_, same⟩
    · have noWrap := condition.2 outside same
      rw [moved]
      grind
    · rw [same]
      exact UInt64.le_refl _
  intro other member centersProto handled
  rcases List.mem_append.mp member with earlier | last
  · exact UInt64.le_trans (above other earlier centersProto handled) grows
  · rw [List.mem_singleton.mp last] at handled
    exact UInt64.le_trans (condition.1 centersProto handled) grows

/-- On every run the clock follows the messages exactly when none is ahead of it, and then the
clock reached is not below any message, unless a local round wrapped around. -/
theorem run_clockFollows_iff {start final : RpcCenter} {events : List Event}
    (run : Run step start events final) :
    (Throughout step start ClockFollows events ↔ Throughout step start NotAhead events) ∧
      (Throughout step start NotAhead events → Throughout step start NoWrap events →
        AboveAll events final) := by
  constructor
  · exact run.throughout_congr fun before state event next success =>
      clockFollows_iff_notAhead before success
  · intro notAhead noWrap
    have initial : AboveAll [] start := fun event member => absurd member List.not_mem_nil
    have met : Throughout step start (fun before center event =>
        NotAhead before center event ∧ NoWrap before center event) events :=
      fun before event center front reached =>
        ⟨notAhead before event center front reached, noWrap before event center front reached⟩
    exact run.invariant initial
      (fun _ _ _ _ above condition success => aboveAll_step above condition success) met

/-- A proposal that is ahead is processed, and the clock stays behind. -/
theorem clock_not_followed :
    ∃ next, sampleCenter.step (.process sampleOutside 5
        { sampleProposal 2 3 999 with logicalClock := 7 }) = some next ∧
      next.logicalClock ≠ max sampleCenter.logicalClock 7 :=
  ⟨_, rfl, by decide⟩

/-- A local round, and a proposal of that round. -/
def sampleEvents : List Event :=
  [.proposalLeaderElection sampleOutside,
    .process sampleOutside 5 { sampleProposal 2 3 999 with logicalClock := 1 }]

theorem run_clockFollows_sample : ∃ final,
    (Throughout step sampleCenter ClockFollows sampleEvents ↔
      Throughout step sampleCenter NotAhead sampleEvents) ∧
    (Throughout step sampleCenter NotAhead sampleEvents →
      Throughout step sampleCenter NoWrap sampleEvents → AboveAll sampleEvents final) :=
  ⟨_, run_clockFollows_iff (.snoc (.snoc .nil rfl) rfl)⟩

end RpcCenter

end LibEvRpc
