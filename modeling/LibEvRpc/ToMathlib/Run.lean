import Mathlib.Data.List.Induction
import Mathlib.Tactic.Common

/-! # Runs of a partial step function

A run is a list of events whose steps are all defined. An invariant may speak about the events so
far, and may be preserved only by steps that meet a condition; it then holds at the end of every
run whose steps all meet the condition.
-/

variable {σ ε : Type*} {step : σ → ε → Option σ} {start : σ}

/-- The events lead from the start to a state. -/
inductive Run (step : σ → ε → Option σ) (start : σ) : List ε → σ → Prop
  | nil : Run step start [] start
  | snoc {events : List ε} {state next : σ} {event : ε} (run : Run step start events state)
      (success : step state event = some next) : Run step start (events ++ [event]) next

/-- Every step of the given events meets a condition on the events before it, its state and its
event. -/
def Throughout (step : σ → ε → Option σ) (start : σ) (condition : List ε → σ → ε → Prop)
    (events : List ε) : Prop :=
  ∀ before event state, before ++ [event] <+: events → Run step start before state →
    condition before state event

private theorem not_concat_prefix_nil {before : List ε} {event : ε} : ¬ before ++ [event] <+: [] := by
  intro front
  exact List.append_ne_nil_of_right_ne_nil _ (List.cons_ne_nil _ _) (List.prefix_nil.mp front)

theorem throughout_nil {condition : List ε → σ → ε → Prop} :
    Throughout step start condition [] :=
  fun _ _ _ front _ => absurd front not_concat_prefix_nil

/-- Some step of the given events is an occurrence of something, judged by its state and its event. -/
def Sometimes (step : σ → ε → Option σ) (start : σ) (occurrence : σ → ε → Prop) (events : List ε) :
    Prop :=
  ∃ before event state, before ++ [event] <+: events ∧ Run step start before state ∧
    occurrence state event

theorem not_sometimes_iff {occurrence : σ → ε → Prop} {events : List ε} :
    ¬ Sometimes step start occurrence events ↔
      Throughout step start (fun _ state event => ¬ occurrence state event) events := by
  constructor
  · intro never before event state front run occurs
    exact never ⟨before, event, state, front, run, occurs⟩
  · rintro never ⟨before, event, state, front, run, occurs⟩
    exact never before event state front run occurs

theorem not_sometimes_nil {occurrence : σ → ε → Prop} : ¬ Sometimes step start occurrence [] :=
  not_sometimes_iff.mpr throughout_nil

namespace Run

theorem eq_of_nil {state : σ} (run : Run step start [] state) : state = start := by
  generalize shape : ([] : List ε) = events at run
  cases run with
  | nil => rfl
  | snoc run success => exact absurd shape.symm (List.append_ne_nil_of_right_ne_nil _ (List.cons_ne_nil _ _))

/-- The last step of a run. -/
theorem last {events : List ε} {event : ε} {next : σ} (run : Run step start (events ++ [event]) next) :
    ∃ state, Run step start events state ∧ step state event = some next := by
  generalize shape : events ++ [event] = all at run
  cases run with
  | nil => exact absurd shape (List.append_ne_nil_of_right_ne_nil _ (List.cons_ne_nil _ _))
  | snoc run success =>
    obtain ⟨rfl, same⟩ := List.append_inj' shape rfl
    cases same
    exact ⟨_, run, success⟩

/-- The steps of a run can be computed one after the other. -/
theorem of_foldlM {events : List ε} {final : σ} (success : events.foldlM step start = some final) :
    Run step start events final := by
  induction events using List.reverseRecOn generalizing final with
  | nil =>
    cases success
    exact .nil
  | append_singleton events event ih =>
    rw [List.foldlM_append] at success
    obtain ⟨state, earlier, last⟩ := Option.bind_eq_some_iff.mp success
    rw [List.foldlM_cons] at last
    obtain ⟨next, success, same⟩ := Option.bind_eq_some_iff.mp last
    cases same
    exact .snoc (ih earlier) success

/-- The state that the steps compute. -/
theorem of_isSome {events : List ε} (success : (events.foldlM step start).isSome) :
    Run step start events ((events.foldlM step start).get success) :=
  of_foldlM (Option.some_get success).symm

/-- Events lead to one state. -/
theorem unique {events : List ε} {first second : σ} (run : Run step start events first)
    (other : Run step start events second) : first = second := by
  induction run generalizing second with
  | nil => exact other.eq_of_nil.symm
  | snoc run success ih =>
    obtain ⟨state, previous, again⟩ := other.last
    rw [ih previous] at success
    exact Option.some.inj (success.symm.trans again)

/-- A run passes through a state behind each of its prefixes. -/
theorem of_prefix {before events : List ε} {final : σ} (run : Run step start events final)
    (front : before <+: events) : ∃ state, Run step start before state := by
  induction run with
  | nil =>
    rw [List.prefix_nil.mp front]
    exact ⟨_, .nil⟩
  | snoc run success ih =>
    rcases List.prefix_concat_iff.mp front with rfl | shorter
    · exact ⟨_, .snoc run success⟩
    · exact ih shorter

/-- Every event of a run has a step where it occurs. -/
theorem step_of_prefix {before events : List ε} {event : ε} {state final : σ}
    (run : Run step start events final) (front : before ++ [event] <+: events)
    (reached : Run step start before state) : ∃ next, step state event = some next := by
  obtain ⟨next, longer⟩ := run.of_prefix front
  obtain ⟨same, previous, success⟩ := longer.last
  rw [reached.unique previous]
  exact ⟨next, success⟩

/-- A condition is met throughout exactly when it is before the last step and at it. -/
theorem throughout_snoc {condition : List ε → σ → ε → Prop} {events : List ε} {event : ε} {state : σ}
    (run : Run step start events state) :
    Throughout step start condition (events ++ [event]) ↔
      Throughout step start condition events ∧ condition events state event := by
  constructor
  · intro met
    refine ⟨fun before other middle front reached => ?_, met events event state List.prefix_rfl run⟩
    exact met before other middle (front.trans (List.prefix_append _ _)) reached
  · rintro ⟨met, last⟩ before other middle front reached
    rcases List.prefix_concat_iff.mp front with whole | shorter
    · obtain ⟨rfl, same⟩ := List.append_inj' whole rfl
      cases same
      rw [reached.unique run]
      exact last
    · exact met before other middle shorter reached

/-- Something occurs exactly when it did before the last step or does at it. -/
theorem sometimes_snoc {occurrence : σ → ε → Prop} {events : List ε} {event : ε} {state : σ}
    (run : Run step start events state) :
    Sometimes step start occurrence (events ++ [event]) ↔
      Sometimes step start occurrence events ∨ occurrence state event := by
  have never := @throughout_snoc _ _ _ _ (fun _ state event => ¬ occurrence state event) _ event _ run
  rw [← not_sometimes_iff, ← not_sometimes_iff, ← not_or] at never
  exact not_iff_not.mp never

/-- What holds at the start, and is preserved by every step under the condition, holds at the end
of a run that meets the condition throughout. -/
theorem invariant {condition : List ε → σ → ε → Prop} {inv : List ε → σ → Prop} {events : List ε}
    {final : σ} (run : Run step start events final) (initial : inv [] start)
    (preserved : ∀ before state event next, inv before state → condition before state event →
      step state event = some next → inv (before ++ [event]) next)
    (met : Throughout step start condition events) : inv events final := by
  induction run with
  | nil => exact initial
  | snoc run success ih =>
    obtain ⟨earlier, last⟩ := run.throughout_snoc.mp met
    exact preserved _ _ _ _ (ih earlier) last success

/-- What holds at the start and is preserved by every step holds at the end of every run. -/
theorem invariant_of_step {inv : σ → Prop} {events : List ε} {final : σ}
    (run : Run step start events final) (initial : inv start)
    (preserved : ∀ state event next, inv state → step state event = some next → inv next) :
    inv final := by
  induction run with
  | nil => exact initial
  | snoc run success ih => exact preserved _ _ _ ih success

/-- A step that is defined only under a condition. -/
def guarded (step : σ → ε → Option σ) (condition : σ → ε → Prop)
    [∀ state event, Decidable (condition state event)] (state : σ) (event : ε) : Option σ :=
  if condition state event then step state event else none

/-- A run of guarded steps is a run that meets the condition throughout. -/
theorem of_guarded {condition : σ → ε → Prop} [∀ state event, Decidable (condition state event)]
    {events : List ε} {final : σ} (run : Run (guarded step condition) start events final) :
    Run step start events final ∧ Throughout step start (fun _ => condition) events := by
  induction run with
  | nil => exact ⟨.nil, throughout_nil⟩
  | snoc run success ih =>
    obtain ⟨earlier, met⟩ := ih
    obtain ⟨here, success⟩ := Option.ite_none_right_eq_some.mp success
    exact ⟨.snoc earlier success, earlier.throughout_snoc.mpr ⟨met, here⟩⟩

/-- A test of every state that some events pass through. -/
def along (step : σ → ε → Option σ) (test : σ → Bool) : σ → List ε → Bool
  | state, [] => test state
  | state, event :: events =>
      test state && match step state event with
        | none => false
        | some next => along step test next events

/-- What was tested along the events behind a run holds in every state there. -/
theorem of_along {test : σ → Bool} {before events middle : List ε} {reached state : σ}
    (run : Run step start before reached) (tested : along step test reached events)
    (front : before <+: middle) (inside : middle <+: before ++ events)
    (passed : Run step start middle state) : test state := by
  obtain ⟨more, rfl⟩ := front
  rw [List.prefix_append_right_inj] at inside
  induction more generalizing before reached events with
  | nil =>
    rw [List.append_nil] at passed
    rw [passed.unique run]
    cases events with
    | nil => exact tested
    | cons event events => exact (Bool.and_eq_true_iff.mp tested).1
  | cons event more ih =>
    obtain ⟨rest, rfl⟩ := inside
    have later := (Bool.and_eq_true_iff.mp tested).2
    cases success : step reached event with
    | none =>
      rw [success] at later
      contradiction
    | some next =>
      rw [success] at later
      rw [List.append_cons] at passed
      exact ih (.snoc run success) later (List.prefix_append _ _) passed

/-- Conditions that agree on every defined step agree on runs. -/
theorem throughout_congr {first second : List ε → σ → ε → Prop} {events : List ε} {final : σ}
    (run : Run step start events final)
    (agree : ∀ before state event next, step state event = some next →
      (first before state event ↔ second before state event)) :
    Throughout step start first events ↔ Throughout step start second events := by
  constructor
  · intro met before event state front reached
    obtain ⟨next, success⟩ := run.step_of_prefix front reached
    exact (agree before state event next success).mp (met before event state front reached)
  · intro met before event state front reached
    obtain ⟨next, success⟩ := run.step_of_prefix front reached
    exact (agree before state event next success).mpr (met before event state front reached)

/-- Conditions that agree on every defined step from a state with an invariant, which steps under the
second one preserve, agree on runs. -/
theorem throughout_congr_of_invariant {first second : List ε → σ → ε → Prop}
    {inv : List ε → σ → Prop} {events : List ε} {final : σ} (run : Run step start events final)
    (initial : inv [] start)
    (agree : ∀ before state event next, inv before state → step state event = some next →
      (first before state event ↔ second before state event))
    (preserved : ∀ before state event next, inv before state → second before state event →
      step state event = some next → inv (before ++ [event]) next) :
    Throughout step start first events ↔ Throughout step start second events := by
  induction run with
  | nil => exact ⟨fun _ => throughout_nil, fun _ => throughout_nil⟩
  | snoc run success ih =>
    rw [run.throughout_snoc, run.throughout_snoc, ih]
    apply and_congr_right
    intro met
    exact agree _ _ _ _ (run.invariant initial preserved met) success

/-- A condition holds in every state of a run exactly when it holds at the start and behind every
step. -/
theorem forall_prefix_iff {condition : σ → Prop} {events : List ε} :
    (∀ before state, before <+: events → Run step start before state → condition state) ↔
      condition start ∧ Throughout step start
        (fun _ state event => ∀ next, step state event = some next → condition next) events := by
  constructor
  · intro holds
    refine ⟨holds [] start List.nil_prefix .nil, fun before event state front reached next success => ?_⟩
    exact holds _ next front (.snoc reached success)
  · rintro ⟨initial, preserved⟩ before state front reached
    cases reached with
    | nil => exact initial
    | snoc earlier success => exact preserved _ _ _ front earlier _ success

/-- Two conditions are met throughout exactly when both of them are. -/
theorem throughout_and {first second : List ε → σ → ε → Prop} {events : List ε} :
    Throughout step start (fun before state event => first before state event ∧
        second before state event) events ↔
      Throughout step start first events ∧ Throughout step start second events := by
  constructor
  · intro both
    exact ⟨fun before event state front reached => (both before event state front reached).1,
      fun before event state front reached => (both before event state front reached).2⟩
  · rintro ⟨one, other⟩ before event state front reached
    exact ⟨one before event state front reached, other before event state front reached⟩

end Run
