import LibEvRpc.Util.Thread
import LibEvRpc.ToMathlib.Run

/-! # Starting a thread again

`Start` answers from a flag that the end of `Run` leaves set. Only a `Stop` from another thread clears
it, and only while the system still knows the thread.
-/

namespace LibEvRpc

namespace Thread

/-- The actions with which `Run` is over and the flag is still set. -/
def Action.EndsRun (action : Action) : Prop := action = .finish ∨ action = .stopSelf

/-- What a `Start` that returns true should leave behind: a thread that executes `Run`. -/
def StartsRun (thread : Thread) (action : Action) : Prop :=
  action = .start → (thread.start (succeeding true)).1 = true →
    (thread.start (succeeding true)).2.life = .running

/-- `Run` ended, and since then there was neither a `Start` nor a `Stop` that found the thread. -/
def LeftOver (actions : List Action) : Prop :=
  ∃ before ending between, actions = before ++ ending :: between ∧ ending.EndsRun ∧
    .start ∉ between ∧ .stop true ∉ between

/-- The flag is set for a running thread, and otherwise exactly for one that was left over. -/
structure FlagInvariant (actions : List Action) (thread : Thread) : Prop where
  running : thread.life = .running → thread.threadRunning
  stale : (thread.threadRunning ∧ thread.life ≠ .running) ↔ LeftOver actions

theorem not_leftOver_nil : ¬ LeftOver [] := by
  rintro ⟨before, ending, between, shape, -⟩
  exact List.append_ne_nil_of_right_ne_nil _ (List.cons_ne_nil _ _) shape.symm

theorem leftOver_of_endsRun {actions : List Action} {action : Action} (ends : action.EndsRun) :
    LeftOver (actions ++ [action]) :=
  ⟨actions, action, [], rfl, ends, List.not_mem_nil, List.not_mem_nil⟩

/-- Behind another action a thread is left over exactly when it was before and the action is neither
a `Start` nor a `Stop` that finds it. -/
theorem leftOver_concat_iff {actions : List Action} {action : Action} (goesOn : ¬ action.EndsRun) :
    LeftOver (actions ++ [action]) ↔
      LeftOver actions ∧ action ≠ .start ∧ action ≠ .stop true := by
  constructor
  · rintro ⟨before, ending, between, shape, ends, unstarted, unstopped⟩
    rcases List.eq_nil_or_concat between with rfl | ⟨earlier, last, rfl⟩
    · obtain ⟨-, same⟩ := List.append_inj' shape rfl
      cases same
      exact absurd ends goesOn
    · rw [List.concat_eq_append] at shape unstarted unstopped
      rw [← List.cons_append, ← List.append_assoc] at shape
      obtain ⟨rfl, same⟩ := List.append_inj' shape rfl
      cases same
      simp only [List.mem_append, List.mem_singleton, not_or] at unstarted unstopped
      exact ⟨⟨before, ending, earlier, rfl, ends, unstarted.1, unstopped.1⟩,
        fun same => unstarted.2 same.symm, fun same => unstopped.2 same.symm⟩
  · rintro ⟨⟨before, ending, between, rfl, ends, unstarted, unstopped⟩, differ, other⟩
    refine ⟨before, ending, between ++ [action], by rw [List.append_assoc, List.cons_append], ends,
      ?_, ?_⟩
    · simpa [unstarted] using fun same => differ same.symm
    · simpa [unstopped] using fun same => other same.symm

theorem flagInvariant_new : FlagInvariant [] new := by
  constructor
  · intro running
    cases running
  · exact iff_of_false (fun stale => Bool.false_ne_true stale.1) not_leftOver_nil

/-- A `Start` leaves a running thread behind exactly when the flag was not a left over one. -/
theorem startsRun_iff {actions : List Action} {thread : Thread} {action : Action}
    (inv : FlagInvariant actions thread) :
    thread.StartsRun action ↔ (action = .start → ¬ LeftOver actions) := by
  apply imp_congr_right
  intro
  rw [← inv.stale, start]
  cases flag : thread.threadRunning <;> simp [succeeding]

theorem isAlive_succeeding {thread : Thread} {known : Bool} (ended : thread.life ≠ .running) :
    thread.isAlive (succeeding known) = known := by
  rw [isAlive]
  cases life : thread.life with
  | running => exact absurd life ended
  | unstarted => rfl
  | ended => rfl

/-- A thread whose flag was cleared is not left over. -/
theorem flagInvariant_cleared {actions : List Action} (fresh : ¬ LeftOver actions) :
    FlagInvariant actions ⟨false, .ended⟩ := by
  refine ⟨fun running => ?_, iff_of_false (fun stale => Bool.false_ne_true stale.1) fresh⟩
  cases running

/-- A thread whose flag outlives its `Run` is left over. -/
theorem flagInvariant_leftOver {actions : List Action} {thread : Thread}
    (flag : thread.threadRunning) (left : LeftOver actions) :
    FlagInvariant actions { thread with life := .ended } := by
  refine ⟨fun _ => flag, iff_of_true ⟨flag, fun running => ?_⟩ left⟩
  cases running

theorem flagInvariant_of_step {actions : List Action} {thread next : Thread} {action : Action}
    (inv : FlagInvariant actions thread) (starts : action = .start → ¬ LeftOver actions)
    (success : thread.step action = some next) : FlagInvariant (actions ++ [action]) next := by
  cases action with
  | start =>
    have goesOn : ¬ Action.start.EndsRun := by simp [Action.EndsRun]
    have fresh := inv.stale.not.mpr (starts rfl)
    have runs : next = ⟨true, .running⟩ := by
      obtain ⟨flag, life⟩ := thread
      cases success
      cases flag with
      | true => simpa [start] using fresh
      | false => rfl
    subst runs
    refine ⟨fun _ => rfl, iff_of_false (fun stale => stale.2 rfl) ?_⟩
    rw [leftOver_concat_iff goesOn]
    exact fun left => left.2.1 rfl
  | stop known =>
    have goesOn : ¬ (Action.stop known).EndsRun := by simp [Action.EndsRun]
    cases success
    cases flag : thread.threadRunning with
    | false =>
      have same : (thread.stop (succeeding known)).2 = thread := by simp [stop, flag]
      have fresh : ¬ LeftOver actions := fun left => by simpa [flag] using (inv.stale.mpr left).1
      rw [same]
      refine ⟨inv.running, iff_of_false (fun stale => by simpa [flag] using stale.1) fun left => ?_⟩
      exact fresh ((leftOver_concat_iff goesOn).mp left).1
    | true =>
      by_cases running : thread.life = .running
      · have fresh : ¬ LeftOver actions := fun left => (inv.stale.mpr left).2 running
        have ended : (thread.stop (succeeding known)).2 = ⟨false, .ended⟩ := by
          simp [stop, isAlive, running, flag, succeeding]
        exact ended ▸ flagInvariant_cleared fun left => fresh ((leftOver_concat_iff goesOn).mp left).1
      · have left := inv.stale.mp ⟨flag, running⟩
        cases known with
        | false =>
          have same : (thread.stop (succeeding false)).2 = thread := by
            simp [stop, isAlive_succeeding running]
          rw [same]
          refine ⟨inv.running, iff_of_true ⟨flag, running⟩ ?_⟩
          exact (leftOver_concat_iff goesOn).mpr ⟨left, by simp, by simp⟩
        | true =>
          have ended : (thread.stop (succeeding true)).2 = ⟨false, .ended⟩ := by
            rw [stop, isAlive_succeeding running, flag]
            rfl
          exact ended ▸ flagInvariant_cleared fun left => ((leftOver_concat_iff goesOn).mp left).2.2 rfl
  | stopSelf =>
    obtain ⟨running, success⟩ := Option.ite_none_right_eq_some.mp success
    have flag := inv.running running
    obtain rfl : { thread with life := .ended } = next := by
      simpa [stopSelf, isAlive, running, flag, succeeding] using success
    exact flagInvariant_leftOver flag (leftOver_of_endsRun (.inr rfl))
  | finish =>
    obtain ⟨running, success⟩ := Option.ite_none_right_eq_some.mp success
    cases success
    exact flagInvariant_leftOver (inv.running running) (leftOver_of_endsRun (.inl rfl))

/-- Every `Start` of a run that returns true leaves a thread behind that executes `Run` exactly when
between each end of `Run` and the next `Start` another thread's `Stop` finds the thread. -/
theorem startsRun_throughout_iff {actions : List Action} {final : Thread}
    (run : Run step new actions final) :
    Throughout step new (fun _ thread action => thread.StartsRun action) actions ↔
      ∀ before ending between after, actions = before ++ ending :: (between ++ .start :: after) →
        ending.EndsRun → .start ∉ between → .stop true ∈ between := by
  have byHistory : Throughout step new (fun _ thread action => thread.StartsRun action) actions ↔
      Throughout step new (fun before _ action => action = .start → ¬ LeftOver before) actions :=
    run.throughout_congr_of_invariant flagInvariant_new (fun _ _ _ _ inv _ => startsRun_iff inv)
      fun _ _ _ _ inv starts success => flagInvariant_of_step inv starts success
  rw [byHistory]
  constructor
  · intro fresh before ending between after shape ends unstarted
    by_contra unstopped
    have front : before ++ ending :: between ++ [.start] <+: actions := ⟨after, by simp [shape]⟩
    obtain ⟨state, reached⟩ := run.of_prefix ((List.prefix_append _ _).trans front)
    exact fresh _ _ state front reached rfl
      ⟨before, ending, between, rfl, ends, unstarted, unstopped⟩
  · rintro stopped before action state ⟨after, shape⟩ reached rfl
    rintro ⟨earlier, ending, between, rfl, ends, unstarted, unstopped⟩
    exact unstopped (stopped earlier ending between after (by simp [← shape]) ends unstarted)

/-- A thread that ends, is stopped from outside and is then started again runs. -/
theorem startsRun_throughout_stopped :
    Throughout step new (fun _ thread action => thread.StartsRun action)
      [.start, .finish, .stop true, .start] := by
  refine (startsRun_throughout_iff
    (Run.of_isSome (by decide : ([.start, .finish, .stop true, .start].foldlM step new).isSome))).mpr ?_
  rintro before ending between after shape (rfl | rfl) unstarted
  · -- the one end of `Run` is in front of the `Stop`
    rcases before with _ | ⟨first, _ | ⟨second, _ | ⟨third, _ | ⟨fourth, before⟩⟩⟩⟩ <;> simp at shape
    cases between with
    | nil => simp at shape
    | cons next between =>
      rw [List.cons_append, List.cons.injEq] at shape
      exact shape.2.1 ▸ List.mem_cons_self
  · have absent : Action.stopSelf ∉ [.start, .finish, .stop true, .start] := by decide
    exact absurd (shape ▸ List.mem_append_right before List.mem_cons_self) absent

/-- `Start` returns true for a thread that ended by itself, and starts none. -/
theorem not_startsRun_throughout : ¬ ∀ (actions : List Action) (final : Thread),
    Run step new actions final →
      Throughout step new (fun _ thread action => thread.StartsRun action) actions := by
  intro starts
  have ended : Run step new [.start, .finish] ⟨true, .ended⟩ := .of_foldlM rfl
  have again := starts [.start, .finish, .start] _ (.of_foldlM rfl) [.start, .finish] .start _
    List.prefix_rfl ended rfl rfl
  cases again

end Thread

end LibEvRpc
