import LibEvRpc.Server.LibevThreadPool

/-! # Restarts of workers

A restart looks for the worker with the id a timer recorded and leaves it alone if it has moved on. An
id that no worker has any more falls on the first worker, which is then replaced in the middle of
its request.
-/

namespace LibEvRpc

namespace LibevThreadPool

theorem restartIndex_of_mem {pool : LibevThreadPool} {threadId : UInt64} {index : ℕ}
    (distinct : ∀ i < pool.numThreads, ∀ j < pool.numThreads,
      (pool.libevThreads i).threadId = (pool.libevThreads j).threadId → i = j)
    (bound : index < pool.numThreads) (named : (pool.libevThreads index).threadId = threadId) :
    pool.restartIndex threadId = index := by
  rw [restartIndex]
  cases found : (List.range pool.numThreads).find? fun i => (pool.libevThreads i).threadId = threadId with
  | none =>
    have unnamed := List.find?_eq_none.mp found index (List.mem_range.mpr bound)
    exact absurd (decide_eq_true named) unnamed
  | some other =>
    have otherBound := List.mem_range.mp (List.mem_of_find?_eq_some found)
    have otherNamed : (pool.libevThreads other).threadId = threadId := by
      simpa using List.find?_some found
    exact distinct other otherBound index bound (otherNamed.trans named.symm)

theorem restartIndex_of_notMem {pool : LibevThreadPool} {threadId : UInt64}
    (unnamed : ∀ i < pool.numThreads, (pool.libevThreads i).threadId ≠ threadId) :
    pool.restartIndex threadId = 0 := by
  have absent : ((List.range pool.numThreads).find? fun i =>
      (pool.libevThreads i).threadId = threadId) = none := by
    apply List.find?_eq_none.mpr
    intro i member
    simpa using unnamed i (List.mem_range.mp member)
  rw [restartIndex, absent, Option.getD_none]

/-- What a restart should do: it replaces a worker only if it has the given id and has not completed
the request of the given version, otherwise nothing changes, and a second one changes nothing. -/
def RestartsOnlyNamed (pool : LibevThreadPool) (threadId : UInt64) (runningVersion : Int64)
    (created again : UInt64) : Prop :=
  ∃ restarted, pool.restartThread threadId runningVersion created = some restarted ∧
    (∀ index id, restarted.replaced = some (index, id) →
      (pool.libevThreads index).threadId = threadId ∧ id = threadId ∧
        (pool.libevThreads index).runningVersion ≤ runningVersion) ∧
    ((∀ index < pool.numThreads, (pool.libevThreads index).threadId = threadId →
      runningVersion < (pool.libevThreads index).runningVersion) → restarted = ⟨pool, none⟩) ∧
    restarted.pool.restartThread threadId runningVersion again = some ⟨restarted.pool, none⟩

/-- Nothing changes exactly when the worker that was found has completed the request. -/
theorem restartThread_eq_self_iff {pool : LibevThreadPool} {threadId created : UInt64}
    {runningVersion : Int64} :
    pool.restartThread threadId runningVersion created = some ⟨pool, none⟩ ↔
      pool.restartIndex threadId < pool.numThreads ∧
        runningVersion < (pool.libevThreads (pool.restartIndex threadId)).runningVersion := by
  rw [restartThread]
  dsimp only
  split
  · next bound =>
    split
    · next moved => exact ⟨fun _ => ⟨bound, moved⟩, fun _ => rfl⟩
    · next stuck =>
      constructor
      · intro same
        exact absurd (congrArg Restarted.replaced (Option.some.inj same)) (Option.some_ne_none _)
      · intro moved
        exact absurd moved.2 stuck
  · next outside => exact ⟨fun same => by contradiction, fun moved => absurd moved.1 outside⟩

theorem restartThread_of_stuck {pool : LibevThreadPool} {threadId : UInt64} {runningVersion : Int64}
    (created : UInt64) (bound : pool.restartIndex threadId < pool.numThreads)
    (stuck : ¬ runningVersion < (pool.libevThreads (pool.restartIndex threadId)).runningVersion) :
    pool.restartThread threadId runningVersion created =
      some ⟨pool.setThread (pool.restartIndex threadId)
        { pool.libevThreads (pool.restartIndex threadId) with threadId := created },
        some (pool.restartIndex threadId, threadId)⟩ := by
  rw [restartThread, if_pos bound]
  exact if_neg stuck

/-- A worker that has moved on is not replaced, however often that is asked. -/
theorem restartsOnlyNamed_of_moved {pool : LibevThreadPool} {threadId created : UInt64}
    {runningVersion : Int64} (again : UInt64)
    (moved : pool.restartIndex threadId < pool.numThreads ∧
      runningVersion < (pool.libevThreads (pool.restartIndex threadId)).runningVersion) :
    pool.RestartsOnlyNamed threadId runningVersion created again := by
  refine ⟨⟨pool, none⟩, restartThread_eq_self_iff.mpr moved, ?_, fun _ => rfl,
    restartThread_eq_self_iff.mpr moved⟩
  intro index id replaced
  contradiction

/-- The worker with the id is replaced, and the next search finds no worker with it. -/
theorem restartsOnlyNamed_of_stuck_iff {pool : LibevThreadPool} {threadId created : UInt64}
    {runningVersion : Int64} {i : ℕ} (again : UInt64)
    (distinct : ∀ i < pool.numThreads, ∀ j < pool.numThreads,
      (pool.libevThreads i).threadId = (pool.libevThreads j).threadId → i = j)
    (fresh : created ≠ threadId) (bound : i < pool.numThreads)
    (named : (pool.libevThreads i).threadId = threadId)
    (stuck : ¬ runningVersion < (pool.libevThreads i).runningVersion) :
    pool.RestartsOnlyNamed threadId runningVersion created again ↔
      0 < pool.numThreads ∧ runningVersion < (pool.libevThreads 0).runningVersion := by
  have found := restartIndex_of_mem distinct bound named
  have success := @restartThread_of_stuck pool threadId runningVersion created
    (found.symm ▸ bound) (found.symm ▸ stuck)
  rw [found] at success
  set restarted := pool.setThread i { pool.libevThreads i with threadId := created }
  have unnamed : ∀ j < restarted.numThreads, (restarted.libevThreads j).threadId ≠ threadId := by
    intro j otherBound
    rcases eq_or_ne j i with rfl | differ
    · rwa [setThread_self]
    · rw [setThread_ne differ]
      exact fun same => differ (distinct j otherBound i bound (same.trans named.symm))
  have first : (restarted.libevThreads 0).runningVersion = (pool.libevThreads 0).runningVersion := by
    rcases eq_or_ne 0 i with rfl | differ
    · rw [setThread_self]
    · rw [setThread_ne differ]
  have second : restarted.restartThread threadId runningVersion again = some ⟨restarted, none⟩ ↔
      0 < pool.numThreads ∧ runningVersion < (pool.libevThreads 0).runningVersion := by
    rw [restartThread_eq_self_iff, restartIndex_of_notMem unnamed, first]
    rfl
  constructor
  · rintro ⟨once, same, _, _, twice⟩
    rw [success, Option.some.injEq] at same
    subst same
    exact second.mp twice
  · intro behind
    refine ⟨_, success, ?_, ?_, second.mpr behind⟩
    · intro index id replaced
      cases replaced
      exact ⟨named, rfl, Int64.not_lt.mp stuck⟩
    · intro completed
      exact absurd (completed i bound named) stuck

/-- Without a worker of the id the first worker is replaced although it does not have it. -/
theorem not_restartsOnlyNamed {pool : LibevThreadPool} {threadId created again : UInt64}
    {runningVersion : Int64}
    (unnamed : ∀ i < pool.numThreads, (pool.libevThreads i).threadId ≠ threadId)
    (stuck : ¬ (0 < pool.numThreads ∧ runningVersion < (pool.libevThreads 0).runningVersion)) :
    ¬ pool.RestartsOnlyNamed threadId runningVersion created again := by
  have first := restartIndex_of_notMem unnamed
  rintro ⟨once, success, only, _⟩
  by_cases bound : 0 < pool.numThreads
  · rw [restartThread_of_stuck created (first.symm ▸ bound)
      (first.symm ▸ fun more => stuck ⟨bound, more⟩), Option.some.injEq] at success
    subst success
    rw [first] at only
    exact unnamed 0 bound (only 0 threadId rfl).1
  · rw [restartThread, first, if_neg bound] at success
    contradiction

/-- A restart does what it should exactly when the first worker, or the one with the given id, has
completed the request of the given version. -/
theorem restartsOnlyNamed_iff {pool : LibevThreadPool} {threadId created : UInt64}
    (runningVersion : Int64) (again : UInt64)
    (distinct : ∀ i < pool.numThreads, ∀ j < pool.numThreads,
      (pool.libevThreads i).threadId = (pool.libevThreads j).threadId → i = j)
    (fresh : created ≠ threadId) :
    pool.RestartsOnlyNamed threadId runningVersion created again ↔
      0 < pool.numThreads ∧ runningVersion < (pool.libevThreads 0).runningVersion ∨
        ∃ index < pool.numThreads, (pool.libevThreads index).threadId = threadId ∧
          runningVersion < (pool.libevThreads index).runningVersion := by
  by_cases named : ∃ i < pool.numThreads, (pool.libevThreads i).threadId = threadId
  · obtain ⟨i, bound, named⟩ := named
    have found := restartIndex_of_mem distinct bound named
    by_cases moved : runningVersion < (pool.libevThreads i).runningVersion
    · have safe := @restartsOnlyNamed_of_moved pool threadId created runningVersion again
        (found.symm ▸ ⟨bound, moved⟩)
      exact iff_of_true safe (.inr ⟨i, bound, named, moved⟩)
    · rw [restartsOnlyNamed_of_stuck_iff again distinct fresh bound named moved]
      refine (or_iff_left ?_).symm
      rintro ⟨j, otherBound, otherNamed, more⟩
      rw [distinct j otherBound i bound (otherNamed.trans named.symm)] at more
      exact moved more
  · have unnamed : ∀ i < pool.numThreads, (pool.libevThreads i).threadId ≠ threadId :=
      fun i bound same => named ⟨i, bound, same⟩
    have first := restartIndex_of_notMem unnamed
    by_cases moved : 0 < pool.numThreads ∧ runningVersion < (pool.libevThreads 0).runningVersion
    · have safe := @restartsOnlyNamed_of_moved pool threadId created runningVersion again
        (first.symm ▸ moved)
      exact iff_of_true safe (.inl moved)
    · refine iff_of_false (not_restartsOnlyNamed unnamed moved) ?_
      rintro (behind | ⟨i, bound, same, _⟩)
      · exact moved behind
      · exact unnamed i bound same

/-- Two workers with the ids 101 and 102. -/
def sampleWorkers : LibevThreadPool := start 2 fun thread => if thread = 0 then 101 else 102

/-- The second of two equal restarts cancels the id of a thread that is gone and replaces the other
worker. -/
theorem restart_twice_replaces_first : ¬ sampleWorkers.RestartsOnlyNamed 102 0 103 104 ∧
    ∃ once twice, sampleWorkers.restartThread 102 0 103 = some once ∧
      once.pool.restartThread 102 0 104 = some twice ∧
      (once.pool.libevThreads 0).threadId = 101 ∧ twice.replaced = some (0, 102) ∧
      (twice.pool.libevThreads 0).threadId = 104 := by
  refine ⟨?_, _, _, rfl, rfl, rfl, rfl, rfl⟩
  rintro ⟨once, success, _, _, twice⟩
  obtain rfl := Option.some.inj success
  have replaced := congrArg (Option.map Restarted.replaced) twice
  exact absurd replaced (by decide)

/-- A worker with the given id that has not completed the request, behind a first one that has. -/
theorem restartsOnlyNamed_iff_sample :
    (sampleWorkers.setThread 0 { sampleWorkers.libevThreads 0 with runningVersion := 1 }).RestartsOnlyNamed
      102 0 103 104 :=
  (restartsOnlyNamed_iff 0 104 (by decide) (by decide)).mpr (.inl (by decide))

end LibevThreadPool

end LibEvRpc
