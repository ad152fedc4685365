import LibEvRpc.Server.CenterClusterHeartbeat
import LibEvRpc.ToMathlib.Run

/-! # The centers a server reports to

A server pings the centers that it got when it first registered, whatever it gets later: the new ones
are stored behind them, and the random index stays below the number of the first ones. The counter of
failed connections is the remainder of their number, so it is known how often the server registers.
-/

namespace LibEvRpc

namespace CenterClusterHeartbeat

def HasPort (config : ConfigParser) : Prop :=
  config.iniGetString centerPortKey (some defaultCenterPort) ≠ none

theorem pick_isSome {addrs : List Bytes} (nonempty : addrs ≠ []) (rand : ℕ) :
    ∃ addr, pick addrs rand = some addr := by
  have bound : rand % addrs.length < addrs.length :=
    Nat.mod_lt rand (List.length_pos_of_ne_nil nonempty)
  exact ⟨_, List.getElem?_eq_getElem bound⟩

/-- What an initialisation leaves: it stores centers behind the others if it succeeds. -/
structure Initialised (outside : InitOutside) (old new : CenterClusterHeartbeat) (ret : Bool) : Prop where
  config : new.config = old.config
  running : new.running = (ret || old.running)
  failed : ret = false → new.reporterCenterAddrs = old.reporterCenterAddrs
  stored : ret = true → ∃ crcProto, outside.received = some crcProto ∧
    new.reporterCenterAddrs = old.reporterCenterAddrs ++ crcProto.shouldReporterCenter

theorem initCenterClusterHB_spec {outside : InitOutside} {old new : CenterClusterHeartbeat} {ret : Bool}
    (success : initCenterClusterHB outside old = some (ret, new)) : Initialised outside old new ret := by
  have failure {heartbeat : CenterClusterHeartbeat} (config : heartbeat.config = old.config)
      (running : heartbeat.running = old.running)
      (addrs : heartbeat.reporterCenterAddrs = old.reporterCenterAddrs) :
      Initialised outside old heartbeat false :=
    ⟨config, running, fun _ => addrs, fun absurd => by contradiction⟩
  rw [initCenterClusterHB] at success
  split at success
  · cases success
    exact failure rfl rfl rfl
  · obtain ⟨centerPort, _, success⟩ := Option.bind_eq_some_iff.mp success
    dsimp only at success
    split at success
    · cases success
      exact failure rfl rfl rfl
    · obtain ⟨addr, _, same⟩ := Option.map_eq_some_iff.mp success
      split_ifs at same
      · cases same
        exact failure rfl rfl rfl
      · cases same
        exact failure rfl rfl rfl
      · cases same
        exact failure rfl rfl rfl
      · cases same
        exact failure rfl rfl rfl
      · split at same
        · cases same
          exact failure rfl rfl rfl
        · next crcProto received =>
          cases same
          exact ⟨rfl, rfl, fun absurd => by contradiction, fun _ => ⟨crcProto, received, rfl⟩⟩

/-- Only a null port stops the program. -/
theorem initCenterClusterHB_isSome {heartbeat : CenterClusterHeartbeat}
    (port : HasPort heartbeat.config) (outside : InitOutside) :
    ∃ result, initCenterClusterHB outside heartbeat = some result := by
  obtain ⟨centerPort, found⟩ := Option.ne_none_iff_exists'.mp port
  rw [initCenterClusterHB, found]
  split
  · exact ⟨_, rfl⟩
  · rw [Option.bind_some]
    dsimp only
    split
    · exact ⟨_, rfl⟩
    · next nonempty =>
      obtain ⟨addr, picked⟩ := pick_isSome nonempty outside.rand
      rw [picked]
      exact ⟨_, rfl⟩

theorem hasPort_of_success {outside : InitOutside} {old new : CenterClusterHeartbeat}
    (success : initCenterClusterHB outside old = some (true, new)) : HasPort old.config := by
  intro null
  rw [initCenterClusterHB, null] at success
  split at success <;> cases success

end CenterClusterHeartbeat

namespace ClusterThread

open CenterClusterHeartbeat

/-- After how many failed connections the server registers again. -/
def period (thread : ClusterThread) : ℤ := max 0 thread.shouldReinit.toInt + 1

/-- What holds between two rounds of a thread that first got some centers. -/
structure Reporting (first : List Bytes) (thread : ClusterThread) : Prop where
  looping : thread.phase = .looping
  running : thread.heartbeat.running
  port : HasPort thread.heartbeat.config
  addrs : first <+: thread.heartbeat.reporterCenterAddrs
  rcaSize : thread.rcaSize = first.length
  randomIndex : thread.randomIndex < first.length
  pinged : ∀ addr ∈ thread.pinged, addr ∈ first
  counted : thread.failures = thread.reinits * thread.period + thread.reinitCnt.toInt
  counter : 0 ≤ thread.reinitCnt.toInt ∧ thread.reinitCnt.toInt < thread.period

theorem reporting_of_start {thread next : ClusterThread} {outside : InitOutside} {rand : ℕ}
    (fresh : thread.heartbeat.reporterCenterAddrs = [] ∧ thread.pinged = [] ∧ thread.failures = 0 ∧
      thread.reinits = 0)
    (success : thread.start outside rand = some next) (looping : next.phase = .looping) :
    ∃ crcProto, outside.received = some crcProto ∧ Reporting crcProto.shouldReporterCenter next := by
  obtain ⟨noAddrs, noPings, noFailures, noReinits⟩ := fresh
  obtain ⟨⟨ret, heartbeat⟩, initialised, success⟩ := Option.bind_eq_some_iff.mp success
  have spec := initCenterClusterHB_spec initialised
  dsimp only at success
  cases ret with
  | false =>
    cases success
    contradiction
  | true =>
    obtain ⟨crcProto, received, addrs⟩ := spec.stored rfl
    rw [noAddrs, List.nil_append] at addrs
    have port := hasPort_of_success initialised
    rw [if_neg (by decide)] at success
    split at success
    · cases success
      contradiction
    · next nonempty =>
      obtain ⟨shouldReinit, _, rfl⟩ := Option.map_eq_some_iff.mp success
      refine ⟨crcProto, received, rfl, spec.running, spec.config ▸ port, ?_, ?_, ?_, ?_, ?_, ?_⟩
      · rw [← addrs]
      · rw [← addrs]
      · rw [← addrs]
        exact Nat.mod_lt rand (List.length_pos_of_ne_nil nonempty)
      · rw [noPings]
        exact fun _ member => absurd member List.not_mem_nil
      · simp [noFailures, noReinits]
      · change 0 ≤ (0 : Int32).toInt ∧ (0 : Int32).toInt < max 0 shouldReinit.toInt + 1
        rw [Int32.toInt_zero]
        omega

/-- A counter below its largest value is increased. -/
theorem toInt_add_one {counter : Int32} (below : counter ≠ Int32.maxValue) :
    (counter + 1).toInt = counter.toInt + 1 := by
  have top : counter.toInt ≠ 2 ^ 31 - 1 := fun same => below (Int32.toInt_inj.mp same)
  have bound := counter.toInt_lt
  have lower := counter.le_toInt
  rw [Int32.toInt_add, Int32.toInt_one]
  apply Int.bmod_eq_of_le <;> omega

/-- A failed connection is counted, and the counter starts again at the end of a period. -/
theorem Reporting.counts {first : List Bytes} {thread : ClusterThread} (reporting : Reporting first thread) :
    (thread.shouldReinit.toInt < thread.reinitCnt.toInt + 1 →
      thread.reinitCnt.toInt + 1 = thread.period) ∧
    (¬ thread.shouldReinit.toInt < thread.reinitCnt.toInt + 1 →
      thread.reinitCnt.toInt + 1 < thread.period) := by
  have counter := reporting.counter
  rw [period] at counter ⊢
  omega

theorem Reporting.reconnect {first : List Bytes} {thread next : ClusterThread} {reinit : InitOutside}
    {rand : ℕ} (reporting : Reporting first thread)
    (success : thread.reconnect reinit rand = some next) : Reporting first next := by
  obtain ⟨below, success⟩ := Option.ite_none_left_eq_some.mp success
  have increased := toInt_add_one below
  have counted := reporting.counted
  have counter := reporting.counter
  have index : rand % thread.rcaSize < first.length := by
    rw [reporting.rcaSize]
    exact Nat.mod_lt rand (Nat.zero_lt_of_lt reporting.randomIndex)
  dsimp only at success
  split at success
  · next tooOften =>
    obtain ⟨⟨ret, heartbeat⟩, initialised, rfl⟩ := Option.map_eq_some_iff.mp success
    have spec := initCenterClusterHB_spec initialised
    have more : thread.heartbeat.reporterCenterAddrs <+: heartbeat.reporterCenterAddrs := by
      cases ret with
      | false => rw [spec.failed rfl]
      | true =>
        obtain ⟨crcProto, _, addrs⟩ := spec.stored rfl
        rw [addrs]
        exact List.prefix_append _ _
    have full := reporting.counts.1 (increased ▸ Int32.lt_iff_toInt_lt.mp tooOften)
    refine ⟨reporting.looping, ?_, ?_, reporting.addrs.trans more, reporting.rcaSize, index,
      reporting.pinged, ?_, ?_⟩
    · dsimp only
      rw [spec.running, reporting.running, Bool.or_true]
    · dsimp only
      rw [spec.config]
      exact reporting.port
    · change ((thread.failures + 1 : ℕ) : ℤ) = ((thread.reinits + 1 : ℕ) : ℤ) * thread.period + 0
      push_cast
      rw [add_mul]
      omega
    · change 0 ≤ (0 : ℤ) ∧ 0 < thread.period
      omega
  · next stays =>
    cases success
    have room := reporting.counts.2 (increased ▸ fun less => stays (Int32.lt_iff_toInt_lt.mpr less))
    refine ⟨reporting.looping, reporting.running, reporting.port, reporting.addrs, reporting.rcaSize,
      index, reporting.pinged, ?_, ?_⟩
    · change ((thread.failures + 1 : ℕ) : ℤ) =
        thread.reinits * thread.period + (thread.reinitCnt + 1).toInt
      push_cast
      omega
    · change 0 ≤ (thread.reinitCnt + 1).toInt ∧ (thread.reinitCnt + 1).toInt < thread.period
      omega

theorem Reporting.runRound {first : List Bytes} {thread next : ClusterThread} {round : Round}
    {reinit : InitOutside} {rand : ℕ} (reporting : Reporting first thread)
    (success : thread.runRound round reinit rand = some next) : Reporting first next := by
  rw [ClusterThread.runRound] at success
  split at success
  · cases success
    exact reporting
  split at success
  · cases success
    exact reporting
  · obtain ⟨addr, found, success⟩ := Option.bind_eq_some_iff.mp success
    have inFirst : addr ∈ first := by
      obtain ⟨later, whole⟩ := reporting.addrs
      rw [← whole, List.getElem?_append_left reporting.randomIndex] at found
      exact List.mem_of_getElem? found
    have pinged : Reporting first { thread with pinged := thread.pinged ++ [addr] } := by
      refine { reporting with pinged := fun other member => ?_ }
      rcases List.mem_append.mp member with old | new
      · exact reporting.pinged other old
      · exact List.mem_singleton.mp new ▸ inFirst
    dsimp only at success
    split at success
    · exact pinged.reconnect success
    · cases success
      exact pinged

/-- A round of a thread that reports goes on, unless its counter overflows. -/
theorem Reporting.isSome_runRound {first : List Bytes} {thread : ClusterThread}
    (reporting : Reporting first thread) (bounded : thread.shouldReinit ≠ Int32.maxValue)
    (round : Round) (reinit : InitOutside) (rand : ℕ) :
    ∃ next, thread.runRound round reinit rand = some next := by
  have below : thread.reinitCnt ≠ Int32.maxValue := by
    intro top
    have counter := reporting.counter.2
    have other : thread.shouldReinit.toInt ≠ 2 ^ 31 - 1 := fun same => bounded (Int32.toInt_inj.mp same)
    have bound := thread.shouldReinit.toInt_lt
    have value : Int32.maxValue.toInt = 2 ^ 31 - 1 := rfl
    rw [top, value, period] at counter
    omega
  have inside : thread.randomIndex < thread.heartbeat.reporterCenterAddrs.length :=
    reporting.randomIndex.trans_le reporting.addrs.length_le
  rw [ClusterThread.runRound, List.getElem?_eq_getElem inside, Option.bind_some]
  split
  · exact ⟨_, rfl⟩
  split
  · exact ⟨_, rfl⟩
  dsimp only
  split
  · rw [ClusterThread.reconnect, if_neg below]
    dsimp only
    split
    · obtain ⟨result, initialised⟩ := initCenterClusterHB_isSome reporting.port reinit
      rw [initialised]
      exact ⟨_, rfl⟩
    · exact ⟨_, rfl⟩
  · exact ⟨_, rfl⟩

/-- What holds in every reachable state, with the steps so far. -/
structure Inv (config : ConfigParser) (actions : List Action) (thread : ClusterThread) : Prop where
  unstarted : thread.phase = .unstarted → thread = init config ∧ actions = []
  looping : thread.phase = .looping → ∃ outside rand rest crcProto, actions = .start outside rand :: rest ∧
    outside.received = some crcProto ∧ Reporting crcProto.shouldReporterCenter thread

theorem start_phase {thread next : ClusterThread} {outside : InitOutside} {rand : ℕ}
    (success : thread.start outside rand = some next) : next.phase ≠ .unstarted := by
  obtain ⟨⟨ret, heartbeat⟩, _, success⟩ := Option.bind_eq_some_iff.mp success
  dsimp only at success
  split_ifs at success
  · cases success
    rintro ⟨⟩
  · cases success
    rintro ⟨⟩
  · obtain ⟨shouldReinit, _, rfl⟩ := Option.map_eq_some_iff.mp success
    rintro ⟨⟩

theorem inv_step {config : ConfigParser} {actions : List Action} {thread next : ClusterThread}
    {action : Action} (inv : Inv config actions thread) (success : thread.step action = some next) :
    Inv config (actions ++ [action]) next := by
  cases action with
  | start outside rand =>
    obtain ⟨unstarted, success⟩ := Option.ite_none_right_eq_some.mp success
    obtain ⟨rfl, rfl⟩ := inv.unstarted unstarted
    refine ⟨fun again => absurd again (start_phase success), fun looping => ?_⟩
    obtain ⟨crcProto, received, reporting⟩ :=
      reporting_of_start ⟨rfl, rfl, rfl, rfl⟩ success looping
    exact ⟨outside, rand, [], crcProto, rfl, received, reporting⟩
  | round round reinit rand =>
    obtain ⟨⟨looping, _⟩, success⟩ := Option.ite_none_right_eq_some.mp success
    obtain ⟨outside, first, rest, crcProto, rfl, received, reporting⟩ := inv.looping looping
    have kept := reporting.runRound success
    refine ⟨fun unstarted => ?_, fun _ => ⟨outside, first, _, crcProto, rfl, received, kept⟩⟩
    rw [kept.looping] at unstarted
    contradiction

theorem inv_run {config : ConfigParser} {actions : List Action} {thread : ClusterThread}
    (run : Run step (init config) actions thread) : Inv config actions thread := by
  have both := @Run.invariant _ _ _ _ (fun _ _ _ => True) (fun actions thread => Inv config actions thread)
    _ _ run ⟨fun _ => ⟨rfl, rfl⟩, fun looping => by contradiction⟩
  apply both
  · intro before thread action next inv _ success
    exact inv_step inv success
  · intro before action thread _ _
    trivial

/-- A server that reports pings only centers of the first answer it got, however often it registers
again, which it does once in every period of failed connections. None of its rounds ends the program. -/
theorem run_reporting {config : ConfigParser} {actions : List Action} {thread : ClusterThread}
    (run : Run step (init config) actions thread) (looping : thread.phase = .looping) :
    ∃ outside rand rest crcProto, actions = .start outside rand :: rest ∧
      outside.received = some crcProto ∧ (∀ addr ∈ thread.pinged, addr ∈ crcProto.shouldReporterCenter) ∧
      (thread.reinits : ℤ) = thread.failures / thread.period ∧
      (thread.shouldReinit ≠ Int32.maxValue → ∀ round reinit rand,
        ∃ next, thread.step (.round round reinit rand) = some next) := by
  obtain ⟨outside, rand, rest, crcProto, same, received, reporting⟩ := (inv_run run).looping looping
  refine ⟨outside, rand, rest, crcProto, same, received, reporting.pinged, ?_, ?_⟩
  · have counted := reporting.counted
    obtain ⟨lower, upper⟩ := reporting.counter
    have positive : 0 < thread.period := by omega
    have divided := (Int.ediv_emod_unique positive).mpr
      ⟨show thread.reinitCnt.toInt + thread.period * thread.reinits = thread.failures by
        rw [counted, mul_comm, add_comm], lower, upper⟩
    exact divided.1.symm
  · intro bounded round reinit rand
    obtain ⟨next, success⟩ := reporting.isSome_runRound bounded round reinit rand
    exact ⟨next, (if_pos ⟨reporting.looping, reporting.running⟩).trans success⟩

/-- A server that does not reach the center it was given, and registers again in vain. -/
def sampleRun : List Action :=
  let outside : InitOutside :=
    { lines := some [[97], [98]]
      localAddr := [99]
      rand := 1
      tcpConnect := fun _ => 7
      serializes := true
      sendRet := 0
      recvRet := 102
      received := some { shouldReporterCenter := [[97]] } }
  .start outside 3 :: List.replicate 11 (.round ⟨0, true, fun _ => -1⟩ { outside with lines := none } 5)

theorem run_reporting_sample : ∃ thread, Run step (init ⟨none⟩) sampleRun thread ∧
    thread.phase = .looping ∧ (thread.reinits : ℤ) = thread.failures / thread.period := by
  have reached : ((sampleRun.foldlM step (init ⟨none⟩)).map ClusterThread.phase) = some .looping := by
    decide +kernel
  obtain ⟨thread, success, looping⟩ := Option.map_eq_some_iff.mp reached
  obtain ⟨_, _, _, _, _, _, _, counted, _⟩ := run_reporting (Run.of_foldlM success) looping
  exact ⟨thread, Run.of_foldlM success, looping, counted⟩

end ClusterThread

end LibEvRpc
