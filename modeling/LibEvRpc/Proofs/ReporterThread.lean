import LibEvRpc.Center.ReporterThread
import Mathlib.Tactic.Linarith

/-! # When the reporter starts an election

The first counter is ten less the reports that failed since the last new connection, and the second
one three less the attempts that failed at the end. Attempts are only made once the first counter is
zero, so the last of three finds exactly ten failed reports.
-/

namespace LibEvRpc

namespace ReporterTurn

/-- The turn tried to connect again and could not. -/
def reconnectFails (turn : ReporterTurn) : Bool := turn.reconnect.any fun fd => fd < 0

def reconnects (turn : ReporterTurn) : Bool := turn.reconnect.any fun fd => ¬ fd < 0

def reportFails (turn : ReporterTurn) : Bool := turn.report = some false

end ReporterTurn

/-- The reports that failed since the last new connection, or since the run began. -/
def failedReports (turns : List ReporterTurn) : ℕ :=
  (turns.reverse.takeWhile fun turn => !turn.reconnects).countP ReporterTurn.reportFails

def failedReconnects (turns : List ReporterTurn) : ℕ :=
  (turns.reverse.takeWhile ReporterTurn.reconnectFails).length

/-- The new connections of the last three turns failed, behind exactly ten failed reports. -/
def LeaderLost (turns : List ReporterTurn) : Prop :=
  (∃ earlier first second third, turns = earlier ++ [first, second, third] ∧
    first.reconnectFails ∧ second.reconnectFails ∧ third.reconnectFails) ∧ failedReports turns = 10

theorem failedReports_snoc (turns : List ReporterTurn) (turn : ReporterTurn) :
    failedReports (turns ++ [turn]) =
      if turn.reconnects then 0 else failedReports turns + if turn.reportFails then 1 else 0 := by
  rw [failedReports, List.reverse_append, List.reverse_singleton, List.singleton_append,
    List.takeWhile_cons]
  cases turn.reconnects with
  | true => rfl
  | false => exact List.countP_cons

theorem failedReconnects_snoc (turns : List ReporterTurn) (turn : ReporterTurn) :
    failedReconnects (turns ++ [turn]) =
      if turn.reconnectFails then failedReconnects turns + 1 else 0 := by
  rw [failedReconnects, List.reverse_append, List.reverse_singleton, List.singleton_append,
    List.takeWhile_cons]
  split
  · rfl
  · rfl

/-- Behind a new connection that failed one more has. -/
theorem failedReconnects_snoc_of_fails (turns : List ReporterTurn) (turn : ReporterTurn)
    (fails : turn.reconnectFails) :
    failedReconnects (turns ++ [turn]) = failedReconnects turns + 1 := by
  rw [failedReconnects_snoc, if_pos fails]

theorem three_failedReconnects_iff {turns : List ReporterTurn} :
    3 ≤ failedReconnects turns ↔
      ∃ earlier first second third, turns = earlier ++ [first, second, third] ∧
        first.reconnectFails ∧ second.reconnectFails ∧ third.reconnectFails := by
  constructor
  · intro enough
    rw [failedReconnects] at enough
    generalize shape : turns.reverse = reversed at enough
    rw [List.reverse_eq_iff] at shape
    match reversed, enough with
    | third :: second :: first :: earlier, enough =>
      refine ⟨earlier.reverse, first, second, third, by simp [shape], ?_⟩
      simp only [List.takeWhile_cons] at enough
      grind
    | [], enough => simp at enough
    | [_], enough =>
      simp only [List.takeWhile_cons, List.takeWhile_nil] at enough
      grind
    | [_, _], enough =>
      simp only [List.takeWhile_cons, List.takeWhile_nil] at enough
      grind
  · rintro ⟨earlier, first, second, third, rfl, firstFails, secondFails, thirdFails⟩
    have snocs : earlier ++ [first, second, third] = ((earlier ++ [first]) ++ [second]) ++ [third] := by
      simp
    rw [snocs, failedReconnects_snoc, failedReconnects_snoc, failedReconnects_snoc, if_pos thirdFails,
      if_pos secondFails, if_pos firstFails]
    omega

/-- What the counters say behind some turns. -/
structure Counted (turns : List ReporterTurn) (failedCnt retryTime : Int) : Prop where
  failedCnt : failedCnt = 10 - failedReports turns
  retryTime : retryTime = 3 - failedReconnects turns
  reports : failedReports turns ≤ 10
  retries : failedReconnects turns < 3
  exhausted : 0 < failedReconnects turns → failedReports turns = 10

theorem counted_nil : Counted [] 10 3 := ⟨rfl, rfl, by decide, by decide, by decide⟩

theorem Counted.not_lost {turns : List ReporterTurn} {failedCnt retryTime : Int}
    (counted : Counted turns failedCnt retryTime) : ¬ LeaderLost turns := by
  rintro ⟨lost, _⟩
  have enough := three_failedReconnects_iff.mpr lost
  have retries := counted.retries
  omega

/-- The reports that have failed behind the one of a turn. -/
structure Reported (turns : List ReporterTurn) (report : Option Bool) (reported : ℕ) : Prop where
  count : reported = failedReports turns + if report = some false then 1 else 0
  bound : reported ≤ 10
  exhausted : 0 < failedReconnects turns → reported = 10

/-- The report of a turn comes first, and the first counter counts it. -/
theorem Counted.reported {turns : List ReporterTurn} {failedCnt retryTime : Int}
    (counted : Counted turns failedCnt retryTime) (outcome : Bool) :
    ∃ (report : Option Bool) (reported : ℕ), (if failedCnt > 0 then some outcome else none) = report ∧
      (if report = some false then failedCnt - 1 else failedCnt) = 10 - (reported : Int) ∧
      Reported turns report reported := by
  obtain ⟨reports, retries, atMost, below, exhausted⟩ := counted
  by_cases positive : failedCnt > 0
  · have unfailed : ¬ 0 < failedReconnects turns := fun failed => by
      have := exhausted failed
      omega
    rw [if_pos positive]
    cases outcome with
    | true =>
      refine ⟨some true, failedReports turns, rfl, ?_, by simp, atMost, ?_⟩
      · rw [if_neg (by decide)]
        exact reports
      · exact fun failed => absurd failed unfailed
    | false =>
      refine ⟨some false, failedReports turns + 1, rfl, ?_, by simp, ?_, ?_⟩
      · rw [if_pos rfl]
        omega
      · omega
      · exact fun failed => absurd failed unfailed
  · rw [if_neg positive]
    refine ⟨none, failedReports turns, rfl, ?_, by simp, atMost, exhausted⟩
    rw [if_neg (by decide)]
    exact reports

namespace Reported

variable {turns : List ReporterTurn} {report : Option Bool} {reported : ℕ}

/-- A turn that does not connect again leaves the failed reports as they are. -/
theorem failedReports_eq (here : Reported turns report reported) (turn : ReporterTurn)
    (same : turn.report = report) (apart : turn.reconnects = false) :
    failedReports (turns ++ [turn]) = reported := by
  rw [failedReports_snoc, apart, if_neg Bool.false_ne_true, here.count, ReporterTurn.reportFails, same]
  simp

/-- With ten failed reports the third new connection that fails finds the leader lost. -/
theorem leaderLost (here : Reported turns report reported) {fd closed : Int32} {elects : Bool}
    (ten : reported = 10) (fails : fd < 0) (enough : 2 ≤ failedReconnects turns) :
    LeaderLost (turns ++ [⟨report, some fd, elects, closed⟩]) := by
  have again := failedReconnects_snoc_of_fails turns ⟨report, some fd, elects, closed⟩
    (decide_eq_true fails)
  refine ⟨three_failedReconnects_iff.mp (by omega), ?_⟩
  rw [here.failedReports_eq _ rfl (by simp [ReporterTurn.reconnects, fails]), ten]

/-- A new connection that fails costs a retry. -/
theorem counted_of_refused (here : Reported turns report reported) {fd closed : Int32}
    {elects : Bool} {retryTime : Int} (ten : reported = 10) (fails : fd < 0)
    (retries : retryTime = 3 - failedReconnects turns) (left : ¬ retryTime - 1 ≤ 0) :
    Counted (turns ++ [⟨report, some fd, elects, closed⟩]) (10 - (reported : Int))
      (retryTime - 1) := by
  have ofTurn := here.failedReports_eq ⟨report, some fd, elects, closed⟩ rfl
    (by simp [ReporterTurn.reconnects, fails])
  have again := failedReconnects_snoc_of_fails turns ⟨report, some fd, elects, closed⟩
    (decide_eq_true fails)
  constructor
  · rw [ofTurn]
  · omega
  · omega
  · omega
  · exact fun _ => ofTurn.trans ten

/-- A turn that makes no new connection leaves the retries as they are. -/
theorem counted_of_none (here : Reported turns report reported) {closed : Int32} {elects : Bool}
    {retryTime : Int} (retries : retryTime = 3 - failedReconnects turns)
    (left : ¬ 10 - (reported : Int) ≤ 0) :
    Counted (turns ++ [⟨report, none, elects, closed⟩]) (10 - (reported : Int)) retryTime := by
  have ofTurn := here.failedReports_eq ⟨report, none, elects, closed⟩ rfl rfl
  have unfailed : failedReconnects turns = 0 := by
    by_contra failed
    have ten := here.exhausted (Nat.pos_of_ne_zero failed)
    omega
  have apart : failedReconnects (turns ++ [⟨report, none, elects, closed⟩]) = 0 :=
    failedReconnects_snoc turns _
  constructor
  · rw [ofTurn]
  · omega
  · omega
  · omega
  · omega

end Reported

/-- A new connection sets both counters back. -/
theorem counted_of_reconnects (turns : List ReporterTurn) (report : Option Bool) {fd closed : Int32}
    (elects : Bool) (connected : ¬ fd < 0) :
    Counted (turns ++ [⟨report, some fd, elects, closed⟩]) 10 3 := by
  have cleared := failedReports_snoc turns ⟨report, some fd, elects, closed⟩
  have apart := failedReconnects_snoc turns ⟨report, some fd, elects, closed⟩
  rw [if_pos (show (ReporterTurn.mk report (some fd) elects closed).reconnects from
    decide_eq_true connected)] at cleared
  rw [if_neg (show ¬ (ReporterTurn.mk report (some fd) elects closed).reconnectFails from
    fun fails => connected (of_decide_eq_true fails))] at apart
  constructor
  · rw [cleared]
    rfl
  · rw [apart]
    rfl
  · omega
  · omega
  · omega

/-- A turn ends the run, or leaves the counters as they should be, or finds the leader lost and starts
an election as the last one. -/
theorem reporterLoop_cases {turns : List ReporterTurn} {failedCnt retryTime : Int}
    (counted : Counted turns failedCnt retryTime) (outside : ReporterOutside)
    (rest : List ReporterOutside) :
    reporterLoop failedCnt retryTime (outside :: rest) = [] ∨
    (∃ turn nextFailed nextRetry,
      reporterLoop failedCnt retryTime (outside :: rest) =
        turn :: reporterLoop nextFailed nextRetry rest ∧
      turn.startsElection = false ∧ Counted (turns ++ [turn]) nextFailed nextRetry) ∨
    ∃ turn, reporterLoop failedCnt retryTime (outside :: rest) = [turn] ∧
      turn.startsElection = true ∧ LeaderLost (turns ++ [turn]) := by
  obtain ⟨report, reported, reportEq, left, here⟩ := counted.reported outside.reported
  have retries := counted.retryTime
  rw [reporterLoop]
  split
  · exact .inl rfl
  right
  dsimp only
  rw [reportEq, left]
  by_cases exhausted : 10 - (reported : Int) ≤ 0
  · rw [if_pos exhausted]
    have ten : reported = 10 := by
      have bound := here.bound
      omega
    by_cases fails : outside.reconnFd < 0
    · simp only [if_pos fails]
      split
      · next lost => exact .inr ⟨_, rfl, rfl, here.leaderLost ten fails (by omega)⟩
      · next goesOn => exact .inl ⟨_, _, _, rfl, rfl, here.counted_of_refused ten fails retries goesOn⟩
    · simp only [if_neg fails]
      rw [if_neg (by decide)]
      exact .inl ⟨_, _, _, rfl, rfl, counted_of_reconnects turns report false fails⟩
  · rw [if_neg exhausted]
    exact .inl ⟨_, _, _, rfl, rfl, here.counted_of_none retries exhausted⟩

/-- An election is started exactly when the leader is lost, and the run ends with it. -/
theorem reporterLoop_spec {outsides : List ReporterOutside} {turns : List ReporterTurn}
    {failedCnt retryTime : Int} (counted : Counted turns failedCnt retryTime) :
    (∀ before turn after, reporterLoop failedCnt retryTime outsides = before ++ turn :: after →
      (turn.startsElection ↔ LeaderLost (turns ++ (before ++ [turn])))) ∧
    (reporterLoop failedCnt retryTime outsides).countP ReporterTurn.startsElection ≤ 1 := by
  induction outsides generalizing turns failedCnt retryTime with
  | nil =>
    refine ⟨fun before turn after shape => ?_, Nat.zero_le _⟩
    simp [reporterLoop] at shape
  | cons outside rest ih =>
    obtain ended | ⟨first, nextFailed, nextRetry, goesOn, quiet, next⟩ | ⟨last, ended, elects, lost⟩ :=
      reporterLoop_cases counted outside rest
    · rw [ended]
      refine ⟨fun before turn after shape => ?_, Nat.zero_le _⟩
      simp at shape
    · obtain ⟨later, once⟩ := ih next
      rw [goesOn]
      constructor
      · intro before turn after shape
        cases before with
        | nil =>
          cases shape
          rw [quiet]
          exact iff_of_false Bool.false_ne_true next.not_lost
        | cons head before =>
          obtain ⟨rfl, tail⟩ := List.cons.inj shape
          have lost := later before turn after tail
          rwa [List.append_assoc] at lost
      · rw [List.countP_cons_of_neg (by simp [quiet])]
        exact once
    · rw [ended]
      constructor
      · intro before turn after shape
        obtain ⟨rfl, rfl, _⟩ : before = [] ∧ turn = last ∧ after = [] := by
          cases before with
          | nil => simpa [eq_comm] using shape
          | cons head before => simp at shape
        rw [elects]
        exact iff_of_true rfl lost
      · exact List.countP_le_length

/-- In every run of the reporter an election is started at most once, and in a turn exactly when its new
connection fails, those of the two turns before failed, and ten reports have failed since the run began
or since the last new connection. -/
theorem reporterRun_election (reporterRunning : Bool) (outsides : List ReporterOutside) :
    (reporterRun reporterRunning outsides).countP ReporterTurn.startsElection ≤ 1 ∧
    ∀ before turn after, reporterRun reporterRunning outsides = before ++ turn :: after →
      (turn.startsElection ↔ LeaderLost (before ++ [turn])) := by
  rw [reporterRun]
  split
  · refine ⟨Nat.zero_le _, fun before turn after shape => ?_⟩
    simp at shape
  · obtain ⟨elections, once⟩ := reporterLoop_spec counted_nil
    exact ⟨once, elections⟩

/-- Ten failed reports and three failed connections. -/
example : (reporterRun true (List.replicate 20 ⟨true, -1, false, -1⟩)).map
    ReporterTurn.startsElection = List.replicate 11 false ++ [true] := by decide

end LibEvRpc
