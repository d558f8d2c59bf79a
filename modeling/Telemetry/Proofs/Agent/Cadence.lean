/-
Collection does not depend on delivery. An agent that is set going polls and reports by its timetable
as long as the clock jumps over no moment that somebody waits for, whatever its transport, its retry
policy and its workers are (`collection_by_timetable`).

The invariant `OnSchedule` counts the polls and the reports made so far. The steps that deliver cannot
touch what it speaks of; a step of the agent's own task brings the next poll or the next report, and
the clock stays between the last tick and the next one of each timer.
-/
import Telemetry.Proofs.Agent.Timetable

namespace Telemetry.Agent

open Sampling (Sampler)

/-- What may happen to an agent that is left to itself until `time`: its tasks take steps in any order,
the clock jumps over no moment that somebody waits for, and the signal comes at `time`. -/
def undisturbed (time : Time) (a : Agent) : Event → Bool
  | .work _ => true
  | .wait t => a.timers.all (fun u => decide (t ≤ u)) && (a.shared.cancelled || decide (t ≤ time))
  | .ask .cancel => a.now == time
  | .ask _ => false

/-- A moment that does not come before the `n`-th tick nor after the next one. -/
def Between (period : Span) (n : Nat) (time : Time) : Prop :=
  n * period ≤ time ∧ time ≤ (n + 1) * period

/-- An agent that has made `k` polls and looked `m` times whether there is something to report. -/
structure OnSchedule (t : Schedule) (sampler : Sampler) (time : Time) (k m : Nat) (a : Agent) : Prop where
  sampled : a.sampler = sampler.later k
  polls : a.ledger.polls = (List.range' 1 k).map fun j => (j * t.poll, sampler.reading j)
  reports : a.ledger.reports = (List.range' 1 m).filterMap (t.report? sampler)
  flushes : a.ledger.flushes = a.ledger.reports.map (·.2)
  ahead : m * t.report / t.poll ≤ k
  pending : a.pending.map (·.snapshot) =
    (List.range' (m * t.report / t.poll + 1) (k - m * t.report / t.poll)).map sampler.reading
  before : a.shared.cancelled = false →
    a.course = .running ⟨t.poll, (k + 1) * t.poll⟩ ⟨t.report, (m + 1) * t.report⟩ ∧
      Between t.poll k a.now ∧ Between t.report m a.now ∧ a.now ≤ time
  after : a.shared.cancelled = true → Between t.poll k time ∧ Between t.report m time

variable {t : Schedule} {sampler : Sampler} {time : Time} {s : AgentSettings} {k m : Nat} {a b : Agent}

/-- A timer that goes off in time waits for the next moment of its row. -/
theorem Ticker.tick_in_time {period : Span} {n : Nat} {now : Time} (h : Between period n now)
    (due : Ticker.isDue ⟨period, (n + 1) * period⟩ now = true) :
    now = (n + 1) * period ∧
      Ticker.tick ⟨period, (n + 1) * period⟩ now = ⟨period, (n + 1 + 1) * period⟩ := by
  have next : now = (n + 1) * period := Nat.le_antisymm h.2 (by simpa [Ticker.isDue] using due)
  refine ⟨next, ?_⟩
  unfold Ticker.tick
  have inTime : ¬ (n + 1) * period + Ticker.tolerance < now := by
    rw [← next]
    exact Nat.not_lt.2 (Nat.le_add_right now _)
  rw [if_neg inTime, Nat.succ_mul (n + 1)]

namespace OnSchedule

theorem of_sameCollection (h : OnSchedule t sampler time k m a) (same : SameCollection a b) :
    OnSchedule t sampler time k m b where
  sampled := same.sampler.trans h.sampled
  polls := same.ledger ▸ h.polls
  reports := same.ledger ▸ h.reports
  flushes := same.ledger ▸ h.flushes
  ahead := h.ahead
  pending := same.pending.trans h.pending
  before := by
    rw [same.signal, same.course, same.now]
    exact h.before
  after := by
    rw [same.signal]
    exact h.after

/-- The next poll. -/
theorem poll (h : OnSchedule t sampler time k m a) {poll report : Ticker}
    (course : a.course = .running poll report) (signal : a.shared.cancelled = false)
    (due : poll.isDue a.now = true) :
    OnSchedule t sampler time (k + 1) m { a.poll with course := .running (poll.tick a.now) report } := by
  obtain ⟨running, polls, reports, early⟩ := h.before signal
  rw [course] at running
  cases running
  -- the clock has not passed the tick, so the timer goes off on time and keeps its beat
  obtain ⟨now, ticked⟩ := Ticker.tick_in_time polls due
  have snapshot := Sampler.snapshot_later sampler k
  have ahead := h.ahead
  refine ⟨?_, ?_, ?_, ?_, Nat.le_succ_of_le ahead, ?_, fun _ => ⟨?_, ?_, reports, early⟩, ?_⟩
  · show a.sampler.snapshot.2 = _
    rw [h.sampled, snapshot]
  · show Journal.polls (.polled a.now a.sampler.snapshot.1 :: a.shared.journal) = _
    rw [Journal.polls_polled, h.sampled, snapshot, now, List.range'_1_concat, List.map_append,
      ← h.polls, Nat.add_comm 1 k]
    rfl
  · show Journal.reports (.polled _ _ :: a.shared.journal) = _
    rw [Journal.reports_polled]
    exact h.reports
  · show _ = (Journal.reports (.polled _ _ :: a.shared.journal)).map (·.2)
    rw [Journal.reports_polled]
    exact h.flushes
  · show (a.pending ++ [Stage.Source.ofSnapshot a.sampler.snapshot.1]).map (·.snapshot) = _
    rw [List.map_append, h.pending, h.sampled, snapshot, Nat.succ_sub ahead, List.range'_1_concat,
      List.map_append, show m * t.report / t.poll + 1 + (k - m * t.report / t.poll) = k + 1 by omega]
    rfl
  · rw [ticked]
  · show Between t.poll (k + 1) a.now
    rw [now]
    exact ⟨Nat.le_refl _, Nat.mul_le_mul_right _ (Nat.le_succ _)⟩
  · intro cancelled
    rw [show a.shared.cancelled = true from cancelled] at signal
    cases signal

/-- What is handed on when the report timer goes off: the polls that belong to the report. -/
theorem due_report (h : OnSchedule t sampler time k m a) (pos : 0 < t.poll) {poll report : Ticker}
    (course : a.course = .running poll report) (signal : a.shared.cancelled = false)
    (early : poll.isDue a.now = false) (due : report.isDue a.now = true) :
    (a.now = (m + 1) * t.report ∧
      Course.running poll (report.tick a.now) =
        .running ⟨t.poll, (k + 1) * t.poll⟩ ⟨t.report, (m + 1 + 1) * t.report⟩) ∧
      (m + 1) * t.report / t.poll = k ∧ a.pending.map (·.snapshot) = (t.window (m + 1)).map sampler.reading := by
  obtain ⟨running, polls, reports, -⟩ := h.before signal
  rw [course] at running
  cases running
  obtain ⟨now, ticked⟩ := Ticker.tick_in_time reports due
  have notYet : a.now < (k + 1) * t.poll := by simpa [Ticker.isDue] using early
  -- at one moment the poll goes first, so all polls up to the report have been made
  have count : (m + 1) * t.report / t.poll = k := by
    rw [← now]
    exact Nat.div_eq_of_lt_le polls.1 notYet
  refine ⟨⟨now, by rw [ticked]⟩, count, ?_⟩
  rw [h.pending, Schedule.window_succ pos, count]

/-- The report timer goes off: what is there to report is handed on, and the next report is waited for. -/
theorem report (h : OnSchedule t sampler time k m a) (pos : 0 < t.poll) {poll report : Ticker}
    (course : a.course = .running poll report) (signal : a.shared.cancelled = false)
    (early : poll.isDue a.now = false) (due : report.isDue a.now = true) {pending : List Stage.Source}
    {journal : Journal} {drains : List Pool.Drain} (nothing : pending = [])
    (polls : journal.polls = a.shared.journal.polls)
    (reports : journal.reports = a.shared.journal.reports ++ (t.report? sampler (m + 1)).toList)
    (flushes : drains.map (·.snapshots) =
      a.drains.map (·.snapshots) ++ (t.report? sampler (m + 1)).toList.map (·.2)) :
    OnSchedule t sampler time k (m + 1) { a with
      shared := { a.shared with journal }, pending, drains
      course := .running poll (report.tick a.now) } := by
  obtain ⟨⟨now, next⟩, count, -⟩ := h.due_report pos course signal early due
  obtain ⟨-, between, -, inTime⟩ := h.before signal
  have made : journal.reports = (List.range' 1 (m + 1)).filterMap (t.report? sampler) := by
    rw [reports, filterMap_range'_succ, ← h.reports]
    rfl
  refine ⟨h.sampled, polls.trans h.polls, made, ?_, Nat.le_of_eq count, ?_, fun _ => ?_, ?_⟩
  · show drains.map (·.snapshots) = journal.reports.map (·.2)
    rw [flushes, reports, List.map_append]
    exact congrArg (· ++ _) h.flushes
  · show pending.map (·.snapshot) = _
    rw [nothing, count, Nat.sub_self]
    rfl
  · refine ⟨next, between, ?_, inTime⟩
    show Between t.report (m + 1) a.now
    rw [now]
    exact ⟨Nat.le_refl _, Nat.mul_le_mul_right _ (Nat.le_succ _)⟩
  · intro cancelled
    rw [show a.shared.cancelled = true from cancelled] at signal
    cases signal

/-- Once the signal has come, only the course of the own task can change. -/
theorem turn (h : OnSchedule t sampler time k m a) (signal : a.shared.cancelled = true) (course : Course) :
    OnSchedule t sampler time k m { a with course } where
  sampled := h.sampled
  polls := h.polls
  reports := h.reports
  flushes := h.flushes
  ahead := h.ahead
  pending := h.pending
  before := by
    intro off
    rw [show a.shared.cancelled = false from off] at signal
    cases signal
  after := h.after

/-- The clock moves on, and not beyond the next tick of either timer. -/
theorem wait (h : OnSchedule t sampler time k m a) {moment : Time}
    (allowed : undisturbed time a (.wait moment) = true) : OnSchedule t sampler time k m (a.advance moment) := by
  rw [undisturbed, Bool.and_eq_true, List.all_eq_true] at allowed
  obtain ⟨waited, inTime⟩ := allowed
  refine ⟨h.sampled, h.polls, h.reports, h.flushes, h.ahead, h.pending, fun off => ?_, h.after⟩
  have signal : a.shared.cancelled = false := off
  obtain ⟨course, polls, reports, now⟩ := h.before signal
  have notBeyond : ∀ next ∈ [(k + 1) * t.poll, (m + 1) * t.report], moment ≤ next := by
    intro next hn
    refine of_decide_eq_true (waited next (List.mem_append_left _ ?_))
    rw [course]
    exact hn
  rw [signal, Bool.false_or, decide_eq_true_iff] at inTime
  have beforePoll := notBeyond _ List.mem_cons_self
  have beforeReport := notBeyond _ (List.mem_cons_of_mem _ List.mem_cons_self)
  refine ⟨course, ⟨?_, ?_⟩, ⟨?_, ?_⟩, ?_⟩
  · exact Nat.le_trans polls.1 (Nat.le_max_left _ _)
  · exact Nat.max_le.2 ⟨polls.2, beforePoll⟩
  · exact Nat.le_trans reports.1 (Nat.le_max_left _ _)
  · exact Nat.max_le.2 ⟨reports.2, beforeReport⟩
  · exact Nat.max_le.2 ⟨now, inTime⟩

/-- The signal comes. -/
theorem cancel (h : OnSchedule t sampler time k m a) (now : a.now = time) :
    OnSchedule t sampler time k m (a.request s .cancel) := by
  refine ⟨h.sampled, h.polls, h.reports, h.flushes, h.ahead, h.pending, fun off => ?_, fun _ => ?_⟩
  · cases off
  · cases signal : a.shared.cancelled with
    | true => exact h.after signal
    | false =>
      obtain ⟨-, polls, reports, -⟩ := h.before signal
      rw [← now]
      exact ⟨polls, reports⟩

/-- Every event that may happen keeps the agent on schedule, with at most one poll or report more. -/
theorem next (h : OnSchedule t sampler time k m a) (pos : 0 < t.poll) {e : Event}
    (allowed : undisturbed time a e = true) (step : a.after? s e = some b) :
    ∃ k' m', OnSchedule t sampler time k' m' b := by
  cases e with
  | wait moment => cases step; exact ⟨k, m, h.wait allowed⟩
  | ask request =>
    cases request with
    | cancel => cases step; exact ⟨k, m, h.cancel (by simpa [undisturbed] using allowed)⟩
    | _ => cases allowed
  | work task =>
    cases task with
    | feed i => exact ⟨k, m, h.of_sameCollection ((change_of_after step).ledger_of_delivers rfl)⟩
    | drain n task => exact ⟨k, m, h.of_sameCollection ((change_of_after step).ledger_of_delivers rfl)⟩
    | own =>
      cases ownMove_of_ownStep step with
      | close course signal => exact ⟨k, m, h.turn signal _⟩
      | poll course signal due => exact ⟨k + 1, m, h.poll course signal due⟩
      | pass course signal early due nothing =>
        -- the window is empty, so no report was expected
        obtain ⟨-, -, left⟩ := h.due_report pos course signal early due
        rw [nothing] at left
        have silent : t.report? sampler (m + 1) = none := if_pos (List.map_eq_nil_iff.1 left.symm)
        refine ⟨k, m + 1, h.report pos course signal early due nothing rfl ?_ ?_⟩
        · rw [silent]
          exact (List.append_nil _).symm
        · rw [silent]
          exact (List.append_nil _).symm
      | report course signal early due nonempty =>
        obtain ⟨⟨now, -⟩, -, left⟩ := h.due_report pos course signal early due
        have made : t.report? sampler (m + 1) = some (a.now, a.pending.map (·.snapshot)) := by
          rw [left, now]
          refine if_neg fun empty => nonempty ?_
          rw [empty] at left
          exact List.map_eq_nil_iff.1 left
        refine ⟨k, m + 1, h.report pos course signal early due rfl (Journal.polls_reported _ _ _) ?_ ?_⟩
        · rw [made]
          exact Journal.reports_reported _ _ _
        · rw [made]
          show (a.drains ++ [_]).map Pool.Drain.snapshots = _
          rw [List.map_append, List.map_singleton, Pool.Drain.snapshots_ofSources]
          rfl
      | stop course quiet =>
        cases signal : a.shared.cancelled with
        | true => exact ⟨k, m, h.turn signal _⟩
        | false =>
          obtain ⟨running, -⟩ := h.before signal
          rw [course] at running
          cases running

end OnSchedule

/-! ## Runs by the timetable -/

/-- An agent whose timers could be started is on schedule from the beginning. -/
theorem onSchedule_of_launch {workers : Nat} {uptime : Span}
    (launched : (Agent.initial workers sampler).launch t uptime = some a) :
    0 < t.poll ∧ OnSchedule t sampler time 0 0 a ∧ a.PendingAreWhole := by
  obtain ⟨usable, rfl⟩ := launch_eq_some_iff.1 launched
  refine ⟨Schedule.poll_pos_of_isUsable usable, ?_, fun _ source hs => by cases hs⟩
  refine ⟨(Sampler.later_zero sampler).symm, rfl, rfl, rfl, ?_, ?_, fun _ => ⟨?_, ?_, ?_, ?_⟩, fun off => ?_⟩
  · exact Nat.le_of_eq (by rw [Nat.zero_mul, Nat.zero_div])
  · rw [Nat.zero_mul, Nat.zero_div]
    rfl
  · show Course.running ⟨t.poll, 0 + t.poll⟩ ⟨t.report, 0 + t.report⟩ = _
    rw [Nat.zero_add, Nat.zero_add, Nat.one_mul, Nat.one_mul]
  · exact ⟨Nat.le_of_eq (Nat.zero_mul _), Nat.zero_le _⟩
  · exact ⟨Nat.le_of_eq (Nat.zero_mul _), Nat.zero_le _⟩
  · exact Nat.zero_le _
  · cases off

theorem onSchedule_of_reaches {workers : Nat} {uptime : Span} {a₀ : Agent}
    (launched : (Agent.initial workers sampler).launch t uptime = some a₀)
    (run : Reaches s (undisturbed time) a₀ a) :
    (∃ k m, OnSchedule t sampler time k m a) ∧ a.PendingAreWhole := by
  obtain ⟨pos, first, whole⟩ := onSchedule_of_launch launched
  refine run.keeps (fun a => (∃ k m, OnSchedule t sampler time k m a) ∧ a.PendingAreWhole)
    ⟨⟨0, 0, first⟩, whole⟩ ?_
  rintro b e c ⟨⟨k, m, h⟩, whole⟩ allowed step
  exact ⟨h.next pos allowed step, (change_of_after step).pendingAreWhole whole⟩

/-- A moment beside the ticks of a timer comes after one of them and before the next. -/
theorem Between.strict {period : Span} {n : Nat} (h : Between period n time) (aside : ¬ period ∣ time) :
    n * period < time ∧ time < (n + 1) * period := by
  constructor
  · refine Nat.lt_of_le_of_ne h.1 fun onTick => aside ⟨n, ?_⟩
    rw [← onTick, Nat.mul_comm]
  · refine Nat.lt_of_le_of_ne h.2 fun onTick => aside ⟨n + 1, ?_⟩
    rw [onTick, Nat.mul_comm]

/-- When the signal has come beside the ticks of both timers, the agent has collected and handed on
what its timetable says, and nothing else. -/
theorem ledger_of_reaches {workers : Nat} {uptime : Span} {a₀ : Agent}
    (aside : ¬ t.poll ∣ time ∧ ¬ t.report ∣ time)
    (launched : (Agent.initial workers sampler).launch t uptime = some a₀)
    (run : Reaches s (undisturbed time) a₀ a) (signal : a.shared.cancelled = true) :
    0 < t.poll ∧ ∃ m, Span.ticks t.report time = List.range' 1 m ∧ a.ledger = t.ledger sampler time := by
  have pos : 0 < t.poll :=
    (onSchedule_of_launch launched : _ ∧ OnSchedule t sampler time 0 0 a₀ ∧ _).1
  obtain ⟨⟨k, m, h⟩, -⟩ := onSchedule_of_reaches launched run
  obtain ⟨polls, reports⟩ := h.after signal
  obtain ⟨afterPoll, beforePoll⟩ := polls.strict aside.1
  obtain ⟨afterReport, beforeReport⟩ := reports.strict aside.2
  have reportPos : 0 < t.report := by
    refine Nat.pos_of_ne_zero fun zero => ?_
    rw [zero, Nat.mul_zero] at beforeReport
    exact Nat.not_lt_zero _ beforeReport
  have pollTicks := Span.ticks_eq pos afterPoll beforePoll
  have reportTicks := Span.ticks_eq reportPos afterReport beforeReport
  refine ⟨pos, m, reportTicks, ?_⟩
  unfold Schedule.ledger
  rw [pollTicks, reportTicks, ← h.polls, ← h.reports, ← h.flushes]

/-- Collection goes by the timetable, whatever the delivery does. Until the signal, each poll takes the
next snapshot at the next tick, and each report hands on the snapshots polled since the one before, with
all their records still there; so two agents that differ in their transport, their policy, their batches
or their workers, or in how long their hosts have been up, collect the same and hand on the same. With a
poll counter, the snapshots handed on are numbered one after another. -/
theorem collection_by_timetable {s' : AgentSettings} {uptime uptime' : Span} {a₀ a₀' a' : Agent}
    (aside : ¬ t.poll ∣ time ∧ ¬ t.report ∣ time)
    (launched : (Agent.initial s.workers sampler).launch t uptime = some a₀)
    (run : Reaches s (undisturbed time) a₀ a) (signal : a.shared.cancelled = true)
    (launched' : (Agent.initial s'.workers sampler).launch t uptime' = some a₀')
    (run' : Reaches s' (undisturbed time) a₀' a') (signal' : a'.shared.cancelled = true) :
    a.ledger = t.ledger sampler time ∧ a'.ledger = a.ledger ∧
      (∀ b, Reaches s (undisturbed time) a₀ b → b.shared.cancelled = false →
        ∀ source ∈ b.pending, source.left = source.snapshot) ∧
      ∀ before after, sampler.collectors = before ++ .pollCounter :: after →
        (∀ c ∈ before ++ after, ∀ n, ∀ r ∈ Sampling.Collector.kept (c.answer n),
          Sampler.isPollCount r = false) →
        a.ledger.flushes.flatten.flatten.filter Sampler.isPollCount =
          (List.range' 1 a.ledger.flushes.flatten.length).map Sampler.pollCount := by
  obtain ⟨pos, m, ticks, ledger⟩ := ledger_of_reaches aside launched run signal
  obtain ⟨-, -, -, ledger'⟩ := ledger_of_reaches aside launched' run' signal'
  refine ⟨ledger, ledger'.trans ledger.symm, fun b hb off source hs => ?_, fun before after counts alone => ?_⟩
  · exact ((onSchedule_of_reaches launched hb).2 off source hs).left
  · have handed : a.ledger.flushes.flatten =
        (List.range' 1 (m * t.report / t.poll)).map sampler.reading := by
      rw [ledger, ← Schedule.flatten_windows pos, ← ticks]
      rfl
    rw [handed, List.length_map, List.length_range', ← List.flatMap_def, List.filter_flatMap]
    have counted : ∀ k, (sampler.reading k).filter Sampler.isPollCount = [Sampler.pollCount k] :=
      Sampler.pollCounts_reading counts alone
    simp only [counted]
    exact List.map_eq_flatMap.symm

/-- A poll every two moments and a report every three, until the signal comes at five, on a host that has just
been started and on one that has been up for an hour: the first report is left lying by the one agent, and its
record is on the way to the collector from the other. -/
theorem collection_by_timetable_two_agents :
    ∃ a a' : Agent,
      (a.ledger.polls = [(2, [Sampler.pollCount 1]), (4, [Sampler.pollCount 2])] ∧
        a.ledger.flushes = [[[Sampler.pollCount 1]]] ∧ a.shared.journal.posts.length = 0 ∧
        a'.shared.journal.posts.length = 1) ∧
      a.ledger = Schedule.ledger ⟨2, 3⟩ ⟨[.pollCounter], []⟩ 5 ∧ a'.ledger = a.ledger ∧
      a.ledger.flushes.flatten.flatten.filter Sampler.isPollCount =
        (List.range' 1 a.ledger.flushes.flatten.length).map Sampler.pollCount := by
  let stages : List Event := [.feed 0, .feed 0, .feed 0, .forward 0, .forward 0, .batch, .batch, .batch].map
    fun t => .work (.drain 0 (.stage t))
  let worker : List Event := List.replicate 4 (.work (.drain 0 (.work 0)))
  let early : List Event := [.wait 2, .work .own, .wait 3, .work .own]
  let late : List Event := [.wait 4, .work .own, .wait 5, .ask .cancel]
  let start (workers : Nat) : Agent :=
    { Agent.initial workers ⟨[.pollCounter], []⟩ with course := .running ⟨2, 2⟩ ⟨3, 3⟩ }
  have launched : (Agent.initial 1 ⟨[.pollCounter], []⟩).launch ⟨2, 3⟩ 0 = some (start 1) := if_pos (by decide)
  have launched' : (Agent.initial 2 ⟨[.pollCounter], []⟩).launch ⟨2, 3⟩ (.ofSeconds 3600) = some (start 2) :=
    if_pos (by decide)
  obtain ⟨a, run, facts⟩ := exists_reaches unanswered (undisturbed 5) (start 1) (early ++ late)
    (fun a => a.shared.cancelled ∧ a.ledger.polls = [(2, [Sampler.pollCount 1]), (4, [Sampler.pollCount 2])] ∧
      a.ledger.flushes = [[[Sampler.pollCount 1]]] ∧ a.shared.journal.posts.length = 0) (by decide)
  obtain ⟨a', run', facts'⟩ := exists_reaches { unanswered with workers := 2 } (undisturbed 5) (start 2)
    (early ++ stages ++ worker ++ late)
    (fun a => a.shared.cancelled ∧ a.shared.journal.posts.length = 1) (by decide +kernel)
  obtain ⟨signal, polls, flushes, posts⟩ := of_decide_eq_true facts
  obtain ⟨signal', posts'⟩ := of_decide_eq_true facts'
  obtain ⟨ledger, same, -, counts⟩ :=
    collection_by_timetable (by decide) launched run signal launched' run' signal'
  exact ⟨a, a', ⟨polls, flushes, posts, posts'⟩, ledger, same, counts [] [] rfl fun c hc => by cases hc⟩

/-- An agent is not even set going when the clock cannot hold its next report, and then it makes none of
the polls that fall before the signal. -/
theorem launch_beyond_clock :
    (0 < 2000 ∧ 0 < Span.ofSeconds 9223372036854775806) ∧
      (¬ 2000 ∣ 3000 ∧ ¬ Span.ofSeconds 9223372036854775806 ∣ 3000) ∧
      (Schedule.ledger ⟨2000, Span.ofSeconds 9223372036854775806⟩ ⟨[.pollCounter], []⟩ 3000).polls =
        [(2000, [Sampler.pollCount 1])] ∧
      (Agent.initial 1 ⟨[.pollCounter], []⟩).launch ⟨2000, Span.ofSeconds 9223372036854775806⟩
        (.ofSeconds 3600) = none := by
  refine ⟨by decide, by decide, ?_, if_neg (by decide)⟩
  have ticks : Span.ticks 2000 3000 = List.range' 1 1 := Span.ticks_eq (by decide) (by decide) (by decide)
  unfold Schedule.ledger
  rw [ticks]
  rfl

end Telemetry.Agent
