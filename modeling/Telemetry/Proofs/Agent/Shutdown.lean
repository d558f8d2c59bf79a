/-
The signal ends a run. From the moment it comes, an agent that was set going reads no snapshot, starts
no drain, begins no post and puts nothing into a channel; its tasks take no more steps than were counted
at that moment, though no post is ever answered and no pause ever ends; and when they can take no more,
the run has returned and nothing is being delivered (`signal_ends_run`).
-/
import Telemetry.Agent.Launch
import Telemetry.Proofs.Agent.Ledger
import Telemetry.Proofs.Pool.Signal

namespace Telemetry

open Pool (Drain Lawful)
open Stage (Source)

/-! ## The steps that are left -/

/-- The steps that the agent's own task still takes once the signal has come. -/
def Course.remaining : Course → Nat
  | .running _ _ => 2
  | .closing => 1
  | _ => 0

namespace Agent

/-- The steps that all tasks of an agent still take once the signal has come. -/
def remaining (a : Agent) : Nat :=
  a.course.remaining + (a.pending.map Source.remaining).sum + (a.drains.map Drain.remaining).sum

/-- What may happen to an agent before it is set going: it may be polled by hand, and the signal may
come. -/
def preparing (_ : Agent) : Event → Bool
  | .work _ => true
  | .wait _ => true
  | .ask .poll => true
  | .ask .cancel => true
  | .ask _ => false

/-- What may happen to an agent that was set going: its tasks take steps in any order, the clock moves
on, and the signal may come at any time. -/
def leftAlone (_ : Agent) : Event → Bool
  | .work _ => true
  | .wait _ => true
  | .ask .cancel => true
  | .ask _ => false

/-- What an agent does not do any more once the signal has come: poll, report, start a drain, begin a
post, or put anything into a channel. -/
structure WindsDown (a b : Agent) : Prop where
  signal : b.shared.cancelled = true
  ledger : b.ledger = a.ledger
  posts : b.shared.journal.posts = a.shared.journal.posts
  generators : List.Forall₂ (fun s t : Source => s.out.Fades t.out) a.pending b.pending
  stages : List.Forall₂ (fun d e : Drain => d.stages.Fades e.stages) a.drains b.drains

variable {s : AgentSettings} {a b c : Agent}

namespace WindsDown

theorem refl (signal : a.shared.cancelled = true) : a.WindsDown a where
  signal := signal
  ledger := rfl
  posts := rfl
  generators := List.forall₂_same.2 fun _ _ => .refl _
  stages := List.forall₂_same.2 fun _ _ => .refl _

theorem trans (h : a.WindsDown b) (k : b.WindsDown c) : a.WindsDown c where
  signal := k.signal
  ledger := k.ledger.trans h.ledger
  posts := k.posts.trans h.posts
  generators := forall₂_trans (fun _ _ _ before after => before.trans after) h.generators k.generators
  stages := forall₂_trans (fun _ _ _ before after => before.trans after) h.stages k.stages

end WindsDown

/-- Every step of a task after the signal is one of those that were left. -/
theorem windsDown_of_step {task : Task} (signal : a.shared.cancelled = true) (step : a.step s task = some b) :
    a.WindsDown b ∧ b.remaining < a.remaining := by
  have change := change_of_after (e := .work task) step
  have loud : ¬ a.shared.cancelled = false := by simp [signal]
  cases task with
  | own =>
    cases ownMove_of_ownStep step with
    | close course _ => exact ⟨⟨signal, rfl, rfl, (WindsDown.refl signal).generators, (WindsDown.refl signal).stages⟩,
        by simp [remaining, course, Course.remaining]⟩
    | stop course quiet => exact ⟨⟨signal, rfl, rfl, (WindsDown.refl signal).generators, (WindsDown.refl signal).stages⟩,
        by simp [remaining, course, Course.remaining]⟩
    | poll course off due => exact absurd off loud
    | pass course off early due nothing => exact absurd off loud
    | report course off early due nonempty => exact absurd off loud
  | feed i =>
    have same := change.ledger_of_delivers rfl
    obtain ⟨old, found, h⟩ := Option.bind_eq_some_iff.1 step
    obtain ⟨new, moved, heq⟩ := Option.bind_eq_some_iff.1 h
    cases heq
    rw [signal] at moved
    obtain ⟨fewer, fades⟩ := Source.remaining_of_step moved
    refine ⟨⟨signal, same.ledger, rfl, forall₂_set (fun t => .refl t.out) found fades,
      (WindsDown.refl signal).stages⟩, ?_⟩
    have sum := sum_map_set (f := Source.remaining) (y := new) found
    simp only [remaining]
    omega
  | drain n task =>
    have same := change.ledger_of_delivers rfl
    obtain ⟨d, found, h⟩ := Option.bind_eq_some_iff.1 step
    obtain ⟨⟨shared, e⟩, moved, heq⟩ := Option.bind_eq_some_iff.1 h
    cases heq
    obtain ⟨fades, fewer, posts⟩ := Drain.winds_of_step signal moved
    refine ⟨⟨same.signal.trans signal, same.ledger, posts, (WindsDown.refl signal).generators,
      forall₂_set (fun d => .refl d.stages) found fades⟩, ?_⟩
    have sum := sum_map_set (f := Drain.remaining) (y := e) found
    simp only [remaining]
    omega

/-- However the tasks take their turns after the signal, they use up the steps that were left. -/
theorem windsDown_of_follow {es : List Event} (signal : a.shared.cancelled = true)
    (later : a.follow? s leftAlone es = some b) :
    a.WindsDown b ∧ es.countP Event.isStep + b.remaining ≤ a.remaining := by
  refine steps_le_of_follow? a.WindsDown remaining (fun b task c winds step => ?_)
    (fun b e c winds allowed other after => ?_) (.refl signal) later
  · obtain ⟨further, fewer⟩ := windsDown_of_step winds.signal step
    exact ⟨winds.trans further, fewer⟩
  · -- neither the clock nor the signal itself adds to what is left
    cases e with
    | work task => cases other
    | wait time =>
      cases after
      exact ⟨⟨winds.signal, winds.ledger, winds.posts, winds.generators, winds.stages⟩, Nat.le_refl _⟩
    | ask request =>
      cases request with
      | cancel =>
        cases after
        exact ⟨⟨rfl, winds.ledger, winds.posts, winds.generators, winds.stages⟩, Nat.le_refl _⟩
      | _ => cases allowed

/-! ## The end of a run -/

/-- The permits of an agent that is set going are still accounted for. -/
theorem lawful_of_launch {schedule : Schedule} {uptime : Span} {sampler : Sampling.Sampler} {before a₀ : Agent}
    (prepared : Reaches s preparing (Agent.initial s.workers sampler) before)
    (launched : before.launch schedule uptime = some a₀) :
    Lawful (Pool.effectiveWorkers s.workers) a₀.shared.permits a₀.shared.journal a₀.crew := by
  obtain ⟨-, rfl⟩ := launch_eq_some_iff.1 launched
  exact prepared.lawful (lawful_initial s.workers sampler)

/-- An agent that was set going is not driven by hand any more. -/
theorem course_ne_idle (h : Reaches s leftAlone a b) (set : a.course ≠ .idle) : b.course ≠ .idle := by
  refine h.keeps (·.course ≠ .idle) set ?_
  intro b e c going allowed step
  cases e with
  | wait time => cases step; exact going
  | ask request => cases request <;> cases allowed; cases step; exact going
  | work task =>
    cases task with
    | own => cases ownMove_of_ownStep step <;> exact Course.noConfusion
    | feed i => rw [((change_of_after step).ledger_of_delivers rfl).course]; exact going
    | drain n t => rw [((change_of_after step).ledger_of_delivers rfl).course]; exact going

/-- An agent whose tasks can take no step although the signal has come has nothing more to do. -/
theorem stopped_of_stuck (signal : a.shared.cancelled = true) (set : a.course ≠ .idle)
    (stuck : ∀ task, a.step s task = none) :
    (∃ time, a.course = .stopped time) ∧ a.isQuiet = true ∧ ∀ x ∈ a.crew, x.2.isOver = true := by
  have drains : ∀ (n : Nat) (d : Drain), a.drains[n]? = some d →
      d.hasReturned = true ∧ ∀ w ∈ d.workers, w.isOver = true := by
    intro n d found
    exact Drain.returned_of_stuck signal (drain_still stuck found)
  have quiet : a.isQuiet = true := by
    refine List.all_eq_true.2 fun d hd => ?_
    obtain ⟨n, found⟩ := List.mem_iff_getElem?.1 hd
    exact (drains n d found).1
  refine ⟨?_, quiet, fun x hx => ?_⟩
  · have own := stuck .own
    cases course : a.course with
    | idle => exact absurd course set
    | running poll report => simp [step, ownStep, course, signal] at own
    | closing => simp [step, ownStep, course, quiet] at own
    | stopped time => exact ⟨time, rfl⟩
  · obtain ⟨d, found, worker⟩ := mem_crew.1 hx
    exact (drains _ d found).2 _ (List.mem_of_getElem? worker)

/-- The signal ends a run that was going, whatever its tasks were about to do. However they take their
turns from then on, and however the clock moves, there is no further poll, report or post and nothing
comes into a channel; each step is one of those that were left when the signal came; and when no task
can take a step any more, the run has returned, every drain has, no post is under way, and all permits
are free. -/
theorem signal_ends_run {schedule : Schedule} {uptime : Span} {sampler : Sampling.Sampler} {before a₀ : Agent}
    {es : List Event} (prepared : Reaches s preparing (Agent.initial s.workers sampler) before)
    (launched : before.launch schedule uptime = some a₀) (run : Reaches s leftAlone a₀ a)
    (signal : a.shared.cancelled = true) (later : a.follow? s leftAlone es = some b) :
    a.WindsDown b ∧ es.countP Event.isStep + b.remaining ≤ a.remaining ∧
      ((∀ task, b.step s task = none) →
        (∃ time, b.course = .stopped time) ∧ b.isQuiet = true ∧ b.deliveries = 0 ∧
          b.shared.journal.underway = [] ∧ b.shared.permits = { free := Pool.effectiveWorkers s.workers }) := by
  obtain ⟨winds, bound⟩ := windsDown_of_follow signal later
  refine ⟨winds, bound, fun stuck => ?_⟩
  obtain ⟨-, start⟩ := launch_eq_some_iff.1 launched
  have law := (run.follow? later).lawful (lawful_of_launch prepared launched)
  have set : b.course ≠ .idle := by
    refine course_ne_idle (run.follow? later) ?_
    rw [start]
    exact Course.noConfusion
  obtain ⟨stopped, quiet, allOver⟩ := stopped_of_stuck winds.signal set stuck
  obtain ⟨permits, deliveries, underway⟩ := law.all_free allOver
  exact ⟨stopped, quiet, deliveries, underway, permits⟩

/-- The signal comes while a post is under way that is never answered and another snapshot is pending:
eight steps later the run has returned, though the clock has moved on and the post has not ended. -/
theorem signal_ends_run_unanswered :
    ∃ (a b : Agent) (es : List Event),
      (a.shared.journal.underway.length = 1 ∧ a.deliveries = 1 ∧ a.pending.length = 1 ∧
        es.countP Event.isStep = 8 ∧ b.course = .stopped 7) ∧
      a.WindsDown b ∧ es.countP Event.isStep + b.remaining ≤ a.remaining ∧
      ((∀ task, b.step unanswered task = none) →
        (∃ time, b.course = .stopped time) ∧ b.isQuiet = true ∧ b.deliveries = 0 ∧
          b.shared.journal.underway = [] ∧ b.shared.permits = { free := 1 }) := by
  let work (t : Drain.Task) : Event := .work (.drain 0 t)
  let stages : List Event := [.feed 0, .feed 0, .feed 0, .forward 0, .forward 0, .batch, .batch, .batch].map
    fun t => work (.stage t)
  let early : List Event := [.wait 2, .work .own, .wait 3, .work .own] ++ stages ++
    List.replicate 4 (work (.work 0)) ++ [.wait 4, .work .own, .work (.feed 0), .wait 5, .ask .cancel]
  let late : List Event := [.work .own, .work (.feed 0), work (.stage .batch), work (.work 0), .wait 7,
    work (.stage (.forward 0)), work (.work 0), work .finish, .work .own]
  let start : Agent := { Agent.initial 1 ⟨[.pollCounter], []⟩ with course := .running ⟨2, 2⟩ ⟨3, 3⟩ }
  have launched : (Agent.initial 1 ⟨[.pollCounter], []⟩).launch ⟨2, 3⟩ = some start := if_pos (by decide)
  obtain ⟨a, first, facts⟩ := (Option.any_eq_true _ _).1 (show
    ((start.follow? unanswered leftAlone early).any fun a =>
      a.shared.cancelled && a.shared.journal.underway.length == 1 && a.deliveries == 1 && a.pending.length == 1 &&
        (a.follow? unanswered leftAlone late).any fun b => decide (b.course = .stopped 7)) = true by
      decide +kernel)
  simp only [Bool.and_eq_true, beq_iff_eq] at facts
  obtain ⟨⟨⟨⟨signal, underway⟩, deliveries⟩, pending⟩, rest⟩ := facts
  obtain ⟨b, later, stopped⟩ := (Option.any_eq_true _ _).1 rest
  exact ⟨a, b, late, ⟨underway, deliveries, pending, rfl, of_decide_eq_true stopped⟩,
    signal_ends_run .refl launched (Reaches.refl.follow? first) signal later⟩

end Agent

end Telemetry
