/-
What a run leaves behind. A run that has returned has waited for the workers of all its drains, and for
nothing else: the tasks of the stages are left to themselves. Those of a drain that has returned before the
signal have all ended, unless all its workers died; those that the signal has met may still be there, but
each of them ends with its next step (`run_winds_up`, `run_outlived`).
-/
import Telemetry.Proofs.Agent.Shutdown
import Telemetry.Proofs.Agent.Progress
import Telemetry.Proofs.Pool.Ending

namespace Telemetry

open Pool (Drain Lawful Scene Shared)
open Stage (Batcher Batching FanIn Lane Pipeline Source)

/-! ## Tasks that have ended -/

/-- Whether a task of the stages has ended. -/
def Stage.Pipeline.hasEnded (p : Pipeline) : Pipeline.Task → Bool
  | .feed i => p.merge.lanes[i]?.all (·.source.task.ended)
  | .forward i => p.merge.lanes[i]?.all (·.forwarder == .ended)
  | .batch => p.batcher == .ended

/-- Whether a task of a drain has ended. -/
def Pool.Drain.hasEnded (d : Drain) : Drain.Task → Bool
  | .stage t => d.stages.hasEnded t
  | .work i => d.workers[i]?.all (·.isOver)
  | .finish => d.hasReturned

/-- Whether a task of an agent has ended. -/
def Agent.hasEnded (a : Agent) : Agent.Task → Bool
  | .own => match a.course with
    | .stopped _ => true
    | _ => false
  | .feed i => a.pending[i]?.all (·.task.ended)
  | .drain n t => a.drains[n]?.all (·.hasEnded t)

namespace Stage.Pipeline

variable {cancelled : Bool} {size : Nat} {p q : Pipeline} {t : Pipeline.Task}

/-- Once the signal has come, a task of the stages that can take no step has ended. -/
theorem hasEnded_of_none (h : p.step true size t = none) : p.hasEnded t = true := by
  cases t with
  | feed i =>
    have h := Option.map_eq_none_iff.1 h
    cases found : p.merge.lanes[i]? with
    | none => simp [hasEnded, found]
    | some lane =>
      simp [FanIn.feed, found, Source.step_cancelled] at h
      simp [hasEnded, found, h]
  | forward i =>
    have h := Option.map_eq_none_iff.1 h
    cases found : p.merge.lanes[i]? with
    | none => simp [hasEnded, found]
    | some lane =>
      simp [FanIn.forward, found, Lane.step_cancelled] at h
      simp [hasEnded, found, h]
  | batch =>
    have h := Option.map_eq_none_iff.1 h
    simp [Batching.step_cancelled] at h
    simp [hasEnded, show p.batcher = .ended from h]

/-- Once the signal has come, the next step of a task of the stages is its last one. -/
theorem hasEnded_of_step (h : p.step true size t = some q) : q.hasEnded t = true := by
  cases t with
  | feed i =>
    obtain ⟨merge, hm, rfl⟩ := Option.map_eq_some_iff.1 h
    obtain ⟨lane, found, hm⟩ := Option.bind_eq_some_iff.1 hm
    obtain ⟨source, step, heq⟩ := Option.bind_eq_some_iff.1 hm
    cases heq
    obtain ⟨-, rfl⟩ := Source.finish_of_step step
    simp [hasEnded, (List.getElem?_eq_some_iff.1 found).1, Source.finish]
  | forward i =>
    obtain ⟨merge, hm, rfl⟩ := Option.map_eq_some_iff.1 h
    obtain ⟨lane, found, hm⟩ := Option.bind_eq_some_iff.1 hm
    obtain ⟨⟨lane', out⟩, step, heq⟩ := Option.bind_eq_some_iff.1 hm
    cases heq
    rw [Lane.step_cancelled] at step
    split at step
    · cases step
    · cases step
      simp [hasEnded, (List.getElem?_eq_some_iff.1 found).1, Lane.finish]
  | batch =>
    obtain ⟨b, step, rfl⟩ := Option.map_eq_some_iff.1 h
    rw [Batching.step_cancelled] at step
    split at step
    · cases step
    · cases step
      rfl

end Stage.Pipeline

/-! ## Drains that have returned -/

namespace Pool.Drain

variable {settings : DeliverySettings} {size number : Nat} {shared after : Shared} {d e : Drain} {task : Drain.Task}

/-- A task of a drain that has returned has ended if it can take no step once the signal has come. -/
theorem hasEnded_of_none (signal : shared.cancelled = true) (returned : d.hasReturned = true)
    (workers : ∀ w ∈ d.workers, w.isOver = true) (stuck : d.step settings size number shared task = none) :
    d.hasEnded task = true := by
  cases task with
  | stage t =>
    have stuck := Option.map_eq_none_iff.1 stuck
    rw [signal] at stuck
    exact Pipeline.hasEnded_of_none stuck
  | work i =>
    cases worker : d.workers[i]? with
    | none => simp [hasEnded, worker]
    | some w => simp [hasEnded, worker, workers w (List.mem_of_getElem? worker)]
  | finish => exact returned

/-- A task of a drain without workers takes its last step once the signal has come. -/
theorem hasEnded_of_step (signal : shared.cancelled = true) (workers : ∀ w ∈ d.workers, w.isOver = true)
    (moves : d.step settings size number shared task = some (after, e)) : e.hasEnded task = true := by
  cases task with
  | stage t =>
    obtain ⟨stages, step, heq⟩ := Option.map_eq_some_iff.1 moves
    cases heq
    rw [signal] at step
    exact Pipeline.hasEnded_of_step step
  | work i =>
    obtain ⟨w, worker, h⟩ := Option.bind_eq_some_iff.1 moves
    obtain ⟨next, step, -⟩ := Option.bind_eq_some_iff.1 h
    have live : w.isOver = false := Scene.live_of_step step
    rw [workers w (List.mem_of_getElem? worker)] at live
    cases live
  | finish =>
    simp only [step] at moves
    split at moves
    · cases moves
      rfl
    · cases moves

end Pool.Drain

/-! ## Drains in which nothing is left to do -/

/-- A drain all of whose tasks are over. -/
structure Pool.Drain.IsAtRest (d : Drain) : Prop where
  returned : d.hasReturned = true
  workers : ∀ w ∈ d.workers, w.isOver = true
  stages : d.stages.IsOver

/-- A drain that has returned, and from which one worker has left that did not die, has nothing left to do. -/
theorem Pool.Drain.EndsInOrder.isAtRest {d : Drain} (h : d.EndsInOrder) (returned : d.hasReturned = true)
    (left : ∃ w ∈ d.workers, w.phase = .ended) : d.IsAtRest := by
  obtain ⟨w, hw, ended⟩ := left
  exact ⟨returned, h.linked.allOver returned, h.left w hw ended⟩

namespace Agent

variable {s : AgentSettings} {allowed : Agent → Event → Bool} {a b c : Agent} {task : Task}

/-- A drain in which nothing is left to do stays as it is, whatever happens. -/
theorem Change.drain_at_rest {e : Event} (change : Change s a e b) {n : Nat} {d : Drain}
    (found : a.drains[n]? = some d) (rest : d.IsAtRest) : b.drains[n]? = some d := by
  have started : ∀ x : Drain, (a.drains ++ [x])[n]? = some d := by
    intro x
    rw [List.getElem?_append_left (List.getElem?_eq_some_iff.1 found).1]
    exact found
  -- the drain that takes a step is another one
  have elsewhere : ∀ {m : Nat} {x : Drain} (y : Drain), a.drains[m]? = some x → ¬ x.IsAtRest →
      (a.drains.set m y)[n]? = some d := by
    intro m x y here busy
    have other : m ≠ n := by
      rintro rfl
      obtain rfl : x = d := by simpa [here] using found
      exact busy rest
    rw [List.getElem?_set_ne other]
    exact found
  cases change with
  | polled collects course => exact found
  | reported collects course => exact started _
  | turned collects course => exact found
  | waited time => exact found
  | cancelled => exact found
  | discarded => exact found
  | opened stages => exact started _
  | fed here step => exact found
  | staged here step => exact elsewhere _ here fun rest => rest.stages.not_move (Pipeline.move_of_step step)
  | @worked m i x w next here worker step =>
    refine elsewhere _ here fun rest => ?_
    have live : w.isOver = false := Scene.live_of_step step
    rw [rest.workers w (List.mem_of_getElem? worker)] at live
    cases live
  | returned here first ends =>
    refine elsewhere _ here fun rest => ?_
    have returned := rest.returned
    unfold Drain.hasReturned at returned
    rw [first] at returned
    cases returned

theorem Reaches.drain_at_rest (run : Reaches s allowed a b) {n : Nat} {d : Drain}
    (found : a.drains[n]? = some d) (rest : d.IsAtRest) : b.drains[n]? = some d := by
  refine run.keeps (·.drains[n]? = some d) found ?_
  intro b e c here _ step
  exact (change_of_after step).drain_at_rest here rest

/-! ## While no signal comes -/

/-- An agent whose drains end in their order, as long as no signal comes. -/
structure EndsInOrder (a : Agent) : Prop where
  pending : a.PendingAreWhole
  drains : a.shared.cancelled = false → ∀ d ∈ a.drains, d.EndsInOrder

theorem endsInOrder_initial (workers : Nat) (sampler : Sampling.Sampler) :
    (initial workers sampler).EndsInOrder := by
  constructor
  · rintro - source mem
    cases mem
  · rintro - d mem
    cases mem

theorem EndsInOrder.next (h : a.EndsInOrder) (fits : Batcher.fits s.batchSize = true) {e : Event}
    (change : Change s a e b) (noDrain : ∀ stages, e ≠ .ask (.drain stages)) : b.EndsInOrder := by
  refine ⟨change.pendingAreWhole h.pending, fun off => ?_⟩
  have before : a.shared.cancelled = false := by
    by_cases signal : e = .ask .cancel
    · subst signal
      cases change with
      | cancelled => cases off
      | polled collects course | reported collects course | turned collects course => cases collects
    · rw [← change.signal signal]
      exact off
  have drains := h.drains before
  cases change with
  | polled collects course => exact drains
  | reported collects course =>
    intro d hd
    rcases List.mem_append.1 hd with hd | hd
    · exact drains d hd
    · rw [List.mem_singleton.1 hd]
      exact Drain.EndsInOrder.ofSources s.workers (h.pending before)
  | turned collects course => exact drains
  | waited time => exact drains
  | cancelled => exact drains
  | discarded => exact drains
  | opened stages => exact absurd rfl (noDrain stages)
  | fed found step => exact drains
  | staged found step =>
    have here := drains _ (List.mem_of_getElem? found)
    rw [before] at step
    exact forall_mem_set drains (here.stage fits (Pipeline.move_of_step step))
  | worked found worker step =>
    have here := drains _ (List.mem_of_getElem? found)
    exact forall_mem_set drains (here.work before worker step)
  | returned found first ends =>
    have here := drains _ (List.mem_of_getElem? found)
    exact forall_mem_set drains (here.finish (List.all_eq_true.1 ends) _)

theorem Reaches.endsInOrder (run : Reaches s allowed a b) (fits : Batcher.fits s.batchSize = true)
    (noDrains : ∀ c stages, allowed c (.ask (.drain stages)) = false) (first : a.EndsInOrder) : b.EndsInOrder := by
  refine run.keeps EndsInOrder first ?_
  intro c e c' h ok step
  refine h.next fits (change_of_after step) ?_
  rintro stages rfl
  rw [noDrains] at ok
  cases ok

/-! ## The way to the end of a run -/

/-- An agent that has gone on its course only as it may: it turns to its drains at the signal, and it is done
when all of them have returned. -/
structure OnCourse (a : Agent) : Prop where
  closing : a.course = .closing → a.shared.cancelled = true
  stopped : ∀ time, a.course = .stopped time → a.shared.cancelled = true ∧ a.isQuiet = true

/-- A drain that has returned has returned for good. -/
theorem Change.isQuiet {e : Event} (change : Change s a e b) (delivers : e.delivers = true)
    (quiet : a.isQuiet = true) : b.isQuiet = true := by
  have still := Event.collects_of_delivers delivers
  have returned : ∀ d ∈ a.drains, d.hasReturned = true := List.all_eq_true.1 quiet
  have exchanged : ∀ {n : Nat} {d : Drain}, d.hasReturned = true →
      (a.drains.set n d).all (·.hasReturned) = true :=
    fun here => List.all_eq_true.2 (forall_mem_set returned here)
  cases change with
  | polled collects course => rw [still] at collects; cases collects
  | reported collects course => rw [still] at collects; cases collects
  | turned collects course => rw [still] at collects; cases collects
  | waited time => cases delivers
  | cancelled => cases delivers
  | discarded => cases delivers
  | opened stages => cases delivers
  | fed found step => exact quiet
  | staged found step =>
    have here := returned _ (List.mem_of_getElem? found)
    exact exchanged here
  | worked found worker step =>
    have here := returned _ (List.mem_of_getElem? found)
    exact exchanged here
  | returned found first ends => exact exchanged rfl

theorem OnCourse.next (h : a.OnCourse) {e : Event} (allowed : leftAlone a e = true)
    (step : a.after? s e = some b) : b.OnCourse := by
  have change := change_of_after step
  have along : e.delivers = true → b.OnCourse := by
    intro delivers
    have same := change.ledger_of_delivers delivers
    constructor
    · intro closing
      rw [same.signal]
      exact h.closing (same.course.symm.trans closing)
    · intro time stopped
      obtain ⟨signal, quiet⟩ := h.stopped time (same.course.symm.trans stopped)
      exact ⟨same.signal.trans signal, change.isQuiet delivers quiet⟩
  cases e with
  | wait time =>
    cases step
    exact ⟨h.closing, h.stopped⟩
  | ask request =>
    cases request with
    | cancel =>
      cases step
      exact ⟨fun _ => rfl, fun time stopped => ⟨rfl, (h.stopped time stopped).2⟩⟩
    | _ => cases allowed
  | work task =>
    cases task with
    | own =>
      cases ownMove_of_ownStep step with
      | close course signal => exact ⟨fun _ => signal, fun _ => Course.noConfusion⟩
      | stop course quiet => exact ⟨Course.noConfusion, fun _ _ => ⟨h.closing course, quiet⟩⟩
      | poll course off due => exact ⟨Course.noConfusion, fun _ => Course.noConfusion⟩
      | pass course off early due nothing => exact ⟨Course.noConfusion, fun _ => Course.noConfusion⟩
      | report course off early due nonempty => exact ⟨Course.noConfusion, fun _ => Course.noConfusion⟩
    | feed i => exact along rfl
    | drain n t => exact along rfl

/-- A run that has returned goes on no more. -/
theorem stopped_of_step {e : Event} {time : Time} (stopped : a.course = .stopped time)
    (allowed : leftAlone a e = true) (step : a.after? s e = some b) : b.course = .stopped time := by
  cases e with
  | wait time => cases step; exact stopped
  | ask request => cases request <;> cases allowed; cases step; exact stopped
  | work task =>
    cases task with
    | own =>
      change a.ownStep s = some b at step
      rw [ownStep, stopped] at step
      cases step
    | feed i => rw [((change_of_after step).ledger_of_delivers rfl).course]; exact stopped
    | drain n t => rw [((change_of_after step).ledger_of_delivers rfl).course]; exact stopped

theorem stopped_of_follow {es : List Event} {time : Time} (stopped : a.course = .stopped time)
    (later : a.follow? s leftAlone es = some b) : b.course = .stopped time := by
  refine (Reaches.refl.follow? later).keeps (·.course = .stopped time) stopped ?_
  intro b e c here allowed step
  exact stopped_of_step here allowed step

/-! ## What a run leaves behind -/

/-- What a run leaves behind that has returned: the signal has come, all drains have returned without a worker
left, nothing is being delivered, and whatever task has not ended ends with its next step. -/
structure IsWoundUp (s : AgentSettings) (a : Agent) : Prop where
  signal : a.shared.cancelled = true
  drains : ∀ d ∈ a.drains, d.hasReturned = true ∧ ∀ w ∈ d.workers, w.isOver = true
  deliveries : a.deliveries = 0
  posts : a.shared.journal.underway = []
  permits : a.shared.permits = { free := Pool.effectiveWorkers s.workers }
  tasks : ∀ task, (a.step s task = none ∧ a.hasEnded task = true) ∨
    ∃ b, a.step s task = some b ∧ b.hasEnded task = true

/-- A task that can take no step when its run has returned has ended. -/
theorem hasEnded_of_none {time : Time} (signal : a.shared.cancelled = true) (stopped : a.course = .stopped time)
    (drains : ∀ d ∈ a.drains, d.hasReturned = true ∧ ∀ w ∈ d.workers, w.isOver = true)
    (stuck : a.step s task = none) : a.hasEnded task = true := by
  cases task with
  | own => simp [hasEnded, stopped]
  | feed i =>
    cases found : a.pending[i]? with
    | none => simp [hasEnded, found]
    | some source =>
      simp [step, found, signal, Source.step_cancelled] at stuck
      simp [hasEnded, found, stuck]
  | drain n t =>
    cases found : a.drains[n]? with
    | none => simp [hasEnded, found]
    | some d =>
      obtain ⟨returned, workers⟩ := drains d (List.mem_of_getElem? found)
      have still : d.step s.delivery s.batchSize n a.shared t = none := by
        cases moves : d.step s.delivery s.batchSize n a.shared t with
        | none => rfl
        | some after => simp [step, found, moves] at stuck
      simp [hasEnded, found, Drain.hasEnded_of_none signal returned workers still]

/-- A task that takes a step when its run has returned takes its last one. -/
theorem hasEnded_of_step {time : Time} (signal : a.shared.cancelled = true) (stopped : a.course = .stopped time)
    (drains : ∀ d ∈ a.drains, d.hasReturned = true ∧ ∀ w ∈ d.workers, w.isOver = true)
    (moves : a.step s task = some b) : b.hasEnded task = true := by
  cases task with
  | own =>
    change a.ownStep s = some b at moves
    rw [ownStep, stopped] at moves
    cases moves
  | feed i =>
    obtain ⟨old, found, h⟩ := Option.bind_eq_some_iff.1 moves
    obtain ⟨new, moved, heq⟩ := Option.bind_eq_some_iff.1 h
    cases heq
    rw [signal] at moved
    obtain ⟨-, rfl⟩ := Source.finish_of_step moved
    simp [hasEnded, (List.getElem?_eq_some_iff.1 found).1, Source.finish]
  | drain n t =>
    obtain ⟨d, found, h⟩ := Option.bind_eq_some_iff.1 moves
    obtain ⟨⟨shared, e⟩, moved, heq⟩ := Option.bind_eq_some_iff.1 h
    cases heq
    have workers := (drains d (List.mem_of_getElem? found)).2
    simp [hasEnded, (List.getElem?_eq_some_iff.1 found).1, Drain.hasEnded_of_step signal workers moved]

theorem isWoundUp_of_stopped {time : Time} (linked : a.Linked)
    (law : Lawful (Pool.effectiveWorkers s.workers) a.shared.permits a.shared.journal a.crew)
    (onCourse : a.OnCourse) (stopped : a.course = .stopped time) : a.IsWoundUp s := by
  obtain ⟨signal, quiet⟩ := onCourse.stopped time stopped
  have drains : ∀ d ∈ a.drains, d.hasReturned = true ∧ ∀ w ∈ d.workers, w.isOver = true := by
    intro d hd
    have returned := List.all_eq_true.1 quiet d hd
    exact ⟨returned, (linked.drains d hd).allOver returned⟩
  have allOver : ∀ x ∈ a.crew, x.2.isOver = true := by
    intro x hx
    obtain ⟨d, found, worker⟩ := mem_crew.1 hx
    exact (drains d (List.mem_of_getElem? found)).2 _ (List.mem_of_getElem? worker)
  obtain ⟨permits, deliveries, underway⟩ := law.all_free allOver
  refine ⟨signal, drains, deliveries, underway, permits, fun task => ?_⟩
  cases moves : a.step s task with
  | none => exact .inl ⟨rfl, hasEnded_of_none signal stopped drains moves⟩
  | some b => exact .inr ⟨b, rfl, hasEnded_of_step signal stopped drains moves⟩

/-- A run that has returned at the signal, whenever the signal came and in whatever order the tasks took their
steps, is wound up: no worker of its drains is left, nothing is being delivered, and a task of the stages has
ended or ends with its next step. So it stays, and what happens later puts nothing into a channel and is over
after as many steps as there are tasks left. The stages of a drain that had returned before the signal have
ended already, if a whole batch has room in memory and the workers of the drain have not all died. -/
theorem run_winds_up {schedule : Schedule} {uptime : Span} {sampler : Sampling.Sampler} {before a₀ : Agent}
    {time : Time} (prepared : Reaches s preparing (Agent.initial s.workers sampler) before)
    (launched : before.launch schedule uptime = some a₀) (run : Reaches s leftAlone a₀ a)
    (stopped : a.course = .stopped time) :
    a.IsWoundUp s ∧
      (∀ (es : List Event) (b : Agent), a.follow? s leftAlone es = some b →
        b.IsWoundUp s ∧ a.WindsDown b ∧ es.countP Event.isStep + b.remaining ≤ a.remaining) ∧
      (Batcher.fits s.batchSize = true → ∀ (b : Agent) (n : Nat) (d : Drain),
        Reaches s leftAlone a₀ b → b.shared.cancelled = false → Reaches s leftAlone b a →
        b.drains[n]? = some d → d.hasReturned = true → (∃ w ∈ d.workers, w.phase = .ended) →
        d.stages.IsOver ∧ a.drains[n]? = some d) := by
  obtain ⟨-, start⟩ := launch_eq_some_iff.1 launched
  have linked : a₀.Linked := by
    obtain ⟨pending, drains, tight⟩ := prepared.linked (fun _ _ => rfl) (linked_initial s.workers sampler)
    rw [start]
    exact ⟨pending, drains, tight⟩
  have law := lawful_of_launch prepared launched
  have onCourse : a₀.OnCourse := by
    rw [start]
    exact ⟨Course.noConfusion, fun _ => Course.noConfusion⟩
  have woundUp : ∀ b, Reaches s leftAlone a₀ b → b.course = .stopped time → b.IsWoundUp s := by
    intro b run stopped
    have course : b.OnCourse := run.keeps OnCourse onCourse fun _ _ _ here allowed step => here.next allowed step
    exact isWoundUp_of_stopped (run.linked (fun _ _ => rfl) linked) (run.lawful law) course stopped
  have here := woundUp a run stopped
  refine ⟨here, fun es b later => ?_, fun fits b n d first off second found returned left => ?_⟩
  · exact ⟨woundUp b (run.follow? later) (stopped_of_follow stopped later), windsDown_of_follow here.signal later⟩
  · have inOrder : a₀.EndsInOrder := by
      obtain ⟨pending, drains⟩ := prepared.endsInOrder fits (fun _ _ => rfl) (endsInOrder_initial s.workers sampler)
      rw [start]
      exact ⟨pending, drains⟩
    have drains := (first.endsInOrder fits (fun _ _ => rfl) inOrder).drains off
    have rest := (drains d (List.mem_of_getElem? found)).isAtRest returned left
    exact ⟨rest.stages, second.drain_at_rest found rest⟩

/-- The first report is through when the signal comes, and another one has just begun. The run returns at once:
of the first drain nothing is left, and of the second one a generator, a forwarder and a batcher are. -/
theorem run_winds_up_between_reports :
    ∃ (a₀ b a : Agent) (first second : Drain),
      ((Agent.initial 1 ⟨[.pollCounter], []⟩).launch ⟨2, 3⟩ = some a₀ ∧ a.course = .stopped 6 ∧
        b.drains[0]? = some first ∧ a.drains[1]? = some second ∧ second.stages.batcher = .starting ∧
        a.remaining = 5) ∧
      a.IsWoundUp (unreached 0 0) ∧
      (∀ (es : List Event) (c : Agent), a.follow? (unreached 0 0) leftAlone es = some c →
        c.IsWoundUp (unreached 0 0) ∧ a.WindsDown c ∧ es.countP Event.isStep + c.remaining ≤ a.remaining) ∧
      first.stages.IsOver ∧ a.drains[0]? = some first := by
  let steps (n k : Nat) (t : Drain.Task) : List Event := List.replicate k (.work (.drain n t))
  let through : List Event := steps 0 3 (.stage (.feed 0)) ++ steps 0 3 (.stage (.forward 0)) ++
    steps 0 5 (.stage .batch) ++ steps 0 9 (.work 0) ++ steps 0 1 .finish
  let early : List Event := [.wait 2, .work .own, .wait 3, .work .own] ++ through ++
    [.wait 4, .work .own, .wait 6, .work .own, .work .own]
  let late : List Event := [.ask .cancel, .work .own] ++ steps 1 1 (.work 0) ++ steps 1 1 .finish ++ [.work .own]
  let start : Agent := { Agent.initial 1 ⟨[.pollCounter], []⟩ with course := .running ⟨2, 2⟩ ⟨3, 3⟩ }
  have launched : (Agent.initial 1 ⟨[.pollCounter], []⟩).launch ⟨2, 3⟩ = some start := if_pos (by decide)
  obtain ⟨b, before, facts⟩ := (Option.any_eq_true _ _).1 (show
    ((start.follow? (unreached 0 0) leftAlone early).any fun b => !b.shared.cancelled &&
      (b.drains[0]?.any fun d => d.hasReturned && d.workers.any fun w => match w.phase with
        | .ended => true
        | _ => false) &&
      (b.follow? (unreached 0 0) leftAlone late).any fun a => decide (a.course = .stopped 6) &&
        decide (a.remaining = 5) && a.drains[1]?.any fun d => decide (d.stages.batcher = .starting)) = true by
      decide +kernel)
  simp only [Bool.and_eq_true, Bool.not_eq_true'] at facts
  obtain ⟨⟨off, returned⟩, rest⟩ := facts
  obtain ⟨first, found, returned⟩ := (Option.any_eq_true _ _).1 returned
  obtain ⟨a, after, ends⟩ := (Option.any_eq_true _ _).1 rest
  simp only [Bool.and_eq_true, decide_eq_true_eq] at returned ends
  obtain ⟨⟨stopped, left⟩, second⟩ := ends
  obtain ⟨second, beside, starting⟩ := (Option.any_eq_true _ _).1 second
  obtain ⟨returned, worker⟩ := returned
  obtain ⟨w, hw, ended⟩ := List.any_eq_true.1 worker
  have ended : w.phase = .ended := by
    split at ended
    · assumption
    · cases ended
  have run : Reaches (unreached 0 0) leftAlone start b := Reaches.refl.follow? before
  have further : Reaches (unreached 0 0) leftAlone b a := Reaches.refl.follow? after
  obtain ⟨woundUp, later, settled⟩ := run_winds_up .refl launched (run.follow? after) stopped
  obtain ⟨stagesOver, same⟩ := settled (by decide) b 0 first run off further found returned ⟨w, hw, ended⟩
  exact ⟨start, b, a, first, second, ⟨launched, stopped, found, beside, of_decide_eq_true starting, left⟩,
    woundUp, later, stagesOver, same⟩

/-- The signal comes right behind the first report, and the run returns before a task of the stages has taken a
step: a forwarder and a batcher outlive it, though the drain has returned. -/
theorem run_outlived :
    ∃ (a₀ a : Agent) (d : Drain) (l : Lane),
      (Agent.initial 1 ⟨[.pollCounter], []⟩).launch ⟨2, 3⟩ = some a₀ ∧ Reaches unanswered leftAlone a₀ a ∧
        a.course = .stopped 3 ∧ a.drains[0]? = some d ∧ d.hasReturned = true ∧
        d.stages.merge.lanes[0]? = some l ∧ l.forwarder ≠ .ended ∧ d.stages.batcher ≠ .ended := by
  let start : Agent := { Agent.initial 1 ⟨[.pollCounter], []⟩ with course := .running ⟨2, 2⟩ ⟨3, 3⟩ }
  have launched : (Agent.initial 1 ⟨[.pollCounter], []⟩).launch ⟨2, 3⟩ = some start := if_pos (by decide)
  obtain ⟨a, run, facts⟩ := exists_reaches unanswered leftAlone start
    [.wait 2, .work .own, .wait 3, .work .own, .ask .cancel, .work .own, .work (.drain 0 (.work 0)),
      .work (.drain 0 .finish), .work .own]
    (fun a => decide (a.course = .stopped 3) && a.drains[0]?.any fun (d : Drain) => d.hasReturned &&
      decide (d.stages.batcher ≠ .ended) &&
        d.stages.merge.lanes[0]?.any fun (l : Lane) => decide (l.forwarder ≠ .ended))
    (by decide +kernel)
  simp only [Bool.and_eq_true, decide_eq_true_eq] at facts
  obtain ⟨stopped, rest⟩ := facts
  obtain ⟨d, found, rest⟩ := (Option.any_eq_true _ _).1 rest
  simp only [Bool.and_eq_true, decide_eq_true_eq] at rest
  obtain ⟨⟨returned, batcher⟩, rest⟩ := rest
  obtain ⟨l, lane, forwarder⟩ := (Option.any_eq_true _ _).1 rest
  exact ⟨start, a, d, l, launched, run, stopped, found, returned, lane, of_decide_eq_true forwarder, batcher⟩

end Agent

end Telemetry
