/-
No deadlock. Drains overlap and share their permits, and tasks take their steps in any order; as long as
no signal comes, some task can take a step, or some worker waits for the answer to a post or for the end
of a pause, until every drain has returned (`deadlock_free`).

Whoever waits, waits for somebody who can go on. A permit that is neither free nor held by a delivery was
given to a worker, which can take it up; a worker that listens waits for a batcher, which waits for a
forwarder, which waits for a generator, which waits for nobody.
-/
import Telemetry.Proofs.Agent.Conservation
import Telemetry.Proofs.Pool.Linked

namespace Telemetry

open Pool (Drain Lawful Scene Worker)
open Stage (Batcher Pipeline Source)

/-- The tasks of a pipeline are all of its tasks that can take a step. -/
theorem Stage.Pipeline.mem_tasks_of_step {cancelled : Bool} {size : Nat} {p q : Pipeline}
    {task : Pipeline.Task} (step : p.step cancelled size task = some q) : task ∈ p.tasks := by
  cases task with
  | feed i =>
    obtain ⟨merge, hm, -⟩ := Option.map_eq_some_iff.1 step
    obtain ⟨lane, found, -⟩ := Option.bind_eq_some_iff.1 hm
    simp [Pipeline.tasks, (List.getElem?_eq_some_iff.1 found).1]
  | forward i =>
    obtain ⟨merge, hm, -⟩ := Option.map_eq_some_iff.1 step
    obtain ⟨lane, found, -⟩ := Option.bind_eq_some_iff.1 hm
    simp [Pipeline.tasks, (List.getElem?_eq_some_iff.1 found).1]
  | batch => simp [Pipeline.tasks]

namespace Agent

/-- An agent whose tasks are in keeping with each other: those of the open generators, those of every
drain, and those that wait for permits. -/
structure Linked (a : Agent) : Prop where
  pending : ∀ x ∈ a.pending, x.Linked ∧ x.out.dropped = false
  drains : ∀ d ∈ a.drains, d.Linked
  tight : a.shared.permits.Tight

variable {s : AgentSettings} {a b : Agent}

theorem linked_initial (workers : Nat) (sampler : Sampling.Sampler) : (initial workers sampler).Linked :=
  ⟨by simp [initial], by simp [initial], by simp [initial, Pool.Permits.Tight]⟩

namespace Linked

theorem drains_startDrain (h : a.Linked) {stages : Pipeline} (linked : stages.Linked)
    (listens : stages.out.dropped = false) :
    ∀ d ∈ (a.startDrain s stages).drains, d.Linked := by
  intro d hd
  rcases List.mem_append.1 hd with hd | hd
  · exact h.drains d hd
  · rw [List.mem_singleton.1 hd]
    exact Drain.linked_ofStages _ linked listens

theorem set (h : a.Linked) {n : Nat} {d : Drain} (here : d.Linked) : ∀ e ∈ a.drains.set n d, e.Linked := by
  intro e he
  rcases List.mem_or_eq_of_mem_set he with he | rfl
  · exact h.drains e he
  · exact here

/-- Every event keeps the tasks in keeping, if the drains that it starts are. -/
theorem next (h : a.Linked) {e : Event} (change : Change s a e b)
    (opens : ∀ stages, e = .ask (.drain stages) → stages.Linked ∧ stages.out.dropped = false) :
    b.Linked := by
  cases change with
  | polled collects course =>
    refine ⟨fun x hx => ?_, h.drains, h.tight⟩
    rcases List.mem_append.1 hx with hx | hx
    · exact h.pending x hx
    · rw [List.mem_singleton.1 hx]
      exact ⟨rfl, rfl⟩
  | reported collects course =>
    exact ⟨by simp [report, note, startDrain], h.drains_startDrain (Pipeline.linked_ofSources h.pending) rfl, h.tight⟩
  | turned collects course => exact ⟨h.pending, h.drains, h.tight⟩
  | waited time => exact ⟨h.pending, h.drains, h.tight⟩
  | cancelled => exact ⟨h.pending, h.drains, h.tight⟩
  | discarded => exact ⟨by simp [request], h.drains, h.tight⟩
  | opened stages =>
    obtain ⟨linked, listens⟩ := opens stages rfl
    exact ⟨h.pending, h.drains_startDrain linked listens, h.tight⟩
  | @fed i old new found step =>
    refine ⟨fun x hx => ?_, h.drains, h.tight⟩
    rcases List.mem_or_eq_of_mem_set hx with hx | rfl
    · exact h.pending x hx
    · obtain ⟨linked, listens⟩ := h.pending old (List.mem_of_getElem? found)
      obtain ⟨after, dropped, -⟩ := (Source.move_of_step step).linked linked
      exact ⟨after, dropped.trans listens⟩
  | staged found step =>
    have here := h.drains _ (List.mem_of_getElem? found)
    exact ⟨h.pending, h.set (here.stage (Pipeline.move_of_step step)), h.tight⟩
  | worked found worker step =>
    have here := h.drains _ (List.mem_of_getElem? found)
    exact ⟨h.pending, h.set (here.work worker step), (Scene.move_of_step step).tight h.tight⟩
  | returned found first ends =>
    have here := h.drains _ (List.mem_of_getElem? found)
    exact ⟨h.pending, h.set (here.finish (List.all_eq_true.1 ends) _), h.tight⟩

end Linked

theorem Reaches.linked {allowed : Agent → Event → Bool} (run : Reaches s allowed a b)
    (noDrains : ∀ c stages, allowed c (.ask (.drain stages)) = false) (first : a.Linked) : b.Linked := by
  refine run.keeps Linked first ?_
  rintro c e c' h ok step
  refine h.next (change_of_after step) ?_
  rintro stages rfl
  rw [noDrains] at ok
  cases ok

/-! ## Agents that cannot go on -/

/-- Nobody waits for a permit when no delivery waits: the one to whom it was given could take it up, and
if none was given they are all free. -/
theorem none_queues_of_stuck {total : Nat} (h : a.Linked)
    (law : Lawful total a.shared.permits a.shared.journal a.crew) (positive : 0 < total)
    (quiet : a.shared.cancelled = false) (stuck : ∀ task, a.step s task = none)
    (idle : ∀ x ∈ a.crew, x.2.awaits = false) : ∀ x ∈ a.crew, x.2.isQueueing = false := by
  have waits : ∀ x ∈ a.crew, ∃ d : Drain, (d.scene a.shared x.2).Waits x.1 := by
    intro x hx
    obtain ⟨d, found, worker⟩ := mem_crew.1 hx
    exact ⟨d, Scene.waits_of_stuck quiet (Drain.worker_still (drain_still stuck found) worker)⟩
  have none_delivers : a.crew.countP (·.2.isDelivering) = 0 := by
    refine List.countP_eq_zero.2 fun x hx delivers => ?_
    obtain ⟨d, waits⟩ := waits x hx
    exact absurd ((waits.awaits delivers).symm.trans (idle x hx)) (by simp)
  have none_given : a.shared.permits.granted = [] := by
    refine List.eq_nil_iff_forall_not_mem.2 fun seat given => ?_
    have waiting : seat ∈ a.shared.permits.waiters := List.mem_append_right _ given
    obtain ⟨x, hx, rfl⟩ := List.mem_map.1 (law.waiters.mem_iff.1 waiting)
    obtain ⟨mem, queues⟩ := List.mem_filter.1 hx
    obtain ⟨d, waits⟩ := waits x mem
    exact waits.none_given queues given
  have free : a.shared.permits.free = total := by
    have sum := law.adds_up
    rw [none_delivers, Pool.Permits.unused, none_given] at sum
    simpa using sum
  have row : a.shared.permits.row = [] := by
    by_contra some_row
    have none_free := h.tight some_row
    omega
  have nobody := law.waiters
  rw [Pool.Permits.waiters, row, none_given, List.append_nil, List.nil_perm, List.map_eq_nil_iff] at nobody
  intro x hx
  simpa using List.filter_eq_nil_iff.1 nobody x hx

/-- When no task can take a step and no delivery waits, every drain has returned and its stages are
over. -/
theorem returned_of_still {total : Nat} (h : a.Linked)
    (law : Lawful total a.shared.permits a.shared.journal a.crew) (positive : 0 < total)
    (quiet : a.shared.cancelled = false) (stuck : ∀ task, a.step s task = none)
    (idle : ∀ x ∈ a.crew, x.2.awaits = false) :
    ∀ d ∈ a.drains, d.hasReturned = true ∧ d.stages.IsOver ∧ d.stages.out.items = [] := by
  have none_queues := none_queues_of_stuck h law positive quiet stuck idle
  intro d hd
  obtain ⟨n, found⟩ := List.mem_iff_getElem?.1 hd
  refine (h.drains d hd).returned_of_stuck quiet (drain_still stuck found) ?_
  intro w hw
  obtain ⟨i, worker⟩ := List.mem_iff_getElem?.1 hw
  have mem : (⟨n, i⟩, w) ∈ a.crew := mem_crew.2 ⟨d, found, worker⟩
  exact ⟨none_queues _ mem, idle _ mem⟩

/-- A task that can take a step is one of the tasks of an agent. -/
theorem mem_tasks_of_step {task : Task} (step : a.step s task = some b) : task ∈ a.tasks := by
  cases task with
  | own => exact List.mem_cons_self
  | feed i =>
    obtain ⟨source, found, -⟩ := Option.bind_eq_some_iff.1 step
    simp [tasks, (List.getElem?_eq_some_iff.1 found).1]
  | drain n task =>
    obtain ⟨d, found, h⟩ := Option.bind_eq_some_iff.1 step
    obtain ⟨after, moved, -⟩ := Option.bind_eq_some_iff.1 h
    have mem : task ∈ d.tasks := by
      cases task with
      | finish => simp [Drain.tasks]
      | stage t =>
        obtain ⟨stages, hs, -⟩ := Option.map_eq_some_iff.1 moved
        simp [Drain.tasks, Pipeline.mem_tasks_of_step hs]
      | work i =>
        obtain ⟨w, worker, -⟩ := Option.bind_eq_some_iff.1 moved
        simp [Drain.tasks, (List.getElem?_eq_some_iff.1 worker).1]
    obtain ⟨hn, rfl⟩ := List.getElem?_eq_some_iff.1 found
    refine List.mem_append_right _ (List.mem_flatten.2 ⟨_, List.mem_mapIdx.2 ⟨n, hn, rfl⟩, ?_⟩)
    exact List.mem_map_of_mem mem

/-- Whether no task of an agent can take a step. -/
def isStuck (s : AgentSettings) (a : Agent) : Bool := a.tasks.all fun task => (a.step s task).isNone

theorem isStuck_iff : a.isStuck s = true ↔ ∀ task, a.step s task = none := by
  simp only [isStuck, List.all_eq_true, Option.isNone_iff_eq_none]
  constructor
  · intro h task
    cases step : a.step s task with
    | none => rfl
    | some b => exact step.symm.trans (h task (mem_tasks_of_step step))
  · exact fun h task _ => h task

/-- As long as no signal comes, drains that overlap and share their permits do not come to a standstill:
when no task can take a step, no post is under way and no pause is waited for, every drain has returned,
its stages are over with nothing left in their channels, and all permits are free. The records have all
been delivered or reported as failed, if batches can be made and deliveries cannot break down. -/
theorem deadlock_free {course : Course} {sampler : Sampling.Sampler}
    (run : Reaches s uninterrupted { Agent.initial s.workers sampler with course } a)
    (stuck : ∀ task, a.step s task = none) (idle : ∀ x ∈ a.crew, x.2.awaits = false) :
    (∀ d ∈ a.drains, d.hasReturned = true ∧ d.stages.IsOver ∧ d.stages.out.items = []) ∧
      a.shared.permits = { free := Pool.effectiveWorkers s.workers } ∧
      (s.delivery.Works → Batcher.fits s.batchSize = true → ∀ n (d : Drain), a.drains[n]? = some d →
        d.Settles s.batchSize n a.shared.journal) := by
  have initial := linked_initial s.workers sampler
  have linked : a.Linked :=
    run.linked (fun _ _ => rfl) ⟨initial.pending, initial.drains, initial.tight⟩
  have law : Lawful (Pool.effectiveWorkers s.workers) a.shared.permits a.shared.journal a.crew :=
    run.lawful (lawful_initial s.workers sampler)
  have quiet : a.shared.cancelled = false := by
    refine run.keeps (·.shared.cancelled = false) rfl ?_
    rintro b e c off allowed step
    exact ((change_of_after step).signal (by rintro rfl; cases allowed)).trans off
  have positive := Pool.effectiveWorkers_pos s.workers
  have returned := returned_of_still linked law positive quiet stuck idle
  have allOver : ∀ x ∈ a.crew, x.2.isOver = true := by
    intro x hx
    obtain ⟨d, found, worker⟩ := mem_crew.1 hx
    have mem := List.mem_of_getElem? found
    exact (linked.drains d mem).allOver (returned d mem).1 _ (List.mem_of_getElem? worker)
  obtain ⟨permits, -, -⟩ := law.all_free allOver
  refine ⟨returned, permits, fun works fits n d found => ?_⟩
  have conserves := conserves_of_reaches works fits run
  exact (conserves.drains n d found).settles (returned d (List.mem_of_getElem? found)).1

/-- Two drains share the permit of one worker. The second one stands in the row while the first one
delivers, and both have returned when no task can take a step any more. -/
theorem deadlock_free_two_drains :
    ∃ a : Agent, Reaches (unreached 0 0) uninterrupted (Agent.initial 1 ⟨[.pollCounter], []⟩) a ∧
      ((∀ task, a.step (unreached 0 0) task = none) ∧ (∀ x ∈ a.crew, x.2.awaits = false) ∧
        a.drains.map (·.summary) = [⟨1, 0, 1, 2⟩, ⟨1, 0, 1, 1⟩]) ∧
      (∀ d ∈ a.drains, d.hasReturned = true ∧ d.stages.IsOver ∧ d.stages.out.items = []) ∧
      a.shared.permits = { free := 1 } ∧
      ((unreached 0 0).delivery.Works → Batcher.fits 2 = true → ∀ n (d : Drain), a.drains[n]? = some d →
        d.Settles 2 n a.shared.journal) := by
  let steps (n k : Nat) (t : Drain.Task) : List Event := List.replicate k (.work (.drain n t))
  let stages (n : Nat) (lanes : List Nat) : List Event :=
    (lanes.flatMap fun i => steps n 3 (.stage (.feed i)) ++ steps n 3 (.stage (.forward i))) ++
      steps n 5 (.stage .batch)
  let workers : List Event := steps 0 3 (.work 0) ++ steps 1 3 (.work 0) ++ steps 0 6 (.work 0) ++
    steps 1 7 (.work 0) ++ steps 0 1 .finish ++ steps 1 1 .finish
  obtain ⟨a, run, facts⟩ := exists_reaches (unreached 0 0) uninterrupted (Agent.initial 1 ⟨[.pollCounter], []⟩)
    ([.ask .poll, .ask .poll, .ask .report, .ask .poll, .ask .report] ++ stages 0 [0, 1] ++ stages 1 [0] ++
      workers)
    (fun a => a.isStuck (unreached 0 0) && a.crew.all (fun x => !x.2.awaits) &&
      decide (a.drains.map (·.summary) = [⟨1, 0, 1, 2⟩, ⟨1, 0, 1, 1⟩]))
    (by decide +kernel)
  simp only [Bool.and_eq_true, decide_eq_true_eq] at facts
  obtain ⟨⟨stuck, idle⟩, summaries⟩ := facts
  have still := isStuck_iff.1 stuck
  have rests : ∀ x ∈ a.crew, x.2.awaits = false := by simpa using idle
  exact ⟨a, run, ⟨still, rests, summaries⟩, deadlock_free run still rests⟩

/-- An agent with one worker whose every post is accepted, and whose batches would take more memory than
can be asked for at once. -/
def oversized : AgentSettings where
  batchSize := 0x7fffffffffffffff
  workers := 1
  delivery :=
    { pack := Envelope.ofBatch none, policy := ⟨0, 0, 0⟩
      transport := fun _ _ => ⟨some 0, .result (.ok ())⟩ }

/-- A batcher that is refused the memory for a batch ends at once. Its drain returns without a deadlock,
but the record that was polled is neither delivered nor reported as failed. -/
theorem oversized_batch_vanishes :
    Batcher.fits oversized.batchSize = false ∧ oversized.delivery.Works ∧
      ∃ a : Agent, Reaches oversized uninterrupted (Agent.initial 1 ⟨[.pollCounter], []⟩) a ∧
        (∀ task, a.step oversized task = none) ∧ (∀ x ∈ a.crew, x.2.awaits = false) ∧
        a.drains.map (·.snapshots) = [[[Sampling.Sampler.pollCount 1]]] ∧
        a.drains.map (·.summary) = [⟨0, 0, 0, 0⟩] ∧ a.shared.journal.posts = [] := by
  let steps (k : Nat) (t : Drain.Task) : List Event := List.replicate k (.work (.drain 0 t))
  obtain ⟨a, run, facts⟩ := exists_reaches oversized uninterrupted (Agent.initial 1 ⟨[.pollCounter], []⟩)
    ([.ask .poll, .ask .report] ++ steps 1 (.stage .batch) ++ steps 3 (.stage (.feed 0)) ++
      steps 2 (.stage (.forward 0)) ++ steps 2 (.work 0) ++ steps 1 .finish)
    (fun a => a.isStuck oversized && a.crew.all (fun x => !x.2.awaits) &&
      decide (a.drains.map (·.snapshots) = [[[Sampling.Sampler.pollCount 1]]] ∧
        a.drains.map (·.summary) = [⟨0, 0, 0, 0⟩] ∧ a.shared.journal.posts = []))
    (by decide +kernel)
  simp only [Bool.and_eq_true, decide_eq_true_eq] at facts
  obtain ⟨⟨stuck, idle⟩, rest⟩ := facts
  have works : oversized.delivery.Works := ⟨fun _ => ⟨_, rfl⟩, fun _ _ => ⟨_, rfl⟩, by decide⟩
  exact ⟨by decide, works, a, run, isStuck_iff.1 stuck, by simpa using idle, rest⟩

end Agent

end Telemetry
