/-
An agent whose tasks are served in order: places in the merged output, and the right to wait for the
next batch of a drain, are given first come, first served, and the alarms of one moment go off in the
order in which they were set. Each step here is a step of the agent, or changes the order alone
(`agent_of_step`).
-/
import Telemetry.Agent.Launch
import Telemetry.Rehearsal.Line

namespace Telemetry.Rehearsal

open Stage (Lane Pipeline)

/-- The order in a drain: whether it has begun, the forwarders that wait for a place, and the workers
that wait to listen. A drain in the background begins when it has its first turn. -/
structure Order where
  hasBegun : Bool := false
  places : Row := {}
  listeners : Row := {}
deriving DecidableEq, Repr

/-- An agent with the order in its drains, and its alarms in the order in which they were set. -/
structure Ensemble where
  agent : Agent
  orders : List Order := []
  alarms : List (Time × Agent.Task) := []

namespace Ensemble

/-! ## Alarms -/

/-- The moments that a task waits for. -/
def timersOf (a : Agent) : Agent.Task → List Time
  | .own => match a.course with
    | .running poll report => [poll.next, report.next]
    | _ => []
  | .drain number (.work i) =>
    match a.drains[number]?.bind (·.workers[i]?) with
    | some ⟨.delivering _ s, _⟩ => s.timer?.toList
    | _ => []
  | _ => []

/-- Sets the alarms of a task anew; one that stays keeps its place. -/
def setAlarms (e : Ensemble) (task : Agent.Task) (times : List Time) : Ensemble :=
  let alarms := e.alarms.filter fun (time, t) => t != task || time ∈ times
  { e with alarms := Turns.join alarms (times.map (·, task)) }

/-- The ensemble after a step of a task, with the alarms of the task set anew. -/
def rewound (before after : Ensemble) (task : Agent.Task) : Ensemble :=
  let times := timersOf after.agent task
  if timersOf before.agent task = times then after else after.setAlarms task times

/-- The tasks whose alarms go off at a moment. -/
def due (e : Ensemble) (time : Time) : List Agent.Task :=
  (e.alarms.filter fun (t, _) => t ≤ time).map (·.2)

/-- An agent with the alarms of its own task set. -/
def ofAgent (agent : Agent) : Ensemble :=
  { agent : Ensemble }.setAlarms .own (timersOf agent .own)

/-! ## Steps -/

/-- The agent after something was done to it. Drains that are new have not begun. -/
def withAgent (e : Ensemble) (agent : Agent) : Ensemble :=
  let news := agent.drains.length - e.orders.length
  { e with agent, orders := e.orders ++ List.replicate news {} }

/-- The agent and the order in one of its drains after a step there. -/
def withOrder (e : Ensemble) (number : Nat) (agent : Agent) (o : Order) : Ensemble :=
  { e with agent, orders := e.orders.set number o }

/-- A step of a stage of a drain. -/
def stageStep (s : AgentSettings) (e : Ensemble) (number : Nat) (d : Pool.Drain) (o : Order)
    (t : Pipeline.Task) : Option Ensemble :=
  let line : Line := { stages := d.stages, row := o.places }
  (line.step e.agent.shared.cancelled s.batchSize t).map fun l =>
    let drains := e.agent.drains.set number { d with stages := l.stages }
    e.withOrder number { e.agent with drains } { o with places := l.row }

/-- Whether worker `i` of a drain is about to wait for the next batch. -/
def isSeeking (d : Pool.Drain) (i : Nat) : Bool :=
  match d.workers[i]? with
  | some ⟨.seeking, _⟩ => true
  | _ => false

/-- A step of a worker of a drain. One at a time waits for the next batch. -/
def workStep (s : AgentSettings) (e : Ensemble) (number : Nat) (d : Pool.Drain) (o : Order)
    (i : Nat) : Option Ensemble :=
  let next := e.agent.step s (.drain number (.work i))
  if isSeeking d i && !e.agent.shared.cancelled then
    (o.listeners.step (if d.busy then 0 else 1) i next (some e.agent)).map fun (agent, listeners) =>
      e.withOrder number agent { o with listeners }
  else next.map fun agent =>
    let isFree := agent.drains[number]?.all fun d => !d.busy
    e.withOrder number agent
      (if d.busy && isFree then { o with listeners := o.listeners.free } else o)

/-- A step of a task of a drain. Until the drain has begun only its generators can do anything. -/
def drainStep (s : AgentSettings) (e : Ensemble) (number : Nat) (task : Pool.Drain.Task) :
    Option Ensemble := do
  let d ← e.agent.drains[number]?
  let o ← e.orders[number]?
  match task with
  | .stage (.feed i) => e.stageStep s number d o (.feed i)
  | .stage t => if o.hasBegun then e.stageStep s number d o t else none
  | .work i => if o.hasBegun then e.workStep s number d o i else none
  | .finish =>
    if o.hasBegun then
      (e.agent.step s (.drain number .finish)).map fun agent => e.withOrder number agent o
    else some (e.withOrder number e.agent { o with hasBegun := true })

/-- A step of one of the tasks. -/
def step (s : AgentSettings) (e : Ensemble) (task : Agent.Task) : Option Ensemble :=
  let after? := match task with
    | .own => (e.agent.step s .own).map e.withAgent
    | .feed i => (e.agent.step s (.feed i)).map fun agent => { e with agent }
    | .drain number t => e.drainStep s number t
  after?.map fun after => rewound e after task

/-! ## Every step is one of the agent, or changes the order alone -/

theorem agent_of_stageStep {s : AgentSettings} {e f : Ensemble} {number : Nat} {d : Pool.Drain}
    {o : Order} {t : Pipeline.Task} (hd : e.agent.drains[number]? = some d)
    (h : e.stageStep s number d o t = some f) :
    e.agent.step s (.drain number (.stage t)) = some f.agent ∨ f.agent = e.agent := by
  obtain ⟨l, hl, rfl⟩ := Option.map_eq_some_iff.1 h
  rcases Line.stages_of_step hl with h | h
  · left
    simp only at h
    simp [Agent.step, hd, Pool.Drain.step, h, withOrder]
  · right
    obtain ⟨hn, rfl⟩ := List.getElem?_eq_some_iff.1 hd
    have hset : e.agent.drains.set number { e.agent.drains[number] with stages := l.stages } =
        e.agent.drains := by
      rw [h]
      exact List.set_getElem_self hn
    simp only [withOrder, hset]

theorem agent_of_workStep {s : AgentSettings} {e f : Ensemble} {number : Nat} {d : Pool.Drain}
    {o : Order} {i : Nat} (h : e.workStep s number d o i = some f) :
    e.agent.step s (.drain number (.work i)) = some f.agent ∨ f.agent = e.agent := by
  unfold workStep at h
  split at h
  · obtain ⟨p, hp, rfl⟩ := Option.map_eq_some_iff.1 h
    exact (Row.step_fst hp).imp id fun h => (Option.some.inj h).symm
  · obtain ⟨a, ha, rfl⟩ := Option.map_eq_some_iff.1 h
    exact .inl ha

theorem agent_of_drainStep {s : AgentSettings} {e f : Ensemble} {number : Nat}
    {t : Pool.Drain.Task} (h : e.drainStep s number t = some f) :
    e.agent.step s (.drain number t) = some f.agent ∨ f.agent = e.agent := by
  unfold drainStep at h
  obtain ⟨d, hd, h⟩ := Option.bind_eq_some_iff.1 h
  obtain ⟨o, -, h⟩ := Option.bind_eq_some_iff.1 h
  split at h
  · exact agent_of_stageStep hd h
  · split at h
    · exact agent_of_stageStep hd h
    · cases h
  · split at h
    · exact agent_of_workStep h
    · cases h
  · split at h
    · obtain ⟨a, ha, rfl⟩ := Option.map_eq_some_iff.1 h
      exact .inl ha
    · cases h
      exact .inr rfl

theorem agent_rewound (before after : Ensemble) (task : Agent.Task) :
    (rewound before after task).agent = after.agent := by
  simp only [rewound]
  split <;> rfl

theorem agent_of_step {s : AgentSettings} {e f : Ensemble} {task : Agent.Task}
    (h : e.step s task = some f) : e.agent.step s task = some f.agent ∨ f.agent = e.agent := by
  obtain ⟨g, hg, rfl⟩ := Option.map_eq_some_iff.1 h
  rw [agent_rewound]
  split at hg
  · obtain ⟨a, ha, rfl⟩ := Option.map_eq_some_iff.1 hg
    exact .inl ha
  · obtain ⟨a, ha, rfl⟩ := Option.map_eq_some_iff.1 hg
    exact .inl ha
  · exact agent_of_drainStep hg

/-! ## Who is set going -/

/-- Those of some tasks that can do something. -/
def ready (s : AgentSettings) (e : Ensemble) (tasks : List Agent.Task) : List Agent.Task :=
  tasks.filter fun t => (e.step s t).isSome

/-- The tasks that a drain starts as it begins. -/
def crew (d : Pool.Drain) : List Pool.Drain.Task :=
  (List.range d.stages.merge.lanes.length).map (.stage <| .forward ·) ++
    .stage .batch :: (List.range d.workers.length).map .work

/-- The tasks that are new after something was done to the agent: its generators, those that were
handed to a drain, and the drains by themselves. -/
def newcomers (s : AgentSettings) (before after : Ensemble) : List Agent.Task :=
  let generators := (List.range after.agent.pending.length).drop before.agent.pending.length
  let drains := after.agent.drains.zipIdx.drop before.agent.drains.length
  generators.map .feed ++ drains.flatMap fun (d, number) =>
    let sources := List.range d.stages.merge.lanes.length
    after.ready s (sources.map (.drain number <| .stage <| .feed ·)) ++ [.drain number .finish]

/-- The tasks that a step of a stage of drain `number` has set going: other stages, and the worker that
waits for the first batch of an output that was empty. -/
def wokenByStage (s : AgentSettings) (number : Nat) (before after : Pool.Drain × Order)
    (e : Ensemble) (t : Pipeline.Task) : List Agent.Task :=
  let line (p : Pool.Drain × Order) : Line := { stages := p.1.stages, row := p.2.places }
  let stages := Line.neighbours (line before) (line after) t
  let wasEmpty := before.1.stages.out.items.isEmpty
  let isEmpty := after.1.stages.out.items.isEmpty && !after.1.stages.out.closed
  let listener := if wasEmpty && !isEmpty then after.1.workers.findIdx? (·.isListening) else none
  e.ready s (stages.map (.drain number <| .stage ·) ++
    listener.toList.map (.drain number <| .work ·))

/-- The tasks that a step of worker `i` of drain `number` has set going: the batcher behind which a
place came free, the worker that may listen next, those to whom a permit was given, and the drain
itself when the last worker has ended. -/
def wokenByWorker (s : AgentSettings) (number i : Nat) (before after : Pool.Drain × Order)
    (e : Ensemble) : List Agent.Task :=
  let hasReceived := after.1.stages.out.items.length < before.1.stages.out.items.length
  e.ready s ((if hasReceived then [.drain number (.stage .batch)] else []) ++
      after.2.listeners.kept.map (.drain number <| .work ·)) ++
    e.agent.shared.permits.granted.map (fun seat => .drain seat.drain (.work seat.worker)) ++
    (if after.1.workers[i]?.all (·.isOver) then e.ready s [.drain number .finish] else [])

/-- A drain of an ensemble with its order. -/
def drain? (e : Ensemble) (number : Nat) : Option (Pool.Drain × Order) := do
  return (← e.agent.drains[number]?, ← e.orders[number]?)

/-- The tasks that a step has set going. -/
def woken (s : AgentSettings) (before after : Ensemble) : Agent.Task → List Agent.Task
  | .own => newcomers s before after
  | .feed _ => []
  | .drain number task =>
    match before.drain? number, after.drain? number, task with
    | some p, some q, .stage t => wokenByStage s number p q after t
    | some p, some q, .work i => wokenByWorker s number i p q after
    | some p, some q, .finish =>
      if p.2.hasBegun then after.ready s [.drain number (.stage .batch), .own]
      else (crew q.1).map (.drain number ·)
    | _, _, _ => []

/-! ## All tasks -/

/-- Whether nothing of a lane is left to do. -/
def isSpent (l : Lane) : Bool := l.forwarder == .ended && l.source.task.ended

/-- The tasks of a drain that have not ended. -/
def liveOf (d : Pool.Drain) : List Pool.Drain.Task :=
  if d.hasReturned && d.stages.batcher == .ended && d.stages.merge.lanes.all isSpent then []
  else
    (d.stages.merge.lanes.mapIdx fun i l =>
      if isSpent l then [] else [.stage (.feed i), .stage (.forward i)]).flatten ++
    .stage .batch ::
    (d.workers.mapIdx fun i w => if w.isOver then [] else [.work i]).flatten ++ [.finish]

/-- The tasks of an agent that have not ended. -/
def liveTasks (a : Agent) : List Agent.Task :=
  .own :: (a.pending.mapIdx fun i source => if source.task.ended then [] else [.feed i]).flatten ++
    (a.drains.mapIdx fun i d => (liveOf d).map (.drain i)).flatten

/-- The rules by which the tasks take turns. -/
def rules (s : AgentSettings) : Turns.Rules Ensemble Agent.Task where
  step := step s
  woken := woken s
  tasks e := liveTasks e.agent

end Ensemble

end Telemetry.Rehearsal
