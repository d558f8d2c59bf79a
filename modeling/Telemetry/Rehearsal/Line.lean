/-
The stages of a pipeline with the places of the merged output given first come, first served: of the
forwarders that hold a record while the output is full, the one that has waited longest sends first.
-/
import Telemetry.Rehearsal.Row
import Telemetry.Stage.Pipeline
import Telemetry.Turns

namespace Telemetry.Rehearsal

open Stage (FanIn Pipeline)

/-- A fan-in with the row of the forwarders that wait for a place. -/
structure Merger where
  fanIn : FanIn
  row : Row := {}
deriving DecidableEq, Repr

namespace Merger

/-- Whether forwarder `i` is about to send. -/
def isSending (cancelled : Bool) (m : Merger) (i : Nat) : Bool :=
  !cancelled && !m.fanIn.out.dropped && match m.fanIn.lanes[i]? with
    | some ⟨_, .holding _⟩ => true
    | _ => false

/-- The number of places of the output that hold nothing. -/
def room (m : Merger) : Nat := Channel.capacity - m.fanIn.out.items.length

/-- A step of forwarder `i`. -/
def forward (cancelled : Bool) (i : Nat) (m : Merger) : Option Merger :=
  let next := m.fanIn.forward cancelled i
  if m.isSending cancelled i then
    (m.row.step m.room i next (some m.fanIn)).map fun (fanIn, row) => { fanIn, row }
  else next.map fun fanIn => { m with fanIn }

/-- A step of a forwarder is one of the fan-in, or changes the row alone. -/
theorem fanIn_of_forward {cancelled : Bool} {i : Nat} {m n : Merger}
    (h : m.forward cancelled i = some n) :
    m.fanIn.forward cancelled i = some n.fanIn ∨ n.fanIn = m.fanIn := by
  unfold forward at h
  split at h
  · obtain ⟨p, hp, rfl⟩ := Option.map_eq_some_iff.1 h
    exact (Row.step_fst hp).imp id fun h => (Option.some.inj h).symm
  · obtain ⟨f, hf, rfl⟩ := Option.map_eq_some_iff.1 h
    exact .inl hf

/-- The merger when its output has become `out` at the hands of whoever receives from it. -/
def withOut (m : Merger) (out : Channel Record) : Merger where
  fanIn := { m.fanIn with out }
  row := if out.items.length < m.fanIn.out.items.length then m.row.free else m.row

end Merger

/-- A pipeline with the row of the forwarders that wait for a place. -/
structure Line where
  stages : Pipeline
  row : Row := {}
deriving DecidableEq, Repr

namespace Line

/-- The second stage of a pipeline. -/
def merger (l : Line) : Merger := ⟨l.stages.merge, l.row⟩

/-- A step of one of the tasks. -/
def step (cancelled : Bool) (size : Nat) (l : Line) : Pipeline.Task → Option Line
  | .forward i => (l.merger.forward cancelled i).map fun m =>
    { stages := { l.stages with merge := m.fanIn }, row := m.row }
  | t => (l.stages.step cancelled size t).map fun stages =>
    { stages, row := (l.merger.withOut stages.merge.out).row }

/-- A step is one of the stages, or changes the row alone. -/
theorem stages_of_step {cancelled : Bool} {size : Nat} {l k : Line} {t : Pipeline.Task}
    (h : l.step cancelled size t = some k) :
    l.stages.step cancelled size t = some k.stages ∨ k.stages = l.stages := by
  unfold step at h
  split at h
  · obtain ⟨m, hm, rfl⟩ := Option.map_eq_some_iff.1 h
    rcases Merger.fanIn_of_forward hm with h | h
    · exact .inl (by simp [Pipeline.step, Line.merger] at h ⊢; simp [h])
    · exact .inr (by simp [h, Line.merger])
  · obtain ⟨p, hp, rfl⟩ := Option.map_eq_some_iff.1 h
    exact .inl hp

/-- The tasks that a step of a task may set going: the one behind an output that was empty, the one
before an input that was full, those for whom a place is kept, and all that send to an input that is
given up. -/
def neighbours (before after : Line) : Pipeline.Task → List Pipeline.Task
  | .feed i => [.forward i]
  | .forward i =>
    .feed i :: if before.stages.merge.out.items.isEmpty then [.batch] else []
  | .batch =>
    let merge := after.stages.merge
    if merge.out.dropped then (List.range merge.lanes.length).map .forward
    else after.row.kept.map .forward

/-- The rules by which the tasks take turns. -/
def rules (cancelled : Bool) (size : Nat) : Turns.Rules Line Pipeline.Task where
  step := step cancelled size
  woken before after task :=
    (neighbours before after task).filter fun t => (step cancelled size after t).isSome
  tasks l := l.stages.tasks

/-- The stages with all of their tasks set going. -/
def start (stages : Pipeline) : Turns Line Pipeline.Task :=
  { state := { stages }, row := stages.tasks }

end Line

end Telemetry.Rehearsal
