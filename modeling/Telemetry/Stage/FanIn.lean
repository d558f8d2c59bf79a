/-
The second stage: one forwarder for each input, all sending to one output. A record is forwarded once
and the records of an input keep their order. The output ends when every forwarder has ended.
-/
import Telemetry.Stage.Generator

namespace Telemetry.Stage

/-- The task that forwards the records of one input. -/
inductive Forwarder where
  | waiting
  | holding (r : Record)
  | ended
deriving DecidableEq, Repr

/-- An input with its forwarder. What sends to the input is the task of its source. -/
structure Lane where
  source : Source
  forwarder : Forwarder := .waiting
deriving DecidableEq, Repr

namespace Lane

/-- The forwarder ends and gives up its input. -/
def finish (l : Lane) : Lane where
  source := { l.source with out := l.source.out.drop }
  forwarder := .ended

/-- A step of the forwarder: the lane and the output behind it. -/
def step (cancelled : Bool) (out : Channel Record) (l : Lane) : Option (Lane × Channel Record) :=
  match l.forwarder with
  | .ended => none
  | .waiting =>
    if cancelled then some (l.finish, out)
    else match l.source.out.receive with
      | (.item r, input) =>
        some ({ source := { l.source with out := input }, forwarder := .holding r }, out)
      | (.finished, _) => some (l.finish, out)
      | (.nothing, _) => none
  | .holding r =>
    if cancelled then some (l.finish, out)
    else if out.dropped then some (l.finish, out)
    else if out.hasRoom then some ({ l with forwarder := .waiting }, out.push r)
    else none

end Lane

/-- The inputs and the output. -/
structure FanIn where
  lanes : List Lane
  out : Channel Record
deriving DecidableEq, Repr

namespace FanIn

/-- Whether no forwarder is left. -/
def isOver (lanes : List Lane) : Bool := lanes.all (·.forwarder == .ended)

/-- Merges the outputs of some sources; of none, the output ends at once. -/
def ofSources (sources : List Source) : FanIn where
  lanes := sources.map fun s => { source := s }
  out := { closed := sources.isEmpty }

/-- A step of the task that sends to input `i`. -/
def feed (cancelled : Bool) (i : Nat) (f : FanIn) : Option FanIn := do
  let lane ← f.lanes[i]?
  let source ← lane.source.step cancelled
  return { f with lanes := f.lanes.set i { lane with source } }

/-- A step of forwarder `i`. The last one to end closes the output. -/
def forward (cancelled : Bool) (i : Nat) (f : FanIn) : Option FanIn := do
  let lane ← f.lanes[i]?
  let (lane, out) ← lane.step cancelled f.out
  let lanes := f.lanes.set i lane
  return { lanes, out := if isOver lanes then out.close else out }

end FanIn

end Telemetry.Stage
