/-
The three stages in a row: the generators of some snapshots, their merged output, and the batches of
it.
-/
import Telemetry.Stage.Batcher
import Telemetry.Stage.FanIn

namespace Telemetry.Stage

/-- The stages behind one another. The output of the fan-in is the input of the batcher. -/
structure Pipeline where
  merge : FanIn
  batcher : Batcher := .starting
  out : Channel Batch := {}
deriving DecidableEq, Repr

namespace Pipeline

/-- The tasks of a pipeline. -/
inductive Task where
  | feed (i : Nat)
  | forward (i : Nat)
  | batch
deriving DecidableEq, Repr

/-- The stages for some generators. -/
def ofSources (sources : List Source) : Pipeline where
  merge := FanIn.ofSources sources

/-- No stages at all, and batches that are there already. -/
def ofBatches (batches : List Batch) (closed : Bool) : Pipeline where
  merge := { lanes := [], out := { closed := true, dropped := true } }
  batcher := .ended
  out := { items := batches, closed }

/-- The batcher with its ends. -/
def batching (p : Pipeline) : Batching := ⟨p.merge.out, p.batcher, p.out⟩

/-- A step of one of the tasks. -/
def step (cancelled : Bool) (size : Nat) (p : Pipeline) : Task → Option Pipeline
  | .feed i => (p.merge.feed cancelled i).map fun merge => { p with merge }
  | .forward i => (p.merge.forward cancelled i).map fun merge => { p with merge }
  | .batch => (p.batching.step cancelled size).map fun b =>
    { merge := { p.merge with out := b.input }, batcher := b.task, out := b.out }

/-- All tasks of a pipeline, in the order in which they are started. -/
def tasks (p : Pipeline) : List Task :=
  let lanes := List.range p.merge.lanes.length
  lanes.map .feed ++ lanes.map .forward ++ [.batch]

end Pipeline

end Telemetry.Stage
