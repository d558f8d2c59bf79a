/-
A drain: the stages of a report and the workers that deliver its batches. It returns when all of its
workers have come to their end; its stages are left to themselves.
-/
import Telemetry.Pool.Worker
import Telemetry.Stage.Pipeline

namespace Telemetry.Pool

open Stage (Pipeline)

/-- A drain. `received` holds the batches that its workers have received, in order. -/
structure Drain where
  stages : Pipeline
  workers : List Worker
  received : List Batch := []
  busy : Bool := false
  returned : Option Time := none

/-- A pool of so many workers, one at least. -/
def effectiveWorkers (n : Nat) : Nat := max n 1

theorem effectiveWorkers_pos (n : Nat) : 0 < effectiveWorkers n := Nat.le_max_right n 1

namespace Drain

/-- The tasks of a drain. -/
inductive Task where
  | stage (t : Pipeline.Task)
  | work (i : Nat)
  | finish
deriving DecidableEq, Repr

/-- A drain of what comes out of some stages. -/
def ofStages (workers : Nat) (stages : Pipeline) : Drain where
  stages := stages
  workers := List.replicate (effectiveWorkers workers) {}

def hasReturned (d : Drain) : Bool := d.returned.isSome

/-- What worker `i` sees. -/
def scene (d : Drain) (shared : Shared) (w : Worker) : Scene where
  shared := shared
  inbox := { batches := d.stages.out, received := d.received, busy := d.busy }
  worker := w

/-- The drain after a step of worker `i`. -/
def withScene (d : Drain) (i : Nat) (s : Scene) : Drain where
  stages := { d.stages with out := s.inbox.batches }
  workers := d.workers.set i s.worker
  received := s.inbox.received
  busy := s.inbox.busy
  returned := d.returned

/-- A step of one of the tasks of drain number `number`. -/
def step (settings : DeliverySettings) (batchSize number : Nat) (shared : Shared) (d : Drain) :
    Task → Option (Shared × Drain)
  | .stage t =>
    (d.stages.step shared.cancelled batchSize t).map fun stages => (shared, { d with stages })
  | .work i => do
    let w ← d.workers[i]?
    let s ← (d.scene shared w).step settings ⟨number, i⟩
    return (s.shared, d.withScene i s)
  | .finish =>
    if d.returned.isNone && d.workers.all (·.isOver) then
      some (shared,
        { d with returned := some shared.now, stages := { d.stages with out := d.stages.out.drop } })
    else none

/-- All tasks of a drain. -/
def tasks (d : Drain) : List Task :=
  d.stages.tasks.map .stage ++ (List.range d.workers.length).map .work ++ [.finish]

/-- What the workers tell, each of its own batches. -/
def outcomes (d : Drain) : List Outcome :=
  (d.workers.mapIdx fun i w => w.legacy.map (Outcome.ofSettled i)).flatten

/-- The totals of a drain. -/
def summary (d : Drain) : Summary := Summary.ofOutcomes d.outcomes

end Drain

end Telemetry.Pool
