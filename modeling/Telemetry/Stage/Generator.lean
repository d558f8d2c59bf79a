/-
The first stage: a task that sends the records of a snapshot in their order, one at a time. It ends
when all are sent, when the receiver is gone, and when it sees the cancellation signal.
-/
import Telemetry.Channel
import Telemetry.Record

namespace Telemetry.Stage

/-- The task of a generator: the records not yet looked at, the one that waits for a place, and
whether the task has ended. -/
structure Generator where
  rest : List Record
  hand : Option Record := none
  ended : Bool := false
deriving DecidableEq, Repr

/-- A generator with its snapshot and its output. -/
structure Source where
  snapshot : Snapshot
  task : Generator
  out : Channel Record := {}
deriving DecidableEq, Repr

namespace Source

/-- The generator of a snapshot. -/
def ofSnapshot (s : Snapshot) : Source where
  snapshot := s
  task := { rest := s }

/-- The task ends and gives up the sender; what it has not sent is lost. -/
def finish (s : Source) : Source where
  snapshot := s.snapshot
  task := { rest := [], hand := none, ended := true }
  out := s.out.close

/-- A step of the task: it takes the next record, and it sends the one in its hand when there is a
place for it. -/
def step (cancelled : Bool) (s : Source) : Option Source :=
  if s.task.ended then none
  else match s.task.hand, s.task.rest with
    | none, [] => some s.finish
    | none, r :: rest =>
      if cancelled then some s.finish else some { s with task := { s.task with rest, hand := some r } }
    | some r, _ =>
      if cancelled then some s.finish
      else if s.out.dropped then some s.finish
      else if s.out.hasRoom then
        some { s with task := { s.task with hand := none }, out := s.out.push r }
      else none

end Source

end Telemetry.Stage
