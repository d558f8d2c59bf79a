/-
The agent: on every poll it reads a snapshot and opens a generator for it, on every report it hands all
open generators to a drain, and it goes on without waiting for the drain. Each step here is a step of
one of its tasks, a move of the clock, or a request from outside.
-/
import Telemetry.Pool.Drain
import Telemetry.Sampling.Collector

namespace Telemetry

open Pool (Drain Permits Shared)
open Sampling (Sampler)
open Stage (Pipeline Source)

/-- How an agent works. -/
structure AgentSettings where
  batchSize : Nat
  workers : Nat
  delivery : DeliverySettings

/-- A timer that goes off again and again. -/
structure Ticker where
  period : Span
  next : Time
deriving DecidableEq, Repr

namespace Ticker

/-- A timer that goes off for the first time when a period is over. -/
def start (now : Time) (period : Span) : Ticker := ⟨period, now + period⟩

def isDue (t : Ticker) (now : Time) : Bool := t.next ≤ now

/-- A timer that is late by more than this goes on with the next moment of its row that is still to
come. -/
def tolerance : Span := 5

/-- The timer after it went off. -/
def tick (t : Ticker) (now : Time) : Ticker :=
  if t.next + tolerance < now then { t with next := now + t.period - (now - t.next) % t.period }
  else { t with next := t.next + t.period }

end Ticker

/-- What the agent's own task does: nothing, when it is driven by hand; else it goes by its timers,
waits for its drains at the end, and is done. -/
inductive Course where
  | idle
  | running (poll report : Ticker)
  | closing
  | stopped (time : Time)
deriving DecidableEq, Repr

/-- The state of an agent. -/
structure Agent where
  shared : Shared
  sampler : Sampler
  pending : List Source := []
  drains : List Drain := []
  course : Course := .idle

namespace Agent

/-- An agent that has done nothing yet. -/
def initial (workers : Nat) (sampler : Sampler) : Agent where
  shared := { permits := { free := Pool.effectiveWorkers workers } }
  sampler := sampler

/-- The tasks that an agent has. -/
inductive Task where
  | own
  | feed (i : Nat)
  | drain (number : Nat) (task : Drain.Task)
deriving DecidableEq, Repr

/-- What comes from outside. -/
inductive Request where
  | cancel
  | poll
  | report
  | discard
  | drain (stages : Pipeline)

def now (a : Agent) : Time := a.shared.now

/-- Writes something down. -/
def note (a : Agent) (e : Entry) : Agent :=
  { a with shared := { a.shared with journal := e :: a.shared.journal } }

/-- Reads a snapshot and opens a generator for it. -/
def poll (a : Agent) : Agent :=
  let (snapshot, sampler) := a.sampler.snapshot
  { a with sampler, pending := a.pending ++ [Source.ofSnapshot snapshot] }.note
    (.polled a.now snapshot)

/-- Starts a drain. -/
def startDrain (settings : AgentSettings) (a : Agent) (stages : Pipeline) : Agent :=
  { a with drains := a.drains ++ [Drain.ofStages settings.workers stages] }

/-- Hands all open generators to a drain. -/
def report (settings : AgentSettings) (a : Agent) : Agent :=
  ({ a with pending := [] }.startDrain settings (Pipeline.ofSources a.pending)).note
    (.reported a.now (a.pending.map Source.snapshot))

/-- Whether every drain has returned. -/
def isQuiet (a : Agent) : Bool := a.drains.all (·.hasReturned)

/-- A step of the agent's own task. The signal goes before the poll, the poll before the report, and a
report of nothing is passed over. -/
def ownStep (settings : AgentSettings) (a : Agent) : Option Agent :=
  match a.course with
  | .idle => none
  | .running poll report =>
    if a.shared.cancelled then some { a with course := .closing }
    else if poll.isDue a.now then some { a.poll with course := .running (poll.tick a.now) report }
    else if report.isDue a.now then
      let course := Course.running poll (report.tick a.now)
      if a.pending.isEmpty then some { a with course } else some { a.report settings with course }
    else none
  | .closing => if a.isQuiet then some { a with course := .stopped a.now } else none
  | .stopped _ => none

/-- A step of one of the tasks. -/
def step (settings : AgentSettings) (a : Agent) : Task → Option Agent
  | .own => a.ownStep settings
  | .feed i => do
    let source ← a.pending[i]?
    let source ← source.step a.shared.cancelled
    return { a with pending := a.pending.set i source }
  | .drain number task => do
    let d ← a.drains[number]?
    let (shared, d) ← d.step settings.delivery settings.batchSize number a.shared task
    return { a with shared, drains := a.drains.set number d }

/-- Does what is asked for from outside. -/
def request (settings : AgentSettings) (a : Agent) : Request → Agent
  | .cancel => { a with shared := { a.shared with cancelled := true } }
  | .poll => a.poll
  | .report => a.report settings
  | .discard => { a with pending := [] }
  | .drain stages => a.startDrain settings stages

/-- The clock moves on. -/
def advance (a : Agent) (time : Time) : Agent :=
  { a with shared := { a.shared with now := max a.now time } }

/-- All tasks of an agent. -/
def tasks (a : Agent) : List Task :=
  .own :: (List.range a.pending.length).map .feed ++
    (a.drains.mapIdx fun i d => d.tasks.map (.drain i)).flatten

/-- The moments that the agent's tasks wait for. -/
def timers (a : Agent) : List Time :=
  (match a.course with
    | .running poll report => [poll.next, report.next]
    | _ => []) ++
  a.drains.flatMap fun d => d.workers.filterMap fun w => match w.phase with
    | .delivering _ s => s.timer?
    | _ => none

end Agent

end Telemetry
