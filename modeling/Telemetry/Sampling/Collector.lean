/-
What the agent reads on a poll: collectors of counters and of gauges, each asked once in its turn. One
that fails is left out, and so are gauges that no text can hold; nothing else is.
-/
import Telemetry.Record

namespace Telemetry.Sampling

/-- A reader of metrics, by what it gives when it is called for the `n`-th time, from one on; none
says that it fails. -/
structure Collector where
  answer : Nat → Option (List Record)
  calls : Nat := 0

namespace Collector

/-- Calls a collector. -/
def collect (c : Collector) : Option (List Record) × Collector :=
  (c.answer (c.calls + 1), { c with calls := c.calls + 1 })

/-- Counts the times that it is called. -/
def pollCounter : Collector where
  answer n := some [.counter "PollCount" (Int64.ofNat n)]

/-- The records of an answer that a batch can hold. -/
def kept (answer : Option (List Record)) : List Record :=
  (answer.getD []).filter (·.isFinite)

/-- Calls some collectors in their order. -/
def collectAll (cs : List Collector) : List Record × List Collector :=
  (cs.flatMap fun c => kept c.collect.1, cs.map fun c => c.collect.2)

end Collector

/-- The collectors of an agent. -/
structure Sampler where
  counters : List Collector
  gauges : List Collector

namespace Sampler

def collectCounters (s : Sampler) : List Record × Sampler :=
  let (records, counters) := Collector.collectAll s.counters
  (records, { s with counters })

def collectGauges (s : Sampler) : List Record × Sampler :=
  let (records, gauges) := Collector.collectAll s.gauges
  (records, { s with gauges })

/-- The counters and then the gauges. -/
def snapshot (s : Sampler) : Snapshot × Sampler :=
  let (counters, s) := s.collectCounters
  let (gauges, s) := s.collectGauges
  (counters ++ gauges, s)

end Sampler

end Telemetry.Sampling
