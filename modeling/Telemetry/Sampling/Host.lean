/-
The collectors of an agent on a host: the poll counter, the agent's own process, the memory and the
processors. What is read of the host is given for each call.
-/
import Telemetry.Number.Layout
import Telemetry.Sampling.Collector

namespace Telemetry.Sampling

open Number (Binary64 natText)

/-- What is known of the agent's process. -/
structure ProcessReading where
  residentMemory : Nat
  virtualMemory : Nat
  processorUsage : Binary64
deriving DecidableEq, Repr

/-- What is read of the host in one call. `random` is drawn anew each time. -/
structure HostReading where
  process : Option ProcessReading
  random : Binary64
  totalMemory : Nat
  freeMemory : Nat
  processorUsages : List Binary64
deriving DecidableEq, Repr

namespace HostReading

/-- The gauges of the agent's process, where it is found. -/
def processGauges (h : HostReading) : Option (List Record) :=
  h.process.map fun p => [
    .gauge "ProcessResidentMemory" (.ofNat p.residentMemory),
    .gauge "ProcessVirtualMemory" (.ofNat p.virtualMemory),
    .gauge "ProcessCPUUsage" p.processorUsage,
    .gauge "RandomValue" h.random]

/-- The gauges of the memory; a host without memory has told nothing. -/
def memoryGauges (h : HostReading) : Option (List Record) :=
  if h.totalMemory = 0 then none
  else some [
    .gauge "TotalMemory" (.ofNat h.totalMemory),
    .gauge "FreeMemory" (.ofNat h.freeMemory)]

/-- The gauge of processor `i`; the first one has number 1. -/
def processorGauge (i : Nat) (usage : Binary64) : Record :=
  .gauge ("CPUutilization" ++ natText (i + 1)) usage

/-- The gauges of the processors. -/
def processorGauges (h : HostReading) : Option (List Record) :=
  if h.processorUsages.isEmpty then none else some (h.processorUsages.mapIdx processorGauge)

end HostReading

/-- The collectors of an agent on a host, by what is read in each call. -/
def Sampler.ofHost (host : Nat → HostReading) : Sampler where
  counters := [.pollCounter]
  gauges := [
    { answer := fun n => (host n).processGauges },
    { answer := fun n => (host n).memoryGauges },
    { answer := fun n => (host n).processorGauges }]

end Telemetry.Sampling
