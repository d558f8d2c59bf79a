/-
An agent as its configuration wants it.
-/
import Telemetry.Agent.Launch
import Telemetry.Config

namespace Telemetry

open Sampling (Sampler)

/-- The most permits that there can be. -/
def Pool.permitLimit : Nat := 0x1fffffffffffffff

/-- How an agent with a configuration works. -/
def AgentSettings.ofConfig (c : Config) (transport : Transport) : AgentSettings where
  batchSize := c.batchSize.toNat
  workers := c.rateLimit.toNat
  delivery := { pack := Envelope.ofBatch c.signingKey, policy := c.policy, transport }

/-- The timers of an agent with a configuration. -/
def Schedule.ofConfig (c : Config) : Schedule := ⟨c.pollInterval, c.reportInterval⟩

/-- Sets up an agent with a configuration and starts its timers; none if there are too many permits
for its workers, or the clock cannot hold its timers. -/
def Agent.ofConfig (c : Config) (sampler : Sampler) (uptime : Span := .ofSeconds 3600) : Option Agent :=
  if Pool.effectiveWorkers c.rateLimit.toNat ≤ Pool.permitLimit then
    (Agent.initial c.rateLimit.toNat sampler).launch (Schedule.ofConfig c) uptime
  else none

theorem Agent.ofConfig_eq_some_iff {c : Config} {sampler : Sampler} {uptime : Span} {a : Agent} :
    Agent.ofConfig c sampler uptime = some a ↔ Pool.effectiveWorkers c.rateLimit.toNat ≤ Pool.permitLimit ∧
      (Agent.initial c.rateLimit.toNat sampler).launch (Schedule.ofConfig c) uptime = some a := by
  unfold Agent.ofConfig
  constructor
  · intro set
    split at set
    · exact ⟨‹_›, set⟩
    · cases set
  · rintro ⟨permits, launched⟩
    exact (if_pos permits).trans launched

end Telemetry
