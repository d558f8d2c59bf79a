/-
What the polls of a sampler read, one after another. The answers of its collectors depend on the number
of the call alone, so the `k`-th snapshot is a function of `k` (`snapshot_later`), whatever happens
between the polls. A poll counter among the collectors numbers the snapshots (`pollCounts_reading`).
-/
import Telemetry.Sampling.Collector

namespace Telemetry.Sampling

/-- A collector that was called some times more. -/
def Collector.later (calls : Nat) (c : Collector) : Collector := { c with calls := c.calls + calls }

namespace Sampler

/-- The collectors in the order in which a poll calls them. -/
def collectors (s : Sampler) : List Collector := s.counters ++ s.gauges

/-- What the `k`-th poll from now on reads. -/
def reading (s : Sampler) (k : Nat) : Snapshot :=
  s.collectors.flatMap fun c => Collector.kept (c.answer (c.calls + k))

/-- The sampler after some polls. -/
def later (polls : Nat) (s : Sampler) : Sampler where
  counters := s.counters.map (.later polls)
  gauges := s.gauges.map (.later polls)

theorem later_zero (s : Sampler) : s.later 0 = s := by
  have same : Collector.later 0 = id := rfl
  simp only [later, same, List.map_id]

/-- A poll reads the next snapshot, and no other thing changes the sampler. -/
theorem snapshot_later (s : Sampler) (polls : Nat) :
    (s.later polls).snapshot = (s.reading (polls + 1), s.later (polls + 1)) := by
  have gathered : ∀ cs : List Collector,
      Collector.collectAll (cs.map (.later polls)) =
        (cs.flatMap fun c => Collector.kept (c.answer (c.calls + (polls + 1))),
          cs.map (.later (polls + 1))) := by
    intro cs
    simp only [Collector.collectAll, List.flatMap_map, List.map_map]
    rfl
  unfold snapshot collectCounters collectGauges
  simp only [later, gathered, reading, collectors, List.flatMap_append]

/-- Whether a record is the reading of a poll counter. -/
def isPollCount (r : Record) : Bool := r.identity == ("PollCount", .counter)

/-- The poll counter's reading of the `k`-th poll. -/
def pollCount (k : Nat) : Record := .counter "PollCount" (Int64.ofNat k)

/-- With one poll counter that was not called yet, and no other counter of its name, each snapshot holds
its own number and no other. -/
theorem pollCounts_reading {s : Sampler} {before after : List Collector}
    (counts : s.collectors = before ++ .pollCounter :: after)
    (alone : ∀ c ∈ before ++ after, ∀ n, ∀ r ∈ Collector.kept (c.answer n), isPollCount r = false)
    (k : Nat) : (s.reading k).filter isPollCount = [pollCount k] := by
  have others : ∀ cs : List Collector, (∀ c ∈ cs, c ∈ before ++ after) →
      (cs.flatMap fun c => Collector.kept (c.answer (c.calls + k))).filter isPollCount = [] := by
    intro cs within
    refine List.filter_eq_nil_iff.2 fun r hr => ?_
    obtain ⟨c, hc, hr⟩ := List.mem_flatMap.1 hr
    rw [alone c (within c hc) _ r hr]
    exact Bool.false_ne_true
  have own : (Collector.kept (Collector.pollCounter.answer (0 + k))).filter isPollCount = [pollCount k] := by
    rw [Nat.zero_add]
    rfl
  unfold reading
  rw [counts, List.flatMap_append, List.flatMap_cons, List.filter_append, List.filter_append,
    others before fun c hc => List.mem_append_left _ hc,
    others after fun c hc => List.mem_append_right _ hc]
  exact congrArg ([] ++ · ++ []) own

end Sampler

end Telemetry.Sampling
