/-
Which accepted configurations can be run. Reading a configuration asks for nothing but intervals that are
not zero and an address; how much a setting may be is found out only where it is used, in five places: where
the permits are made, where each of the two timers is started, where room for a batch is asked for, and
where a pause grows. A configuration that keeps all five limits is run without any task breaking off, and one
that exceeds any of them is not (`runs_iff_within_limits`). What the timers may be depends on how long the host
has been up.
-/
import Telemetry.Agent.Setup
import Telemetry.Proofs.Agent.Breakdown

namespace Telemetry

open Agent (Reaches leftAlone)
open Sampling (Sampler)
open Stage (Batcher)

namespace Config

/-- The limits of what the settings ask for: of the permits there can be, of the seconds that the clock of a
host can hold when it has been up for `uptime`, of the octets that can be asked for at once with 40 for each
record, and of the milliseconds of a span, for the pause behind the last retry. -/
structure WithinLimits (c : Config) (uptime : Span) : Prop where
  permits : max c.rateLimit.toNat 1 ≤ 0x1fffffffffffffff
  poll : uptime + Span.ofSeconds c.pollSeconds.toNat < Span.ofSeconds 0x8000000000000000
  report : uptime + Span.ofSeconds c.reportSeconds.toNat < Span.ofSeconds 0x8000000000000000
  batches : 40 * max c.batchSize.toNat 1 ≤ 0x7fffffffffffffff
  pauses : c.retryInitialMillis.toNat + c.maxRetries.toNat * c.retryIncrementMillis.toNat <
    0x10000000000000000 * 1000

/-- Whether an agent with a configuration is set going on a host that has been up for `uptime`, and none of its
tasks breaks off in any order of their steps, whatever it reads and whatever is answered to its posts. -/
def CanRun (c : Config) (uptime : Span) : Prop :=
  ∀ (sampler : Sampler) (transport : Transport), transport.Lasts →
    ∃ a₀, Agent.ofConfig c sampler uptime = some a₀ ∧
      ∀ a, Reaches (.ofConfig c transport) leftAlone a₀ a → a.Unharmed (.ofConfig c transport)

variable {c : Config} {text : String} {sampler : Sampler} {uptime : Span}

/-! ## The checks behind the limits -/

/-- An accepted configuration has intervals that are not zero. -/
theorem intervals_pos (accepted : read text = .ok c) :
    0 < c.pollSeconds.toNat ∧ 0 < c.reportSeconds.toNat := by
  unfold read at accepted
  split at accepted
  · cases accepted
  · split at accepted
    · cases accepted
    · split at accepted
      · cases accepted
      · rename_i checked
        cases accepted
        unfold check at checked
        split at checked
        · cases checked
        · split at checked
          · cases checked
          · rename_i poll
            split at checked
            · cases checked
            · rename_i report
              constructor
              · exact Nat.pos_of_ne_zero fun h => poll (UInt64.toNat_inj.1 h)
              · exact Nat.pos_of_ne_zero fun h => report (UInt64.toNat_inj.1 h)

theorem isUsable_iff (accepted : read text = .ok c) : (Schedule.ofConfig c).isUsable uptime = true ↔
    uptime + Span.ofSeconds c.pollSeconds.toNat < Span.ofSeconds 0x8000000000000000 ∧
      uptime + Span.ofSeconds c.reportSeconds.toNat < Span.ofSeconds 0x8000000000000000 := by
  obtain ⟨poll, report⟩ := intervals_pos accepted
  have positive {n : Nat} (h : 0 < n) : 0 < Span.ofSeconds n := Nat.mul_pos h (by decide)
  unfold Schedule.isUsable Schedule.ofConfig pollInterval reportInterval Span.fitsClock
  simp only [Bool.and_eq_true, decide_eq_true_eq, positive poll, positive report, true_and, and_true]

/-- An agent is set going exactly when there are permits for all of its workers and the clock can hold the
ends of its first intervals. -/
theorem exists_ofConfig_iff (accepted : read text = .ok c) : (∃ a, Agent.ofConfig c sampler uptime = some a) ↔
    max c.rateLimit.toNat 1 ≤ 0x1fffffffffffffff ∧
      uptime + Span.ofSeconds c.pollSeconds.toNat < Span.ofSeconds 0x8000000000000000 ∧
      uptime + Span.ofSeconds c.reportSeconds.toNat < Span.ofSeconds 0x8000000000000000 := by
  rw [← isUsable_iff accepted]
  constructor
  · rintro ⟨a, set⟩
    obtain ⟨permits, launched⟩ := Agent.ofConfig_eq_some_iff.1 set
    exact ⟨permits, (Agent.launch_eq_some_iff.1 launched).1⟩
  · rintro ⟨permits, usable⟩
    exact ⟨_, Agent.ofConfig_eq_some_iff.2 ⟨permits, Agent.launch_eq_some_iff.2 ⟨usable, rfl⟩⟩⟩

theorem fits_policy_iff : c.policy.fits = true ↔
    c.retryInitialMillis.toNat + c.maxRetries.toNat * c.retryIncrementMillis.toNat < 0x10000000000000000 * 1000 := by
  unfold Retry.Policy.fits policy Span.longest
  rw [decide_eq_true_iff, Nat.le_sub_one_iff_lt (by decide)]

theorem fits_batch_iff : Batcher.fits c.batchSize.toNat = true ↔
    40 * max c.batchSize.toNat 1 ≤ 0x7fffffffffffffff := decide_eq_true_iff

/-! ## Runs -/

/-- Within its limits nothing breaks off. -/
theorem canRun_of_withinLimits (accepted : read text = .ok c) (within : c.WithinLimits uptime) : c.CanRun uptime := by
  intro sampler transport lasts
  obtain ⟨a₀, set⟩ := (exists_ofConfig_iff accepted).2 ⟨within.permits, within.poll, within.report⟩
  have start : a₀.drains = [] := by
    obtain ⟨-, rfl⟩ := Agent.launch_eq_some_iff.1 (Agent.ofConfig_eq_some_iff.1 set).2
    rfl
  refine ⟨a₀, set, fun a run => ?_⟩
  exact Agent.unharmed_of_reaches lasts (fits_policy_iff.2 within.pauses) (fits_batch_iff.2 within.batches) start run

/-- Nobody can be reached. -/
def nobody : Transport := fun _ _ => ⟨some 0, .result (.error (.unreachable ""))⟩

/-- Each limit is one that some run comes upon: the permits and the timers at the start, the batches at the
first report, and the pauses when nobody can be reached. -/
theorem withinLimits_of_canRun (accepted : read text = .ok c) (runs : c.CanRun uptime) : c.WithinLimits uptime := by
  obtain ⟨a₀, set, unharmed⟩ := runs ⟨[.pollCounter], []⟩ nobody fun seen post => ⟨_, rfl⟩
  obtain ⟨permits, poll, report⟩ := (exists_ofConfig_iff accepted).1 ⟨a₀, set⟩
  have launched : (Agent.initial (AgentSettings.ofConfig c nobody).workers ⟨[.pollCounter], []⟩).launch
      (.ofConfig c) uptime = some a₀ := (Agent.ofConfig_eq_some_iff.1 set).2
  have late : Ticker.tolerance < (Schedule.ofConfig c).report := by
    have positive := (intervals_pos accepted).2
    show 5 < c.reportSeconds.toNat * 1000
    omega
  have room : Batcher.fits c.batchSize.toNat = true := by
    by_contra large
    rw [Bool.not_eq_true] at large
    obtain ⟨a, run, harmed⟩ := Agent.exists_harmed_of_size launched late large
    exact harmed (unharmed a run)
  have pauses : c.policy.fits = true := by
    by_contra long
    rw [Bool.not_eq_true] at long
    have short : c.policy.initial ≤ Span.longest := by
      have := c.retryInitialMillis.toNat_lt
      show c.retryInitialMillis.toNat ≤ 0x10000000000000000 * 1000 - 1
      omega
    obtain ⟨a, run, harmed⟩ := Agent.exists_harmed_of_pauses launched late room (fun b => ⟨_, rfl⟩) short long
      fun seen post => rfl
    exact harmed (unharmed a run)
  exact ⟨permits, poll, report, fits_batch_iff.1 room, fits_policy_iff.1 pauses⟩

/-- However long the host has been up, an accepted configuration is run without any task breaking off exactly
when it keeps the limits of what its settings ask for; whether an agent is set going at all is up to the permits
and the intervals. -/
theorem runs_iff_within_limits (accepted : read text = .ok c) (uptime : Span) :
    (c.CanRun uptime ↔ c.WithinLimits uptime) ∧ ∀ sampler, (∃ a, Agent.ofConfig c sampler uptime = some a) ↔
      max c.rateLimit.toNat 1 ≤ 0x1fffffffffffffff ∧
        uptime + Span.ofSeconds c.pollSeconds.toNat < Span.ofSeconds 0x8000000000000000 ∧
        uptime + Span.ofSeconds c.reportSeconds.toNat < Span.ofSeconds 0x8000000000000000 :=
  ⟨⟨withinLimits_of_canRun accepted, canRun_of_withinLimits accepted⟩, fun _ => exists_ofConfig_iff accepted⟩

theorem runs_iff_within_limits_defaults :
    read "server_address = \"h\"" = .ok { address := ⟨"h"⟩ } ∧
      ({ address := ⟨"h"⟩ } : Config).CanRun (.ofSeconds 3600) := by
  have accepted : read "server_address = \"h\"" = .ok { address := ⟨"h"⟩ } := by decide +kernel
  refine ⟨accepted, (runs_iff_within_limits accepted _).1.2 ?_⟩
  constructor <;> decide

/-- Each of the limits is exceeded by a configuration that is accepted; the clock's, when the host has been up
for an hour. -/
theorem accepts_beyond_limits :
    (∃ c, read "server_address=\"h\"\nrate_limit=2305843009213693952" = .ok c ∧
      ∀ sampler uptime, Agent.ofConfig c sampler uptime = none) ∧
    (∃ c, read "server_address=\"h\"\npoll_interval_secs=9223372036854775806" = .ok c ∧
      ∀ sampler, Agent.ofConfig c sampler (.ofSeconds 3600) = none) ∧
    (∃ c, read "server_address=\"h\"\nbatch_size=230584300921369396" = .ok c ∧ ∀ uptime, ¬ c.CanRun uptime) ∧
    ∃ c, read "server_address=\"h\"\nmax_retries=2001\nretry_increment_ms=9223372036854775807" = .ok c ∧
      ∀ uptime, ¬ c.CanRun uptime := by
  refine ⟨⟨{ address := ⟨"h"⟩, rateLimit := 2305843009213693952 }, by decide +kernel, fun sampler uptime => ?_⟩,
    ⟨{ address := ⟨"h"⟩, pollSeconds := 9223372036854775806 }, by decide +kernel, fun sampler => ?_⟩, ?_, ?_⟩
  · exact if_neg (by decide)
  · exact (if_pos (by decide)).trans (if_neg (by decide))
  · have accepted : read "server_address=\"h\"\nbatch_size=230584300921369396" =
        .ok { address := ⟨"h"⟩, batchSize := 230584300921369396 } := by decide +kernel
    refine ⟨_, accepted, fun uptime runs => ?_⟩
    exact absurd (withinLimits_of_canRun accepted runs).batches (by decide)
  · have accepted : read "server_address=\"h\"\nmax_retries=2001\nretry_increment_ms=9223372036854775807" =
        .ok { address := ⟨"h"⟩, maxRetries := 2001, retryIncrementMillis := 9223372036854775807 } := by
      decide +kernel
    refine ⟨_, accepted, fun uptime runs => ?_⟩
    exact absurd (withinLimits_of_canRun accepted runs).pauses (by decide)

end Config

end Telemetry
