/-
Setting an agent going on its own: its two timers are started, if the clock can hold them. The clock
of a host runs from the start of the host, so how long it has been up matters.
-/
import Telemetry.Agent.Basic

namespace Telemetry

/-- The periods of the two timers. -/
structure Schedule where
  poll : Span
  report : Span
deriving DecidableEq, Repr

/-- Whether the clock of a host can hold the end of a period that begins when the host has been up for
`uptime`: it counts seconds in 63 bits. -/
def Span.fitsClock (s uptime : Span) : Bool := uptime + s < ofSeconds 0x8000000000000000

/-- Whether timers with these periods can be started. -/
def Schedule.isUsable (s : Schedule) (uptime : Span) : Bool :=
  0 < s.poll && s.poll.fitsClock uptime && 0 < s.report && s.report.fitsClock uptime

theorem Schedule.poll_pos_of_isUsable {s : Schedule} {uptime : Span} (usable : s.isUsable uptime = true) :
    0 < s.poll := by
  simp only [isUsable, Bool.and_eq_true, decide_eq_true_eq] at usable
  exact usable.1.1.1

/-- Starts the timers of an agent, on a host that has been up for an hour unless said otherwise; none if
they cannot be started. -/
def Agent.launch (s : Schedule) (a : Agent) (uptime : Span := .ofSeconds 3600) : Option Agent :=
  if s.isUsable uptime then
    some { a with course := .running (.start a.now s.poll) (.start a.now s.report) }
  else none

theorem Agent.launch_eq_some_iff {s : Schedule} {a b : Agent} {uptime : Span} :
    a.launch s uptime = some b ↔ s.isUsable uptime = true ∧
      b = { a with course := .running (.start a.now s.poll) (.start a.now s.report) } := by
  unfold launch
  constructor
  · intro launched
    split at launched
    · cases launched
      exact ⟨‹_›, rfl⟩
    · cases launched
  · rintro ⟨usable, rfl⟩
    exact if_pos usable

end Telemetry
