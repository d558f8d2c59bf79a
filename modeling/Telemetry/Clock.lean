/-
Moments and spans of time, in whole milliseconds of the agent's clock.
-/
import Telemetry.Number.Layout

namespace Telemetry

/-- A moment: the milliseconds since the clock was started. -/
abbrev Time := Nat

/-- A length of time in milliseconds. -/
abbrev Span := Nat

namespace Span

def ofSeconds (n : Nat) : Span := n * 1000

/-- The longest span that a delay may have: 64 bits of whole seconds. -/
def longest : Span := 0x10000000000000000 * 1000 - 1

/-- The longest time that a timer waits: thirty years of 365 days. -/
def patience : Span := ofSeconds (30 * 365 * 24 * 60 * 60)

/-- The time that a timer waits when it is set for a span. -/
def waited (s : Span) : Span := min s patience

/-- The digits of thousandths behind a point, none for a whole number. -/
def thousandths (n : Nat) : List Char :=
  if n = 0 then []
  else if n % 100 = 0 then '.' :: Number.digitChars (n / 100)
  else
    let digits := if n % 10 = 0 then Number.digitChars (n / 10) else Number.digitChars n
    let width := if n % 10 = 0 then 2 else 3
    '.' :: List.replicate (width - digits.length) '0' ++ digits

/-- A span as text: in seconds from one second on, else in milliseconds. -/
def text (s : Span) : String :=
  if 1000 ≤ s then Number.natText (s / 1000) ++ String.ofList (thousandths (s % 1000)) ++ "s"
  else if 1 ≤ s then Number.natText s ++ "ms"
  else "0ns"

end Span

end Telemetry
