/-
Permits to deliver. There is a fixed number of them; whoever finds none waits in a row, and a permit
that is given back goes to the first in the row.
-/
import Telemetry.Delivery.Post

namespace Telemetry.Pool

/-- The permits that nobody holds, those who wait for one, and those to whom one was given that they
have not taken up yet. -/
structure Permits where
  free : Nat
  row : List Seat := []
  granted : List Seat := []
deriving DecidableEq, Repr

namespace Permits

/-- Gives a permit back. -/
def release (p : Permits) : Permits :=
  match p.row with
  | [] => { p with free := p.free + 1 }
  | s :: rest => { p with row := rest, granted := p.granted ++ [s] }

/-- Takes a free permit; none if there is none. -/
def take? (p : Permits) : Option Permits :=
  if p.free = 0 then none else some { p with free := p.free - 1 }

/-- Waits for a permit. -/
def enqueue (p : Permits) (s : Seat) : Permits := { p with row := p.row ++ [s] }

/-- Takes up the permit that was given to someone in the row; none if none was given. -/
def collect? (p : Permits) (s : Seat) : Option Permits :=
  if s ∈ p.granted then some { p with granted := p.granted.erase s } else none

/-- Waits no longer; a permit that was given already goes back. -/
def withdraw (p : Permits) (s : Seat) : Permits :=
  match p.collect? s with
  | some p => p.release
  | none => { p with row := p.row.erase s }

end Permits

end Telemetry.Pool
