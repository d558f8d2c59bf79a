/-
Calls on a clock of their own: the clock stands still while a call can do something and then moves to
the next moment that anything waits for. An attempt may set off the cancellation signal as it begins.
-/
import Telemetry.Retry.Call

namespace Telemetry.Retry

variable {ε α : Type}

/-- An attempt of a script. -/
structure Attempt (ε α : Type) where
  reply : Reply ε α
  cancels : Bool := false

/-- The clock, the signal, and the moment at which the signal is set off from outside. -/
structure Setting where
  now : Time := 0
  cancelled : Bool := false
  cancelAt : Option Time := none
deriving DecidableEq, Repr

namespace Setting

/-- The moment at which the signal is still to be set off, by a timer that was set at the beginning. -/
def signal? (s : Setting) : Option Time :=
  if s.cancelled then none else s.cancelAt.map Span.waited

/-- The clock moves to the next moment. What waits for the same moment as the signal is looked after
before the signal is set off. -/
def next? (s : Setting) (timer : Option Time) : Option Setting :=
  match timer, s.signal? with
  | none, none => none
  | some t, none => some { s with now := max s.now t }
  | none, some u => some { s with now := max s.now u, cancelled := true }
  | some t, some u =>
    if t ≤ u then some { s with now := max s.now t }
    else some { s with now := max s.now u, cancelled := true }

end Setting

/-- A call under way: when its attempts began, the latest first. -/
structure Drive (ε α : Type) where
  setting : Setting
  call : Call ε α
  starts : List Time := []

namespace Drive

/-- One step: what the call does, or the move of the clock; none if nothing will happen any more. -/
def step (p : Policy) (classify : ε → Class) (script : Nat → Attempt ε α) (d : Drive ε α) :
    Option (Drive ε α) :=
  let s := d.setting
  match d.call.move p classify s.now s.cancelled with
  | .become c => some { d with call := c }
  | .begin n pause =>
    let attempt := script n
    some {
      setting := { s with cancelled := s.cancelled || attempt.cancels }
      call := Call.begin p classify s.now n pause attempt.reply
      starts := s.now :: d.starts }
  | .wait =>
    match d.call with
    | .ended _ _ => none
    | .crashed _ => none
    | c => (s.next? c.timer?).map fun s => { d with setting := s }

/-- Steps until nothing can happen, at most `fuel` of them. -/
def run (p : Policy) (classify : ε → Class) (script : Nat → Attempt ε α) :
    Nat → Drive ε α → Drive ε α
  | 0, d => d
  | fuel + 1, d => match step p classify script d with
    | none => d
    | some d => run p classify script fuel d

/-- Each attempt takes at most six steps: it begins, the clock moves, it ends, the clock moves, the
pause ends, and the signal may be set off on the way. -/
def enough (p : Policy) : Nat := 6 * p.maxAttempts + 6

/-- Makes a call from its beginning to its end. -/
def complete (p : Policy) (classify : ε → Class) (script : Nat → Attempt ε α) (s : Setting) :
    Drive ε α :=
  run p classify script (enough p) { setting := s, call := Call.initial p }

end Drive

end Telemetry.Retry
