/-
Operations that go by a script: call `n` does step `n`, and the last step is repeated. Calls that
follow one another share the clock and the cancellation signal.
-/
import Telemetry.Retry.Drive

namespace Telemetry.Rehearsal

/-- Item `n` of a list, or the last one behind its end. -/
def repeatingLast? {α : Type} (xs : List α) (n : Nat) : Option α := xs[n]? <|> xs.getLast?

/-- A failure that a script asks for. -/
structure ScriptedFailure where
  reason : String
  fatal : Bool
deriving DecidableEq, Repr

namespace ScriptedFailure

def classify (f : ScriptedFailure) : Retry.Class := if f.fatal then .nonRetriable else .retriable

end ScriptedFailure

/-- How a step of a script ends. -/
inductive Ending where
  | ok
  | failure (f : ScriptedFailure)
  | hang
deriving DecidableEq, Repr

/-- A step of a script: the signal may be set off as it begins, and it takes a while. -/
structure Step where
  ending : Ending := .ok
  delay : Span := 0
  cancels : Bool := false
deriving DecidableEq, Repr

namespace Step

/-- Step `n` of a call; a success gives its number. -/
def attempt (s : Step) (n : Nat) : Retry.Attempt ScriptedFailure Nat where
  reply := match s.ending with
    | .ok => ⟨some s.delay.waited, .result (.ok n)⟩
    | .failure f => ⟨some s.delay.waited, .result (.error f)⟩
    | .hang => ⟨none, .crash⟩
  cancels := s.cancels

/-- The attempts of a script. -/
def script (steps : List Step) (n : Nat) : Retry.Attempt ScriptedFailure Nat :=
  ((repeatingLast? steps n).getD {}).attempt n

end Step

/-- Makes the calls of some scripts one after the other. -/
def calls (p : Retry.Policy) (s : Retry.Setting) :
    List (List Step) → List (Retry.Drive ScriptedFailure Nat)
  | [] => []
  | steps :: rest =>
    let d := Retry.Drive.complete p ScriptedFailure.classify (Step.script steps) s
    d :: calls p d.setting rest

end Telemetry.Rehearsal
