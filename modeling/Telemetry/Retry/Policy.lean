/-
How often and after which pauses a failed attempt is repeated, and how a call under such a policy
fails: it was cancelled, an attempt failed for good, or every attempt that is allowed failed.
-/
import Telemetry.Clock

namespace Telemetry.Retry

open Number (natText)

/-- Whether a failure may go away by itself. -/
inductive Class where
  | retriable
  | nonRetriable
deriving DecidableEq, Repr

/-- The pause before the first retry is `initial`, and each further pause is longer by `increment`. -/
structure Policy where
  maxRetries : Nat
  initial : Span := 1000
  increment : Span := 2000
deriving DecidableEq, Repr

namespace Policy

/-- A first attempt, and then the retries. -/
def maxAttempts (p : Policy) : Nat := p.maxRetries + 1

/-- What is shown of a policy. -/
def text (p : Policy) : String :=
  "Backoff \x7b max_retries: " ++ natText p.maxRetries ++ ", initial_delay: " ++ p.initial.text ++
    ", increment: " ++ p.increment.text ++ ", .. \x7d"

end Policy

/-- Why a call failed, with the number of attempts that were begun. -/
inductive Failure (ε : Type) where
  | cancelled (attempts : Nat)
  | nonRetriable (attempts : Nat) (source : ε)
  | exhausted (attempts : Nat) (source : ε)
deriving DecidableEq, Repr

namespace Failure

variable {ε : Type}

def attempts : Failure ε → Nat
  | cancelled n => n
  | nonRetriable n _ => n
  | exhausted n _ => n

def isCancelled : Failure ε → Bool
  | cancelled _ => true
  | _ => false

/-- The failed attempt that ended the call. -/
def source? : Failure ε → Option ε
  | cancelled _ => none
  | nonRetriable _ e => some e
  | exhausted _ e => some e

/-- The message, given that of the failed attempt. -/
def message (describe : ε → String) : Failure ε → String
  | cancelled n => "Backoff: cancelled after " ++ natText n ++ " attempt(s)"
  | nonRetriable n e =>
    "Backoff: non retriable failure on attempt " ++ natText n ++ ": " ++ describe e
  | exhausted n e => "Backoff: max attempts reached (" ++ natText n ++ "): " ++ describe e

end Failure

end Telemetry.Retry
