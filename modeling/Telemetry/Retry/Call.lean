/-
A call under a retry policy, as a machine. Between attempts it looks at the cancellation signal; while
an attempt or a pause is under way the signal wins over whatever else has come to pass and has not
been seen yet. An attempt that takes no time at all has ended before anything else can be seen.
-/
import Telemetry.Retry.Policy

namespace Telemetry.Retry

variable {ε α : Type}

/-- What an attempt ends with: a result, or the end of the task that makes it. -/
inductive Answer (ε α : Type) where
  | result (r : Except ε α)
  | crash

/-- What comes of an attempt: an answer after a while, or nothing ever. -/
structure Reply (ε α : Type) where
  delay : Option Span
  answer : Answer ε α

/-- Where a call stands. `attempts` counts those that were begun, `pause` is the next pause. -/
inductive Call (ε α : Type) where
  | ready (attempts : Nat) (pause : Span)
  | attempting (attempts : Nat) (pause : Span) (due : Option Time) (answer : Answer ε α)
  | pausing (attempts : Nat) (pause : Span) (wake : Time)
  | ended (attempts : Nat) (result : Except (Failure ε) α)
  | crashed (attempts : Nat)

namespace Call

/-- A call of which nothing has been done yet. -/
def initial (p : Policy) : Call ε α := .ready 0 p.initial

/-- The attempts begun so far. -/
def attempts : Call ε α → Nat
  | ready n _ => n
  | attempting n _ _ _ => n
  | pausing n _ _ => n
  | ended n _ => n
  | crashed n => n

/-- What follows on the answer of an attempt. A pause lasts as long as a timer waits for it. -/
def answered (p : Policy) (classify : ε → Class) (now : Time) (attempts : Nat) (pause : Span) :
    Answer ε α → Call ε α
  | .crash => .crashed attempts
  | .result (.ok a) => .ended attempts (.ok a)
  | .result (.error e) =>
    if classify e = .nonRetriable then .ended attempts (.error (.nonRetriable attempts e))
    else if p.maxAttempts ≤ attempts then .ended attempts (.error (.exhausted attempts e))
    else .pausing attempts pause (now + pause.waited)

/-- Begins the next attempt with the reply that it will get. -/
def begin (p : Policy) (classify : ε → Class) (now : Time) (attempts : Nat) (pause : Span)
    (reply : Reply ε α) : Call ε α :=
  match reply.delay with
  | some 0 => answered p classify now (attempts + 1) pause reply.answer
  | delay => .attempting (attempts + 1) pause (delay.map (now + ·)) reply.answer

/-- What a call can do. -/
inductive Move (ε α : Type) where
  | wait
  | begin (attempts : Nat) (pause : Span)
  | become (c : Call ε α)

/-- What a call does next when it is looked after. -/
def move (p : Policy) (classify : ε → Class) (now : Time) (cancelled : Bool) :
    Call ε α → Move ε α
  | ready n pause =>
    if cancelled then .become (.ended n (.error (.cancelled n))) else .begin n pause
  | attempting n pause due answer =>
    if cancelled then .become (.ended n (.error (.cancelled n)))
    else match due with
      | some t => if t ≤ now then .become (answered p classify now n pause answer) else .wait
      | none => .wait
  | pausing n pause wake =>
    if cancelled then .become (.ended n (.error (.cancelled n)))
    else if wake ≤ now then
      if pause + p.increment ≤ Span.longest then .become (.ready n (pause + p.increment))
      else .become (.crashed n)
    else .wait
  | ended _ _ => .wait
  | crashed _ => .wait

/-- The moment a call is waiting for. -/
def timer? : Call ε α → Option Time
  | attempting _ _ due _ => due
  | pausing _ _ wake => some wake
  | _ => none

end Call

end Telemetry.Retry
