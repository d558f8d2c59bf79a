/-
What a call under a retry policy does next, read backwards: a call that begins an attempt stood
between two attempts and saw no signal; a call that becomes another one was cancelled, had its answer,
or had its pause behind it.
-/
import Telemetry.Retry.Call

namespace Telemetry.Retry.Call

variable {ε α : Type} {p : Policy} {classify : ε → Class} {now : Time} {cancelled : Bool}
  {call next : Call ε α} {n : Nat} {pause : Span}

theorem ready_of_begin (h : call.move p classify now cancelled = .begin n pause) :
    call = .ready n pause ∧ cancelled = false := by
  cases call with
  | ready m q =>
    cases cancelled with
    | true => cases h
    | false => cases h; exact ⟨rfl, rfl⟩
  | attempting m q due answer =>
    simp only [move] at h
    split at h
    · cases h
    · split at h
      · split at h <;> cases h
      · cases h
  | pausing m q wake =>
    simp only [move] at h
    split at h
    · cases h
    · split at h
      · split at h <;> cases h
      · cases h
  | ended m r => cases h
  | crashed m => cases h

/-- After an answer no attempt is under way. -/
theorem answered_ne_attempting {answer reply : Answer ε α} {m : Nat} {rest : Span} {due : Option Time} :
    answered p classify now n pause answer ≠ .attempting m rest due reply := by
  unfold answered
  intro h
  split at h
  · cases h
  · cases h
  · split at h
    · cases h
    · split at h <;> cases h

/-- The ways in which a call becomes another one. -/
inductive Become (p : Policy) (classify : ε → Class) (now : Time) :
    Bool → Call ε α → Call ε α → Prop
  | give_up {call : Call ε α} (stillGoing : ∀ m r, call ≠ .ended m r) (alive : ∀ m, call ≠ .crashed m) :
      Become p classify now true call (.ended call.attempts (.error (.cancelled call.attempts)))
  | answered {due : Time} {answer : Answer ε α} (n : Nat) (pause : Span) (come : due ≤ now) :
      Become p classify now false (.attempting n pause (some due) answer)
        (Call.answered p classify now n pause answer)
  | resume {wake : Time} (n : Nat) (pause : Span) (ends : wake ≤ now)
      (fits : pause + p.increment ≤ Span.longest) :
      Become p classify now false (.pausing n pause wake) (.ready n (pause + p.increment))
  | overflow {wake : Time} (n : Nat) (pause : Span) (ends : wake ≤ now)
      (exceeds : Span.longest < pause + p.increment) :
      Become p classify now false (.pausing n pause wake) (.crashed n)

theorem become_of_move (h : call.move p classify now cancelled = .become next) :
    Become p classify now cancelled call next := by
  cases cancelled with
  | true =>
    cases call <;> cases h
    all_goals exact .give_up (fun m r h => by cases h) (fun m h => by cases h)
  | false =>
    cases call with
    | ready m q => cases h
    | attempting m q due answer =>
      cases due with
      | none => cases h
      | some due =>
        simp only [move, Bool.false_eq_true, if_false] at h
        split at h
        · cases h
          exact .answered m q ‹_›
        · cases h
    | pausing m q wake =>
      simp only [move, Bool.false_eq_true, if_false] at h
      split at h
      · split at h
        · cases h
          exact .resume m q ‹_› ‹_›
        · cases h
          exact .overflow m q ‹_› (Nat.lt_of_not_le ‹_›)
      · cases h
    | ended m r => cases h
    | crashed m => cases h

end Telemetry.Retry.Call
