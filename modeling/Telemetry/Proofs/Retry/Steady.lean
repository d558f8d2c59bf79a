/-
A call that nobody cancels and whose attempts are all answered in the end comes to a result, or it goes
on; it never breaks down, as long as a span can hold the last pause of its policy. The pause behind
`n` retries is a function of `n`, and it is longest behind the last one.
-/
import Telemetry.Proofs.Retry.Move

namespace Telemetry.Retry

/-- Whether a span can hold every pause of a policy. -/
def Policy.fits (p : Policy) : Bool := decide (p.initial + p.maxRetries * p.increment ≤ Span.longest)

/-- The pause behind so many retries. -/
def Policy.pause (p : Policy) (retries : Nat) : Span := p.initial + retries * p.increment

theorem Policy.pause_zero (p : Policy) : p.pause 0 = p.initial := by
  unfold pause
  rw [Nat.zero_mul, Nat.add_zero]

theorem Policy.pause_succ (p : Policy) (n : Nat) : p.pause (n + 1) = p.pause n + p.increment := by
  unfold pause
  rw [Nat.succ_mul, Nat.add_assoc]

theorem Policy.pause_le {p : Policy} {n : Nat} (fits : p.fits = true) (few : n ≤ p.maxRetries) :
    p.pause n ≤ Span.longest :=
  Nat.le_trans (Nat.add_le_add_left (Nat.mul_le_mul_right _ few) _) (of_decide_eq_true fits)

namespace Call

variable {ε α : Type} {p : Policy} {classify : ε → Class} {now : Time} {call next : Call ε α}

/-- A call that has made the pauses of its policy and was neither cancelled nor broken off. -/
inductive Steady (p : Policy) : Call ε α → Prop
  | ready {n : Nat} (few : n ≤ p.maxRetries) : Steady p (.ready n (p.pause n))
  | attempting {n : Nat} {due : Option Time} {r : Except ε α} (few : n ≤ p.maxRetries) :
      Steady p (.attempting (n + 1) (p.pause n) due (.result r))
  | pausing {n : Nat} {wake : Time} (few : n < p.maxRetries) :
      Steady p (.pausing (n + 1) (p.pause n) wake)
  | ended {n : Nat} {r : Except (Failure ε) α} (kept : ∀ m, r ≠ .error (.cancelled m)) :
      Steady p (.ended (n + 1) r)

theorem steady_initial (p : Policy) : (initial p : Call ε α).Steady p := by
  unfold initial
  rw [← p.pause_zero]
  exact .ready (Nat.zero_le _)

theorem attempts_answered (n : Nat) (pause : Span) (answer : Answer ε α) :
    (answered p classify now n pause answer).attempts = n := by
  unfold answered
  split
  · rfl
  · rfl
  · split
    · rfl
    · split <;> rfl

/-- Every answer ends a call or leads to the next pause. -/
theorem steady_answered (n : Nat) (r : Except ε α) :
    (answered p classify now (n + 1) (p.pause n) (.result r)).Steady p := by
  cases r with
  | ok a => exact .ended (r := .ok a) (by intro m h; cases h)
  | error e =>
    simp only [answered]
    split
    · exact .ended (by intro m h; cases h)
    · split
      · exact .ended (by intro m h; cases h)
      · rename_i more
        exact .pausing (Nat.lt_of_succ_lt_succ (Nat.lt_of_not_le more))

/-- A call that nobody cancels goes on steadily, by as many attempts as before. -/
theorem Steady.become (h : call.Steady p) (fits : p.fits = true)
    (m : call.move p classify now false = .become next) :
    next.Steady p ∧ next.attempts = call.attempts := by
  cases h with
  | ready few => cases m
  | attempting few =>
    cases become_of_move m with
    | answered n pause come => exact ⟨steady_answered _ _, attempts_answered _ _ _⟩
  | @pausing n wake few =>
    have longest := Policy.pause_le fits (Nat.succ_le_of_lt few)
    cases become_of_move m with
    | resume n pause ends held =>
      rw [← Policy.pause_succ]
      exact ⟨.ready few, rfl⟩
    | overflow n pause ends exceeds =>
      rw [Policy.pause_succ] at longest
      exact absurd exceeds (Nat.not_lt.2 longest)
  | ended kept => cases m

/-- The next attempt that is begun keeps a call steady when it has an answer. -/
theorem Steady.begin {n : Nat} {pause : Span} (h : (Call.ready n pause : Call ε α).Steady p)
    {reply : Reply ε α} {r : Except ε α} (answer : reply.answer = .result r) :
    (Call.begin p classify now n pause reply).Steady p ∧
      0 < (Call.begin p classify now n pause reply).attempts := by
  cases h with
  | ready few =>
    unfold Call.begin
    split
    · rw [answer, attempts_answered]
      exact ⟨steady_answered n r, Nat.succ_pos n⟩
    · rw [answer]
      exact ⟨.attempting few, Nat.succ_pos _⟩

end Call

end Telemetry.Retry
