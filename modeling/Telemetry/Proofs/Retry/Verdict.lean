/-
What a call comes to whose attempts are answered by a script, told without its pauses and without a
clock: attempt after attempt, until one of them ends it (`Policy.verdict`). And how much of a call is
still to be done: each step that it takes while nobody cancels it leaves less (`Call.workload`).
-/
import Telemetry.Proofs.Retry.Steady

namespace Telemetry.Retry

variable {ε α : Type}

namespace Policy

/-- What a call comes to behind `n` failed attempts, with so many retries left: the number of its
attempts, and the result. -/
def verdictFrom (classify : ε → Class) (script : Nat → Except ε α) (retries n : Nat) :
    Nat × Except (Failure ε) α :=
  match script (n + 1) with
  | .ok a => (n + 1, .ok a)
  | .error e =>
    if classify e = .nonRetriable then (n + 1, .error (.nonRetriable (n + 1) e))
    else match retries with
      | 0 => (n + 1, .error (.exhausted (n + 1) e))
      | retries + 1 => verdictFrom classify script retries (n + 1)

/-- What a call comes to whose attempt number `n` has the answer `script n`. -/
def verdict (p : Policy) (classify : ε → Class) (script : Nat → Except ε α) : Nat × Except (Failure ε) α :=
  verdictFrom classify script p.maxRetries 0

variable {classify : ε → Class} {script : Nat → Except ε α} {retries n : Nat} {e : ε}

theorem verdictFrom_ok {a : α} (answer : script (n + 1) = .ok a) :
    verdictFrom classify script retries n = (n + 1, .ok a) := by
  unfold verdictFrom
  rw [answer]

theorem verdictFrom_final (answer : script (n + 1) = .error e) (final : classify e = .nonRetriable) :
    verdictFrom classify script retries n = (n + 1, .error (.nonRetriable (n + 1) e)) := by
  unfold verdictFrom
  simp [answer, final]

theorem verdictFrom_last (answer : script (n + 1) = .error e) (again : classify e = .retriable) :
    verdictFrom classify script 0 n = (n + 1, .error (.exhausted (n + 1) e)) := by
  unfold verdictFrom
  simp [answer, again]

theorem verdictFrom_again (answer : script (n + 1) = .error e) (again : classify e = .retriable) :
    verdictFrom classify script (retries + 1) n = verdictFrom classify script retries (n + 1) := by
  rw [verdictFrom.eq_def]
  simp [answer, again]

end Policy

/-! ## What is still to be done -/

namespace Call

variable {p : Policy} {classify : ε → Class} {now : Time} {call next : Call ε α} {n : Nat} {pause : Span}

/-- The steps that are left to a call, at most: an attempt begins, it is answered, and its pause ends. -/
def workload (p : Policy) : Call ε α → Nat
  | ready n _ => 3 * (p.maxAttempts - n)
  | attempting n _ _ _ => 3 * (p.maxAttempts - n) + 2
  | pausing n _ _ => 3 * (p.maxAttempts - n) + 1
  | ended _ _ => 0
  | crashed _ => 0

theorem workload_answered (answer : Answer ε α) :
    (answered p classify now n pause answer).workload p ≤ 3 * (p.maxAttempts - n) + 1 := by
  unfold answered
  split
  · exact Nat.zero_le _
  · exact Nat.zero_le _
  · split
    · exact Nat.zero_le _
    · split
      · exact Nat.zero_le _
      · exact Nat.le_refl _

theorem workload_become (h : call.move p classify now false = .become next) :
    next.workload p < call.workload p := by
  cases become_of_move h with
  | answered n pause come => exact Nat.lt_succ_of_le (workload_answered _)
  | resume n pause ends fits => exact Nat.lt_succ_self _
  | overflow n pause ends exceeds => exact Nat.succ_pos _

/-- An attempt that may be begun uses up one of those that are left. -/
theorem Steady.workload_begin (h : (Call.ready n pause : Call ε α).Steady p) (reply : Reply ε α) :
    (Call.begin p classify now n pause reply).workload p < (Call.ready n pause : Call ε α).workload p := by
  have few : n < p.maxAttempts := by
    cases h with
    | ready few => exact Nat.lt_succ_of_le few
  unfold Call.begin
  split
  · have rest : (answered p classify now (n + 1) pause reply.answer).workload p ≤ _ := workload_answered _
    simp only [workload] at *
    omega
  · simp only [workload]
    omega

end Call

end Telemetry.Retry
