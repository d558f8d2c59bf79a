/-
The timetable of a call that nobody cancels. Its attempts are answered by a script, each after a span
of its own. The call ends with the first attempt that succeeds, fails for good or is the last one that
the policy allows, and with the result that this attempt brings. Every attempt begins when the one
before it and the pause behind that are over (`Policy.begins`), and nothing is waited for behind the
last one: `call_by_schedule`. Told without a clock this is the verdict (`Policy.verdict_eq`).

The proof follows the call attempt by attempt: an attempt takes at most three steps and a pause at
most two, so that the steps a call is given are enough (`Drive.Leads`).
-/
import Mathlib.Algebra.BigOperators.Intervals
import Mathlib.Algebra.BigOperators.Ring.Finset
import Telemetry.Retry.Drive
import Telemetry.Proofs.Retry.Verdict

namespace Telemetry.Retry

variable {ε α : Type}

/-! ## The timetable -/

namespace Policy

/-- Whether a call can go no further than attempt `n`, which has the answer `answers n`. -/
def EndsAt (p : Policy) (classify : ε → Class) (answers : Nat → Except ε α) (n : Nat) : Prop :=
  (∃ a, answers n = .ok a) ∨ (∃ e, answers n = .error e ∧ classify e = .nonRetriable) ∨ n = p.maxAttempts

/-- What a call comes to that ends with attempt `n`. -/
def conclude (classify : ε → Class) (n : Nat) : Except ε α → Except (Failure ε) α
  | .ok a => .ok a
  | .error e => .error (if classify e = .nonRetriable then .nonRetriable n e else .exhausted n e)

/-- When the attempt behind `n` others begins, in a call made at `start` whose attempt number `i` takes
`spans i`: their spans have gone by, and the pauses behind them. -/
def begins (p : Policy) (spans : Nat → Span) (start : Time) (n : Nat) : Time :=
  start + ∑ i ∈ Finset.range n, (spans (i + 1) + (p.pause i).waited)

variable {p : Policy} {spans : Nat → Span} {start : Time}

theorem begins_succ (n : Nat) :
    p.begins spans start (n + 1) = p.begins spans start n + spans (n + 1) + (p.pause n).waited := by
  unfold begins
  rw [Finset.sum_range_succ]
  simp only [Nat.add_assoc]

/-- While a timer waits for every pause in full, each pause is longer by the increment than the one
before it. -/
theorem begins_of_patient (n : Nat) (patient : p.initial + (n - 1) * p.increment ≤ Span.patience) :
    p.begins spans start n = start + ∑ i ∈ Finset.range n, spans (i + 1) +
      n * p.initial + p.increment * (n * (n - 1) / 2) := by
  have full : ∀ i ∈ Finset.range n, (p.pause i).waited = p.initial + i * p.increment := by
    intro i few
    have few : i ≤ n - 1 := Nat.le_sub_one_of_lt (Finset.mem_range.1 few)
    exact Nat.min_eq_left
      (Nat.le_trans (Nat.add_le_add_left (Nat.mul_le_mul_right _ few) _) patient)
  have pauses : ∑ i ∈ Finset.range n, (p.pause i).waited =
      n * p.initial + p.increment * (n * (n - 1) / 2) := by
    rw [Finset.sum_congr rfl full, Finset.sum_add_distrib, ← Finset.sum_mul, Finset.sum_range_id]
    simp [Nat.mul_comm]
  unfold begins
  rw [Finset.sum_add_distrib, pauses]
  simp only [Nat.add_assoc]

/-! ## The attempt that ends a call -/

variable {classify : ε → Class} {answers : Nat → Except ε α} {n : Nat}

theorem EndsAt.cases (ends : p.EndsAt classify answers n) :
    (∃ a, answers n = .ok a) ∨ ∃ e, answers n = .error e ∧
      (classify e = .nonRetriable ∨ classify e = .retriable ∧ n = p.maxAttempts) := by
  rcases ends with success | ⟨e, answer, final⟩ | last
  · exact .inl success
  · exact .inr ⟨e, answer, .inl final⟩
  · cases answer : answers n with
    | ok a => exact .inl ⟨a, rfl⟩
    | error e =>
      refine .inr ⟨e, rfl, ?_⟩
      cases classified : classify e with
      | nonRetriable => exact .inl rfl
      | retriable => exact .inr ⟨rfl, last⟩

theorem again_of_not_endsAt (goes : ¬ p.EndsAt classify answers n) :
    ∃ e, answers n = .error e ∧ classify e = .retriable ∧ n ≠ p.maxAttempts := by
  cases answer : answers n with
  | ok a => exact absurd (.inl ⟨a, answer⟩) goes
  | error e =>
    cases classified : classify e with
    | nonRetriable => exact absurd (.inr (.inl ⟨e, answer, classified⟩)) goes
    | retriable => exact ⟨e, rfl, classified, fun last => goes (.inr (.inr last))⟩

theorem answered_of_endsAt {now : Time} {pause : Span} (ends : p.EndsAt classify answers n) :
    Call.answered p classify now n pause (.result (answers n)) =
      .ended n (conclude classify n (answers n)) := by
  rcases ends.cases with ⟨a, answer⟩ | ⟨e, answer, final | ⟨again, last⟩⟩
  · simp [Call.answered, conclude, answer]
  · simp [Call.answered, conclude, answer, final]
  · have all : p.maxAttempts ≤ n := Nat.le_of_eq last.symm
    simp [Call.answered, conclude, answer, again, all]

theorem answered_of_not_endsAt {now : Time} {pause : Span} (goes : ¬ p.EndsAt classify answers n)
    (few : n ≤ p.maxAttempts) :
    Call.answered p classify now n pause (.result (answers n)) =
      .pausing n pause (now + pause.waited) := by
  obtain ⟨e, answer, again, other⟩ := again_of_not_endsAt goes
  have more : ¬ p.maxAttempts ≤ n := fun many => other (Nat.le_antisymm few many)
  simp [Call.answered, answer, again, more]

theorem verdictFrom_of_endsAt {retries : Nat} (all : n + retries = p.maxRetries)
    (ends : p.EndsAt classify answers (n + 1)) :
    verdictFrom classify answers retries n = (n + 1, conclude classify (n + 1) (answers (n + 1))) := by
  rcases ends.cases with ⟨a, answer⟩ | ⟨e, answer, final | ⟨again, last⟩⟩
  · rw [verdictFrom_ok answer, answer]
    rfl
  · rw [verdictFrom_final answer final, answer]
    simp [conclude, final]
  · obtain rfl : retries = 0 := by
      have last : n = p.maxRetries := Nat.succ.inj last
      omega
    rw [verdictFrom_last answer again, answer]
    simp [conclude, again]

/-- What a call comes to, told without a clock, is what its first attempt brings that ends it. -/
theorem verdict_eq (least : IsLeast { i | 0 < i ∧ p.EndsAt classify answers i } n) :
    p.verdict classify answers = (n, conclude classify n (answers n)) := by
  suffices every : ∀ retries m, m + retries = p.maxRetries → m < n →
      verdictFrom classify answers retries m = (n, conclude classify n (answers n)) from
    every p.maxRetries 0 (Nat.zero_add _) least.1.1
  have before : ∀ m, m + 1 < n → ¬ p.EndsAt classify answers (m + 1) := by
    intro m early ends
    exact absurd (least.2 ⟨Nat.succ_pos m, ends⟩) (Nat.not_le.2 early)
  intro retries
  induction retries with
  | zero =>
    intro m all early
    have last : p.EndsAt classify answers (m + 1) := .inr (.inr (congrArg (· + 1) all))
    obtain rfl : n = m + 1 := by
      by_contra other
      exact before m (Nat.lt_of_le_of_ne early (Ne.symm other)) last
    exact verdictFrom_of_endsAt all last
  | succ retries ih =>
    intro m all early
    rcases Nat.eq_or_lt_of_le early with rfl | early
    · exact verdictFrom_of_endsAt all least.1.2
    · obtain ⟨e, answer, again, -⟩ := again_of_not_endsAt (before m early)
      rw [verdictFrom_again answer again]
      exact ih (m + 1) (by omega) early

end Policy

/-! ## From attempt to attempt -/

/-- Attempts that are all answered, number `i` by `answers i` after `spans i`. -/
def scripted (spans : Nat → Span) (answers : Nat → Except ε α) (n : Nat) : Attempt ε α :=
  { reply := { delay := some (spans (n + 1)), answer := .result (answers (n + 1)) } }

namespace Drive

variable {p : Policy} {classify : ε → Class} {script : Nat → Attempt ε α} {d e f : Drive ε α} {j k : Nat}

/-- So many steps lead from one state of a call to another. -/
def Leads (p : Policy) (classify : ε → Class) (script : Nat → Attempt ε α) (k : Nat)
    (d e : Drive ε α) : Prop :=
  ∀ fuel, run p classify script (fuel + k) d = run p classify script fuel e

theorem Leads.refl (d : Drive ε α) : Leads p classify script 0 d d := fun _ => rfl

theorem leads_one (h : step p classify script d = some e) : Leads p classify script 1 d e := by
  intro fuel
  rw [run, h]

theorem Leads.trans (first : Leads p classify script j d e) (second : Leads p classify script k e f) :
    Leads p classify script (k + j) d f := by
  intro fuel
  rw [← Nat.add_assoc, first, second]

theorem run_of_still (still : step p classify script e = none) (fuel : Nat) :
    run p classify script fuel e = e := by
  cases fuel with
  | zero => rfl
  | succ fuel => rw [run, still]

/-- Where a call can do no more it stays. -/
theorem Leads.run_eq (h : Leads p classify script k d e) (still : step p classify script e = none)
    {fuel : Nat} (enough : k ≤ fuel) : run p classify script fuel d = e := by
  rw [← Nat.sub_add_cancel enough, h, run_of_still still]

/-- A call that nobody cancels, now or later. -/
def alone (now : Time) (call : Call ε α) (starts : List Time) : Drive ε α :=
  { setting := { now := now }, call := call, starts := starts }

variable {spans : Nat → Span} {answers : Nat → Except ε α} {now wake : Time} {n : Nat} {pause : Span}
  {call next : Call ε α} {starts : List Time}

/-- A call that waits for a moment has, at that moment, become what it was to become. -/
theorem leads_timer (timer : call.timer? = some wake) (ahead : now ≤ wake)
    (waits : now < wake → call.move p classify now false = .wait)
    (comes : call.move p classify wake false = .become next) :
    ∃ k ≤ 2, Leads p classify script k (alone now call starts) (alone wake next starts) := by
  have last : Leads p classify script 1 (alone wake call starts) (alone wake next starts) :=
    leads_one (by simp [step, alone, comes])
  rcases Nat.lt_or_eq_of_le ahead with early | rfl
  · have goes : Leads p classify script 1 (alone now call starts) (alone wake call starts) := by
      refine leads_one ?_
      have waits := waits early
      cases call with
      | ready n pause => cases timer
      | attempting n pause due answer =>
        simp [step, alone, waits, timer, Setting.next?, Setting.signal?, Nat.max_eq_right ahead]
      | pausing n pause wake =>
        simp [step, alone, waits, timer, Setting.next?, Setting.signal?, Nat.max_eq_right ahead]
      | ended n r => cases timer
      | crashed n => cases timer
    exact ⟨2, Nat.le_refl 2, goes.trans last⟩
  · exact ⟨1, Nat.le_succ 1, last⟩

/-- An attempt begins, its span goes by, and it is answered. -/
theorem leads_answered :
    ∃ k ≤ 3, Leads p classify (scripted spans answers) k
      (alone now (.ready n pause) starts)
      (alone (now + spans (n + 1))
        (Call.answered p classify (now + spans (n + 1)) (n + 1) pause (.result (answers (n + 1))))
        (now :: starts)) := by
  by_cases instant : spans (n + 1) = 0
  · refine ⟨1, by decide, leads_one ?_⟩
    simp [step, alone, Call.move, scripted, Call.begin, instant]
  · have begun : Leads p classify (scripted spans answers) 1 (alone now (.ready n pause) starts)
        (alone now
          (.attempting (n + 1) pause (some (now + spans (n + 1))) (.result (answers (n + 1))))
          (now :: starts)) := by
      refine leads_one ?_
      simp [step, alone, Call.move, scripted, Call.begin, instant]
    have come : ∃ k ≤ 2, Leads p classify (scripted spans answers) k
        (alone now
          (.attempting (n + 1) pause (some (now + spans (n + 1))) (.result (answers (n + 1))))
          (now :: starts))
        (alone (now + spans (n + 1))
          (Call.answered p classify (now + spans (n + 1)) (n + 1) pause (.result (answers (n + 1))))
          (now :: starts)) :=
      leads_timer rfl (Nat.le_add_right now _) (fun early => if_neg (Nat.not_le.2 early))
        (if_pos (Nat.le_refl _))
    obtain ⟨k, few, come⟩ := come
    exact ⟨k + 1, Nat.succ_le_succ few, begun.trans come⟩

/-- A pause goes by, and the next one will be longer. -/
theorem leads_resumed (fits : pause + p.increment ≤ Span.longest) :
    ∃ k ≤ 2, Leads p classify script k
      (alone now (.pausing n pause (now + pause.waited)) starts)
      (alone (now + pause.waited) (.ready n (pause + p.increment)) starts) :=
  leads_timer rfl (Nat.le_add_right now _) (fun early => if_neg (Nat.not_le.2 early))
    ((if_pos (Nat.le_refl _)).trans (if_pos fits))

/-- A call on its timetable, before attempt `n + 1`. -/
def onTime (p : Policy) (spans : Nat → Span) (start : Time) (n : Nat) : Drive ε α :=
  alone (p.begins spans start n) (.ready n (p.pause n)) ((List.range n).map (p.begins spans start)).reverse

/-- A call that has ended on its timetable, with attempt `n + 1`. -/
def onTimeEnd (p : Policy) (classify : ε → Class) (spans : Nat → Span) (answers : Nat → Except ε α)
    (start : Time) (n : Nat) : Drive ε α :=
  alone (p.begins spans start n + spans (n + 1))
    (.ended (n + 1) (Policy.conclude classify (n + 1) (answers (n + 1))))
    ((List.range (n + 1)).map (p.begins spans start)).reverse

variable {start : Time}

theorem map_begins_succ (n : Nat) :
    ((List.range (n + 1)).map (p.begins spans start)).reverse =
      p.begins spans start n :: ((List.range n).map (p.begins spans start)).reverse := by
  rw [List.range_succ, List.map_append, List.reverse_append]
  rfl

/-- An attempt that goes no further ends the call, and nothing is waited for. -/
theorem onTime_leads_end (ends : p.EndsAt classify answers (n + 1)) :
    ∃ k ≤ 3, Leads p classify (scripted spans answers) k (onTime p spans start n)
      (onTimeEnd p classify spans answers start n) := by
  unfold onTime onTimeEnd
  rw [← Policy.answered_of_endsAt ends, map_begins_succ]
  exact leads_answered

/-- After any other attempt and the pause behind it comes the next one. -/
theorem onTime_leads_next (fits : p.fits = true) (more : n < p.maxRetries)
    (goes : ¬ p.EndsAt classify answers (n + 1)) :
    ∃ k ≤ 5, Leads p classify (scripted spans answers) k
      (onTime p spans start n : Drive ε α) (onTime p spans start (n + 1)) := by
  have held : p.pause n + p.increment ≤ Span.longest := by
    rw [← Policy.pause_succ]
    exact Policy.pause_le fits more
  obtain ⟨j, few, answered⟩ : ∃ j ≤ 3, Leads p classify (scripted spans answers) j
      (onTime p spans start n) _ := leads_answered
  rw [Policy.answered_of_not_endsAt goes (Nat.succ_le_succ (Nat.le_of_lt more))] at answered
  obtain ⟨k, short, resumed⟩ := leads_resumed held
  refine ⟨k + j, Nat.add_le_add short few, answered.trans ?_⟩
  unfold onTime
  rw [Policy.begins_succ, map_begins_succ, Policy.pause_succ]
  exact resumed

/-- A call stays on its timetable through one attempt after another, until one of them ends it. -/
theorem onTime_leads (fits : p.fits = true) (classify : ε → Class) (spans : Nat → Span)
    (answers : Nat → Except ε α) (start : Time) (retries : Nat) :
    ∀ n, n + retries = p.maxRetries →
      ∃ k ≤ 5 * retries + 3, ∃ m, n ≤ m ∧ p.EndsAt classify answers (m + 1) ∧
        (∀ i, n ≤ i → i < m → ¬ p.EndsAt classify answers (i + 1)) ∧
        Leads p classify (scripted spans answers) k (onTime p spans start n)
          (onTimeEnd p classify spans answers start m) := by
  induction retries with
  | zero =>
    intro n all
    have last : p.EndsAt classify answers (n + 1) := .inr (.inr (congrArg (· + 1) all))
    obtain ⟨k, few, ended⟩ := onTime_leads_end last
    exact ⟨k, few, n, Nat.le_refl n, last, fun i low high => absurd high (Nat.not_lt.2 low), ended⟩
  | succ retries ih =>
    intro n all
    by_cases ends : p.EndsAt classify answers (n + 1)
    · obtain ⟨k, few, ended⟩ := onTime_leads_end ends
      exact ⟨k, by omega, n, Nat.le_refl n, ends, fun i low high => absurd high (Nat.not_lt.2 low), ended⟩
    · obtain ⟨j, short, next⟩ := onTime_leads_next fits (by omega) ends
      obtain ⟨k, few, m, later, last, before, ended⟩ := ih (n + 1) (by omega)
      refine ⟨k + j, by omega, m, Nat.le_of_succ_le later, last, ?_, next.trans ended⟩
      intro i low high
      rcases Nat.eq_or_lt_of_le low with rfl | low
      · exact ends
      · exact before i low high

theorem onTime_zero :
    (onTime p spans start 0 : Drive ε α) = { setting := { now := start }, call := Call.initial p } := by
  unfold onTime Call.initial
  rw [p.pause_zero]
  rfl

/-- The steps that a call is given are enough, and it ends on its timetable. -/
theorem complete_eq (fits : p.fits = true) (classify : ε → Class) (spans : Nat → Span)
    (answers : Nat → Except ε α) (start : Time) :
    ∃ m, p.EndsAt classify answers (m + 1) ∧ (∀ i < m, ¬ p.EndsAt classify answers (i + 1)) ∧
      complete p classify (scripted spans answers) { now := start } =
        onTimeEnd p classify spans answers start m := by
  obtain ⟨k, few, m, -, last, before, ended⟩ :=
    onTime_leads fits classify spans answers start p.maxRetries 0 (Nat.zero_add _)
  refine ⟨m, last, fun i early => before i (Nat.zero_le i) early, ?_⟩
  have still : step p classify (scripted spans answers) (onTimeEnd p classify spans answers start m) = none := rfl
  rw [onTime_zero] at ended
  refine ended.run_eq still ?_
  unfold enough Policy.maxAttempts
  omega

end Drive

/-- A call that nobody cancels makes exactly `n` attempts, where `n` is the first that succeeds, fails
for good, or is the last one allowed; it comes to what this attempt brings; each attempt begins when
the spans of those before it and the pauses behind them have gone by, as long as a timer waits for
them; and the call ends with its last attempt. -/
theorem call_by_schedule (p : Policy) (fits : p.fits = true) (classify : ε → Class)
    (spans : Nat → Span) (answers : Nat → Except ε α) (start : Time) :
    let d := Drive.complete p classify (scripted spans answers) { now := start }
    ∃ n, IsLeast { i | 0 < i ∧ p.EndsAt classify answers i } n ∧
      d.call = .ended n (Policy.conclude classify n (answers n)) ∧
      d.starts.reverse = (List.range n).map (p.begins spans start) ∧
      d.setting = { now := p.begins spans start (n - 1) + spans n } ∧
      ∀ k < n, p.initial + (k - 1) * p.increment ≤ Span.patience →
        d.starts.reverse[k]? = some (start + ∑ i ∈ Finset.range k, spans (i + 1) +
          k * p.initial + p.increment * (k * (k - 1) / 2)) := by
  intro d
  obtain ⟨m, last, before, ended⟩ := Drive.complete_eq fits classify spans answers start
  have ended : d = Drive.onTimeEnd p classify spans answers start m := ended
  rw [ended]
  have starts : (Drive.onTimeEnd p classify spans answers start m).starts.reverse =
      (List.range (m + 1)).map (p.begins spans start) := List.reverse_reverse _
  refine ⟨m + 1, ⟨⟨Nat.succ_pos m, last⟩, ?_⟩, rfl, starts, rfl, ?_⟩
  · rintro i ⟨pos, ends⟩
    by_contra early
    exact before (i - 1) (by omega) (by rwa [Nat.sub_add_cancel pos])
  · intro k few patient
    rw [starts, List.getElem?_map, List.getElem?_range few, ← Policy.begins_of_patient k patient]
    rfl

/-- A second attempt that succeeds begins when the first one and the pause behind it are over. -/
theorem call_by_schedule_second :
    let p : Policy := { maxRetries := 2, initial := 5, increment := 3 }
    let spans : Nat → Span := fun n => 10 * n
    let answers : Nat → Except Unit Nat := fun n => if n = 1 then .error () else .ok n
    let d := Drive.complete p (fun _ => .retriable) (scripted spans answers) { now := 100 }
    p.fits = true ∧ d.starts.reverse = [100, 115] ∧
      ∃ n, IsLeast { i | 0 < i ∧ p.EndsAt (fun _ => .retriable) answers i } n ∧
        d.call = .ended n (Policy.conclude (fun _ => .retriable) n (answers n)) ∧
        d.starts.reverse = (List.range n).map (p.begins spans 100) ∧
        d.setting = { now := p.begins spans 100 (n - 1) + spans n } ∧
        ∀ k < n, p.initial + (k - 1) * p.increment ≤ Span.patience →
          d.starts.reverse[k]? = some (100 + ∑ i ∈ Finset.range k, spans (i + 1) +
            k * p.initial + p.increment * (k * (k - 1) / 2)) := by
  intro p spans answers d
  have fits : p.fits = true := by decide
  exact ⟨fits, by decide, call_by_schedule p fits _ spans answers 100⟩

/-- A pause longer than a timer waits is cut: the second attempt begins before its pause would be
over. -/
theorem pause_cut_to_patience :
    let p : Policy := { maxRetries := 2, initial := Span.patience + 1, increment := 0 }
    let answers : Nat → Except Unit Unit := fun _ => .error ()
    let d := Drive.complete p (fun _ => .retriable) (scripted (fun _ => 0) answers) { now := 0 }
    p.fits = true ∧ d.starts.reverse = [0, Span.patience, 2 * Span.patience] ∧
      d.starts.reverse[1]? ≠ some (0 + 0 + 1 * p.initial + p.increment * (1 * (1 - 1) / 2)) := by
  decide

end Telemetry.Retry
