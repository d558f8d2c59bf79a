/-
A call and its signal in a race. Time goes by, the signal is set off, and the call is looked after, in
any order (`Event`), and an attempt may set off the signal itself. The attempts that a call counts are
those that were begun, never more than its policy allows. Once the signal is on, a call that has not
come to its end begins no attempt any more and ends as cancelled when it is looked after, whatever else
has come to pass in the meantime; and no other call ends as cancelled: `signal_wins`.

What a call does on a clock of its own is one such order of events (`Drive.complete_eq_afterAll`).
-/
import Mathlib.Tactic.Common
import Telemetry.Proofs.Retry.Steady
import Telemetry.Retry.Drive

namespace Telemetry.Retry

variable {ε α : Type}

/-! ## Events -/

/-- What befalls a call: time goes by, the signal is set off, or the call is looked after. If it then
begins an attempt, it is this one. -/
inductive Event (ε α : Type) where
  | wait (time : Span)
  | signal
  | look (attempt : Attempt ε α)

namespace Event

/-- Whether the call is looked after. -/
def isLook : Event ε α → Bool
  | look _ => true
  | _ => false

/-- Whether the signal may be set off. -/
def fires : Event ε α → Bool
  | wait _ => false
  | signal => true
  | look attempt => attempt.cancels

end Event

namespace Drive

/-- What an event makes of a call. -/
def after (p : Policy) (classify : ε → Class) (d : Drive ε α) : Event ε α → Drive ε α
  | .wait time => { d with setting := { d.setting with now := d.setting.now + time } }
  | .signal => { d with setting := { d.setting with cancelled := true } }
  | .look attempt =>
    match d.call.move p classify d.setting.now d.setting.cancelled with
    | .become c => { d with call := c }
    | .begin n pause =>
      { setting := { d.setting with cancelled := d.setting.cancelled || attempt.cancels }
        call := Call.begin p classify d.setting.now n pause attempt.reply
        starts := d.setting.now :: d.starts }
    | .wait => d

/-- What one event after the other makes of a call. -/
def afterAll (p : Policy) (classify : ε → Class) (events : List (Event ε α)) (d : Drive ε α) :
    Drive ε α :=
  events.foldl (after p classify) d

variable {p : Policy} {classify : ε → Class} {script : Nat → Attempt ε α} {d e : Drive ε α}

theorem afterAll_append (first second : List (Event ε α)) (d : Drive ε α) :
    afterAll p classify (first ++ second) d = afterAll p classify second (afterAll p classify first d) :=
  List.foldl_append

/-- The clock of a call moves by events. -/
theorem next?_eq_after {timer : Option Time} {s : Setting} (h : d.setting.next? timer = some s) :
    ∃ events, { d with setting := s } = afterAll p classify events d := by
  have waits : ∀ t, max d.setting.now t = d.setting.now + (t - d.setting.now) := by
    intro t
    rw [Nat.max_def]
    split
    · rw [Nat.add_sub_cancel' ‹_›]
    · rw [Nat.sub_eq_zero_of_le (Nat.le_of_not_le ‹_›), Nat.add_zero]
  unfold Setting.next? at h
  split at h
  · cases h
  · cases h
    exact ⟨[.wait _], by simp only [waits]; rfl⟩
  · cases h
    exact ⟨[.wait _, .signal], by simp only [waits]; rfl⟩
  · split at h
    · cases h
      exact ⟨[.wait _], by simp only [waits]; rfl⟩
    · cases h
      exact ⟨[.wait _, .signal], by simp only [waits]; rfl⟩

/-- What a call does on a clock of its own are events. -/
theorem step_eq_after (h : step p classify script d = some e) :
    ∃ events, e = afterAll p classify events d := by
  simp only [step] at h
  split at h
  · rename_i c m
    cases h
    exact ⟨[.look (script 0)], by simp only [afterAll, List.foldl_cons, List.foldl_nil, after, m]⟩
  · rename_i n pause m
    cases h
    exact ⟨[.look (script n)], by simp only [afterAll, List.foldl_cons, List.foldl_nil, after, m]⟩
  · split at h
    · cases h
    · cases h
    · obtain ⟨s, next, rfl⟩ := Option.map_eq_some_iff.1 h
      exact next?_eq_after next

theorem complete_eq_afterAll (p : Policy) (classify : ε → Class) (script : Nat → Attempt ε α)
    (s : Setting) :
    ∃ events, complete p classify script s =
      afterAll p classify events { setting := s, call := Call.initial p } := by
  suffices every : ∀ fuel d, ∃ events, run p classify script fuel d = afterAll p classify events d from
    every _ _
  intro fuel
  induction fuel with
  | zero => exact fun d => ⟨[], rfl⟩
  | succ fuel ih =>
    intro d
    cases h : step p classify script d with
    | none => exact ⟨[], by rw [run, h]; rfl⟩
    | some e =>
      obtain ⟨first, rfl⟩ := step_eq_after h
      obtain ⟨rest, ended⟩ := ih (afterAll p classify first d)
      exact ⟨first ++ rest, by rw [run, h, afterAll_append, ← ended]⟩

end Drive

/-! ## Attempts are counted -/

namespace Call

variable {p : Policy} {classify : ε → Class} {now : Time} {cancelled : Bool} {call next : Call ε α}
  {n : Nat} {pause : Span}

/-- Whether a call has come to its end: it has a result, or it broke down. -/
def isOver : Call ε α → Bool
  | ended _ _ => true
  | crashed _ => true
  | _ => false

/-- The attempts that a call has begun, with the one that it goes on to. -/
def goal : Call ε α → Nat
  | ready n _ => n + 1
  | attempting n _ _ _ => n
  | pausing n _ _ => n + 1
  | ended n _ => n
  | crashed n => n

theorem attempts_le_goal (call : Call ε α) : call.attempts ≤ call.goal := by
  cases call with
  | ready n pause => exact Nat.le_succ n
  | attempting n pause due answer => exact Nat.le_refl n
  | pausing n pause wake => exact Nat.le_succ n
  | ended n r => exact Nat.le_refl n
  | crashed n => exact Nat.le_refl n

theorem goal_answered (few : n ≤ p.maxAttempts) (answer : Answer ε α) :
    (answered p classify now n pause answer).goal ≤ p.maxAttempts := by
  unfold answered
  split
  · exact few
  · exact few
  · split
    · exact few
    · split
      · exact few
      · exact Nat.lt_of_not_le ‹_›

theorem goal_become (h : call.move p classify now cancelled = .become next)
    (few : call.goal ≤ p.maxAttempts) : next.goal ≤ p.maxAttempts := by
  cases become_of_move h with
  | give_up stillGoing alive => exact Nat.le_trans (attempts_le_goal call) few
  | answered n pause come => exact goal_answered few _
  | resume n pause ends fits => exact few
  | overflow n pause ends exceeds => exact Nat.le_of_succ_le few

theorem goal_begin (few : n < p.maxAttempts) (reply : Reply ε α) :
    (begin p classify now n pause reply).goal ≤ p.maxAttempts := by
  unfold begin
  split
  · exact goal_answered few _
  · exact few

theorem attempts_begin (reply : Reply ε α) :
    (begin p classify now n pause reply).attempts = n + 1 := by
  unfold begin
  split
  · exact attempts_answered _ _ _
  · rfl

theorem attempts_become (h : call.move p classify now cancelled = .become next) :
    next.attempts = call.attempts := by
  cases become_of_move h with
  | give_up stillGoing alive => rfl
  | answered n pause come => exact attempts_answered _ _ _
  | resume n pause ends fits => rfl
  | overflow n pause ends exceeds => rfl

/-- No attempt is answered by the cancellation of the call. -/
theorem answered_ne_cancelled {m k : Nat} {answer : Answer ε α} :
    answered p classify now n pause answer ≠ .ended m (.error (.cancelled k)) := by
  unfold answered
  intro h
  split at h
  · cases h
  · cases h
  · split at h
    · cases h
    · split at h <;> cases h

/-- The replies of an attempt do not cancel the call. -/
theorem begin_ne_cancelled {m k : Nat} {reply : Reply ε α} :
    begin p classify now n pause reply ≠ .ended m (.error (.cancelled k)) := by
  unfold begin
  split
  · exact answered_ne_cancelled
  · intro h
    cases h

theorem signalled_of_become {m k : Nat}
    (h : call.move p classify now cancelled = .become (.ended m (.error (.cancelled k)))) :
    cancelled = true ∧ k = m := by
  generalize ended : (ended m (.error (.cancelled k)) : Call ε α) = next at h
  cases become_of_move h with
  | give_up stillGoing alive =>
    cases ended
    exact ⟨rfl, rfl⟩
  | answered n pause come => exact absurd ended.symm answered_ne_cancelled
  | resume n pause ends fits => cases ended
  | overflow n pause ends exceeds => cases ended

/-- Once the signal is on, the next look at a call that goes on ends it. -/
theorem move_of_signal (going : call.isOver = false) :
    call.move p classify now true =
      .become (.ended call.attempts (.error (.cancelled call.attempts))) := by
  cases call with
  | ready n pause => rfl
  | attempting n pause due answer => rfl
  | pausing n pause wake => rfl
  | ended n r => cases going
  | crashed n => cases going

theorem move_of_isOver (isOver : call.isOver = true) : call.move p classify now cancelled = .wait := by
  cases call with
  | ready n pause => cases isOver
  | attempting n pause due answer => cases isOver
  | pausing n pause wake => cases isOver
  | ended n r => rfl
  | crashed n => rfl

end Call

namespace Drive

variable {p : Policy} {classify : ε → Class} {d : Drive ε α}

/-- A call that counts the attempts that were begun, of which its policy allows the next one; it was
cancelled only when the signal was on. -/
structure Counted (p : Policy) (d : Drive ε α) : Prop where
  counts : d.call.attempts = d.starts.length
  within : d.call.goal ≤ p.maxAttempts
  signalled : ∀ n m, d.call = .ended n (.error (.cancelled m)) → d.setting.cancelled = true ∧ m = n

theorem counted_initial (p : Policy) (s : Setting) :
    ({ setting := s, call := Call.initial p } : Drive ε α).Counted p where
  counts := rfl
  within := Nat.succ_le_succ (Nat.zero_le _)
  signalled n m h := by cases h

theorem Counted.after (h : d.Counted p) (event : Event ε α) :
    (d.after p classify event).Counted p := by
  cases event with
  | wait time => exact ⟨h.counts, h.within, h.signalled⟩
  | signal => exact ⟨h.counts, h.within, fun n m ended => ⟨rfl, (h.signalled n m ended).2⟩⟩
  | look attempt =>
    simp only [Drive.after]
    split
    · rename_i next move
      refine ⟨(Call.attempts_become move).trans h.counts, Call.goal_become move h.within, ?_⟩
      rintro n m rfl
      exact Call.signalled_of_become move
    · rename_i n pause move
      obtain ⟨ready, quiet⟩ := Call.ready_of_begin move
      have counts := h.counts
      have within := h.within
      rw [ready] at counts within
      refine ⟨?_, Call.goal_begin within _, ?_⟩
      · rw [Call.attempts_begin, List.length_cons, ← counts]
        rfl
      · intro n m ended
        exact absurd ended Call.begin_ne_cancelled
    · exact h

theorem Counted.afterAll (h : d.Counted p) (events : List (Event ε α)) :
    (d.afterAll p classify events).Counted p := by
  induction events generalizing d with
  | nil => exact h
  | cons event events ih => exact ih (h.after event)

/-! ## The signal wins -/

/-- The signal is on when it was on before or an event has set it off. -/
theorem fired_of_cancelled (events : List (Event ε α))
    (on : (d.afterAll p classify events).setting.cancelled = true) :
    d.setting.cancelled = true ∨ ∃ event ∈ events, event.fires = true := by
  induction events generalizing d with
  | nil => exact .inl on
  | cons event events ih =>
    rcases ih on with before | ⟨later, mem, fires⟩
    · cases event with
      | wait time => exact .inl before
      | signal => exact .inr ⟨.signal, List.mem_cons_self, rfl⟩
      | look attempt =>
        simp only [Drive.after] at before
        split at before
        · exact .inl before
        · rcases Bool.or_eq_true_iff.1 before with before | cancels
          · exact .inl before
          · exact .inr ⟨.look attempt, List.mem_cons_self, cancels⟩
        · exact .inl before
    · exact .inr ⟨later, List.mem_cons_of_mem _ mem, fires⟩

/-- Once the signal is on it stays on. -/
theorem cancelled_after (on : d.setting.cancelled = true) (event : Event ε α) :
    (d.after p classify event).setting.cancelled = true := by
  cases event with
  | wait time => exact on
  | signal => rfl
  | look attempt =>
    simp only [after]
    split
    · exact on
    · exact Bool.or_eq_true_iff.2 (.inl on)
    · exact on

theorem cancelled_afterAll (on : d.setting.cancelled = true) (events : List (Event ε α)) :
    (d.afterAll p classify events).setting.cancelled = true := by
  induction events generalizing d with
  | nil => exact on
  | cons event events ih => exact ih (cancelled_after on event)

theorem cancelled_of_signal {events : List (Event ε α)} (set_off : .signal ∈ events) :
    (d.afterAll p classify events).setting.cancelled = true := by
  obtain ⟨first, rest, rfl⟩ := List.append_of_mem set_off
  have on : ((d.afterAll p classify first).after p classify .signal).setting.cancelled = true := rfl
  rw [afterAll_append]
  exact cancelled_afterAll on rest

/-- A call that has come to its end stays as it is. -/
theorem afterAll_of_isOver (isOver : d.call.isOver = true) (events : List (Event ε α)) :
    (d.afterAll p classify events).starts = d.starts ∧ (d.afterAll p classify events).call = d.call := by
  induction events generalizing d with
  | nil => exact ⟨rfl, rfl⟩
  | cons event events ih =>
    cases event with
    | wait time => exact ih isOver
    | signal => exact ih isOver
    | look attempt =>
      have same : d.after p classify (.look attempt) = d := by
        simp only [after, Call.move_of_isOver isOver]
      simp only [afterAll, List.foldl_cons, same]
      exact ih isOver

/-- Once the signal is on, a call that goes on begins no attempt, and it ends as cancelled when it is
looked after. -/
theorem afterAll_of_signal (on : d.setting.cancelled = true) (going : d.call.isOver = false)
    (events : List (Event ε α)) :
    (d.afterAll p classify events).starts = d.starts ∧
      (d.afterAll p classify events).call =
        if events.any Event.isLook then .ended d.call.attempts (.error (.cancelled d.call.attempts))
        else d.call := by
  induction events generalizing d with
  | nil => exact ⟨rfl, rfl⟩
  | cons event events ih =>
    cases event with
    | wait time => exact ih on going
    | signal => exact ih rfl going
    | look attempt =>
      have ends : d.after p classify (.look attempt) =
          { d with call := .ended d.call.attempts (.error (.cancelled d.call.attempts)) } := by
        simp only [after, on, Call.move_of_signal going]
      simp only [afterAll, List.foldl_cons, ends]
      exact afterAll_of_isOver rfl events

end Drive

/-- A call and its signal, whatever befalls them in whatever order. The attempts counted are those that
were begun, and no more than the policy allows. Once the signal is on, a call that goes on begins no
attempt any more, and as soon as it is looked after it ends as cancelled, with the attempts it had
begun: with none when the signal was on from the start. A call that ended as cancelled was cancelled by
the signal, which was on from the start or was set off. -/
theorem signal_wins (p : Policy) (classify : ε → Class) (setting : Setting)
    (events : List (Event ε α)) :
    let d := Drive.afterAll p classify events { setting, call := Call.initial p }
    d.call.attempts = d.starts.length ∧ d.starts.length ≤ p.maxAttempts ∧
      (.signal ∈ events → d.setting.cancelled = true) ∧
      (d.setting.cancelled = true → d.call.isOver = false → ∀ later : List (Event ε α),
        let e := Drive.afterAll p classify later d
        e.starts = d.starts ∧
          e.call = if later.any Event.isLook then
              .ended d.starts.length (.error (.cancelled d.starts.length))
            else d.call) ∧
      (setting.cancelled = true →
        d.starts = [] ∧
          d.call = if events.any Event.isLook then .ended 0 (.error (.cancelled 0)) else Call.initial p) ∧
      ∀ n m, d.call = .ended n (.error (.cancelled m)) →
        n = d.starts.length ∧ m = d.starts.length ∧ d.setting.cancelled = true ∧
          (setting.cancelled = true ∨ ∃ event ∈ events, event.fires = true) := by
  intro d
  have counted : d.Counted p := (Drive.counted_initial p setting).afterAll events
  refine ⟨counted.counts, ?_, Drive.cancelled_of_signal, ?_, ?_, ?_⟩
  · rw [← counted.counts]
    exact Nat.le_trans (Call.attempts_le_goal d.call) counted.within
  · intro on going later
    rw [← counted.counts]
    exact Drive.afterAll_of_signal on going later
  · intro on
    exact Drive.afterAll_of_signal on rfl events
  · intro n m ended
    obtain ⟨on, rfl⟩ := counted.signalled n m ended
    have counts := counted.counts
    rw [ended] at counts
    exact ⟨counts, counts, on, Drive.fired_of_cancelled events on⟩

/-- A pause is over when the call is looked after, but the signal was set off while it lasted. -/
theorem signal_wins_over_pause :
    let p : Policy := { maxRetries := 2 }
    let failing : Attempt Unit Unit := { reply := { delay := some 0, answer := .result (.error ()) } }
    let d := Drive.afterAll p (fun _ => .retriable) [.look failing, .signal]
      { setting := {}, call := Call.initial p }
    (Drive.afterAll p (fun _ => .retriable) [.wait p.initial, .look failing] d).call =
      .ended 1 (.error (.cancelled 1)) := by
  intro p failing d
  obtain ⟨-, -, -, ends, -⟩ := signal_wins p (fun _ => .retriable) {} [.look failing, .signal]
  exact (ends rfl rfl [.wait p.initial, .look failing]).2

/-- An attempt that sets off the signal and is answered at once ends the call before the signal is
seen. -/
theorem answer_before_signal :
    let attempt : Attempt Unit Unit :=
      { reply := { delay := some 0, answer := .result (.ok ()) }, cancels := true }
    let d := Drive.complete { maxRetries := 0 } (fun _ => .retriable) (fun _ => attempt) {}
    d.starts = [0] ∧ d.setting.cancelled = true ∧ d.call = .ended 1 (.ok ()) :=
  ⟨rfl, rfl, rfl⟩

end Telemetry.Retry
