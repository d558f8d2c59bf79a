/-
What the journal tells of one delivery. Attempt after attempt was begun and then ended with a failure
that is worth another one (`Sending.Failed`); behind them there is at most one more, with which the
delivery came to its end or which is under way (`Sending.Tale`). This holds whether the signal comes or
not, whatever the collector answers, and however long the pauses are.
-/
import Telemetry.Proofs.Pool.Move
import Telemetry.Proofs.Retry.Verdict

namespace Telemetry

open Retry (Answer Call Policy)

/-- Attempt number `n` of a worker to send a parcel. -/
structure Post.IsAttempt (seat : Seat) (parcel : Parcel) (envelope : Envelope) (n : Nat) (post : Post) :
    Prop where
  seat : post.seat = seat
  parcel : post.parcel = parcel
  envelope : post.envelope = envelope
  attempt : post.attempt = n

/-- Whether a post may be given an answer. -/
def DeliverySettings.Answers (s : DeliverySettings) (post : Post) (answer : Answer PostFailure Unit) : Prop :=
  ∃ seen, (s.transport seen post).answer = answer

/-- The post that an entry tells of. -/
def Entry.post? : Entry → Option Post
  | .begun post => some post
  | .ended post _ _ => some post
  | _ => none

namespace Sending

variable {s : DeliverySettings} {seat : Seat} {parcel : Parcel} {envelope : Envelope}

/-- What the journal tells, the latest first, of `n` posts of a batch that was packed: each of them
failed, may be repeated, and was not the last one allowed. -/
inductive Failed (s : DeliverySettings) (seat : Seat) (parcel : Parcel) (envelope : Envelope) :
    Nat → Journal → Prop
  | start (packed : s.pack parcel.batch = .ok envelope) : Failed s seat parcel envelope 0 []
  | next {n : Nat} {j : Journal} {post : Post} {time : Time} {f : PostFailure}
      (before : Failed s seat parcel envelope n j) (attempt : post.IsAttempt seat parcel envelope (n + 1))
      (answers : s.Answers post (.result (.error f))) (again : PostFailure.classify f = .retriable)
      (more : n + 1 < s.policy.maxAttempts) :
      Failed s seat parcel envelope (n + 1) (.ended post time (.failed f) :: .begun post :: j)

/-- What the journal tells of a delivery, the latest first. -/
inductive Tale (s : DeliverySettings) (seat : Seat) (parcel : Parcel) : Sending → Journal → Prop
  | unpacked {f : PackFailure} (why : s.pack parcel.batch = .error f) : Tale s seat parcel (.unpacked f) []
  | ready {envelope : Envelope} {n : Nat} {pause : Span} {j : Journal}
      (failed : Failed s seat parcel envelope n j) :
      Tale s seat parcel (.sending envelope (.ready n pause) none) j
  | attempting {envelope : Envelope} {n : Nat} {pause : Span} {due : Option Time}
      {answer : Answer PostFailure Unit} {post : Post} {j : Journal}
      (failed : Failed s seat parcel envelope n j) (attempt : post.IsAttempt seat parcel envelope (n + 1))
      (answers : s.Answers post answer) :
      Tale s seat parcel (.sending envelope (.attempting (n + 1) pause due answer) (some post))
        (.begun post :: j)
  | pausing {envelope : Envelope} {n : Nat} {pause : Span} {wake : Time} {j : Journal}
      (failed : Failed s seat parcel envelope n j) :
      Tale s seat parcel (.sending envelope (.pausing n pause wake) none) j
  | accepted {envelope : Envelope} {n : Nat} {post : Post} {time : Time} {j : Journal}
      (failed : Failed s seat parcel envelope n j) (attempt : post.IsAttempt seat parcel envelope (n + 1))
      (answers : s.Answers post (.result (.ok ()))) :
      Tale s seat parcel (.sending envelope (.ended (n + 1) (.ok ())) none)
        (.ended post time .accepted :: .begun post :: j)
  | refused {envelope : Envelope} {n : Nat} {post : Post} {time : Time} {j : Journal} {f : PostFailure}
      (failed : Failed s seat parcel envelope n j) (attempt : post.IsAttempt seat parcel envelope (n + 1))
      (answers : s.Answers post (.result (.error f))) (final : PostFailure.classify f = .nonRetriable) :
      Tale s seat parcel (.sending envelope (.ended (n + 1) (.error (.nonRetriable (n + 1) f))) none)
        (.ended post time (.failed f) :: .begun post :: j)
  | exhausted {envelope : Envelope} {n : Nat} {post : Post} {time : Time} {j : Journal} {f : PostFailure}
      (failed : Failed s seat parcel envelope n j) (attempt : post.IsAttempt seat parcel envelope (n + 1))
      (answers : s.Answers post (.result (.error f))) (again : PostFailure.classify f = .retriable)
      (last : s.policy.maxAttempts ≤ n + 1) :
      Tale s seat parcel (.sending envelope (.ended (n + 1) (.error (.exhausted (n + 1) f))) none)
        (.ended post time (.failed f) :: .begun post :: j)
  | crashed {envelope : Envelope} {n : Nat} {post : Post} {time : Time} {j : Journal}
      (failed : Failed s seat parcel envelope n j) (attempt : post.IsAttempt seat parcel envelope (n + 1))
      (answers : s.Answers post .crash) :
      Tale s seat parcel (.sending envelope (.crashed (n + 1)) none)
        (.ended post time .crashed :: .begun post :: j)
  | overflown {envelope : Envelope} {n : Nat} {j : Journal} (failed : Failed s seat parcel envelope n j) :
      Tale s seat parcel (.sending envelope (.crashed n) none) j
  | cancelled {envelope : Envelope} {n : Nat} {j : Journal} (failed : Failed s seat parcel envelope n j) :
      Tale s seat parcel (.sending envelope (.ended n (.error (.cancelled n))) none) j
  | abandoned {envelope : Envelope} {n : Nat} {post : Post} {time : Time} {j : Journal}
      (failed : Failed s seat parcel envelope n j) (attempt : post.IsAttempt seat parcel envelope (n + 1)) :
      Tale s seat parcel (.sending envelope (.ended (n + 1) (.error (.cancelled (n + 1)))) none)
        (.ended post time .abandoned :: .begun post :: j)

theorem tale_ofBatch (s : DeliverySettings) (seat : Seat) (parcel : Parcel) :
    (ofBatch s parcel.batch).Tale s seat parcel [] := by
  unfold ofBatch
  split
  · rename_i f why
    exact .unpacked why
  · rename_i envelope packed
    exact .ready (.start packed)

/-- An answer ends the delivery or leads to the next pause. -/
theorem tale_answered {n : Nat} {pause : Span} {answer : Answer PostFailure Unit} {post : Post}
    {j : Journal} (now : Time) (failed : Failed s seat parcel envelope n j)
    (attempt : post.IsAttempt seat parcel envelope (n + 1)) (answers : s.Answers post answer) :
    (sending envelope (Call.answered s.policy PostFailure.classify now (n + 1) pause answer) none).Tale s seat
      parcel (.ended post now (Finish.ofAnswer answer) :: .begun post :: j) := by
  cases answer with
  | crash => exact .crashed failed attempt answers
  | result r =>
    cases r with
    | ok a => exact .accepted failed attempt answers
    | error f =>
      unfold Call.answered
      simp only
      split
      · rename_i final
        exact .refused failed attempt answers final
      · rename_i worth
        have again : PostFailure.classify f = .retriable := by
          cases classified : PostFailure.classify f with
          | retriable => rfl
          | nonRetriable => exact absurd classified worth
        split
        · rename_i last
          exact .exhausted failed attempt answers again last
        · rename_i more
          exact .pausing (.next failed attempt answers again (Nat.lt_of_not_le more))

variable {now : Time} {cancelled : Bool} {journal entries trail : Journal} {old new : Sending}

/-- A step of a delivery goes on with its tale, and writes nothing down that belongs elsewhere. -/
theorem Move.tale (m : Move s now cancelled journal seat parcel old new entries)
    (h : old.Tale s seat parcel trail) :
    new.Tale s seat parcel (entries ++ trail) ∧
      ∀ e ∈ entries, ∃ q, e.post? = some q ∧ q.seat = seat ∧ q.parcel = parcel := by
  cases m with
  | @begin envelope call next old new n pause post entries moves made goes seen =>
    obtain ⟨rfl, -⟩ := Call.ready_of_begin moves
    cases h with
    | ready failed =>
      have attempt : post.IsAttempt seat parcel envelope (n + 1) := by
        rw [made]
        exact ⟨rfl, rfl, rfl, rfl⟩
      have answers : s.Answers post (s.transport journal.posts post).answer := ⟨_, rfl⟩
      have here : ∃ q, some post = some q ∧ q.seat = seat ∧ q.parcel = parcel :=
        ⟨post, rfl, attempt.seat, attempt.parcel⟩
      unfold Call.begin at goes
      rcases seen with ⟨rfl, rfl, m, p, due, answer, waits⟩ | ⟨rfl, notWaiting, rfl⟩
      · refine ⟨?_, by simpa [Entry.post?] using here⟩
        split at goes
        · exact absurd (goes.symm.trans waits) Call.answered_ne_attempting
        · rw [goes]
          exact .attempting failed attempt answers
      · refine ⟨?_, by simpa [Entry.post?] using here⟩
        split at goes
        · rw [goes]
          exact tale_answered now failed attempt answers
        · exact absurd goes (notWaiting _ _ _ _)
  | @become envelope call next post moves =>
    cases Call.become_of_move moves with
    | give_up stillGoing alive =>
      cases h with
      | ready failed => exact ⟨.cancelled failed, by simp [closing]⟩
      | pausing failed => exact ⟨.cancelled failed, by simp [closing]⟩
      | attempting failed attempt answers =>
        refine ⟨.abandoned failed attempt, ?_⟩
        simpa [closing, Entry.post?] using ⟨attempt.seat, attempt.parcel⟩
      | accepted failed attempt answers => exact absurd rfl (stillGoing _ _)
      | refused failed attempt answers final => exact absurd rfl (stillGoing _ _)
      | exhausted failed attempt answers again last => exact absurd rfl (stillGoing _ _)
      | cancelled failed => exact absurd rfl (stillGoing _ _)
      | abandoned failed attempt => exact absurd rfl (stillGoing _ _)
      | crashed failed attempt answers => exact absurd rfl (alive _)
      | overflown failed => exact absurd rfl (alive _)
    | answered n pause come =>
      cases h with
      | attempting failed attempt answers =>
        refine ⟨tale_answered now failed attempt answers, ?_⟩
        simpa [closing, Entry.post?] using ⟨attempt.seat, attempt.parcel⟩
    | resume n pause ends held =>
      cases h with
      | pausing failed => exact ⟨.ready failed, by simp [closing]⟩
    | overflow n pause ends exceeds =>
      cases h with
      | pausing failed => exact ⟨.overflown failed, by simp [closing]⟩

/-! ## What failed attempts tell -/

namespace Failed

variable {n : Nat} {j : Journal}

/-- The attempts were posted one after another, by the worker to which the batch was handed. -/
theorem posts (h : Failed s seat parcel envelope n j) :
    j.posts.map (·.attempt) = (List.range' 1 n).reverse ∧ ∀ q ∈ j.posts, q.seat = seat := by
  induction h with
  | start packed => exact ⟨rfl, by simp [Journal.posts]⟩
  | @next n j post time f before attempt answers again more ih =>
    have posts : Journal.posts (.ended post time (.failed f) :: .begun post :: j) = post :: j.posts := by
      simp [Journal.posts]
    rw [posts]
    constructor
    · rw [List.map_cons, ih.1, attempt.attempt, List.range'_concat, List.reverse_concat]
      simp [Nat.add_comm]
    · intro q hq
      rcases List.mem_cons.1 hq with rfl | hq
      · exact attempt.seat
      · exact ih.2 q hq

/-- Each of them failed with what is worth another attempt. -/
theorem repeated (h : Failed s seat parcel envelope n j) {q : Post} {time : Time} {finish : Finish}
    (mem : .ended q time finish ∈ j) : ∃ f, finish = .failed f ∧ PostFailure.classify f = .retriable := by
  induction h with
  | start packed => cases mem
  | @next n j post time f before attempt answers again more ih =>
    rcases List.mem_cons.1 mem with here | mem
    · cases here
      exact ⟨f, rfl, again⟩
    · rcases List.mem_cons.1 mem with here | mem
      · cases here
      · exact ih mem

end Failed

end Sending

/-! ## Posts that are answered by a script -/

/-- Every post is answered in the end, and by a script: the answer is fixed by the batch and the number
of the attempt, whoever makes it and whenever. -/
def DeliverySettings.Follows (s : DeliverySettings) (script : Parcel → Nat → Except PostFailure Unit) : Prop :=
  ∀ seen post, ∃ delay, s.transport seen post = ⟨some delay, .result (script post.parcel post.attempt)⟩

namespace Sending

variable {s : DeliverySettings} {seat : Seat} {parcel : Parcel} {envelope : Envelope} {n : Nat} {j : Journal}
  {post : Post} {script : Parcel → Nat → Except PostFailure Unit}

theorem answer_eq (follows : s.Follows script) (attempt : post.IsAttempt seat parcel envelope n)
    {result : Except PostFailure Unit} (answers : s.Answers post (.result result)) :
    script parcel n = result := by
  obtain ⟨seen, answer⟩ := answers
  obtain ⟨delay, reply⟩ := follows seen post
  rw [reply, attempt.parcel, attempt.attempt] at answer
  exact Answer.result.inj answer

/-- Behind attempts that failed the verdict is still open. -/
theorem Failed.verdict (h : Failed s seat parcel envelope n j) (follows : s.Follows script) :
    n ≤ s.policy.maxRetries ∧ s.policy.verdict PostFailure.classify (script parcel) =
      Policy.verdictFrom PostFailure.classify (script parcel) (s.policy.maxRetries - n) n := by
  induction h with
  | start packed => exact ⟨Nat.zero_le _, rfl⟩
  | @next n j post time f before attempt answers again more ih =>
    have few : n < s.policy.maxRetries := Nat.lt_of_succ_lt_succ more
    have answer := answer_eq follows attempt answers
    refine ⟨few, ?_⟩
    rw [ih.2, show s.policy.maxRetries - n = s.policy.maxRetries - (n + 1) + 1 by omega,
      Policy.verdictFrom_again answer again]

/-- A delivery that has come to its end has come to the verdict. -/
theorem Tale.verdict {d : Sending} (h : d.Tale s seat parcel j) (follows : s.Follows script) :
    (∀ m, d.result? = some (.delivered m) →
      s.policy.verdict PostFailure.classify (script parcel) = (m, .ok ())) ∧
    ∀ f, d.result? = some (.failed (.unsent f)) → f.isCancelled = false →
      s.policy.verdict PostFailure.classify (script parcel) = (f.attempts, .error f) := by
  cases h with
  | accepted failed attempt answers =>
    have answer := answer_eq follows attempt answers
    refine ⟨?_, by simp [result?]⟩
    rintro m ends
    cases ends
    rw [(failed.verdict follows).2, Policy.verdictFrom_ok answer]
  | @refused envelope n post time j f failed attempt answers final =>
    have answer := answer_eq follows attempt answers
    refine ⟨by simp [result?], ?_⟩
    rintro f ends -
    cases ends
    rw [(failed.verdict follows).2, Policy.verdictFrom_final answer final]
    rfl
  | @exhausted envelope n post time j f failed attempt answers again last =>
    have answer := answer_eq follows attempt answers
    obtain ⟨few, verdict⟩ := failed.verdict follows
    have none_left : s.policy.maxRetries - n = 0 := by
      unfold Policy.maxAttempts at last
      omega
    refine ⟨by simp [result?], ?_⟩
    rintro f ends -
    cases ends
    rw [verdict, none_left, Policy.verdictFrom_last answer again]
    rfl
  | cancelled failed =>
    refine ⟨by simp [result?], ?_⟩
    rintro f ends kept
    cases ends
    cases kept
  | abandoned failed attempt =>
    refine ⟨by simp [result?], ?_⟩
    rintro f ends kept
    cases ends
    cases kept
  | _ => simp [result?]

end Sending

end Telemetry
