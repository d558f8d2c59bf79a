/-
The steps of a worker, one constructor for each: with what it is found, and what it leaves behind.
A delivery moves in two ways only: it becomes something else, or it begins a post.
-/
import Telemetry.Pool.Drain

namespace Telemetry

open Retry (Call)

namespace Sending

/-- A step of a delivery: its call becomes another one, and a post under way is over with it; or it
begins a post. -/
inductive Move (s : DeliverySettings) (now : Time) (cancelled : Bool) (journal : Journal) (seat : Seat)
    (parcel : Parcel) : Sending → Sending → Journal → Prop
  | become {envelope : Envelope} {call next : Call PostFailure Unit} {post : Option Post}
      (moves : call.move s.policy PostFailure.classify now cancelled = .become next) :
      Move s now cancelled journal seat parcel (.sending envelope call post)
        (.sending envelope next none) (closing now cancelled call post)
  | begin {envelope : Envelope} {call next : Call PostFailure Unit} {old new : Option Post}
      {n : Nat} {pause : Span} {post : Post} {entries : Journal}
      (moves : call.move s.policy PostFailure.classify now cancelled = .begin n pause)
      (made : post = { seat, parcel, attempt := n + 1, envelope, start := now })
      (goes : next = Call.begin s.policy PostFailure.classify now n pause
        (s.transport journal.posts post))
      (seen : (new = some post ∧ entries = [.begun post] ∧ ∃ m p due answer,
          next = .attempting m p due answer) ∨
        (new = none ∧ (∀ m p due answer, next ≠ .attempting m p due answer) ∧
          entries = [.ended post now (Finish.ofAnswer (s.transport journal.posts post).answer),
            .begun post])) :
      Move s now cancelled journal seat parcel (.sending envelope call old)
        (.sending envelope next new) entries

theorem move_of_step {s : DeliverySettings} {now : Time} {cancelled : Bool} {journal entries : Journal}
    {seat : Seat} {parcel : Parcel} {old new : Sending}
    (h : old.step s now cancelled journal seat parcel = some (new, entries)) :
    Move s now cancelled journal seat parcel old new entries := by
  cases old with
  | unpacked f => cases h
  | sending envelope call post =>
    simp only [step] at h
    split at h
    · cases h
    · rename_i next hm
      cases h
      exact .become hm
    · rename_i n pause hm
      split at h
      · rename_i m p due answer hb
        cases h
        exact .begin hm rfl rfl (.inl ⟨rfl, rfl, m, p, due, answer, hb⟩)
      · rename_i hb
        cases h
        exact .begin hm rfl rfl (.inr ⟨rfl, fun m p due answer h => hb m p due answer h, rfl⟩)

end Sending

namespace Pool.Scene

/-- A step of a worker. -/
inductive Move (settings : DeliverySettings) (seat : Seat) (s : Scene) : Scene → Prop
  | leave (phase : s.worker.phase = .seeking) (signal : s.shared.cancelled = true) :
      Move settings seat s (s.withPhase .ended)
  | listen (phase : s.worker.phase = .seeking) (signal : s.shared.cancelled = false)
      (idle : s.inbox.busy = false) :
      Move settings seat s { s.withPhase .listening with inbox := { s.inbox with busy := true } }
  | hangUp (phase : s.worker.phase = .listening) (signal : s.shared.cancelled = true) :
      Move settings seat s { s.withPhase .ended with inbox := { s.inbox with busy := false } }
  | receive {b : Batch} {batches : Channel Batch} (phase : s.worker.phase = .listening)
      (signal : s.shared.cancelled = false) (got : s.inbox.batches.receive = (.item b, batches)) :
      Move settings seat s { s.withPhase (.carrying ⟨s.inbox.received.length, b⟩) with
        inbox := { batches, received := s.inbox.received ++ [b], busy := false } }
  | finish {batches : Channel Batch} (phase : s.worker.phase = .listening)
      (signal : s.shared.cancelled = false) (got : s.inbox.batches.receive = (.finished, batches)) :
      Move settings seat s { s.withPhase .ended with inbox := { s.inbox with busy := false } }
  | putDown {parcel : Parcel} (phase : s.worker.phase = .carrying parcel)
      (signal : s.shared.cancelled = true) : Move settings seat s (s.withPhase .ended)
  | take {parcel : Parcel} {permits : Permits} (phase : s.worker.phase = .carrying parcel)
      (signal : s.shared.cancelled = false) (taken : s.shared.permits.take? = some permits) :
      Move settings seat s ((s.withPermits permits).deliver settings parcel)
  | queue {parcel : Parcel} (phase : s.worker.phase = .carrying parcel)
      (signal : s.shared.cancelled = false) (none_free : s.shared.permits.take? = none) :
      Move settings seat s
        ((s.withPermits (s.shared.permits.enqueue seat)).withPhase (.queueing parcel))
  | withdraw {parcel : Parcel} (phase : s.worker.phase = .queueing parcel)
      (signal : s.shared.cancelled = true) :
      Move settings seat s
        ((s.withPermits (s.shared.permits.withdraw seat)).withPhase .ended)
  | collect {parcel : Parcel} {permits : Permits} (phase : s.worker.phase = .queueing parcel)
      (signal : s.shared.cancelled = false) (given : s.shared.permits.collect? seat = some permits) :
      Move settings seat s ((s.withPermits permits).deliver settings parcel)
  | conclude {parcel : Parcel} {sending : Sending} {result : Sending.Result}
      (phase : s.worker.phase = .delivering parcel sending) (ends : sending.result? = some result) :
      Move settings seat s (s.conclude parcel result)
  | go {parcel : Parcel} {sending next : Sending} {entries : Journal}
      (phase : s.worker.phase = .delivering parcel sending) (noResult : sending.result? = none)
      (move : sending.Move settings s.shared.now s.shared.cancelled s.shared.journal seat parcel
        next entries) :
      Move settings seat s { s.withPhase (.delivering parcel next) with
        shared := { s.shared with journal := entries ++ s.shared.journal } }

theorem move_of_step {settings : DeliverySettings} {seat : Seat} {s t : Scene}
    (h : s.step settings seat = some t) : Move settings seat s t := by
  unfold step at h
  dsimp only at h
  split at h
  case h_1 phase =>
    split at h
    · cases h
      exact .leave phase ‹_›
    · rename_i hc
      split at h
      · cases h
      · rename_i hb
        cases h
        exact .listen phase (by simpa using hc) (by simpa using hb)
  case h_2 phase =>
    split at h
    · cases h
      exact .hangUp phase ‹_›
    · rename_i hc
      split at h
      · rename_i b batches got
        cases h
        exact .receive phase (by simpa using hc) got
      · rename_i batches got
        cases h
        exact .finish phase (by simpa using hc) got
      · cases h
  case h_3 parcel phase =>
    split at h
    · cases h
      exact .putDown phase ‹_›
    · rename_i hc
      split at h
      · rename_i permits taken
        cases h
        exact .take phase (by simpa using hc) taken
      · rename_i none_free
        cases h
        exact .queue phase (by simpa using hc) none_free
  case h_4 parcel phase =>
    split at h
    · cases h
      exact .withdraw phase ‹_›
    · rename_i hc
      obtain ⟨permits, given, rfl⟩ := Option.map_eq_some_iff.1 h
      exact .collect phase (by simpa using hc) given
  case h_5 parcel sending phase =>
    split at h
    · rename_i result ends
      cases h
      exact .conclude phase ends
    · rename_i noResult
      obtain ⟨⟨next, entries⟩, hn, rfl⟩ := Option.map_eq_some_iff.1 h
      exact .go phase noResult (Sending.move_of_step hn)
  all_goals cases h

/-- What follows on a delivery does not touch the batches. -/
theorem inbox_conclude (s : Scene) (parcel : Parcel) (r : Sending.Result) :
    (s.conclude parcel r).inbox = s.inbox := by
  cases r with
  | delivered n => rfl
  | failed f => simp only [conclude]; split <;> rfl
  | crashed => rfl

/-- What follows on a delivery gives the permit back. -/
theorem shared_conclude (s : Scene) (parcel : Parcel) (r : Sending.Result) :
    (s.conclude parcel r).shared = { s.shared with permits := s.shared.permits.release } := by
  cases r with
  | delivered n => rfl
  | failed f => simp only [conclude]; split <;> rfl
  | crashed => rfl

/-- After a delivery a worker looks for the next batch, or has come to its end. -/
theorem phase_conclude (s : Scene) (parcel : Parcel) (r : Sending.Result) :
    (s.conclude parcel r).worker.phase = .seeking ∨ (s.conclude parcel r).worker.phase = .ended ∨
      (s.conclude parcel r).worker.phase = .crashed := by
  cases r with
  | delivered n => exact .inl rfl
  | failed f =>
    simp only [conclude]
    split
    · exact .inr (.inl rfl)
    · exact .inl rfl
  | crashed => exact .inr (.inr rfl)

/-- A worker that takes a step has not come to its end. -/
theorem live_of_step {settings : DeliverySettings} {seat : Seat} {s t : Scene}
    (h : s.step settings seat = some t) : s.worker.isOver = false := by
  unfold Worker.isOver
  split
  · rename_i phase
    unfold step at h
    rw [phase] at h
    cases h
  · rename_i phase
    unfold step at h
    rw [phase] at h
    cases h
  · rfl

end Pool.Scene

namespace Pool.Drain

variable {settings : DeliverySettings} {size number : Nat} {shared : Shared} {d : Drain}

/-- A worker of a drain that cannot go on cannot go on. -/
theorem worker_still (stuck : ∀ task, d.step settings size number shared task = none) {i : Nat} {w : Worker}
    (worker : d.workers[i]? = some w) : (d.scene shared w).step settings ⟨number, i⟩ = none := by
  have still := stuck (.work i)
  cases moves : (d.scene shared w).step settings ⟨number, i⟩ with
  | none => rfl
  | some next => simp [step, worker, moves] at still

/-- A drain that cannot go on although its workers are over has returned. -/
theorem returned_of_all_over (stuck : ∀ task, d.step settings size number shared task = none)
    (allOver : ∀ w ∈ d.workers, w.isOver = true) : d.hasReturned = true := by
  have still := stuck .finish
  have checked : d.workers.all (·.isOver) = true := List.all_eq_true.2 allOver
  cases returned : d.returned with
  | some time => simp [hasReturned, returned]
  | none => simp [step, checked, returned] at still

end Pool.Drain

end Telemetry
