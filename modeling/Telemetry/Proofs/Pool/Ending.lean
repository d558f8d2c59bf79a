/-
How a drain comes to its end while no signal comes. A delivery ends as cancelled only at the signal, so a
worker that leaves, and does not die, has seen the end of the batches (`Scene.Move.closed_of_ended`). That
end comes from the batcher, the end of the batcher from the last forwarder, and the end of a forwarder from
its generator: when one worker has left, no task of a stage runs any more (`Drain.EndsInOrder`). Of a drain
whose workers have all died nothing of the kind is known.
-/
import Telemetry.Proofs.Pool.Linked
import Telemetry.Proofs.Stage.Grouping

namespace Telemetry

open Retry (Call Policy)

/-! ## Deliveries -/

namespace Retry.Call

variable {ε α : Type} {p : Policy} {classify : ε → Class} {now : Time} {call next : Call ε α}

/-- Whether a call was given up at the signal. -/
def IsGivenUp (call : Call ε α) : Prop := ∃ n m, call = .ended n (.error (.cancelled m))

theorem not_isGivenUp_answered (n : Nat) (pause : Span) (answer : Answer ε α) :
    ¬ (answered p classify now n pause answer).IsGivenUp := by
  rintro ⟨k, m, same⟩
  unfold answered at same
  split at same
  · cases same
  · cases same
  · split at same
    · cases same
    · split at same <;> cases same

theorem not_isGivenUp_begin (n : Nat) (pause : Span) (reply : Reply ε α) :
    ¬ (Call.begin p classify now n pause reply).IsGivenUp := by
  unfold Call.begin
  split
  · exact not_isGivenUp_answered _ _ _
  · rintro ⟨k, m, same⟩
    cases same

theorem not_isGivenUp_of_move (h : call.move p classify now false = .become next) : ¬ next.IsGivenUp := by
  cases become_of_move h with
  | answered n pause come => exact not_isGivenUp_answered _ _ _
  | resume n pause ends fits => rintro ⟨k, m, same⟩; cases same
  | overflow n pause ends exceeds => rintro ⟨k, m, same⟩; cases same

end Retry.Call

namespace Sending

variable {settings : DeliverySettings} {now : Time} {journal entries : Journal} {seat : Seat}
  {parcel : Parcel} {old new : Sending}

/-- Whether a delivery was given up at the signal. -/
def IsGivenUp (d : Sending) : Prop := ∃ f, d.result? = some (.failed f) ∧ f.isCancelled = true

theorem isGivenUp_sending {envelope : Envelope} {call : Call PostFailure Unit} {post : Option Post}
    (h : (sending envelope call post).IsGivenUp) : call.IsGivenUp := by
  obtain ⟨f, ends, cancelled⟩ := h
  cases call with
  | ended n r =>
    cases r with
    | ok a => cases ends
    | error e =>
      cases ends
      cases e with
      | cancelled m => exact ⟨n, m, rfl⟩
      | nonRetriable m e => cases cancelled
      | exhausted m e => cases cancelled
  | ready n pause => cases ends
  | attempting n pause due answer => cases ends
  | pausing n pause wake => cases ends
  | crashed n => cases ends

theorem not_isGivenUp_ofBatch (settings : DeliverySettings) (b : Batch) :
    ¬ (ofBatch settings b).IsGivenUp := by
  unfold ofBatch
  split
  · rintro ⟨f, ends, cancelled⟩
    cases ends
    cases cancelled
  · intro h
    obtain ⟨n, m, same⟩ := isGivenUp_sending h
    cases same

/-- No delivery is given up while no signal comes. -/
theorem Move.not_isGivenUp (m : Move settings now false journal seat parcel old new entries) :
    ¬ new.IsGivenUp := by
  cases m with
  | become moves => exact fun h => Call.not_isGivenUp_of_move moves (isGivenUp_sending h)
  | begin moves made goes seen =>
    intro h
    have begun := isGivenUp_sending h
    rw [goes] at begun
    exact Call.not_isGivenUp_begin _ _ _ begun

end Sending

namespace Pool

/-! ## Workers -/

/-- A worker whose delivery was not given up. -/
def Worker.Perseveres (w : Worker) : Prop :=
  ∀ parcel sending, w.phase = .delivering parcel sending → ¬ sending.IsGivenUp

namespace Scene

variable {settings : DeliverySettings} {seat : Seat} {old next : Scene}

theorem perseveres_deliver (s : Scene) (parcel : Parcel) : (s.deliver settings parcel).worker.Perseveres := by
  rintro _ _ phase
  cases phase
  exact Sending.not_isGivenUp_ofBatch settings parcel.batch

theorem Move.perseveres (m : old.Move settings seat next) (off : old.shared.cancelled = false) :
    next.worker.Perseveres := by
  cases m with
  | take phase _ taken => exact perseveres_deliver _ _
  | collect phase _ given => exact perseveres_deliver _ _
  | go phase noResult move =>
    rw [off] at move
    rintro _ _ phase'
    cases phase'
    exact move.not_isGivenUp
  | @conclude parcel sending result phase ends =>
    intro p d delivers
    rcases phase_conclude old parcel result with here | here | here <;> cases here.symm.trans delivers
  | _ => exact fun _ _ => Phase.noConfusion

/-- A worker that leaves while no signal comes has seen the end of the batches. -/
theorem Move.closed_of_ended (m : old.Move settings seat next) (off : old.shared.cancelled = false)
    (h : old.worker.Perseveres) (ended : next.worker.phase = .ended) : old.inbox.batches.closed = true := by
  have quiet : ¬ old.shared.cancelled = true := by simp [off]
  cases m with
  | finish phase _ got => exact (Channel.finished_of_receive got).2
  | @conclude parcel sending result phase ends =>
    -- after a delivery a worker leaves only if it was given up
    cases result with
    | delivered n => cases ended
    | crashed => cases ended
    | failed f =>
      by_cases gaveUp : f.isCancelled = true
      · exact absurd ⟨f, ends, gaveUp⟩ (h parcel sending phase)
      · rw [show old.conclude parcel (.failed f) = _ from if_neg gaveUp] at ended
        cases ended
  | leave phase signal => exact absurd signal quiet
  | hangUp phase signal => exact absurd signal quiet
  | putDown phase signal => exact absurd signal quiet
  | withdraw phase signal => exact absurd signal quiet
  | listen phase _ idle => cases ended
  | receive phase _ got => cases ended
  | take phase _ taken => cases ended
  | queue phase _ none_free => cases ended
  | collect phase _ given => cases ended
  | go phase noResult move => cases ended

end Scene

end Pool

/-! ## Stages -/

namespace Stage

/-- A generator that takes a step has not ended. -/
theorem Source.Move.runs {cancelled : Bool} {s t : Source} (m : s.Move cancelled t) : s.task.ended = false := by
  cases m with
  | finish live why => exact live
  | take live hand next => exact live
  | send live hand listens => exact live

namespace Pipeline

variable {cancelled : Bool} {size : Nat} {p q : Pipeline}

/-- Stages that have come to their end take no step. -/
theorem IsOver.not_move (h : p.IsOver) : ¬ p.Move cancelled size q := by
  intro m
  cases m with
  | feed found move =>
    have live := move.runs
    rw [(h.generators _ (List.mem_of_getElem? found)).1] at live
    cases live
  | forward found move => exact move.runs (h.forwarders _ (List.mem_of_getElem? found))
  | batch move => exact move.runs h.batcher

/-- When no batch will come any more, all stages have come to their end, the generators first. -/
theorem Sound.isOver (h : p.Sound) (closed : p.out.closed = true) : p.IsOver := by
  have batcher := h.outClosed.1 closed
  obtain ⟨mergeClosed, mergeItems⟩ := h.done batcher
  rw [h.closed] at mergeClosed
  have forwarders := FanIn.isOver_iff.1 mergeClosed
  exact ⟨fun l hl => (h.lanes l hl).done (forwarders l hl), forwarders, batcher, mergeItems⟩

end Pipeline

end Stage

/-! ## Drains -/

namespace Pool

open Stage (Batcher Pipeline Source)

/-- A drain whose tasks end in their order: those of the stages until it returns, and a worker that has left
only after all of them. -/
structure Drain.EndsInOrder (d : Drain) : Prop where
  linked : d.Linked
  sound : d.hasReturned = false → d.stages.Sound
  perseveres : ∀ w ∈ d.workers, w.Perseveres
  left : ∀ w ∈ d.workers, w.phase = .ended → d.stages.IsOver

namespace Drain.EndsInOrder

variable {settings : DeliverySettings} {size number : Nat} {shared : Shared} {d : Drain}

/-- A drain of whole generators. -/
theorem ofSources (workers : Nat) {sources : List Source} (whole : ∀ s ∈ sources, s.IsWhole) :
    (Drain.ofStages workers (Pipeline.ofSources sources)).EndsInOrder := by
  have fresh : ∀ w ∈ (Drain.ofStages workers (Pipeline.ofSources sources)).workers, w = {} :=
    fun w hw => List.eq_of_mem_replicate hw
  constructor
  · exact linked_ofStages workers
      (Pipeline.linked_ofSources fun s hs => ⟨(whole s hs).sound.closed, (whole s hs).listens⟩) rfl
  · exact fun _ => Pipeline.sound_ofSources whole
  · intro w hw
    rw [fresh w hw]
    exact fun _ _ => Phase.noConfusion
  · intro w hw ended
    rw [fresh w hw] at ended
    cases ended

/-- A stage takes a step. -/
theorem stage (h : d.EndsInOrder) (fits : Batcher.fits size = true) {stages : Pipeline}
    (m : d.stages.Move false size stages) : ({ d with stages } : Drain).EndsInOrder := by
  constructor
  · exact h.linked.stage m
  · exact fun running => (m.left (h.sound running) fits).1
  · exact h.perseveres
  · exact fun w hw ended => absurd m (h.left w hw ended).not_move

/-- A worker takes a step. -/
theorem work (h : d.EndsInOrder) (off : shared.cancelled = false) {i : Nat} {w : Worker} {next : Scene}
    (worker : d.workers[i]? = some w) (step : (d.scene shared w).step settings ⟨number, i⟩ = some next) :
    (d.withScene i next).EndsInOrder := by
  have m := Scene.move_of_step step
  obtain ⟨closed, dropped, -, -⟩ := m.keeps
  have mem := List.mem_of_getElem? worker
  have live : w.isOver = false := Scene.live_of_step step
  have running : d.hasReturned = false := by
    by_contra returned
    rw [h.linked.allOver (by simpa using returned) w mem] at live
    cases live
  -- all that a worker changes of the stages is which batches are still to be received
  have stages : (d.withScene i next).stages =
      { d.stages with out := { d.stages.out with items := next.inbox.batches.items } } := by
    obtain ⟨_, ⟨⟨items, isClosed, isDropped⟩, received, busy⟩, _⟩ := next
    cases closed
    cases dropped
    rfl
  constructor
  · exact h.linked.work worker step
  · intro _
    rw [stages]
    exact (h.sound running).receive _
  · exact forall_mem_set h.perseveres (m.perseveres off)
  · have left : ∀ v ∈ d.workers.set i next.worker, v.phase = .ended → d.stages.IsOver :=
      forall_mem_set h.left fun ended => (h.sound running).isOver (m.closed_of_ended off (h.perseveres w mem) ended)
    intro v hv ended
    obtain ⟨generators, forwarders, batcher, merged⟩ := left v hv ended
    exact ⟨generators, forwarders, batcher, merged⟩

/-- The drain returns. -/
theorem finish (h : d.EndsInOrder) (ends : ∀ w ∈ d.workers, w.isOver = true) (time : Time) :
    ({ d with returned := some time, stages := { d.stages with out := d.stages.out.drop } } :
      Drain).EndsInOrder := by
  constructor
  · exact h.linked.finish ends time
  · intro running
    cases running
  · exact h.perseveres
  · intro w hw ended
    obtain ⟨generators, forwarders, batcher, merged⟩ := h.left w hw ended
    exact ⟨generators, forwarders, batcher, merged⟩

end Drain.EndsInOrder

end Pool

end Telemetry
