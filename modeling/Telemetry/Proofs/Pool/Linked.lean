/-
What the workers of a drain know of its stages and of each other, whether the signal comes or not: the
batches have a receiver until the drain returns, a worker that keeps the others from listening listens
itself (`Drain.Linked`), and a permit is free only when nobody stands in the row for one
(`Permits.Tight`). So a worker that cannot go on waits for a batch, for a permit of somebody else, or for
an answer or the end of a pause (`Scene.waits_of_stuck`).
-/
import Telemetry.Proofs.Pool.Limit
import Telemetry.Proofs.Stage.Linked

namespace Telemetry

/-- Whether a delivery waits for the answer to a post, or for the end of a pause. -/
def Sending.awaits : Sending → Bool
  | sending _ (.attempting _ _ _ _) _ => true
  | sending _ (.pausing _ _ _) _ => true
  | _ => false

/-- A delivery that is not over and cannot go on waits. -/
theorem Sending.awaits_of_stuck {settings : DeliverySettings} {now : Time} {journal : Journal} {seat : Seat}
    {parcel : Parcel} {d : Sending} (noResult : d.result? = none)
    (stuck : d.step settings now false journal seat parcel = none) : d.awaits = true := by
  cases d with
  | unpacked f => cases noResult
  | sending envelope call post =>
    cases call with
    | ready n pause =>
      simp only [step, Retry.Call.move, Bool.false_eq_true, if_false] at stuck
      split at stuck <;> cases stuck
    | attempting n pause due answer => rfl
    | pausing n pause wake => rfl
    | ended n result => cases result <;> cases noResult
    | crashed n => cases noResult

namespace Pool

/-! ## Permits -/

namespace Permits

variable {p q : Permits} {s : Seat}

/-- Nobody stands in the row while a permit is free. -/
def Tight (p : Permits) : Prop := p.row ≠ [] → p.free = 0

theorem Tight.release (h : p.Tight) : p.release.Tight := by
  unfold Permits.release
  split
  · rename_i nobody
    exact fun waits => absurd nobody waits
  · rename_i first rest row
    exact fun _ => h (by simp [row])

theorem Tight.take? (h : p.Tight) (taken : p.take? = some q) : q.Tight := by
  unfold Permits.take? at taken
  split at taken
  · cases taken
  · rename_i free
    cases taken
    exact fun row => absurd (h row) free

theorem tight_enqueue (none_free : p.take? = none) : (p.enqueue s).Tight := by
  unfold Permits.take? at none_free
  split at none_free
  · rename_i free
    exact fun _ => free
  · cases none_free

theorem Tight.collect? (h : p.Tight) (given : p.collect? s = some q) : q.Tight := by
  obtain ⟨-, rfl⟩ := mem_granted_of_collect? given
  exact h

theorem Tight.withdraw (h : p.Tight) (s : Seat) : (p.withdraw s).Tight := by
  unfold Permits.withdraw
  split
  · rename_i q given
    exact (h.collect? given).release
  · intro row
    refine h fun nobody => row ?_
    simp [nobody]

end Permits

/-! ## Workers -/

/-- Whether a worker waits for the answer to a post, or for the end of a pause. -/
def Worker.awaits (w : Worker) : Bool := match w.phase with
  | .delivering _ sending => sending.awaits
  | _ => false

namespace Scene

variable {settings : DeliverySettings} {seat : Seat} {s old next : Scene}

theorem Move.tight (m : old.Move settings seat next) (h : old.shared.permits.Tight) :
    next.shared.permits.Tight := by
  cases m with
  | take phase off taken => exact h.take? taken
  | queue phase off none_free => exact Permits.tight_enqueue none_free
  | withdraw phase signal => exact h.withdraw seat
  | collect phase off given => exact h.collect? given
  | @conclude parcel sending result phase ends =>
    rw [shared_conclude]
    exact h.release
  | _ => exact h

/-- What a step of a worker does to the queue of batches and to the place of the one who listens. -/
structure Keeps (old next : Scene) : Prop where
  closed : next.inbox.batches.closed = old.inbox.batches.closed
  dropped : next.inbox.batches.dropped = old.inbox.batches.dropped
  empty : old.inbox.batches.items = [] → next.inbox.batches.items = []
  busy : next.inbox.busy = true →
    next.worker.isListening = true ∨ (old.inbox.busy = true ∧ old.worker.isListening = false)

theorem Move.keeps (m : old.Move settings seat next) : Keeps old next := by
  -- a worker that does not listen leaves queue and place as they are
  have elsewhere : next.inbox = old.inbox → old.worker.isListening = false → Keeps old next := by
    intro same apart
    refine ⟨by rw [same], by rw [same], by rw [same]; exact id, fun busy => .inr ⟨?_, apart⟩⟩
    rw [← same]
    exact busy
  cases m with
  | listen phase off idle => exact ⟨rfl, rfl, id, fun _ => .inl rfl⟩
  | hangUp phase signal => exact ⟨rfl, rfl, id, by simp⟩
  | finish phase off got => exact ⟨rfl, rfl, id, by simp⟩
  | receive phase off got =>
    obtain ⟨rest, items, rfl⟩ := Channel.items_of_receive got
    exact ⟨rfl, rfl, by simp [items], by simp⟩
  | conclude phase ends => exact elsewhere (inbox_conclude _ _ _) (by simp [Worker.isListening, phase])
  | leave phase signal => exact elsewhere rfl (by simp [Worker.isListening, phase])
  | putDown phase signal => exact elsewhere rfl (by simp [Worker.isListening, phase])
  | take phase off taken => exact elsewhere rfl (by simp [Worker.isListening, phase])
  | queue phase off none_free => exact elsewhere rfl (by simp [Worker.isListening, phase])
  | withdraw phase signal => exact elsewhere rfl (by simp [Worker.isListening, phase])
  | collect phase off given => exact elsewhere rfl (by simp [Worker.isListening, phase])
  | go phase noResult move => exact elsewhere rfl (by simp [Worker.isListening, phase])

/-- What a worker waits for that cannot go on. -/
inductive Waits (seat : Seat) (s : Scene) : Prop
  | finished (ends : s.worker.isOver = true)
  | place (phase : s.worker.phase = .seeking) (busy : s.inbox.busy = true)
  | batch (listens : s.worker.isListening = true) (items : s.inbox.batches.items = [])
      (isOpen : s.inbox.batches.closed = false)
  | permit (queues : s.worker.isQueueing = true) (none_given : seat ∉ s.shared.permits.granted)
  | reply (awaits : s.worker.awaits = true)

/-- A delivery that cannot go on waits for a reply or the end of a pause. -/
theorem Waits.awaits (h : s.Waits seat) (delivers : s.worker.isDelivering = true) :
    s.worker.awaits = true := by
  cases h with
  | reply awaits => exact awaits
  | _ => cases phase : s.worker.phase <;>
      simp_all [Worker.isDelivering, Worker.isOver, Worker.isListening, Worker.isQueueing]

/-- A worker in the row that cannot go on was given no permit. -/
theorem Waits.none_given (h : s.Waits seat) (queues : s.worker.isQueueing = true) :
    seat ∉ s.shared.permits.granted := by
  cases h with
  | permit _ none_given => exact none_given
  | _ => cases phase : s.worker.phase <;>
      simp_all [Worker.isQueueing, Worker.isOver, Worker.isListening, Worker.awaits]

theorem waits_of_stuck (quiet : s.shared.cancelled = false) (stuck : s.step settings seat = none) :
    s.Waits seat := by
  unfold step at stuck
  simp only [quiet, Bool.false_eq_true, if_false] at stuck
  cases phase : s.worker.phase with
  | ended => exact .finished (by simp [Worker.isOver, phase])
  | crashed => exact .finished (by simp [Worker.isOver, phase])
  | seeking =>
    simp only [phase] at stuck
    split at stuck
    · exact .place phase ‹_›
    · cases stuck
  | listening =>
    simp only [phase] at stuck
    split at stuck
    · cases stuck
    · cases stuck
    · rename_i nothing
      obtain ⟨items, isOpen⟩ := Channel.nothing_of_receive nothing
      exact .batch (by simp [Worker.isListening, phase]) items isOpen
  | carrying parcel =>
    simp only [phase] at stuck
    split at stuck <;> cases stuck
  | queueing parcel =>
    simp only [phase, Option.map_eq_none_iff] at stuck
    refine .permit (by simp [Worker.isQueueing, phase]) fun given => ?_
    simp [Permits.collect?, given] at stuck
  | delivering parcel sending =>
    simp only [phase] at stuck
    split at stuck
    · cases stuck
    · rename_i noResult
      refine .reply ?_
      unfold Worker.awaits
      rw [phase]
      exact Sending.awaits_of_stuck noResult (Option.map_eq_none_iff.1 stuck)

end Scene

/-! ## Drains -/

/-- A drain whose stages and workers are in keeping with each other. -/
structure Drain.Linked (d : Drain) : Prop where
  stages : d.stages.Linked
  dropped : d.stages.out.dropped = d.hasReturned
  busy : d.busy = true → ∃ w ∈ d.workers, w.isListening = true
  allOver : d.hasReturned = true → ∀ w ∈ d.workers, w.isOver = true

namespace Drain

variable {settings : DeliverySettings} {size number : Nat} {shared after : Shared} {d e : Drain}

theorem linked_ofStages (workers : Nat) {stages : Stage.Pipeline} (linked : stages.Linked)
    (listens : stages.out.dropped = false) : (ofStages workers stages).Linked :=
  ⟨linked, listens, by simp [ofStages], by simp [ofStages, hasReturned]⟩

theorem Linked.stage (h : d.Linked) {cancelled : Bool} {stages : Stage.Pipeline}
    (m : d.stages.Move cancelled size stages) : ({ d with stages } : Drain).Linked :=
  ⟨m.linked h.stages, m.dropped_out.trans h.dropped, h.busy, h.allOver⟩

theorem Linked.work (h : d.Linked) {i : Nat} {w : Worker} (worker : d.workers[i]? = some w) {next : Scene}
    (step : (d.scene shared w).step settings ⟨number, i⟩ = some next) : (d.withScene i next).Linked := by
  obtain ⟨closed, dropped, empty, busy⟩ := (Scene.move_of_step step).keeps
  constructor
  · exact h.stages.receive ⟨closed, dropped⟩ empty
  · exact dropped.trans h.dropped
  · intro isBusy
    show ∃ v ∈ d.workers.set i next.worker, v.isListening = true
    rcases busy isBusy with listens | ⟨before, apart⟩
    · exact ⟨next.worker, List.mem_set (List.getElem?_eq_some_iff.1 worker).1 _, listens⟩
    · -- the worker that listens is another one, and it stays where it is
      obtain ⟨v, hv, listens⟩ := h.busy before
      obtain ⟨j, found⟩ := List.mem_iff_getElem?.1 hv
      have other : i ≠ j := by
        rintro rfl
        obtain rfl : w = v := by simpa [worker] using found
        exact absurd (listens.symm.trans apart) (by simp)
      refine ⟨v, List.mem_iff_getElem?.2 ⟨j, ?_⟩, listens⟩
      rw [List.getElem?_set_ne other]
      exact found
  · intro returned
    have ends := h.allOver returned w (List.mem_of_getElem? worker)
    have live : w.isOver = false := Scene.live_of_step step
    exact absurd (ends.symm.trans live) (by simp)

theorem Linked.finish (h : d.Linked) (ends : ∀ w ∈ d.workers, w.isOver = true) (time : Time) :
    ({ d with returned := some time, stages := { d.stages with out := d.stages.out.drop } } : Drain).Linked :=
  ⟨h.stages.drop, rfl, h.busy, fun _ => ends⟩

/-- A drain that cannot go on although nobody waits for a permit or a reply has returned, and its stages
are over: the worker that listens would wait for a batcher that waits for a generator. -/
theorem Linked.returned_of_stuck (h : d.Linked) (quiet : shared.cancelled = false)
    (stuck : ∀ task, d.step settings size number shared task = none)
    (idle : ∀ w ∈ d.workers, w.isQueueing = false ∧ w.awaits = false) :
    d.hasReturned = true ∧ d.stages.IsOver ∧ d.stages.out.items = [] := by
  have stages : ∀ task, d.stages.step false size task = none := by
    intro task
    have still := stuck (.stage task)
    rwa [step, quiet, Option.map_eq_none_iff] at still
  have workers : ∀ w ∈ d.workers, w.isOver = true ∨ (w.phase = .seeking ∧ d.busy = true) ∨
      (w.isListening = true ∧ d.stages.out.items = [] ∧ d.stages.out.closed = false) := by
    intro w hw
    obtain ⟨i, worker⟩ := List.mem_iff_getElem?.1 hw
    cases Scene.waits_of_stuck quiet (worker_still stuck worker) with
    | finished ends => exact .inl ends
    | place phase busy => exact .inr (.inl ⟨phase, busy⟩)
    | batch listens items isOpen => exact .inr (.inr ⟨listens, items, isOpen⟩)
    | permit queues none_given => exact absurd (queues.symm.trans (idle w hw).1) (by simp)
    | reply awaits => exact absurd (awaits.symm.trans (idle w hw).2) (by simp)
  have nobody_listens : ∀ w ∈ d.workers, w.isListening = false := by
    intro w hw
    by_contra listens
    rcases workers w hw with ends | ⟨phase, -⟩ | ⟨-, items, isOpen⟩
    · unfold Worker.isListening Worker.isOver at *
      split at ends <;> simp_all
    · simp [Worker.isListening, phase] at listens
    · have stagesOver := h.stages.over_of_stuck (.inl (Channel.hasRoom_of_empty items)) stages
      exact absurd ((h.stages.closed.2 stagesOver.batcher).symm.trans isOpen) (by simp)
  have ends : ∀ w ∈ d.workers, w.isOver = true := by
    intro w hw
    rcases workers w hw with ends | ⟨-, busy⟩ | ⟨listens, -⟩
    · exact ends
    · obtain ⟨v, hv, listens⟩ := h.busy busy
      exact absurd (listens.symm.trans (nobody_listens v hv)) (by simp)
    · exact absurd (listens.symm.trans (nobody_listens w hw)) (by simp)
  have returned := returned_of_all_over stuck ends
  have gone : d.stages.out.dropped = true := h.dropped.trans returned
  exact ⟨returned, h.stages.over_of_stuck (.inr gone) stages, h.stages.outEmpty gone⟩

end Drain

end Pool

end Telemetry
