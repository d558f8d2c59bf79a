/-
A drain once the signal has come. A worker that is not at its end can always take a step, wherever it
waits (`Scene.step_isSome_of_cancelled`); it takes three more at most, receives no batch and begins no
post (`Scene.Move.winds`). So the steps that a drain still takes are counted beforehand
(`Drain.winds_of_step`), and when none is left it has returned (`Drain.returned_of_stuck`).
-/
import Telemetry.Pool.Drain
import Telemetry.Proofs.Pool.Limit
import Telemetry.Proofs.Stage.Signal

namespace Telemetry

open Retry (Call)

/-! ## Deliveries -/

namespace Sending

variable {settings : DeliverySettings} {now : Time} {journal entries : Journal} {seat : Seat}
  {parcel : Parcel} {old new : Sending}

/-- A delivery that is not over gives up at the signal, whether it waits for an answer, in a pause or
for nothing. -/
theorem step_isSome_of_cancelled (noResult : old.result? = none) :
    (old.step settings now true journal seat parcel).isSome = true := by
  cases old with
  | unpacked f => cases noResult
  | sending envelope call post =>
    cases call with
    | ready n pause => rfl
    | attempting n pause due answer => rfl
    | pausing n pause wake => rfl
    | ended n r => cases r <;> cases noResult
    | crashed n => cases noResult

/-- A step of a delivery after the signal ends it, and no post is begun in it. -/
theorem Move.gives_up (m : Move settings now true journal seat parcel old new entries) :
    new.result?.isSome = true ∧ (entries ++ journal).posts = journal.posts := by
  cases m with
  | @become envelope call next post moves =>
    cases Call.become_of_move moves with
    | give_up stillGoing alive =>
      refine ⟨rfl, ?_⟩
      unfold closing
      split <;> rfl
  | begin moves made goes seen =>
    cases (Call.ready_of_begin moves).2

end Sending

namespace Pool

/-! ## Workers -/

/-- The most steps that a worker still takes once the signal has come: a delivery is given up, its permit
is given back, and the worker leaves. -/
def Worker.remaining (w : Worker) : Nat := match w.phase with
  | .delivering _ sending => if sending.result?.isSome then 2 else 3
  | .ended => 0
  | .crashed => 0
  | _ => 1

namespace Scene

variable {settings : DeliverySettings} {seat : Seat} {s old next : Scene}

/-- The signal goes before everything that a worker may wait for. -/
theorem step_isSome_of_cancelled (signal : s.shared.cancelled = true) (live : s.worker.isOver = false) :
    (s.step settings seat).isSome = true := by
  unfold step
  rw [signal]
  unfold Worker.isOver at live
  cases phase : s.worker.phase with
  | seeking => rfl
  | listening => rfl
  | carrying parcel => rfl
  | queueing parcel => rfl
  | delivering parcel sending =>
    cases ends : sending.result? with
    | some r => simp only [ends, Option.isSome_some]
    | none => simpa only [ends, Option.isSome_map] using Sending.step_isSome_of_cancelled ends
  | ended => rw [phase] at live; cases live
  | crashed => rw [phase] at live; cases live

/-- What a step of a worker leaves behind once the signal has come: fewer steps, the same batches, and
no other post than before. -/
structure Winds (old next : Scene) : Prop where
  fewer : next.worker.remaining < old.worker.remaining
  batches : next.inbox.batches = old.inbox.batches
  posts : next.shared.journal.posts = old.shared.journal.posts

theorem Move.winds (m : old.Move settings seat next) (signal : old.shared.cancelled = true) :
    old.Winds next := by
  have loud : ¬ old.shared.cancelled = false := by simp [signal]
  -- a worker that leaves from a place where it waits has no step before it any more
  have leaves : ∀ {w : Worker}, w.phase = .ended → old.worker.remaining = 1 → w.remaining < old.worker.remaining := by
    intro w ended one
    rw [one, Worker.remaining, ended]
    exact Nat.zero_lt_one
  cases m with
  | leave phase _ => exact ⟨leaves rfl (by simp [Worker.remaining, phase]), rfl, rfl⟩
  | hangUp phase _ => exact ⟨leaves rfl (by simp [Worker.remaining, phase]), rfl, rfl⟩
  | putDown phase _ => exact ⟨leaves rfl (by simp [Worker.remaining, phase]), rfl, rfl⟩
  | withdraw phase _ => exact ⟨leaves rfl (by simp [Worker.remaining, phase]), rfl, rfl⟩
  | listen phase off idle => exact absurd off loud
  | receive phase off got => exact absurd off loud
  | finish phase off got => exact absurd off loud
  | take phase off taken => exact absurd off loud
  | queue phase off none_free => exact absurd off loud
  | collect phase off given => exact absurd off loud
  | @conclude parcel sending result phase ends =>
    have before : old.worker.remaining = 2 := by simp [Worker.remaining, phase, ends]
    refine ⟨?_, ?_, ?_⟩
    · rw [before]
      rcases phase_conclude old parcel result with after | after | after <;> simp [Worker.remaining, after]
    · rw [inbox_conclude]
    · rw [shared_conclude]
  | @go parcel sending following entries phase noResult move =>
    rw [signal] at move
    obtain ⟨hasResult, posts⟩ := move.gives_up
    refine ⟨?_, rfl, posts⟩
    simp [Worker.remaining, withPhase, phase, noResult, hasResult]

end Scene

/-! ## Drains -/

namespace Drain

variable {settings : DeliverySettings} {size number : Nat} {shared after : Shared} {d e : Drain} {task : Task}

/-- The steps that the tasks of a drain still take once the signal has come. -/
def remaining (d : Drain) : Nat :=
  d.stages.remaining + (d.workers.map Worker.remaining).sum + if d.hasReturned then 0 else 1

theorem winds_of_step (signal : shared.cancelled = true)
    (h : d.step settings size number shared task = some (after, e)) :
    d.stages.Fades e.stages ∧ e.remaining < d.remaining ∧ after.journal.posts = shared.journal.posts := by
  cases task with
  | stage t =>
    obtain ⟨stages, step, heq⟩ := Option.map_eq_some_iff.1 h
    cases heq
    rw [signal] at step
    obtain ⟨fades, fewer⟩ := Stage.Pipeline.fades_of_step step
    refine ⟨fades, ?_, rfl⟩
    show stages.remaining + (d.workers.map Worker.remaining).sum + (if d.hasReturned then 0 else 1) < d.remaining
    unfold remaining
    omega
  | work i =>
    obtain ⟨w, worker, h⟩ := Option.bind_eq_some_iff.1 h
    obtain ⟨next, step, heq⟩ := Option.bind_eq_some_iff.1 h
    cases heq
    have winds := (Scene.move_of_step step).winds signal
    refine ⟨⟨(Stage.Pipeline.Fades.refl _).inputs, .refl _, ?_⟩, ?_, winds.posts⟩
    · show next.inbox.batches.items <:+ d.stages.out.items
      rw [winds.batches]
      exact List.suffix_refl _
    · have sum := sum_map_set (f := Worker.remaining) (y := next.worker) worker
      have fewer : next.worker.remaining < w.remaining := winds.fewer
      show d.stages.remaining + ((d.workers.set i next.worker).map Worker.remaining).sum +
        (if d.hasReturned then 0 else 1) < d.remaining
      unfold remaining
      omega
  | finish =>
    simp only [step] at h
    split at h
    · rename_i first
      cases h
      simp only [Bool.and_eq_true, Option.isNone_iff_eq_none] at first
      refine ⟨⟨(Stage.Pipeline.Fades.refl _).inputs, .refl _, Channel.fades_drop _⟩, ?_, rfl⟩
      simp [remaining, hasReturned, first.1, Stage.Pipeline.remaining]
    · cases h

/-- A drain that can take no step although the signal has come has returned, and all its workers are
over. -/
theorem returned_of_stuck (signal : shared.cancelled = true)
    (stuck : ∀ task, d.step settings size number shared task = none) :
    d.hasReturned = true ∧ ∀ w ∈ d.workers, w.isOver = true := by
  have allOver : ∀ w ∈ d.workers, w.isOver = true := by
    intro w hw
    obtain ⟨i, worker⟩ := List.mem_iff_getElem?.1 hw
    by_contra live
    rw [Bool.not_eq_true] at live
    have moves : ((d.scene shared w).step settings ⟨number, i⟩).isSome = true :=
      Scene.step_isSome_of_cancelled signal live
    rw [worker_still stuck worker] at moves
    cases moves
  exact ⟨returned_of_all_over stuck allOver, allOver⟩

end Drain

end Pool

end Telemetry
