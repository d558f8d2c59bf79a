/-
Workers that look after every batch they receive (`Drain.Tended`): while no signal comes, the batches of
the workers of a drain are at every moment those that the drain has received, each with one worker; and
when all workers have come to their end, these are the batches that they have settled.
-/
import Telemetry.Proofs.Around
import Telemetry.Proofs.Pool.Diligence

namespace Telemetry.Pool

open Retry (Policy)

/-! ## Received batches -/

theorem map_number_mapIdx (l : List Batch) : (l.mapIdx Parcel.mk).map (·.number) = List.range l.length := by
  refine List.ext_getElem (by simp) fun i _ _ => ?_
  simp

theorem map_batch_mapIdx (l : List Batch) : (l.mapIdx Parcel.mk).map (·.batch) = l := by
  refine List.ext_getElem (by simp) fun i _ _ => ?_
  simp

/-- A batch that was received keeps its number. -/
theorem mem_mapIdx_mono {l m : List Batch} (more : l <+: m) {parcel : Parcel}
    (mem : parcel ∈ l.mapIdx Parcel.mk) : parcel ∈ m.mapIdx Parcel.mk := by
  obtain ⟨rest, rfl⟩ := more
  rw [List.mapIdx_append]
  exact List.mem_append_left _ mem

/-! ## What was settled -/

/-- What the workers of a drain have settled. -/
def Drain.settled (d : Drain) : List Settled := d.workers.flatMap (·.legacy)

/-- What is told of the outcomes apart from the worker is told of what was settled. -/
theorem Drain.map_outcomes {α : Type} {f : Outcome → α} {g : Settled → α}
    (same : ∀ i x, f (Outcome.ofSettled i x) = g x) (d : Drain) : d.outcomes.map f = d.settled.map g := by
  have each : ∀ (workers : List Worker),
      ((workers.mapIdx fun i w => w.legacy.map (Outcome.ofSettled i)).map (List.map f)) =
        workers.map fun w => w.legacy.map g := by
    intro workers
    refine List.ext_getElem (by simp) fun i _ _ => ?_
    simp [Function.comp_def, same]
  unfold Drain.outcomes Drain.settled
  rw [List.map_flatten, each, List.map_flatMap, List.flatMap_def]

theorem Worker.legacy_of_ended {w : Worker} (ended : w.phase = .ended) : w.legacy = w.settled.reverse := by
  unfold Worker.legacy
  rw [ended]

/-! ## The workers of a drain -/

/-- A drain whose workers are diligent, have all batches that it has received, and end only when there
are no more. -/
structure Drain.Tended (policy : Policy) (number : Nat) (journal : Journal) (d : Drain) : Prop where
  diligent : ∀ w ∈ d.workers, w.Diligent policy (journal.Posted number)
  ended : ∀ w ∈ d.workers, w.phase = .ended → d.stages.out.items = [] ∧ d.stages.out.closed = true
  parcels : (d.workers.flatMap (·.parcels)).Perm (d.received.mapIdx Parcel.mk)

namespace Drain.Tended

variable {policy : Policy} {number : Nat} {journal : Journal} {d : Drain}

/-- Workers that have done nothing yet. -/
theorem ofStages (policy : Policy) (number : Nat) (journal : Journal) (workers : Nat)
    (stages : Stage.Pipeline) : (Drain.ofStages workers stages).Tended policy number journal := by
  have fresh : ∀ w ∈ (Drain.ofStages workers stages).workers, w = {} :=
    fun w hw => List.eq_of_mem_replicate hw
  refine ⟨fun w hw => ?_, fun w hw ended => ?_, ?_⟩
  · rw [fresh w hw]
    exact ⟨Phase.noConfusion, fun _ _ => Phase.noConfusion, by simp⟩
  · rw [fresh w hw] at ended
    cases ended
  · have noParcels : (Drain.ofStages workers stages).workers.flatMap (·.parcels) = [] :=
      List.flatMap_eq_nil_iff.2 fun w hw => by rw [fresh w hw]; rfl
    rw [noParcels]
    exact .refl _

/-- A worker takes a step. -/
theorem work (h : d.Tended policy number journal) {settings : DeliverySettings}
    (same : settings.policy = policy) {shared : Shared} {i : Nat} {w : Worker} {next : Scene}
    (worker : d.workers[i]? = some w) (kept : Scene.Kept settings ⟨number, i⟩ (d.scene shared w) next)
    (more : ∀ parcel, journal.Posted number parcel → next.shared.journal.Posted number parcel) :
    (d.withScene i next).Tended policy number next.shared.journal := by
  obtain ⟨w₁, w₂, hw, rfl, set⟩ := split_at_getElem? worker
  have workers : (d.withScene w₁.length next).workers = w₁ ++ next.worker :: w₂ := set _
  have mem : ∀ {v : Worker}, v ∈ (d.withScene w₁.length next).workers → v ∈ d.workers ∨ v = next.worker :=
    fun hv => List.mem_or_eq_of_mem_set hv
  have diligent : ∀ v ∈ (d.withScene w₁.length next).workers,
      v.Diligent policy (next.shared.journal.Posted number) := by
    intro v hv
    rcases mem hv with hv | rfl
    · exact (h.diligent v hv).mono more
    · rw [← same]
      exact kept.diligent
  have before := h.parcels
  rw [hw, List.flatMap_append, List.flatMap_cons] at before
  obtain ⟨shared', ⟨batches, received, busy⟩, w'⟩ := next
  rcases kept.parcels with ⟨b, rest, items, rfl, rfl, parcels⟩ | ⟨rfl, rfl, parcels⟩
  · refine ⟨diligent, fun v hv ended => ?_, ?_⟩
    · rcases mem hv with hv | rfl
      · -- another worker that is at its end has seen the queue empty, and here a batch was in it
        have empty := (h.ended v hv ended).1
        rw [show d.stages.out.items = b :: rest from items] at empty
        cases empty
      · exact kept.ended ended
    · rw [workers, List.flatMap_append, List.flatMap_cons, show w'.parcels = _ from parcels]
      show (_ ++ (_ :: w.parcels ++ _)).Perm ((d.received ++ [b]).mapIdx Parcel.mk)
      rw [List.mapIdx_concat, List.cons_append]
      exact List.perm_middle.trans ((before.cons _).trans (List.perm_append_singleton _ _).symm)
  · refine ⟨diligent, fun v hv ended => ?_, ?_⟩
    · rcases mem hv with hv | rfl
      · exact h.ended v hv ended
      · exact kept.ended ended
    · rw [workers, List.flatMap_append, List.flatMap_cons]
      exact (List.Perm.append_left _ (.append_right _ parcels)).trans before

/-! ## The end -/

theorem phase_of_isOver (h : d.Tended policy number journal) {w : Worker} (mem : w ∈ d.workers)
    (ends : w.isOver = true) : w.phase = .ended := by
  have alive := (h.diligent w mem).alive
  unfold Worker.isOver at ends
  split at ends
  · assumption
  · exact absurd ‹_› alive
  · cases ends

/-- The batches that a drain has settled in the end are those that it has received. -/
theorem settled_parcels (h : d.Tended policy number journal) (ends : ∀ w ∈ d.workers, w.isOver = true) :
    (d.settled.map (·.parcel)).Perm (d.received.mapIdx Parcel.mk) := by
  refine List.Perm.trans ?_ h.parcels
  unfold Drain.settled
  rw [List.map_flatMap]
  refine List.Perm.flatMap_left _ fun w hw => ?_
  have ended := h.phase_of_isOver hw (ends w hw)
  rw [Worker.legacy_of_ended ended, List.map_reverse]
  unfold Worker.parcels
  rw [ended]
  exact List.reverse_perm _

end Drain.Tended

end Telemetry.Pool
