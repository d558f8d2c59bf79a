/-
Conservation in one drain while no signal comes. The records that its workers have received and those
that are still in its stages are at every moment the records of its snapshots (`Drain.Conserves`). A
drain that has returned has nothing left in its stages, so every record went out in exactly one batch
(`Drain.Conserves.settles`).
-/
import Telemetry.Pool.Drain
import Telemetry.Proofs.Agent.Ledger
import Telemetry.Proofs.Pool.Tended
import Telemetry.Proofs.Stage.Cut

namespace Telemetry.Pool

open Retry (Policy)
open Stage (Batcher IsCut Lane Pipeline Source)

/-- A drain on whose way no record is lost: the invariant of its workers and its stages. -/
structure Drain.Conserves (size : Nat) (policy : Policy) (number : Nat) (journal : Journal) (d : Drain) :
    Prop where
  stages : d.stages.Sound
  content : (d.received.flatten ++ d.stages.left).Perm d.snapshots.flatten
  cuts : ∃ full short, d.stages.Cuts size d.received full short
  staffed : d.workers ≠ []
  diligent : ∀ w ∈ d.workers, w.Diligent policy (journal.Posted number)
  ended : ∀ w ∈ d.workers, w.phase = .ended → d.stages.out.items = [] ∧ d.stages.out.closed = true
  parcels : (d.workers.flatMap (·.parcels)).Perm (d.received.mapIdx Parcel.mk)
  allOver : d.hasReturned = true → ∀ w ∈ d.workers, w.isOver = true

/-- What a drain has done that has settled all records of its snapshots: each of its batches is there
once, none is empty, all are full but one at most, together they hold the records of the snapshots, and
each was posted; and so the summary tells. -/
structure Drain.Settles (size number : Nat) (journal : Journal) (d : Drain) : Prop where
  numbers : (d.settled.map (·.parcel.number)).Perm
    (List.range (Batcher.count size d.snapshots.flatten.length))
  nonempty : ∀ x ∈ d.settled, x.parcel.batch ≠ []
  sizes : d.settled.countP (fun x => x.parcel.batch.length != Batcher.effective size) ≤ 1
  records : (d.settled.flatMap (·.parcel.batch)).Perm d.snapshots.flatten
  posted : ∀ x ∈ d.settled, journal.Posted number x.parcel
  summary : d.summary = {
    batches := Batcher.count size d.snapshots.flatten.length
    delivered := d.settled.countP (·.failure.isNone)
    failed := d.settled.countP (·.failure.isSome)
    records := d.snapshots.flatten.length }
  total : d.summary.delivered + d.summary.failed = d.summary.batches

namespace Drain.Conserves

variable {size number : Nat} {policy : Policy} {journal : Journal} {d : Drain}

theorem tended (h : d.Conserves size policy number journal) : d.Tended policy number journal :=
  ⟨h.diligent, h.ended, h.parcels⟩

/-! ## Steps -/

theorem mono (h : d.Conserves size policy number journal) {journal' : Journal}
    (more : ∀ parcel, journal.Posted number parcel → journal'.Posted number parcel) :
    d.Conserves size policy number journal' :=
  { h with diligent := fun w hw => (h.diligent w hw).mono more }

/-- A drain of whole generators. -/
theorem ofSources (size : Nat) (policy : Policy) (number : Nat) (journal : Journal) (workers : Nat)
    {sources : List Source} (whole : ∀ s ∈ sources, s.IsWhole) :
    (Drain.ofStages workers (Pipeline.ofSources sources)).Conserves size policy number journal := by
  have tended := Drain.Tended.ofStages policy number journal workers (Pipeline.ofSources sources)
  refine ⟨Pipeline.sound_ofSources whole, ?_, ⟨[], none, Pipeline.cuts_ofSources size sources⟩, ?_,
    tended.diligent, tended.ended, tended.parcels, ?_⟩
  · rw [Drain.snapshots_ofSources, ← Pipeline.left_ofSources whole]
    exact .refl _
  · intro empty
    exact Nat.ne_of_gt (effectiveWorkers_pos workers) (List.replicate_eq_nil_iff _ |>.1 empty)
  · intro returned
    cases returned

/-- A stage takes a step. -/
theorem stage (h : d.Conserves size policy number journal) (fits : Batcher.fits size = true)
    {stages : Pipeline} (m : d.stages.Move false size stages) :
    ({ d with stages } : Drain).Conserves size policy number journal := by
  obtain ⟨sound, left⟩ := m.left h.stages fits
  obtain ⟨full, short, cuts⟩ := h.cuts
  refine ⟨sound, ?_, m.cuts cuts h.stages fits, h.staffed, h.diligent, fun w hw ended => ?_, h.parcels,
    h.allOver⟩
  · show (d.received.flatten ++ stages.left).Perm (stages.merge.lanes.map (·.source.snapshot)).flatten
    rw [Pipeline.snapshots_of_move m]
    exact (List.Perm.append_left _ left).trans h.content
  · obtain ⟨items, closed⟩ := h.ended w hw ended
    rw [m.out_of_closed h.stages closed]
    exact ⟨items, closed⟩

/-- A worker takes a step. -/
theorem work (h : d.Conserves size policy number journal) {settings : DeliverySettings}
    (same : settings.policy = policy) {shared : Shared} {i : Nat} {w : Worker} {next : Scene}
    (worker : d.workers[i]? = some w) (live : w.isOver = false)
    (kept : Scene.Kept settings ⟨number, i⟩ (d.scene shared w) next)
    (more : ∀ parcel, journal.Posted number parcel → next.shared.journal.Posted number parcel) :
    (d.withScene i next).Conserves size policy number next.shared.journal := by
  obtain ⟨diligent, ended, parcels⟩ := h.tended.work same worker kept more
  have staffed : (d.withScene i next).workers ≠ [] := by
    show d.workers.set i next.worker ≠ []
    simpa using h.staffed
  have allOver : (d.withScene i next).hasReturned = true → ∀ v ∈ (d.withScene i next).workers, v.isOver = true := by
    -- all workers of a drain that has returned are over, and this one takes a step
    intro returned
    rw [h.allOver returned w (List.mem_of_getElem? worker)] at live
    cases live
  obtain ⟨shared', ⟨batches, received, busy⟩, w'⟩ := next
  obtain ⟨full, short, cuts⟩ := h.cuts
  rcases kept.parcels with ⟨b, rest, items, rfl, rfl, -⟩ | ⟨rfl, rfl, -⟩
  · refine ⟨h.stages.receive rest, ?_, ⟨full, short, cuts.receive items⟩, staffed, diligent, ended, parcels,
      allOver⟩
    have content := h.content
    rw [Pipeline.left_receive items, ← List.append_assoc, ← List.flatten_concat] at content
    exact content
  · exact ⟨h.stages, h.content, ⟨full, short, cuts⟩, staffed, diligent, ended, parcels, allOver⟩

/-! ## The end -/

/-- When all workers have come to their end, so has every stage before them. -/
theorem stages_of_all_over (h : d.Conserves size policy number journal)
    (ends : ∀ w ∈ d.workers, w.isOver = true) :
    d.stages.out.items = [] ∧ d.stages.batcher = .ended ∧ d.stages.left = [] := by
  obtain ⟨w, hw⟩ := List.exists_mem_of_ne_nil _ h.staffed
  obtain ⟨items, closed⟩ := h.ended w hw (h.tended.phase_of_isOver hw (ends w hw))
  have batcher := h.stages.outClosed.1 closed
  obtain ⟨mergeClosed, mergeItems⟩ := h.stages.done batcher
  have lanes : d.stages.merge.lanes.flatMap Lane.left = [] := by
    rw [h.stages.closed] at mergeClosed
    refine List.flatMap_eq_nil_iff.2 fun l hl => ?_
    exact Lane.left_of_ended (h.stages.lanes l hl) (eq_of_beq (List.all_eq_true.1 mergeClosed l hl))
  refine ⟨items, batcher, ?_⟩
  unfold Pipeline.left
  rw [items, batcher, mergeItems, lanes]
  rfl

/-- The drain returns. -/
theorem finish (h : d.Conserves size policy number journal) (ends : ∀ w ∈ d.workers, w.isOver = true)
    (time : Time) :
    ({ d with returned := some time, stages := { d.stages with out := d.stages.out.drop } } :
      Drain).Conserves size policy number journal := by
  obtain ⟨items, batcher, left⟩ := h.stages_of_all_over ends
  obtain ⟨full, short, cuts⟩ := h.cuts
  have same : ({ d.stages with out := d.stages.out.drop } : Pipeline).left = d.stages.left := by
    show [] ++ _ = d.stages.out.items.flatten ++ _
    rw [items]
    rfl
  refine ⟨⟨h.stages.lanes, h.stages.closed, h.stages.dropped, h.stages.done, h.stages.outClosed,
    fun _ => batcher⟩, ?_, ⟨full, short, ⟨?_, cuts.last, cuts.room⟩⟩, h.staffed, h.diligent,
    fun w hw ended => ⟨rfl, (h.ended w hw ended).2⟩, h.parcels, fun _ => ends⟩
  · have content := h.content
    rwa [← same] at content
  · have cut := cuts.cut
    unfold Pipeline.batches at cut ⊢
    rwa [items] at cut

end Drain.Conserves

/-! ## What was settled -/

theorem Outcome.isSuccess_ofSettled (i : Nat) (x : Settled) :
    (Outcome.ofSettled i x).isSuccess = x.failure.isNone := by
  unfold isSuccess ofSettled
  rw [Option.isNone_map]

/-- The totals of a drain are those of what it has settled. -/
theorem Drain.summary_eq (d : Drain) : d.summary = {
    batches := d.settled.length
    delivered := d.settled.countP (·.failure.isNone)
    failed := d.settled.countP (·.failure.isSome)
    records := (d.settled.flatMap (·.parcel.batch)).length } := by
  have sizes : d.outcomes.map (·.size) = d.settled.map (·.parcel.batch.length) :=
    d.map_outcomes fun _ _ => rfl
  have successes : d.outcomes.map (·.isSuccess) = d.settled.map (·.failure.isNone) :=
    d.map_outcomes Outcome.isSuccess_ofSettled
  have batches : d.outcomes.length = d.settled.length := by
    simpa only [List.length_map] using congrArg List.length sizes
  have delivered : d.outcomes.countP (·.isSuccess) = d.settled.countP (·.failure.isNone) := by
    have := congrArg (List.countP id) successes
    simpa only [List.countP_map, Function.comp_def, id] using this
  have failed : d.outcomes.countP (!·.isSuccess) = d.settled.countP (·.failure.isSome) := by
    have := congrArg (List.countP (!·)) successes
    simpa only [List.countP_map, Function.comp_def, Option.not_isNone] using this
  have records : d.outcomes.foldr (fun o n => o.size + n) 0 =
      (d.settled.flatMap (·.parcel.batch)).length := by
    rw [List.length_flatMap, ← sizes, List.sum, List.foldr_map]
  unfold Drain.summary Summary.ofOutcomes
  rw [batches, delivered, failed, records]

namespace Drain.Conserves

variable {size number : Nat} {policy : Policy} {journal : Journal} {d : Drain}

/-- A drain that has returned has settled all records of its snapshots. -/
theorem settles (h : d.Conserves size policy number journal) (returned : d.hasReturned = true) :
    d.Settles size number journal := by
  have ends := h.allOver returned
  obtain ⟨items, batcher, left⟩ := h.stages_of_all_over ends
  obtain ⟨full, short, cuts⟩ := h.cuts
  -- nothing waits and nothing is offered, so the batches that were received are the whole cut
  have cut : IsCut size d.received full short := by
    have cut := cuts.cut
    unfold Pipeline.batches at cut
    rw [items, batcher] at cut
    simpa only [Batcher.offer?, Option.toList, List.append_nil] using cut
  have content : d.received.flatten.Perm d.snapshots.flatten := by
    have content := h.content
    rwa [left, List.append_nil] at content
  have parcels := h.tended.settled_parcels ends
  have batches : (d.settled.map (·.parcel.batch)).Perm d.received := by
    have := parcels.map (·.batch)
    rwa [map_batch_mapIdx, List.map_map] at this
  have records : (d.settled.flatMap (·.parcel.batch)).Perm d.snapshots.flatten := by
    rw [List.flatMap_def]
    exact batches.flatten.trans content
  have count : d.received.length = Batcher.count size d.snapshots.flatten.length := by
    rw [cut.length_eq, content.length_eq]
  have settled : d.settled.length = Batcher.count size d.snapshots.flatten.length := by
    rw [← count, ← batches.length_eq, List.length_map]
  have summary := d.summary_eq
  rw [settled, records.length_eq] at summary
  refine ⟨?_, fun x mem => ?_, ?_, records, fun x mem => ?_, summary, ?_⟩
  · have := parcels.map (·.number)
    rwa [map_number_mapIdx, List.map_map, count] at this
  · exact cut.ne_nil (batches.mem_iff.1 (List.mem_map.2 ⟨x, mem, rfl⟩))
  · have few := cut.countP_le
    rwa [← batches.countP_eq, List.countP_map] at few
  · obtain ⟨w, hw, mem⟩ := List.mem_flatMap.1 mem
    rw [Worker.legacy_of_ended (h.tended.phase_of_isOver hw (ends w hw))] at mem
    exact (h.diligent w hw).settled x (List.mem_reverse.1 mem)
  · rw [summary]
    show List.countP _ _ + List.countP _ _ = _
    rw [← settled, List.length_eq_countP_add_countP (fun x => x.failure.isNone)]
    congr 2
    funext x
    cases x.failure <;> rfl

end Drain.Conserves

end Telemetry.Pool
