/-
A drain of batches that are there from the beginning. While no signal comes, its workers receive the
batches in their order and lose none (`Drain.Serves`), and each step that the drain takes leaves less to
be done, however its tasks take their turns (`Drain.workload`).
-/
import Telemetry.Proofs.Agent.Ledger
import Telemetry.Proofs.Pool.Linked
import Telemetry.Proofs.Pool.Tended
import Telemetry.Proofs.Retry.Verdict

namespace Telemetry

open Retry (Call Policy)
open Stage (Pipeline)

/-- Every post is answered in the end, by whatever answer. -/
def DeliverySettings.Answered (s : DeliverySettings) : Prop :=
  ∀ seen post, (s.transport seen post).delay.isSome = true

namespace Sending

/-- The steps that are left to a delivery, at most. -/
def workload (p : Policy) : Sending → Nat
  | unpacked _ => 0
  | sending _ call _ => call.workload p

theorem workload_ofBatch (s : DeliverySettings) (b : Batch) :
    (ofBatch s b).workload s.policy ≤ 3 * s.policy.maxAttempts := by
  unfold ofBatch
  split
  · exact Nat.zero_le _
  · exact Nat.le_refl _

theorem Move.workload {settings : DeliverySettings} {now : Time} {journal entries : Journal} {seat : Seat}
    {parcel : Parcel} {old new : Sending} (m : Move settings now false journal seat parcel old new entries)
    (h : old.Steady settings.policy) : new.workload settings.policy < old.workload settings.policy := by
  cases m with
  | become moves => exact Call.workload_become moves
  | begin moves made goes seen =>
    obtain ⟨rfl, -⟩ := Call.ready_of_begin moves
    rw [goes]
    exact Call.Steady.workload_begin h _

/-- Whether a delivery waits for nothing, or for a moment that comes. -/
def IsTimed : Sending → Prop
  | sending _ (.attempting _ _ none _) _ => False
  | _ => True

theorem isTimed_ofBatch (s : DeliverySettings) (b : Batch) : (ofBatch s b).IsTimed := by
  unfold ofBatch
  split <;> trivial

theorem isTimed_of_not_attempting {envelope : Envelope} {call : Call PostFailure Unit} {post : Option Post}
    (still : ∀ n pause due answer, call ≠ .attempting n pause due answer) :
    (sending envelope call post).IsTimed := by
  cases call with
  | attempting n pause due answer => exact absurd rfl (still n pause due answer)
  | _ => trivial

/-- Posts that are answered in the end are waited for until a moment that comes. -/
theorem Move.isTimed {settings : DeliverySettings} {now : Time} {cancelled : Bool} {journal entries : Journal}
    {seat : Seat} {parcel : Parcel} {old new : Sending}
    (m : Move settings now cancelled journal seat parcel old new entries)
    (answered : settings.Answered) : new.IsTimed := by
  cases m with
  | become moves =>
    refine isTimed_of_not_attempting fun n pause due answer same => ?_
    cases Call.become_of_move moves with
    | answered m rest come => exact Call.answered_ne_attempting same
    | _ => cases same
  | @begin envelope call next old new n pause post entries moves made goes seen =>
    obtain ⟨delay, later⟩ := Option.isSome_iff_exists.1 (answered journal.posts post)
    rw [goes]
    unfold Call.begin
    rw [later]
    split
    · exact isTimed_of_not_attempting fun _ _ _ _ => Call.answered_ne_attempting
    · trivial

/-- A delivery that cannot go on although its moment comes has that moment before it. -/
theorem due_of_stuck {settings : DeliverySettings} {now : Time} {journal : Journal} {seat : Seat}
    {parcel : Parcel} {d : Sending} (timed : d.IsTimed) (awaits : d.awaits = true)
    (stuck : d.step settings now false journal seat parcel = none) : ∃ t, d.timer? = some t ∧ now < t := by
  cases d with
  | unpacked f => cases awaits
  | sending envelope call post =>
    cases call with
    | attempting n pause due answer =>
      cases due with
      | none => exact timed.elim
      | some t =>
        refine ⟨t, rfl, Nat.lt_of_not_le fun come => ?_⟩
        simp [step, Call.move, come] at stuck
    | pausing n pause wake =>
      refine ⟨wake, rfl, Nat.lt_of_not_le fun come => ?_⟩
      by_cases fits : pause + settings.policy.increment ≤ Span.longest <;>
        simp [step, Call.move, come, fits] at stuck
    | _ => cases awaits

end Sending

namespace Pool

/-! ## What is still to be done -/

/-- The steps that a batch still takes that waits to be received, at most: it is received, waits for a
permit, is delivered and settled. -/
def batchload (p : Policy) : Nat := 3 * p.maxAttempts + 5

/-- The steps that are left to a worker with what it has in its hands, at most. -/
def Worker.workload (p : Policy) (w : Worker) : Nat := match w.phase with
  | .seeking => 2
  | .listening => 1
  | .carrying _ => 3 * p.maxAttempts + 5
  | .queueing _ => 3 * p.maxAttempts + 4
  | .delivering _ sending => 3 + sending.workload p
  | .ended => 0
  | .crashed => 0

/-- The steps that are left to a drain whose stages are over, at most. -/
def Drain.workload (p : Policy) (d : Drain) : Nat :=
  (d.workers.map (Worker.workload p)).sum + batchload p * d.stages.out.items.length +
    if d.hasReturned then 0 else 1

/-- A step of a worker takes a batch out of the queue or works on the one in its hands. -/
theorem Scene.Move.workload {settings : DeliverySettings} {seat : Seat} {old next : Scene}
    (m : old.Move settings seat next) (quiet : old.shared.cancelled = false)
    (h : old.worker.Diligent settings.policy (old.shared.journal.Posted seat.drain)) :
    next.worker.workload settings.policy + batchload settings.policy * next.inbox.batches.items.length <
      old.worker.workload settings.policy + batchload settings.policy * old.inbox.batches.items.length := by
  have loud : ¬ old.shared.cancelled = true := by simp [quiet]
  have fresh (parcel : Parcel) := Sending.workload_ofBatch settings parcel.batch
  cases m with
  | leave phase signal => exact absurd signal loud
  | hangUp phase signal => exact absurd signal loud
  | putDown phase signal => exact absurd signal loud
  | withdraw phase signal => exact absurd signal loud
  | listen phase off idle => simp [Worker.workload, withPhase, phase]
  | finish phase off got => simp [Worker.workload, withPhase, phase]
  | receive phase off got =>
    obtain ⟨rest, items, rfl⟩ := Channel.items_of_receive got
    simp only [Worker.workload, withPhase, phase, items, List.length_cons, Nat.mul_succ, batchload]
    omega
  | queue phase off none_free => simp [Worker.workload, withPhase, withPermits, phase]
  | @take parcel permits phase off taken =>
    have := fresh parcel
    simp only [Worker.workload, Scene.deliver, withPhase, withPermits, phase]
    omega
  | @collect parcel permits phase off given =>
    have := fresh parcel
    simp only [Worker.workload, Scene.deliver, withPhase, withPermits, phase]
    omega
  | @conclude parcel sending result phase ends =>
    rw [inbox_conclude]
    refine Nat.add_lt_add_right ?_ _
    rcases phase_conclude old parcel result with after | after | after <;>
      simp only [Worker.workload, after, phase] <;> omega
  | go phase noResult move =>
    rw [quiet] at move
    have less := move.workload (h.steady _ _ phase).1
    simp only [Worker.workload, withPhase, phase]
    omega

/-! ## Waiting for a moment that comes -/

/-- Whether what a worker delivers waits for nothing, or for a moment that comes. -/
def Worker.IsTimed (w : Worker) : Prop :=
  ∀ parcel sending, w.phase = .delivering parcel sending → sending.IsTimed

theorem Scene.Move.isTimed {settings : DeliverySettings} {seat : Seat} {old next : Scene}
    (m : old.Move settings seat next)
    (answered : settings.Answered) : next.worker.IsTimed := by
  rintro parcel sending phase
  cases m with
  | take _ off taken => cases phase; exact Sending.isTimed_ofBatch _ _
  | collect _ off given => cases phase; exact Sending.isTimed_ofBatch _ _
  | go _ noResult move => cases phase; exact move.isTimed answered
  | @conclude parcel sending result _ ends =>
    rcases phase_conclude old parcel result with after | after | after <;> cases after.symm.trans phase
  | _ => cases phase

/-- A worker that cannot go on because it waits for a reply or the end of a pause waits for a moment that
is still to come. -/
theorem Scene.due_of_stuck {settings : DeliverySettings} {seat : Seat} {s : Scene}
    (quiet : s.shared.cancelled = false) (timed : s.worker.IsTimed) (awaits : s.worker.awaits = true)
    (stuck : s.step settings seat = none) :
    ∃ parcel sending t, s.worker.phase = .delivering parcel sending ∧ sending.timer? = some t ∧
      s.shared.now < t := by
  cases phase : s.worker.phase with
  | delivering parcel sending =>
    simp only [step, phase, quiet] at stuck
    split at stuck
    · cases stuck
    · have waits : sending.awaits = true := by simpa [Worker.awaits, phase] using awaits
      obtain ⟨t, timer, later⟩ :=
        Sending.due_of_stuck (timed parcel sending phase) waits (Option.map_eq_none_iff.1 stuck)
      exact ⟨parcel, sending, t, rfl, timer, later⟩
  | _ => simp [Worker.awaits, phase] at awaits

/-! ## The drain -/

/-- A drain without stages that serves given batches with so many workers: each batch was received or
still waits, in their order. -/
structure Drain.Serves (workers : Nat) (batches : List Batch) (policy : Policy) (number : Nat)
    (journal : Journal) (d : Drain) : Prop where
  lanes : d.stages.merge.lanes = []
  batcher : d.stages.batcher = .ended
  queue : d.received ++ d.stages.out.items = batches
  staff : d.workers.length = effectiveWorkers workers
  tended : d.Tended policy number journal
  timed : ∀ w ∈ d.workers, w.IsTimed

namespace Drain

theorem serves_ofBatches (workers : Nat) (batches : List Batch) (policy : Policy) (number : Nat)
    (journal : Journal) :
    (ofStages workers (Pipeline.ofBatches batches true)).Serves workers batches policy number journal where
  lanes := rfl
  batcher := rfl
  queue := rfl
  staff := List.length_replicate
  tended := Tended.ofStages policy number journal workers _
  timed w hw := by
    rintro parcel sending phase
    rw [List.eq_of_mem_replicate hw] at phase
    cases phase

theorem workload_ofBatches (workers : Nat) (batches : List Batch) (p : Policy) :
    (ofStages workers (Pipeline.ofBatches batches true)).workload p =
      2 * effectiveWorkers workers + batchload p * batches.length + 1 := by
  simp [workload, ofStages, Pipeline.ofBatches, Worker.workload, hasReturned, Nat.mul_comm 2]

namespace Serves

variable {workers : Nat} {batches : List Batch} {number : Nat} {settings : DeliverySettings} {size : Nat}
  {shared after : Shared} {d e : Drain}

/-- No stage takes a step. -/
theorem no_stage {policy : Policy} {journal : Journal} (h : d.Serves workers batches policy number journal)
    (cancelled : Bool) (task : Pipeline.Task) : d.stages.step cancelled size task = none := by
  cases task with
  | feed i => simp [Pipeline.step, Stage.FanIn.feed, h.lanes]
  | forward i => simp [Pipeline.step, Stage.FanIn.forward, h.lanes]
  | batch => simp [Pipeline.step, Pipeline.batching, Stage.Batching.step, h.batcher]

/-- A drain whose workers have all come to their end has received all batches. -/
theorem received_of_all_over {policy : Policy} {journal : Journal}
    (h : d.Serves workers batches policy number journal) (ends : ∀ w ∈ d.workers, w.isOver = true) :
    d.stages.out.items = [] ∧ d.received = batches := by
  have staffed : d.workers ≠ [] := by
    rw [← List.length_pos_iff, h.staff]
    exact Nat.lt_of_lt_of_le Nat.zero_lt_one (Nat.le_max_right _ _)
  obtain ⟨w, hw⟩ := List.exists_mem_of_ne_nil _ staffed
  obtain ⟨items, -⟩ := h.tended.ended w hw (h.tended.phase_of_isOver hw (ends w hw))
  refine ⟨items, ?_⟩
  rw [← h.queue, items, List.append_nil]

/-- Every step of the drain serves on, and leaves less to be done. -/
theorem step (h : d.Serves workers batches settings.policy number shared.journal) (works : settings.Works)
    (answered : settings.Answered)
    (quiet : shared.cancelled = false) {task : Task}
    (step : d.step settings size number shared task = some (after, e)) :
    e.Serves workers batches settings.policy number after.journal ∧ after.cancelled = false ∧
      e.workload settings.policy < d.workload settings.policy := by
  cases task with
  | stage t => simp [Drain.step, h.no_stage] at step
  | work i =>
    obtain ⟨w, worker, hs⟩ := Option.bind_eq_some_iff.1 step
    obtain ⟨next, moved, heq⟩ := Option.bind_eq_some_iff.1 hs
    cases heq
    have move := Scene.move_of_step moved
    have diligent := h.tended.diligent w (List.mem_of_getElem? worker)
    have kept := move.kept works quiet diligent
    obtain ⟨-, signal, entries, journal, -⟩ := move.frame
    refine ⟨⟨h.lanes, h.batcher, ?_, ?_, ?_, fun v hv => ?_⟩, signal.trans quiet, ?_⟩
    · show next.inbox.received ++ next.inbox.batches.items = batches
      rw [← h.queue]
      rcases kept.parcels with ⟨b, rest, items, queue, received, -⟩ | ⟨queue, received, -⟩
      · rw [received, queue, show d.stages.out.items = b :: rest from items]
        simp [scene]
      · rw [received, queue]
        rfl
    · show (d.workers.set i next.worker).length = _
      rw [List.length_set]
      exact h.staff
    · refine h.tended.work rfl worker kept fun parcel posted => ?_
      rw [journal]
      exact posted.append entries
    · rcases List.mem_or_eq_of_mem_set hv with hv | rfl
      · exact h.timed v hv
      · exact move.isTimed answered
    · have sum := sum_map_set (f := Worker.workload settings.policy) (y := next.worker) worker
      have less : next.worker.workload settings.policy + batchload settings.policy * next.inbox.batches.items.length <
        w.workload settings.policy + batchload settings.policy * d.stages.out.items.length :=
        move.workload quiet diligent
      show ((d.workers.set i next.worker).map (Worker.workload settings.policy)).sum +
        batchload settings.policy * next.inbox.batches.items.length + (if d.hasReturned then 0 else 1) <
          d.workload settings.policy
      unfold workload
      omega
  | finish =>
    simp only [Drain.step] at step
    split at step
    · rename_i first
      cases step
      simp only [Bool.and_eq_true, Option.isNone_iff_eq_none] at first
      obtain ⟨items, received⟩ := h.received_of_all_over (List.all_eq_true.1 first.2)
      refine ⟨⟨h.lanes, h.batcher, ?_, h.staff, ?_, h.timed⟩, quiet, ?_⟩
      · rw [← received]
        exact List.append_nil _
      · exact ⟨h.tended.diligent, fun w hw ended => ⟨rfl, (h.tended.ended w hw ended).2⟩, h.tended.parcels⟩
      · simp [workload, hasReturned, first.1, Channel.drop, items]
    · cases step

end Serves

end Drain

end Pool

end Telemetry
