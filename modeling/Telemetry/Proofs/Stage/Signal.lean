/-
The stages once the signal has come. The next step of each task is its last one, whatever the task was
about to do (`Source.step_cancelled`, `Lane.step_cancelled`, `Batching.step_cancelled`), so there are as
many steps left as there are tasks, and none of them puts anything into a channel
(`Pipeline.fades_of_step`).
-/
import Telemetry.Proofs.Around
import Telemetry.Stage.Pipeline

namespace Telemetry

/-! ## Channels into which nothing comes -/

/-- Nothing has come into a channel: what it holds is what is left of what it held. -/
def Channel.Fades {α : Type} (before after : Channel α) : Prop := after.items <:+ before.items

namespace Channel

variable {α : Type} {c d e : Channel α}

theorem Fades.refl (c : Channel α) : c.Fades c := List.suffix_refl c.items

theorem Fades.trans (h : c.Fades d) (k : d.Fades e) : c.Fades e := List.IsSuffix.trans k h

theorem fades_drop (c : Channel α) : c.Fades c.drop := List.nil_suffix

end Channel

namespace Stage

/-! ## The last step of a task -/

variable {s t : Source} {l : Lane} {out : Channel Record} {b c : Batching} {size : Nat}

theorem Source.step_cancelled (s : Source) :
    s.step true = if s.task.ended then none else some s.finish := by
  unfold step
  cases s.task.ended with
  | true => rfl
  | false => cases s.task.hand <;> cases s.task.rest <;> rfl

theorem Lane.step_cancelled (out : Channel Record) (l : Lane) :
    l.step true out = if l.forwarder = .ended then none else some (l.finish, out) := by
  unfold step
  cases l.forwarder <;> rfl

theorem Batching.step_cancelled (size : Nat) (b : Batching) :
    b.step true size = if b.task = .ended then none else some b.finish := by
  unfold step
  cases b.task <;> rfl

/-! ## The steps that are left -/

/-- The steps that a generator still takes once the signal has come. -/
def Source.remaining (s : Source) : Nat := if s.task.ended then 0 else 1

/-- The steps of a forwarder and of the generator at its input. -/
def Lane.remaining (l : Lane) : Nat := (if l.forwarder = .ended then 0 else 1) + l.source.remaining

/-- The steps of all tasks of a pipeline. -/
def Pipeline.remaining (p : Pipeline) : Nat :=
  (p.merge.lanes.map Lane.remaining).sum + if p.batcher = .ended then 0 else 1

/-- Nothing has come into any channel of a pipeline. -/
structure Pipeline.Fades (p q : Pipeline) : Prop where
  inputs : List.Forall₂ (fun l m => l.source.out.Fades m.source.out) p.merge.lanes q.merge.lanes
  merged : p.merge.out.Fades q.merge.out
  batches : p.out.Fades q.out

theorem Source.finish_of_step (h : s.step true = some t) : s.task.ended = false ∧ t = s.finish := by
  rw [step_cancelled] at h
  split at h
  · cases h
  · rename_i live
    cases h
    exact ⟨Bool.not_eq_true _ ▸ live, rfl⟩

theorem Source.remaining_of_step (h : s.step true = some t) :
    t.remaining < s.remaining ∧ s.out.Fades t.out := by
  obtain ⟨live, rfl⟩ := finish_of_step h
  refine ⟨?_, .refl _⟩
  simp [remaining, live, finish]

namespace Pipeline

variable {p q r : Pipeline} {task : Task}

theorem Fades.refl (p : Pipeline) : p.Fades p :=
  ⟨List.forall₂_same.2 fun _ _ => .refl _, .refl _, .refl _⟩

theorem Fades.trans (h : p.Fades q) (k : q.Fades r) : p.Fades r where
  inputs := forall₂_trans (fun _ _ _ before after => before.trans after) h.inputs k.inputs
  merged := h.merged.trans k.merged
  batches := h.batches.trans k.batches

/-- A step of a stage after the signal puts nothing into a channel, and it is one of those that were
left. -/
theorem fades_of_step (h : p.step true size task = some q) : p.Fades q ∧ q.remaining < p.remaining := by
  cases task with
  | feed i =>
    obtain ⟨merge, hm, rfl⟩ := Option.map_eq_some_iff.1 h
    obtain ⟨lane, found, hm⟩ := Option.bind_eq_some_iff.1 hm
    obtain ⟨source, step, heq⟩ := Option.bind_eq_some_iff.1 hm
    cases heq
    obtain ⟨fewer, fades⟩ := Source.remaining_of_step step
    refine ⟨⟨forall₂_set (fun l => .refl l.source.out) found fades, .refl _, .refl _⟩, ?_⟩
    have sum := sum_map_set (f := Lane.remaining) (y := { lane with source }) found
    simp only [remaining, Lane.remaining] at sum ⊢
    omega
  | forward i =>
    obtain ⟨merge, hm, rfl⟩ := Option.map_eq_some_iff.1 h
    obtain ⟨lane, found, hm⟩ := Option.bind_eq_some_iff.1 hm
    obtain ⟨⟨lane', out⟩, step, heq⟩ := Option.bind_eq_some_iff.1 hm
    cases heq
    rw [Lane.step_cancelled] at step
    split at step
    · cases step
    · rename_i live
      cases step
      refine ⟨⟨forall₂_set (fun l => .refl l.source.out) found (Channel.fades_drop _), ?_, .refl _⟩, ?_⟩
      · show (if FanIn.isOver _ then p.merge.out.close else p.merge.out).items <:+ p.merge.out.items
        split <;> exact List.suffix_refl _
      · have sum := sum_map_set (f := Lane.remaining) (y := lane.finish) found
        have fewer : lane.finish.remaining < lane.remaining := by
          show 0 + lane.source.remaining < lane.remaining
          rw [Lane.remaining, if_neg live]
          omega
        simp only [remaining]
        omega
  | batch =>
    obtain ⟨b, step, rfl⟩ := Option.map_eq_some_iff.1 h
    rw [Batching.step_cancelled] at step
    split at step
    · cases step
    · rename_i live
      cases step
      have runs : p.batcher ≠ .ended := live
      refine ⟨⟨List.forall₂_same.2 fun _ _ => .refl _, Channel.fades_drop _, .refl _⟩, ?_⟩
      simp [remaining, Batching.finish, runs]

end Pipeline

end Stage

end Telemetry
