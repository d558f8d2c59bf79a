/-
No record is doubled or made up in the stages, whether the signal comes or not and whoever has gone. A
task that gives up takes along what it holds, so records may be lost on their way; but of every record
there are after each step at most as many on the way as before (`Pipeline.Move.count_le`).
-/
import Telemetry.Proofs.Stage.Flow

namespace Telemetry.Stage

variable {cancelled : Bool} {size : Nat}

/-- A generator that takes a step has handed a record over, or keeps it, or loses it. -/
theorem Source.Move.count_le {s t : Source} (m : s.Move cancelled t) (r : Record) :
    t.left.count r ≤ s.left.count r := by
  cases m with
  | finish live why =>
    show (s.out.items ++ ([] ++ [])).count r ≤ s.left.count r
    unfold left
    simp only [List.append_nil, List.count_append]
    exact Nat.le_add_right _ _
  | take live hand next =>
    refine Nat.le_of_eq (congrArg (List.count r) ?_)
    unfold left
    rw [hand, next]
    rfl
  | send live hand listens =>
    refine Nat.le_of_eq (congrArg (List.count r) ?_)
    show (s.out.items ++ [_]) ++ ([] ++ s.task.rest) = s.left
    unfold left
    rw [hand, List.append_assoc]
    rfl

/-- A forwarder that takes a step passes a record on, or keeps it, or loses what comes behind it. -/
theorem Lane.Move.count_le {l l' : Lane} {out out' : Channel Record} (m : l.Move cancelled out l' out')
    (r : Record) : (out'.items ++ l'.left).count r ≤ (out.items ++ l.left).count r := by
  cases m with
  | finish live why =>
    show (out.items ++ ([] ++ ([] ++ (l.source.task.hand.toList ++ l.source.task.rest)))).count r ≤ _
    unfold Lane.left Source.left
    simp only [List.nil_append, List.count_append]
    omega
  | receive waits items =>
    refine Nat.le_of_eq (congrArg (fun l => (out.items ++ l).count r) ?_)
    unfold Lane.left Source.left
    rw [waits, items]
    rfl
  | send holds listens =>
    refine Nat.le_of_eq (congrArg (List.count r) ?_)
    show (out.items ++ [_]) ++ ([] ++ l.source.left) = out.items ++ l.left
    unfold Lane.left
    rw [holds, List.append_assoc]
    rfl

/-- A batcher that takes a step keeps its records, or loses them with its input. -/
theorem Batching.Move.count_le {b c : Batching} (m : b.Move cancelled size c) (r : Record) :
    (c.out.items.flatten ++ (c.task.hand ++ c.input.items)).count r ≤
      (b.out.items.flatten ++ (b.task.hand ++ b.input.items)).count r := by
  cases m with
  | finish live why =>
    show (b.out.items.flatten ++ ([] ++ [])).count r ≤ _
    simp only [List.append_nil, List.count_append]
    exact Nat.le_add_right _ _
  | start task =>
    rw [task]
    exact Nat.le_refl _
  | fill task items short =>
    rw [task, items]
    refine Nat.le_of_eq (congrArg (List.count r) ?_)
    show b.out.items.flatten ++ ((_ ++ [_]) ++ _) = _
    rw [List.append_assoc]
    rfl
  | complete task items full =>
    rw [task, items]
    refine Nat.le_of_eq (congrArg (List.count r) ?_)
    show b.out.items.flatten ++ ((_ ++ [_]) ++ _) = _
    rw [List.append_assoc]
    rfl
  | last task nonempty items closed =>
    rw [task]
    exact Nat.le_refl _
  | send task listens =>
    rw [task]
    refine Nat.le_of_eq (congrArg (List.count r) ?_)
    show (b.out.items ++ [_]).flatten ++ ([] ++ b.input.items) = _
    rw [List.flatten_append, List.append_assoc]
    simp [Batcher.hand, Batcher.offer?]

namespace Pipeline

variable {p q : Pipeline}

theorem count_left (p : Pipeline) (r : Record) : p.left.count r =
    (p.out.items.flatten ++ (p.batcher.hand ++ p.merge.out.items)).count r +
      (p.merge.lanes.map fun l => l.left.count r).sum := by
  unfold left
  rw [← List.append_assoc p.batcher.hand, ← List.append_assoc, List.count_append, List.count_flatMap]
  rfl

/-- After a step of a stage there are at most as many of a record on the way as before. -/
theorem Move.count_le (m : p.Move cancelled size q) (r : Record) : q.left.count r ≤ p.left.count r := by
  rw [count_left, count_left]
  cases m with
  | @feed i lane source found move =>
    have less := move.count_le r
    have sum := sum_map_set (f := fun l => l.left.count r) (y := { lane with source }) found
    simp only [Lane.left, List.count_append] at sum ⊢
    omega
  | @forward i lane lane' out found move =>
    have less := move.count_le r
    have sum := sum_map_set (f := fun l => l.left.count r) (y := lane') found
    have same : (if FanIn.isOver (p.merge.lanes.set i lane') then out.close else out).items = out.items := by
      split <;> rfl
    simp only [List.count_append, same] at less sum ⊢
    omega
  | batch move => exact Nat.add_le_add_right (move.count_le r) _

end Pipeline

end Telemetry.Stage
