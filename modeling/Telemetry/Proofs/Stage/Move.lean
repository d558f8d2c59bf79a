/-
What one step of a generator, of a forwarder, of a batcher and of a whole pipeline can be. Each list is
complete and says under which conditions a step is taken, so that no proof opens the steps again.
-/
import Telemetry.Stage.Pipeline

namespace Telemetry

namespace Channel

variable {α : Type} {c rest : Channel α}

theorem items_of_receive {a : α} (h : c.receive = (.item a, rest)) :
    ∃ l, c.items = a :: l ∧ rest = { c with items := l } := by
  unfold receive at h
  split at h
  · rename_i b l items
    cases h
    exact ⟨l, items, rfl⟩
  · split at h <;> cases h

/-- A receiver is told that nothing will come when nothing is left and nobody can send. -/
theorem finished_of_receive (h : c.receive = (.finished, rest)) : c.items = [] ∧ c.closed = true := by
  unfold receive at h
  split at h
  · cases h
  · rename_i items
    split at h
    · exact ⟨items, ‹_›⟩
    · cases h

end Channel

namespace Stage

/-! ## Generators and forwarders -/

/-- A step of a generator. -/
inductive Source.Move (cancelled : Bool) (s : Source) : Source → Prop
  | finish (live : s.task.ended = false)
      (why : (s.task.hand = none ∧ s.task.rest = []) ∨ cancelled = true ∨ s.out.dropped = true) :
      Move cancelled s s.finish
  | take {r : Record} {rest : List Record} (live : s.task.ended = false) (hand : s.task.hand = none)
      (next : s.task.rest = r :: rest) :
      Move cancelled s { s with task := { s.task with rest, hand := some r } }
  | send {r : Record} (live : s.task.ended = false) (hand : s.task.hand = some r)
      (listens : s.out.dropped = false) :
      Move cancelled s { s with task := { s.task with hand := none }, out := s.out.push r }

theorem Source.move_of_step {cancelled : Bool} {s t : Source} (h : s.step cancelled = some t) :
    Move cancelled s t := by
  unfold step at h
  split at h
  · cases h
  · rename_i live
    rw [Bool.not_eq_true] at live
    split at h
    · rename_i hand rest
      cases h
      exact .finish live (.inl ⟨hand, rest⟩)
    · rename_i r rest hand next
      split at h
      · rename_i signal
        cases h
        exact .finish live (.inr (.inl signal))
      · cases h
        exact .take live hand next
    · rename_i r hand
      split at h
      · rename_i signal
        cases h
        exact .finish live (.inr (.inl signal))
      · split at h
        · rename_i gone
          cases h
          exact .finish live (.inr (.inr gone))
        · rename_i listens
          split at h
          · cases h
            exact .send live hand (by simpa using listens)
          · cases h

/-- A step of a forwarder between its input and the output behind it. -/
inductive Lane.Move (cancelled : Bool) (out : Channel Record) (l : Lane) : Lane → Channel Record → Prop
  | finish (live : l.forwarder ≠ .ended)
      (why : (l.forwarder = .waiting ∧ l.source.out.items = [] ∧ l.source.out.closed = true) ∨
        cancelled = true ∨ out.dropped = true) : Move cancelled out l l.finish out
  | receive {r : Record} {rest : List Record} (waits : l.forwarder = .waiting)
      (items : l.source.out.items = r :: rest) :
      Move cancelled out l
        { source := { l.source with out := { l.source.out with items := rest } }, forwarder := .holding r } out
  | send {r : Record} (holds : l.forwarder = .holding r) (listens : out.dropped = false) :
      Move cancelled out l { l with forwarder := .waiting } (out.push r)

theorem Lane.move_of_step {cancelled : Bool} {out out' : Channel Record} {l l' : Lane}
    (h : l.step cancelled out = some (l', out')) : Move cancelled out l l' out' := by
  unfold step at h
  split at h
  · cases h
  · rename_i waits
    have live : l.forwarder ≠ .ended := by rw [waits]; exact Forwarder.noConfusion
    split at h
    · rename_i signal
      cases h
      exact .finish live (.inr (.inl signal))
    · split at h
      · rename_i r input got
        obtain ⟨rest, items, rfl⟩ := Channel.items_of_receive got
        cases h
        exact .receive waits items
      · rename_i got
        cases h
        exact .finish live (.inl ⟨waits, Channel.finished_of_receive got⟩)
      · cases h
  · rename_i r holds
    have live : l.forwarder ≠ .ended := by rw [holds]; exact Forwarder.noConfusion
    split at h
    · rename_i signal
      cases h
      exact .finish live (.inr (.inl signal))
    · split at h
      · rename_i gone
        cases h
        exact .finish live (.inr (.inr gone))
      · rename_i listens
        split at h
        · cases h
          exact .send holds (by simpa using listens)
        · cases h

/-! ## Batchers -/

/-- A step of a batcher. -/
inductive Batching.Move (cancelled : Bool) (size : Nat) (b : Batching) : Batching → Prop
  | finish (live : b.task ≠ .ended)
      (why : (b.task = .filling [] ∧ b.input.items = [] ∧ b.input.closed = true) ∨ cancelled = true ∨
        Batcher.fits size = false ∨ b.out.dropped = true) : Move cancelled size b b.finish
  | start (task : b.task = .starting) : Move cancelled size b { b with task := .filling [] }
  | fill {r : Record} {rest buffer : List Record} (task : b.task = .filling buffer)
      (items : b.input.items = r :: rest) (short : buffer.length + 1 < Batcher.effective size) :
      Move cancelled size b
        { b with input := { b.input with items := rest }, task := .filling (buffer ++ [r]) }
  | complete {r : Record} {rest buffer : List Record} (task : b.task = .filling buffer)
      (items : b.input.items = r :: rest) (full : Batcher.effective size ≤ buffer.length + 1) :
      Move cancelled size b
        { b with input := { b.input with items := rest }, task := .offering (buffer ++ [r]) }
  | last {buffer : List Record} (task : b.task = .filling buffer) (nonempty : buffer ≠ [])
      (items : b.input.items = []) (closed : b.input.closed = true) :
      Move cancelled size b { b with task := .offering buffer }
  | send {batch : Batch} (task : b.task = .offering batch) (listens : b.out.dropped = false) :
      Move cancelled size b { b with task := .filling [], out := b.out.push batch }

theorem Batching.move_of_step {cancelled : Bool} {size : Nat} {b c : Batching}
    (h : b.step cancelled size = some c) : Move cancelled size b c := by
  unfold step at h
  split at h
  · cases h
  · rename_i task
    have live : b.task ≠ .ended := by rw [task]; exact Batcher.noConfusion
    split at h
    · rename_i why
      cases h
      rcases Bool.or_eq_true_iff.1 why with signal | large
      · exact .finish live (.inr (.inl signal))
      · exact .finish live (.inr (.inr (.inl (by simpa using large))))
    · cases h
      exact .start task
  · rename_i buffer task
    have live : b.task ≠ .ended := by rw [task]; exact Batcher.noConfusion
    split at h
    · rename_i signal
      cases h
      exact .finish live (.inr (.inl signal))
    · split at h
      · rename_i r input got
        obtain ⟨rest, items, rfl⟩ := Channel.items_of_receive got
        dsimp only at h
        rw [List.length_append, List.length_singleton] at h
        split at h
        · rename_i short
          cases h
          exact .fill task items short
        · rename_i full
          cases h
          exact .complete task items (Nat.le_of_not_lt full)
      · rename_i got
        obtain ⟨items, closed⟩ := Channel.finished_of_receive got
        split at h
        · rename_i nothing
          cases h
          rw [List.isEmpty_iff.1 nothing] at task
          exact .finish live (.inl ⟨task, items, closed⟩)
        · rename_i nonempty
          cases h
          exact .last task (fun h => nonempty (List.isEmpty_iff.2 h)) items closed
      · cases h
  · rename_i batch task
    have live : b.task ≠ .ended := by rw [task]; exact Batcher.noConfusion
    split at h
    · rename_i signal
      cases h
      exact .finish live (.inr (.inl signal))
    · split at h
      · rename_i gone
        cases h
        exact .finish live (.inr (.inr (.inr gone)))
      · rename_i listens
        split at h
        · cases h
          exact .send task (by simpa using listens)
        · cases h

/-! ## Pipelines -/

/-- A step of a pipeline: of one of its generators, of one of its forwarders, or of its batcher. -/
inductive Pipeline.Move (cancelled : Bool) (size : Nat) (p : Pipeline) : Pipeline → Prop
  | feed {i : Nat} {lane : Lane} {source : Source} (found : p.merge.lanes[i]? = some lane)
      (move : lane.source.Move cancelled source) :
      Move cancelled size p
        { p with merge := { p.merge with lanes := p.merge.lanes.set i { lane with source } } }
  | forward {i : Nat} {lane lane' : Lane} {out : Channel Record} (found : p.merge.lanes[i]? = some lane)
      (move : lane.Move cancelled p.merge.out lane' out) :
      Move cancelled size p
        { p with merge := {
            lanes := p.merge.lanes.set i lane'
            out := if FanIn.isOver (p.merge.lanes.set i lane') then out.close else out } }
  | batch {b : Batching} (move : p.batching.Move cancelled size b) :
      Move cancelled size p { merge := { p.merge with out := b.input }, batcher := b.task, out := b.out }

theorem Pipeline.move_of_step {cancelled : Bool} {size : Nat} {p q : Pipeline} {t : Task}
    (h : p.step cancelled size t = some q) : Move cancelled size p q := by
  cases t with
  | feed i =>
    obtain ⟨merge, hm, rfl⟩ := Option.map_eq_some_iff.1 h
    obtain ⟨lane, found, hm⟩ := Option.bind_eq_some_iff.1 hm
    obtain ⟨source, step, heq⟩ := Option.bind_eq_some_iff.1 hm
    cases heq
    exact .feed found (Source.move_of_step step)
  | forward i =>
    obtain ⟨merge, hm, rfl⟩ := Option.map_eq_some_iff.1 h
    obtain ⟨lane, found, hm⟩ := Option.bind_eq_some_iff.1 hm
    obtain ⟨⟨lane', out⟩, step, heq⟩ := Option.bind_eq_some_iff.1 hm
    cases heq
    exact .forward found (Lane.move_of_step step)
  | batch =>
    obtain ⟨b, step, rfl⟩ := Option.map_eq_some_iff.1 h
    exact .batch (Batching.move_of_step step)

end Stage

end Telemetry
