/-
What the two ends of a channel know of each other: a task that has ended has given up all its ends, and
what nobody will receive any more is gone. This holds whether the signal comes or not and however a task
came to its end (`Pipeline.Linked`). So a task of a stage waits for another task that still runs, and
stages in which no task can take a step have all ended, provided that somebody takes their batches
(`Pipeline.Linked.over_of_stuck`).
-/
import Telemetry.Proofs.Stage.Flow

namespace Telemetry

namespace Channel

variable {α : Type} {c rest : Channel α}

/-- Whether a task that wants to send an item can go on: there is a place for it, or nobody to take
it. -/
def Accepts (c : Channel α) : Prop := c.hasRoom = true ∨ c.dropped = true

theorem hasRoom_of_empty (h : c.items = []) : c.hasRoom = true := by
  simp [hasRoom, h, capacity]

theorem nothing_of_receive (h : c.receive = (.nothing, rest)) : c.items = [] ∧ c.closed = false := by
  unfold receive at h
  split at h
  · cases h
  · rename_i items
    split at h
    · cases h
    · rename_i isOpen
      exact ⟨items, by simpa using isOpen⟩

end Channel

namespace Stage

/-- A generator has given up its output exactly when it has ended. -/
def Source.Linked (s : Source) : Prop := s.out.closed = s.task.ended

/-- A forwarder has given up its input exactly when it has ended, and then nothing is left there. -/
structure Lane.Linked (l : Lane) : Prop where
  source : l.source.Linked
  dropped : l.source.out.dropped = true ↔ l.forwarder = .ended
  empty : l.source.out.dropped = true → l.source.out.items = []

/-- The last forwarder to end gives up the merged output, and the batcher gives up both of its ends. -/
structure Pipeline.Linked (p : Pipeline) : Prop where
  lanes : ∀ l ∈ p.merge.lanes, l.Linked
  merged : p.merge.out.closed = FanIn.isOver p.merge.lanes
  dropped : p.merge.out.dropped = true ↔ p.batcher = .ended
  empty : p.merge.out.dropped = true → p.merge.out.items = []
  closed : p.out.closed = true ↔ p.batcher = .ended
  outEmpty : p.out.dropped = true → p.out.items = []

/-- Stages that have come to their end: all tasks are over and all channels are empty. -/
structure Pipeline.IsOver (p : Pipeline) : Prop where
  generators : ∀ l ∈ p.merge.lanes, l.source.task.ended = true ∧ l.source.out.items = []
  forwarders : ∀ l ∈ p.merge.lanes, l.forwarder = .ended
  batcher : p.batcher = .ended
  merged : p.merge.out.items = []

/-! ## Steps -/

theorem FanIn.isOver_set {lanes : List Lane} {i : Nat} {l l' : Lane} (found : lanes[i]? = some l)
    (same : l'.forwarder = l.forwarder) : isOver (lanes.set i l') = isOver lanes := by
  have forwarders := map_set_of_getElem? (f := Lane.forwarder) found same
  have isOver_eq : ∀ ls : List Lane, isOver ls = (ls.map Lane.forwarder).all (· == .ended) := by
    simp [isOver, Function.comp_def]
  rw [isOver_eq, isOver_eq, forwarders]

theorem FanIn.isOver_iff {lanes : List Lane} :
    isOver lanes = true ↔ ∀ l ∈ lanes, l.forwarder = .ended := by
  simp [isOver]

variable {cancelled : Bool} {size : Nat}

theorem Source.Move.linked {s t : Source} (m : s.Move cancelled t) (h : s.Linked) :
    t.Linked ∧ t.out.dropped = s.out.dropped ∧ (s.out.dropped = true → t.out.items = s.out.items) := by
  cases m with
  | finish live why => exact ⟨rfl, rfl, fun _ => rfl⟩
  | take live hand next => exact ⟨h, rfl, fun _ => rfl⟩
  | send live hand listens => exact ⟨h, rfl, by simp [listens]⟩

theorem Lane.Linked.feed {l : Lane} (h : l.Linked) {source : Source} (m : l.source.Move cancelled source) :
    ({ l with source } : Lane).Linked := by
  obtain ⟨linked, dropped, items⟩ := m.linked h.source
  constructor
  · exact linked
  · exact Iff.trans (by rw [dropped]) h.dropped
  · intro gone
    have gone : l.source.out.dropped = true := dropped.symm.trans gone
    exact (items gone).trans (h.empty gone)

/-- A forwarder keeps the state of its output, into which it sends only while somebody listens. -/
theorem Lane.Move.linked {l l' : Lane} {out out' : Channel Record} (m : l.Move cancelled out l' out')
    (h : l.Linked) :
    l'.Linked ∧ l.forwarder ≠ .ended ∧ out'.closed = out.closed ∧ out'.dropped = out.dropped ∧
      (out.dropped = true → out'.items = out.items) := by
  cases m with
  | finish live why =>
    exact ⟨⟨h.source, by simp [Lane.finish, Channel.drop], fun _ => rfl⟩, live, rfl, rfl, fun _ => rfl⟩
  | receive waits items =>
    have listens : l.source.out.dropped ≠ true := by rw [ne_eq, h.dropped, waits]; simp
    refine ⟨⟨h.source, ?_, fun gone => absurd gone listens⟩, by simp [waits], rfl, rfl, fun _ => rfl⟩
    simpa using listens
  | send holds listens =>
    have hears : l.source.out.dropped ≠ true := by rw [ne_eq, h.dropped, holds]; simp
    refine ⟨⟨h.source, ?_, h.empty⟩, by simp [holds], rfl, rfl, by simp [listens]⟩
    simpa using hears

namespace Pipeline

variable {p q : Pipeline}

theorem linked_ofSources {sources : List Source} (h : ∀ s ∈ sources, s.Linked ∧ s.out.dropped = false) :
    (ofSources sources).Linked := by
  constructor
  · rintro l hl
    obtain ⟨s, hs, rfl⟩ := List.mem_map.1 hl
    obtain ⟨linked, listens⟩ := h s hs
    exact ⟨linked, by simp [listens], by simp [listens]⟩
  · cases sources <;> rfl
  · simp [ofSources, FanIn.ofSources]
  · simp [ofSources, FanIn.ofSources]
  · simp [ofSources]
  · simp [ofSources]

theorem linked_ofBatches (batches : List Batch) : (ofBatches batches true).Linked := by
  constructor <;> simp [ofBatches, FanIn.isOver]

/-- A batcher that goes on working leaves the state of its ends as it is. -/
theorem Linked.working (h : p.Linked) {b : Batching} (before : p.batcher ≠ .ended) (after : b.task ≠ .ended)
    (input : b.input.closed = p.merge.out.closed ∧ b.input.dropped = p.merge.out.dropped)
    (out : b.out.closed = p.out.closed ∧ b.out.dropped = p.out.dropped)
    (items : p.out.dropped = true → b.out.items = p.out.items) :
    ({ merge := { p.merge with out := b.input }, batcher := b.task, out := b.out } : Pipeline).Linked := by
  have listens : p.merge.out.dropped ≠ true := fun gone => before (h.dropped.1 gone)
  have isOpen : p.out.closed ≠ true := fun closed => before (h.closed.1 closed)
  constructor
  · exact h.lanes
  · exact input.1.trans h.merged
  · simpa [input.2, after] using listens
  · intro gone
    exact absurd (input.2.symm.trans gone) listens
  · simpa [out.1, after] using isOpen
  · intro gone
    have gone : p.out.dropped = true := out.2.symm.trans gone
    exact (items gone).trans (h.outEmpty gone)

theorem Linked.batch (h : p.Linked) {b : Batching} (m : p.batching.Move cancelled size b) :
    ({ merge := { p.merge with out := b.input }, batcher := b.task, out := b.out } : Pipeline).Linked := by
  have live : ∀ {task : Batcher}, p.batching.task = task → task ≠ .ended → p.batcher ≠ .ended := by
    rintro _ rfl other
    exact other
  cases m with
  | finish runs why =>
    exact ⟨h.lanes, h.merged, by simp [Batching.finish, Channel.drop], fun _ => rfl,
      by simp [Batching.finish, Channel.close], h.outEmpty⟩
  | start task => exact h.working (live task (by simp)) (by simp) ⟨rfl, rfl⟩ ⟨rfl, rfl⟩ fun _ => rfl
  | fill task items short => exact h.working (live task (by simp)) (by simp) ⟨rfl, rfl⟩ ⟨rfl, rfl⟩ fun _ => rfl
  | complete task items full => exact h.working (live task (by simp)) (by simp) ⟨rfl, rfl⟩ ⟨rfl, rfl⟩ fun _ => rfl
  | last task nonempty items closed => exact h.working (live task (by simp)) (by simp) ⟨rfl, rfl⟩ ⟨rfl, rfl⟩ fun _ => rfl
  | send task listens =>
    refine h.working (live task (by simp)) (by simp) ⟨rfl, rfl⟩ ⟨rfl, rfl⟩ fun gone => ?_
    exact absurd (listens.symm.trans gone) (by simp)

theorem Linked.forward (h : p.Linked) {i : Nat} {lane lane' : Lane} {out : Channel Record}
    (found : p.merge.lanes[i]? = some lane) (m : lane.Move cancelled p.merge.out lane' out) :
    ({ p with merge := {
        lanes := p.merge.lanes.set i lane'
        out := if FanIn.isOver (p.merge.lanes.set i lane') then out.close else out } } : Pipeline).Linked := by
  have mem := List.mem_of_getElem? found
  obtain ⟨linked, live, closed, dropped, items⟩ := m.linked (h.lanes lane mem)
  have isOpen : out.closed = false := by rw [closed, h.merged, FanIn.isOver_eq_false mem live]
  constructor
  · rintro l hl
    rcases List.mem_or_eq_of_mem_set hl with hl | rfl
    · exact h.lanes l hl
    · exact linked
  · show (if _ then out.close else out : Channel Record).closed = _
    split <;> simp_all [Channel.close]
  · show (if _ then out.close else out : Channel Record).dropped = true ↔ _
    rw [← h.dropped, ← dropped]
    split <;> rfl
  · intro gone
    have gone : out.dropped = true := by
      revert gone
      show (if _ then out.close else out : Channel Record).dropped = true → _
      split <;> exact id
    show (if _ then out.close else out : Channel Record).items = []
    rw [← h.empty (dropped.symm.trans gone), ← items (dropped.symm.trans gone)]
    split <;> rfl
  · exact h.closed
  · exact h.outEmpty

/-- Every step of a stage keeps the ends of the channels in keeping with the tasks. -/
theorem Move.linked (m : p.Move cancelled size q) (h : p.Linked) : q.Linked := by
  cases m with
  | @feed i lane source found move =>
    refine ⟨fun l hl => ?_, ?_, h.dropped, h.empty, h.closed, h.outEmpty⟩
    · rcases List.mem_or_eq_of_mem_set hl with hl | rfl
      · exact h.lanes l hl
      · exact (h.lanes lane (List.mem_of_getElem? found)).feed move
    · have same : FanIn.isOver (p.merge.lanes.set i { lane with source }) = FanIn.isOver p.merge.lanes :=
        FanIn.isOver_set found rfl
      exact h.merged.trans same.symm
  | forward found move => exact h.forward found move
  | batch move => exact h.batch move

/-- No stage gives up the receiver of the batches. -/
theorem Move.dropped_out (m : p.Move cancelled size q) : q.out.dropped = p.out.dropped := by
  cases m with
  | batch move => cases move <;> rfl
  | _ => rfl

/-- Batches are received, and none is put back. -/
theorem Linked.receive (h : p.Linked) {out : Channel Batch}
    (ends : out.closed = p.out.closed ∧ out.dropped = p.out.dropped)
    (empty : p.out.items = [] → out.items = []) : ({ p with out } : Pipeline).Linked := by
  refine ⟨h.lanes, h.merged, h.dropped, h.empty, ?_, fun gone => empty (h.outEmpty (ends.2.symm.trans gone))⟩
  rw [← h.closed, ← ends.1]

theorem Linked.drop (h : p.Linked) : ({ p with out := p.out.drop } : Pipeline).Linked :=
  ⟨h.lanes, h.merged, h.dropped, h.empty, h.closed, fun _ => rfl⟩

end Pipeline

/-! ## Stages that cannot go on -/

/-- A generator that cannot go on although its queue takes a record has ended. -/
theorem Source.ended_of_stuck {s : Source} (room : s.out.Accepts) (stuck : s.step false = none) :
    s.task.ended = true := by
  by_contra live
  unfold step at stuck
  rw [if_neg live] at stuck
  rcases room with room | room <;> cases hand : s.task.hand <;> cases rest : s.task.rest <;>
    simp [hand, rest, room] at stuck
  all_goals split at stuck <;> cases stuck

/-- A forwarder that cannot go on although its output takes a record has ended, and so has the generator
that sends to it. -/
theorem Lane.ended_of_stuck {l : Lane} {out : Channel Record} (h : l.Linked) (room : out.Accepts)
    (source : l.source.step false = none) (stuck : l.step false out = none) :
    l.forwarder = .ended ∧ l.source.task.ended = true := by
  cases forwarder : l.forwarder with
  | ended => exact ⟨rfl, Source.ended_of_stuck (.inr (h.dropped.2 forwarder)) source⟩
  | holding r =>
    unfold step at stuck
    rcases room with room | room <;> simp [forwarder, room] at stuck
    split at stuck <;> cases stuck
  | waiting =>
    -- its queue is empty and open, so the generator could go on
    simp only [step, forwarder, Bool.false_eq_true, if_false] at stuck
    split at stuck
    · cases stuck
    · cases stuck
    · rename_i nothing
      obtain ⟨items, isOpen⟩ := Channel.nothing_of_receive nothing
      have ended := Source.ended_of_stuck (.inl (Channel.hasRoom_of_empty items)) source
      have closed : l.source.out.closed = true := h.source.trans ended
      exact absurd (closed.symm.trans isOpen) (by simp)

/-- A batcher that cannot go on although its output takes a batch has ended, or it waits for a record. -/
theorem Batching.ended_or_waits_of_stuck {b : Batching} (room : b.out.Accepts)
    (stuck : b.step false size = none) :
    b.task = .ended ∨ (b.input.items = [] ∧ b.input.closed = false) := by
  cases task : b.task with
  | ended => exact .inl rfl
  | starting =>
    simp only [step, task] at stuck
    split at stuck <;> cases stuck
  | offering batch =>
    unfold step at stuck
    rcases room with room | room <;> simp [task, room] at stuck
    split at stuck <;> cases stuck
  | filling buffer =>
    simp only [step, task, Bool.false_eq_true, if_false] at stuck
    split at stuck
    · split at stuck <;> cases stuck
    · split at stuck <;> cases stuck
    · rename_i nothing
      exact .inr (Channel.nothing_of_receive nothing)

namespace Pipeline

variable {p : Pipeline}

/-- Stages in which no task can take a step are over, if there is room for another batch or nobody is
left to take one: whatever a task could wait for would have to come from one that is over. -/
theorem Linked.over_of_stuck (h : p.Linked) (room : p.out.Accepts)
    (stuck : ∀ task, p.step false size task = none) : p.IsOver := by
  have sources : ∀ (i : Nat) (l : Lane), p.merge.lanes[i]? = some l → l.source.step false = none := by
    intro i l found
    have still := stuck (.feed i)
    cases moves : l.source.step false with
    | none => rfl
    | some source => simp [step, FanIn.feed, found, moves] at still
  have forwarders : ∀ (i : Nat) (l : Lane), p.merge.lanes[i]? = some l → l.step false p.merge.out = none := by
    intro i l found
    have still := stuck (.forward i)
    cases moves : l.step false p.merge.out with
    | none => rfl
    | some after => simp [step, FanIn.forward, found, moves] at still
  have batcher : p.batching.step false size = none := by
    have still := stuck .batch
    simpa [step] using still
  have waits := Batching.ended_or_waits_of_stuck room batcher
  have accepts : p.merge.out.Accepts := by
    rcases waits with ended | ⟨items, -⟩
    · exact .inr (h.dropped.2 ended)
    · exact .inl (Channel.hasRoom_of_empty items)
  have lanes : ∀ l ∈ p.merge.lanes, l.forwarder = .ended ∧ l.source.task.ended = true := by
    intro l hl
    obtain ⟨i, found⟩ := List.mem_iff_getElem?.1 hl
    exact Lane.ended_of_stuck (h.lanes l hl) accepts (sources i l found) (forwarders i l found)
  have ended : p.batcher = .ended := by
    rcases waits with ended | ⟨-, isOpen⟩
    · exact ended
    · -- an open queue would have a forwarder that still runs
      have closed : p.merge.out.closed = true :=
        h.merged.trans (FanIn.isOver_iff.2 fun l hl => (lanes l hl).1)
      exact absurd (closed.symm.trans isOpen) (by simp)
  constructor
  · intro l hl
    obtain ⟨gone, sourceEnded⟩ := lanes l hl
    exact ⟨sourceEnded, (h.lanes l hl).empty ((h.lanes l hl).dropped.2 gone)⟩
  · exact fun l hl => (lanes l hl).1
  · exact ended
  · exact h.empty (h.dropped.2 ended)

end Pipeline

end Stage

end Telemetry
