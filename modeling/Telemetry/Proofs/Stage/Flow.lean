/-
Nothing is lost in the stages while no signal comes. What is on its way through a pipeline, from the
generators' hands to the batches that wait for a worker, is the same before and after every step, up to
the order in which the forwarders bring it (`Pipeline.Move.left`).

A task of a stage ends only when everything before it has ended and nothing is left between them; that
is `Sound`, and it is why no task that ends takes a record with it.
-/
import Telemetry.Proofs.Around
import Telemetry.Proofs.Stage.Move

namespace Telemetry.Stage

/-! ## What is on its way -/

/-- The records that a source still has to hand over. -/
def Source.left (s : Source) : List Record := s.out.items ++ (s.task.hand.toList ++ s.task.rest)

/-- The record in a forwarder's hand. -/
def Forwarder.hand? : Forwarder → Option Record
  | holding r => some r
  | _ => none

/-- The records of an input that have not come out behind its forwarder. -/
def Lane.left (l : Lane) : List Record := l.forwarder.hand?.toList ++ l.source.left

/-- The records that a batcher puts together. -/
def Batcher.buffer : Batcher → Batch
  | filling buffer => buffer
  | _ => []

/-- The batch that a batcher wants to send. -/
def Batcher.offer? : Batcher → Option Batch
  | offering batch => some batch
  | _ => none

/-- The records in a batcher's hand. -/
def Batcher.hand (t : Batcher) : List Record := t.offer?.getD t.buffer

/-- The records between the generators and the workers. -/
def Pipeline.left (p : Pipeline) : List Record :=
  p.out.items.flatten ++ (p.batcher.hand ++ (p.merge.out.items ++ p.merge.lanes.flatMap Lane.left))

/-! ## Tasks end in their order -/

/-- A generator has ended when it has handed all its records over, and then nobody can send. -/
structure Source.Sound (s : Source) : Prop where
  closed : s.out.closed = s.task.ended
  done : s.task.ended = true → s.task.hand = none ∧ s.task.rest = []

/-- A forwarder goes before its input is at its end only if it never goes. -/
structure Lane.Sound (l : Lane) : Prop where
  source : l.source.Sound
  dropped : l.source.out.dropped = true → l.forwarder = .ended
  done : l.forwarder = .ended → l.source.task.ended = true ∧ l.source.out.items = []

/-- The merged output ends with the last forwarder, and the batcher behind it goes last. -/
structure Pipeline.Sound (p : Pipeline) : Prop where
  lanes : ∀ l ∈ p.merge.lanes, l.Sound
  closed : p.merge.out.closed = FanIn.isOver p.merge.lanes
  dropped : p.merge.out.dropped = true → p.batcher = .ended
  done : p.batcher = .ended → p.merge.out.closed = true ∧ p.merge.out.items = []
  outClosed : p.out.closed = true ↔ p.batcher = .ended
  outDropped : p.out.dropped = true → p.batcher = .ended

/-! ## One source, one lane -/

namespace Source

/-- A source that holds its whole snapshot, and has somebody who listens. -/
structure IsWhole (s : Source) : Prop where
  sound : s.Sound
  listens : s.out.dropped = false
  left : s.left = s.snapshot

theorem isWhole_ofSnapshot (s : Snapshot) : (ofSnapshot s).IsWhole where
  sound := ⟨rfl, fun h => nomatch h⟩
  listens := rfl
  left := rfl

variable {s t : Source}

/-- A step of a generator whose receiver listens loses nothing. -/
theorem Move.keeps (h : s.Move false t) (sound : s.Sound) (listens : s.out.dropped = false) :
    t.Sound ∧ t.out.dropped = false ∧ t.left = s.left := by
  cases h with
  | finish live why =>
    rcases why with ⟨hand, rest⟩ | signal | gone
    · refine ⟨⟨rfl, fun _ => ⟨rfl, rfl⟩⟩, listens, ?_⟩
      unfold left
      rw [hand, rest]
      rfl
    · cases signal
    · rw [listens] at gone
      cases gone
  | take live hand next =>
    refine ⟨⟨sound.closed, fun ended => ?_⟩, listens, ?_⟩
    · rw [show s.task.ended = true from ended] at live
      cases live
    · unfold left
      rw [hand, next]
      rfl
  | send live hand hears =>
    refine ⟨⟨sound.closed, fun ended => ?_⟩, listens, ?_⟩
    · rw [show s.task.ended = true from ended] at live
      cases live
    · show (s.out.items ++ [_]) ++ ([] ++ s.task.rest) = s.left
      unfold left
      rw [hand, List.append_assoc]
      rfl

theorem IsWhole.move (h : s.IsWhole) (move : s.Move false t) : t.IsWhole := by
  obtain ⟨sound, listens, left⟩ := move.keeps h.sound h.listens
  refine ⟨sound, listens, ?_⟩
  rw [left, h.left]
  cases move <;> rfl

end Source

namespace Lane

variable {l l' : Lane} {out out' : Channel Record}

/-- A lane whose forwarder has ended holds nothing. -/
theorem left_of_ended (h : l.Sound) (ended : l.forwarder = .ended) : l.left = [] := by
  obtain ⟨sourceEnded, items⟩ := h.done ended
  obtain ⟨hand, rest⟩ := h.source.done sourceEnded
  unfold left Source.left
  rw [ended, items, hand, rest]
  rfl

/-- A step of the generator at the input of a lane. -/
theorem feed (h : l.Sound) {source : Source} (move : l.source.Move false source) :
    l.forwarder ≠ .ended ∧ ({ l with source } : Lane).Sound ∧ ({ l with source } : Lane).left = l.left := by
  -- a generator that takes a step is not over, so the forwarder has not seen its end
  have runs : l.forwarder ≠ .ended := by
    intro ended
    have stopped := (h.done ended).1
    cases move with
    | finish live why => rw [live] at stopped; cases stopped
    | take live hand next => rw [live] at stopped; cases stopped
    | send live hand hears => rw [live] at stopped; cases stopped
  have listens : l.source.out.dropped = false := by
    cases gone : l.source.out.dropped with
    | false => rfl
    | true => exact absurd (h.dropped gone) runs
  obtain ⟨sound, hears, left⟩ := move.keeps h.source listens
  refine ⟨runs, ⟨sound, fun gone => ?_, fun ended => absurd ended runs⟩, ?_⟩
  · rw [show source.out.dropped = true from gone] at hears
    cases hears
  · exact congrArg (l.forwarder.hand?.toList ++ ·) left

/-- A forwarder that takes a step has not ended. -/
theorem Move.runs {cancelled : Bool} (m : l.Move cancelled out l' out') : l.forwarder ≠ .ended := by
  cases m with
  | finish live why => exact live
  | receive waits items => rw [waits]; exact Forwarder.noConfusion
  | send holds hears => rw [holds]; exact Forwarder.noConfusion

/-- A step of a forwarder passes a record on or keeps it. -/
theorem Move.keeps (m : l.Move false out l' out') (h : l.Sound) (listens : out.dropped = false) :
    l'.Sound ∧ (out'.closed = out.closed ∧ out'.dropped = out.dropped) ∧
      out'.items ++ l'.left = out.items ++ l.left := by
  have runs := m.runs
  cases m with
  | finish live why =>
    rcases why with ⟨waits, items, closed⟩ | signal | gone
    · -- the queue is closed and empty: the generator is over and holds nothing any more
      have ended : l.source.task.ended = true := by rw [← h.source.closed]; exact closed
      have finished : l.finish.Sound :=
        ⟨⟨h.source.closed, h.source.done⟩, fun _ => rfl, fun _ => ⟨ended, rfl⟩⟩
      refine ⟨finished, ⟨rfl, rfl⟩, ?_⟩
      rw [left_of_ended finished rfl]
      obtain ⟨hand, rest⟩ := h.source.done ended
      unfold left Source.left
      rw [waits, items, hand, rest]
      rfl
    · cases signal
    · rw [listens] at gone
      cases gone
  | receive waits items =>
    refine ⟨⟨⟨h.source.closed, h.source.done⟩, fun gone => absurd (h.dropped gone) runs,
      fun ended => nomatch ended⟩, ⟨rfl, rfl⟩, ?_⟩
    unfold left Source.left
    rw [waits, items]
    rfl
  | send holds hears =>
    refine ⟨⟨h.source, fun gone => absurd (h.dropped gone) runs, fun ended => nomatch ended⟩,
      ⟨rfl, rfl⟩, ?_⟩
    show (out.items ++ [_]) ++ ([] ++ l.source.left) = out.items ++ l.left
    unfold left
    rw [holds, List.append_assoc]
    rfl

end Lane

/-! ## The stages together -/

/-- The merged output is at its end with the last forwarder, so not before one that still runs. -/
theorem FanIn.isOver_eq_false {lanes : List Lane} {l : Lane} (mem : l ∈ lanes) (runs : l.forwarder ≠ .ended) :
    isOver lanes = false :=
  List.all_eq_false.2 ⟨l, mem, fun h => runs (eq_of_beq h)⟩

namespace Pipeline

theorem sound_ofSources {sources : List Source} (h : ∀ s ∈ sources, s.IsWhole) :
    (ofSources sources).Sound := by
  have starts : (ofSources sources).batcher ≠ .ended := Batcher.noConfusion
  refine ⟨fun l hl => ?_, ?_, fun gone => ?_, fun ended => absurd ended starts,
    ⟨fun closed => ?_, fun ended => absurd ended starts⟩, fun gone => ?_⟩
  · obtain ⟨s, hs, rfl⟩ := List.mem_map.1 hl
    have waits : ({ source := s } : Lane).forwarder ≠ .ended := Forwarder.noConfusion
    refine ⟨(h s hs).sound, fun gone => ?_, fun ended => absurd ended waits⟩
    rw [(h s hs).listens] at gone
    cases gone
  · cases sources <;> rfl
  · cases gone
  · cases closed
  · cases gone

/-- Stages that are started with whole sources have all records before them. -/
theorem left_ofSources {sources : List Source} (h : ∀ s ∈ sources, s.IsWhole) :
    (ofSources sources).left = (sources.map (·.snapshot)).flatten := by
  show (sources.map fun s => ({ source := s } : Lane)).flatMap Lane.left = _
  rw [List.flatMap_map, ← List.flatMap_def]
  refine List.flatMap_congr fun s hs => ?_
  exact (h s hs).left

variable {p q : Pipeline} {size : Nat}

/-- A generator takes a step. -/
theorem feed (h : p.Sound) {i : Nat} {lane : Lane} {source : Source} (found : p.merge.lanes[i]? = some lane)
    (move : lane.source.Move false source) :
    let q : Pipeline :=
      { p with merge := { p.merge with lanes := p.merge.lanes.set i { lane with source } } }
    q.Sound ∧ q.left.Perm p.left := by
  intro q
  obtain ⟨l₁, l₂, hl, rfl, set⟩ := split_at_getElem? found
  obtain ⟨runs, sound, left⟩ := Lane.feed (h.lanes _ (List.mem_of_getElem? found)) move
  have lanes : q.merge.lanes = l₁ ++ { lane with source } :: l₂ := set _
  refine ⟨⟨fun l hm => ?_, ?_, h.dropped, h.done, h.outClosed, h.outDropped⟩, ?_⟩
  · rcases List.mem_or_eq_of_mem_set hm with hm | rfl
    · exact h.lanes l hm
    · exact sound
  · show p.merge.out.closed = FanIn.isOver q.merge.lanes
    rw [h.closed, FanIn.isOver_eq_false (List.mem_of_getElem? found) runs,
      FanIn.isOver_eq_false (l := { lane with source }) (by rw [lanes]; simp) runs]
  · have same : q.merge.lanes.flatMap Lane.left = p.merge.lanes.flatMap Lane.left := by
      rw [lanes, hl, List.flatMap_append, List.flatMap_append, List.flatMap_cons, List.flatMap_cons, left]
    show (p.out.items.flatten ++ (p.batcher.hand ++ (p.merge.out.items ++ q.merge.lanes.flatMap Lane.left))).Perm _
    rw [same]
    exact .refl _

theorem Sound.open_of_forward (h : p.Sound) {cancelled : Bool} {i : Nat} {lane lane' : Lane}
    {out : Channel Record} (found : p.merge.lanes[i]? = some lane)
    (move : lane.Move cancelled p.merge.out lane' out) : p.merge.out.closed = false :=
  h.closed.trans (FanIn.isOver_eq_false (List.mem_of_getElem? found) move.runs)

/-- A forwarder takes a step. -/
theorem forward (h : p.Sound) {i : Nat} {lane lane' : Lane} {out : Channel Record}
    (found : p.merge.lanes[i]? = some lane) (move : lane.Move false p.merge.out lane' out) :
    let q : Pipeline := { p with merge := {
      lanes := p.merge.lanes.set i lane'
      out := if FanIn.isOver (p.merge.lanes.set i lane') then out.close else out } }
    q.Sound ∧ q.left.Perm p.left := by
  intro q
  obtain ⟨l₁, l₂, hl, rfl, set⟩ := split_at_getElem? found
  have here := h.lanes _ (List.mem_of_getElem? found)
  -- the output of a forwarder that takes a step is open, so the batcher behind it has not ended
  have isOpen := h.open_of_forward found move
  have batches : p.batcher ≠ .ended := by
    intro ended
    rw [(h.done ended).1] at isOpen
    cases isOpen
  have listens : p.merge.out.dropped = false := by
    cases gone : p.merge.out.dropped with
    | false => rfl
    | true => exact absurd (h.dropped gone) batches
  obtain ⟨sound, ⟨closed, dropped⟩, items⟩ := move.keeps here listens
  have lanes : q.merge.lanes = l₁ ++ lane' :: l₂ := set _
  have sameItems : q.merge.out.items = out.items := by
    show (if FanIn.isOver _ then out.close else out : Channel Record).items = _
    split <;> rfl
  refine ⟨⟨fun l hm => ?_, ?_, fun gone => ?_, fun ended => absurd ended batches, h.outClosed,
    h.outDropped⟩, ?_⟩
  · rcases List.mem_or_eq_of_mem_set hm with hm | rfl
    · exact h.lanes l hm
    · exact sound
  · show (if FanIn.isOver q.merge.lanes then out.close else out : Channel Record).closed =
      FanIn.isOver q.merge.lanes
    cases FanIn.isOver q.merge.lanes with
    | true => rfl
    | false => exact closed.trans isOpen
  · have same : q.merge.out.dropped = out.dropped := by
      show (if FanIn.isOver _ then out.close else out : Channel Record).dropped = _
      split <;> rfl
    rw [same, dropped, listens] at gone
    cases gone
  · show (p.out.items.flatten ++ (p.batcher.hand ++ (q.merge.out.items ++ q.merge.lanes.flatMap Lane.left))).Perm
      (p.out.items.flatten ++ (p.batcher.hand ++ (p.merge.out.items ++ p.merge.lanes.flatMap Lane.left)))
    refine .append_left _ (.append_left _ ?_)
    rw [sameItems, lanes, hl, List.flatMap_append, List.flatMap_append, List.flatMap_cons, List.flatMap_cons]
    -- the lane and the output next to it hold the same records in the same order
    have around : ∀ a x b y : List Record, (a ++ (x ++ (b ++ y))).Perm (x ++ ((a ++ b) ++ y)) := by
      intro a x b y
      rw [List.append_assoc a b y]
      exact List.perm_append_comm_assoc a x (b ++ y)
    refine (around _ _ _ _).trans ?_
    rw [items]
    exact (around _ _ _ _).symm

/-- A batcher that goes on working keeps its ends as they are. -/
theorem Sound.working (h : p.Sound) (live : p.batcher ≠ .ended) {task : Batcher} (works : task ≠ .ended)
    {input : Channel Record} {out : Channel Batch}
    (inputEnds : input.closed = p.merge.out.closed ∧ input.dropped = p.merge.out.dropped)
    (outEnds : out.closed = p.out.closed ∧ out.dropped = p.out.dropped) :
    ({ merge := { p.merge with out := input }, batcher := task, out } : Pipeline).Sound where
  lanes := h.lanes
  closed := inputEnds.1.trans h.closed
  dropped gone := absurd (h.dropped (inputEnds.2.symm.trans gone)) live
  done ended := absurd ended works
  outClosed := by
    constructor
    · intro closed
      exact absurd (h.outClosed.1 (outEnds.1.symm.trans closed)) live
    · intro ended
      exact absurd ended works
  outDropped gone := absurd (h.outDropped (outEnds.2.symm.trans gone)) live

/-- The batcher takes a step. -/
theorem batch (h : p.Sound) (fits : Batcher.fits size = true) {b : Batching}
    (move : p.batching.Move false size b) :
    let q : Pipeline := { merge := { p.merge with out := b.input }, batcher := b.task, out := b.out }
    q.Sound ∧ q.left = p.left := by
  intro q
  have live : ∀ {task : Batcher}, p.batcher = task → task ≠ .ended → p.batcher ≠ .ended := by
    intro task here other ended
    exact other (here.symm.trans ended)
  cases move with
  | finish runs why =>
    rcases why with ⟨task, items, closed⟩ | signal | large | gone
    · refine ⟨⟨h.lanes, h.closed, fun _ => rfl, fun _ => ⟨closed, rfl⟩, ⟨fun _ => rfl, fun _ => rfl⟩,
        fun _ => rfl⟩, ?_⟩
      show p.out.items.flatten ++ ([] ++ ([] ++ p.merge.lanes.flatMap Lane.left)) = p.left
      unfold left
      rw [show p.batcher = .filling [] from task, show p.merge.out.items = [] from items]
      rfl
    · cases signal
    · rw [fits] at large
      cases large
    · exact absurd (h.outDropped gone) runs
  | start task =>
    refine ⟨h.working (live task Batcher.noConfusion) Batcher.noConfusion ⟨rfl, rfl⟩ ⟨rfl, rfl⟩, ?_⟩
    unfold left
    rw [show p.batcher = .starting from task]
    rfl
  | fill task items short =>
    refine ⟨h.working (live task Batcher.noConfusion) Batcher.noConfusion ⟨rfl, rfl⟩ ⟨rfl, rfl⟩, ?_⟩
    show p.out.items.flatten ++ ((_ ++ [_]) ++ (_ ++ p.merge.lanes.flatMap Lane.left)) = p.left
    unfold left
    rw [show p.batcher = .filling _ from task, show p.merge.out.items = _ :: _ from items, List.append_assoc]
    rfl
  | complete task items full =>
    refine ⟨h.working (live task Batcher.noConfusion) Batcher.noConfusion ⟨rfl, rfl⟩ ⟨rfl, rfl⟩, ?_⟩
    show p.out.items.flatten ++ ((_ ++ [_]) ++ (_ ++ p.merge.lanes.flatMap Lane.left)) = p.left
    unfold left
    rw [show p.batcher = .filling _ from task, show p.merge.out.items = _ :: _ from items, List.append_assoc]
    rfl
  | last task nonempty items closed =>
    refine ⟨h.working (live task Batcher.noConfusion) Batcher.noConfusion ⟨rfl, rfl⟩ ⟨rfl, rfl⟩, ?_⟩
    unfold left
    rw [show p.batcher = .filling _ from task]
    rfl
  | send task listens =>
    refine ⟨h.working (live task Batcher.noConfusion) Batcher.noConfusion ⟨rfl, rfl⟩ ⟨rfl, rfl⟩, ?_⟩
    show (p.out.items ++ [_]).flatten ++ ([] ++ (p.merge.out.items ++ p.merge.lanes.flatMap Lane.left)) = p.left
    unfold left
    rw [show p.batcher = .offering _ from task, List.flatten_append, List.append_assoc]
    simp [Batcher.hand, Batcher.offer?]

/-- A batch is received of a pipeline. -/
theorem Sound.receive (h : p.Sound) (items : List Batch) :
    ({ p with out := { p.out with items } } : Pipeline).Sound :=
  ⟨h.lanes, h.closed, h.dropped, h.done, h.outClosed, h.outDropped⟩

theorem left_receive {b : Batch} {rest : List Batch} (items : p.out.items = b :: rest) :
    p.left = b ++ ({ p with out := { p.out with items := rest } } : Pipeline).left := by
  show p.out.items.flatten ++ _ = b ++ (rest.flatten ++ _)
  rw [items, List.flatten_cons, List.append_assoc]

/-- Nothing is sent behind the end of the batches. -/
theorem Move.out_of_closed {cancelled : Bool} (m : p.Move cancelled size q) (h : p.Sound)
    (closed : p.out.closed = true) : q.out = p.out := by
  have ended := h.outClosed.1 closed
  cases m with
  | feed found move => rfl
  | forward found move => rfl
  | batch move =>
    cases move with
    | finish live why => exact absurd ended live
    | start task => cases task.symm.trans ended
    | fill task items short => cases task.symm.trans ended
    | complete task items full => cases task.symm.trans ended
    | last task nonempty items closed => cases task.symm.trans ended
    | send task listens => cases task.symm.trans ended

/-- Every step of a stage keeps the records that are on their way. -/
theorem Move.left (m : p.Move false size q) (h : p.Sound) (fits : Batcher.fits size = true) :
    q.Sound ∧ q.left.Perm p.left := by
  cases m with
  | feed found move => exact Pipeline.feed h found move
  | forward found move => exact Pipeline.forward h found move
  | batch move =>
    obtain ⟨sound, left⟩ := Pipeline.batch h fits move
    exact ⟨sound, .of_eq left⟩

end Pipeline

end Telemetry.Stage
