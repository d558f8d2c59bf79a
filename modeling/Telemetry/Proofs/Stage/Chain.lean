/-
The three stages in a row, with everything that can be done to them (`Chain`). Whatever happens to the whole
is something that can happen to its fan-in alone and to its batcher alone: what one stage does at its end of
a channel is what the world around the other one may do (`Chain.merging_of_leadsTo`,
`Chain.grouping_of_leadsTo`). So the signal cuts off each stage of a row as it cuts off the stage alone
(`signal_cuts_off`).
-/
import Telemetry.Proofs.Stage.Silence

namespace Telemetry.Stage

/-- The stages in a row with their history: what was sent on the inputs, what the forwarders have taken and
passed on, what the batcher has taken, the batches it has sent, and those that were received. -/
structure Chain where
  stages : Pipeline
  cancelled : Bool := false
  sent : List (Nat × Record) := []
  read : List (Nat × Record) := []
  merged : List (Nat × Record) := []
  taken : List Record := []
  passed : List Batch := []
  received : List Batch := []
deriving DecidableEq, Repr

namespace Chain

/-- What happens to stages in a row: the signal is set off, a record is sent or an input is closed by hand, a
task takes a step, a batch is received, or the receiver goes. -/
inductive Event where
  | signal
  | send (i : Nat) (r : Record)
  | close (i : Nat)
  | task (t : Pipeline.Task)
  | receive
  | leave
deriving DecidableEq, Repr

/-- The stages for some inputs, of which nothing has been done yet. -/
def ofInputs (inputs : List (Option Snapshot)) : Chain where
  stages := Pipeline.ofSources (inputs.map Source.ofInput)

/-- The fan-in, whose receiver is the batcher. -/
def merging (c : Chain) : Merging := ⟨c.stages.merge, c.cancelled, c.sent, c.read, c.merged, c.taken⟩

/-- The batcher, whose input is what the forwarders have passed on. -/
def grouping (c : Chain) : Grouping :=
  ⟨c.stages.batching, c.cancelled, c.merged.map (·.2), c.taken, c.passed, c.received⟩

/-- The stages when something was done to the inputs or to the forwarders. -/
def withMerging (c : Chain) (w : Merging) : Chain :=
  { c with
    stages := { c.stages with merge := w.stage }
    sent := w.sent
    read := w.taken
    merged := w.merged }

/-- The stages when a task has taken a step. -/
def worked (c : Chain) (stages : Pipeline) : Pipeline.Task → Chain
  | .feed i => c.withMerging (c.merging.fed i stages.merge)
  | .forward i => c.withMerging (c.merging.forwarded i stages.merge)
  | .batch => { c with
      stages
      taken := c.taken ++ c.stages.merge.out.taken stages.merge.out
      passed := c.passed ++ c.stages.out.added stages.out }

/-- The stages after an event; none when it cannot happen. -/
def after? (size : Nat) (c : Chain) : Event → Option Chain
  | .signal => some { c with cancelled := true }
  | .send i r => (c.merging.after? (.send i r)).map c.withMerging
  | .close i => (c.merging.after? (.close i)).map c.withMerging
  | .task t => (c.stages.step c.cancelled size t).map (c.worked · t)
  | .receive => match c.stages.out.receive with
    | (.item b, out) => some { c with stages := { c.stages with out }, received := c.received ++ [b] }
    | _ => none
  | .leave => some { c with stages := { c.stages with out := c.stages.out.drop } }

variable {size : Nat} {inputs : List (Option Snapshot)} {c c' : Chain} {e : Event} {events later : List Event}

/-! ## The fan-in of a row -/

/-- What the batcher does to its input is what a receiver can do. -/
theorem merging_of_batch {b : Batching} (hears : c.stages.batcher ≠ .ended → c.stages.merge.out.dropped = false)
    (move : c.stages.batching.Move c.cancelled size b) :
    ∃ seen, LeadsTo Merging.after? c.merging seen { c.merging with
      stage := { c.stages.merge with out := b.input }
      received := c.taken ++ c.stages.merge.out.taken b.input } := by
  have listens := hears move.runs
  -- some steps of the batcher leave its input alone, and others take one record from it
  have rests : ∀ input : Channel Record, input = c.stages.merge.out →
      ∃ seen, LeadsTo Merging.after? c.merging seen { c.merging with
        stage := { c.stages.merge with out := input }
        received := c.taken ++ c.stages.merge.out.taken input } := by
    rintro _ rfl
    refine ⟨[], LeadsTo.nil_iff.2 ?_⟩
    rw [Channel.taken_of_same rfl, List.append_nil]
    rfl
  have reads : ∀ (r : Record) (rest : List Record), c.stages.merge.out.items = r :: rest →
      ∃ seen, LeadsTo Merging.after? c.merging seen { c.merging with
        stage := { c.stages.merge with out := { c.stages.merge.out with items := rest } }
        received := c.taken ++ c.stages.merge.out.taken { c.stages.merge.out with items := rest } } := by
    intro r rest items
    refine ⟨[.receive], LeadsTo.single ?_⟩
    rw [Channel.taken_rest items listens]
    simp [Merging.after?, merging, Channel.receive, items]
  cases move with
  | finish live why =>
    refine ⟨[.leave], LeadsTo.single (congrArg some ?_)⟩
    rw [show c.stages.merge.out.taken c.stages.batching.finish.input = [] from Channel.taken_drop _, List.append_nil]
    rfl
  | start task => exact rests _ rfl
  | @fill r rest buffer task items short => exact reads r rest items
  | @complete r rest buffer task items full => exact reads r rest items
  | last task nonempty items closed => exact rests _ rfl
  | send task listens => exact rests _ rfl

/-- What happens to stages in a row is something that can happen to their fan-in. -/
theorem merging_of_after (hears : c.stages.batcher ≠ .ended → c.stages.merge.out.dropped = false)
    (step : c.after? size e = some c') : ∃ seen, LeadsTo Merging.after? c.merging seen c'.merging := by
  cases e with
  | signal =>
    cases step
    exact ⟨[.signal], LeadsTo.single rfl⟩
  | send i r =>
    obtain ⟨w, sends, rfl⟩ := Option.map_eq_some_iff.1 step
    refine ⟨[.send i r], LeadsTo.single ?_⟩
    rw [sends]
    simp only [Merging.after?] at sends
    split at sends
    · cases sends
    · obtain ⟨stage, -, rfl⟩ := Option.map_eq_some_iff.1 sends
      rfl
  | close i =>
    obtain ⟨w, closes, rfl⟩ := Option.map_eq_some_iff.1 step
    refine ⟨[.close i], LeadsTo.single ?_⟩
    rw [closes]
    obtain ⟨stage, -, rfl⟩ := Option.map_eq_some_iff.1 closes
    rfl
  | task t =>
    obtain ⟨stages, works, rfl⟩ := Option.map_eq_some_iff.1 step
    cases t with
    | feed i =>
      obtain ⟨merge, feeds, rfl⟩ := Option.map_eq_some_iff.1 works
      exact ⟨[.feed i], LeadsTo.single (Option.map_eq_some_iff.2 ⟨merge, feeds, rfl⟩)⟩
    | forward i =>
      obtain ⟨merge, forwards, rfl⟩ := Option.map_eq_some_iff.1 works
      exact ⟨[.forward i], LeadsTo.single (Option.map_eq_some_iff.2 ⟨merge, forwards, rfl⟩)⟩
    | batch =>
      obtain ⟨b, moves, rfl⟩ := Option.map_eq_some_iff.1 works
      exact merging_of_batch hears (Batching.move_of_step moves)
  | receive =>
    simp only [after?] at step
    split at step <;> cases step
    exact ⟨[], LeadsTo.nil_iff.2 rfl⟩
  | leave =>
    cases step
    exact ⟨[], LeadsTo.nil_iff.2 rfl⟩

/-! ## The batcher of a row -/

/-- The batcher when something was put into its input. -/
def fedBatcher (c : Chain) (input : Channel Record) : Grouping :=
  { c.grouping with
    stage := { c.grouping.stage with input }
    sent := c.grouping.sent ++ c.stages.merge.out.added input }

theorem grouping_forwarded {i : Nat} {merge : FanIn} :
    (c.withMerging (c.merging.forwarded i merge)).grouping = c.fedBatcher merge.out := by
  unfold fedBatcher grouping withMerging Merging.forwarded
  dsimp only
  rw [map_snd_append_tagged]
  rfl

/-- What a forwarder puts into the merged output is what a sender can send. -/
theorem fedBatcher_of_step (isOpen : c.stages.merge.out.closed = false) {l l' : Lane} {out : Channel Record}
    (step : l.step c.cancelled c.stages.merge.out = some (l', out)) :
    out.closed = false ∧ ∃ seen, LeadsTo (Grouping.after? size) c.grouping seen (c.fedBatcher out) := by
  unfold fedBatcher
  rcases Lane.output_of_step step with rfl | ⟨r, room, listens, rfl⟩
  · refine ⟨isOpen, [], LeadsTo.nil_iff.2 ?_⟩
    rw [Channel.added_self, List.append_nil]
    rfl
  · refine ⟨isOpen, [.send r], LeadsTo.single ?_⟩
    rw [Channel.added_push]
    have ends : (c.grouping.stage.input.closed || c.grouping.stage.input.dropped) = false :=
      Bool.or_eq_false_iff.2 ⟨isOpen, listens⟩
    simp only [Grouping.after?, ends]
    rfl

/-- What a forwarder does to the merged output is what a sender can do. -/
theorem grouping_of_forward (h : c.merging.Sound inputs) {i : Nat} {merge : FanIn}
    (forwards : c.stages.merge.forward c.cancelled i = some merge) :
    ∃ seen, LeadsTo (Grouping.after? size) c.grouping seen
      (c.withMerging (c.merging.forwarded i merge)).grouping := by
  obtain ⟨l, found, forwards⟩ := Option.bind_eq_some_iff.1 forwards
  obtain ⟨⟨l', out⟩, step, same⟩ := Option.bind_eq_some_iff.1 forwards
  cases same
  -- a forwarder that takes a step is not over, so the output has not been closed yet
  have isOpen : c.stages.merge.out.closed = false :=
    h.closed.trans (FanIn.isOver_eq_false (List.mem_of_getElem? found) (Lane.move_of_step step).runs)
  obtain ⟨still, seen, sends⟩ : out.closed = false ∧
      ∃ seen, LeadsTo (Grouping.after? size) c.grouping seen (c.fedBatcher out) := fedBatcher_of_step isOpen step
  rw [grouping_forwarded]
  show ∃ seen, LeadsTo _ _ seen (c.fedBatcher (if FanIn.isOver _ then out.close else out))
  split
  · -- the last forwarder takes the output with it
    have closes : (c.fedBatcher out).after? size .close = some (c.fedBatcher out.close) := by
      have still : (c.fedBatcher out).stage.input.closed = false := still
      simp only [Grouping.after?, still]
      rfl
    exact ⟨seen ++ [.close], sends.trans (LeadsTo.single closes)⟩
  · exact ⟨seen, sends⟩

/-- What happens to stages in a row is something that can happen to their batcher. -/
theorem grouping_of_after (h : c.merging.Sound inputs) (step : c.after? size e = some c') :
    ∃ seen, LeadsTo (Grouping.after? size) c.grouping seen c'.grouping := by
  -- the batcher does not see what is done to the inputs of the fan-in
  have rests : ∀ w : Merging, w.merged = c.merged → w.stage.out = c.stages.merge.out →
      ∃ seen, LeadsTo (Grouping.after? size) c.grouping seen (c.withMerging w).grouping := by
    intro w merged out
    refine ⟨[], LeadsTo.nil_iff.2 ?_⟩
    unfold grouping withMerging Pipeline.batching
    rw [merged, out]
  cases e with
  | signal =>
    cases step
    exact ⟨[.signal], LeadsTo.single rfl⟩
  | send i r =>
    obtain ⟨w, sends, rfl⟩ := Option.map_eq_some_iff.1 step
    simp only [Merging.after?] at sends
    split at sends
    · cases sends
    · obtain ⟨stage, changed, rfl⟩ := Option.map_eq_some_iff.1 sends
      obtain ⟨l, -, -, -, rfl⟩ := FanIn.lane_of_change? changed
      exact rests _ rfl rfl
  | close i =>
    obtain ⟨w, closes, rfl⟩ := Option.map_eq_some_iff.1 step
    obtain ⟨stage, changed, rfl⟩ := Option.map_eq_some_iff.1 closes
    obtain ⟨l, -, -, -, rfl⟩ := FanIn.lane_of_change? changed
    exact rests _ rfl rfl
  | task t =>
    obtain ⟨stages, works, rfl⟩ := Option.map_eq_some_iff.1 step
    cases t with
    | feed i =>
      obtain ⟨merge, feeds, rfl⟩ := Option.map_eq_some_iff.1 works
      obtain ⟨l, found, feeds⟩ := Option.bind_eq_some_iff.1 feeds
      obtain ⟨source, moves, same⟩ := Option.bind_eq_some_iff.1 feeds
      cases same
      exact rests _ rfl rfl
    | forward i =>
      obtain ⟨merge, forwards, rfl⟩ := Option.map_eq_some_iff.1 works
      exact grouping_of_forward h forwards
    | batch =>
      obtain ⟨b, moves, rfl⟩ := Option.map_eq_some_iff.1 works
      exact ⟨[.work], LeadsTo.single (Option.map_eq_some_iff.2 ⟨b, moves, rfl⟩)⟩
  | receive =>
    simp only [after?] at step
    split at step
    · rename_i b out got
      cases step
      refine ⟨[.receive], LeadsTo.single ?_⟩
      have got : c.grouping.stage.out.receive = (.item b, out) := got
      simp only [Grouping.after?, got]
      rfl
    · cases step
  | leave =>
    cases step
    exact ⟨[.leave], LeadsTo.single rfl⟩

/-! ## Whole runs -/

/-- Stages in a row of which the fan-in and the batcher are sound on their own. -/
structure Sound (inputs : List (Option Snapshot)) (size : Nat) (c : Chain) : Prop where
  merging : c.merging.Sound inputs
  grouping : c.grouping.Sound size

/-- Without any input the merged output is closed from the beginning. -/
theorem grouping_ofInputs (inputs : List (Option Snapshot)) (size : Nat) :
    ∃ seen, LeadsTo (Grouping.after? size) Grouping.initial seen (ofInputs inputs).grouping := by
  cases inputs with
  | nil => exact ⟨[.close], LeadsTo.single rfl⟩
  | cons input inputs => exact ⟨[], LeadsTo.nil_iff.2 rfl⟩

theorem sound_ofInputs (inputs : List (Option Snapshot)) (size : Nat) : (ofInputs inputs).Sound inputs size := by
  obtain ⟨seen, starts⟩ := grouping_ofInputs inputs size
  exact ⟨Merging.sound_ofInputs inputs, Grouping.sound_of_leadsTo starts⟩

theorem Sound.hears (h : c.Sound inputs size) (live : c.stages.batcher ≠ .ended) :
    c.stages.merge.out.dropped = false := by
  rw [← Bool.not_eq_true]
  exact fun gone => live (h.grouping.account.dropped.1 gone)

theorem Sound.after (h : c.Sound inputs size) (step : c.after? size e = some c') : c'.Sound inputs size := by
  obtain ⟨seen, merges⟩ := merging_of_after h.hears step
  obtain ⟨seen', groups⟩ := grouping_of_after h.merging step
  exact ⟨merges.keeps (Merging.Sound inputs) (fun _ _ _ sound step => sound.change (Merging.change_of_after step)) h.merging,
    groups.keeps (Grouping.Sound size) (fun _ _ _ sound step => sound.change (Grouping.change_of_after step)) h.grouping⟩

theorem sound_of_leadsTo (run : LeadsTo (after? size) (ofInputs inputs) events c) : c.Sound inputs size :=
  run.keeps (Sound inputs size) (fun _ _ _ sound step => sound.after step) (sound_ofInputs inputs size)

/-- A run of stages in a row is a run of their fan-in. -/
theorem merging_of_leadsTo (h : c.Sound inputs size) (run : LeadsTo (after? size) c events c') :
    ∃ seen, LeadsTo Merging.after? c.merging seen c'.merging :=
  run.maps merging (Sound inputs size)
    (fun _ _ _ sound step => ⟨sound.after step, merging_of_after sound.hears step⟩) h

/-- A run of stages in a row is a run of their batcher. -/
theorem grouping_of_leadsTo (h : c.Sound inputs size) (run : LeadsTo (after? size) c events c') :
    ∃ seen, LeadsTo (Grouping.after? size) c.grouping seen c'.grouping :=
  run.maps grouping (Sound inputs size)
    (fun _ _ _ sound step => ⟨sound.after step, grouping_of_after sound.merging step⟩) h

/-- The signal comes to each of the stages in a row. -/
theorem cutOff_of_leadsTo (run : LeadsTo (after? size) (ofInputs inputs) events c)
    (goesOn : LeadsTo (after? size) c (.signal :: later) c') :
    c.merging.CutOff inputs c'.merging ∧ c.grouping.CutOff size c'.grouping := by
  have sound := sound_of_leadsTo run
  obtain ⟨v, signal, goesOn⟩ := LeadsTo.cons_iff.1 goesOn
  have signalled := sound.after signal
  cases signal
  obtain ⟨seen, merges⟩ := merging_of_leadsTo (sound_ofInputs inputs size) run
  obtain ⟨rest, stillMerges⟩ := merging_of_leadsTo signalled goesOn
  obtain ⟨rest', stillGroups⟩ := grouping_of_leadsTo signalled goesOn
  -- one signal stops all tasks: both stages get it at once
  have merging : c.merging.after? .signal = some (Chain.merging { c with cancelled := true }) := rfl
  have grouping : c.grouping.after? size .signal = some (Chain.grouping { c with cancelled := true }) := rfl
  exact ⟨Merging.cutOff_of_leadsTo merges (LeadsTo.cons_iff.2 ⟨_, merging, stillMerges⟩),
    sound.grouping.cutOff (LeadsTo.cons_iff.2 ⟨_, grouping, stillGroups⟩)⟩

end Chain

/-- Whenever the signal comes, and whatever is done to the stages before and after that: a generator, a
fan-in and a batcher, each alone or one behind the other, put nothing into their outputs and read nothing
from their inputs any more, and the next step of each of their tasks is its last one. What can still be
received of an output is what it held, and then its end. The output of a generator is the beginning of its
snapshot, that of a fan-in has for each input the beginning of what was sent on it, and that of a batcher is
the beginning of its input, cut into batches, with a smaller one only if the input had ended and all of it
had been taken when the signal came. -/
theorem signal_cuts_off (size : Nat) :
    (∀ (snapshot : Snapshot) (events later : List Generating.Event) (w w' : Generating),
      LeadsTo Generating.after? (Generating.ofSnapshot snapshot) events w →
        LeadsTo Generating.after? w (.signal :: later) w' → w.CutOff snapshot w') ∧
    (∀ (inputs : List (Option Snapshot)) (events later : List Merging.Event) (w w' : Merging),
      LeadsTo Merging.after? (Merging.ofInputs inputs) events w →
        LeadsTo Merging.after? w (.signal :: later) w' → w.CutOff inputs w') ∧
    (∀ (events later : List Grouping.Event) (w w' : Grouping),
      LeadsTo (Grouping.after? size) Grouping.initial events w →
        LeadsTo (Grouping.after? size) w (.signal :: later) w' → w.CutOff size w') ∧
    ∀ (inputs : List (Option Snapshot)) (events later : List Chain.Event) (c c' : Chain),
      LeadsTo (Chain.after? size) (Chain.ofInputs inputs) events c →
        LeadsTo (Chain.after? size) c (.signal :: later) c' →
          c.merging.CutOff inputs c'.merging ∧ c.grouping.CutOff size c'.grouping := by
  refine ⟨fun snapshot events later w w' run goesOn => ?_, fun inputs events later w w' run goesOn => ?_,
    fun events later w w' run goesOn => ?_, fun inputs events later c c' run goesOn => ?_⟩
  · exact (Generating.sound_of_leadsTo run).cutOff goesOn
  · exact Merging.cutOff_of_leadsTo run goesOn
  · exact (Grouping.sound_of_leadsTo run).cutOff goesOn
  · exact Chain.cutOff_of_leadsTo run goesOn

/-- A generator that has sent one of two records; a forwarder that has a record in its hand; a batcher that
would send a smaller batch next, since its input is closed; and stages in a row with one batch that waits and
a record for the next one. Only the record that was sent and the batch that waits come out. -/
theorem signal_cuts_off_midway :
    (∃ (events later : List Generating.Event) (w w' : Generating),
      LeadsTo Generating.after? (Generating.ofSnapshot [Record.counter "a" 1, Record.counter "b" 2]) events w ∧
        LeadsTo Generating.after? w (.signal :: later) w' ∧
        (w'.received = [Record.counter "a" 1] ∧ w'.stage.out.receive.1 = .finished) ∧
        w.CutOff [Record.counter "a" 1, Record.counter "b" 2] w') ∧
    (∃ (events later : List Merging.Event) (w w' : Merging),
      LeadsTo Merging.after? (Merging.ofInputs [none]) events w ∧
        LeadsTo Merging.after? w (.signal :: later) w' ∧
        (w.taken = [(0, Record.counter "a" 1)] ∧ w'.received = [] ∧ w'.stage.out.receive.1 = .finished) ∧
        w.CutOff [none] w') ∧
    (∃ (events later : List Grouping.Event) (w w' : Grouping),
      LeadsTo (Grouping.after? 2) Grouping.initial events w ∧
        LeadsTo (Grouping.after? 2) w (.signal :: later) w' ∧
        (w.stage.task = .filling [Record.counter "a" 1] ∧ w.stage.input.closed = true ∧ w'.received = [] ∧
          w'.stage.out.receive.1 = .finished) ∧ w.CutOff 2 w') ∧
    ∃ (events later : List Chain.Event) (c c' : Chain),
      LeadsTo (Chain.after? 2) (Chain.ofInputs [none, some [Record.counter "b" 2]]) events c ∧
        LeadsTo (Chain.after? 2) c (.signal :: later) c' ∧
        (c.stages.batcher = .filling [Record.counter "c" 3] ∧
          c'.received = [[Record.counter "a" 1, Record.counter "b" 2]] ∧ c'.stages.merge.out.closed = true ∧
          c'.stages.out.receive.1 = .finished) ∧
        c.merging.CutOff [none, some [Record.counter "b" 2]] c'.merging ∧ c.grouping.CutOff 2 c'.grouping := by
  obtain ⟨generating, merging, grouping, chain⟩ := signal_cuts_off 2
  refine ⟨?_, ?_, ?_, ?_⟩
  · obtain ⟨w, w', run, goesOn, facts⟩ := LeadsTo.exists_of_any_later Generating.after?
      (Generating.ofSnapshot [Record.counter "a" 1, Record.counter "b" 2]) [.work, .work] [.signal, .work, .receive]
      (fun _ w' => decide (w'.received = [Record.counter "a" 1] ∧ w'.stage.out.receive.1 = .finished))
      (by decide +kernel)
    exact ⟨_, _, w, w', run, goesOn, of_decide_eq_true facts, generating _ _ _ w w' run goesOn⟩
  · obtain ⟨w, w', run, goesOn, facts⟩ := LeadsTo.exists_of_any_later Merging.after? (Merging.ofInputs [none])
      [.send 0 (Record.counter "a" 1), .forward 0] [.signal, .forward 0]
      (fun w w' => decide (w.taken = [(0, Record.counter "a" 1)] ∧ w'.received = [] ∧
        w'.stage.out.receive.1 = .finished))
      (by decide +kernel)
    exact ⟨_, _, w, w', run, goesOn, of_decide_eq_true facts, merging _ _ _ w w' run goesOn⟩
  · obtain ⟨w, w', run, goesOn, facts⟩ := LeadsTo.exists_of_any_later (Grouping.after? 2) Grouping.initial
      [.work, .send (Record.counter "a" 1), .work, .close] [.signal, .work]
      (fun w w' => decide (w.stage.task = .filling [Record.counter "a" 1] ∧ w.stage.input.closed = true ∧
        w'.received = [] ∧ w'.stage.out.receive.1 = .finished))
      (by decide +kernel)
    exact ⟨_, _, w, w', run, goesOn, of_decide_eq_true facts, grouping _ _ w w' run goesOn⟩
  · let events : List Chain.Event :=
      [.task .batch, .send 0 (Record.counter "a" 1), .task (.feed 1), .task (.feed 1), .task (.forward 0),
        .task (.forward 0), .task .batch, .task (.forward 1), .task (.forward 1), .task .batch, .task .batch,
        .send 0 (Record.counter "c" 3), .task (.forward 0), .task (.forward 0), .task .batch,
        .send 0 (Record.counter "d" 4)]
    obtain ⟨c, c', run, goesOn, facts⟩ := LeadsTo.exists_of_any_later (Chain.after? 2)
      (Chain.ofInputs [none, some [Record.counter "b" 2]]) events
      [.signal, .task (.forward 0), .task (.forward 1), .task .batch, .task (.feed 1), .receive]
      (fun c c' => decide (c.stages.batcher = .filling [Record.counter "c" 3] ∧
        c'.received = [[Record.counter "a" 1, Record.counter "b" 2]] ∧ c'.stages.merge.out.closed = true ∧
        c'.stages.out.receive.1 = .finished))
      (by decide +kernel)
    exact ⟨events, _, c, c', run, goesOn, of_decide_eq_true facts, chain _ _ _ c c' run goesOn⟩

end Telemetry.Stage
