/-
One stage on its own, fed and emptied by hand. Inputs that are fed by hand never fill up.
-/
import Telemetry.Rehearsal.Line

namespace Telemetry.Rehearsal

open Stage

/-- What comes out of a stage. -/
inductive Item where
  | record (r : Record)
  | batch (b : Batch)
deriving DecidableEq, Repr

/-- A stage with its ends. -/
inductive Bench where
  | generator (s : Source)
  | fanIn (m : Merger)
  | batching (size : Nat) (b : Batching)
deriving DecidableEq, Repr

namespace Bench

/-- An input without a task that feeds it. -/
def handFed : Source where
  snapshot := []
  task := { rest := [], ended := true }

/-- The merger of `n` inputs that are fed by hand. -/
def ofInputs (n : Nat) : Bench := .fanIn { fanIn := FanIn.ofSources (List.replicate n handFed) }

/-- A task of a stage: number 0 of a generator and of a batcher, one for each input of a fan-in. -/
def step (cancelled : Bool) (b : Bench) (task : Nat) : Option Bench :=
  match b with
  | generator s => (s.step cancelled).map generator
  | fanIn m => (m.forward cancelled task).map fanIn
  | batching size b => (b.step cancelled size).map (batching size)

def tasks : Bench → List Nat
  | fanIn m => List.range m.fanIn.lanes.length
  | _ => [0]

/-- The rules by which the tasks take turns; none of them sets another one going. -/
def rules (cancelled : Bool) : Turns.Rules Bench Nat where
  step := step cancelled
  woken _ _ _ := []
  tasks := tasks

/-- Changes input `i`; none if there is no such input. -/
def onInput? (f : Channel Record → Channel Record) (i : Nat) : Bench → Option Bench
  | generator _ => none
  | fanIn m => (m.fanIn.lanes[i]?).map fun lane =>
    let source := { lane.source with out := f lane.source.out }
    fanIn { m with fanIn := { m.fanIn with lanes := m.fanIn.lanes.set i { lane with source } } }
  | batching size b => if i = 0 then some (batching size { b with input := f b.input }) else none

/-- Input `i`. -/
def input? (i : Nat) : Bench → Option (Channel Record)
  | generator _ => none
  | fanIn m => (m.fanIn.lanes[i]?).map (·.source.out)
  | batching _ b => if i = 0 then some b.input else none

/-- Sends a record to input `i`; none if nobody will receive it or the sender was given up. -/
def send? (i : Nat) (r : Record) (b : Bench) : Option Bench := do
  let input ← b.input? i
  if input.closed || input.dropped then none else b.onInput? (·.push r) i

/-- Gives up the sender of input `i`. -/
def close (i : Nat) (b : Bench) : Bench := (b.onInput? Channel.close i).getD b

/-- Gives up the receiver of the output. -/
def drop : Bench → Bench
  | generator s => generator { s with out := s.out.drop }
  | fanIn m => fanIn (m.withOut m.fanIn.out.drop)
  | batching size b => batching size { b with out := b.out.drop }

/-- Takes the next item of the output. Nothing comes any more once the receiver is given up. -/
def receive : Bench → Received Item × Bench
  | generator s =>
    if s.out.dropped then (.finished, generator s)
    else
      let (r, out) := s.out.receive
      (r.map .record, generator { s with out })
  | fanIn m =>
    if m.fanIn.out.dropped then (.finished, fanIn m)
    else
      let (r, out) := m.fanIn.out.receive
      (r.map .record, fanIn (m.withOut out))
  | batching size b =>
    if b.out.dropped then (.finished, batching size b)
    else
      let (r, out) := b.out.receive
      (r.map .batch, batching size { b with out })

end Bench

/-- A step by hand. -/
inductive Move where
  | receive
  | send (i : Nat) (r : Record)
  | close (i : Nat)
  | cancel
  | drop
  | drain
deriving DecidableEq, Repr

/-- What a step by hand shows. -/
inductive Shown where
  | received (r : Received Item)
  | sent
  | rejected
  | done
  | drained (items : List Item) (complete : Bool)
deriving DecidableEq, Repr

/-- A bench whose tasks take turns, with the cancellation signal. -/
structure Workbench where
  turns : Turns Bench Nat
  cancelled : Bool := false

namespace Workbench

/-- A stage with all of its tasks set going. -/
def ofBench (b : Bench) (cancelled : Bool) : Workbench where
  turns := { state := b, row := b.tasks }
  cancelled := cancelled

def bench (w : Workbench) : Bench := w.turns.state

/-- Lets the stage run until it cannot go further. -/
def settle (w : Workbench) : Workbench := { w with turns := w.turns.settle (Bench.rules w.cancelled) }

/-- The tasks that can do something after a step by hand are set going. -/
def stir (w : Workbench) : Workbench := { w with turns := w.turns.stir (Bench.rules w.cancelled) }

/-- Another state of the stage by hand. -/
def withBench (w : Workbench) (state : Bench) : Workbench :=
  { w with turns := { w.turns with state } }.stir

/-- Receives until nothing comes, letting the stage run each time. -/
def drain : Nat → List Item → Workbench → List Item × Bool × Workbench
  | 0, items, w => (items.reverse, false, w)
  | fuel + 1, items, w =>
    match w.bench.receive with
    | (.item a, bench) => drain fuel (a :: items) (w.withBench bench).settle
    | (.nothing, _) => (items.reverse, false, w)
    | (.finished, _) => (items.reverse, true, w)

/-- Does a step by hand. -/
def act (w : Workbench) : Move → Shown × Workbench
  | .receive =>
    let (r, bench) := w.bench.receive
    (.received r, w.withBench bench)
  | .send i r => match w.bench.send? i r with
    | some bench => (.sent, w.withBench bench)
    | none => (.rejected, w)
  | .close i => (.done, w.withBench (w.bench.close i))
  | .cancel => (.done, { w with cancelled := true }.stir)
  | .drop => (.done, w.withBench w.bench.drop)
  | .drain =>
    let (items, complete, w) := drain Turns.plenty [] w
    (.drained items complete, w)

/-- Does steps with nothing in between. -/
def burst (w : Workbench) : List Move → List Shown × Workbench
  | [] => ([], w)
  | m :: ms =>
    let (shown, w) := w.act m
    let (rest, w) := burst w ms
    (shown :: rest, w)

end Workbench

/-- The batches that come out of a pipeline when they are taken one by one, up to a number of them. -/
def takeBatches (r : Turns.Rules Line Pipeline.Task) :
    Nat → List Batch → Turns Line Pipeline.Task → List Batch × Turns Line Pipeline.Task
  | 0, taken, t => (taken.reverse, t)
  | n + 1, taken, t =>
    match t.state.stages.out.receive with
    | (.item b, out) =>
      let state := { t.state with stages := { t.state.stages with out } }
      takeBatches r n (b :: taken) (({ t with state }.wake [Pipeline.Task.batch]).settle r)
    | _ => (taken.reverse, t)

/-- Runs the stages of some snapshots. With a number given, the signal is set off when that many
batches have been taken; the second list holds the batches that still come out behind it. -/
def flow (streams : List Snapshot) (size : Nat) (cancelAfter : Option Nat) :
    List Batch × List Batch :=
  let going := Line.rules false size
  let ending := Line.rules true size
  let t := (Line.start (Pipeline.ofSources (streams.map Source.ofSnapshot))).settle going
  match cancelAfter with
  | none => ((takeBatches going Turns.plenty [] t).1, [])
  | some n =>
    let (before, t) := takeBatches going n [] t
    (before, (takeBatches ending Turns.plenty [] ((t.stir ending).settle ending)).1)

end Telemetry.Rehearsal
