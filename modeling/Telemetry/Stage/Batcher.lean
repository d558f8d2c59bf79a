/-
The third stage: a task that puts records together to batches. A full batch is sent before another
record is taken; what is left when the input ends is sent as the last batch.
-/
import Telemetry.Channel
import Telemetry.Record

namespace Telemetry.Stage

/-- The task of the batcher: it fills a batch, or waits for a place for one. -/
inductive Batcher where
  | starting
  | filling (buffer : Batch)
  | offering (batch : Batch)
  | ended
deriving DecidableEq, Repr

namespace Batcher

/-- A batch has room for one record at least. -/
def effective (size : Nat) : Nat := max size 1

/-- The memory that a record takes in a batch, in octets. -/
def recordOctets : Nat := 40

/-- The most memory that can be asked for at once. -/
def memoryLimit : Nat := 0x7fffffffffffffff

/-- Whether room for a whole batch can be asked for. -/
def fits (size : Nat) : Bool := recordOctets * effective size ≤ memoryLimit

end Batcher

/-- The batcher between its input and its output. -/
structure Batching where
  input : Channel Record
  task : Batcher := .starting
  out : Channel Batch := {}
deriving DecidableEq, Repr

namespace Batching

/-- The task ends and gives up both ends; what it has not sent is lost. -/
def finish (b : Batching) : Batching where
  input := b.input.drop
  task := .ended
  out := b.out.close

/-- A step of the task. Asking for too much memory at the start ends it. -/
def step (cancelled : Bool) (size : Nat) (b : Batching) : Option Batching :=
  match b.task with
  | .ended => none
  | .starting =>
    if cancelled || !Batcher.fits size then some b.finish else some { b with task := .filling [] }
  | .filling buffer =>
    if cancelled then some b.finish
    else match b.input.receive with
      | (.item r, input) =>
        let buffer := buffer ++ [r]
        if buffer.length < Batcher.effective size then some { b with input, task := .filling buffer }
        else some { b with input, task := .offering buffer }
      | (.finished, _) => if buffer.isEmpty then some b.finish else some { b with task := .offering buffer }
      | (.nothing, _) => none
  | .offering batch =>
    if cancelled then some b.finish
    else if b.out.dropped then some b.finish
    else if b.out.hasRoom then some { b with task := .filling [], out := b.out.push batch }
    else none

end Batching

end Telemetry.Stage
