/-
What the agent does that others can see, and when: its polls, its reports and its posts. How the
collector answers a post may depend on every post before it.
-/
import Telemetry.Delivery.Failure
import Telemetry.Envelope.Basic
import Telemetry.Record
import Telemetry.Retry.Call

namespace Telemetry

/-- A worker: the drain it works for, and its number there. -/
structure Seat where
  drain : Nat
  worker : Nat
deriving DecidableEq, Repr

/-- A batch that was received by a worker, with its number in the order of receipt of its drain. -/
structure Parcel where
  number : Nat
  batch : Batch
deriving DecidableEq, Repr

/-- One attempt to send a batch. -/
structure Post where
  seat : Seat
  parcel : Parcel
  attempt : Nat
  envelope : Envelope
  start : Time
deriving DecidableEq, Repr

/-- How a post came to its end: it was answered, its task died, or nobody waits for it any more. -/
inductive Finish where
  | accepted
  | failed (f : PostFailure)
  | crashed
  | abandoned
deriving DecidableEq, Repr

/-- What can be seen of the agent. -/
inductive Entry where
  | polled (time : Time) (snapshot : Snapshot)
  | reported (time : Time) (snapshots : List Snapshot)
  | begun (post : Post)
  | ended (post : Post) (time : Time) (finish : Finish)
deriving DecidableEq, Repr

/-- What was seen, the latest first. -/
abbrev Journal := List Entry

namespace Journal

/-- The posts that were begun, the latest first. -/
def posts (j : Journal) : List Post := j.filterMap fun
  | .begun p => some p
  | _ => none

end Journal

/-- The answer to one post. -/
abbrev PostReply := Retry.Reply PostFailure Unit

/-- What answers the posts, given those before, the latest first. -/
abbrev Transport := List Post → Post → PostReply

/-- How an answer ends a post. -/
def Finish.ofAnswer : Retry.Answer PostFailure Unit → Finish
  | .crash => .crashed
  | .result (.ok _) => .accepted
  | .result (.error f) => .failed f

end Telemetry
