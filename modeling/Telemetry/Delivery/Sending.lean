/-
The delivery of one batch: it is packed once, and the same envelope is posted until a post is accepted
or no attempt is left. A batch that cannot be packed is not posted at all.
-/
import Telemetry.Delivery.Post
import Telemetry.Wire.Encode

namespace Telemetry

open Text.Utf8 (Octets)

/-- How batches are packed and sent. -/
structure DeliverySettings where
  pack : Batch → Except PackFailure Envelope
  policy : Retry.Policy
  transport : Transport

/-- Writes a batch as text, signs it and compresses it. -/
def Envelope.ofBatch (key : Option Octets) (b : Batch) : Except PackFailure Envelope :=
  .ok (Envelope.ofPayload key (Wire.encodeBatch b))

/-- A delivery under way: it failed before the first post, or its envelope is being sent. -/
inductive Sending where
  | unpacked (f : PackFailure)
  | sending (envelope : Envelope) (call : Retry.Call PostFailure Unit) (post : Option Post)

namespace Sending

/-- Packs a batch for sending. -/
def ofBatch (s : DeliverySettings) (b : Batch) : Sending :=
  match s.pack b with
  | .error f => .unpacked f
  | .ok envelope => .sending envelope (Retry.Call.initial s.policy) none

/-- What came of a delivery. A success gives the number of its posts. -/
inductive Result where
  | delivered (attempts : Nat)
  | failed (f : DeliveryFailure)
  | crashed
deriving DecidableEq, Repr

/-- What came of a delivery, if it is over. -/
def result? : Sending → Option Result
  | unpacked f => some (.failed (.unpacked f))
  | sending _ (.ended n (.ok _)) _ => some (.delivered n)
  | sending _ (.ended _ (.error f)) _ => some (.failed (.unsent f))
  | sending _ (.crashed _) _ => some .crashed
  | sending _ _ _ => none

/-- The moment a delivery is waiting for. -/
def timer? : Sending → Option Time
  | unpacked _ => none
  | sending _ call _ => call.timer?

/-- What is written down when the post under way is over. -/
def closing (now : Time) (cancelled : Bool) (call : Retry.Call PostFailure Unit) (post : Option Post) :
    Journal :=
  match post, call with
  | some p, .attempting _ _ _ answer =>
    [.ended p now (if cancelled then .abandoned else Finish.ofAnswer answer)]
  | _, _ => []

/-- A step of a delivery, with what is written down for it, the latest first. -/
def step (s : DeliverySettings) (now : Time) (cancelled : Bool) (journal : Journal) (seat : Seat)
    (parcel : Parcel) : Sending → Option (Sending × Journal)
  | unpacked _ => none
  | sending envelope call post =>
    match call.move s.policy PostFailure.classify now cancelled with
    | .wait => none
    | .become next => some (sending envelope next none, closing now cancelled call post)
    | .begin n pause =>
      let post : Post := { seat, parcel, attempt := n + 1, envelope, start := now }
      let reply := s.transport journal.posts post
      let next := Retry.Call.begin s.policy PostFailure.classify now n pause reply
      match next with
      | .attempting _ _ _ _ => some (sending envelope next (some post), [.begun post])
      | _ =>
        some (sending envelope next none, [.ended post now (Finish.ofAnswer reply.answer), .begun post])

end Sending

end Telemetry
