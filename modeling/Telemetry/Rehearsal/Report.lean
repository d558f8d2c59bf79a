/-
What a collector has seen, told from the journal of an agent.
-/
import Telemetry.Delivery.Post
import Telemetry.Json.Skip
import Telemetry.Wire.Decode

namespace Telemetry.Rehearsal

open Text.Utf8 (Octets)

/-- A post with its end, if it has one. -/
structure Sighting where
  post : Post
  finish : Option (Time × Finish)

namespace Sighting

/-- The posts of a journal, the first one first. -/
def ofJournal (j : Journal) : List Sighting :=
  j.posts.reverse.map fun post => {
    post
    finish := j.findSome? fun
      | .ended p time finish =>
        if p.seat = post.seat ∧ p.parcel.number = post.parcel.number ∧ p.attempt = post.attempt then
          some (time, finish)
        else none
      | _ => none }

/-- Whether a post is open at a moment; it is not any more at the moment of its end. -/
def isOpenAt (s : Sighting) (time : Time) : Bool :=
  s.post.start ≤ time && s.finish.all fun (t, _) => time < t

/-- The most posts that are open at one moment. -/
def peak (ss : List Sighting) : Nat :=
  (ss.map fun s => ss.countP (·.isOpenAt s.post.start)).foldl max 0

/-- What a post was about, as the collector reads it. -/
def payload? (s : Sighting) : Option Octets := Envelope.Gzip.unpack? s.post.envelope.body

def isAccepted (s : Sighting) : Bool := match s.finish with
  | some (_, .accepted) => true
  | _ => false

/-- The records of the posts that were accepted, as far as the collector can read them. -/
def accepted (ss : List Sighting) : List Record :=
  (ss.filter (·.isAccepted)).flatMap fun s =>
    match s.payload?.map Wire.decodeBatch with
    | some (.ok b) => b
    | _ => []

/-- Whether octets are the text of a list. -/
def isList (bs : Octets) : Bool :=
  match Json.scan bs with
  | .listOpen :: rest => Json.Skip.value? (.listOpen :: rest) == some []
  | _ => false

/-- Whether an envelope is as a collector with the key wants it. -/
def isProper (key : Option Octets) (s : Sighting) : Bool :=
  match s.payload? with
  | none => false
  | some payload => isList payload && match s.post.envelope.signature with
    | none => (Envelope.signingKey key).isNone
    | some signature =>
      (Envelope.signingKey key).isSome && Envelope.verify key payload signature

end Sighting

end Telemetry.Rehearsal
