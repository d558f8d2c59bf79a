/-
How a batch is packed: it is written as text, the text is signed where a key is set, and then it is
compressed. The tools for this may fail, and the first one that does ends the packing.
-/
import Telemetry.Delivery.Sending

namespace Telemetry

open Text.Utf8 (Octets)

/-- The tools that pack a batch: they write it, compute the keyed hash of a text, and compress a text. -/
structure Packing where
  write : Batch → Except Text.Placed Octets
  mac : Octets → Octets → Except String Octets
  compress : Octets → Except String Octets

namespace Packing

/-- Signs a payload. -/
def sign (t : Packing) (key payload : Octets) : Except PackFailure String :=
  match t.mac key payload with
  | .error reason => .error (.signing reason)
  | .ok code => .ok (String.ofList (Envelope.Base64.encode code))

/-- The signature of a payload, if there is a key. -/
def signature (t : Packing) (key : Option Octets) (payload : Octets) : Except PackFailure (Option String) :=
  match Envelope.signingKey key with
  | none => .ok none
  | some key => (t.sign key payload).map some

/-- Signs a payload as it is and compresses it. -/
def build (t : Packing) (key : Option Octets) (payload : Octets) : Except PackFailure Envelope :=
  match t.signature key payload with
  | .error f => .error f
  | .ok signature => match t.compress payload with
    | .error reason => .error (.compression reason)
    | .ok body => .ok { body, signature }

/-- Packs a batch. -/
def pack (t : Packing) (key : Option Octets) (b : Batch) : Except PackFailure Envelope :=
  match t.write b with
  | .error remark => .error (.encoding remark)
  | .ok payload => t.build key payload

/-- How batches are packed with some tools, and sent. -/
def settings (t : Packing) (key : Option Octets) (policy : Retry.Policy) (transport : Transport) :
    DeliverySettings where
  pack := t.pack key
  policy := policy
  transport := transport

/-- The tools of the agent, which do not fail. -/
def standard : Packing where
  write b := .ok (Wire.encodeBatch b)
  mac key payload := .ok (Envelope.Hmac.mac key payload)
  compress payload := .ok (Envelope.Gzip.pack payload)

end Packing

end Telemetry
