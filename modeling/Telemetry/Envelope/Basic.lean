/-
What is sent for a batch: the compressed payload and, where a key is set, the signature of the
payload as it was before the compression. A receiver with a key accepts a payload with its signature
only; a receiver without one accepts everything.
-/
import Telemetry.Envelope.Base64
import Telemetry.Envelope.Gzip
import Telemetry.Envelope.Hmac

namespace Telemetry

open Text.Utf8 (Octets)

/-- A body ready to be sent. -/
structure Envelope where
  body : Octets
  signature : Option String
deriving DecidableEq, Repr

namespace Envelope

/-- An empty key is none. -/
def signingKey (key : Option Octets) : Option Octets := key.filter (!·.isEmpty)

/-- The signature of a payload. -/
def sign (key payload : Octets) : String := String.ofList (Base64.encode (Hmac.mac key payload))

/-- Signs a payload and compresses it. -/
def ofPayload (key : Option Octets) (payload : Octets) : Envelope where
  body := Gzip.pack payload
  signature := (signingKey key).map fun key => sign key payload

/-- Whether a receiver accepts a signature of a payload. -/
def verify (key : Option Octets) (payload : Octets) (signature : String) : Bool :=
  match signingKey key with
  | none => true
  | some key => Base64.decode? signature.toList == some (Hmac.mac key payload)

/-- The name of the header with the signature. -/
def signatureHeader : String := "HashSHA256"

/-- The headers of a request, in their order. -/
def headers (e : Envelope) : List (String × String) :=
  [("Content-Type", "application/json"), ("Content-Encoding", "gzip"), ("Accept-Encoding", "gzip")] ++
    (e.signature.map fun s => (signatureHeader, s)).toList

/-- What is shown of the settings behind an envelope: whether it is signed, and never the key. -/
def builderText (key : Option Octets) : String :=
  "EnvelopeBuilder \x7b signing: " ++ (if (signingKey key).isSome then "true" else "false") ++ " \x7d"

end Envelope

end Telemetry
