/-
A keyed hash: the hash of the message behind the key, hashed again behind the key, with the key
brought to the length of a block.
-/
import Telemetry.Envelope.Sha256

namespace Telemetry.Envelope.Hmac

open Text.Utf8 (Octets)

/-- A key of the length of a block: a longer one is hashed, a shorter one ends in zeros. -/
def blockKey (key : Octets) : Octets :=
  let key := if 64 < key.length then Sha256.digest key else key
  key ++ List.replicate (64 - key.length) 0

/-- The keyed hash of a message. -/
def mac (key message : Octets) : Octets :=
  let masked (mask : UInt8) : Octets := (blockKey key).map (· ^^^ mask)
  Sha256.digest (masked 0x5c ++ Sha256.digest (masked 0x36 ++ message))

theorem length_mac (key message : Octets) : (mac key message).length = 32 := rfl

end Telemetry.Envelope.Hmac
