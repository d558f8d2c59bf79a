/-
UTF-8 in both directions: every character has one form of one to four octets, and the reader accepts
exactly those forms. It refuses overlong forms, surrogates and values beyond the last character.
-/

namespace Telemetry.Text.Utf8

abbrev Octets := List UInt8

/-- A continuation octet: `10` and six bits. -/
def continuation (n : Nat) : UInt8 := UInt8.ofNat (128 + n % 64)

/-- The octets of one character. -/
def encodeChar (c : Char) : Octets :=
  let n := c.toNat
  if n < 0x80 then [UInt8.ofNat n]
  else if n < 0x800 then [UInt8.ofNat (0xC0 + n / 64), continuation n]
  else if n < 0x10000 then
    [UInt8.ofNat (0xE0 + n / 4096), continuation (n / 64), continuation n]
  else
    [UInt8.ofNat (0xF0 + n / 262144), continuation (n / 4096), continuation (n / 64), continuation n]

def encode (cs : List Char) : Octets := cs.flatMap encodeChar

/-- The six bits of a continuation octet. -/
def tail? (b : UInt8) : Option Nat :=
  if 128 ≤ b ∧ b < 192 then some (b.toNat - 128) else none

/-- The character of a code point that needed at least `least` to be written that long. -/
def scalar? (least n : Nat) : Option Char :=
  if least ≤ n ∧ n.isValidChar then some (Char.ofNat n) else none

/-- The character written in two octets. -/
def two? (a b : UInt8) : Option Char := do
  scalar? 0x80 ((a.toNat - 0xC0) * 64 + (← tail? b))

/-- The character written in three octets. -/
def three? (a b c : UInt8) : Option Char := do
  scalar? 0x800 (((a.toNat - 0xE0) * 64 + (← tail? b)) * 64 + (← tail? c))

/-- The character written in four octets. -/
def four? (a b c d : UInt8) : Option Char := do
  scalar? 0x10000
    ((((a.toNat - 0xF0) * 64 + (← tail? b)) * 64 + (← tail? c)) * 64 + (← tail? d))

/-- Collects the characters of a text; the first octet of each says how long it is. -/
def decodeFrom (acc : List Char) : Octets → Option (List Char)
  | [] => some acc.reverse
  | a :: rest =>
    if a < 0x80 then decodeFrom (Char.ofNat a.toNat :: acc) rest
    else if a < 0xC0 then none
    else if a < 0xE0 then
      match rest with
      | b :: rest => match two? a b with
        | some ch => decodeFrom (ch :: acc) rest
        | none => none
      | _ => none
    else if a < 0xF0 then
      match rest with
      | b :: c :: rest => match three? a b c with
        | some ch => decodeFrom (ch :: acc) rest
        | none => none
      | _ => none
    else if a < 0xF8 then
      match rest with
      | b :: c :: d :: rest => match four? a b c d with
        | some ch => decodeFrom (ch :: acc) rest
        | none => none
      | _ => none
    else none

/-- The characters of a text, none when it is not well formed. -/
def decode (bs : Octets) : Option (List Char) := decodeFrom [] bs

/-- The octets of a string. -/
def ofString (s : String) : Octets := encode s.toList

end Telemetry.Text.Utf8
