/-
Octets as text of 64 characters, four for every three octets, filled up with `=` at the end. The
reader takes only what the writer writes: whole groups of four, no blanks, and nothing but zeros in
the bits that the last group does not use.
-/
import Telemetry.Text.Utf8

namespace Telemetry.Envelope.Base64

open Text.Utf8 (Octets)

/-- The character for six bits. -/
def symbol (n : Nat) : Char :=
  if n < 26 then Char.ofNat (65 + n)
  else if n < 52 then Char.ofNat (71 + n)
  else if n < 62 then Char.ofNat (n - 4)
  else if n = 62 then '+'
  else '/'

/-- The six bits that a character stands for. -/
def sextet? (c : Char) : Option Nat :=
  let n := c.toNat
  if 65 ≤ n ∧ n ≤ 90 then some (n - 65)
  else if 97 ≤ n ∧ n ≤ 122 then some (n - 71)
  else if 48 ≤ n ∧ n ≤ 57 then some (n + 4)
  else if c = '+' then some 62
  else if c = '/' then some 63
  else none

/-- Three octets as four characters, two as three and one as two. -/
def encode : Octets → List Char
  | [] => []
  | [a] => [symbol (a.toNat / 4), symbol (a.toNat % 4 * 16), '=', '=']
  | [a, b] =>
    [symbol (a.toNat / 4), symbol (a.toNat % 4 * 16 + b.toNat / 16),
      symbol (b.toNat % 16 * 4), '=']
  | a :: b :: c :: rest =>
    symbol (a.toNat / 4) :: symbol (a.toNat % 4 * 16 + b.toNat / 16) ::
      symbol (b.toNat % 16 * 4 + c.toNat / 64) :: symbol (c.toNat % 64) :: encode rest

/-- The octet in the last group with one. -/
def single? (w x : Char) : Option Octets := do
  let w ← sextet? w
  let x ← sextet? x
  if x % 16 = 0 then some [UInt8.ofNat (w * 4 + x / 16)] else none

/-- The octets in the last group with two. -/
def pair? (w x y : Char) : Option Octets := do
  let w ← sextet? w
  let x ← sextet? x
  let y ← sextet? y
  if y % 4 = 0 then some [UInt8.ofNat (w * 4 + x / 16), UInt8.ofNat (x % 16 * 16 + y / 4)] else none

/-- The octets in a full group. -/
def triple? (w x y z : Char) : Option Octets := do
  let w ← sextet? w
  let x ← sextet? x
  let y ← sextet? y
  let z ← sextet? z
  some [UInt8.ofNat (w * 4 + x / 16), UInt8.ofNat (x % 16 * 16 + y / 4),
    UInt8.ofNat (y % 4 * 64 + z)]

/-- The octets that a text stands for; none if it is not what `encode` writes. -/
def decode? : List Char → Option Octets
  | [] => some []
  | [w, x, '=', '='] => single? w x
  | [w, x, y, '='] => pair? w x y
  | w :: x :: y :: z :: rest => do
    let group ← triple? w x y z
    let others ← decode? rest
    some (group ++ others)
  | _ => none

end Telemetry.Envelope.Base64
