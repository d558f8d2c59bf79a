/-
The member format of compressed bodies: a head without name or time, stored blocks, the check sum of
the content and its length. `unpack?` reads what `pack` writes and refuses everything else.
-/
import Telemetry.Text.Utf8

namespace Telemetry.Envelope.Gzip

open Text.Utf8 (Octets)

/-- Moves one bit of the remainder out; the polynomial is written with its lowest power first. -/
def shift (r : UInt32) : UInt32 := if r &&& 1 == 1 then (r >>> 1) ^^^ 0xedb88320 else r >>> 1

/-- Takes an octet into the remainder. -/
def remainder (r : UInt32) (b : UInt8) : UInt32 :=
  (List.range 8).foldl (fun r _ => shift r) (r ^^^ b.toUInt32)

/-- The cyclic check sum of 32 bits. -/
def checkSum (content : Octets) : UInt32 := ~~~ content.foldl remainder 0xffffffff

/-- The octets of a number, the lowest first. -/
def littleEndian : Nat → Nat → Octets
  | 0, _ => []
  | k + 1, n => UInt8.ofNat (n % 256) :: littleEndian k (n / 256)

/-- No name, no time, no remark on how it was made, and an unknown system. -/
def head : Octets := [0x1f, 0x8b, 8, 0, 0, 0, 0, 0, 0, 0xff]

/-- The check sum and the length of the content. -/
def tail (content : Octets) : Octets :=
  littleEndian 4 (checkSum content).toNat ++ littleEndian 4 content.length

/-- The longest block. -/
def blockLimit : Nat := 65535

/-- A stored block: whether it is the last one, its length twice, and its content. -/
def block (last : Bool) (content : Octets) : Octets :=
  (if last then 1 else 0) :: littleEndian 2 content.length ++
    littleEndian 2 (blockLimit - content.length) ++ content

/-- A content as stored blocks. -/
def blocks (content : Octets) : Octets :=
  if content.length ≤ blockLimit then block true content
  else block false (content.take blockLimit) ++ blocks (content.drop blockLimit)
termination_by content.length
decreasing_by simp only [List.length_drop, blockLimit] at *; omega

/-- A member that holds the content. -/
def pack (content : Octets) : Octets := head ++ blocks content ++ tail content

/-- Reads stored blocks up to the last one; gives their content and what is behind them. -/
def readBlocks (bs : Octets) : Option (Octets × Octets) :=
  match bs with
  | last :: l0 :: l1 :: n0 :: n1 :: rest =>
    let length := l0.toNat + 256 * l1.toNat
    if 1 < last.toNat ∨ n0.toNat + 256 * n1.toNat ≠ blockLimit - length ∨ rest.length < length
    then none
    else if last = 1 then some (rest.take length, rest.drop length)
    else (readBlocks (rest.drop length)).map fun (content, behind) =>
      (rest.take length ++ content, behind)
  | _ => none
termination_by bs.length
decreasing_by simp only [List.length_drop, List.length_cons]; omega

/-- The content of a member. -/
def unpack? (bs : Octets) : Option Octets :=
  if bs.take 10 = head then
    match readBlocks (bs.drop 10) with
    | some (content, behind) => if behind = tail content then some content else none
    | none => none
  else none

end Telemetry.Envelope.Gzip
