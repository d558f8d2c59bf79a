/-
Text in double quotes on the wire. The writer escapes quotes, backslashes and control characters
and leaves everything else as it is. The reader first finds the end of the quoted text, checking
nothing but its escapes, and only turns it into characters when the text is used: then escaped
surrogates have to come in pairs and the octets have to be UTF-8.
-/
import Telemetry.Text.Utf8
import Telemetry.Text.Quoted

namespace Telemetry.Json.Literal

open Telemetry.Text (hexDigit)
open Telemetry.Text.Utf8 (Octets)

/-! ## Writing -/

/-- A character between quotes. -/
def escapeChar (c : Char) : List Char :=
  if c = '"' then ['\\', '"']
  else if c = '\\' then ['\\', '\\']
  else if c.toNat = 8 then ['\\', 'b']
  else if c.toNat = 9 then ['\\', 't']
  else if c.toNat = 10 then ['\\', 'n']
  else if c.toNat = 12 then ['\\', 'f']
  else if c.toNat = 13 then ['\\', 'r']
  else if c.toNat < 32 then
    ['\\', 'u', '0', '0', hexDigit (c.toNat / 16), hexDigit (c.toNat % 16)]
  else [c]

/-- A text between quotes. -/
def write (cs : List Char) : List Char := '"' :: cs.flatMap escapeChar ++ ['"']

/-! ## Reading -/

/-- The value of a hexadecimal digit of either case. -/
def hexValue? (b : UInt8) : Option Nat :=
  if 48 ≤ b ∧ b ≤ 57 then some (b.toNat - 48)
  else if 97 ≤ b ∧ b ≤ 102 then some (b.toNat - 87)
  else if 65 ≤ b ∧ b ≤ 70 then some (b.toNat - 55)
  else none

/-- The value of four hexadecimal digits. -/
def unit? (a b c d : UInt8) : Option Nat := do
  return ((← hexValue? a) * 16 + (← hexValue? b)) * 256 + (← hexValue? c) * 16 + (← hexValue? d)

/-- The octet that a one-letter escape stands for. -/
def shortEscape? (b : UInt8) : Option UInt8 :=
  if b = 34 then some 34
  else if b = 92 then some 92
  else if b = 47 then some 47
  else if b = 98 then some 8
  else if b = 102 then some 12
  else if b = 110 then some 10
  else if b = 114 then some 13
  else if b = 116 then some 9
  else none

/-- Splits a text behind an opening quote into what stands before the closing quote, escapes
included, and what stands behind it. Refuses control characters and escapes that do not exist. -/
def split (acc : Octets) : Octets → Option (Octets × Octets)
  | [] => none
  | 34 :: rest => some (acc.reverse, rest)
  | 92 :: 117 :: a :: b :: c :: d :: rest =>
    if (unit? a b c d).isSome then split (d :: c :: b :: a :: 117 :: 92 :: acc) rest else none
  | 92 :: b :: rest => if (shortEscape? b).isSome then split (b :: 92 :: acc) rest else none
  | b :: rest => if b < 32 then none else split (b :: acc) rest

/-- What a unit of UTF-16 is: a character of its own, or half of one. -/
inductive Half where
  | whole (c : Char)
  | high (n : Nat)
  | low (n : Nat)

def classify (n : Nat) : Half :=
  if 0xD800 ≤ n ∧ n < 0xDC00 then .high (n - 0xD800)
  else if 0xDC00 ≤ n ∧ n < 0xE000 then .low (n - 0xDC00)
  else .whole (Char.ofNat n)

/-- The character of a pair of surrogates. -/
def ofPair (high low : Nat) : Char := Char.ofNat (high * 1024 + low + 0x10000)

/-- Resolves the escapes of a quoted text to octets, in reverse. None for a lone surrogate. -/
def unescape (acc : Octets) : Octets → Option Octets
  | [] => some acc.reverse
  | 92 :: 117 :: a :: b :: c :: d :: rest =>
    match unit? a b c d with
    | none => none
    | some n => match classify n with
      | .whole ch => unescape ((Text.Utf8.encodeChar ch).reverse ++ acc) rest
      | .low _ => none
      | .high h => match rest with
        | 92 :: 117 :: e :: f :: g :: i :: rest => match unit? e f g i with
          | none => none
          | some m => match classify m with
            | .low l => unescape ((Text.Utf8.encodeChar (ofPair h l)).reverse ++ acc) rest
            | _ => none
        | _ => none
  | 92 :: b :: rest => match shortEscape? b with
    | some o => unescape (o :: acc) rest
    | none => none
  | b :: rest => unescape (b :: acc) rest

/-- The characters of a quoted text, none when it cannot be used. -/
def decode? (raw : Octets) : Option (List Char) := do Text.Utf8.decode (← unescape [] raw)

/-- The string that a quoted text stands for. -/
def string? (raw : Octets) : Option String := (decode? raw).map String.ofList

/-- Finding the closing quote uses up at least one octet. -/
theorem length_of_split {acc bs content rest : Octets} (h : split acc bs = some (content, rest)) :
    rest.length < bs.length := by
  fun_induction split acc bs with
  | case1 => simp at h
  | case2 => simp_all
  | case3 _ _ _ _ _ _ _ ih => have := ih h; simp only [List.length_cons]; omega
  | case4 => simp at h
  | case5 _ _ _ _ _ ih => have := ih h; simp only [List.length_cons]; omega
  | case6 => simp at h
  | case7 => simp at h
  | case8 _ _ _ _ _ _ _ ih => have := ih h; simp only [List.length_cons]; omega

end Telemetry.Json.Literal
