/-
A document as a row of tokens. White space between them is dropped, and the row ends with `junk`
where the text stops being made of tokens, so that a reader which goes through the row meets the
first fault of the document first.
-/
import Telemetry.Json.Literal
import Telemetry.Number.Numeral

namespace Telemetry.Json

open Telemetry.Text.Utf8 (Octets)
open Telemetry.Number (Numeral readNumeral splitDigits)

/-- The smallest parts of a document. A text holds what stands between its quotes. -/
inductive Token where
  | listOpen
  | listClose
  | mapOpen
  | mapClose
  | comma
  | colon
  | null
  | bool (b : Bool)
  | number (n : Numeral)
  | text (raw : Octets)
  | junk
deriving DecidableEq, Repr

/-- White space between tokens. -/
def isSpace (b : UInt8) : Bool := b == 32 || b == 10 || b == 9 || b == 13

namespace Token

/-- The token that a text begins with, and the rest of the text. -/
def read? (bs : Octets) : Option (Token × Octets) :=
  match bs with
  | 91 :: rest => some (listOpen, rest)
  | 93 :: rest => some (listClose, rest)
  | 123 :: rest => some (mapOpen, rest)
  | 125 :: rest => some (mapClose, rest)
  | 44 :: rest => some (comma, rest)
  | 58 :: rest => some (colon, rest)
  | 34 :: rest => (Literal.split [] rest).map fun (raw, rest) => (text raw, rest)
  | 110 :: 117 :: 108 :: 108 :: rest => some (null, rest)
  | 116 :: 114 :: 117 :: 101 :: rest => some (bool true, rest)
  | 102 :: 97 :: 108 :: 115 :: 101 :: rest => some (bool false, rest)
  | bs => (readNumeral bs).map fun (n, rest) => (number n, rest)

/-- A token is made of at least one octet. -/
theorem length_of_read? {bs rest : Octets} {t : Token} (h : read? bs = some (t, rest)) :
    rest.length < bs.length := by
  unfold read? at h
  split at h
  case h_7 r =>
    obtain ⟨⟨raw, r'⟩, hs, he⟩ := Option.map_eq_some_iff.1 h
    have := Literal.length_of_split hs
    simp only [Prod.mk.injEq] at he
    simp only [← he.2, List.length_cons]
    omega
  case h_11 =>
    obtain ⟨⟨n, r'⟩, hs, he⟩ := Option.map_eq_some_iff.1 h
    have := Number.length_of_readNumeral hs
    simp only [Prod.mk.injEq] at he
    simp only [← he.2]
    omega
  all_goals
    simp only [Option.some.injEq, Prod.mk.injEq] at h
    simp only [← h.2, List.length_cons]
    omega

end Token

/-- The tokens of a document, behind those collected so far in reverse. -/
def scanFrom (acc : List Token) (bs : Octets) : List Token :=
  match bs with
  | [] => acc.reverse
  | b :: rest =>
    if isSpace b then scanFrom acc rest
    else match _h : Token.read? (b :: rest) with
      | none => (.junk :: acc).reverse
      | some (t, rest') => scanFrom (t :: acc) rest'
termination_by bs.length
decreasing_by
  · simp
  · exact Token.length_of_read? _h

/-- The tokens of a document. -/
def scan (bs : Octets) : List Token := scanFrom [] bs

end Telemetry.Json
